import DiceHost.Proofs.Context.Players
import DiceHost.Proofs.Json.Quoted
import DiceHost.Proofs.Literal.RoundTrip

/-! # Cached cards that stand in

A card that is bound is also written into the data of its group. From there it goes through the
writer of literals, the column of the row and the reader of literals, and what comes back is what
the rows of the card give, with an object for each list without items.
-/
namespace DiceHost
variable {σ : Type}

/-! ## Copies of cards -/

namespace Card

/-- A snapshot is made of texts and of the attributes. -/
theorem forall_mem_snapshot {p : Json → Prop} {card : Card} (htext : ∀ s, p (.str s))
    (hattributes : ∀ field ∈ card.attributes, p field.2) :
    ∀ field ∈ card.snapshot, p field.2 := by
  intro field hfield
  rcases KeyTable.mem_of_mem_insertAll hfield with hattribute | hown
  · exact hattributes field hattribute
  · have hentry := KeyTable.mem_of_mem_ofList hown
    simp only [List.mem_cons, List.not_mem_nil, or_false] at hentry
    rcases hentry with rfl | rfl | rfl
    · exact htext card.name
    · exact htext card.name
    · exact htext card.kind

theorem numbers_snapshot {int : Int → Prop} {float : Float → Prop} {card : Card}
    (h : (Json.obj card.attributes).Numbers int float) :
    (Json.obj card.snapshot).Numbers int float :=
  Json.numbersFields_iff.mpr
    (forall_mem_snapshot (p := fun v => v.Numbers int float) (fun _ => trivial)
      (Json.numbersFields_iff.mp h))

theorem held_snapshot {card : Card} (h : (Json.obj card.attributes).Held) :
    (Json.obj card.snapshot).Held where
  ordered := by
    refine ⟨KeyTable.ordered_insertAll (KeyTable.ordered_ofList _) _, ?_⟩
    exact Json.orderedFields_iff.mpr
      (forall_mem_snapshot (p := Json.Ordered) (fun _ => trivial)
        (Json.orderedFields_iff.mp h.ordered.2))
  numbers := numbers_snapshot h.numbers

/-- A card whose attributes are values of the host, with floats whose texts read as the same
floats. -/
structure Writable (card : Card) : Prop where
  held : (Json.obj card.attributes).Held
  readsBack : (Json.obj card.attributes).Numbers (fun _ => True) Literal.ReadsBack

/-- The snapshot that a copy is read as; of a card that nests too deep there is none. -/
def copied? (card : Card) : Option Fields :=
  if (Json.obj card.snapshot).depth ≤ 128 then some (Literal.normalFields card.snapshot) else none

theorem decodeCached_cacheBlob {card : Card} (h : card.Writable) (key : String) :
    decodeCached key card.cacheBlob =
      match card.copied? with
      | some snapshot => .ok snapshot
      | none => .error (.cacheCorruption key "unparsable literal") := by
  have hliteral := Literal.decode_encode (held_snapshot h.held) (numbers_snapshot h.readsBack)
  unfold decodeCached cacheBlob copied?
  dsimp only
  rw [hliteral]
  by_cases hdepth : (Json.obj card.snapshot).depth ≤ 128
  · rw [if_pos hdepth, if_pos hdepth]
    rfl
  · rw [if_neg hdepth, if_neg hdepth]

end Card

/-! ## Cards in stores -/

/-- What a store does with bindings, with cards by name and with texts in its keyed data. -/
class BindingStore (σ : Type) [Store σ] [CardStore σ] where
  /-- every place of keyed data is used once -/
  Tidy : σ → Prop
  /-- the store with a card bound -/
  bind : σ → Binding → σ
  /-- the store after a write -/
  keep : σ → Write → σ
  tidy_bind {s : σ} (h : Tidy s) (binding : Binding) : Tidy (bind s binding)
  setBinding_run (s : σ) (binding : Binding) :
    (Store.setBinding binding : Action σ Unit) s = (.ok (), bind s binding)
  setValue_run (s : σ) (write : Write) :
    (Store.setValue write.scope write.id write.key write.value : Action σ Unit) s =
      (.ok (), keep s write)
  binding?_bind (s : σ) (binding : Binding) :
    (Store.binding? binding.owner binding.group (bind s binding)).1 = .ok (some binding)
  binding?_keep (s : σ) (write : Write) (owner : Owner) (group : String) :
    (Store.binding? owner group (keep s write)).1 = (Store.binding? owner group s).1
  card?_bind (s : σ) (binding : Binding) (owner : Owner) (name : String) :
    (Store.card? owner name (bind s binding)).1 = (Store.card? owner name s).1
  card?_keep (s : σ) (write : Write) (owner : Owner) (name : String) :
    (Store.card? owner name (keep s write)).1 = (Store.card? owner name s).1
  card?_named {s : σ} {owner : Owner} {name : String} {card : Card}
    (h : (Store.card? owner name s).1 = .ok (some card)) : card.name = name
  /-- the active card of an owner is found again by its name -/
  card?_active {s : σ} (hs : (CardStore.deck s).Sound) {owner : Owner} {card : Card}
    (h : (Store.activeCard? owner s).1 = .ok (some card)) :
    (Store.card? owner card.name s).1 = .ok (some card)
  value?_keep (s : σ) (scope : DataScope) (id key text : String) :
    (Store.value? scope id key (keep s ⟨scope, id, key, .str text⟩)).1 = .ok (some (.str text))
  values_keep {s : σ} (h : Tidy s) (scope : DataScope) (id key text : String) :
    ∃ fields, (Store.values scope id (keep s ⟨scope, id, key, .str text⟩)).1 = .ok fields ∧
      KeyTable.find? fields key = some (.str text)

/-! ### Memory -/

theorem Memory.run_setValue (m : Memory) (write : Write) :
    (Store.setValue write.scope write.id write.key write.value : Action Memory Unit) m =
      (.ok (), m.setValue write.scope write.id write.key write.value) := rfl

instance : BindingStore Memory where
  bind := Memory.setBinding
  keep m write := m.setValue write.scope write.id write.key write.value
  Tidy _ := True
  tidy_bind _ _ := trivial
  setBinding_run _ _ := rfl
  setValue_run := Memory.run_setValue
  binding?_bind m binding := by
    have hat : binding.isAt binding.owner binding.group = true := decide_eq_true ⟨rfl, rfl⟩
    have hfound : (m.setBinding binding).binding? binding.owner binding.group = some binding := by
      rw [Memory.binding?, Memory.setBinding, List.find?_cons, hat]
    exact congrArg Except.ok hfound
  binding?_keep m write owner group := by
    cases write.scope <;> rfl
  card?_bind _ _ _ _ := rfl
  card?_keep m write owner name := by
    cases write.scope <;> rfl
  card?_named {m owner name card} h := by
    have hfound : m.card? owner name = some card := Except.ok.inj h
    exact (Card.isNamed_iff.mp (List.find?_some hfound)).2
  card?_active {m} hm {owner card} h := by
    have hactive : m.activeCard? owner = some card := Except.ok.inj h
    obtain ⟨hmem, howner⟩ := List.mem_filter.mp (List.mem_of_find?_eq_some hactive)
    have hdistinct : m.cards.Pairwise (fun a b => ¬ a.Same b) := List.pairwise_map.mp hm.names
    have hfound : m.card? owner card.name = some card := by
      refine find?_eq_some_of_mem Card.Same.symm hdistinct (fun a b ha hb => ?_) hmem
        (Card.isNamed_iff.mpr ⟨of_decide_eq_true howner, rfl⟩)
      obtain ⟨haowner, haname⟩ := Card.isNamed_iff.mp ha
      obtain ⟨hbowner, hbname⟩ := Card.isNamed_iff.mp hb
      exact ⟨haowner.trans hbowner.symm, haname.trans hbname.symm⟩
    exact congrArg Except.ok hfound
  value?_keep m scope id key text := by
    have hvalue : (m.setValue scope id key (.str text)).value? scope id key = some (.str text) := by
      rw [Memory.value?, values_setValue, if_pos ⟨rfl, rfl⟩, KeyTable.find?_insert_self]
    exact congrArg Except.ok hvalue
  values_keep {m} _ scope id key text := by
    refine ⟨(m.setValue scope id key (.str text)).values scope id, rfl, ?_⟩
    rw [values_setValue, if_pos ⟨rfl, rfl⟩, KeyTable.find?_insert_self]

/-! ### Tables -/

/-- A column that gives back every text. -/
class TextColumn (γ : Type) [Column γ] : Prop where
  decode_str (text : String) : Column.decode (Column.encode (.str text) : γ) = some (.str text)

instance : TextColumn JsonText where
  decode_str := Json.read_compact_str

instance : TextColumn Verbatim where
  decode_str _ := rfl

section Tables
variable {γ : Type} [Column γ]

omit [Column γ] in
theorem Database.distinct_rows {d : Database γ} (h : d.deck.Sound) :
    d.cards.Pairwise (fun a b => ¬ a.bare.Same b.bare) := List.pairwise_map.mp h.names

omit [Column γ] in
theorem Database.exists_row_putColumn (d : Database γ) (scope : DataScope) (id key : String)
    (column : γ) : ∃ row,
      (d.putColumn scope id key column).data.find? (DataRow.isAt scope id key) = some row ∧
        row.value = column := by
  have hfound := find?_putColumn d scope id key column scope id key
  rw [if_pos ⟨rfl, rfl, rfl⟩] at hfound
  exact Option.map_eq_some_iff.mp hfound

theorem Database.run_setValue (d : Database γ) (write : Write) :
    (Store.setValue write.scope write.id write.key write.value : Action (Database γ) Unit) d =
      (.ok (), d.putColumn write.scope write.id write.key (Column.encode write.value)) := rfl

instance [TextColumn γ] : BindingStore (Database γ) where
  bind := Database.setBinding
  Tidy d := d.data.Pairwise (fun (a b : DataRow γ) => ¬ a.Same b)
  keep d write := d.putColumn write.scope write.id write.key (Column.encode write.value)
  tidy_bind h _ := h
  setBinding_run _ _ := rfl
  setValue_run := Database.run_setValue
  binding?_bind d binding := by
    have hnone : (d.withoutBinding binding.owner binding.group).find? (fun other =>
        other.owner = binding.owner ∧ other.group = binding.group) = none := by
      refine List.find?_eq_none.mpr (fun other hother hat => ?_)
      have hout := (List.mem_filter.mp hother).2
      simp only [Bool.not_eq_true', decide_eq_false_iff_not] at hout
      exact hout (of_decide_eq_true hat)
    have hfound : (d.setBinding binding).binding? binding.owner binding.group = some binding := by
      rw [Database.binding?, Database.setBinding, List.find?_append, hnone]
      simp
    exact congrArg Except.ok hfound
  binding?_keep d write owner group := by
    have hrest : (d.putColumn write.scope write.id write.key
        (Column.encode write.value)).bindings = d.bindings := by
      unfold Database.putColumn
      split <;> rfl
    exact congrArg (fun kept : List Binding => Except.ok (kept.find? _)) hrest
  card?_bind d binding owner name := by
    simp only [Store.card?, run_readingOrFail]
    rfl
  card?_keep d write owner name := by
    have hrest : (d.putColumn write.scope write.id write.key
        (Column.encode write.value)).cards = d.cards := by
      unfold Database.putColumn
      split <;> rfl
    simp only [Store.card?, run_readingOrFail, Database.card?, Database.cardRow?, hrest]
  card?_named {d owner name card} h := by
    simp only [Store.card?, run_readingOrFail] at h
    obtain ⟨row, hrow, hname⟩ := exists_row_of_decodeFound h
    have hnamed := List.find?_some hrow
    simp only [CardRow.isNamed, decide_eq_true_eq] at hnamed
    exact hname.symm.trans hnamed.2
  card?_active {d} hd {owner card} h := by
    simp only [Store.activeCard?, run_readingOrFail] at h
    obtain ⟨row, hrow, hcard⟩ := exists_of_decodeFound h
    have howner := List.find?_some hrow
    simp only [Bool.decide_and, Bool.and_eq_true, decide_eq_true_eq] at howner
    have hnamed : row.isNamed owner card.name = true :=
      decide_eq_true ⟨howner.1, CardRow.name_of_card hcard⟩
    have hfound : d.cardRow? owner card.name = some row := by
      refine find?_eq_some_of_mem (fun a b hsame => hsame.symm) (Database.distinct_rows hd)
        (fun a b ha hb => ?_) (List.mem_of_find?_eq_some hrow) hnamed
      have haNamed := of_decide_eq_true ha
      have hbNamed := of_decide_eq_true hb
      exact ⟨haNamed.1.trans hbNamed.1.symm, haNamed.2.trans hbNamed.2.symm⟩
    simp only [Store.card?, run_readingOrFail]
    rw [Database.card?, hfound, Database.decodeFound, hcard]
    rfl
  value?_keep d scope id key text := by
    simp only [Store.value?, run_readingOrFail]
    obtain ⟨row, hrow, hvalue⟩ := d.exists_row_putColumn scope id key (Column.encode (.str text))
    rw [Database.value?, Database.dataRow?, hrow, Database.decodeFound, Column.decodeWith, hvalue,
      TextColumn.decode_str]
    rfl
  values_keep {d} h scope id key text := by
    refine ⟨(d.putColumn scope id key (Column.encode (.str text))).values scope id, rfl, ?_⟩
    obtain ⟨row, hrow, hvalue⟩ := d.exists_row_putColumn scope id key (Column.encode (.str text))
    rw [Database.find?_values (distinct_putColumn d scope id key _ h), hrow, Option.bind_some,
      hvalue, TextColumn.decode_str]

end Tables

/-! ## Binding a card -/

/-- Where a store keeps the copy of a card of an owner. -/
def Card.copyOf (card : Card) (owner : Owner) (group : String) : Write :=
  ⟨.group, group, Card.cacheKey owner.user, card.cacheBlob⟩

/-- A computation that fails unless something is found has found what it returns. -/
theorem run_found {α : Type} {x : Action σ (Option α)} {next : Option α → Action σ α}
    {failure : Failure} {value : α} {s s' : σ} (h : (x >>= next) s = (.ok value, s'))
    (hsome : ∀ found, next (some found) = pure found) (hnone : next none = throw failure) :
    x s = (.ok (some value), s') := by
  cases hx : x s with
  | mk outcome after =>
    cases outcome with
    | error other =>
      rw [run_bind_error hx] at h
      cases h
    | ok found =>
      rw [run_bind_ok hx] at h
      cases found with
      | none =>
        rw [hnone] at h
        cases h
      | some other =>
        rw [hsome] at h
        cases h
        rfl

theorem answer_of_readAt {α : Type} {s : Faulty σ} {calls : Nat} {operation : Store.Operation}
    {action : Action σ α} {value : α} (h : s.readAt calls operation action = .ok value) :
    (action s.inner).1 = .ok value := by
  unfold Faulty.readAt at h
  split at h
  · cases h
  · exact h

theorem attempt_done {α : Type} {s : Faulty σ} {inner : σ} {operation : Store.Operation}
    {x : Action σ α} {outcome : Except Failure α} (h : s.refusal s.calls operation = none)
    (hx : x s.inner = (outcome, inner)) : Faulty.attempt operation x s =
      (outcome, { s with inner := inner, calls := s.calls + 1 }) := by
  rw [attempt_granted h, hx]

section Bind
variable [Store σ] [CardStore σ] [BindingStore σ] {s s' : Faulty σ}
  {owner : Owner} {group : String} {name : Option String} {card : Card}

/-- The card that is to be bound is one that its owner has under its name. -/
theorem card?_of_target (hs : (CardStore.deck s.inner).Sound)
    (h : (Card.target owner name : Action (Faulty σ) Card) s = (.ok card, s')) :
    s' = s.later (s.calls + 1) ∧ (Store.card? owner card.name s.inner).1 = .ok (some card) := by
  cases name with
  | some name =>
    have hfound := run_found h (fun _ => rfl) rfl
    have hrun : (Store.card? owner name : Action (Faulty σ) (Option Card)) s = _ :=
      attempt_eq_readAt (steady_self.card? owner name) s
    obtain ⟨hread, rfl⟩ := Prod.mk.inj (hrun.symm.trans hfound)
    have hanswer := answer_of_readAt hread
    rw [BindingStore.card?_named hanswer]
    exact ⟨rfl, hanswer⟩
  | none =>
    have hfound := run_found h (fun _ => rfl) rfl
    have hrun : (Store.activeCard? owner : Action (Faulty σ) (Option Card)) s = _ :=
      attempt_eq_readAt (steady_self.activeCard? owner) s
    obtain ⟨hread, rfl⟩ := Prod.mk.inj (hrun.symm.trans hfound)
    exact ⟨rfl, BindingStore.card?_active hs (answer_of_readAt hread)⟩

/-- A card was bound in a group, and the write of its copy, which comes after the operation that
finds the card and the one that binds it, was not refused. -/
structure Copied (s s' : Faulty σ) (owner : Owner) (group : String) (name : Option String)
    (card : Card) : Prop where
  run : (Card.bindIn owner group name : Action (Faulty σ) Card) s = (.ok card, s')
  written : s.refusal (s.calls + 2) (.setValue .group) = none

omit [CardStore σ] [BindingStore σ] in
theorem exists_target (h : Copied s s' owner group name card) : ∃ found s₁,
    (Card.target owner name : Action (Faulty σ) Card) s = (.ok found, s₁) ∧
      (do Store.setBinding ⟨owner, group, found.name⟩
          found.writeCache owner.user group
          return found : Action (Faulty σ) Card) s₁ = (.ok card, s') := by
  have hrun := h.run
  unfold Card.bindIn at hrun
  split at hrun
  · cases hrun
  · cases htarget : (Card.target owner name : Action (Faulty σ) Card) s with
    | mk outcome s₁ =>
      cases outcome with
      | error failure =>
        have herror := (run_bind_error htarget).symm.trans hrun
        cases herror
      | ok found => exact ⟨found, s₁, rfl, (run_bind_ok htarget).symm.trans hrun⟩

theorem Copied.inner_eq (h : Copied s s' owner group name card)
    (hs : (CardStore.deck s.inner).Sound) :
    (Store.card? owner card.name s.inner).1 = .ok (some card) ∧
      s'.inner = BindingStore.keep (BindingStore.bind s.inner ⟨owner, group, card.name⟩)
        (card.copyOf owner group) := by
  obtain ⟨found, s₁, htarget, hrest⟩ := exists_target h
  obtain ⟨rfl, hcard⟩ := card?_of_target hs htarget
  cases hbind : s.refusal (s.calls + 1) .setBinding with
  | some failure =>
    have hrefused : (Store.setBinding ⟨owner, group, found.name⟩ : Action (Faulty σ) Unit)
        (s.later (s.calls + 1)) = _ := attempt_refused hbind
    have herror := (run_bind_error hrefused).symm.trans hrest
    cases herror
  | none =>
    let bound := BindingStore.bind s.inner ⟨owner, group, found.name⟩
    have hbound : (Store.setBinding ⟨owner, group, found.name⟩ : Action (Faulty σ) Unit)
        (s.later (s.calls + 1)) = (.ok (), { s with inner := bound, calls := s.calls + 2 }) :=
      attempt_done hbind (BindingStore.setBinding_run s.inner _)
    have hwrite : (Store.setValue .group group (Card.cacheKey owner.user) found.cacheBlob :
        Action (Faulty σ) Unit) { s with inner := bound, calls := s.calls + 2 } = _ :=
      attempt_done h.written (BindingStore.setValue_run bound (found.copyOf owner group))
    have hrest := (run_bind_ok hbound).symm.trans hrest
    have hrest := (run_bind_ok (run_caught hwrite)).symm.trans hrest
    cases hrest
    exact ⟨hcard, rfl⟩

end Bind

/-! ## Contexts after that -/

/-- A card is bound in a group, with its copy in the data of the group. -/
structure Cached [Store σ] (inner : σ) (owner : Owner) (group : String) (card : Card) : Prop where
  bound : (Store.binding? owner group inner).1 = .ok (some ⟨owner, group, card.name⟩)
  found : (Store.card? owner card.name inner).1 = .ok (some card)
  kept : (Store.value? .group group (Card.cacheKey owner.user) inner).1 = .ok (some card.cacheBlob)
  data : ∃ fields, (Store.values .group group inner).1 = .ok fields ∧
    KeyTable.find? fields (Card.cacheKey owner.user) = some card.cacheBlob

theorem Copied.cached [Store σ] [CardStore σ] [BindingStore σ] {s s' : Faulty σ} {owner : Owner}
    {group : String} {name : Option String} {card : Card} (h : Copied s s' owner group name card)
    (hs : (CardStore.deck s.inner).Sound) (htidy : BindingStore.Tidy s.inner) :
    Cached s'.inner owner group card := by
  obtain ⟨hcard, hinner⟩ := h.inner_eq hs
  rw [hinner]
  refine ⟨?_, ?_, BindingStore.value?_keep _ _ _ _ _,
    BindingStore.values_keep (BindingStore.tidy_bind htidy _) _ _ _ _⟩
  · rw [BindingStore.binding?_keep]
    exact BindingStore.binding?_bind s.inner ⟨owner, group, card.name⟩
  · rw [BindingStore.card?_keep, BindingStore.card?_bind, hcard]

/-- The refusal of the read of the data of the group, in a context. -/
def Faulty.dataRefusal [Store σ] (t : Faulty σ) (identity : Identity) : Option Failure :=
  t.refusal (t.resolution ⟨identity.user, identity.platform⟩ identity.bindingGroup t.calls).2
    (.values .group)

section Later
variable [Store σ] {t : Faulty σ} {owner : Owner} {group : String} {card : Card}
  (h : Cached t.inner owner group card)
include h

/-- The card is found unless one of the two reads for it is refused. -/
theorem Cached.resolution_eq (calls : Nat) :
    (t.resolution owner group calls).1 =
      match t.refusal calls .binding, t.refusal (calls + 1) .card with
      | some failure, _ => .error failure
      | none, some failure => .error failure
      | none, none => .ok (some card) := by
  unfold Faulty.resolution Faulty.readAt
  rw [h.bound]
  cases t.refusal calls .binding with
  | some failure => rfl
  | none =>
    dsimp only
    rw [h.found]
    cases t.refusal (calls + 1) .card <;> rfl

theorem Cached.find?_groupData {identity : Identity} (hgroup : identity.group = some group) :
    KeyTable.find? (t.roster identity).groupData (Card.cacheKey owner.user) =
      match t.dataRefusal identity with
      | some _ => none
      | none => some card.cacheBlob := by
  obtain ⟨fields, hfields, hfound⟩ := h.data
  have hdata : identity.dataGroup = group := by rw [Identity.dataGroup, hgroup, Option.getD_some]
  unfold Faulty.roster Faulty.dataRefusal Faulty.readAt
  dsimp only
  rw [hdata, hfields]
  cases t.refusal _ (.values .group) with
  | some failure => rfl
  | none => exact hfound

end Later

/-- What a context shows of the owner of a cached card, whose turn comes after so many operations:
the card itself while the reads for it succeed, and its copy when one of them fails. -/
structure Served [Store σ] (t : Faulty σ) (identity : Identity) (owner : Owner) (card : Card)
    (calls : Nat) (entry : Option Fields) : Prop where
  working : (∀ calls operation, t.refusal calls operation = none) → entry = some card.snapshot
  fromStore : ∀ found, t.outcomeOf identity owner.user calls = .ok found →
    entry = some card.snapshot
  fromCache : ∀ failure, t.outcomeOf identity owner.user calls = .error failure →
    t.dataRefusal identity = none → entry = card.copied?
  /-- the copy is not at hand where the data of the group cannot be read either -/
  withoutData : ∀ failure, t.outcomeOf identity owner.user calls = .error failure →
    t.dataRefusal identity ≠ none → entry = none

/-- The copy of a bound card stands in for the card in the contexts of its group. -/
structure StandsIn [Store σ] [CardStore σ] (inner : σ) (owner : Owner) (group : String)
    (card : Card) : Prop where
  kept : (Store.value? .group group (Card.cacheKey owner.user) inner).1 = .ok (some card.cacheBlob)
  decoded : (Json.obj card.snapshot).depth ≤ 128 →
    Card.decodeCached (Card.cacheKey owner.user) card.cacheBlob =
      .ok (Literal.normalFields card.snapshot)
  tooDeep : 128 < (Json.obj card.snapshot).depth →
    Card.decodeCached (Card.cacheKey owner.user) card.cacheBlob =
      .error (.cacheCorruption (Card.cacheKey owner.user) "unparsable literal")
  served : ∀ (t : Faulty σ) (rules : Manuals) (aliases : AliasTable) (identity : Identity)
    (tail : String) (calls : Nat), t.inner = inner → t.RostersDistinct →
    identity.platform = owner.platform → identity.group = some group →
    t.turnOf identity owner.user = some calls →
    Served t identity owner card calls
      (KeyTable.find? (Context.build rules aliases identity tail t).1.teammates owner.user)

section StandsIn
variable [Store σ] [CardStore σ] {owner : Owner} {group : String} {card : Card}

omit [CardStore σ] in
theorem Cached.served {t : Faulty σ} (h : Cached t.inner owner group card) {identity : Identity}
    {calls : Nat} (hplatform : identity.platform = owner.platform)
    (hgroup : identity.group = some group) (hcard : card.Writable) :
    Served t identity owner card calls (Context.entry (t.roster identity).groupData owner.user
      (t.outcomeOf identity owner.user calls)) := by
  have hbinding : identity.bindingGroup = group := by
    rw [Identity.bindingGroup, hgroup, Option.getD_some]
  have houtcome : t.outcomeOf identity owner.user calls = (t.resolution owner group calls).1 := by
    rw [Faulty.outcomeOf, hplatform, hbinding]
  -- the resolution either fails or leads to the cached card
  have hfound : ∀ found, t.outcomeOf identity owner.user calls = .ok found →
      found = some card := by
    intro found hok
    rw [houtcome, h.resolution_eq] at hok
    split at hok
    · cases hok
    · cases hok
    · exact (Except.ok.inj hok).symm
  have hcopy (failure : Failure) : Context.entry (t.roster identity).groupData owner.user
      (.error failure) = match t.dataRefusal identity with
        | some _ => none
        | none => card.copied? := by
    unfold Context.entry
    dsimp only
    rw [h.find?_groupData hgroup]
    cases t.dataRefusal identity with
    | some other => rfl
    | none =>
      dsimp only
      rw [Option.bind_some, Card.decodeCached_cacheBlob hcard]
      cases card.copied? <;> rfl
  refine ⟨fun hanswers => ?_, fun found hok => ?_, fun failure herror hdata => ?_,
    fun failure herror hdata => ?_⟩
  · rw [houtcome, h.resolution_eq, hanswers, hanswers]
    rfl
  · rw [hok, hfound found hok]
    rfl
  · rw [herror, hcopy, hdata]
  · rw [herror, hcopy]
    cases hrefusal : t.dataRefusal identity with
    | some other => rfl
    | none => exact absurd hrefusal hdata

theorem Cached.standsIn {inner : σ} (h : Cached inner owner group card) (hcard : card.Writable) :
    StandsIn inner owner group card where
  kept := h.kept
  decoded hdepth := by
    rw [Card.decodeCached_cacheBlob hcard, Card.copied?, if_pos hdepth]
  tooDeep hdepth := by
    rw [Card.decodeCached_cacheBlob hcard, Card.copied?, if_neg (Nat.not_le.mpr hdepth)]
  served t rules aliases identity tail calls hinner hrosters hplatform hgroup hturn := by
    subst hinner
    rw [find?_teammates rules aliases identity tail hrosters, hturn, Option.bind_some]
    exact h.served hplatform hgroup hcard

end StandsIn

/-- In memory as in tables, right after a card was bound with its copy written, the copy is read as
the snapshot of the card, with an object for each list without items, and is shown where the card
cannot be read; a copy that nests too deep is shown nowhere. -/
theorem copy_stands_in {γ : Type} [Column γ] [TextColumn γ] {owner : Owner} {group : String}
    {name : Option String} {card : Card} (hcard : card.Writable) :
    (∀ s s' : Faulty Memory, s.inner.deck.Sound → Copied s s' owner group name card →
      StandsIn s'.inner owner group card) ∧
    ∀ s s' : Faulty (Database γ), s.inner.deck.Sound →
      s.inner.data.Pairwise (fun a b => ¬ a.Same b) → Copied s s' owner group name card →
      StandsIn s'.inner owner group card :=
  ⟨fun _ _ hs h => (h.cached hs trivial).standsIn hcard,
    fun _ _ hs htidy h => (h.cached hs htidy).standsIn hcard⟩

/-! ## A card with an empty list -/

def rook : Card :=
  ⟨1, ⟨"ann", "qq"⟩, "Rook", "", true, [("bag", .arr []), ("hp", .int 3)]⟩

def rookInMemory : Memory where
  lastCard := 1
  lastGame := 1
  cards := [rook]
  games := [{ Game.fresh "night" "qq" "g1" with id := 1, players := ["ann"] }]

def rookInTables : Database JsonText where
  lastCard := 1
  cards := [rook.row]

theorem writable_rook : rook.Writable where
  held :=
    ⟨⟨by decide +kernel, trivial, trivial, trivial⟩, trivial, by
      constructor <;> decide, trivial⟩
  readsBack := ⟨trivial, trivial, trivial⟩

theorem sound_rook : Deck.Sound ⟨1, [Deck.bare rook], []⟩ where
  numbered card hcard := by
    rw [List.mem_singleton.mp hcard]
    exact le_refl 1
  numbers := List.pairwise_singleton _ _
  names := List.pairwise_singleton _ _
  active := List.pairwise_singleton _ _
  bound binding hbinding := by cases hbinding

/-- The active card is bound in memory and in tables; in memory the read for it is then refused. -/
theorem copy_stands_in_rook :
    let afterIn (m : Memory) := ((Card.bindIn rook.owner "g1" none : Action (Faulty Memory) Card)
      (refusingAt m [])).2
    let afterInTables (d : Database JsonText) := ((Card.bindIn rook.owner "g1" none :
      Action (Faulty (Database JsonText)) Card) (refusingAt d [])).2
    let later := refusingAt (afterIn rookInMemory).inner [6]
    rook.Writable ∧ rookInMemory.deck.Sound ∧ rookInTables.deck.Sound ∧
      KeyTable.find? (Context.build [] [] visitor "" later).1.teammates "ann" =
        some [("__Name", .str "Rook"), ("bag", .obj []), ("hp", .int 3), ("name", .str "Rook"),
          ("type", .str "")] ∧
      (Store.value? .group "g1" (Card.cacheKey rook.owner.user)
        (afterInTables rookInTables).inner).1 = .ok (some rook.cacheBlob) := by
  intro afterIn afterInTables later
  have h := @copy_stands_in JsonText _ _ rook.owner "g1" none rook writable_rook
  have hmemory : StandsIn (afterIn rookInMemory).inner rook.owner "g1" rook :=
    h.1 (refusingAt rookInMemory []) _ sound_rook ⟨rfl, rfl⟩
  have hrun : ((Card.bindIn rook.owner "g1" none : Action (Faulty (Database JsonText)) Card)
      (refusingAt rookInTables [])).1 = .ok rook := by decide +kernel
  have hbound : Copied (refusingAt rookInTables []) (afterInTables rookInTables) rook.owner "g1"
      none rook := ⟨by rw [← hrun]; exact (Prod.eta _).symm, rfl⟩
  have htables : StandsIn (afterInTables rookInTables).inner rook.owner "g1" rook :=
    h.2 (refusingAt rookInTables []) _ sound_rook List.Pairwise.nil hbound
  have hserved := hmemory.served later [] [] visitor "" 5 rfl (rostersDistinct_memory (by decide))
    rfl rfl rfl
  refine ⟨writable_rook, sound_rook, sound_rook, ?_, htables.kept⟩
  exact (hserved.fromCache (.store "disk full") rfl rfl).trans rfl

end DiceHost
