import DiceHost.Proofs.Search
import DiceHost.Proofs.Store.Columns
import DiceHost.Store.Database
import DiceHost.Store.Memory
import Mathlib.Data.String.Basic

/-! # Cards in two stores

A list of cards in name order and a table of card rows in the order of their numbers hold the
same cards. They answer alike because an owner has one card of a name and one active card, so it
makes no difference in which order a search goes through them. The same holds for bindings.
-/
namespace DiceHost
variable {γ : Type} [Column γ] {p : Json → Prop}

@[simp] theorem Card.isNamed_iff {owner : Owner} {name : String} {card : Card} :
    card.isNamed owner name = true ↔ card.owner = owner ∧ card.name = name := decide_eq_true_iff

/-! ## Reading rows -/

section Rows
variable {α ρ : Type} {decode : ρ → Except Failure α} {row : α → ρ}

theorem decodeFound_map {found : Option α} (h : ∀ value ∈ found, decode (row value) = .ok value) :
    Database.decodeFound decode (found.map row) = .ok found := by
  cases found with
  | none => rfl
  | some value =>
    rw [Option.map_some, Database.decodeFound, h value rfl]
    rfl

theorem mapM_map_row {values : List α} (h : ∀ value ∈ values, decode (row value) = .ok value) :
    (values.map row).mapM decode = .ok values := by
  induction values with
  | nil => rfl
  | cons value rest ih =>
    obtain ⟨hvalue, hrest⟩ := List.forall_mem_cons.mp h
    rw [List.map_cons, List.mapM_cons, hvalue, ih hrest]
    rfl

end Rows

theorem card_row (hfaithful : Column.Faithful γ p) {card : Card}
    (h : KeyTable.Suits p card.attributes) : (card.row : CardRow γ).card = .ok card := by
  simp only [CardRow.card, Card.row, hfaithful.fields h]
  rfl

/-! ## Cards -/

/-- Two cards of one owner under one name. -/
def Card.Same (a b : Card) : Prop := a.owner = b.owner ∧ a.name = b.name

/-- Two active cards of one owner. -/
def Card.Rivals (a b : Card) : Prop := a.owner = b.owner ∧ a.active = true ∧ b.active = true

theorem Card.Same.symm (a b : Card) (h : a.Same b) : b.Same a := ⟨h.1.symm, h.2.symm⟩

theorem Card.Rivals.symm (a b : Card) (h : a.Rivals b) : b.Rivals a := ⟨h.1.symm, h.2.2, h.2.1⟩

/-- A table holds the cards of a list in name order, each owner with one card of a name and with
at most one active card. The attributes of the cards are such as columns hold. -/
structure CardsMatch (p : Json → Prop) (rows : List (CardRow γ)) (cards : List Card) : Prop where
  suits : ∀ card ∈ cards, KeyTable.Suits p card.attributes
  rows : rows.Perm (cards.map Card.row)
  sorted : cards.Pairwise (fun a b => a.name ≤ b.name)
  distinct : cards.Pairwise (fun a b => ¬ a.Same b)
  active : cards.Pairwise (fun a b => ¬ a.Rivals b)

theorem insertCard_perm (new : Card) (cards : List Card) :
    (insertCard new cards).Perm (new :: cards) := by
  induction cards with
  | nil => exact List.Perm.refl _
  | cons card rest ih =>
    unfold insertCard
    split
    · exact List.Perm.refl _
    · exact (ih.cons card).trans (List.Perm.swap new card rest)

theorem sorted_insertCard (new : Card) {cards : List Card}
    (h : cards.Pairwise (fun a b => a.name ≤ b.name)) :
    (insertCard new cards).Pairwise (fun a b => a.name ≤ b.name) := by
  induction cards with
  | nil => exact List.pairwise_singleton _ _
  | cons card rest ih =>
    obtain ⟨hfirst, hrest⟩ := List.pairwise_cons.mp h
    unfold insertCard
    split
    · next hlt =>
      refine List.pairwise_cons.mpr ⟨?_, h⟩
      intro other hother
      rcases List.mem_cons.mp hother with rfl | hother
      · exact hlt.le
      · exact hlt.le.trans (hfirst other hother)
    · next hnot =>
      refine List.pairwise_cons.mpr ⟨?_, ih hrest⟩
      intro other hother
      rcases List.mem_cons.mp ((insertCard_perm new rest).mem_iff.mp hother) with rfl | hother
      · exact not_lt.mp hnot
      · exact hfirst other hother

namespace CardsMatch
variable {rows : List (CardRow γ)} {cards : List Card} (h : CardsMatch p rows cards)

theorem nil : CardsMatch p ([] : List (CardRow γ)) [] :=
  ⟨fun _ hmem => absurd hmem List.not_mem_nil, List.Perm.refl _, List.Pairwise.nil,
    List.Pairwise.nil, List.Pairwise.nil⟩

include h

theorem find?_named (owner : Owner) (name : String) :
    rows.find? (CardRow.isNamed owner name) =
      (cards.find? (Card.isNamed owner name)).map Card.row := by
  have hunique : (cards.map (Card.row (γ := γ))).Pairwise
      (fun a b => ¬ (a.isNamed owner name = true ∧ b.isNamed owner name = true)) := by
    refine List.pairwise_map.mpr (h.distinct.imp ?_)
    intro a b hne hboth
    obtain ⟨⟨haowner, haname⟩, hbowner, hbname⟩ :=
      hboth.imp Card.isNamed_iff.mp Card.isNamed_iff.mp
    exact hne ⟨haowner.trans hbowner.symm, haname.trans hbname.symm⟩
  rw [find?_eq_of_perm h.rows hunique, List.find?_map]
  rfl

theorem find?_active (owner : Owner) :
    rows.find? (fun row => row.owner = owner ∧ row.active) =
      ((cards.filter (fun card => card.owner = owner)).find? (·.active)).map Card.row := by
  have hunique : (cards.map (Card.row (γ := γ))).Pairwise
      (fun a b => ¬ (decide (a.owner = owner ∧ a.active) = true ∧
        decide (b.owner = owner ∧ b.active) = true)) := by
    refine List.pairwise_map.mpr (h.active.imp ?_)
    intro a b hne hboth
    obtain ⟨⟨haowner, haactive⟩, hbowner, hbactive⟩ :=
      hboth.imp of_decide_eq_true of_decide_eq_true
    exact hne ⟨haowner.trans hbowner.symm, haactive, hbactive⟩
  rw [find?_eq_of_perm h.rows hunique, List.find?_map, List.find?_filter]
  congr 2
  funext card
  by_cases howner : card.owner = owner
  · simp [Card.row, howner]
  · simp [Card.row, howner]

/-- The rows of an owner in name order are the cards of the owner in theirs. -/
theorem sort_owned (owner : Owner) :
    (rows.filter (fun row => row.owner = owner)).mergeSort (fun a b => a.name ≤ b.name) =
      (cards.filter (fun card => card.owner = owner)).map Card.row := by
  have hperm : ((rows.filter (fun row => row.owner = owner)).mergeSort
      (fun a b => a.name ≤ b.name)).Perm
        ((cards.filter (fun card => card.owner = owner)).map Card.row) := by
    refine (List.mergeSort_perm _ _).trans ((h.rows.filter _).trans ?_)
    rw [List.filter_map]
    exact List.Perm.refl _
  have hsorted := List.pairwise_mergeSort
    (fun (a b c : CardRow γ) (hab : decide (a.name ≤ b.name) = true) hbc =>
      decide_eq_true ((of_decide_eq_true hab).trans (of_decide_eq_true hbc)))
    (fun a b => by simpa using le_total a.name b.name)
    (rows.filter (fun row => row.owner = owner))
  have howned : ((cards.filter (fun card => card.owner = owner)).map
      (Card.row (γ := γ))).Pairwise (fun a b => decide (a.name ≤ b.name) = true) := by
    refine List.pairwise_map.mpr ?_
    refine List.Pairwise.sublist List.filter_sublist (h.sorted.imp ?_)
    intro a b hle
    exact decide_eq_true hle
  refine hperm.eq_of_pairwise ?_ hsorted howned
  -- one owner has one card of a name, so the order by name leaves no choice
  intro a b ha hb hab hba
  obtain ⟨card, hcard, rfl⟩ := List.mem_map.mp (hperm.mem_iff.mp ha)
  obtain ⟨other, hother, rfl⟩ := List.mem_map.mp hb
  obtain ⟨hcard, howner⟩ := List.mem_filter.mp hcard
  obtain ⟨hother, hotherOwner⟩ := List.mem_filter.mp hother
  have hsame : card.Same other :=
    ⟨(of_decide_eq_true howner).trans (of_decide_eq_true hotherOwner).symm,
      le_antisymm (of_decide_eq_true hab) (of_decide_eq_true hba)⟩
  rw [eq_of_pairwise_not Card.Same.symm h.distinct hcard hother hsame]

/-! ### Changes -/

theorem insert {card : Card} (hsuits : KeyTable.Suits p card.attributes)
    (hfresh : ∀ other ∈ cards, ¬ card.Same other)
    (hactive : ∀ other ∈ cards, ¬ card.Rivals other) :
    CardsMatch p (rows ++ [card.row]) (insertCard card cards) := by
  have hperm := insertCard_perm card cards
  refine ⟨fun other hother => ?_, ?_, sorted_insertCard card h.sorted, ?_, ?_⟩
  · rcases List.mem_cons.mp (hperm.mem_iff.mp hother) with rfl | hother
    · exact hsuits
    · exact h.suits other hother
  · have hrows : (rows ++ [card.row]).Perm (card.row :: cards.map Card.row) :=
      List.perm_append_comm.trans (h.rows.cons card.row)
    exact hrows.trans (hperm.map Card.row).symm
  · refine (hperm.pairwise_iff ?_).mpr (List.pairwise_cons.mpr ⟨hfresh, h.distinct⟩)
    intro a b hne hsame
    exact hne hsame.symm
  · refine (hperm.pairwise_iff ?_).mpr (List.pairwise_cons.mpr ⟨hactive, h.active⟩)
    intro a b hne hrivals
    exact hne hrivals.symm

/-- A change of all cards that leaves owners and names as they are. -/
theorem map {f : CardRow γ → CardRow γ} {g : Card → Card}
    (hrow : ∀ card, f card.row = (g card).row) (howner : ∀ card, (g card).owner = card.owner)
    (hname : ∀ card, (g card).name = card.name)
    (hsuits : ∀ card ∈ cards, KeyTable.Suits p (g card).attributes)
    (hactive : (cards.map g).Pairwise (fun a b => ¬ a.Rivals b)) :
    CardsMatch p (rows.map f) (cards.map g) := by
  refine ⟨List.forall_mem_map.mpr hsuits, ?_, ?_, ?_, hactive⟩
  · have hmap : (cards.map Card.row).map f = (cards.map g).map Card.row := by
      rw [List.map_map, List.map_map]
      exact List.map_congr_left (fun card _ => hrow card)
    rw [← hmap]
    exact h.rows.map f
  · refine List.pairwise_map.mpr (h.sorted.imp ?_)
    intro a b hle
    rw [hname, hname]
    exact hle
  · refine List.pairwise_map.mpr (h.distinct.imp ?_)
    intro a b hne hsame
    rw [Card.Same, howner, howner, hname, hname] at hsame
    exact hne hsame

theorem filter {keep : CardRow γ → Bool} {q : Card → Bool}
    (hkeep : ∀ card, keep card.row = q card) :
    CardsMatch p (rows.filter keep) (cards.filter q) := by
  refine ⟨fun card hcard => h.suits card (List.mem_filter.mp hcard).1, ?_,
    List.Pairwise.sublist List.filter_sublist h.sorted,
    List.Pairwise.sublist List.filter_sublist h.distinct,
    List.Pairwise.sublist List.filter_sublist h.active⟩
  have hfilter : (cards.map Card.row).filter keep = (cards.filter q).map Card.row := by
    rw [List.filter_map]
    exact congrArg _ (List.filter_congr (fun card _ => hkeep card))
  rw [← hfilter]
  exact h.rows.filter keep

end CardsMatch

/-! ## Bindings -/

/-- Two bindings of one owner in one group. -/
def Binding.Same (a b : Binding) : Prop := a.owner = b.owner ∧ a.group = b.group

/-- The same bindings in any order, each owner with one in a group. -/
structure BindingsMatch (kept bindings : List Binding) : Prop where
  rows : kept.Perm bindings
  distinct : bindings.Pairwise (fun a b => ¬ a.Same b)

namespace BindingsMatch
variable {kept bindings : List Binding} (h : BindingsMatch kept bindings)
include h

theorem find?_at (owner : Owner) (group : String) :
    kept.find? (Binding.isAt owner group) = bindings.find? (Binding.isAt owner group) := by
  refine find?_eq_of_perm h.rows (h.distinct.imp ?_)
  intro a b hne hboth
  obtain ⟨⟨haowner, hagroup⟩, hbowner, hbgroup⟩ :=
    hboth.imp of_decide_eq_true of_decide_eq_true
  exact hne ⟨haowner.trans hbowner.symm, hagroup.trans hbgroup.symm⟩

theorem filter (p : Binding → Bool) : BindingsMatch (kept.filter p) (bindings.filter p) :=
  ⟨h.rows.filter p, List.Pairwise.sublist List.filter_sublist h.distinct⟩

theorem insert {binding : Binding} (hfresh : ∀ other ∈ bindings, ¬ binding.Same other) :
    BindingsMatch (kept ++ [binding]) (binding :: bindings) :=
  ⟨List.perm_append_comm.trans (h.rows.cons binding), List.pairwise_cons.mpr ⟨hfresh, h.distinct⟩⟩

end BindingsMatch
end DiceHost
