import DiceHost.Proofs.Context.Lookup
import DiceHost.Proofs.Store.Cells
import Mathlib.Data.List.Induction

/-! # Deferred writes and direct ones

A script that writes and reads through its storage sees what it would see if every write went to
the store at once, and the flush after it leaves the store as these direct writes would. Both
sides come down to the last write at a place. What a store of tables cannot read back as it was
written is the exception: the script still sees it as it wrote it.
-/
namespace DiceHost
variable {σ κ : Type}

/-! ## The last write at a place -/

/-- The last of some writes at a place. -/
def lastAt (writes : List Write) (place : Place) : Option Write :=
  writes.reverse.find? (fun write => place = write.place)

theorem lastAt_append_singleton (writes : List Write) (write : Write) (place : Place) :
    lastAt (writes ++ [write]) place =
      if place = write.place then some write else lastAt writes place := by
  unfold lastAt
  rw [List.reverse_append, List.reverse_singleton, List.singleton_append, List.find?_cons]
  by_cases h : place = write.place
  · simp [h]
  · simp [h]

theorem isSome_lastAt {writes : List Write} {place : Place} (h : place ∈ writes.map Write.place) :
    ∃ write, lastAt writes place = some write := by
  obtain ⟨write, hwrite, rfl⟩ := List.mem_map.mp h
  refine Option.isSome_iff_exists.mp (List.find?_isSome.mpr ⟨write, ?_, by simp⟩)
  exact List.mem_reverse.mpr hwrite

/-! ## The storage of a script -/

namespace Storage

/-- What a script asks of its storage. -/
inductive Call where
  | get (place : Place)
  | set (write : Write)
deriving DecidableEq

def Call.write? : Call → Option Write
  | .get _ => none
  | .set write => some write

/-- The writes among some calls. -/
def writes (calls : List Call) : List Write := calls.filterMap Call.write?

def perform (storage : Storage) : Call → Storage
  | .get _ => storage
  | .set write => storage.set write.scope write.id write.key write.value

/-- The storage after some calls. -/
def after (storage : Storage) (calls : List Call) : Storage := calls.foldl perform storage

/-- The answer to a call that reads a place. -/
def read (storage : Storage) (place : Place) : Option Json :=
  storage.get place.scope place.id place.key

theorem views_setViews (storage : Storage) (scope scope' : DataScope) (views : KeyTable Fields) :
    (storage.setViews scope views).views scope' =
      if scope' = scope then views else storage.views scope' := by
  cases scope <;> cases scope' <;> rfl

theorem get_provide (storage : Storage) (scope : DataScope) (id : String) (data : Fields)
    (scope' : DataScope) (id' key : String) :
    (storage.provide scope id data).get scope' id' key =
      if scope' = scope ∧ id' = id then KeyTable.find? data key
      else storage.get scope' id' key := by
  rw [get, provide, views_setViews]
  by_cases hscope : scope' = scope
  · subst hscope
    rw [if_pos rfl, KeyTable.find?_insert]
    by_cases hid : id' = id
    · simp [hid]
    · simp [hid, get]
  · simp [hscope, get]

theorem read_set (storage : Storage) (write : Write) (place : Place) :
    (storage.set write.scope write.id write.key write.value).read place =
      if place = write.place then some write.value else storage.read place := by
  obtain ⟨scope, id, key⟩ := place
  have hprovide : (storage.set write.scope write.id write.key write.value).get scope id key =
      (storage.provide write.scope write.id (KeyTable.insert write.key write.value
        ((KeyTable.find? (storage.views write.scope) write.id).getD []))).get scope id key := by
    cases scope <;> rfl
  rw [read, hprovide, get_provide]
  by_cases howner : scope = write.scope ∧ id = write.id
  · obtain ⟨rfl, rfl⟩ := howner
    rw [if_pos ⟨rfl, rfl⟩, KeyTable.find?_insert]
    by_cases hkey : key = write.key
    · simp [hkey, Write.place]
    · simp only [hkey, if_false, Write.place, Place.mk.injEq, true_and, read, get]
      cases KeyTable.find? (storage.views write.scope) write.id <;> rfl
  · rw [if_neg howner, if_neg ?_]
    · rfl
    · intro hplace
      obtain ⟨hscope, hid, -⟩ := Place.mk.inj hplace
      exact howner ⟨hscope, hid⟩

/-- A script reads the last value it wrote at a place, or else what it was shown there. -/
theorem read_after (storage : Storage) (calls : List Call) (place : Place) :
    (storage.after calls).read place =
      ((lastAt (writes calls) place).map Write.value).or (storage.read place) := by
  induction calls using List.reverseRecOn with
  | nil => rfl
  | append_singleton calls call ih =>
    rw [after, List.foldl_append, List.foldl_cons, List.foldl_nil, writes, List.filterMap_append]
    cases call with
    | get other =>
      have hget : List.filterMap Call.write? [.get other] = [] := rfl
      rw [hget, List.append_nil]
      exact ih
    | set write =>
      have hset : List.filterMap Call.write? [.set write] = [write] := rfl
      rw [hset, lastAt_append_singleton, perform, read_set]
      by_cases h : place = write.place
      · simp [h]
      · rw [if_neg h, if_neg h]
        exact ih

theorem pending_after (storage : Storage) (calls : List Call) :
    (storage.after calls).pending = storage.pending ++ writes calls := by
  induction calls generalizing storage with
  | nil => simp [after, writes]
  | cons call rest ih =>
    have hstep : storage.after (call :: rest) = (storage.perform call).after rest := rfl
    rw [hstep, ih]
    cases call with
    | get place => rfl
    | set write => exact List.append_assoc _ _ _

end Storage

/-! ## The store -/

/-- The store after writes that are made at once. -/
def Store.written [Store σ] (s : σ) (writes : List Write) : σ :=
  writes.foldl (fun s write =>
    ((Store.setValue write.scope write.id write.key write.value : Action σ Unit) s).2) s

section Cells
variable [Store σ] [cells : CellStore σ κ]

theorem written_append_singleton (s : σ) (writes : List Write) (write : Write) :
    Store.written s (writes ++ [write]) = CellStore.put (Store.written s writes) write := by
  rw [Store.written, List.foldl_append, List.foldl_cons, List.foldl_nil, CellStore.setValue_run]
  rfl

/-- A cell holds the last value written at its place, or else what it held before. -/
theorem cell?_written (s : σ) (writes : List Write) (place : Place) :
    CellStore.cell? (Store.written s writes) place =
      ((lastAt writes place).map (fun write => CellStore.ofValue σ write.value)).or
        (CellStore.cell? s place) := by
  induction writes using List.reverseRecOn with
  | nil => rfl
  | append_singleton writes write ih =>
    rw [written_append_singleton, CellStore.cell?_put, lastAt_append_singleton]
    split
    · rfl
    · exact ih

theorem rest_written (s : σ) (writes : List Write) :
    CellStore.rest (Store.written s writes) = CellStore.rest s := by
  induction writes using List.reverseRecOn with
  | nil => rfl
  | append_singleton writes write ih =>
    rw [written_append_singleton, CellStore.rest_put, ih]

include cells in
theorem applyWrites_run (writes : List Write) (s : σ) :
    (applyWrites writes : StateM σ Nat) s = (writes.length, Store.written s writes) := by
  induction writes generalizing s with
  | nil => rfl
  | cons write rest ih =>
    have hwrite := CellStore.setValue_run s write
    have hrun : (applyWrites (write :: rest) : StateM σ Nat) s = _ := run_bind hwrite
    have hwritten : Store.written s (write :: rest) =
        Store.written (CellStore.put s write) rest := by
      rw [Store.written, List.foldl_cons, hwrite]
      rfl
    rw [hrun, hwritten]
    exact (run_bind (ih _)).trans rfl

end Cells

/-! ## Both together -/

/-- What a store answers when it is asked for the value at a place. -/
def Store.answer [Store σ] (s : σ) (place : Place) : Except Failure (Option Json) :=
  ((Store.value? place.scope place.id place.key : Action σ (Option Json)) s).1

/-- A script with this storage could as well have written to the store directly, as far as what it
writes is read back as it was written. -/
structure Defers [Store σ] (readsBack : Json → Prop) (group user : String) (s : σ)
    (storage : Storage) (calls : List Storage.Call) : Prop where
  /-- each read of the group, of the user, or of a place that was written -/
  reads : ∀ before place later, calls = before ++ .get place :: later →
    ((place.scope = .group ∧ place.id = group) ∨ (place.scope = .user ∧ place.id = user) ∨
      place ∈ (Storage.writes before).map Write.place) →
    (∀ write ∈ lastAt (Storage.writes before) place, readsBack write.value) →
      Store.answer (Store.written s (Storage.writes before)) place =
        .ok ((storage.after before).read place)
  flushes : (storage.after calls).flush s =
    (((storage.after calls).discard, (Storage.writes calls).length),
      Store.written s (Storage.writes calls))
  empties : (storage.after calls).discard.pending = [] ∧
    ∀ s' : σ, (storage.after calls).discard.flush s' = (((storage.after calls).discard, 0), s')
  keeps : ∀ place, place ∉ (Storage.writes calls).map Write.place →
    Store.answer (Store.written s (Storage.writes calls)) place = Store.answer s place
  changes : ∀ place, ∀ write ∈ lastAt (Storage.writes calls) place, readsBack write.value →
    Store.answer (Store.written s (Storage.writes calls)) place = .ok (some write.value)

section Defers
variable [Store σ] [cells : CellStore σ κ]
include cells

theorem answer_eq (s : σ) (place : Place) :
    Store.answer s place = readCell (CellStore.read σ) (CellStore.cell? s place) := by
  rw [Store.answer, CellStore.value?_run]

theorem answer_written {s : σ} {writes : List Write} {place : Place} {write : Write}
    (hlast : lastAt writes place = some write)
    (hback : CellStore.read σ (CellStore.ofValue σ write.value) = some write.value) :
    Store.answer (Store.written s writes) place = .ok (some write.value) := by
  rw [answer_eq, cell?_written, hlast, Option.map_some, Option.some_or, readCell, hback]

theorem answer_untouched {s : σ} {writes : List Write} {place : Place}
    (h : lastAt writes place = none) :
    Store.answer (Store.written s writes) place = Store.answer s place := by
  rw [answer_eq, answer_eq, cell?_written, h, Option.map_none, Option.none_or]

/-- Where a store can be read, it answers with what its cell reads as. -/
theorem answer_of_sound {s : σ} (h : CellStore.Sound s) (place : Place) :
    Store.answer s place = .ok ((CellStore.cell? s place).bind (CellStore.read σ)) := by
  rw [answer_eq]
  cases hcell : CellStore.cell? s place with
  | none => rfl
  | some cell =>
    obtain ⟨value, hvalue⟩ := Option.isSome_iff_exists.mp (CellStore.isSome_read h hcell)
    rw [readCell, hvalue, Option.bind_some, hvalue]

variable [CardStore σ] (rules : Manuals) (aliases : AliasTable) (identity : Identity)
  (tail : String)

/-- A script is shown what the store answers for its group and for its user. -/
theorem answer_shown {s : σ} (h : CellStore.Sound s) {place : Place}
    (hshown : (place.scope = .group ∧ place.id = identity.dataGroup) ∨
      (place.scope = .user ∧ place.id = identity.user)) :
    Store.answer s place =
      .ok ((Context.build rules aliases identity tail s).1.storage.read place) := by
  obtain ⟨s₁, s₂, h₁, h₂, hstorage, -⟩ := exists_views steady_self rules aliases identity tail s
  obtain rfl : s₁ = s := h₁
  obtain rfl : s₂ = s₁ := h₂
  obtain ⟨groupData, hgroup, hgroupCells⟩ := CellStore.values_run h .group identity.dataGroup
  obtain ⟨userData, huser, huserCells⟩ := CellStore.values_run h .user identity.user
  have hgroupData : (Context.orElse [] (Store.values .group identity.dataGroup) s₂).1 = groupData :=
    congrArg Prod.fst (run_bind hgroup)
  have huserData : (Context.orElse [] (Store.values .user identity.user) s₂).1 = userData :=
    congrArg Prod.fst (run_bind huser)
  rw [answer_of_sound h, hstorage, hgroupData, huserData, Storage.read, Storage.get_provide,
    Storage.get_provide]
  obtain ⟨scope, id, key⟩ := place
  rcases hshown with ⟨rfl, rfl⟩ | ⟨rfl, rfl⟩
  · rw [if_neg (by rintro ⟨hscope, -⟩; cases hscope), if_pos ⟨rfl, rfl⟩, hgroupCells]
  · rw [if_pos ⟨rfl, rfl⟩, huserCells]

theorem defers_of_sound {s : σ} (h : CellStore.Sound s) (calls : List Storage.Call) :
    Defers (fun value => CellStore.read σ (CellStore.ofValue σ value) = some value)
      identity.dataGroup identity.user s (Context.build rules aliases identity tail s).1.storage
      calls where
  reads before place later _ hplace hback := by
    rw [Storage.read_after]
    cases hlast : lastAt (Storage.writes before) place with
    | some write => exact answer_written hlast (hback write hlast)
    | none =>
      rw [answer_untouched hlast, Option.map_none, Option.none_or]
      refine answer_shown rules aliases identity tail h ?_
      rcases hplace with hgroup | huser | hwritten
      · exact Or.inl hgroup
      · exact Or.inr huser
      · obtain ⟨write, hsome⟩ := isSome_lastAt hwritten
        rw [hlast] at hsome
        cases hsome
  flushes := by
    have hpending : ((Context.build rules aliases identity tail s).1.storage.after calls).pending =
        Storage.writes calls := by
      rw [Storage.pending_after]
      rfl
    unfold Storage.flush
    rw [hpending]
    exact run_bind (applyWrites_run _ s)
  empties := ⟨rfl, fun _ => rfl⟩
  keeps place hplace := by
    refine answer_untouched (List.find?_eq_none.mpr (fun write hwrite => ?_))
    rw [decide_eq_true_eq]
    rintro rfl
    exact hplace (List.mem_map_of_mem (List.mem_reverse.mp hwrite))
  changes place write hlast hback := answer_written hlast hback

end Defers

/-- On a store in memory, and on one of tables that can be read, a script could as well have
written directly: every read answers as the store would then, and the flush leaves what direct
writes would leave. In tables this needs that what was written last at the place is read back from
a column as it was written. -/
theorem deferred_as_direct {γ : Type} [Column γ] (rules : Manuals) (aliases : AliasTable)
    (identity : Identity) (tail : String) (calls : List Storage.Call) :
    (∀ m : Memory, (Context.build rules aliases identity tail m).2 = m ∧
      Defers (fun _ => True) identity.dataGroup identity.user m
        (Context.build rules aliases identity tail m).1.storage calls) ∧
    ∀ d : Database γ, d.Legible → (Context.build rules aliases identity tail d).2 = d ∧
      Defers (fun value => Column.decode (Column.encode value : γ) = some value)
        identity.dataGroup identity.user d
        (Context.build rules aliases identity tail d).1.storage calls := by
  constructor
  · intro m
    have h := defers_of_sound rules aliases identity tail (s := m) trivial calls
    refine ⟨spares_build steady_self rules aliases identity tail m, ?_⟩
    exact ⟨fun before place later hcalls hplace _ =>
      h.reads before place later hcalls hplace (fun _ _ => rfl), h.flushes, h.empties, h.keeps,
      fun place write hlast _ => h.changes place write hlast rfl⟩
  · intro d hlegible
    exact ⟨spares_build steady_self rules aliases identity tail d,
      defers_of_sound rules aliases identity tail hlegible calls⟩

/-- A player in a group. -/
def player : Identity := ⟨"u1", none, "qq", some "g1", "c1"⟩

/-- The mood of the group, as a store of tables has it before a script changes it. -/
def moody : Database JsonText :=
  { data := [⟨.group, "g1", "mood", Column.encode (.str "calm")⟩] }

theorem deferred_as_direct_moody :
    let write : Write := ⟨.group, "g1", "mood", .int 3⟩
    let storage := (Context.build [] [] player "" moody).1.storage
    moody.Legible ∧ Column.decode (Column.encode write.value : JsonText) = some write.value ∧
      Store.answer moody write.place = .ok (storage.read write.place) ∧
      Store.answer (Store.written moody [write]) write.place =
        .ok ((storage.after [.get write.place, .set write]).read write.place) := by
  intro write storage
  have hlegible : moody.Legible := by
    refine ⟨List.pairwise_singleton _ _, fun row hrow => ?_⟩
    rw [List.mem_singleton.mp hrow]
    exact ⟨.str "calm", by decide +kernel⟩
  have hback : Column.decode (Column.encode write.value : JsonText) = some write.value := by
    decide +kernel
  have hreads := ((deferred_as_direct [] [] player ""
    [.get write.place, .set write, .get write.place]).2 moody hlegible).2.reads
  refine ⟨hlegible, hback, ?_, ?_⟩
  · exact hreads [] write.place _ rfl (Or.inl ⟨rfl, rfl⟩) (fun _ hlast => by cases hlast)
  · refine hreads [.get write.place, .set write] write.place [] rfl (Or.inl ⟨rfl, rfl⟩) ?_
    intro last hlast
    cases hlast
    exact hback

/-- A float whose text is read as its neighbour: a script that wrote it reads it, and the store
that it was written to answers with the other one. -/
theorem eleventh_read_as_neighbour :
    let d : Database JsonText := {}
    let calls : List Storage.Call := [.set ⟨.group, "g1", "ratio", .float (1.0 / 11.0)⟩]
    let storage := (Context.build [] [] player "" d).1.storage
    d.Legible ∧
      Store.answer (Store.written d (Storage.writes calls)) ⟨.group, "g1", "ratio"⟩ ≠
        .ok ((storage.after calls).read ⟨.group, "g1", "ratio"⟩) := by
  intro d calls storage
  refine ⟨Database.legible_empty, ?_⟩
  decide +kernel

end DiceHost
