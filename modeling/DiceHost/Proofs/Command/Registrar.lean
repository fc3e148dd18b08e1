import DiceHost.Proofs.Plugin.Contribution
import Mathlib.Data.List.Induction

/-! # The tree behind the registrar

A name and its verbs stand and fall together: whatever the calls were, they belong to the last
registration of the name, as long as its plugin has not been unregistered since, and nothing is
found under them otherwise. This needs names without a full stop, since a command named `a.show`
would take one entry away from a command named `a`.
-/
namespace DiceHost.Command
open DiceHost.Text DiceHost.Plugin

/-! ## Calls -/

/-- A call on the registrar. -/
inductive Call where
  | register (plugin title : String) (definitions : List Definition)
  | unregister (plugin : String)

def Tree.apply (tree : Tree Target) : Call → Tree Target
  | .register plugin title definitions => registerAll plugin title tree definitions
  | .unregister plugin => tree.unregister plugin

/-- The tree after some calls, from the empty one. -/
def treeAfter (calls : List Call) : Tree Target := calls.foldl Tree.apply []

/-- A definition that is registered for a plugin. -/
structure Registration where
  plugin : String
  title : String
  definition : Definition

/-- What a call asks for, one definition at a time. -/
inductive Order where
  | add (registration : Registration)
  | drop (plugin : String)

def Call.orders : Call → List Order
  | .register plugin title definitions =>
    definitions.map (fun definition => .add ⟨plugin, title, definition⟩)
  | .unregister plugin => [.drop plugin]

def Tree.follow (tree : Tree Target) : Order → Tree Target
  | .add r => registerOne r.plugin r.title tree r.definition
  | .drop plugin => tree.unregister plugin

theorem treeAfter_eq (calls : List Call) :
    treeAfter calls = (calls.flatMap Call.orders).foldl Tree.follow [] := by
  rw [treeAfter, List.foldl_flatMap]
  congr 1
  funext tree call
  cases call with
  | unregister plugin => rfl
  | register plugin title definitions =>
    simp only [Tree.apply, registerAll, Call.orders, List.foldl_map]
    rfl

/-! ## Names -/

/-- A name without a full stop. -/
def Plain (name : String) : Prop := '.' ∉ name.toList

theorem plain_of_mem_genericVerbs {verb : String} (h : verb ∈ genericVerbs) : Plain verb := by
  have hall : ∀ verb ∈ genericVerbs, '.' ∉ verb.toList := by decide
  exact hall verb h

theorem not_plain_dotted (left right : String) : ¬ Plain (left ++ "." ++ right) := by
  simp [Plain]

/-- A text with one full stop is cut there in one way only. -/
theorem eq_of_dotted_eq {left right name verb : String} (hname : Plain name) (hverb : Plain verb)
    (h : left ++ "." ++ right = name ++ "." ++ verb) : left = name ∧ right = verb := by
  have hlist : left.toList ++ '.' :: right.toList = name.toList ++ '.' :: verb.toList := by
    simpa using congrArg String.toList h
  rcases List.append_eq_append_iff.mp hlist with ⟨more, hmore, hrest⟩ | ⟨more, hmore, hrest⟩
  · cases more with
    | nil =>
      rw [List.append_nil] at hmore
      exact ⟨String.toList_inj.mp hmore.symm, String.toList_inj.mp (List.cons.inj hrest).2⟩
    | cons c more =>
      obtain ⟨rfl, -⟩ := List.cons.inj hrest
      exact absurd (by simp [hmore]) hname
  · cases more with
    | nil =>
      rw [List.append_nil] at hmore
      exact ⟨String.toList_inj.mp hmore, String.toList_inj.mp (List.cons.inj hrest).2.symm⟩
    | cons c more =>
      obtain ⟨-, hverbs⟩ := List.cons.inj hrest
      exact absurd (by simp [hverbs]) hverb

theorem mem_targets {name script full : String} {target : Target} :
    (full, target) ∈ targets name script ↔
      (full = name ∧ target = ⟨script, none⟩) ∨
      ∃ verb ∈ genericVerbs, full = name ++ "." ++ verb ∧ target = ⟨script, some verb⟩ := by
  simp [targets, eq_comm]

theorem nodup_targets (name script : String) : ((targets name script).map (·.1)).Nodup := by
  have hverbs : genericVerbs.Nodup := by decide
  have hkeys : (targets name script).map (·.1) =
      name :: genericVerbs.map (fun verb => name ++ "." ++ verb) := by
    simp [targets]
  rw [hkeys, List.nodup_cons]
  constructor
  · intro hmem
    obtain ⟨verb, -, heq⟩ := List.mem_map.mp hmem
    have hlength := congrArg (fun text => text.toList.length) heq
    simp at hlength
  · refine hverbs.map ?_
    intro verb other heq
    simpa using heq

/-- The names of two commands are apart. -/
theorem eq_of_mem_targets {name other script script' full : String} {target target' : Target}
    (hname : Plain name) (hother : Plain other) (h : (full, target) ∈ targets name script)
    (h' : (full, target') ∈ targets other script') : name = other := by
  rcases mem_targets.mp h with ⟨rfl, -⟩ | ⟨verb, hverb, rfl, -⟩
  · rcases mem_targets.mp h' with ⟨heq, -⟩ | ⟨verb, -, heq, -⟩
    · exact heq
    · rw [heq] at hname
      exact absurd hname (not_plain_dotted _ _)
  · rcases mem_targets.mp h' with ⟨heq, -⟩ | ⟨verb', hverb', heq, -⟩
    · rw [← heq] at hother
      exact absurd hother (not_plain_dotted _ _)
    · exact (eq_of_dotted_eq hother (plain_of_mem_genericVerbs hverb') heq).1

/-! ## Registrations -/

namespace Registration

def name (r : Registration) : String := r.definition.commandName

def script (r : Registration) : String := r.definition.script

def entry (r : Registration) (target : Target) : Entry Target :=
  ⟨r.plugin, usageLine r.title r.definition, target⟩

/-- The registration puts an entry under this name. -/
def Serves (r : Registration) (full : String) (target : Target) : Prop :=
  isTypable r.name ∧ (full, target) ∈ targets r.name r.script

/-- The order replaces the entries of the registration or takes them away. -/
def EndedBy (r : Registration) : Order → Prop
  | .add other => other.name = r.name
  | .drop plugin => plugin = r.plugin

/-- The registration is the last one of its name, and its plugin has not been unregistered
since. -/
def Stands (r : Registration) (orders : List Order) : Prop :=
  isTypable r.name ∧ ∃ before after, orders = before ++ .add r :: after ∧
    ∀ order ∈ after, ¬ r.EndedBy order

theorem stands_append_singleton (r : Registration) (orders : List Order) (order : Order) :
    r.Stands (orders ++ [order]) ↔
      (isTypable r.name ∧ order = .add r) ∨ (¬ r.EndedBy order ∧ r.Stands orders) := by
  constructor
  · rintro ⟨htypable, before, after, heq, hafter⟩
    rcases after.eq_nil_or_concat with rfl | ⟨rest, last, rfl⟩
    · obtain ⟨-, hlast⟩ := List.append_inj' heq rfl
      exact Or.inl ⟨htypable, List.singleton_inj.mp hlast⟩
    · have hsplit : orders ++ [order] = (before ++ .add r :: rest) ++ [last] := by
        rw [heq]
        simp
      obtain ⟨horders, hlast⟩ := List.append_inj' hsplit rfl
      cases List.singleton_inj.mp hlast
      exact Or.inr ⟨hafter order (by simp), htypable, before, rest, horders,
        fun other hother => hafter other (by simp [hother])⟩
  · rintro (⟨htypable, rfl⟩ | ⟨hkeeps, htypable, before, after, rfl, hafter⟩)
    · exact ⟨htypable, orders, [], rfl, by simp⟩
    · refine ⟨htypable, before, after ++ [order], by simp, ?_⟩
      intro other hother
      rcases List.mem_append.mp hother with hother | hother
      · exact hafter other hother
      · cases List.mem_singleton.mp hother
        exact hkeeps

end Registration

/-- The order registers no name with a full stop. -/
def Order.Plain : Order → Prop
  | .add r => Command.Plain r.name
  | .drop _ => True

instance (name : String) : Decidable (Plain name) := inferInstanceAs (Decidable (_ ∉ _))

instance : DecidablePred Order.Plain
  | .add r => inferInstanceAs (Decidable (Command.Plain r.name))
  | .drop _ => inferInstanceAs (Decidable True)

theorem Registration.Stands.plain {r : Registration} {orders : List Order} (h : r.Stands orders)
    (hplain : ∀ order ∈ orders, order.Plain) : Plain r.name := by
  obtain ⟨-, before, after, rfl, -⟩ := h
  exact hplain (.add r) (by simp)

/-! ## The tree -/

theorem find?_registerOne (r : Registration) (tree : Tree Target) (full : String)
    (entry : Entry Target) :
    KeyTable.find? (registerOne r.plugin r.title tree r.definition) full = some entry ↔
      (∃ target, r.Serves full target ∧ entry = r.entry target) ∨
      ((∀ target, ¬ r.Serves full target) ∧ KeyTable.find? tree full = some entry) := by
  by_cases htypable : isTypable r.name = true
  · have hentries : registerOne r.plugin r.title tree r.definition =
        KeyTable.insertAll tree (KeyTable.mapValues r.entry (targets r.name r.script)) := by
      rw [registerOne, KeyTable.insertAll, KeyTable.mapValues, List.foldl_map]
      exact if_pos htypable
    have hkeys : (KeyTable.mapValues r.entry (targets r.name r.script)).map (·.1) =
        (targets r.name r.script).map (·.1) := by
      simp [KeyTable.mapValues, Function.comp_def]
    have hnodup : ((KeyTable.mapValues r.entry (targets r.name r.script)).map (·.1)).Nodup := by
      rw [hkeys]
      exact nodup_targets _ _
    rw [hentries, KeyTable.find?_insertAll_eq_some hnodup, hkeys]
    refine or_congr ?_ (and_congr ?_ Iff.rfl)
    · simp [KeyTable.mapValues, Registration.Serves, htypable, eq_comm]
    · simp [Registration.Serves, htypable]
  · have hskipped : registerOne r.plugin r.title tree r.definition = tree := if_neg htypable
    rw [hskipped]
    constructor
    · exact fun hold => Or.inr ⟨fun target hserves => htypable hserves.1, hold⟩
    · rintro (⟨target, hserves, -⟩ | ⟨-, hold⟩)
      · exact absurd hserves.1 htypable
      · exact hold

theorem ordered_follow {tree : Tree Target} (h : KeyTable.Ordered tree) (order : Order) :
    KeyTable.Ordered (tree.follow order) := by
  cases order with
  | drop plugin => exact h.filter _
  | add r =>
    have hone : tree.follow (.add r) = registerAll r.plugin r.title tree [r.definition] := rfl
    rw [hone, registerAll_eq]
    exact KeyTable.ordered_insertAll h _

/-- The entries of a tree are those of the standing registrations. -/
def Reflects (tree : Tree Target) (orders : List Order) : Prop :=
  ∀ full entry, KeyTable.find? tree full = some entry ↔
    ∃ r target, Registration.Stands r orders ∧ r.Serves full target ∧ entry = r.entry target

/-- What one order does to the entries. -/
theorem reflects_follow {tree : Tree Target} {orders : List Order} (h : Reflects tree orders)
    (hordered : KeyTable.Ordered tree) (hplain : ∀ order ∈ orders, order.Plain) {order : Order}
    (horder : order.Plain) : Reflects (tree.follow order) (orders ++ [order]) := by
  intro full entry
  cases order with
  | drop plugin =>
    have hfind : KeyTable.find? (tree.follow (.drop plugin)) full =
        (KeyTable.find? tree full).filter (fun found => found.owner ≠ plugin) :=
      hordered.find?_filter _ full
    rw [hfind, Option.filter_eq_some_iff, h]
    constructor
    · rintro ⟨⟨r, target, hstands, hserves, rfl⟩, hother⟩
      refine ⟨r, target, (r.stands_append_singleton _ _).mpr (Or.inr ⟨?_, hstands⟩), hserves, rfl⟩
      intro hended
      simp [Registration.entry, ← show plugin = r.plugin from hended] at hother
    · rintro ⟨r, target, hstands, hserves, rfl⟩
      rcases (r.stands_append_singleton _ _).mp hstands with ⟨-, heq⟩ | ⟨hkeeps, hstands⟩
      · cases heq
      · refine ⟨⟨r, target, hstands, hserves, rfl⟩, ?_⟩
        have hne : r.plugin ≠ plugin := fun heq => hkeeps heq.symm
        exact decide_eq_true hne
  | add new =>
    rw [show tree.follow (.add new) = registerOne new.plugin new.title tree new.definition from rfl,
      find?_registerOne, h]
    constructor
    · rintro (⟨target, hserves, rfl⟩ | ⟨hfree, r, target, hstands, hserves, rfl⟩)
      · exact ⟨new, target,
          (new.stands_append_singleton _ _).mpr (Or.inl ⟨hserves.1, rfl⟩), hserves, rfl⟩
      · refine ⟨r, target, (r.stands_append_singleton _ _).mpr (Or.inr ⟨?_, hstands⟩), hserves, rfl⟩
        -- A new command of this name would have an entry wherever the old one has.
        intro hended
        have hname : new.name = r.name := hended
        rcases mem_targets.mp hserves.2 with ⟨hfull, -⟩ | ⟨verb, hverb, hfull, -⟩
        · exact hfree ⟨new.script, none⟩
            ⟨hname ▸ hserves.1, mem_targets.mpr (Or.inl ⟨hname ▸ hfull, rfl⟩)⟩
        · exact hfree ⟨new.script, some verb⟩
            ⟨hname ▸ hserves.1, mem_targets.mpr (Or.inr ⟨verb, hverb, hname ▸ hfull, rfl⟩)⟩
    · rintro ⟨r, target, hstands, hserves, rfl⟩
      rcases (r.stands_append_singleton _ _).mp hstands with ⟨-, heq⟩ | ⟨hkeeps, hstands⟩
      · cases heq
        exact Or.inl ⟨target, hserves, rfl⟩
      · refine Or.inr ⟨?_, r, target, hstands, hserves, rfl⟩
        intro other hnew
        exact hkeeps (eq_of_mem_targets horder (hstands.plain hplain) hnew.2 hserves.2)

/-- After any calls the tree holds the entries of the standing registrations and no others. -/
theorem reflects_treeAfter {calls : List Call}
    (hplain : ∀ order ∈ calls.flatMap Call.orders, order.Plain) :
    Reflects (treeAfter calls) (calls.flatMap Call.orders) := by
  rw [treeAfter_eq]
  generalize calls.flatMap Call.orders = orders at hplain
  suffices hrun : KeyTable.Ordered (orders.foldl Tree.follow []) ∧
      Reflects (orders.foldl Tree.follow []) orders from hrun.2
  induction orders using List.reverseRecOn with
  | nil =>
    refine ⟨List.Pairwise.nil, fun full entry => ⟨?_, ?_⟩⟩
    · intro h
      cases h
    · rintro ⟨r, target, ⟨-, before, after, heq, -⟩, -⟩
      simp at heq
  | append_singleton orders order ih =>
    have hbefore : ∀ other ∈ orders, other.Plain := fun other hother =>
      hplain other (List.mem_append_left _ hother)
    obtain ⟨hordered, hreflects⟩ := ih hbefore
    rw [List.foldl_append, List.foldl_cons, List.foldl_nil]
    exact ⟨ordered_follow hordered order,
      reflects_follow hreflects hordered hbefore (hplain order (by simp))⟩

end DiceHost.Command
