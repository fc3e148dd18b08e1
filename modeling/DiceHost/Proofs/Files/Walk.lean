import DiceHost.Files.Path
import DiceHost.Files.Tree
import DiceHost.Proofs.KeyTable
import DiceHost.Proofs.Text.Words

/-! # Paths into a file tree

Whatever steps the path of a directory takes, the path of an entry leads to what stands under the
name of the entry. So what is found below a directory depends on its own tree only.
-/
namespace DiceHost.Files
open DiceHost.Text

/-- A name that an entry of a directory can have. -/
def IsName (name : String) : Prop := '/' ∉ name.toList ∧ name ∉ ["", ".", ".."]

instance (name : String) : Decidable (IsName name) :=
  inferInstanceAs (Decidable ('/' ∉ name.toList ∧ name ∉ ["", ".", ".."]))

mutual

/-- A directory and all directories below it are in order, and their entries have names. -/
def isProper : FileTree → Bool
  | .file _ => true
  | .dir entries => decide (KeyTable.Ordered entries) && areProper entries

def areProper : List (String × FileTree) → Bool
  | [] => true
  | entry :: rest => isProperEntry entry && areProper rest

def isProperEntry : String × FileTree → Bool
  | (name, tree) => decide (IsName name) && isProper tree

end

/-- The entries of a directory of a file system. -/
def Proper (entries : Directory) : Prop := isProper (.dir entries) = true

instance (entries : Directory) : Decidable (Proper entries) :=
  inferInstanceAs (Decidable (isProper (.dir entries) = true))

/-- What stands under a name in a directory; there is nothing in a file. -/
def child : FileTree → String → Option FileTree
  | .file _, _ => none
  | .dir entries, name => KeyTable.find? entries name

/-- The content of a file; a directory has none. -/
def content? : FileTree → Option (List UInt8)
  | .file content => some content
  | .dir _ => none

/-- The entries of a directory; a file has none. -/
def inner? : FileTree → Option Directory
  | .file _ => none
  | .dir entries => some entries

theorem isFile_eq (root : Directory) (path : String) :
    isFile root path = ((find? root path).bind content?).isSome := by
  rw [isFile]
  rcases find? root path with - | (content | entries) <;> rfl

theorem readText?_eq (root : Directory) (path : String) :
    readText? root path = ((find? root path).bind content?).bind ofBytes? := by
  rw [readText?]
  rcases find? root path with - | (content | entries) <;> rfl

theorem entries?_eq (root : Directory) (path : String) :
    entries? root path = (find? root path).bind inner? := by
  rw [entries?]
  rcases find? root path with - | (content | entries) <;> rfl

theorem find?_of_entries? {root entries : Directory} {path : String}
    (h : entries? root path = some entries) : find? root path = some (.dir entries) := by
  rw [entries?_eq] at h
  obtain ⟨tree, hfind, hinner⟩ := Option.bind_eq_some_iff.mp h
  cases tree with
  | file content => cases hinner
  | dir inner => rw [hfind, Option.some.inj hinner]

theorem isProperEntry_of_mem {entries : List (String × FileTree)} (h : areProper entries = true)
    {entry : String × FileTree} (hmem : entry ∈ entries) : isProperEntry entry = true := by
  induction entries with
  | nil => cases hmem
  | cons first rest ih =>
    simp only [areProper, Bool.and_eq_true] at h
    rcases List.mem_cons.mp hmem with rfl | hmem
    · exact h.1
    · exact ih h.2 hmem

namespace Proper
variable {entries : Directory} (h : Proper entries)
include h

theorem ordered : KeyTable.Ordered entries := by
  simp only [Proper, isProper, Bool.and_eq_true, decide_eq_true_eq] at h
  exact h.1

theorem entry {name : String} {tree : FileTree} (hmem : (name, tree) ∈ entries) :
    IsName name ∧ isProper tree = true := by
  simp only [Proper, isProper, Bool.and_eq_true] at h
  have hentry := isProperEntry_of_mem h.2 hmem
  simpa only [isProperEntry, Bool.and_eq_true, decide_eq_true_eq] using hentry

theorem isName {entry : String × FileTree} (hmem : entry ∈ entries) : IsName entry.1 :=
  (h.entry hmem).1

theorem inner {name : String} {entries' : Directory} (hmem : (name, .dir entries') ∈ entries) :
    Proper entries' := (h.entry hmem).2

end Proper

/-! ## Parts of a path -/

/-- The parts of a path, over characters. -/
theorem parts_eq (path : String) : parts path = ((pieces (· == '/') path.toList).map
    String.ofList).filter (fun p => p != "" && p != ".") := rfl

theorem parts_of_isName {name : String} (h : IsName name) : parts name = [name] := by
  have hpieces : pieces (· == '/') name.toList = [name.toList] := by
    refine pieces_of_forall_not (fun c hc => ?_)
    rw [beq_eq_false_iff_ne]
    rintro rfl
    exact h.1 hc
  have hnotMem := h.2
  simp only [List.mem_cons, not_or] at hnotMem
  rw [parts_eq, hpieces]
  simp [hnotMem.1, hnotMem.2.1]

theorem parts_of_slash {path base rest : String}
    (h : path.toList = base.toList ++ '/' :: rest.toList) :
    parts path = parts base ++ parts rest := by
  rw [parts_eq, h, pieces_append_cons (by rfl), List.map_append, List.filter_append, ← parts_eq,
    ← parts_eq]

theorem stripPrefixChars_singleton {c : Char} {cs : List Char} :
    (stripPrefixChars [c] cs).isSome ↔ cs.head? = some c := by
  cases cs with
  | nil => simp [stripPrefixChars]
  | cons first rest =>
    by_cases h : c = first
    · subst h
      exact iff_of_true (by simp [stripPrefixChars]) rfl
    · simp [stripPrefixChars, h, Ne.symm h]

theorem startsWith_slash {path : String} : startsWith "/" path ↔ path.toList.head? = some '/' := by
  rw [startsWith, stripPrefix, Option.isSome_map]
  exact stripPrefixChars_singleton

theorem endsWith_slash {path : String} : endsWith "/" path ↔ path.toList.getLast? = some '/' := by
  rw [endsWith, stripSuffix, Option.isSome_map, List.getLast?_eq_head?_reverse]
  exact stripPrefixChars_singleton

theorem parts_under {name : String} (h : IsName name) (base : String) :
    parts (under base name) = parts base ++ [name] := by
  have hrelative : startsWith "/" name = false := by
    rw [Bool.eq_false_iff, ne_eq, startsWith_slash]
    exact fun hhead => h.1 (List.mem_of_head? hhead)
  have hname := parts_of_isName h
  unfold under
  rw [hrelative, Bool.false_or]
  split
  · next hempty =>
    rw [String.isEmpty_iff.mp hempty, hname]
    rfl
  · split
    · next hslash =>
      obtain ⟨start, hstart⟩ := List.getLast?_eq_some_iff.mp (endsWith_slash.mp hslash)
      have hbase : parts base = parts (String.ofList start) ++ parts "" :=
        parts_of_slash (by simpa using hstart)
      have hpath : parts (base ++ name) = parts (String.ofList start) ++ parts name :=
        parts_of_slash (by simp [hstart])
      rw [hpath, hbase, hname, show parts "" = [] from rfl, List.append_nil]
    · have hpath : parts (base ++ "/" ++ name) = parts base ++ parts name :=
        parts_of_slash (by simp)
      rw [hpath, hname]

/-! ## Walks -/

/-- A walk that does not go up depends on where it starts only. -/
theorem walk_of_below {names : List String} (h : ".." ∉ names) (here : FileTree)
    (up : List FileTree) : walk (here :: up) names = walk [here] names := by
  induction names generalizing here up with
  | nil => rfl
  | cons name rest ih =>
    rw [List.mem_cons, not_or] at h
    cases here with
    | file content => rfl
    | dir entries =>
      simp only [walk, if_neg (Ne.symm h.1)]
      cases KeyTable.find? entries name with
      | none => rfl
      | some next =>
        dsimp only
        rw [ih h.2, ih h.2 next [_]]

theorem walk_append {names : List String} (h : ".." ∉ names) (stack : List FileTree)
    (steps : List String) :
    walk stack (steps ++ names) = (walk stack steps).bind (fun here => walk [here] names) := by
  induction steps generalizing stack with
  | nil =>
    cases stack with
    | nil => simp [walk]
    | cons here up => exact walk_of_below h here up
  | cons step rest ih =>
    cases stack with
    | nil => simp [walk]
    | cons here up =>
      cases here with
      | file content => rfl
      | dir entries =>
        rw [List.cons_append]
        simp only [walk]
        split
        · exact ih _
        · cases KeyTable.find? entries step with
          | none => rfl
          | some next => exact ih _

theorem find?_under {name : String} (h : IsName name) (root : Directory) (path : String) :
    find? root (under path name) = (find? root path).bind (child · name) := by
  have hparent : name ≠ ".." := fun heq => h.2 (heq ▸ by simp)
  rw [find?, parts_under h, walk_append (by simpa using hparent.symm)]
  refine congrArg (Option.bind _) (funext fun here => ?_)
  cases here with
  | file content => rfl
  | dir entries =>
    simp only [walk, child, if_neg hparent]
    cases KeyTable.find? entries name with
    | none => rfl
    | some next => rfl

/-- A walk over proper directories ends in a proper one, also where it goes up. -/
theorem proper_of_walk {entries : Directory} {steps : List String} {stack : List FileTree}
    (hstack : ∀ inner, FileTree.dir inner ∈ stack → Proper inner)
    (h : walk stack steps = some (.dir entries)) : Proper entries := by
  induction steps generalizing stack with
  | nil =>
    cases stack with
    | nil => cases h
    | cons here up =>
      cases Option.some.inj h
      exact hstack entries List.mem_cons_self
  | cons step rest ih =>
    cases stack with
    | nil => cases h
    | cons here up =>
      cases here with
      | file content => cases h
      | dir inner =>
        simp only [walk] at h
        split at h
        · refine ih (fun other hmem => hstack other ?_) h
          -- above the root there is the root again
          split at hmem
          · next hup => exact List.mem_cons.mpr (Or.inl (List.mem_singleton.mp hmem))
          · exact List.mem_cons_of_mem _ hmem
        · split at h
          · next next hnext =>
            refine ih (fun other hmem => ?_) h
            rcases List.mem_cons.mp hmem with heq | hmem
            · subst heq
              exact (hstack inner List.mem_cons_self).inner (KeyTable.mem_of_find? hnext)
            · exact hstack other hmem
          · cases h

theorem Proper.of_find? {root entries : Directory} {path : String} (h : Proper root)
    (hfind : find? root path = some (.dir entries)) : Proper entries := by
  refine proper_of_walk (fun inner hmem => ?_) hfind
  cases List.mem_singleton.mp hmem
  exact h

end DiceHost.Files
