import DiceHost.Plugin.Package
import DiceHost.Proofs.Files.Walk

/-! # Malformed files of a package

What is read from a package depends on its own directory only. A reply, a rulebook or a template
file that is no text or does not parse is skipped, whatever stands beside it, so two packages that
differ in such files are read alike.
-/
namespace DiceHost.Plugin
open DiceHost.Files DiceHost.Script DiceHost.Text

/-! ## What is skipped -/

/-- The extensions of the files that are read from a directory of a package. -/
def extensionsOf (directory : String) : List String :=
  if directory = "reply" then ["toml"]
  else if directory = "rulebook" then ["yaml", "yml"]
  else if directory = "template" then ["xml"]
  else []

/-- A text in one of these directories can be read. -/
def parses (plugin directory text : String) : Bool :=
  if directory = "reply" then (parseReplies directory plugin text).toOption.isSome
  else if directory = "rulebook" then (Rulebook.parse directory text).toOption.isSome
  else (Template.parse text).toOption.isSome

def hasExtension (extensions : List String) (name : String) : Bool :=
  (extension? name).any (extensions.contains ·)

/-- A file that is to be read and cannot be. -/
def isMalformed (plugin directory : String) : String × FileTree → Bool
  | (name, .file content) => hasExtension (extensionsOf directory) name &&
      !(ofBytes? content).any (parses plugin directory)
  | (_, .dir _) => false

/-- What stands in a package, without its malformed files. -/
def soundTree (plugin directory : String) : FileTree → FileTree
  | .file content => .file content
  | .dir entries => .dir (entries.filter (fun entry => !isMalformed plugin directory entry))

def soundPart (plugin : String) (package : Directory) : Directory :=
  package.map (fun entry => (entry.1, soundTree plugin entry.1 entry.2))

theorem find?_soundPart (plugin : String) (package : Directory) (name : String) :
    KeyTable.find? (soundPart plugin package) name =
      (KeyTable.find? package name).map (soundTree plugin name) := by
  induction package with
  | nil => rfl
  | cons entry rest ih =>
    rw [soundPart, List.map_cons, KeyTable.find?_cons, KeyTable.find?_cons, ← soundPart, ih]
    split
    · next heq =>
      subst heq
      rfl
    · rfl

/-! ## Reading the files of a directory -/

/-- The text of a plain file that has one of the extensions. -/
def textOf? (extensions : List String) : String × FileTree → Option String
  | (name, .file content) => if hasExtension extensions name then ofBytes? content else none
  | (_, .dir _) => none

/-- In a proper directory every file is read from its own entry. -/
theorem readAll_eq {α : Type} {root entries : Directory} {directory : String}
    (hentries : entries? root directory = some entries) (hproper : Proper entries)
    (extensions : List String) (parse : String → String → Except Failure α) :
    readAll root directory extensions parse = entries.filterMap (fun entry =>
      (textOf? extensions entry).bind
        (fun text => (parse (under directory entry.1) text).toOption)) := by
  unfold readAll fileNames
  rw [hentries, Option.getD_some, List.filterMap_filterMap]
  refine List.filterMap_congr (fun entry hmem => ?_)
  obtain ⟨name, tree⟩ := entry
  cases tree with
  | dir inner => rfl
  | file content =>
    have htext : readText? root (under directory name) = ofBytes? content := by
      rw [readText?_eq, find?_under (hproper.isName hmem), find?_of_entries? hentries,
        Option.bind_some, child, hproper.ordered.find?_eq_some hmem]
      rfl
    by_cases hextension : hasExtension extensions name = true
    · have hany : (extension? name).any (extensions.contains ·) = true := hextension
      simp only [textOf?, hextension, hany, if_true, Option.bind_some, htext]
    · have hany : ¬ (extension? name).any (extensions.contains ·) = true := hextension
      simp only [textOf?, hextension, hany, if_false, Option.bind_none, Bool.false_eq_true]

theorem readAll_of_none {α : Type} {root : Directory} {directory : String}
    (h : entries? root directory = none) (extensions : List String)
    (parse : String → String → Except Failure α) :
    readAll root directory extensions parse = [] := by
  simp [readAll, h, fileNames]

/-- Of a malformed file nothing is read. -/
theorem skipped_of_isMalformed {α : Type} {plugin name file : String}
    {parse : String → String → Except Failure α} {entry : String × FileTree}
    (hparse : ∀ file text, parses plugin name text = (parse file text).toOption.isSome)
    (h : isMalformed plugin name entry = true) :
    (textOf? (extensionsOf name) entry).bind (fun text => (parse file text).toOption) = none := by
  obtain ⟨entryName, tree⟩ := entry
  cases tree with
  | dir inner => rfl
  | file content =>
    simp only [isMalformed, Bool.and_eq_true, Bool.not_eq_true'] at h
    rw [textOf?, if_pos h.1]
    cases htext : ofBytes? content with
    | none => rfl
    | some text =>
      have hfails : (parse file text).toOption.isSome = false := by
        rw [← hparse]
        simpa [htext] using h.2
      simpa using hfails

/-- Malformed files make no difference to what is read. -/
theorem readAll_congr {α : Type} {root root' : Directory} {path plugin name : String}
    (hproper : Proper root) (hproper' : Proper root')
    {parse : String → String → Except Failure α}
    (hparse : ∀ file text, parses plugin name text = (parse file text).toOption.isSome)
    (hsound : (find? root path).map (soundTree plugin name) =
      (find? root' path).map (soundTree plugin name)) :
    readAll root path (extensionsOf name) parse = readAll root' path (extensionsOf name) parse := by
  have hread (root : Directory) (hproper : Proper root) :
      readAll root path (extensionsOf name) parse =
        ((((find? root path).map (soundTree plugin name)).bind inner?).getD []).filterMap
          (fun entry => (textOf? (extensionsOf name) entry).bind
            (fun text => (parse (under path entry.1) text).toOption)) := by
    cases hentries : entries? root path with
    | none =>
      rw [readAll_of_none hentries]
      rw [entries?_eq] at hentries
      rcases hfind : find? root path with - | (content | entries)
      · rfl
      · rfl
      · rw [hfind] at hentries
        cases hentries
    | some entries =>
      have hfind := find?_of_entries? hentries
      rw [readAll_eq hentries (hproper.of_find? hfind), hfind]
      simp only [Option.map_some, soundTree, Option.bind_some, inner?, Option.getD_some,
        List.filterMap_filter]
      refine List.filterMap_congr (fun entry _ => ?_)
      split
      · rfl
      · next hmalformed =>
        exact skipped_of_isMalformed hparse (by simpa using hmalformed)
  rw [hread root hproper, hread root' hproper', hsound]

/-! ## Reading a package -/

theorem content?_soundTree (plugin name : String) (tree : FileTree) :
    content? (soundTree plugin name tree) = content? tree := by cases tree <;> rfl

/-- The scripts are no files that could be malformed. -/
theorem soundTree_script (plugin : String) (tree : FileTree) :
    soundTree plugin "script" tree = tree := by
  cases tree with
  | file content => rfl
  | dir entries =>
    have hnone (entry : String × FileTree) : isMalformed plugin "script" entry = false := by
      obtain ⟨name, tree⟩ := entry
      cases tree with
      | dir inner => rfl
      | file content =>
        cases hextension : extension? name <;>
          simp [isMalformed, extensionsOf, hasExtension, hextension]
    simp [soundTree, hnone]

section Parsers
variable {plugin : String} (file text : String)

theorem parses_reply :
    parses plugin "reply" text = (parseReplies file plugin text).toOption.isSome := by
  rw [parses, if_pos rfl]
  unfold parseReplies
  split <;> rfl

theorem parses_rulebook :
    parses plugin "rulebook" text = (Rulebook.parse file text).toOption.isSome := by
  rw [parses, if_neg (by decide), if_pos rfl]
  unfold Rulebook.parse
  split
  · rfl
  · split <;> rfl

theorem parses_template :
    parses plugin "template" text = (Template.parse text).toOption.isSome := by
  rw [parses, if_neg (by decide), if_neg (by decide)]

end Parsers

/-- Packages that differ in malformed files only are read alike, whatever else is in the trees. -/
theorem read_congr {root root' package package' : Directory} {path : String} {format : Format}
    {descriptor : Descriptor} (hproper : Proper root) (hproper' : Proper root')
    (hfind : find? root path = some (.dir package))
    (hfind' : find? root' path = some (.dir package'))
    (hdescriptor : readDescriptor root path = .ok (format, descriptor))
    (hsound : soundPart descriptor.name package = soundPart descriptor.name package') :
    Package.read root path = Package.read root' path := by
  have hpart {name : String} (hname : IsName name) :
      (find? root (under path name)).map (soundTree descriptor.name name) =
        (find? root' (under path name)).map (soundTree descriptor.name name) := by
    rw [find?_under hname, find?_under hname, hfind, hfind', Option.bind_some, Option.bind_some,
      child, child, ← find?_soundPart, ← find?_soundPart, hsound]
  have hcontent {name : String} (hname : IsName name) :
      (find? root (under path name)).bind content? =
        (find? root' (under path name)).bind content? := by
    have hsame := congrArg (Option.bind · content?) (hpart hname)
    simpa only [Option.bind_map, Function.comp_def, content?_soundTree] using hsame
  have hdescriptor' : readDescriptor root' path = .ok (format, descriptor) := by
    have hname (format : Format) : IsName format.fileName := by cases format <;> decide +kernel
    rw [← hdescriptor]
    simp only [readDescriptor, descriptorFormat?, isFile_eq, readText?_eq, hcontent (hname _)]
  have hscripts : scanDirectory root (under path "script") descriptor.name =
      scanDirectory root' (under path "script") descriptor.name := by
    have hid : soundTree descriptor.name "script" = id := funext (soundTree_script _)
    have hname : IsName "script" := by decide +kernel
    have hsame := hpart hname
    rw [hid, Option.map_id, id, id] at hsame
    rw [scanDirectory, scanDirectory, entries?_eq, entries?_eq, hsame]
  have hread {α : Type} {name : String} (hname : IsName name)
      {parse : String → String → Except Failure α} (hparse : ∀ file text,
        parses descriptor.name name text = (parse file text).toOption.isSome) :=
    readAll_congr hproper hproper' hparse (hpart hname)
  have hreplies := hread (by decide +kernel) parses_reply
  have hrulebooks := hread (by decide +kernel) parses_rulebook
  have htemplates := hread (by decide +kernel) (fun _ => parses_template)
  unfold Package.read
  rw [hdescriptor, hdescriptor']
  simp only [bind, Except.bind, pure, Except.pure, hscripts]
  rw [show ["toml"] = extensionsOf "reply" from rfl,
    show ["yaml", "yml"] = extensionsOf "rulebook" from rfl,
    show ["xml"] = extensionsOf "template" from rfl, hreplies, hrulebooks, htemplates]

end DiceHost.Plugin
