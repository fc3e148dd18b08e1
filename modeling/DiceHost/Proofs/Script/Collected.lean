import DiceHost.Proofs.Files.Walk
import DiceHost.Proofs.Script.Scanning
import DiceHost.Proofs.Text.Cuts

/-! # What a scan collects

A scan comes to every file below the script directory, and of every readable one it makes a script.
The scripts are kept by their qualified names, so of the files that share one only the last is kept.
-/
namespace DiceHost.Script
open DiceHost.Text KeyTable

/-- A file below a directory, with the directories on the way to it. -/
structure Found where
  directories : List String
  name : String
  content : List UInt8

namespace Found

/-- The file as it is found from one directory above. -/
def under (directory : String) (file : Found) : Found :=
  { file with directories := directory :: file.directories }

def path (file : Found) : String := join "/" (file.directories ++ [file.name])

/-- The script of a readable file of a dialect. -/
def script? (plugin : String) (file : Found) : Option Script :=
  (Dialect.ofPath file.name).bind (fun dialect =>
    (ofBytes? file.content).map (Script.make plugin file.directories file.name dialect))

/-- The file is one of a dialect, but not a text. -/
def unreadable (file : Found) : Bool :=
  (Dialect.ofPath file.name).isSome && (ofBytes? file.content).isNone

/-- The parts of the qualified name after the plugin. -/
def parts (file : Found) : List String :=
  file.directories ++ (if Files.stem file.name = "." ∨ Files.stem file.name = ".." then []
    else [Files.stem file.name])

/-- There are no full stops in the directories and before the extension. -/
def Plain (file : Found) : Prop :=
  '.' ∉ (Files.stem file.name).toList ∧ ∀ directory ∈ file.directories, '.' ∉ directory.toList

end Found

/-- The files below some entries, in the order in which a scan comes to them. -/
def filesBelow : List (String × FileTree) → List Found
  | [] => []
  | (name, .file content) :: rest => ⟨[], name, content⟩ :: filesBelow rest
  | (name, .dir inner) :: rest => (filesBelow inner).map (Found.under name) ++ filesBelow rest

/-! ## Files -/

theorem mem_filesBelow_nil {name : String} {content : List UInt8}
    {entries : List (String × FileTree)} :
    ⟨[], name, content⟩ ∈ filesBelow entries ↔ (name, .file content) ∈ entries := by
  induction entries with
  | nil => simp [filesBelow]
  | cons entry rest ih =>
    obtain ⟨first, _ | inner⟩ := entry
    · simp [filesBelow, ih]
    · simp [filesBelow, ih, Found.under]

theorem under_eq_iff {first directory name : String} {directories : List String}
    {content : List UInt8} {file : Found} :
    file.under first = ⟨directory :: directories, name, content⟩ ↔
      first = directory ∧ file = ⟨directories, name, content⟩ := by
  cases file
  simp [Found.under, and_assoc]

theorem mem_filesBelow_cons {directory name : String} {directories : List String}
    {content : List UInt8} {entries : List (String × FileTree)} :
    ⟨directory :: directories, name, content⟩ ∈ filesBelow entries ↔
      ∃ inner, (directory, .dir inner) ∈ entries ∧
        ⟨directories, name, content⟩ ∈ filesBelow inner := by
  induction entries with
  | nil => simp [filesBelow]
  | cons entry rest ih =>
    obtain ⟨first, _ | inner⟩ := entry
    · simp [filesBelow, ih]
    · simp only [filesBelow, List.mem_append, List.mem_map, under_eq_iff, ih, List.mem_cons,
        Prod.mk.injEq, FileTree.dir.injEq]
      constructor
      · rintro (⟨file, hfile, rfl, rfl⟩ | ⟨other, hmem, hfile⟩)
        · exact ⟨inner, Or.inl ⟨rfl, rfl⟩, hfile⟩
        · exact ⟨other, Or.inr hmem, hfile⟩
      · rintro ⟨other, ⟨rfl, rfl⟩ | hmem, hfile⟩
        · exact Or.inl ⟨_, hfile, rfl, rfl⟩
        · exact Or.inr ⟨other, hmem, hfile⟩

theorem mem_filesBelow_iff {entries : Directory} (h : Files.Proper entries) {file : Found} :
    file ∈ filesBelow entries ↔
      (file.directories ++ [file.name]).foldlM Files.child (.dir entries) =
        some (.file file.content) := by
  obtain ⟨directories, name, content⟩ := file
  have hfind {entries : Directory} (h : Files.Proper entries) (name : String) (tree : FileTree) :
      Files.child (.dir entries) name = some tree ↔ (name, tree) ∈ entries :=
    ⟨mem_of_find?, h.ordered.find?_eq_some⟩
  dsimp only
  induction directories generalizing entries with
  | nil =>
    rw [mem_filesBelow_nil, ← hfind h]
    simp
  | cons directory rest ih =>
    rw [mem_filesBelow_cons, List.cons_append, List.foldlM_cons, Option.bind_eq_bind,
      Option.bind_eq_some_iff]
    constructor
    · rintro ⟨inner, hinner, hfile⟩
      exact ⟨.dir inner, (hfind h _ _).mpr hinner, (ih (h.inner hinner)).mp hfile⟩
    · rintro ⟨tree, htree, hfile⟩
      have hmem := (hfind h _ _).mp htree
      cases tree with
      | file content =>
        cases rest <;> cases hfile
      | dir inner => exact ⟨inner, hmem, (ih (h.inner hmem)).mpr hfile⟩

theorem isName_of_mem {entries : Directory} (h : Files.Proper entries) {file : Found}
    (hfile : file ∈ filesBelow entries) :
    Files.IsName file.name ∧ ∀ directory ∈ file.directories, Files.IsName directory := by
  obtain ⟨directories, name, content⟩ := file
  induction directories generalizing entries with
  | nil => exact ⟨h.isName (mem_filesBelow_nil.mp hfile), by simp⟩
  | cons directory rest ih =>
    obtain ⟨inner, hinner, hbelow⟩ := mem_filesBelow_cons.mp hfile
    obtain ⟨hname, hrest⟩ := ih (h.inner hinner) hbelow
    refine ⟨hname, fun other hother => ?_⟩
    rcases List.mem_cons.mp hother with rfl | hother
    · exact h.isName hinner
    · exact hrest other hother

/-! ## Qualified names -/

theorem toList_join_cons (first : String) (rest : List String) :
    (join "." (first :: rest)).toList =
      first.toList ++ rest.flatMap (fun part => '.' :: part.toList) := by
  induction rest generalizing first with
  | nil => simp [join]
  | cons next rest ih =>
    have hrest := ih next
    rw [join, String.toList_intercalate] at hrest ⊢
    rw [List.map_cons, List.map_cons, List.intercalate_cons_cons, ← List.map_cons, hrest]
    simp

theorem join_cons {parts : List String} (h : parts ≠ []) (first : String) :
    join "." (first :: parts) = first ++ "." ++ join "." parts := by
  obtain ⟨next, rest, rfl⟩ := List.exists_cons_of_ne_nil h
  rw [← String.toList_inj, toList_join_cons, String.toList_append, toList_join_cons]
  simp

theorem qualifiedName_eq (plugin : String) (file : Found) :
    qualifiedName plugin file.directories file.name = join "." (plugin :: file.parts) := rfl

theorem qualifiedName_eq_iff {plugin : String} {file other : Found} :
    qualifiedName plugin file.directories file.name =
        qualifiedName plugin other.directories other.name ↔
      file.parts.flatMap (fun part => '.' :: part.toList) =
        other.parts.flatMap (fun part => '.' :: part.toList) := by
  rw [qualifiedName_eq, qualifiedName_eq, ← String.toList_inj, toList_join_cons, toList_join_cons,
    List.append_cancel_left_eq]

theorem parts_inj {parts others : List String} (hparts : ∀ part ∈ parts, '.' ∉ part.toList)
    (hothers : ∀ part ∈ others, '.' ∉ part.toList)
    (h : parts.flatMap (fun part => '.' :: part.toList) =
      others.flatMap (fun part => '.' :: part.toList)) : parts = others := by
  -- the parts are what stands between the full stops of the joined name
  have hread {parts : List String} (hparts : ∀ part ∈ parts, '.' ∉ part.toList) :
      (join "." ("" :: parts)).toList.splitOn '.' = ("" :: parts).map String.toList := by
    rw [join, String.toList_intercalate]
    refine List.splitOn_intercalate '.' ?_ (by simp)
    simpa using hparts
  have hjoin : (join "." ("" :: parts)).toList = (join "." ("" :: others)).toList := by
    rw [toList_join_cons, toList_join_cons, h]
  have hmap : ("" :: parts).map String.toList = ("" :: others).map String.toList := by
    rw [← hread hparts, hjoin, hread hothers]
  simpa using List.map_injective_iff.mpr (fun _ _ => String.toList_inj.mp) hmap

theorem eq_of_splitName {name stem extension : String}
    (h : Files.splitName name = (stem, some extension)) : name = stem ++ "." ++ extension := by
  unfold Files.splitName at h
  split at h
  · cases h
  · next before after hcut =>
    cases h
    obtain ⟨-, c, hc, hname⟩ := cutLast_eq_some hcut
    rw [← String.toList_inj, hname, eq_of_beq hc]
    simp
  · cases h

theorem stem_ne_empty {name : String} (h : name ≠ "") : Files.stem name ≠ "" := by
  unfold Files.stem Files.splitName
  split
  · exact h
  · next stem extension hstem hcut =>
    intro hempty
    have hnil : stem = [] := by simpa using hempty
    exact hstem hnil
  · exact h

theorem parts_eq_nil {file : Found} :
    file.parts = [] ↔ file.directories = [] ∧ Files.stem file.name ∈ [".", ".."] := by
  simp [Found.parts, or_iff_not_imp_left]

theorem parts_ne_empty {file : Found} (hname : file.name ≠ "")
    (hdirectories : "" ∉ file.directories) : "" ∉ file.parts := by
  rw [Found.parts, List.mem_append, not_or]
  refine ⟨hdirectories, ?_⟩
  split
  · exact List.not_mem_nil
  · rw [List.mem_singleton]
    exact (stem_ne_empty hname).symm

/-- Behind the plugin and a full stop stands the short name; only a file with nothing but full
stops before its extension can be without one. -/
theorem shortName_qualifiedName (plugin : String) {file : Found} (hname : file.name ≠ "")
    (hdirectories : "" ∉ file.directories) :
    shortName (qualifiedName plugin file.directories file.name) plugin =
      if file.parts = [] then none else some (join "." file.parts) := by
  have hparts := parts_ne_empty hname hdirectories
  rw [qualifiedName_eq, shortName, stripPrefix]
  cases hcase : file.parts with
  | nil =>
    -- the name is that of the plugin, which is too short for a full stop behind it
    have hnone : stripPrefixChars (plugin ++ ".").toList (join "." [plugin]).toList = none := by
      rw [Option.eq_none_iff_forall_ne_some]
      intro rest hrest
      have hlength := congrArg List.length (stripPrefixChars_eq_some.mp hrest)
      simp [join] at hlength
    rw [hnone]
    rfl
  | cons first rest =>
    rw [hcase, List.mem_cons, not_or] at hparts
    have hjoin : (join "." (plugin :: first :: rest)).toList =
        (plugin ++ ".").toList ++ (join "." (first :: rest)).toList := by
      rw [join_cons (List.cons_ne_nil _ _), String.toList_append]
    have hfirst : (join "." (first :: rest)).toList ≠ [] := by
      rw [toList_join_cons]
      simpa using fun h => absurd h.symm hparts.1
    rw [stripPrefixChars_eq_some.mpr hjoin, if_neg (List.cons_ne_nil _ _)]
    simpa [Option.filter] using hfirst

/-! ## The scan -/

theorem file_eq (plugin : String) (file : Found) (scan : Scan) :
    scan.file plugin file.directories file.name file.content =
      { scripts := insertAll scan.scripts
          ((file.script? plugin).toList.map (fun script => (script.qualified, script)))
        unreadable := (if file.unreadable then [file.path] else []) ++ scan.unreadable } := by
  unfold Scan.file Found.script? Found.unreadable
  cases Dialect.ofPath file.name with
  | none => rfl
  | some dialect => cases ofBytes? file.content <;> rfl

theorem entries_eq (plugin : String) (directories : List String)
    (entries : List (String × FileTree)) (scan : Scan) :
    Scan.entries plugin directories entries scan =
      (filesBelow entries).foldl (fun scan file =>
        scan.file plugin (directories ++ file.directories) file.name file.content) scan := by
  fun_induction Scan.entries plugin directories entries scan with
  | case1 => rw [filesBelow, List.foldl_nil]
  | case2 directories scan name content rest ih =>
    rw [ih, filesBelow, List.foldl_cons, List.append_nil]
  | case3 directories scan name inner rest below ih =>
    rw [ih, below, filesBelow, List.foldl_append, List.foldl_map]
    simp only [Found.under, List.append_assoc, List.singleton_append]

/-- The scripts of some files, by their qualified names. -/
def scriptsOf (plugin : String) (files : List Found) : List (String × Script) :=
  (files.filterMap (Found.script? plugin)).map (fun script => (script.qualified, script))

theorem foldl_file (plugin : String) (files : List Found) (scan : Scan) :
    files.foldl (fun scan file =>
        scan.file plugin file.directories file.name file.content) scan =
      { scripts := insertAll scan.scripts (scriptsOf plugin files)
        unreadable := ((files.filter Found.unreadable).map Found.path).reverse ++
          scan.unreadable } := by
  induction files generalizing scan with
  | nil => rfl
  | cons file rest ih =>
    rw [List.foldl_cons, ih, file_eq]
    cases hscript : file.script? plugin <;> cases hunreadable : file.unreadable <;>
      simp [scriptsOf, hscript, hunreadable, insertAll]

theorem scan_eq (plugin : String) (entries : Directory) :
    Scan.entries plugin [] entries {} =
      { scripts := ofList (scriptsOf plugin (filesBelow entries))
        unreadable := (((filesBelow entries).filter Found.unreadable).map Found.path).reverse } := by
  have hrun := entries_eq plugin [] entries {}
  simp only [List.nil_append, foldl_file, List.append_nil] at hrun
  exact hrun

theorem find?_scriptsOf_cons (plugin key : String) (file : Found) (rest : List Found) :
    find? (ofList (scriptsOf plugin (file :: rest))) key =
      (find? (ofList (scriptsOf plugin rest)) key).or
        ((file.script? plugin).filter (fun script => script.qualified = key)) := by
  cases hscript : file.script? plugin with
  | none => simp [scriptsOf, hscript]
  | some script =>
    have hcons : scriptsOf plugin (file :: rest) =
        (script.qualified, script) :: scriptsOf plugin rest := by simp [scriptsOf, hscript]
    rw [hcons, find?_ofList_eq, find?_ofList_eq, List.reverse_cons, find?_append, find?_cons,
      find?_nil]
    simp [Option.filter, eq_comm]

theorem find?_scriptsOf_eq_none {plugin key : String} {files : List Found} :
    find? (ofList (scriptsOf plugin files)) key = none ↔
      ∀ script ∈ files.filterMap (Found.script? plugin), script.qualified ≠ key := by
  rw [find?_ofList_eq_none, scriptsOf, List.map_map]
  simp

/-- Under a name stands the script of the last file that has it. -/
theorem find?_scriptsOf {plugin key : String} {files : List Found} {script : Script} :
    find? (ofList (scriptsOf plugin files)) key = some script ↔
      script.qualified = key ∧ ∃ before file after, files = before ++ file :: after ∧
        file.script? plugin = some script ∧
        ∀ other ∈ after.filterMap (Found.script? plugin), other.qualified ≠ key := by
  induction files with
  | nil => simp [scriptsOf, ofList, insertAll]
  | cons first rest ih =>
    rw [find?_scriptsOf_cons, Option.or_eq_some_iff, ih, find?_scriptsOf_eq_none,
      Option.filter_eq_some_iff, decide_eq_true_eq]
    -- the first file counts only if no other one has the name
    constructor
    · rintro (⟨hkey, before, file, after, rfl, hscript, hlast⟩ | ⟨hlast, hscript, hkey⟩)
      · exact ⟨hkey, first :: before, file, after, rfl, hscript, hlast⟩
      · exact ⟨hkey, [], first, rest, rfl, hscript, hlast⟩
    · rintro ⟨hkey, before, file, after, hfiles, hscript, hlast⟩
      cases before with
      | nil =>
        cases hfiles
        exact Or.inr ⟨hlast, hscript, hkey⟩
      | cons first before =>
        cases hfiles
        exact Or.inl ⟨hkey, before, file, after, rfl, hscript, hlast⟩

theorem script?_eq_some {plugin : String} {file : Found} {script : Script} :
    file.script? plugin = some script ↔
      ∃ dialect source, Dialect.ofPath file.name = some dialect ∧
        ofBytes? file.content = some source ∧
        script = Script.make plugin file.directories file.name dialect source := by
  simp only [Found.script?, Option.bind_eq_some_iff, Option.map_eq_some_iff]
  constructor
  · rintro ⟨dialect, hdialect, source, hsource, rfl⟩
    exact ⟨dialect, source, hdialect, hsource, rfl⟩
  · rintro ⟨dialect, source, hdialect, hsource, rfl⟩
    exact ⟨dialect, hdialect, source, hsource, rfl⟩

theorem eq_of_ofPath {name : String} {dialect : Dialect} (hname : Files.IsName name)
    (h : Dialect.ofPath name = some dialect) :
    name = Files.stem name ++ "." ++ dialect.extension := by
  have hparent : name ≠ ".." := fun heq => hname.2 (heq ▸ by simp)
  have hextension : Files.extension? name = (Files.splitName name).2 := by
    rw [Files.extension?, Files.fileName?, Files.parts_of_isName hname]
    simp [Option.filter, hparent]
  have hsplit : (Files.splitName name).2 = some dialect.extension := by
    rw [← hextension]
    unfold Dialect.ofPath at h
    split at h
    · next heq =>
      cases h
      exact heq
    · next heq =>
      cases h
      exact heq
    · cases h
  exact eq_of_splitName (Prod.ext rfl hsplit)

/-- Where no name has a full stop before its extension, a qualified name tells the directories and
the stem. -/
theorem eq_of_qualifiedName_eq {plugin : String} {file other : Found} (hfile : file.Plain)
    (hother : other.Plain) (h : qualifiedName plugin file.directories file.name =
      qualifiedName plugin other.directories other.name) :
    file.directories = other.directories ∧ Files.stem file.name = Files.stem other.name := by
  have hparts {file : Found} (hplain : file.Plain) :
      file.parts = file.directories ++ [Files.stem file.name] := by
    rw [Found.parts, if_neg]
    rintro (hstem | hstem)
    · exact hplain.1 (hstem ▸ by simp)
    · exact hplain.1 (hstem ▸ by simp)
  have hfree {file : Found} (hplain : file.Plain) : ∀ part ∈ file.parts, '.' ∉ part.toList := by
    rw [hparts hplain]
    intro part hpart
    rcases List.mem_append.mp hpart with hpart | hpart
    · exact hplain.2 part hpart
    · exact List.mem_singleton.mp hpart ▸ hplain.1
  have heq := parts_inj (hfree hfile) (hfree hother) (qualifiedName_eq_iff.mp h)
  rw [hparts hfile, hparts hother] at heq
  simpa using List.append_inj' heq rfl

/-! ## What is collected and what is lost -/

/-- What the scan of a directory of a plugin comes to. -/
structure Collected (plugin : String) (entries : Directory) (scan : Scan) : Prop where
  /-- a scan comes to every file that stands below the directory, and to no other -/
  files : ∀ file, file ∈ filesBelow entries ↔
    (file.directories ++ [file.name]).foldlM Files.child (.dir entries) =
      some (.file file.content)
  /-- a script is found under its qualified name unless a later one has the same -/
  found : ∀ key script, find? scan.scripts key = some script ↔
    script.qualified = key ∧ ∃ before file after, filesBelow entries = before ++ file :: after ∧
      file.script? plugin = some script ∧
      ∀ other ∈ after.filterMap (Found.script? plugin), other.qualified ≠ key
  /-- so all are found only where their names are different -/
  complete : (∀ script ∈ (filesBelow entries).filterMap (Found.script? plugin),
      find? scan.scripts script.qualified = some script) ↔
    ∀ script ∈ (filesBelow entries).filterMap (Found.script? plugin),
      ∀ other ∈ (filesBelow entries).filterMap (Found.script? plugin),
        script.qualified = other.qualified → script = other
  /-- which they are where no name has a full stop before its extension, and no two files have
  names that are told apart by their dialects only -/
  plain : ∀ file ∈ filesBelow entries, ∀ script, file.script? plugin = some script → file.Plain →
    (∀ other ∈ filesBelow entries, ∀ rival, other.script? plugin = some rival →
      other.Plain ∧ (other.directories = file.directories →
        Files.stem other.name = Files.stem file.name → rival.dialect = script.dialect)) →
    find? scan.scripts script.qualified = some script
  /-- every file that is not a text is reported -/
  unreadable : ∀ path, path ∈ scan.unreadable ↔
    ∃ file ∈ filesBelow entries, file.unreadable ∧ file.path = path
  /-- the path, the source and the dialect of a script are those of its file -/
  own : ∀ file ∈ filesBelow entries, ∀ script, file.script? plugin = some script →
    script.path = file.path.replace "\\" "/" ∧ ofBytes? file.content = some script.source ∧
      Dialect.ofPath file.name = some script.dialect
  /-- the short name is missing only where nothing but full stops stands before the extension -/
  named : ∀ file ∈ filesBelow entries, ∀ script, file.script? plugin = some script →
    (∃ short, script.short = some short ∧ script.qualified = plugin ++ "." ++ short) ∨
      file.directories = [] ∧ Files.stem file.name ∈ [".", ".."] ∧
        script.qualified = plugin ∧ script.short = none

section Collected
variable {plugin : String} {entries : Directory}

theorem find?_scan {key : String} {script : Script} :
    find? (Scan.entries plugin [] entries {}).scripts key = some script ↔
      script.qualified = key ∧ ∃ before file after, filesBelow entries = before ++ file :: after ∧
        file.script? plugin = some script ∧
        ∀ other ∈ after.filterMap (Found.script? plugin), other.qualified ≠ key := by
  rw [scan_eq]
  exact find?_scriptsOf

theorem exists_find?_scan {script : Script}
    (h : script ∈ (filesBelow entries).filterMap (Found.script? plugin)) :
    ∃ other ∈ (filesBelow entries).filterMap (Found.script? plugin),
      other.qualified = script.qualified ∧
        find? (Scan.entries plugin [] entries {}).scripts script.qualified = some other := by
  cases hfind : find? (Scan.entries plugin [] entries {}).scripts script.qualified with
  | none =>
    rw [scan_eq, find?_scriptsOf_eq_none] at hfind
    exact absurd rfl (hfind script h)
  | some other =>
    obtain ⟨hname, before, file, after, hfiles, hscript, -⟩ := find?_scan.mp hfind
    refine ⟨other, ?_, hname, rfl⟩
    rw [hfiles]
    exact List.mem_filterMap.mpr ⟨file, by simp, hscript⟩

theorem complete_iff :
    (∀ script ∈ (filesBelow entries).filterMap (Found.script? plugin),
        find? (Scan.entries plugin [] entries {}).scripts script.qualified = some script) ↔
      ∀ script ∈ (filesBelow entries).filterMap (Found.script? plugin),
        ∀ other ∈ (filesBelow entries).filterMap (Found.script? plugin),
          script.qualified = other.qualified → script = other := by
  constructor
  · intro h script hscript other hother hname
    have hfind := h script hscript
    rw [hname, h other hother] at hfind
    exact (Option.some.inj hfind).symm
  · intro h script hscript
    obtain ⟨other, hother, hname, hfind⟩ := exists_find?_scan hscript
    rw [hfind, h script hscript other hother hname.symm]

/-- Files whose scripts share a name are the same one, if they are plain and of the same dialect. -/
theorem eq_of_same_name (h : Files.Proper entries) {file other : Found}
    {script rival : Script} (hfile : file ∈ filesBelow entries) (hother : other ∈ filesBelow entries)
    (hscript : file.script? plugin = some script) (hrival : other.script? plugin = some rival)
    (hplain : file.Plain) (hotherPlain : other.Plain) (hname : rival.qualified = script.qualified)
    (hdialect : other.directories = file.directories →
      Files.stem other.name = Files.stem file.name → rival.dialect = script.dialect) :
    file = other := by
  obtain ⟨dialect, source, hofPath, -, rfl⟩ := script?_eq_some.mp hscript
  obtain ⟨dialect', source', hofPath', -, rfl⟩ := script?_eq_some.mp hrival
  obtain ⟨hdirectories, hstem⟩ := eq_of_qualifiedName_eq hotherPlain hplain hname
  obtain rfl : dialect' = dialect := hdialect hdirectories hstem
  have hnames : other.name = file.name := by
    rw [eq_of_ofPath (isName_of_mem h hother).1 hofPath', hstem,
      ← eq_of_ofPath (isName_of_mem h hfile).1 hofPath]
  -- at one place there is one content
  have hcontent := (mem_filesBelow_iff h).mp hother
  rw [hdirectories, hnames, (mem_filesBelow_iff h).mp hfile, Option.some.injEq,
    FileTree.file.injEq] at hcontent
  cases file
  cases other
  cases hdirectories
  cases hnames
  cases hcontent
  rfl

theorem collected_entries (h : Files.Proper entries) :
    Collected plugin entries (Scan.entries plugin [] entries {}) where
  files file := mem_filesBelow_iff h
  found key script := find?_scan
  complete := complete_iff
  plain := by
    intro file hfile script hscript hplain hrivals
    obtain ⟨rival, hrival, hname, hfind⟩ :=
      exists_find?_scan (List.mem_filterMap.mpr ⟨file, hfile, hscript⟩)
    obtain ⟨other, hother, hrival⟩ := List.mem_filterMap.mp hrival
    obtain ⟨hotherPlain, hsibling⟩ := hrivals other hother rival hrival
    -- the script found may be that of a rival, but then the rival is the file itself
    have hsame : file = other := by
      refine eq_of_same_name h hfile hother hscript hrival hplain hotherPlain hname ?_
      exact hsibling
    subst hsame
    rw [hfind, ← hrival, hscript]
  unreadable := by
    intro path
    rw [scan_eq]
    simp [and_assoc]
  own := by
    intro file hfile script hscript
    obtain ⟨dialect, source, hdialect, hsource, rfl⟩ := script?_eq_some.mp hscript
    exact ⟨rfl, hsource, hdialect⟩
  named := by
    intro file hfile script hscript
    obtain ⟨dialect, source, hdialect, hsource, rfl⟩ := script?_eq_some.mp hscript
    obtain ⟨hname, hdirectories⟩ := isName_of_mem h hfile
    have hfilled : file.name ≠ "" := fun hempty => hname.2 (hempty ▸ by simp)
    have hshort := shortName_qualifiedName plugin hfilled
      (fun hempty => (hdirectories "" hempty).2 (by simp))
    by_cases hparts : file.parts = []
    · rw [if_pos hparts] at hshort
      obtain ⟨htop, hstem⟩ := parts_eq_nil.mp hparts
      refine Or.inr ⟨htop, hstem, ?_, hshort⟩
      have hqualified := qualifiedName_eq plugin file
      rw [hparts] at hqualified
      exact hqualified.trans (by simp [join])
    · rw [if_neg hparts] at hshort
      exact Or.inl ⟨_, hshort, join_cons hparts plugin⟩

end Collected

/-- Whatever lies below the script directory of a plugin, a scan finds every script whose qualified
name no later file has, and reports every file of a dialect that is not a text. -/
theorem scan_collects {root : Directory} (h : Files.Proper root) (directory plugin : String) :
    Collected plugin ((Files.entries? root directory).getD [])
      (scanDirectory root directory plugin) := by
  unfold scanDirectory
  cases hentries : Files.entries? root directory with
  | none =>
    have hempty : Files.Proper [] := by decide
    have hscan : Collected plugin [] (Scan.entries plugin [] [] {}) := collected_entries hempty
    rwa [Scan.entries] at hscan
  | some entries => exact collected_entries (h.of_find? (Files.find?_of_entries? hentries))

/-- Two scripts, one of them in a directory of its own, and a file that is not a text. -/
def tidyFiles : Directory :=
  [("bad.js", .file [255]), ("maid", .dir [("team.lua", .file [49])]), ("team.js", .file [50])]

theorem filesBelow_tidyFiles : filesBelow tidyFiles =
    [⟨[], "bad.js", [255]⟩, ⟨["maid"], "team.lua", [49]⟩, ⟨[], "team.js", [50]⟩] := by
  simp [tidyFiles, filesBelow, Found.under]

theorem scan_collects_tidy :
    let root := [("script", .dir tidyFiles)]
    let scan := scanDirectory root "script" "p"
    Files.Proper root ∧ "bad.js" ∈ scan.unreadable ∧
      ∃ script, find? scan.scripts "p.maid.team" = some script ∧
        script.short = some "maid.team" ∧ script.source = "1" := by
  intro root scan
  have hproper : Files.Proper root := by decide
  have h : Collected "p" tidyFiles scan := scan_collects hproper "script" "p"
  let team := Script.make "p" ["maid"] "team.lua" .lua "1"
  have hbad : "bad.js" ∈ scan.unreadable := by
    rw [h.unreadable, filesBelow_tidyFiles]
    exact ⟨⟨[], "bad.js", [255]⟩, by simp, by decide +kernel, by decide +kernel⟩
  have hteam : find? scan.scripts "p.maid.team" = some team := by
    rw [h.found]
    refine ⟨by decide +kernel, [⟨[], "bad.js", [255]⟩], ⟨["maid"], "team.lua", [49]⟩,
      [⟨[], "team.js", [50]⟩], filesBelow_tidyFiles, ?_, by decide +kernel⟩
    exact script?_eq_some.mpr ⟨.lua, "1", by decide +kernel, by decide +kernel, rfl⟩
  exact ⟨hproper, hbad, team, hteam, by decide +kernel, rfl⟩

/-- Of two files with one qualified name only the later one is found, and neither is reported; and
a file with nothing but full stops before its extension stands under the name of the plugin. -/
theorem scan_loses_same_name :
    let scan (files : Directory) := scanDirectory [("script", .dir files)] "script" "p"
    let found (files : Directory) :=
      (scan files).scripts.map (fun entry => (entry.1, entry.2.source, entry.2.short))
    found [("a.js", .file [49]), ("a.lua", .file [50])] = [("p.a", "2", some "a")] ∧
      (scan [("a.js", .file [49]), ("a.lua", .file [50])]).unreadable = [] ∧
      found [("a", .dir [("b.lua", .file [49])]), ("a.b.lua", .file [50])] =
        [("p.a.b", "2", some "a.b")] ∧
      found [("..lua", .file [49])] = [("p", "1", none)] := by
  intro scan found
  have hscan (files : Directory) : scan files = Scan.entries "p" [] files {} := rfl
  simp only [found, hscan, scan_eq, filesBelow, Found.under, List.map_cons, List.map_nil,
    List.cons_append, List.nil_append]
  decide +kernel

end DiceHost.Script
