import DiceHost.Proofs.Engine.Leak
import DiceHost.Proofs.Plugin.Malformed

/-! # What a failure leaves alone

A load or a reload that fails changes nothing. A directory is loaded as if only the packages with a
usable descriptor were in it, and a package as if its malformed files were not in it. A script that
is refused is not noticed either, unless the attempt itself left something in the interpreter.
-/
namespace DiceHost.Plugin
open DiceHost.Files DiceHost.Script
variable {language : Interpreter}

/-! ## Failed loads -/

theorem loadPath_of_error {root : Directory} {path : String} {failure : Failure}
    (c : Catalog language) (h : (Catalog.loadPath root c path).2 = .error failure) :
    (Catalog.loadPath root c path).1 = c := by
  unfold Catalog.loadPath at h ⊢
  cases hread : Package.read root path with
  | error found => rfl
  | ok package =>
    rw [hread] at h
    cases h

theorem reload_of_error {root : Directory} {name : String} {failure : Failure}
    (c : Catalog language) (h : (Catalog.reload root c name).2 = .error failure) :
    (Catalog.reload root c name).1 = c := by
  unfold Catalog.reload at h ⊢
  cases hplugin : c.plugin? name with
  | none => rfl
  | some plugin =>
    rw [hplugin] at h
    dsimp only at h ⊢
    cases hload : Catalog.loadPath root c plugin.path with
    | mk loaded outcome =>
      cases outcome with
      | error found =>
        have hback := loadPath_of_error c (congrArg Prod.snd hload)
        rw [hload] at hback
        exact hback
      | ok summary =>
        rw [hload] at h
        cases h

/-! ## Directories -/

/-- The descriptor of the package at a path can be read. -/
def readable (root : Directory) (path : String) : Bool := (readDescriptor root path).toOption.isSome

theorem readable_iff {root : Directory} {path : String} : readable root path = true ↔
    ∃ format descriptor, readDescriptor root path = .ok (format, descriptor) := by
  unfold readable
  cases readDescriptor root path with
  | error failure => simp [Except.toOption]
  | ok found => exact iff_of_true rfl ⟨found.1, found.2, rfl⟩

/-- The entry of a directory is a package with a usable descriptor. -/
def isPackage (root : Directory) (directory : String) : String × FileTree → Bool
  | (_, .file _) => false
  | (name, .dir _) => readable root (under directory name)

/-- The packages in a directory. -/
def packages (root : Directory) (directory : String) : Directory :=
  ((entries? root directory).getD []).filter (isPackage root directory)

def packagePaths (root : Directory) (directory : String) : List String :=
  (KeyTable.keys (packages root directory)).map (under directory)

theorem packagePaths_eq {root entries : Directory} {directory : String}
    (h : entries? root directory = some entries) : packagePaths root directory =
      ((directoryNames entries).map (under directory)).filter (readable root) := by
  unfold packagePaths packages
  rw [h, Option.getD_some]
  clear h
  induction entries with
  | nil => rfl
  | cons entry rest ih =>
    obtain ⟨name, tree⟩ := entry
    cases tree with
    | file content => exact ih
    | dir inner =>
      have hnames : directoryNames ((name, .dir inner) :: rest) = name :: directoryNames rest := rfl
      rw [hnames, List.map_cons]
      cases hreadable : readable root (under directory name) with
      | false =>
        rw [List.filter_cons_of_neg (by simpa [isPackage] using hreadable),
          List.filter_cons_of_neg (by simp [hreadable])]
        exact ih
      | true =>
        rw [List.filter_cons_of_pos (by simpa [isPackage] using hreadable),
          List.filter_cons_of_pos hreadable, ← ih]
        rfl

theorem loadPath_of_not_readable {root : Directory} {path : String}
    (h : readable root path = false) (c : Catalog language) :
    ∃ failure, Catalog.loadPath root c path = (c, .error failure) := by
  cases hdescriptor : readDescriptor root path with
  | ok found =>
    rw [readable, hdescriptor] at h
    cases h
  | error failure =>
    refine ⟨failure, ?_⟩
    unfold Catalog.loadPath Package.read
    rw [hdescriptor]
    rfl

/-- The packages of a list are loaded one after another, and the other paths are passed over. -/
theorem loadPaths_eq (root : Directory) (paths : List String) (c : Catalog language) :
    Catalog.loadPaths root paths c =
      ((paths.filter (readable root)).foldl (fun c path => (Catalog.loadPath root c path).1) c,
        (paths.filter (readable root)).length) := by
  induction paths generalizing c with
  | nil => rfl
  | cons path rest ih =>
    cases hreadable : readable root path with
    | false =>
      obtain ⟨failure, hload⟩ := loadPath_of_not_readable hreadable c
      rw [List.filter_cons_of_neg (by simp [hreadable])]
      simp only [Catalog.loadPaths, hload, ih]
    | true =>
      obtain ⟨format, descriptor, hdescriptor⟩ := readable_iff.mp hreadable
      obtain ⟨package, hread, -, -⟩ := read_of_descriptor hdescriptor
      have hload := loadPath_of_read hread c
      rw [List.filter_cons_of_pos hreadable]
      simp only [Catalog.loadPaths, hload, ih, List.foldl_cons, List.length_cons]

/-- A directory is loaded as the list of its packages. -/
theorem loadDirectory_eq (root : Directory) (c : Catalog language) (directory : String) :
    Catalog.loadDirectory root c directory =
      ((packagePaths root directory).foldl (fun c path => (Catalog.loadPath root c path).1) c,
        (packagePaths root directory).length) := by
  unfold Catalog.loadDirectory
  cases hentries : entries? root directory with
  | none =>
    rw [packagePaths, packages, hentries]
    rfl
  | some entries =>
    dsimp only
    rw [loadPaths_eq, packagePaths_eq hentries]

section Proper
variable {root root' : Directory} {directory : String} (hproper : Proper root)
include hproper

theorem ordered_packages : KeyTable.Ordered (packages root directory) := by
  unfold packages
  cases hentries : entries? root directory with
  | none => exact List.Pairwise.nil
  | some entries =>
    exact (hproper.of_find? (find?_of_entries? hentries)).ordered.filter _

/-- What stands at the path of a package is the entry of the package. -/
theorem find?_of_mem_packages {name : String} {tree : FileTree}
    (h : (name, tree) ∈ packages root directory) :
    find? root (under directory name) = some tree ∧ isPackage root directory (name, tree) := by
  obtain ⟨hmem, hpackage⟩ := List.mem_filter.mp h
  cases hentries : entries? root directory with
  | none =>
    rw [hentries] at hmem
    cases hmem
  | some entries =>
    rw [hentries, Option.getD_some] at hmem
    have hfind := find?_of_entries? hentries
    have hentry := hproper.of_find? hfind
    rw [find?_under (hentry.isName hmem), hfind, Option.bind_some, child]
    exact ⟨hentry.ordered.find?_eq_some hmem, hpackage⟩

/-- Only the packages of a directory count. -/
theorem loadDirectory_congr (hproper' : Proper root')
    (hpackages : packages root directory = packages root' directory) (c : Catalog language) :
    Catalog.loadDirectory root c directory = Catalog.loadDirectory root' c directory := by
  have hpaths : packagePaths root directory = packagePaths root' directory := by
    rw [packagePaths, hpackages, packagePaths]
  have hload (path : String) (hpath : path ∈ packagePaths root directory) (c : Catalog language) :
      (Catalog.loadPath root c path).1 = (Catalog.loadPath root' c path).1 := by
    obtain ⟨_, hkey, rfl⟩ := List.mem_map.mp hpath
    obtain ⟨⟨name, tree⟩, hmem, rfl⟩ := List.mem_map.mp hkey
    obtain ⟨hfind, hpackage⟩ := find?_of_mem_packages hproper hmem
    obtain ⟨hfind', -⟩ := find?_of_mem_packages hproper' (hpackages ▸ hmem)
    cases tree with
    | file content => cases hpackage
    | dir package =>
      obtain ⟨format, descriptor, hdescriptor⟩ := readable_iff.mp hpackage
      have hread := read_congr hproper hproper' hfind hfind' hdescriptor rfl
      rw [Catalog.loadPath, Catalog.loadPath, hread]
  rw [loadDirectory_eq, loadDirectory_eq, ← hpaths]
  refine Prod.ext ?_ rfl
  exact List.foldl_ext _ _ c (fun c path hpath => hload path hpath c)

end Proper

/-! ## All failures -/

/-- A failed load or reload changes nothing. A directory loads as its packages do in the order of
their names, whatever else is in it, and a package loads the same with and without its malformed
files. Without refused scripts it loads the same, up to what their attempts leave behind: to the
letter where they leave no trace, and with the same sources under the same names where acceptance
depends on the source and the dialect only. -/
theorem failures_isolated (c : Catalog language) :
    (∀ root path failure, (Catalog.loadPath root c path).2 = .error failure →
      (Catalog.loadPath root c path).1 = c) ∧
    (∀ root name failure, (Catalog.reload root c name).2 = .error failure →
      (Catalog.reload root c name).1 = c) ∧
    (∀ root directory, Proper root → KeyTable.Ordered (packages root directory) ∧
      Catalog.loadDirectory root c directory =
        ((packagePaths root directory).foldl (fun c path => (Catalog.loadPath root c path).1) c,
          (packagePaths root directory).length)) ∧
    (∀ root root' directory, Proper root → Proper root' →
      packages root directory = packages root' directory →
      Catalog.loadDirectory root c directory = Catalog.loadDirectory root' c directory) ∧
    (∀ root root' path package package' format descriptor, Proper root → Proper root' →
      find? root path = some (.dir package) → find? root' path = some (.dir package') →
      readDescriptor root path = .ok (format, descriptor) →
      soundPart descriptor.name package = soundPart descriptor.name package' →
      Catalog.loadPath root c path = Catalog.loadPath root' c path) ∧
    ∀ package stays,
      (Harmless Scripts.Alike (c.unload package.descriptor.name).plugins stays package.scripts
          (c.unload package.descriptor.name).scripts →
        (c.load package).1.Matches Scripts.Alike (c.load (package.keeping stays)).1 ∧
          (c.load package).2 = (c.load (package.keeping stays)).2) ∧
      (language.Steady → (∀ entry ∈ package.scripts, stays entry = false →
          ¬ language.Accepts entry.2.source entry.2.dialect) →
        (c.load package).1.Matches (fun scripts scripts' => scripts.sources = scripts'.sources)
            (c.load (package.keeping stays)).1 ∧
          (c.load package).2 = (c.load (package.keeping stays)).2) := by
  refine ⟨?_, ?_, ?_, ?_, ?_, ?_⟩
  · intro root path failure hfails
    exact loadPath_of_error c hfails
  · intro root name failure hfails
    exact reload_of_error c hfails
  · intro root directory hproper
    exact ⟨ordered_packages hproper, loadDirectory_eq root c directory⟩
  · intro root root' directory hproper hproper' hpackages
    exact loadDirectory_congr hproper hproper' hpackages c
  · intro root root' path package package' format descriptor hproper hproper' hfind hfind'
      hdescriptor hsound
    have hread := read_congr hproper hproper' hfind hfind' hdescriptor hsound
    rw [Catalog.loadPath, hread, Catalog.loadPath]
  · intro package stays
    exact ⟨matches_of_harmless c package stays, matches_of_steady c package stays⟩

/-! ### Broken files of all kinds -/

/-- The plugin `m` with some reply files. -/
def replyPlugin (files : Directory) : String × FileTree := ("m", .dir [
  ("descriptor.json", .file "\x7b\"name\":\"m\",\"version\":\"1\"\x7d".toUTF8.toList),
  ("reply", .dir files)])

def brokenReply : String × FileTree := ("c.toml", .file "[".toUTF8.toList)

def scriptPackage (scripts : KeyTable Script) : Package :=
  ⟨"m", .json, scriptDescriptor "m", scripts, [], [], []⟩

/-- A package with one script. -/
def lonePackage (source : String) : Package :=
  scriptPackage [("m.a", Script.make "m" [] "a.lua" .lua source)]

theorem harmless_lone {source : String} (h : Engine.Parse.chunk (wrap source) = none)
    (plugins : KeyTable Loaded) (scripts : Scripts Engine.language) :
    Harmless Scripts.Alike plugins (fun _ => false) (lonePackage source).scripts scripts := by
  simp only [lonePackage, scriptPackage, Harmless, and_true]
  intro _
  exact Engine.refused_of_unread plugins scripts (Or.inr h)

theorem not_accepts_bad (dialect : Dialect) : ¬ Program.language.Accepts "!bad" dialect := by
  rintro ⟨state, codes, name, code, hcode⟩
  have hbad : Text.startsWith "!bad" "!bad" = true := by decide +kernel
  simp only [Program.language, hbad, if_true] at hcode
  cases hcode

/-- A directory without a descriptor beside a plugin, a reply file that does not parse and a script
that does not parse might as well not be there. -/
theorem failures_isolated_broken :
    let c : Catalog Engine.language := { scripts := Engine.start ⟨1000000, 16777216⟩ }
    let littered := [replyPlugin [], ("z", .dir [])]
    (Catalog.loadPath littered c "z").1 = c ∧ (Catalog.reload littered c "m").1 = c ∧
    KeyTable.Ordered (packages littered "") ∧
    Catalog.loadDirectory littered c "" = Catalog.loadDirectory [replyPlugin []] c "" ∧
    Catalog.loadPath [replyPlugin [brokenReply]] c "m" = Catalog.loadPath [replyPlugin []] c "m" ∧
    (c.load (lonePackage "return function(")).2 =
      (c.load ((lonePackage "return function(").keeping (fun _ => false))).2 ∧
    let probe : Catalog Program.language := { scripts := Program.start }
    (probe.load (lonePackage "!bad")).2 =
      (probe.load ((lonePackage "!bad").keeping (fun _ => false))).2 := by
  intro c littered
  obtain ⟨hload, hreload, hordered, hdirectory, hmalformed, hscripts⟩ := failures_isolated c
  have hproper : Proper littered := by decide +kernel
  refine ⟨?_, hreload littered "m" _ rfl, (hordered littered "" hproper).1, ?_, ?_, ?_, ?_⟩
  · have hnot : readable littered "z" = false := by decide +kernel
    obtain ⟨failure, hfailure⟩ := loadPath_of_not_readable hnot c
    exact hload littered "z" failure (congrArg Prod.snd hfailure)
  · have hlittered : isPackage littered "" (replyPlugin []) = true := by decide +kernel
    have hlone : isPackage [replyPlugin []] "" (replyPlugin []) = true := by decide +kernel
    have hempty : ¬ isPackage littered "" ("z", .dir []) = true := by decide +kernel
    have htop (root : Directory) : packages root "" = root.filter (isPackage root "") := by
      have hentries : entries? root "" = some root := rfl
      rw [packages, hentries, Option.getD_some]
    have hsame : packages littered "" = packages [replyPlugin []] "" := by
      rw [htop, htop, List.filter_cons_of_pos hlittered, List.filter_cons_of_neg hempty,
        List.filter_cons_of_pos hlone, List.filter_nil, List.filter_nil]
    exact hdirectory _ _ "" hproper (by decide +kernel) hsame
  · have hdescriptor : readDescriptor [replyPlugin [brokenReply]] "m" =
        .ok (.json, scriptDescriptor "m") := by decide +kernel
    have hbroken : isMalformed "m" "reply" brokenReply = true := by decide +kernel
    refine hmalformed _ _ "m" _ _ _ _ (by decide +kernel) (by decide +kernel) rfl rfl
      hdescriptor ?_
    simp [soundPart, soundTree, scriptDescriptor, hbroken]
  · have hchunk : (Engine.Parse.chunk (wrap "return function(")).isNone = true := by
      decide +kernel
    exact ((hscripts _ _).1 (harmless_lone (Option.isNone_iff_eq_none.mp hchunk) _ _)).2
  · intro probe
    obtain ⟨-, -, -, -, -, hscripts'⟩ := failures_isolated probe
    have hbad : ∀ entry ∈ (lonePackage "!bad").scripts, (fun _ => false) entry = false →
        ¬ Program.language.Accepts entry.2.source entry.2.dialect := by
      intro entry hentry _
      rw [List.mem_singleton.mp hentry]
      exact not_accepts_bad _
    exact ((hscripts' _ _).2 steady_program hbad).2

/-! ### A trace of a refused script -/

def leakyScript : String × FileTree := ("a.lua", .file Engine.leakSource.toUTF8.toList)

def takingScript : String × FileTree := ("b.lua", .file Engine.takeSource.toUTF8.toList)

theorem read_scriptPlugin {files : Directory} {scripts : KeyTable Script}
    (hdescriptor : readDescriptor [scriptPlugin "m" files] "m" = .ok (.json, scriptDescriptor "m"))
    (hscripts : (Scan.entries "m" [] files {}).scripts = scripts) :
    Package.read [scriptPlugin "m" files] "m" =
      .ok ⟨"m", .json, scriptDescriptor "m", scripts, [], [], []⟩ := by
  have hentries : entries? [scriptPlugin "m" files] (under "m" "script") = some files := rfl
  refine read_of_scripts hdescriptor ?_ ?_
  · rw [scanDirectory, hentries]
    exact hscripts
  · intro directory hdirectory
    fin_cases hdirectory <;> rfl

def leakyUnit : String × Script := ("m.a", Script.make "m" [] "a.lua" .lua Engine.leakSource)

def takingUnit : String × Script := ("m.b", Script.make "m" [] "b.lua" .lua Engine.takeSource)

theorem scripts_taking (scan : Scan) : (Scan.entries "m" [] [takingScript] scan).scripts =
    KeyTable.insert takingUnit.1 takingUnit.2 scan.scripts := by
  have hdialect : Dialect.ofPath "b.lua" = some .lua := by decide +kernel
  have hsource : Text.ofBytes? Engine.takeSource.toUTF8.toList = some Engine.takeSource := by
    decide +kernel
  have hname : qualifiedName "m" [] "b.lua" = "m.b" := by decide +kernel
  simp only [takingScript, Scan.entries]
  rw [scripts_file hdialect hsource, hname]
  rfl

theorem scripts_leaky (scan : Scan) :
    (Scan.entries "m" [] [leakyScript, takingScript] scan).scripts =
      KeyTable.insert takingUnit.1 takingUnit.2
        (KeyTable.insert leakyUnit.1 leakyUnit.2 scan.scripts) := by
  have hdialect : Dialect.ofPath "a.lua" = some .lua := by decide +kernel
  have hsource : Text.ofBytes? Engine.leakSource.toUTF8.toList = some Engine.leakSource := by
    decide +kernel
  have hname : qualifiedName "m" [] "a.lua" = "m.a" := by decide +kernel
  rw [leakyScript, Scan.entries, scripts_taking, scripts_file hdialect hsource, hname]
  rfl

theorem holds_leaky : Engine.Holds leakyUnit.2 Engine.leakSource :=
  ⟨rfl, rfl, by decide +kernel⟩

theorem holds_taking : Engine.Holds takingUnit.2 Engine.takeSource :=
  ⟨rfl, rfl, by decide +kernel⟩

/-- The names of the scripts that the plugin `m` keeps. -/
def keptScripts (c : Catalog Engine.language) : Option (List String) :=
  (c.plugin? "m").map (fun plugin => KeyTable.keys plugin.scripts)

theorem keptScripts_loadPath {files : Directory} {units : KeyTable Script}
    (hdescriptor : readDescriptor [scriptPlugin "m" files] "m" = .ok (.json, scriptDescriptor "m"))
    (hunits : (Scan.entries "m" [] files {}).scripts = units) (scripts : Scripts Engine.language) :
    keptScripts (Catalog.loadPath [scriptPlugin "m" files] { scripts := scripts } "m").1 =
      some (KeyTable.keys (loadScripts [] units scripts).2) := by
  rw [loadPath_of_read (read_scriptPlugin hdescriptor hunits)]
  rfl

theorem keys_loadScripts (plugins : KeyTable Loaded) (unit : String × Script)
    (rest : KeyTable Script) (scripts : Scripts language) :
    KeyTable.keys (loadScripts plugins (unit :: rest) scripts).2 =
      if (loadScript plugins scripts unit.2).2 then
        unit.1 :: KeyTable.keys (loadScripts plugins rest (loadScript plugins scripts unit.2).1).2
      else KeyTable.keys (loadScripts plugins rest (loadScript plugins scripts unit.2).1).2 := by
  obtain ⟨name, script⟩ := unit
  dsimp only [loadScripts]
  split <;> rfl

/-- The script that sets the variable is refused, and the other one is kept only where the refused
one was there. -/
theorem leak_outlives_refusal :
    let c : Catalog Engine.language := { scripts := Engine.start ⟨1000000, 16777216⟩ }
    (loadScript c.plugins c.scripts leakyUnit.2).2 = false ∧
      keptScripts (Catalog.loadPath [scriptPlugin "m" [leakyScript, takingScript]] c "m").1 =
        some ["m.b"] ∧
      keptScripts (Catalog.loadPath [scriptPlugin "m" [takingScript]] c "m").1 = some [] := by
  intro c
  have hfresh : Engine.Fresh (Engine.noting c.scripts) := Engine.fresh_start (by decide) []
  obtain ⟨hrefused, haccepted⟩ :=
    @Engine.accepted_after_leak [] c.scripts _ _ hfresh holds_leaky holds_taking
  have hlone := @Engine.refused_without_leak [] c.scripts _ hfresh holds_taking
  refine ⟨hrefused, ?_, ?_⟩
  · have hunits : (Scan.entries "m" [] [leakyScript, takingScript] {}).scripts =
        [leakyUnit, takingUnit] := scripts_leaky {}
    rw [keptScripts_loadPath (by decide +kernel) hunits, keys_loadScripts, hrefused,
      keys_loadScripts, haccepted, if_neg Bool.false_ne_true, if_pos rfl, loadScripts]
    rfl
  · have hunits : (Scan.entries "m" [] [takingScript] {}).scripts = [takingUnit] :=
      scripts_taking {}
    rw [keptScripts_loadPath (by decide +kernel) hunits, keys_loadScripts, hlone,
      if_neg Bool.false_ne_true, loadScripts]
    rfl

end DiceHost.Plugin
