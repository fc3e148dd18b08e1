import DiceHost.Plugin.Package
import DiceHost.Proofs.KeyTable

/-! # The scripts of a scan

However the files of a plugin lie below its script directory, the scripts that are found
stand in the order of their qualified names, each under its own. The scripts of a package that
was read are of this kind.
-/
namespace DiceHost.Script
open DiceHost.Text

/-- A readable file of a dialect adds its script. -/
theorem scripts_file {plugin name source : String} {directories : List String}
    {content : List UInt8} {dialect : Dialect} (hdialect : Dialect.ofPath name = some dialect)
    (hsource : ofBytes? content = some source) (scan : Scan) :
    (scan.file plugin directories name content).scripts =
      KeyTable.insert (qualifiedName plugin directories name)
        (Script.make plugin directories name dialect source) scan.scripts := by
  unfold Scan.file
  rw [hdialect]
  dsimp only
  rw [hsource]
  rfl

/-- Every script stands under its own qualified name, and the names increase. -/
structure Filed (scripts : KeyTable Script) : Prop where
  ordered : KeyTable.Ordered scripts
  own : ∀ key script, (key, script) ∈ scripts → key = script.qualified

theorem filed_nil : Filed [] := by
  refine ⟨List.Pairwise.nil, ?_⟩
  intro key script hmem
  cases hmem

theorem Filed.insert {scripts : KeyTable Script} (h : Filed scripts) (script : Script) :
    Filed (KeyTable.insert script.qualified script scripts) := by
  refine ⟨h.ordered.insert _ _, ?_⟩
  intro key found hmem
  rcases KeyTable.mem_insert hmem with heq | hmem
  · cases heq
    rfl
  · exact h.own key found hmem

/-- In the rest of a table every qualified name is greater than the first one. -/
theorem Filed.lt_of_cons {key other : String} {first script : Script} {rest : KeyTable Script}
    (h : Filed ((key, first) :: rest)) (hmem : (other, script) ∈ rest) :
    first.qualified < script.qualified := by
  have hlt := (List.pairwise_cons.mp h.ordered).1 _ hmem
  have hfirst := h.own key first List.mem_cons_self
  have hown := h.own other script (List.mem_cons_of_mem _ hmem)
  rw [hfirst, hown] at hlt
  exact hlt

theorem Filed.tail {entry : String × Script} {rest : KeyTable Script}
    (h : Filed (entry :: rest)) : Filed rest :=
  ⟨(List.pairwise_cons.mp h.ordered).2,
    fun key script hmem => h.own key script (List.mem_cons_of_mem _ hmem)⟩

theorem filed_file (plugin : String) (directories : List String) (name : String)
    (content : List UInt8) {scan : Scan} (h : Filed scan.scripts) :
    Filed (scan.file plugin directories name content).scripts := by
  unfold Scan.file
  split
  · exact h
  · split
    · exact h
    · exact h.insert _

theorem filed_entries (plugin : String) (directories : List String)
    (entries : List (String × FileTree)) {scan : Scan} (h : Filed scan.scripts) :
    Filed (Scan.entries plugin directories entries scan).scripts := by
  fun_induction Scan.entries plugin directories entries scan with
  | case1 => exact h
  | case2 directories scan name content rest ih => exact ih (filed_file plugin _ _ _ h)
  | case3 directories scan name inner rest below ih => exact ih (below h)

theorem filed_scanDirectory (root : Directory) (directory plugin : String) :
    Filed (scanDirectory root directory plugin).scripts := by
  unfold scanDirectory
  split
  · next entries _ => exact filed_entries plugin [] entries filed_nil
  · exact filed_nil

end DiceHost.Script

namespace DiceHost.Plugin
open DiceHost.Script

/-- The scripts and definitions of a package that was read are those that its files hold for the
name in its descriptor. -/
theorem parts_of_read {root : Directory} {path : String} {package : Package}
    (h : Package.read root path = .ok package) :
    package.scripts =
        (scanDirectory root (Files.under path "script") package.descriptor.name).scripts ∧
      package.commands = KeyTable.ofList
        ((readAll root (Files.under path "reply") ["toml"] (fun file text =>
          parseReplies file package.descriptor.name text)).flatten.map (fun d => (d.key, d))) := by
  unfold Package.read at h
  cases hdescriptor : readDescriptor root path with
  | error failure =>
    rw [hdescriptor] at h
    cases h
  | ok found =>
    rw [hdescriptor] at h
    cases h
    exact ⟨rfl, rfl⟩

/-- The scripts of a package that was read stand under their own names. -/
theorem filed_of_read {root : Directory} {path : String} {package : Package}
    (h : Package.read root path = .ok package) : Filed package.scripts := by
  rw [(parts_of_read h).1]
  exact filed_scanDirectory root _ _

/-- A package whose other directories are missing holds nothing but its scripts. -/
theorem read_of_scripts {root : Directory} {path : String} {format : Format}
    {descriptor : Descriptor} {scripts : KeyTable Script}
    (hdescriptor : readDescriptor root path = .ok (format, descriptor))
    (hscripts :
      (scanDirectory root (Files.under path "script") descriptor.name).scripts = scripts)
    (hother : ∀ directory ∈ ["reply", "rulebook", "template"],
      Files.entries? root (Files.under path directory) = none) :
    Package.read root path = .ok ⟨path, format, descriptor, scripts, [], [], []⟩ := by
  have hread {α : Type} {directory : String} (hmem : directory ∈ ["reply", "rulebook", "template"])
      (extensions : List String) (parse : String → String → Except Failure α) :
      readAll root (Files.under path directory) extensions parse = [] := by
    simp [readAll, hother directory hmem, Files.fileNames]
  unfold Package.read
  rw [hdescriptor]
  subst hscripts
  simp only [bind, Except.bind, pure, Except.pure]
  rw [hread (by simp), hread (by simp), hread (by simp)]
  rfl

/-- The same for a package with one script. -/
theorem read_of_file {root : Directory} {path file source : String} {format : Format}
    {descriptor : Descriptor} {content : List UInt8} {dialect : Dialect}
    (hdescriptor : readDescriptor root path = .ok (format, descriptor))
    (hfile : Files.entries? root (Files.under path "script") = some [(file, .file content)])
    (hdialect : Dialect.ofPath file = some dialect) (hsource : Text.ofBytes? content = some source)
    (hother : ∀ directory ∈ ["reply", "rulebook", "template"],
      Files.entries? root (Files.under path directory) = none) :
    Package.read root path = .ok ⟨path, format, descriptor,
      [(qualifiedName descriptor.name [] file,
        Script.make descriptor.name [] file dialect source)], [], [], []⟩ := by
  refine read_of_scripts hdescriptor ?_ hother
  rw [scanDirectory, hfile]
  simp only [Scan.entries]
  rw [scripts_file hdialect hsource]
  rfl

end DiceHost.Plugin
