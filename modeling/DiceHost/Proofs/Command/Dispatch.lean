import DiceHost.Proofs.Command.Registrar
import DiceHost.Proofs.Text.Words

/-! # From a chat line to an argument

Reading the line, choosing the subcommand and putting the verb back are three steps, each with a
cut of its own. Together they lose no word: the script sees the words after the name of its
command, whether the verb was written as a word or as part of the name.
-/
namespace DiceHost.Command
open DiceHost.Text DiceHost.Plugin

/-- The script that a chat line runs, and the argument it sees. -/
def Tree.runs (tree : Tree Target) (input : String) : Option (String × String) :=
  (tree.resolve input).map (fun found => (found.handler.script, found.handler.argument found.tail))

theorem isTypable_iff {name : String} : isTypable name = true ↔ IsWord name.toList := by
  simp [isTypable, IsWord]

/-! ## Reading a line -/

theorem splitWord_cons {c : Char} (hc : isBlank c = false) (cs : List Char) :
    splitWord (c :: cs) = (c :: (splitWord cs).1, (splitWord cs).2) := by
  simp [splitWord_eq, hc]

theorem isWord_dot : IsWord ['.'] := by
  have hdot : isBlank '.' = false := by decide
  exact ⟨by simp, by simp [hdot]⟩

/-- A line is read by its first word. -/
theorem parse?_cases (input : String) :
    (Line.parse? input = none ∧
      ∀ name, name ≠ [] → (words input.toList).head? ≠ some ('.' :: name)) ∨
    ∃ name text, Line.parse? input = some ⟨name, String.ofList (trimChars text)⟩ ∧
      words input.toList = ('.' :: name.toList) :: words text := by
  rcases splitWord_trimChars input.toList with ⟨hempty, hwords⟩ | ⟨hword, hwords⟩
  · left
    simp [Line.parse?, hempty, hwords]
  · obtain ⟨c, rest, htrim⟩ : ∃ c rest, trimChars input.toList = c :: rest := by
      refine List.exists_cons_of_ne_nil (fun hnil => ?_)
      rw [hnil] at hword
      exact hword.1 rfl
    rw [htrim, splitWord_cons (head_trimChars htrim)] at hwords
    by_cases hdot : c = '.'
    · subst hdot
      cases hname : (splitWord rest).1 with
      | nil =>
        left
        simp [Line.parse?, htrim, hwords, hname]
      | cons d name =>
        right
        refine ⟨String.ofList (d :: name), rest.dropWhile (fun c => !isBlank c), ?_, ?_⟩
        · have htail : (splitWord rest).2 = trimChars (rest.dropWhile (fun c => !isBlank c)) := by
            rw [splitWord_eq]
          simp [Line.parse?, htrim, hname, htail]
        · rw [hwords, hname, splitWord_eq, words_trimChars, String.toList_ofList]
    · left
      constructor
      · unfold Line.parse?
        rw [htrim]
        split
        · next heq => exact absurd (List.cons.inj heq).1 hdot
        · rfl
      · intro name _ hhead
        rw [hwords] at hhead
        simp [hdot] at hhead

theorem parse?_word {name : String} (hname : IsWord name.toList) (rest : String) :
    Line.parse? ("." ++ name ++ " " ++ rest) =
      some ⟨name, String.ofList (trimChars rest.toList)⟩ := by
  have hdotted : IsWord ('.' :: name.toList) := isWord_dot.append hname
  have hlist : ("." ++ name ++ " " ++ rest).toList =
      ('.' :: name.toList) ++ ' ' :: rest.toList := by
    simp
  have hsplit := splitWord_word hdotted (b := ' ') (by decide) rest.toList
  unfold Line.parse?
  rw [hlist]
  cases htrim : trimChars (('.' :: name.toList) ++ ' ' :: rest.toList) with
  | nil =>
    rw [htrim] at hsplit
    cases hsplit
  | cons c cs =>
    rw [htrim, splitWord_cons (head_trimChars htrim)] at hsplit
    obtain ⟨hfirst, htail⟩ := Prod.mk.inj hsplit
    obtain ⟨rfl, hword⟩ := List.cons.inj hfirst
    have hfilled : name.toList ≠ [] := hname.1
    simp [hword, htail, hfilled]

/-! ## Choosing the subcommand -/

/-- What an entry runs, and the argument the script sees. -/
def answerOf (entry : Entry Target) (tail : String) : String × String :=
  (entry.handler.script, entry.handler.argument tail)

section Lookup
variable {tree : Tree Target} {input name : String} {text : List Char}

/-- Without a subcommand of this name the command itself has the whole argument. -/
theorem runs_whole (h : Line.parse? input = some ⟨name, String.ofList (trimChars text)⟩)
    (hsub : (splitWord (trimChars text)).1 = [] ∨ KeyTable.find? tree
      (name ++ "." ++ String.ofList (splitWord (trimChars text)).1) = none) :
    tree.runs input =
      (KeyTable.find? tree name).map (answerOf · (String.ofList (trimChars text))) := by
  rw [Tree.runs, Tree.resolve, h, Option.bind_some, Tree.lookup, String.toList_ofList]
  rcases hsub with hempty | hnone
  · simp [hempty, answerOf, Function.comp_def]
  · simp [hnone, answerOf, Function.comp_def]

theorem runs_sub (h : Line.parse? input = some ⟨name, String.ofList (trimChars text)⟩)
    (hword : (splitWord (trimChars text)).1 ≠ []) {entry : Entry Target}
    (hentry : KeyTable.find? tree
      (name ++ "." ++ String.ofList (splitWord (trimChars text)).1) = some entry) :
    tree.runs input = some (answerOf entry (String.ofList (splitWord (trimChars text)).2)) := by
  rw [Tree.runs, Tree.resolve, h, Option.bind_some, Tree.lookup, String.toList_ofList]
  simp [hword, hentry, answerOf]

end Lookup

/-! ## Putting the verb back -/

/-- The words that a target puts before the argument. -/
def Target.leading (target : Target) : List (List Char) := (target.sub.map String.toList).toList

theorem words_argument {target : Target} (h : ∀ verb ∈ target.sub, IsWord verb.toList)
    (tail : String) :
    words (target.argument tail).toList = target.leading ++ words tail.toList := by
  obtain ⟨script, sub⟩ := target
  cases sub with
  | none => rfl
  | some verb =>
    have hverb : IsWord verb.toList := h verb rfl
    by_cases hempty : tail = ""
    · subst hempty
      simp [Target.argument, injectSubcommand, Target.leading, hverb.words]
    · have hargument : Target.argument ⟨script, some verb⟩ tail = verb ++ " " ++ tail := by
        simp [Target.argument, injectSubcommand, hempty]
      have hlist : (verb ++ " " ++ tail).toList = verb.toList ++ ' ' :: tail.toList := by simp
      rw [hargument, hlist, words_append_blank (by decide), hverb.words]
      rfl

theorem isWord_of_mem_genericVerbs {verb : String} (h : verb ∈ genericVerbs) :
    IsWord verb.toList := by
  have hall : ∀ verb ∈ genericVerbs, isTypable verb = true := by decide
  exact isTypable_iff.mp (hall verb h)

theorem isWord_of_mem_targets {name script full verb : String} {target : Target}
    (h : (full, target) ∈ targets name script) (hverb : verb ∈ target.sub) :
    IsWord verb.toList := by
  rcases mem_targets.mp h with ⟨-, rfl⟩ | ⟨other, hother, -, rfl⟩
  · cases hverb
  · cases hverb
    exact isWord_of_mem_genericVerbs hother

/-! ## Lines and registrations -/

variable {tree : Tree Target} {orders : List Order} {r : Registration}

theorem Reflects.find? (h : Reflects tree orders) (hr : r.Stands orders) {full : String}
    {target : Target} (hmem : (full, target) ∈ targets r.name r.script) :
    KeyTable.find? tree full = some (r.entry target) :=
  (h full _).mpr ⟨r, target, hr, ⟨hr.1, hmem⟩, rfl⟩

/-- An entry whose name has a full stop in it is one of a verb. -/
theorem Reflects.exists_verb (h : Reflects tree orders) (hplain : ∀ order ∈ orders, order.Plain)
    {left right : String} {entry : Entry Target}
    (hfind : KeyTable.find? tree (left ++ "." ++ right) = some entry) :
    ∃ r, Registration.Stands r orders ∧ r.name = left ∧ right ∈ genericVerbs ∧
      entry = r.entry ⟨r.script, some right⟩ := by
  obtain ⟨r, target, hstands, hserves, rfl⟩ := (h _ _).mp hfind
  have hname := hstands.plain hplain
  rcases mem_targets.mp hserves.2 with ⟨heq, -⟩ | ⟨verb, hverb, heq, rfl⟩
  · rw [← heq] at hname
    exact absurd hname (not_plain_dotted _ _)
  · obtain ⟨rfl, rfl⟩ := eq_of_dotted_eq hname (plain_of_mem_genericVerbs hverb) heq
    exact ⟨r, hstands, rfl, hverb, rfl⟩

/-- A line whose first word names an entry runs it, on the words after the name. -/
theorem Reflects.exists_runs (h : Reflects tree orders) (hplain : ∀ order ∈ orders, order.Plain)
    (hr : r.Stands orders) {full : String} {target : Target}
    (hmem : (full, target) ∈ targets r.name r.script) {input : String}
    {rest : List (List Char)} (hwords : words input.toList = ('.' :: full.toList) :: rest) :
    ∃ argument, tree.runs input = some (r.script, argument) ∧
      words argument.toList = target.leading ++ rest := by
  have hfull : full.toList ≠ [] := by
    rcases mem_targets.mp hmem with ⟨rfl, -⟩ | ⟨verb, -, rfl, -⟩
    · exact (isTypable_iff.mp hr.1).1
    · simp
  have hscript : target.script = r.script := by
    rcases mem_targets.mp hmem with ⟨-, rfl⟩ | ⟨verb, -, -, rfl⟩ <;> rfl
  rcases parse?_cases input with ⟨-, hnone⟩ | ⟨name, text, hparse, hread⟩
  · exact absurd (by rw [hwords]; rfl) (hnone full.toList hfull)
  · rw [hwords] at hread
    obtain ⟨hhead, rfl⟩ := List.cons.inj hread
    obtain rfl := String.toList_inj.mp (List.cons.inj hhead).2
    have hwhole (hsub : (splitWord (trimChars text)).1 = [] ∨ KeyTable.find? tree
        (full ++ "." ++ String.ofList (splitWord (trimChars text)).1) = none) :
        ∃ argument, tree.runs input = some (r.script, argument) ∧
          words argument.toList = target.leading ++ words text := by
      refine ⟨target.argument (String.ofList (trimChars text)), ?_, ?_⟩
      · rw [runs_whole hparse hsub, h.find? hr hmem, Option.map_some, ← hscript]
        rfl
      · rw [words_argument (fun verb hverb => isWord_of_mem_targets hmem hverb),
          String.toList_ofList, words_trimChars]
    rcases splitWord_trimChars text with ⟨hempty, -⟩ | ⟨hword, hsplit⟩
    · exact hwhole (Or.inl (by rw [hempty]; rfl))
    · cases hentry : KeyTable.find? tree
        (full ++ "." ++ String.ofList (splitWord (trimChars text)).1) with
      | none => exact hwhole (Or.inr hentry)
      | some entry =>
        -- The first word of the argument is a verb, so the name has none yet.
        obtain ⟨other, hother, hsame, hverb, -⟩ := h.exists_verb hplain hentry
        have hbare : full = r.name ∧ target = ⟨r.script, none⟩ := by
          rcases mem_targets.mp hmem with hbare | ⟨verb, -, hdotted, -⟩
          · exact hbare
          · have hotherPlain := hother.plain hplain
            rw [hsame, hdotted] at hotherPlain
            exact absurd hotherPlain (not_plain_dotted _ _)
        obtain ⟨rfl, rfl⟩ := hbare
        have hown := h.find? hr (mem_targets.mpr (Or.inr ⟨_, hverb, rfl, rfl⟩))
        refine ⟨_, runs_sub hparse hword.1 hown, ?_⟩
        rw [Registration.entry, words_argument
          (fun verb hv => by cases hv; exact isWord_of_mem_genericVerbs hverb), hsplit]
        simp [Target.leading]

/-- A line runs something only if its first word names an entry. -/
theorem Reflects.exists_head (h : Reflects tree orders) (hplain : ∀ order ∈ orders, order.Plain)
    {input : String} (hruns : tree.runs input ≠ none) :
    ∃ r full target, Registration.Stands r orders ∧ (full, target) ∈ targets r.name r.script ∧
      (words input.toList).head? = some ('.' :: full.toList) := by
  rcases parse?_cases input with ⟨hnone, -⟩ | ⟨name, text, hparse, hread⟩
  · rw [Tree.runs, Tree.resolve, hnone] at hruns
    exact absurd rfl hruns
  · have hhead : (words input.toList).head? = some ('.' :: name.toList) := by
      rw [hread]
      rfl
    cases hverb : KeyTable.find? tree
      (name ++ "." ++ String.ofList (splitWord (trimChars text)).1) with
    | some entry =>
      obtain ⟨r, hstands, hname, -, -⟩ := h.exists_verb hplain hverb
      exact ⟨r, name, ⟨r.script, none⟩, hstands, mem_targets.mpr (Or.inl ⟨hname.symm, rfl⟩), hhead⟩
    | none =>
      rw [runs_whole hparse (Or.inr hverb)] at hruns
      cases hentry : KeyTable.find? tree name with
      | none =>
        rw [hentry] at hruns
        exact absurd rfl hruns
      | some entry =>
        obtain ⟨r, target, hstands, hserves, -⟩ := (h _ _).mp hentry
        exact ⟨r, name, target, hstands, hserves.2, hhead⟩

/-- A verb that is written as a word, or as part of the name. -/
theorem Reflects.runs_verb (h : Reflects tree orders) (hplain : ∀ order ∈ orders, order.Plain)
    (hr : r.Stands orders) {verb : String} (hverb : verb ∈ genericVerbs) (rest : String) :
    tree.runs ("." ++ r.name ++ " " ++ verb ++ " " ++ rest) =
        some (r.script, injectSubcommand (some verb) (trim rest)) ∧
      tree.runs ("." ++ r.name ++ "." ++ verb ++ " " ++ rest) =
        some (r.script, injectSubcommand (some verb) (trim rest)) := by
  have hname := isTypable_iff.mp hr.1
  have hword := isWord_of_mem_genericVerbs hverb
  have hentry := h.find? hr (mem_targets.mpr (Or.inr ⟨verb, hverb, rfl, rfl⟩))
  constructor
  · have hline : "." ++ r.name ++ " " ++ verb ++ " " ++ rest =
        "." ++ r.name ++ " " ++ (verb ++ " " ++ rest) := by
      simp only [String.append_assoc]
    have hparse := parse?_word hname (verb ++ " " ++ rest)
    have hsplit : splitWord (trimChars (verb ++ " " ++ rest).toList) =
        (verb.toList, trimChars rest.toList) := by
      have hlist : (verb ++ " " ++ rest).toList = verb.toList ++ ' ' :: rest.toList := by simp
      rw [hlist, splitWord_word hword (by decide)]
    have hfull : KeyTable.find? tree (r.name ++ "." ++
        String.ofList (splitWord (trimChars (verb ++ " " ++ rest).toList)).1) =
        some (r.entry ⟨r.script, some verb⟩) := by
      rw [hsplit, String.ofList_toList, hentry]
    rw [hline, runs_sub hparse (by rw [hsplit]; exact hword.1) hfull, hsplit]
    rfl
  · have hdotted : IsWord (r.name ++ "." ++ verb).toList := by
      rw [String.toList_append, String.toList_append]
      exact (hname.append isWord_dot).append hword
    have hline : "." ++ r.name ++ "." ++ verb ++ " " ++ rest =
        "." ++ (r.name ++ "." ++ verb) ++ " " ++ rest := by
      simp only [String.append_assoc]
    have hparse := parse?_word hdotted rest
    have hnone : KeyTable.find? tree (r.name ++ "." ++ verb ++ "." ++
        String.ofList (splitWord (trimChars rest.toList)).1) = none := by
      refine Option.eq_none_iff_forall_ne_some.mpr (fun entry hfind => ?_)
      obtain ⟨other, hother, hsame, -, -⟩ := h.exists_verb hplain hfind
      have hotherPlain := hother.plain hplain
      rw [hsame] at hotherPlain
      exact not_plain_dotted _ _ hotherPlain
    rw [hline, runs_whole hparse (Or.inr hnone), hentry]
    rfl

/-! ## Every line -/

/-- The name of a command, or of one of its verbs. -/
def IsForm (name full : String) : Prop :=
  full = name ∨ ∃ verb ∈ genericVerbs, full = name ++ "." ++ verb

theorem isForm_iff {name full : String} (script : String) :
    IsForm name full ↔ ∃ target, (full, target) ∈ targets name script := by
  constructor
  · rintro (rfl | ⟨verb, hverb, rfl⟩)
    · exact ⟨_, mem_targets.mpr (Or.inl ⟨rfl, rfl⟩)⟩
    · exact ⟨_, mem_targets.mpr (Or.inr ⟨verb, hverb, rfl, rfl⟩)⟩
  · rintro ⟨target, hmem⟩
    rcases mem_targets.mp hmem with ⟨rfl, -⟩ | ⟨verb, hverb, rfl, -⟩
    · exact Or.inl rfl
    · exact Or.inr ⟨verb, hverb, rfl⟩

/-- A name and its verbs are all served by the registration that stands for the name, or none of
them is there. -/
theorem Reflects.served_or_absent (h : Reflects tree orders)
    (hplain : ∀ order ∈ orders, order.Plain) {name : String} (hname : Plain name) :
    (∃ r, Registration.Stands r orders ∧ r.name = name ∧
      ∀ full target, (full, target) ∈ targets name r.script →
        KeyTable.find? tree full = some (r.entry target)) ∨
    ((∀ r, Registration.Stands r orders → r.name ≠ name) ∧
      ∀ full, IsForm name full → KeyTable.find? tree full = none) := by
  by_cases hstands : ∃ r, Registration.Stands r orders ∧ r.name = name
  · obtain ⟨r, hr, rfl⟩ := hstands
    exact Or.inl ⟨r, hr, rfl, fun full target hmem => h.find? hr hmem⟩
  · have hnone : ∀ r, Registration.Stands r orders → r.name ≠ name :=
      fun r hr heq => hstands ⟨r, hr, heq⟩
    refine Or.inr ⟨hnone, fun full hform => ?_⟩
    refine Option.eq_none_iff_forall_ne_some.mpr (fun entry hfind => ?_)
    obtain ⟨r, target, hr, hserves, -⟩ := (h _ _).mp hfind
    obtain ⟨target', hmem⟩ := (isForm_iff r.script).mp hform
    exact hnone r hr (eq_of_mem_targets (hr.plain hplain) hname hserves.2 hmem)

theorem Reflects.resolve_eq_none_iff (h : Reflects tree orders)
    (hplain : ∀ order ∈ orders, order.Plain) (input : String) :
    tree.resolve input = none ↔
      ¬ ∃ r full, Registration.Stands r orders ∧ IsForm r.name full ∧
        (words input.toList).head? = some ('.' :: full.toList) := by
  have hruns : tree.resolve input = none ↔ tree.runs input = none := by simp [Tree.runs]
  rw [hruns, not_iff_not.symm, not_not]
  constructor
  · intro hsome
    obtain ⟨r, full, target, hr, hmem, hhead⟩ := h.exists_head hplain hsome
    exact ⟨r, full, hr, (isForm_iff r.script).mpr ⟨target, hmem⟩, hhead⟩
  · rintro ⟨r, full, hr, hform, hhead⟩ hnone
    obtain ⟨target, hmem⟩ := (isForm_iff r.script).mp hform
    obtain ⟨argument, hrun, -⟩ := h.exists_runs hplain hr hmem (List.eq_cons_of_mem_head? hhead)
    rw [hnone] at hrun
    cases hrun

/-- Whatever was registered and unregistered, as long as no command name has a full stop in it:
a name and its verbs stand and fall together; a verb can be written as a word or in the name; the
script sees the words of the line after the name, each once and in order, a verb in the name
first; and a line is no command just when its first word names nothing that stands. -/
theorem lines_after_calls (calls : List Call)
    (hplain : ∀ order ∈ calls.flatMap Call.orders, order.Plain) :
    let tree := treeAfter calls
    let orders := calls.flatMap Call.orders
    (∀ name, Plain name →
      (∃ r, Registration.Stands r orders ∧ r.name = name ∧
        ∀ full target, (full, target) ∈ targets name r.script →
          KeyTable.find? tree full = some (r.entry target)) ∨
      ((∀ r, Registration.Stands r orders → r.name ≠ name) ∧
        ∀ full, IsForm name full → KeyTable.find? tree full = none)) ∧
    (∀ r, Registration.Stands r orders → ∀ verb ∈ genericVerbs, ∀ rest,
      tree.runs ("." ++ r.name ++ " " ++ verb ++ " " ++ rest) =
          some (r.script, injectSubcommand (some verb) (trim rest)) ∧
        tree.runs ("." ++ r.name ++ "." ++ verb ++ " " ++ rest) =
          some (r.script, injectSubcommand (some verb) (trim rest))) ∧
    (∀ r, Registration.Stands r orders → ∀ full target,
      (full, target) ∈ targets r.name r.script → ∀ input rest,
        words input.toList = ('.' :: full.toList) :: rest →
          ∃ argument, tree.runs input = some (r.script, argument) ∧
            words argument.toList = target.leading ++ rest) ∧
    ∀ input, tree.resolve input = none ↔
      ¬ ∃ r full, Registration.Stands r orders ∧ IsForm r.name full ∧
        (words input.toList).head? = some ('.' :: full.toList) := by
  intro tree orders
  have h : Reflects tree orders := reflects_treeAfter hplain
  refine ⟨fun name hname => h.served_or_absent hplain hname, ?_, ?_, h.resolve_eq_none_iff hplain⟩
  · intro r hr verb hverb rest
    exact h.runs_verb hplain hr hverb rest
  · intro r hr full target hmem input rest hwords
    exact h.exists_runs hplain hr hmem hwords

/-- A definition of the command `name`. -/
def commandOf (name script : String) : Definition :=
  ⟨name, "." ++ name, script, none, none, none⟩

/-- Two plugins that want one command, of which the later goes again, and a name that cannot be
typed. -/
def contested : List Call :=
  [.register "maid" "Maid" [commandOf "team" "maid.team", commandOf "no name" "maid.none"],
    .register "pulp" "Pulp" [commandOf "team" "pulp.team", commandOf "crew" "pulp.crew"],
    .unregister "pulp",
    .register "maid" "Maid" [commandOf "crew" "maid.crew"]]

/-- The command that both wanted has gone with the later plugin; the other one has been
registered again and sees every word. -/
theorem lines_after_contested :
    (∀ order ∈ contested.flatMap Call.orders, order.Plain) ∧
    (∀ r, Registration.Stands r (contested.flatMap Call.orders) → r.name ≠ "team") ∧
    (treeAfter contested).runs ".crew.show  a  b " = some ("maid.crew", "show a  b") := by
  have hplain : ∀ order ∈ contested.flatMap Call.orders, order.Plain := by
    decide +kernel
  obtain ⟨-, hverb, -, hnone⟩ := lines_after_calls contested hplain
  have hcrew : Registration.Stands ⟨"maid", "Maid", commandOf "crew" "maid.crew"⟩
      (contested.flatMap Call.orders) :=
    ⟨by decide, (contested.flatMap Call.orders).dropLast, [], rfl, by simp⟩
  refine ⟨hplain, ?_, (hverb _ hcrew "show" (by decide) " a  b ").2⟩
  intro r hr hteam
  have hsilent : (treeAfter contested).resolve ".team" = none := by decide +kernel
  exact (hnone ".team").mp hsilent ⟨r, r.name, hr, Or.inl rfl, by rw [hteam]; decide +kernel⟩

end DiceHost.Command
