import DiceHost.Literal.Encode
import DiceHost.Proofs.Text.Cuts
import DiceHost.Proofs.Text.Words
import DiceHost.Script.Wrap

/-! # Scripts that are wrapped

A script that begins by returning a function is only trimmed, and every other one becomes the body
of a function. The beginning is looked at as text: a longer name that starts with `function` is
taken for the word as well. What comes out begins by returning a function, so it is not wrapped
again.
-/
namespace DiceHost.Script
open DiceHost.Text

/-! ## The beginning of a script -/

def returnWord : List Char := "return".toList

def functionWord : List Char := "function".toList

/-- The text begins with `return`, blank characters and `function`, and this follows. -/
def AfterFunction (cs rest : List Char) : Prop :=
  ∃ blanks, blanks ≠ [] ∧ (∀ b ∈ blanks, isBlank b = true) ∧
    cs = returnWord ++ blanks ++ functionWord ++ rest

/-- A word goes on with this text. -/
def continues (rest : List Char) : Bool := rest.head?.any Literal.isNameChar

/-- The script, once trimmed, begins with the words `return` and `function`. -/
def FunctionForm (code : String) : Prop :=
  ∃ rest, AfterFunction (trimChars code.toList) rest ∧ continues rest = false

/-- The script, once trimmed, begins with `return` and a longer word that starts with `function`. -/
def LongerWord (code : String) : Prop :=
  ∃ rest, AfterFunction (trimChars code.toList) rest ∧ continues rest = true

theorem isWord_of_all {cs : List Char} (hne : cs ≠ []) (h : cs.all (!isBlank ·) = true) :
    IsWord cs := ⟨hne, by simpa using h⟩

theorem isWord_function : IsWord functionWord := isWord_of_all (by decide) (by decide)

section Beginning
variable {cs rest rest' : List Char}

theorem takeWhile_blanks {blanks : List Char} (h : ∀ b ∈ blanks, isBlank b = true)
    (rest : List Char) :
    (blanks ++ functionWord ++ rest).takeWhile isBlank = blanks ∧
      (blanks ++ functionWord ++ rest).dropWhile isBlank = functionWord ++ rest := by
  obtain ⟨hne, hword⟩ := isWord_function
  obtain ⟨c, more, heq⟩ := List.exists_cons_of_ne_nil hne
  have hc : isBlank c = false := hword c (heq ▸ List.mem_cons_self)
  rw [List.append_assoc, List.takeWhile_append_of_pos h, List.dropWhile_append_of_pos h, heq]
  simp [hc]

/-- The blank characters end where the word begins, so only one text can follow it. -/
theorem AfterFunction.unique (h : AfterFunction cs rest) (h' : AfterFunction cs rest') :
    rest = rest' := by
  obtain ⟨blanks, -, hblanks, rfl⟩ := h
  obtain ⟨blanks', -, hblanks', heq⟩ := h'
  rw [List.append_assoc, List.append_assoc, List.append_assoc, List.append_assoc] at heq
  have htail := List.append_cancel_left heq
  rw [← List.append_assoc, ← List.append_assoc] at htail
  have hdrop := congrArg (List.dropWhile isBlank) htail
  rw [(takeWhile_blanks hblanks rest).2, (takeWhile_blanks hblanks' rest').2] at hdrop
  exact List.append_cancel_left hdrop

theorem trimEndChars_word {w : List Char} (hw : IsWord w) (before rest : List Char) :
    trimEndChars (before ++ w ++ rest) = before ++ w ++ trimEndChars rest := by
  induction before with
  | nil => exact trimEndChars_append hw.2 rest
  | cons c before ih =>
    have hne : before ++ w ++ trimEndChars rest ≠ [] := by
      simp [hw.1]
    rw [List.cons_append, List.cons_append, trimEndChars_cons, ih, if_neg (fun h => hne h.2)]
    rfl

theorem AfterFunction.trimEnd (h : AfterFunction cs rest) :
    AfterFunction (trimEndChars cs) (trimEndChars rest) := by
  obtain ⟨blanks, hne, hblanks, rfl⟩ := h
  exact ⟨blanks, hne, hblanks, trimEndChars_word isWord_function _ rest⟩

theorem AfterFunction.append (h : AfterFunction cs rest) (more : List Char) :
    AfterFunction (cs ++ more) (rest ++ more) := by
  obtain ⟨blanks, hne, hblanks, rfl⟩ := h
  refine ⟨blanks, hne, hblanks, ?_⟩
  simp only [List.append_assoc]

end Beginning

theorem isFunctionForm_eq (code : String) : isFunctionForm code =
    match stripPrefixChars returnWord (trimStartChars code.toList) with
    | some (c :: rest) =>
      isBlank c && (stripPrefixChars functionWord (trimStartChars rest)).isSome
    | _ => false := rfl

theorem isFunctionForm_of {code : String} {rest : List Char}
    (h : AfterFunction (trimStartChars code.toList) rest) : isFunctionForm code = true := by
  obtain ⟨blanks, hne, hblanks, heq⟩ := h
  obtain ⟨b, more, rfl⟩ := List.exists_cons_of_ne_nil hne
  have hstrip : stripPrefixChars returnWord (trimStartChars code.toList) =
      some (b :: (more ++ functionWord ++ rest)) :=
    stripPrefixChars_eq_some.mpr (by rw [heq]; simp)
  have hb : isBlank b = true := hblanks b List.mem_cons_self
  have htail : stripPrefixChars functionWord (trimStartChars (more ++ functionWord ++ rest)) =
      some rest := by
    have hmore : ∀ c ∈ more, isBlank c = true := fun c hc => hblanks c (List.mem_cons_of_mem b hc)
    rw [trimStartChars, (takeWhile_blanks hmore rest).2]
    exact stripPrefixChars_eq_some.mpr rfl
  rw [isFunctionForm_eq, hstrip]
  dsimp only
  rw [htail, hb]
  rfl

theorem exists_after_of_isFunctionForm {code : String} (h : isFunctionForm code = true) :
    ∃ rest, AfterFunction (trimStartChars code.toList) rest := by
  rw [isFunctionForm_eq] at h
  split at h
  · next b tail hstrip =>
    obtain ⟨hb, hfunction⟩ := Bool.and_eq_true_iff.mp h
    obtain ⟨rest, hrest⟩ := Option.isSome_iff_exists.mp hfunction
    have hcode := stripPrefixChars_eq_some.mp hstrip
    have htail := stripPrefixChars_eq_some.mp hrest
    refine ⟨rest, b :: tail.takeWhile isBlank, List.cons_ne_nil _ _, ?_, ?_⟩
    · intro c hc
      rcases List.mem_cons.mp hc with rfl | hc
      · exact hb
      · exact List.mem_takeWhile_imp hc
    · have hsplit : tail = tail.takeWhile isBlank ++ (functionWord ++ rest) := by
        rw [← htail, trimStartChars, List.takeWhile_append_dropWhile]
      rw [hcode, List.append_assoc, List.append_assoc, List.cons_append, ← hsplit]
  · cases h

/-- Whether a script is taken for one that returns a function. -/
theorem isFunctionForm_iff (code : String) :
    isFunctionForm code = true ↔ ∃ rest, AfterFunction (trimChars code.toList) rest := by
  constructor
  · intro h
    obtain ⟨rest, hrest⟩ := exists_after_of_isFunctionForm h
    exact ⟨_, hrest.trimEnd⟩
  · rintro ⟨rest, hrest⟩
    obtain ⟨trail, -, htrail⟩ := exists_blanks_end (trimStartChars code.toList)
    have hstart := hrest.append trail
    rw [trimChars, ← htrail] at hstart
    exact isFunctionForm_of hstart

/-! ## Wrapping -/

theorem wrap_of_isFunctionForm {code : String} (h : isFunctionForm code = true) :
    wrap code = trim code := by
  rw [wrap, if_pos h]

theorem wrap_of_not_isFunctionForm {code : String} (h : isFunctionForm code = false) :
    wrap code = header ++ code ++ footer := by
  rw [wrap, h]
  rfl

theorem exists_header : ∃ opening, header.toList = "return function".toList ++ opening := by
  rw [header, join, String.toList_intercalate]
  exact ⟨_, (List.prefix_iff_eq_append.mp (by decide +kernel)).symm⟩

theorem exists_footer : ∃ closing, footer.toList = closing ++ "end".toList := by
  rw [footer, join, String.toList_intercalate]
  exact ⟨_, (List.suffix_iff_eq_append.mp (by decide +kernel)).symm⟩

theorem trimChars_length_le (cs : List Char) : (trimChars cs).length ≤ cs.length := by
  have hstart : (trimStartChars cs).length ≤ cs.length := (List.dropWhile_sublist _).length_le
  have hend (more : List Char) : (trimEndChars more).length ≤ more.length := by
    rw [trimEndChars, dropWhileEnd, List.length_reverse, ← more.length_reverse]
    exact (List.dropWhile_sublist _).length_le
  exact Nat.le_trans (hend _) hstart

/-- A script with something around it is longer than the trimmed one. -/
theorem wrapped_ne_trim (code : String) : header ++ code ++ footer ≠ trim code := by
  intro h
  have hlist := congrArg (fun s => s.toList.length) h
  simp only [trim, String.toList_append, String.toList_ofList, List.length_append] at hlist
  have htrim := trimChars_length_le code.toList
  obtain ⟨opening, hopening⟩ := exists_header
  have hheader : 0 < header.toList.length := by
    rw [hopening, List.length_append]
    exact Nat.add_pos_left (by decide +kernel) _
  omega

theorem trim_trim (code : String) : trim (trim code) = trim code := by
  rw [trim, trim, String.toList_ofList, trimChars_trimChars]

/-- A script that is wrapped begins by returning a function, and it has no blanks at its ends. -/
theorem wrapped_fixed (code : String) :
    wrap (header ++ code ++ footer) = header ++ code ++ footer := by
  obtain ⟨opening, hopening⟩ := exists_header
  obtain ⟨closing, hclosing⟩ := exists_footer
  have hend : IsWord "end".toList := isWord_of_all (by decide +kernel) (by decide +kernel)
  have hcode : (header ++ code ++ footer).toList =
      ("return function".toList ++ opening ++ code.toList ++ closing) ++ "end".toList := by
    rw [String.toList_append, String.toList_append, hopening, hclosing]
    simp
  have htrim : trimChars (header ++ code ++ footer).toList = (header ++ code ++ footer).toList := by
    have hstart : trimStartChars (header ++ code ++ footer).toList =
        (header ++ code ++ footer).toList := by
      rw [hcode]
      rfl
    have hlast := trimEndChars_word hend
      ("return function".toList ++ opening ++ code.toList ++ closing) []
    rw [List.append_nil] at hlast
    rw [trimChars, hstart, hcode, hlast]
    exact List.append_nil _
  have hform : isFunctionForm (header ++ code ++ footer) = true := by
    refine (isFunctionForm_iff _).mpr ⟨opening ++ code.toList ++ closing ++ "end".toList, [' '],
      by decide, List.all_eq_true.mp (by decide), ?_⟩
    have hwords : "return function".toList = returnWord ++ [' '] ++ functionWord := by
      decide +kernel
    rw [htrim, hcode, hwords]
    simp only [List.append_assoc]
  rw [wrap_of_isFunctionForm hform, trim, htrim, String.ofList_toList]

/-- A script that begins with the words `return` and `function` is trimmed, and every other one is
put as it is between the helpers and the epilogue, unless it begins with `return` and a longer word.
Nothing is wrapped twice. -/
theorem wrap_by_words (code : String) :
    (¬ LongerWord code →
      (wrap code = trim code ↔ FunctionForm code) ∧
      (¬ FunctionForm code → wrap code = header ++ code ++ footer)) ∧
    wrap (wrap code) = wrap code := by
  by_cases hform : isFunctionForm code = true
  · obtain ⟨rest, hrest⟩ := (isFunctionForm_iff code).mp hform
    have hwrap := wrap_of_isFunctionForm hform
    refine ⟨fun hlonger => ?_, ?_⟩
    · have hfunction : FunctionForm code :=
        ⟨rest, hrest, Bool.eq_false_iff.mpr (fun hgoes => hlonger ⟨rest, hrest, hgoes⟩)⟩
      exact ⟨⟨fun _ => hfunction, fun _ => hwrap⟩, fun hnot => absurd hfunction hnot⟩
    · have hagain : isFunctionForm (trim code) = true := by
        refine (isFunctionForm_iff _).mpr ⟨rest, ?_⟩
        rwa [trim, String.toList_ofList, trimChars_trimChars]
      rw [hwrap, wrap_of_isFunctionForm hagain, trim_trim]
  · have hbare := wrap_of_not_isFunctionForm (Bool.eq_false_iff.mpr hform)
    have hnone : ¬ FunctionForm code := fun ⟨rest, hrest, _⟩ =>
      hform ((isFunctionForm_iff code).mpr ⟨rest, hrest⟩)
    refine ⟨fun _ => ⟨⟨fun heq => ?_, fun h => absurd h hnone⟩, fun _ => hbare⟩, ?_⟩
    · exact absurd (hbare.symm.trans heq) (wrapped_ne_trim code)
    · rw [hbare, wrapped_fixed]

/-- The word is followed by a bracket, or by a blank character; a quoted word is no word. -/
theorem wrap_by_words_tabbed :
    (¬ LongerWord "\n  return\tfunction (msg) end " ∧
      wrap "\n  return\tfunction (msg) end " = "return\tfunction (msg) end") ∧
    (¬ LongerWord "return 'function'" ∧
      wrap "return 'function'" = header ++ "return 'function'" ++ footer) := by
  have hafter : AfterFunction (trimChars "\n  return\tfunction (msg) end ".toList)
      " (msg) end".toList :=
    ⟨['\t'], by decide, List.all_eq_true.mp (by decide), by decide +kernel⟩
  have hlonger : ¬ LongerWord "\n  return\tfunction (msg) end " := by
    rintro ⟨rest, hrest, hgoes⟩
    rw [hrest.unique hafter] at hgoes
    revert hgoes
    decide +kernel
  have hquoted : ∀ rest, ¬ AfterFunction (trimChars "return 'function'".toList) rest :=
    fun rest hrest => absurd ((isFunctionForm_iff _).mpr ⟨rest, hrest⟩) (by decide +kernel)
  refine ⟨⟨hlonger, ?_⟩, ?_⟩
  · have hform : FunctionForm "\n  return\tfunction (msg) end " := ⟨_, hafter, by decide +kernel⟩
    exact ((wrap_by_words _).1 hlonger).1.mpr hform
  · have hlonger' : ¬ LongerWord "return 'function'" := fun ⟨rest, hrest, _⟩ => hquoted rest hrest
    exact ⟨hlonger', ((wrap_by_words _).1 hlonger').2 (fun ⟨rest, hrest, _⟩ => hquoted rest hrest)⟩

/-- A call of a function whose name starts with `function` is taken for a function. -/
theorem longer_word_left_bare :
    ¬ FunctionForm "return functional(msg)" ∧
      wrap "return functional(msg)" = "return functional(msg)" ∧
      wrap "return functional(msg)" ≠ header ++ "return functional(msg)" ++ footer := by
  have hafter : AfterFunction (trimChars "return functional(msg)".toList) "al(msg)".toList :=
    ⟨[' '], by decide, List.all_eq_true.mp (by decide), by decide +kernel⟩
  have hwrap : wrap "return functional(msg)" = "return functional(msg)" := by
    rw [wrap_of_isFunctionForm (by decide +kernel)]
    decide +kernel
  refine ⟨?_, hwrap, ?_⟩
  · rintro ⟨rest, hrest, hends⟩
    rw [hrest.unique hafter] at hends
    revert hends
    decide +kernel
  · rw [hwrap]
    have htrim : trim "return functional(msg)" = "return functional(msg)" := by decide +kernel
    have hne := wrapped_ne_trim "return functional(msg)"
    rw [htrim] at hne
    exact hne.symm

end DiceHost.Script
