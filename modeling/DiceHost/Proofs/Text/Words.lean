import DiceHost.Command.Line
import Mathlib.Data.List.DropRight
import Mathlib.Data.List.TakeDrop

/-! # Words

The words of a text are what stands between its blank characters. Trimming keeps them, and a
first word that is cut off leaves the others.
-/
namespace DiceHost.Text

/-! ## Pieces -/

theorem pieces_ne_nil (p : Char → Bool) (cs : List Char) : pieces p cs ≠ [] := by
  cases cs with
  | nil => simp [pieces]
  | cons c cs =>
    simp only [pieces, List.foldr_cons, pushPiece]
    split
    · simp
    · split <;> simp

theorem pieces_append_cons {p : Char → Bool} {b : Char} (hb : p b) (cs rest : List Char) :
    pieces p (cs ++ b :: rest) = pieces p cs ++ pieces p rest := by
  induction cs with
  | nil => simp [pieces, pushPiece, hb]
  | cons c cs ih =>
    have hfirst (more : List Char) : pieces p (c :: more) = pushPiece p c (pieces p more) := rfl
    obtain ⟨part, parts, hparts⟩ := List.exists_cons_of_ne_nil (pieces_ne_nil p cs)
    rw [List.cons_append, hfirst, hfirst, ih, hparts]
    by_cases hc : p c = true
    · simp [pushPiece, hc]
    · simp [pushPiece, hc]

theorem pieces_of_forall_not {p : Char → Bool} {cs : List Char} (h : ∀ c ∈ cs, p c = false) :
    pieces p cs = [cs] := by
  induction cs with
  | nil => rfl
  | cons c cs ih =>
    have hc := h c List.mem_cons_self
    have hcs := ih (fun d hd => h d (List.mem_cons_of_mem c hd))
    have hfirst : pieces p (c :: cs) = pushPiece p c (pieces p cs) := rfl
    simp [hfirst, hcs, pushPiece, hc]

/-! ## Words -/

/-- The pieces between blank characters, without the empty ones. -/
def words (cs : List Char) : List (List Char) :=
  (pieces isBlank cs).filter (fun piece => !piece.isEmpty)

/-- A text that is one word. -/
def IsWord (cs : List Char) : Prop := cs ≠ [] ∧ ∀ c ∈ cs, isBlank c = false

@[simp] theorem words_nil : words [] = [] := rfl

theorem words_append_blank {b : Char} (hb : isBlank b) (cs rest : List Char) :
    words (cs ++ b :: rest) = words cs ++ words rest := by
  rw [words, pieces_append_cons hb, List.filter_append]
  rfl

theorem words_cons_blank {b : Char} (hb : isBlank b) (cs : List Char) :
    words (b :: cs) = words cs := words_append_blank hb [] cs

theorem IsWord.words {cs : List Char} (h : IsWord cs) : words cs = [cs] := by
  rw [Text.words, pieces_of_forall_not h.2]
  simp [h.1]

theorem IsWord.append {left right : List Char} (hleft : IsWord left) (hright : IsWord right) :
    IsWord (left ++ right) := by
  refine ⟨List.append_ne_nil_of_left_ne_nil hleft.1 _, fun c hc => ?_⟩
  rcases List.mem_append.mp hc with hc | hc
  · exact hleft.2 c hc
  · exact hright.2 c hc

theorem words_append_blanks {trail : List Char} (h : ∀ c ∈ trail, isBlank c) (cs : List Char) :
    words (cs ++ trail) = words cs := by
  induction trail with
  | nil => rw [List.append_nil]
  | cons b trail ih =>
    have hrest := ih (fun c hc => h c (List.mem_cons_of_mem b hc))
    cases trail with
    | nil => rw [words_append_blank (h b List.mem_cons_self), words_nil, List.append_nil]
    | cons d trail =>
      have hd : isBlank d := h d (by simp)
      rw [words_append_blank hd] at hrest
      rw [words_append_blank (h b List.mem_cons_self), words_cons_blank hd, hrest]

/-! ## Trimming -/

theorem trimEndChars_cons (c : Char) (cs : List Char) :
    trimEndChars (c :: cs) =
      if isBlank c ∧ trimEndChars cs = [] then [] else c :: trimEndChars cs := by
  unfold trimEndChars dropWhileEnd
  rw [List.reverse_cons, List.dropWhile_append]
  cases hrest : cs.reverse.dropWhile isBlank with
  | nil =>
    by_cases hc : isBlank c = true
    · simp [hc]
    · simp [hc]
  | cons d rest => simp

theorem trimEndChars_append {w : List Char} (h : ∀ c ∈ w, isBlank c = false) (rest : List Char) :
    trimEndChars (w ++ rest) = w ++ trimEndChars rest := by
  induction w with
  | nil => rfl
  | cons c w ih =>
    have hc := h c List.mem_cons_self
    have hw := ih (fun d hd => h d (List.mem_cons_of_mem c hd))
    simp [trimEndChars_cons, hc, hw]

theorem trimStartChars_trimEndChars (cs : List Char) :
    trimStartChars (trimEndChars cs) = trimEndChars (trimStartChars cs) := by
  induction cs with
  | nil => rfl
  | cons c cs ih =>
    rw [trimEndChars_cons]
    by_cases hc : isBlank c = true
    · have hstart (more : List Char) : trimStartChars (c :: more) = trimStartChars more := by
        simp [trimStartChars, hc]
      rw [hstart, ← ih]
      by_cases hend : trimEndChars cs = []
      · simp [hc, hend]
      · simp [hend, hstart]
    · simp [trimStartChars, trimEndChars_cons, hc]

theorem trimChars_trimEndChars (cs : List Char) : trimChars (trimEndChars cs) = trimChars cs := by
  rw [trimChars, trimStartChars_trimEndChars, trimChars]
  simp [trimEndChars, dropWhileEnd, List.dropWhile_idempotent]

theorem trimChars_trimChars (cs : List Char) : trimChars (trimChars cs) = trimChars cs := by
  have hstart : trimStartChars (trimStartChars cs) = trimStartChars cs :=
    List.dropWhile_idempotent isBlank cs
  have hagain : trimChars (trimStartChars cs) = trimChars cs := by
    rw [trimChars, hstart, trimChars]
  have hend : trimChars (trimChars cs) = trimChars (trimStartChars cs) :=
    trimChars_trimEndChars (trimStartChars cs)
  rw [hend, hagain]

theorem trimChars_cons_blank {b : Char} (hb : isBlank b) (cs : List Char) :
    trimChars (b :: cs) = trimChars cs := by
  simp [trimChars, trimStartChars, hb]

theorem exists_blanks_end (cs : List Char) :
    ∃ trail, (∀ c ∈ trail, isBlank c) ∧ cs = trimEndChars cs ++ trail := by
  induction cs with
  | nil => exact ⟨[], by simp, rfl⟩
  | cons c cs ih =>
    obtain ⟨trail, hblank, heq⟩ := ih
    rw [trimEndChars_cons]
    split
    · next h =>
      rw [h.2, List.nil_append] at heq
      refine ⟨c :: cs, ?_, rfl⟩
      rw [heq]
      simpa [h.1] using hblank
    · exact ⟨trail, hblank, by rw [List.cons_append, ← heq]⟩

theorem words_trimChars (cs : List Char) : words (trimChars cs) = words cs := by
  have hend (more : List Char) : words (trimEndChars more) = words more := by
    obtain ⟨trail, hblank, heq⟩ := exists_blanks_end more
    conv_rhs => rw [heq]
    exact (words_append_blanks hblank _).symm
  rw [trimChars, hend, trimStartChars]
  induction cs with
  | nil => rfl
  | cons c cs ih =>
    rw [List.dropWhile_cons]
    split
    · next hc => rw [ih, words_cons_blank hc]
    · rfl

theorem head_trimChars {cs rest : List Char} {c : Char} (h : trimChars cs = c :: rest) :
    isBlank c = false := by
  rw [trimChars, ← trimStartChars_trimEndChars, trimStartChars] at h
  have hhead := List.head?_dropWhile_not isBlank (trimEndChars cs)
  rw [h] at hhead
  simpa using hhead

end DiceHost.Text
namespace DiceHost.Command
open DiceHost.Text

/-! ## The first word -/

theorem splitWord_eq (cs : List Char) : splitWord cs =
    (cs.takeWhile (fun c => !isBlank c), trimChars (cs.dropWhile (fun c => !isBlank c))) := by
  simp [splitWord, List.span_eq_takeWhile_dropWhile]

/-- A text that is trimmed is empty, or a word with the trimmed rest after it. -/
theorem splitWord_trimChars (cs : List Char) :
    (trimChars cs = [] ∧ words cs = []) ∨
      (IsWord (splitWord (trimChars cs)).1 ∧
        words cs = (splitWord (trimChars cs)).1 :: words (splitWord (trimChars cs)).2) := by
  rw [← words_trimChars cs]
  cases htrim : trimChars cs with
  | nil => exact Or.inl ⟨rfl, rfl⟩
  | cons c rest =>
    refine Or.inr ?_
    have hc := head_trimChars htrim
    have hword : IsWord ((c :: rest).takeWhile (fun c => !isBlank c)) := by
      refine ⟨by simp [hc], fun d hd => ?_⟩
      simpa using List.mem_takeWhile_imp hd
    rw [splitWord_eq]
    refine ⟨hword, ?_⟩
    rw [words_trimChars]
    conv_lhs => rw [← List.takeWhile_append_dropWhile (p := fun c => !isBlank c) (l := c :: rest)]
    cases hdrop : (c :: rest).dropWhile (fun c => !isBlank c) with
    | nil => rw [List.append_nil, hword.words, words_nil]
    | cons b after =>
      have hb : isBlank b = true := by
        have hhead := List.head?_dropWhile_not (fun c => !isBlank c) (c :: rest)
        rw [hdrop] at hhead
        simpa using hhead
      rw [words_append_blank hb, hword.words, words_cons_blank hb]
      rfl

/-- A word with a blank character after it is cut off as it is. -/
theorem splitWord_word {w : List Char} (hw : IsWord w) {b : Char} (hb : isBlank b)
    (rest : List Char) :
    splitWord (trimChars (w ++ b :: rest)) = (w, trimChars rest) := by
  obtain ⟨c, cs, rfl⟩ := List.exists_cons_of_ne_nil hw.1
  have hstart : trimStartChars (c :: cs ++ b :: rest) = c :: cs ++ b :: rest := by
    simp [trimStartChars, hw.2 c List.mem_cons_self]
  have hkeep : ∀ d ∈ c :: cs, (fun c => !isBlank c) d = true := fun d hd => by simp [hw.2 d hd]
  have hafter : (trimEndChars (b :: rest)).takeWhile (fun c => !isBlank c) = [] ∧
      (trimEndChars (b :: rest)).dropWhile (fun c => !isBlank c) = trimEndChars (b :: rest) := by
    rw [trimEndChars_cons]
    split <;> simp [hb]
  rw [trimChars, hstart, trimEndChars_append hw.2, splitWord_eq,
    List.takeWhile_append_of_pos hkeep, List.dropWhile_append_of_pos hkeep, hafter.1, hafter.2,
    List.append_nil, trimChars_trimEndChars, trimChars_cons_blank hb]

end DiceHost.Command
