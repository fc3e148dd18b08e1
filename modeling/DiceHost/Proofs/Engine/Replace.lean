import DiceHost.Proofs.Engine.Evaluate
import DiceHost.Proofs.Render
import DiceHost.Proofs.Text.Utf8

/-! # Replacing a placeholder in the engine

A pattern of letters and braces matches itself only. Replacing all its matches by what a function
gives, over the bytes of a text, is one pass over the characters of the text.
-/
namespace DiceHost.Engine
open DiceHost.Text

/-! ## Patterns that match themselves -/

namespace Pattern

/-- The bytes that mean something in a pattern. -/
def signs : List UInt8 := [36, 37, 40, 41, 42, 43, 45, 46, 63, 91, 94]

/-- A pattern in which every byte stands for itself. -/
def Request.Literal (r : Request) : Prop := ∀ c ∈ r.pattern.data.toList, c ∉ signs

variable {r : Request}

theorem sign_eq (r : Request) (p : Nat) : r.sign p = r.pattern.data.toList[p]? :=
  (Array.getElem?_toList).symm

theorem at?_eq (r : Request) (s : Nat) : r.at? s = r.subject.data.toList[s]? :=
  (Array.getElem?_toList).symm

theorem Request.Literal.notMem (h : r.Literal) {p : Nat} {c : UInt8} (hc : r.sign p = some c) :
    c ∉ signs := h c (List.mem_of_getElem? ((sign_eq r p).symm.trans hc))

theorem Request.Literal.not_isSign (h : r.Literal) (p : Nat) {c : Char}
    (hc : UInt8.ofNat c.toNat ∈ signs) : r.isSign p c = false := by
  refine beq_eq_false_iff_ne.mpr (fun hsign => ?_)
  exact h.notMem hsign hc

theorem single_literal (h : r.Literal) {s p e : Nat} {c : UInt8} (hc : r.sign p = some c) :
    single r s p e = (r.at? s == some c) := by
  have hsigns := h.notMem hc
  unfold single
  cases hat : r.at? s with
  | none => rfl
  | some b =>
    simp only [hc]
    split
    · next heq => exact absurd (Option.some.inj heq ▸ (by decide)) hsigns
    · next heq => exact absurd (Option.some.inj heq ▸ (by decide)) hsigns
    · next heq => exact absurd (Option.some.inj heq ▸ (by decide)) hsigns
    · next heq =>
      cases heq
      rfl
    · next heq => cases heq

theorem itemEnd_literal (h : r.Literal) (p : Nat) : itemEnd r p = .ok (p + 1) := by
  unfold itemEnd
  split
  · next hc => exact absurd (by decide) (h.notMem hc)
  · next hc => exact absurd (by decide) (h.notMem hc)
  · rfl

/-- One byte of the pattern is matched at a time. -/
theorem matchAt_literal (h : r.Literal) (captures : Array Capture) {fuel s p : Nat} {c : UInt8}
    (hc : r.sign p = some c) :
    matchAt r captures (fuel + 1) s p =
      if r.at? s = some c then matchAt r captures fuel (s + 1) (p + 1) else .ok none := by
  have hsigns := h.notMem hc
  have h36 : (c == 36) = false := beq_eq_false_iff_ne.mpr (fun heq => hsigns (heq ▸ by decide))
  have h37 : (c == 37) = false := beq_eq_false_iff_ne.mpr (fun heq => hsigns (heq ▸ by decide))
  rw [matchAt, hc]
  split
  · next heq => cases heq
  · next heq => exact absurd (Option.some.inj heq ▸ (by decide)) hsigns
  · next heq => exact absurd (Option.some.inj heq ▸ (by decide)) hsigns
  · next found _ _ heq =>
    cases heq
    have hsign {c : Char} := @Request.Literal.not_isSign r h (p + 1) c
    rw [h36, h37, itemEnd_literal h p]
    simp only [Bool.false_and, Bool.false_eq_true, if_false, single_literal h hc, beq_iff_eq,
      @hsign '?' (by decide), @hsign '+' (by decide), @hsign '*' (by decide),
      @hsign '-' (by decide)]

theorem matchAt_end {p : Nat} (hp : r.sign p = none) (captures : Array Capture) (fuel s : Nat) :
    matchAt r captures (fuel + 1) s p = .ok (some (s, captures)) := by
  rw [matchAt, hp]

/-- Such a pattern matches where the text goes on with its bytes. -/
theorem matchAt_eq (h : r.Literal) (captures : Array Capture) {fuel s p : Nat}
    (hp : p ≤ r.pattern.data.toList.length) (hfuel : r.pattern.data.toList.length < fuel + p) :
    matchAt r captures fuel s p =
      .ok (if r.pattern.data.toList.drop p <+: r.subject.data.toList.drop s then
        some (s + (r.pattern.data.toList.length - p), captures) else none) := by
  -- the fuel pays for the bytes of the pattern that are left
  induction fuel generalizing s p with
  | zero => omega
  | succ fuel ih =>
    have hsign := sign_eq r p
    rcases Nat.lt_or_ge p r.pattern.data.toList.length with hlt | hge
    · rw [List.getElem?_eq_getElem hlt] at hsign
      rw [matchAt_literal h captures hsign, at?_eq, List.drop_eq_getElem_cons hlt,
        ih hlt (by omega)]
      rcases Nat.lt_or_ge s r.subject.data.toList.length with hin | hout
      · rw [List.getElem?_eq_getElem hin, List.drop_eq_getElem_cons hin]
        simp only [Option.some.injEq, List.cons_prefix_cons]
        by_cases heq : r.subject.data.toList[s] = r.pattern.data.toList[p]
        · rw [if_pos heq]
          simp only [heq, true_and]
          split
          · congr 3
            omega
          · rfl
        · rw [if_neg heq, if_neg (fun hboth => heq hboth.1.symm)]
      · rw [List.getElem?_eq_none hout, List.drop_eq_nil_of_le hout, if_neg (by simp),
          if_neg (by simp)]
    · rw [List.getElem?_eq_none hge] at hsign
      obtain rfl := Nat.le_antisymm hp hge
      rw [matchAt_end hsign, List.drop_length, if_pos List.nil_prefix, Nat.sub_self, Nat.add_zero]

theorem matchFrom_eq (h : r.Literal) (s : Nat) :
    r.matchFrom s 0 =
      .ok (if r.pattern.data.toList <+: r.subject.data.toList.drop s then
        some (s + r.pattern.data.toList.length, #[]) else none) := by
  have hfuel : r.pattern.data.toList.length < (r.pattern.size + 2) * (r.subject.size + 4) :=
    Nat.lt_of_lt_of_le (Nat.lt_add_of_pos_right (by decide))
      (Nat.le_mul_of_pos_right _ (Nat.succ_pos _))
  have hmatch := matchAt_eq h #[] (s := s) (Nat.zero_le _) hfuel
  rwa [List.drop_zero, Nat.sub_zero] at hmatch

theorem Request.Literal.not_anchored (h : r.Literal) : r.anchored = false :=
  h.not_isSign 0 (by decide)

end Pattern

/-! ## One step of a replacement -/

namespace Substitution

/-- The bytes that have not been dealt with. -/
def ahead (work : Substitution) : List UInt8 := work.subject.data.toList.drop work.position

/-- A replacement of a pattern that matches itself by what a function gives, all matches to be
replaced. -/
structure Literal (work : Substitution) : Prop where
  pattern : Pattern.Request.Literal ⟨work.subject, work.pattern⟩
  filled : work.pattern.data.toList ≠ []
  limit : work.limit = work.subject.size + 1
  count : work.count ≤ work.position
  lastEnd : ∀ last, work.lastEnd = some last → last ≤ work.position

def copy (work : Substitution) (b : UInt8) : Substitution :=
  { work with position := work.position + 1, out := work.out.push b }

/-- The replacement at a match, before the function gives its result. -/
def hit (work : Substitution) : Substitution :=
  let last := work.position + work.pattern.data.toList.length
  { work with
    count := work.count + 1
    position := last
    lastEnd := some last
    matched := Pattern.slice work.subject work.position last }

variable {work : Substitution}

theorem Literal.copy (h : work.Literal) (b : UInt8) : (work.copy b).Literal where
  pattern := h.pattern
  filled := h.filled
  limit := h.limit
  count := Nat.le_succ_of_le h.count
  lastEnd last hlast := Nat.le_succ_of_le (h.lastEnd last hlast)

theorem Literal.hit (h : work.Literal) : work.hit.Literal where
  pattern := h.pattern
  filled := h.filled
  limit := h.limit
  count := Nat.add_le_add h.count (List.length_pos_iff.mpr h.filled)
  lastEnd last hlast := by
    cases hlast
    exact Nat.le_refl _

theorem Literal.more (h : work.Literal) (hposition : work.position ≤ work.subject.size) :
    ¬ work.limit ≤ work.count := by
  have hcount := h.count
  rw [h.limit]
  omega

theorem Literal.matchFrom (h : work.Literal) :
    Pattern.Request.matchFrom ⟨work.subject, work.pattern⟩ work.position 0 =
      .ok (if work.pattern.data.toList <+: work.ahead then
        some (work.position + work.pattern.data.toList.length, #[]) else none) :=
  Pattern.matchFrom_eq h.pattern work.position

theorem Literal.matchFrom_none (h : work.Literal)
    (hmatch : ¬ work.pattern.data.toList <+: work.ahead) :
    Pattern.Request.matchFrom ⟨work.subject, work.pattern⟩ work.position 0 = .ok none := by
  rw [h.matchFrom, if_neg hmatch]

theorem at?_of_ahead {b : UInt8} {more : List UInt8} (h : work.ahead = b :: more) :
    Pattern.Request.at? ⟨work.subject, work.pattern⟩ work.position = some b := by
  refine (Pattern.at?_eq _ _).trans ?_
  rw [← Nat.add_zero work.position, ← List.getElem?_drop]
  exact congrArg (fun l : List UInt8 => l[0]?) h

theorem advance_copy (h : work.Literal) (s : State) (fuel : Nat) {b : UInt8}
    {more : List UInt8} (hahead : work.ahead = b :: more)
    (hmatch : ¬ work.pattern.data.toList <+: work.ahead) :
    work.advance s (fuel + 1) = (work.copy b).advance s fuel := by
  have hposition : work.position ≤ work.subject.size := by
    refine Nat.le_of_not_lt (fun hlt => ?_)
    rw [ahead, List.drop_eq_nil_of_le (Nat.le_of_lt hlt)] at hahead
    cases hahead
  rw [advance, if_neg (h.more hposition)]
  simp only [h.pattern.not_anchored, Bool.false_eq_true, if_false, h.matchFrom_none hmatch,
    Option.filter_none, at?_of_ahead hahead]
  rfl

theorem advance_done (h : work.Literal) (s : State) (fuel : Nat)
    (hposition : work.position = work.subject.size) :
    work.advance s (fuel + 1) = .done work := by
  have hahead : work.ahead = [] := List.drop_eq_nil_of_le (Nat.le_of_eq hposition.symm)
  have hmatch : ¬ work.pattern.data.toList <+: work.ahead := by
    rw [hahead, List.prefix_nil]
    exact h.filled
  have hat : Pattern.Request.at? ⟨work.subject, work.pattern⟩ work.position = none :=
    Array.getElem?_eq_none (Nat.le_of_eq hposition.symm)
  rw [advance, if_neg (h.more (Nat.le_of_eq hposition))]
  simp only [h.pattern.not_anchored, Bool.false_eq_true, if_false, h.matchFrom_none hmatch,
    Option.filter_none, hat]

theorem advance_hit (h : work.Literal) (s : State) (fuel : Nat) {id : Nat} {code : Function}
    {slots : List Nat} {chunk : String} (hf : work.replacement = .function id code slots chunk)
    (hmatch : work.pattern.data.toList <+: work.ahead)
    (hposition : work.position ≤ work.subject.size) :
    work.advance s (fuel + 1) =
      .ask (.function id code slots chunk) [.str work.hit.matched] work.hit := by
  have hlast : (some (work.position + work.pattern.data.toList.length) != work.lastEnd) = true := by
    refine bne_iff_ne.mpr (fun heq => ?_)
    have hle := h.lastEnd _ heq.symm
    have hpos := List.length_pos_iff.mpr h.filled
    omega
  have hfound : Pattern.Request.matchFrom ⟨work.subject, work.pattern⟩ work.position 0 =
      .ok (some (work.position + work.pattern.data.toList.length, #[])) := by
    rw [h.matchFrom, if_pos hmatch]
  rw [advance, if_neg (h.more hposition)]
  simp only [h.pattern.not_anchored, Bool.false_eq_true, if_false, hfound, Option.filter_some,
    hlast, if_true, hit, hf]
  rfl

/-! ## Replacing a placeholder -/

/-- A replacement of the placeholders of a name in a text: what has been dealt with, what has
not, and what has been written. -/
structure Reads (work : Substitution) (name : String) (done rest out : List Char) : Prop where
  literal : work.Literal
  pattern : work.pattern.data.toList = encodeChars (mark name)
  subject : work.subject.data.toList = encodeChars (done ++ rest)
  position : work.position = (encodeChars done).length
  out : work.out.data.toList = encodeChars out

section Reads
variable {name : String} {done rest out : List Char}

theorem Reads.ahead_eq (h : Reads work name done rest out) : work.ahead = encodeChars rest := by
  rw [ahead, h.subject, h.position, encodeChars_append, List.drop_left]

theorem Reads.position_le (h : Reads work name done rest out) :
    work.position ≤ work.subject.size := by
  have hsize : work.subject.size = (encodeChars (done ++ rest)).length :=
    congrArg List.length h.subject
  rw [h.position, hsize, encodeChars_append, List.length_append]
  exact Nat.le_add_right _ _

theorem Reads.prefix_iff (h : Reads work name done rest out) :
    work.pattern.data.toList <+: work.ahead ↔ mark name <+: rest := by
  rw [h.pattern, h.ahead_eq, encodeChars_prefix]

/-- Inside a character that starts no placeholder no match starts. -/
theorem not_prefix_of_suffix {c : Char} (hmark : ¬ mark name <+: c :: rest) {b : UInt8}
    {bytes : List UInt8} (hsuffix : b :: bytes <:+ encodeChar c) :
    ¬ encodeChars (mark name) <+: b :: bytes ++ encodeChars rest := by
  intro hprefix
  by_cases hopen : c = '{'
  · have hall : b :: bytes = encodeChar c := by
      subst hopen
      exact hsuffix.eq_of_length_le (Nat.succ_le_succ (Nat.zero_le _))
    rw [hall, ← encodeChars_cons, encodeChars_prefix] at hprefix
    exact hmark hprefix
  · rw [mark, encodeChars_cons, List.cons_append] at hprefix
    have hb : UInt8.ofNat '{'.toNat = b := (List.cons_prefix_cons.mp hprefix).1
    have hmem : b ∈ encodeChar c := hsuffix.subset List.mem_cons_self
    exact hopen (eq_of_mem_encodeChar (by decide) (hb ▸ hmem))

theorem advance_copies (h : work.Literal) (s : State) (fuel : Nat) {bytes : List UInt8}
    (more : List UInt8) (hahead : work.ahead = bytes ++ more)
    (hmatch : ∀ b last, b :: last <:+ bytes → ¬ work.pattern.data.toList <+: b :: last ++ more) :
    work.advance s (fuel + bytes.length) = (bytes.foldl copy work).advance s fuel := by
  induction bytes generalizing work with
  | nil => rfl
  | cons b bytes ih =>
    have hnext : (work.copy b).ahead = bytes ++ more := by
      have htail := congrArg List.tail hahead
      rwa [ahead, List.tail_drop] at htail
    rw [List.length_cons, ← Nat.add_assoc, advance_copy h s _ hahead
      (hahead ▸ hmatch b bytes (List.suffix_refl _)), List.foldl_cons]
    exact ih (h.copy b) hnext (fun first last hlast =>
      hmatch first last (hlast.trans (List.suffix_cons b bytes)))

theorem Literal.copies (h : work.Literal) (bytes : List UInt8) :
    (bytes.foldl Substitution.copy work).Literal := by
  induction bytes generalizing work with
  | nil => exact h
  | cons b bytes ih => exact ih (h.copy b)

theorem copies_eq (work : Substitution) (bytes : List UInt8) :
    (bytes.foldl copy work).pattern = work.pattern ∧
      (bytes.foldl copy work).subject = work.subject ∧
      (bytes.foldl copy work).replacement = work.replacement ∧
      (bytes.foldl copy work).position = work.position + bytes.length ∧
      (bytes.foldl copy work).out.data.toList = work.out.data.toList ++ bytes := by
  induction bytes generalizing work with
  | nil => simp
  | cons b bytes ih =>
    obtain ⟨hpattern, hsubject, hreplacement, hposition, hout⟩ := ih (work.copy b)
    refine ⟨hpattern, hsubject, hreplacement, ?_, ?_⟩
    · have hone : (work.copy b).position = work.position + 1 := rfl
      rw [List.foldl_cons, hposition, hone, List.length_cons]
      omega
    · have hone : (work.copy b).out.data.toList = work.out.data.toList ++ [b] :=
        Array.toList_push
      rw [List.foldl_cons, hout, hone, List.append_assoc, List.singleton_append]

/-- A character that starts no placeholder is copied. -/
theorem Reads.skip {c : Char} (h : Reads work name done (c :: rest) out)
    (hmark : ¬ mark name <+: c :: rest) :
    ∃ after : Substitution, after.replacement = work.replacement ∧
      Reads after name (done ++ [c]) rest (out ++ [c]) ∧
      ∀ s fuel, work.advance s (fuel + (encodeChar c).length) = after.advance s fuel := by
  obtain ⟨hpattern, hsubject, hreplacement, hposition, hout⟩ := copies_eq work (encodeChar c)
  have hone : encodeChars [c] = encodeChar c := by simp [encodeChars]
  refine ⟨(encodeChar c).foldl copy work, hreplacement, ⟨h.literal.copies _, ?_, ?_, ?_, ?_⟩,
    fun s fuel => advance_copies h.literal s fuel (encodeChars rest) ?_
      (fun b last hlast => ?_)⟩
  · rw [hpattern, h.pattern]
  · rw [hsubject, h.subject, List.append_assoc, List.singleton_append]
  · rw [hposition, h.position, encodeChars_append, hone, List.length_append]
  · rw [hout, h.out, encodeChars_append, hone]
  · rw [h.ahead_eq, encodeChars_cons]
  · rw [h.pattern]
    exact not_prefix_of_suffix hmark hlast

/-- At a placeholder the function is asked, and what is behind it is left. -/
theorem Reads.hit (h : Reads work name done (mark name ++ rest) out) :
    Reads work.hit name (done ++ mark name) rest out := by
  refine ⟨h.literal.hit, h.pattern, ?_, ?_, h.out⟩
  · rw [Substitution.hit, h.subject, List.append_assoc]
  · rw [Substitution.hit, h.position, h.pattern, encodeChars_append, List.length_append]

/-- Where a text is read to its end, the pass copied it; where a placeholder is found, the pass
goes on behind it. -/
inductive Found (work : Substitution) (name : String) (done rest out : List Char) (fuel : Nat) :
    Prop
  | done (after : Substitution) : (∀ s, work.advance s fuel = .done after) →
      Reads after name (done ++ rest) [] (out ++ rest) →
      (∀ value, filled [(name, value)] rest = rest) → Found work name done rest out fuel
  | ask (after : Substitution) (before behind done' : List Char) :
      (∀ s, work.advance s fuel = .ask work.replacement [.str after.matched] after) →
      after.replacement = work.replacement →
      Reads after name done' behind (out ++ before) → behind.length < rest.length →
      (∀ value, filled [(name, value)] rest =
        before ++ (value.toList ++ filled [(name, value)] behind)) →
      Found work name done rest out fuel

theorem Reads.found (h : Reads work name done rest out) {id : Nat} {code : Function}
    {slots : List Nat} {chunk : String} (hf : work.replacement = .function id code slots chunk)
    {fuel : Nat} (hfuel : (encodeChars rest).length < fuel) :
    Found work name done rest out fuel := by
  -- along the pass over characters; the engine takes one step for each byte of a character
  induction rest using pass_induction name generalizing work done out fuel with
  | nil =>
    obtain ⟨fuel, rfl⟩ := Nat.exists_eq_add_one_of_ne_zero (Nat.ne_of_gt hfuel)
    have hend : work.position = work.subject.size := by
      have hsize : work.subject.size = (encodeChars (done ++ [])).length :=
        congrArg List.length h.subject
      rw [h.position, hsize, List.append_nil]
    refine .done work (fun s => advance_done h.literal s fuel hend) ?_ (fun _ => rfl)
    rwa [List.append_nil, List.append_nil]
  | marked rest _ =>
    obtain ⟨fuel, rfl⟩ := Nat.exists_eq_add_one_of_ne_zero (Nat.ne_of_gt
      (Nat.zero_lt_of_lt hfuel))
    refine .ask work.hit [] rest (done ++ mark name) (fun s => ?_) rfl ?_ ?_
      (fun value => filled_mark rest)
    · rw [advance_hit h.literal s fuel hf (h.prefix_iff.mpr (List.prefix_append _ _))
        h.position_le, hf]
    · rw [List.append_nil]
      exact h.hit
    · rw [mark, List.length_append, List.length_cons]
      omega
  | char c rest hmark ih =>
    obtain ⟨after, hreplacement, hafter, hskip⟩ := h.skip hmark
    rw [encodeChars_cons, List.length_append] at hfuel
    obtain ⟨left, rfl⟩ := Nat.exists_eq_add_of_lt hfuel
    have hleft : (encodeChars rest).length < (encodeChars rest).length + left + 1 := by omega
    have hsplit : (encodeChar c).length + (encodeChars rest).length + left + 1 =
        (encodeChars rest).length + left + 1 + (encodeChar c).length := by omega
    rw [hsplit]
    have hcopied (value : String) : filled [(name, value)] (c :: rest) =
        c :: filled [(name, value)] rest := filled_of_not_mark hmark
    cases ih hafter (hreplacement.trans hf) hleft with
    | done last hfound hlast hpass =>
      refine .done last (fun s => (hskip s _).trans (hfound s)) ?_
        (fun value => by rw [hcopied, hpass])
      rwa [List.append_assoc, List.append_assoc, List.singleton_append] at hlast
    | ask last before behind done' hfound hsame hlast hlt hpass =>
      refine .ask last (c :: before) behind done' (fun s => ?_) (hsame.trans hreplacement) ?_
        (Nat.lt_succ_of_lt hlt) (fun value => by rw [hcopied, hpass, List.cons_append])
      · rw [hskip, hfound, hreplacement]
      · rwa [List.append_assoc, List.singleton_append] at hlast

theorem Reads.finish (h : Reads work name done [] out) :
    work.finish.data.toList = encodeChars out := by
  have hend : work.position = work.subject.size := by
    have hsize : work.subject.size = (encodeChars (done ++ [])).length :=
      congrArg List.length h.subject
    rw [h.position, hsize, List.append_nil]
  have hslice : (Pattern.slice work.subject work.position work.subject.size).data.toList = [] := by
    rw [hend, Pattern.slice, ByteArray.extract_same]
    rfl
  rw [Substitution.finish, ByteArray.toList_data_append, h.out, hslice, List.append_nil]

end Reads
end Substitution

/-! ## The run of a replacement -/

section Run
variable {s : State} {name value : String} {f : Value} {site : Site}

theorem Substitution.Reads.put {work : Substitution} {done rest out : List Char}
    (h : work.Reads name done rest out) (value : String) :
    ({ work with out := work.out ++ value.toUTF8 } : Substitution).Reads name done rest
      (out ++ value.toList) := by
  refine ⟨⟨h.literal.pattern, h.literal.filled, h.literal.limit, h.literal.count,
    h.literal.lastEnd⟩, h.pattern, h.subject, h.position, ?_⟩
  rw [ByteArray.toList_data_append, h.out, data_toUTF8, encodeChars_append]

/-- A replacement by a function that answers the same text each time writes one pass over the
text. -/
theorem exists_substitute {work : Substitution} {done rest out : List Char}
    (h : work.Reads name done rest out) {fid : Nat} {code : Function} {slots : List Nat}
    {chunk : String} (hf : work.replacement = .function fid code slots chunk)
    {cost : Nat} (hcall : ∀ matched, Answers cost s s (.function fid code slots chunk)
      [.str matched] (inner site) false [.ofString value]) :
    ∃ count number, count ≤ (cost + 1) * rest.length ∧ ∀ k, ∃ n,
      Becomes (fun s => substitute s work site k) s k n ∧
      Leads count n ⟨s, .give [.ofString (String.ofList (out ++ filled [(name, value)] rest)),
        number], k⟩ := by
  -- each placeholder leaves a shorter rest, however long its name is
  induction hlength : rest.length using Nat.strongRecOn generalizing work done rest out with
  | ind length ih =>
    subst hlength
    have hfuel : (encodeChars rest).length < 2 * work.subject.size + 4 := by
      have hsize : work.subject.size = (encodeChars (done ++ rest)).length :=
        congrArg List.length h.subject
      rw [hsize, encodeChars_append, List.length_append]
      omega
    cases h.found hf hfuel with
    | done after hfound hafter hpass =>
      have hfinish : after.finish =
          (String.ofList (out ++ filled [(name, value)] rest)).toUTF8 := by
        apply eq_toUTF8
        rw [hafter.finish, hpass]
      refine ⟨0, .int (Int64.ofNat after.count), Nat.zero_le _, fun k =>
        ⟨⟨s, .give [.str after.finish, .int (Int64.ofNat after.count)], k⟩,
          ⟨fun held instructions => ?_, id, rfl, rfl⟩, .refl ?_⟩⟩
      · have hdone : substitute (s.counted held instructions) work site k =
            ⟨(s.counted held instructions).chargeText after.finish,
              .give [.str after.finish, .int (Int64.ofNat after.count)], k⟩ := by
          simp only [substitute, hfound]
        exact ⟨_, _, hdone⟩
      · rw [hfinish]
        rfl
    | ask after before behind done' hfound hsame hafter hlt hpass =>
      obtain ⟨count, number, hcount, hbehind⟩ := ih behind.length hlt (hafter.put value)
        (hsame.trans hf) rfl
      refine ⟨count + 1 + cost, number, ?_, fun k => ?_⟩
      · have hmul := Nat.mul_le_mul_left (cost + 1) (Nat.succ_le_of_lt hlt)
        rw [Nat.mul_succ] at hmul
        omega
      · obtain ⟨n, hnext, hleads⟩ := hbehind k
        refine ⟨⟨s, .apply work.replacement [.str after.matched] (inner site) false,
          .substitute after site :: k⟩, .of_eq (fun held instructions => ?_) id rfl rfl, ?_⟩
        · simp only [substitute, hfound]
          rfl
        · rw [hf, hpass, ← List.append_assoc, ← List.append_assoc]
          exact (hcall _ _).trans (hnext.leads (fun _ => rfl) id hleads)

/-- Names that stand for themselves in a pattern. -/
def Literal (name : String) : Prop := ∀ c ∈ encodeChars (mark name), c ∉ Pattern.signs

def markText (name : String) : String := String.ofList (mark name)

/-- `text:gsub("{name}", f)` is one pass over the text where `f` always answers the same. -/
theorem exists_answers_gsub (hname : Literal name) (text : String) {fid : Nat} {code : Function}
    {slots : List Nat} {chunk : String} {cost : Nat}
    (hcall : ∀ matched, Answers cost s s (.function fid code slots chunk)
      [.str matched] (inner site) false [.ofString value]) :
    ∃ count number, count ≤ (cost + 1) * text.toList.length + 1 ∧
      Answers count s s (.builtin .stringGsub)
        [.ofString text, .ofString (markText name), .function fid code slots chunk] site false
        [.ofString (String.ofList (filled [(name, value)] text.toList)), number] := by
  generalize hwork : ({
    subject := text.toUTF8, pattern := (markText name).toUTF8,
    replacement := .function fid code slots chunk, limit := text.toUTF8.size + 1 } :
      Substitution) = work
  have hpattern : work.pattern.data.toList = encodeChars (mark name) := by
    rw [← hwork, markText, data_toUTF8, String.toList_ofList]
  have hreads : work.Reads name [] text.toList [] := by
    subst hwork
    refine ⟨⟨?_, ?_, rfl, Nat.le_refl _, fun _ hlast => by cases hlast⟩, hpattern,
      data_toUTF8 text, rfl, rfl⟩
    · intro c hc
      exact hname c (hpattern ▸ hc)
    · rw [hpattern, mark, encodeChars_cons]
      exact List.append_ne_nil_of_left_ne_nil (encodeChar_ne_nil _) _
  obtain ⟨count, number, hcount, hruns⟩ :=
    exists_substitute hreads (by rw [← hwork]) hcall
  refine ⟨count + 1, number, Nat.succ_le_succ hcount, fun k => ?_⟩
  obtain ⟨n, hn, hleads⟩ := hruns k
  rw [List.nil_append] at hleads
  refine hn.leads (fun s => ?_) id hleads
  rw [← hwork]
  rfl

end Run
end DiceHost.Engine
