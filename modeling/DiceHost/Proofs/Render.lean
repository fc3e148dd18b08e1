import Mathlib.Data.List.Infix
import DiceHost.Proofs.KeyTable
import DiceHost.Proofs.Text.Cuts
import DiceHost.Render

/-! # Passes over a text

A pass replaces the placeholders of its table, from left to right, and does not look at what it
has put in. A later pass does. Two passes come to one where nothing that is put in has an opening
brace, and where no placeholder stands right after the beginning of another one.
-/
namespace DiceHost
open DiceHost.Text

/-! ## One pass -/

/-- The value of the placeholder that starts after an opening brace, and the text after its
closing brace. -/
def placeholderAt (table : List (String × String)) (cs : List Char) :
    Option (List Char × List Char) :=
  table.findSome? (fun (name, value) =>
    (stripPrefixChars (name.toList ++ ['}']) cs).map (fun rest => (value.toList, rest)))

/-- Go over a text character by character, onto a reversed list; `fuel` bounds the number of
characters. -/
def passOnto (table : List (String × String)) : Nat → List Char → List Char → List Char
  | 0, out, _ => out.reverse
  | _ + 1, out, [] => out.reverse
  | fuel + 1, out, c :: rest =>
    if c == '{' then
      match placeholderAt table rest with
      | some (value, rest) => passOnto table fuel (value.reverse ++ out) rest
      | none => passOnto table fuel (c :: out) rest
    else passOnto table fuel (c :: out) rest

/-- A text after one pass. -/
def filled (table : List (String × String)) (cs : List Char) : List Char :=
  passOnto table cs.length [] cs

theorem exists_of_placeholderAt {table : List (String × String)} {cs value rest : List Char}
    (h : placeholderAt table cs = some (value, rest)) :
    ∃ entry ∈ table, value = entry.2.toList ∧ cs = entry.1.toList ++ '}' :: rest := by
  obtain ⟨entry, hentry, hfound⟩ := List.exists_of_findSome?_eq_some h
  obtain ⟨found, hstrip, hpair⟩ := Option.map_eq_some_iff.mp hfound
  cases hpair
  have hcs := stripPrefixChars_eq_some.mp hstrip
  rw [List.append_assoc, List.singleton_append] at hcs
  exact ⟨entry, hentry, rfl, hcs⟩

theorem placeholderAt_eq_none {table : List (String × String)} {cs : List Char} :
    placeholderAt table cs = none ↔ ∀ entry ∈ table, ¬ entry.1.toList ++ ['}'] <+: cs := by
  unfold placeholderAt
  rw [List.findSome?_eq_none_iff]
  refine forall₂_congr (fun entry _ => ?_)
  rw [Option.map_eq_none_iff, Option.eq_none_iff_forall_ne_some]
  exact ⟨fun h ⟨rest, hrest⟩ => h rest (stripPrefixChars_eq_some.mpr hrest.symm),
    fun h rest hrest => h ⟨rest, (stripPrefixChars_eq_some.mp hrest).symm⟩⟩

theorem length_lt_of_placeholderAt {table : List (String × String)} {cs value rest : List Char}
    (h : placeholderAt table cs = some (value, rest)) : rest.length < cs.length := by
  obtain ⟨entry, -, -, rfl⟩ := exists_of_placeholderAt h
  simp only [List.length_append, List.length_cons]
  omega

theorem passOnto_placeholder {table : List (String × String)} {rest value more : List Char}
    (h : placeholderAt table rest = some (value, more)) (fuel : Nat) (out : List Char) :
    passOnto table (fuel + 1) out ('{' :: rest) =
      passOnto table fuel (value.reverse ++ out) more := by
  simp only [passOnto, beq_self_eq_true, if_true, h]

theorem passOnto_char {table : List (String × String)} {c : Char} {rest : List Char}
    (h : c = '{' → placeholderAt table rest = none) (fuel : Nat) (out : List Char) :
    passOnto table (fuel + 1) out (c :: rest) = passOnto table fuel (c :: out) rest := by
  rw [passOnto]
  split
  · next hc => rw [h (beq_iff_eq.mp hc)]
  · rfl

/-- What is ahead of a text: a placeholder of the table, or a character that is copied. -/
theorem ahead (table : List (String × String)) (c : Char) (rest : List Char) :
    (c = '{' ∧ ∃ value more, placeholderAt table rest = some (value, more)) ∨
      (c = '{' → placeholderAt table rest = none) := by
  cases h : placeholderAt table rest with
  | none => exact Or.inr (fun _ => rfl)
  | some found =>
    by_cases hc : c = '{'
    · exact Or.inl ⟨hc, found.1, found.2, rfl⟩
    · exact Or.inr (fun hopen => absurd hopen hc)

theorem passOnto_eq (table : List (String × String)) {fuel : Nat} {out cs : List Char}
    (h : cs.length ≤ fuel) : passOnto table fuel out cs = out.reverse ++ filled table cs := by
  induction fuel using Nat.strongRecOn generalizing out cs with
  | ind fuel ih =>
    cases cs with
    | nil => cases fuel <;> simp [passOnto, filled]
    | cons c rest =>
      obtain ⟨fuel, rfl⟩ := Nat.exists_eq_add_one_of_ne_zero (Nat.ne_of_gt (Nat.lt_of_lt_of_le
        (Nat.succ_pos rest.length) h))
      have hrest : rest.length ≤ fuel := Nat.le_of_succ_le_succ h
      have hlt : rest.length < fuel + 1 := Nat.lt_succ_of_le hrest
      rw [filled, List.length_cons]
      rcases ahead table c rest with ⟨rfl, value, more, hvalue⟩ | hchar
      · have hmore := Nat.le_of_lt (length_lt_of_placeholderAt hvalue)
        rw [passOnto_placeholder hvalue, passOnto_placeholder hvalue,
          ih fuel (Nat.lt_succ_self _) (hmore.trans hrest), ih rest.length hlt hmore]
        simp
      · rw [passOnto_char hchar, passOnto_char hchar, ih fuel (Nat.lt_succ_self _) hrest,
          ih rest.length hlt (Nat.le_refl _)]
        simp

theorem filled_nil (table : List (String × String)) : filled table [] = [] := rfl

theorem filled_placeholder {table : List (String × String)} {rest value more : List Char}
    (h : placeholderAt table rest = some (value, more)) :
    filled table ('{' :: rest) = value ++ filled table more := by
  rw [filled, List.length_cons, passOnto_placeholder h,
    passOnto_eq table (Nat.le_of_lt (length_lt_of_placeholderAt h))]
  simp

theorem filled_char {table : List (String × String)} {c : Char} {rest : List Char}
    (h : c = '{' → placeholderAt table rest = none) :
    filled table (c :: rest) = c :: filled table rest := by
  rw [filled, List.length_cons, passOnto_char h, passOnto_eq table (Nat.le_refl _)]
  rfl

/-- What has no opening brace is copied. -/
theorem filled_append {table : List (String × String)} {lead : List Char} (h : '{' ∉ lead)
    (rest : List Char) : filled table (lead ++ rest) = lead ++ filled table rest := by
  induction lead with
  | nil => rfl
  | cons c lead ih =>
    have hc : c ≠ '{' := fun hopen => h (hopen ▸ List.mem_cons_self)
    rw [List.cons_append, filled_char (fun hopen => absurd hopen hc),
      ih (fun hopen => h (List.mem_cons_of_mem _ hopen)), List.cons_append]

/-! ## Names without braces -/

/-- Names that can be told apart from what stands around them. -/
def Braceless (names : List String) : Prop :=
  ∀ name ∈ names, '{' ∉ name.toList ∧ '}' ∉ name.toList

theorem takeWhile_closed {lead : List Char} (h : '}' ∉ lead) (rest : List Char) :
    (lead ++ '}' :: rest).takeWhile (· != '}') = lead := by
  have hlead : ∀ c ∈ lead, (c != '}') = true :=
    fun c hc => bne_iff_ne.mpr (fun heq => h (heq ▸ hc))
  rw [List.takeWhile_append_of_pos hlead, List.takeWhile_cons]
  simp

/-- What stands before a closing brace is known if it is a name of the table. -/
theorem placeholderAt_closed {table : List (String × String)}
    (htable : Braceless (table.map Prod.fst)) {name : String} (hname : '}' ∉ name.toList)
    (rest : List Char) :
    placeholderAt table (name.toList ++ '}' :: rest) =
      (KeyTable.find? table name).map (fun value => (value.toList, rest)) := by
  induction table with
  | nil => rfl
  | cons entry table ih =>
    obtain ⟨first, value⟩ := entry
    obtain ⟨⟨-, hentry⟩, htable⟩ := List.forall_mem_cons.mp htable
    have hfirst : stripPrefixChars (first.toList ++ ['}']) (name.toList ++ '}' :: rest) =
        if name = first then some rest else none := by
      split
      · next heq =>
        rw [heq]
        exact stripPrefixChars_eq_some.mpr (by simp)
      · next hne =>
        refine Option.eq_none_iff_forall_ne_some.mpr (fun more hmore => hne ?_)
        have hcut := stripPrefixChars_eq_some.mp hmore
        rw [List.append_assoc, List.singleton_append] at hcut
        have hnames := congrArg (List.takeWhile (· != '}')) hcut
        rw [takeWhile_closed hname, takeWhile_closed hentry] at hnames
        exact String.toList_inj.mp hnames
    simp only [placeholderAt, List.findSome?_cons, hfirst, KeyTable.find?_cons]
    by_cases heq : name = first
    · simp only [if_pos heq, Option.map_some]
    · simp only [if_neg heq, Option.map_none]
      exact ih htable

/-! ## Two passes -/

/-- A placeholder. -/
def mark (name : String) : List Char := '{' :: (name.toList ++ ['}'])

/-- No placeholder of this name stands right after an opening brace and the beginning of one of
these names. -/
def Apart (names : List String) (name : String) (cs : List Char) : Prop :=
  ∀ other ∈ names, ∀ part, part <+: other.toList → ¬ '{' :: (part ++ mark name) <:+: cs

theorem apart_of_single {names : List String} {name : String} {cs : List Char}
    (h : cs.count '{' ≤ 1) : Apart names name cs := by
  intro other _ part _ hmark
  have hcount := hmark.sublist.count_le '{'
  rw [mark, List.count_cons_self, List.count_append, List.count_cons_self] at hcount
  omega

theorem Apart.tail {names : List String} {name : String} (lead : List Char) {rest : List Char}
    (h : Apart names name (lead ++ rest)) : Apart names name rest :=
  fun other hother part hpart hmark =>
    h other hother part hpart (hmark.trans (List.suffix_append lead rest).isInfix)

/-- After an opening brace no placeholder follows the beginning of a name. -/
theorem Apart.not_prefix {names : List String} {name other : String} {rest part : List Char}
    (h : Apart names name ('{' :: rest)) (hother : other ∈ names) (hpart : part <+: other.toList) :
    ¬ part ++ mark name <+: rest :=
  fun hmark => h other hother part hpart
    (List.IsPrefix.isInfix (List.cons_prefix_cons.mpr ⟨rfl, hmark⟩))

section Pass
variable {name value : String}

theorem filled_mark (rest : List Char) :
    filled [(name, value)] (mark name ++ rest) = value.toList ++ filled [(name, value)] rest := by
  have hfound : placeholderAt [(name, value)] (name.toList ++ '}' :: rest) =
      some (value.toList, rest) := by
    have hstrip : stripPrefixChars (name.toList ++ ['}']) (name.toList ++ '}' :: rest) =
        some rest := stripPrefixChars_eq_some.mpr (by simp)
    simp only [placeholderAt, List.findSome?_cons, hstrip, Option.map_some]
  rw [mark, List.cons_append, List.append_assoc, List.singleton_append, filled_placeholder hfound]

theorem filled_of_not_mark {c : Char} {rest : List Char} (h : ¬ mark name <+: c :: rest) :
    filled [(name, value)] (c :: rest) = c :: filled [(name, value)] rest := by
  refine filled_char (fun hopen => placeholderAt_eq_none.mpr (fun entry hentry hfound => h ?_))
  rw [List.mem_singleton.mp hentry] at hfound
  exact List.cons_prefix_cons.mpr ⟨hopen.symm, hfound⟩

/-- What a filled text starts with, when no placeholder is in it, stood there before. -/
theorem exists_of_prefix {lead rest : List Char}
    (hapart : ∀ part, part <+: lead → ¬ part ++ mark name <+: rest)
    (h : lead <+: filled [(name, value)] rest) :
    ∃ more, rest = lead ++ more ∧
      filled [(name, value)] rest = lead ++ filled [(name, value)] more ∧
        ¬ mark name <+: more := by
  induction lead generalizing rest with
  | nil => exact ⟨rest, rfl, rfl, hapart [] (List.prefix_refl _)⟩
  | cons a lead ih =>
    cases rest with
    | nil => cases List.prefix_nil.mp h
    | cons c rest =>
      have hfirst : filled [(name, value)] (c :: rest) = c :: filled [(name, value)] rest :=
        filled_of_not_mark (hapart [] List.nil_prefix)
      rw [hfirst] at h ⊢
      obtain ⟨rfl, hlead⟩ := List.cons_prefix_cons.mp h
      obtain ⟨more, rfl, hfilled, hmore⟩ := ih (fun part hpart hmark =>
        hapart (a :: part) (List.cons_prefix_cons.mpr ⟨rfl, hpart⟩)
          (List.cons_prefix_cons.mpr ⟨rfl, hmark⟩)) hlead
      exact ⟨more, rfl, by rw [hfilled, List.cons_append], hmore⟩

/-- The same for what starts with a given character and goes on with one. -/
theorem exists_of_prefix_cons {lead rest : List Char} {c : Char}
    (hapart : ∀ part, part <+: lead → ¬ part ++ mark name <+: rest)
    (h : lead ++ [c] <+: filled [(name, value)] rest) :
    ∃ more, rest = lead ++ c :: more ∧
      filled [(name, value)] rest = lead ++ c :: filled [(name, value)] more := by
  obtain ⟨more, rfl, hfilled, hmore⟩ :=
    exists_of_prefix hapart ((List.prefix_append lead [c]).trans h)
  rw [hfilled] at h ⊢
  have hnext := (List.prefix_append_right_inj lead).mp h
  cases more with
  | nil => cases List.prefix_nil.mp hnext
  | cons d more =>
    rw [filled_of_not_mark hmore] at hnext ⊢
    obtain ⟨rfl, -⟩ := List.cons_prefix_cons.mp hnext
    exact ⟨more, rfl, rfl⟩

/-- A pass goes from one placeholder of its name to the next. -/
theorem pass_induction (name : String) {motive : List Char → Prop} (nil : motive [])
    (marked : ∀ rest, motive rest → motive (mark name ++ rest))
    (char : ∀ c rest, ¬ mark name <+: c :: rest → motive rest → motive (c :: rest))
    (cs : List Char) : motive cs := by
  induction hlength : cs.length using Nat.strongRecOn generalizing cs with
  | ind length ih =>
    subst hlength
    cases cs with
    | nil => exact nil
    | cons c rest =>
      by_cases hmark : mark name <+: c :: rest
      · obtain ⟨more, hmore⟩ := hmark
        have hlt : more.length < (c :: rest).length := by
          rw [← hmore, mark, List.length_append, List.length_cons]
          omega
        rw [← hmore]
        exact marked more (ih more.length hlt more rfl)
      · exact char c rest hmark (ih rest.length (Nat.lt_succ_self _) rest rfl)

/-- Where both tables agree on what stands behind a brace, they agree on the brace. -/
theorem filled_copied {table : List (String × String)} (htable : Braceless (table.map Prod.fst))
    {rest found more : List Char} (hfound : placeholderAt table rest = some (found, more))
    (h : filled table (filled [(name, value)] rest) = filled table rest) :
    filled table ('{' :: filled [(name, value)] rest) = filled table ('{' :: rest) := by
  obtain ⟨entry, hentry, -, rfl⟩ := exists_of_placeholderAt hfound
  obtain ⟨hopen, hclose⟩ := htable entry.1 (List.mem_map_of_mem hentry)
  have hlead : '{' ∉ entry.1.toList ++ ['}'] := by simp [hopen]
  have hsplit (after : List Char) :
      entry.1.toList ++ '}' :: after = entry.1.toList ++ ['}'] ++ after := by simp
  have hmore : filled table (filled [(name, value)] more) = filled table more := by
    rw [hsplit, filled_append hlead, filled_append hlead, filled_append hlead] at h
    exact List.append_cancel_left h
  rw [placeholderAt_closed htable hclose] at hfound
  obtain ⟨text, htext, -⟩ := Option.map_eq_some_iff.mp hfound
  have hknown (after : List Char) : placeholderAt table (entry.1.toList ++ '}' :: after) =
      some (text.toList, after) := by
    rw [placeholderAt_closed htable hclose, htext]
    rfl
  rw [hsplit more, filled_append hlead, ← hsplit, ← hsplit, filled_placeholder (hknown _),
    filled_placeholder (hknown _), hmore]

/-- A pass with a value that has no opening brace, before a pass with a table that knows the
name, adds nothing to it. -/
theorem filled_filled {table : List (String × String)} (htable : Braceless (table.map Prod.fst))
    (hname : '}' ∉ name.toList) (hfind : KeyTable.find? table name = some value)
    (hvalue : '{' ∉ value.toList) {cs : List Char}
    (hapart : Apart (table.map Prod.fst) name cs) :
    filled table (filled [(name, value)] cs) = filled table cs := by
  induction cs using pass_induction name with
  | nil => rfl
  | marked rest ih =>
    have hfound : placeholderAt table (name.toList ++ '}' :: rest) =
        some (value.toList, rest) := by
      rw [placeholderAt_closed htable hname, hfind]
      rfl
    rw [filled_mark, filled_append hvalue, ih (hapart.tail _), mark, List.cons_append,
      List.append_assoc, List.singleton_append, filled_placeholder hfound]
  | char c rest hmark ih =>
    have hrest := ih (Apart.tail [c] hapart)
    rw [filled_of_not_mark hmark]
    rcases ahead table c rest with ⟨rfl, found, more, hfound⟩ | hchar
    · exact filled_copied htable hfound hrest
    · have hstill : c = '{' → placeholderAt table (filled [(name, value)] rest) = none := by
        rintro rfl
        refine placeholderAt_eq_none.mpr (fun entry hentry hprefix => ?_)
        obtain ⟨more, rfl, -⟩ := exists_of_prefix_cons (fun part hpart =>
          hapart.not_prefix (List.mem_map_of_mem hentry) hpart) hprefix
        exact placeholderAt_eq_none.mp (hchar rfl) entry hentry ⟨more, by simp⟩
      rw [filled_char hchar, filled_char hstill, hrest]

theorem infix_of_append {lead tail rest : List Char} {c : Char} (hc : c ∉ lead)
    (h : c :: tail <:+: lead ++ rest) : c :: tail <:+: rest := by
  induction lead with
  | nil => exact h
  | cons d lead ih =>
    rcases List.infix_cons_iff.mp h with hprefix | hinfix
    · exact absurd ((List.cons_prefix_cons.mp hprefix).1 ▸ List.mem_cons_self) hc
    · exact ih (fun hmem => hc (List.mem_cons_of_mem _ hmem)) hinfix

/-- What was put in gives no new beginning of a placeholder. -/
theorem Apart.filled {names : List String} {other : String} (hother : other ∈ names)
    (hvalue : '{' ∉ value.toList) {cs : List Char}
    (hapart : Apart names name cs) (h : Apart names other cs) :
    Apart names other (filled [(name, value)] cs) := by
  induction cs using pass_induction name with
  | nil => exact h
  | marked rest ih =>
    intro third hthird part hpart hinfix
    rw [filled_mark] at hinfix
    exact ih (hapart.tail _) (h.tail _) third hthird part hpart (infix_of_append hvalue hinfix)
  | char c rest hmark ih =>
    intro third hthird part hpart hinfix
    rw [filled_of_not_mark hmark] at hinfix
    rcases List.infix_cons_iff.mp hinfix with hprefix | hrest
    · -- the brace was there before, and so was all that follows it
      obtain ⟨rfl, hbehind⟩ := List.cons_prefix_cons.mp hprefix
      obtain ⟨more, rfl, hfilled⟩ := exists_of_prefix_cons (c := '{') (fun first hfirst =>
        hapart.not_prefix hthird (hfirst.trans hpart))
        (List.IsPrefix.trans ⟨other.toList ++ ['}'], by simp [mark]⟩ hbehind)
      rw [hfilled] at hbehind
      have hname : other.toList ++ ['}'] <+: DiceHost.filled [(name, value)] more :=
        (List.cons_prefix_cons.mp ((List.prefix_append_right_inj part).mp hbehind)).2
      have hapart' : Apart names name ('{' :: more) :=
        Apart.tail ('{' :: part) (by simpa using hapart)
      obtain ⟨last, rfl, -⟩ := exists_of_prefix_cons (fun first hfirst =>
        hapart'.not_prefix hother hfirst) hname
      exact h.not_prefix hthird hpart ⟨last, by simp [mark]⟩
    · exact ih (Apart.tail [c] hapart) (Apart.tail [c] h) third hthird part
        hpart hrest

end Pass

end DiceHost
