import DiceHost.Proofs.Literal.Escapes
import DiceHost.Proofs.Literal.RoundTrip
import DiceHost.Proofs.Text.Cuts
import Mathlib.Data.List.Infix

/-! # What a literal is written as

The grammar of the texts that are read, with the escapes left open: a quoted text is made of plain
characters and escapes, and its bytes are what they denote. Whatever stands in a text that is read,
each of its quoted texts is written with the escapes that the reader takes; where no slip stands
behind a backslash, with those of Lua and JSON.
-/
namespace DiceHost.Literal
open DiceHost.Text DiceHost.Decimal

/-! ## Quoted texts -/

/-- What may stand behind a backslash, the bytes it denotes, and the text behind it. -/
abbrev Escapes := List Char → List UInt8 → List Char → Prop

/-- The characters of a quoted text with its closing quote, the bytes that they denote, and the text
behind the quote. -/
inductive Body (escape : Escapes) (closing : Char) : List Char → List UInt8 → List Char → Prop where
  | close (rest : List Char) : Body escape closing (closing :: rest) [] rest
  | plain {c : Char} {cs rest : List Char} {bytes : List UInt8} (hclosing : c ≠ closing)
    (hbreak : c ≠ '\n') (hescape : c ≠ '\\') (h : Body escape closing cs bytes rest) :
    Body escape closing (c :: cs) (encodeChar c ++ bytes) rest
  | escape {cs after rest : List Char} {bytes more : List UInt8} (hescape : escape cs bytes after)
    (h : Body escape closing after more rest) :
    Body escape closing ('\\' :: cs) (bytes ++ more) rest

/-- A quote character. -/
def IsQuote (c : Char) : Prop := c = '"' ∨ c = '\''

/-! ### What is left behind an escape -/

theorem suffix_cons_of_suffix {c : Char} {cs rest : List Char} (h : rest <:+ cs) :
    rest <:+ c :: cs := h.trans (List.suffix_cons c cs)

theorem suffix_of_cons_suffix {c : Char} {cs rest : List Char} (h : c :: rest <:+ cs) :
    rest <:+ cs := (List.suffix_cons c rest).trans h

theorem Escape.suffix {cs rest : List Char} {bytes : List UInt8} (h : Escape cs bytes rest) :
    rest <:+ cs := by
  cases h with
  | letter h rest => exact List.suffix_cons _ _
  | itself h rest => exact List.suffix_cons _ _
  | newline h => exact List.suffix_cons _ _
  | lineBreak rest => exact suffix_cons_of_suffix (List.suffix_cons _ _)
  | blanks h hends => exact suffix_cons_of_suffix (List.suffix_append _ _)
  | byte h rest => exact suffix_cons_of_suffix (List.suffix_append _ _)
  | decimal hne h hends hbyte => exact List.suffix_append _ _
  | braces hne h hc rest =>
    refine suffix_cons_of_suffix (suffix_cons_of_suffix ?_)
    exact (List.suffix_cons _ _).trans (List.suffix_append _ _)
  | unit h hc rest => exact suffix_cons_of_suffix (List.suffix_append _ _)
  | pair hhigh hlow hfirst hsecond hc rest =>
    refine suffix_cons_of_suffix (List.IsSuffix.trans ?_ (List.suffix_append _ _))
    exact suffix_cons_of_suffix (suffix_cons_of_suffix (List.suffix_append _ _))

theorem Slip.suffix {cs rest : List Char} {bytes : List UInt8} (h : Slip cs bytes rest) :
    rest <:+ cs := by
  cases h with
  | byte h rest => exact suffix_cons_of_suffix (suffix_cons_of_suffix (List.suffix_append _ _))
  | unit h hc rest => exact suffix_cons_of_suffix (suffix_cons_of_suffix (List.suffix_append _ _))
  | blanks h rest => exact suffix_cons_of_suffix (List.suffix_append _ _)
  | newline rest => exact List.suffix_cons _ _

theorem Taken.suffix {cs rest : List Char} {bytes : List UInt8} (h : Taken cs bytes rest) :
    rest <:+ cs := h.elim Slip.suffix (fun h => h.1.suffix)

/-! ### The reader of quoted texts -/

section Quoted
variable {closing : Char} {cs rest : List Char} {bytes : List UInt8}

theorem body_of_stringBody {fuel : Nat} {acc : List UInt8}
    (h : stringBody closing fuel acc cs = some (bytes, rest)) :
    ∃ more, bytes = acc.reverse ++ more ∧ Body Taken closing cs more rest := by
  induction fuel generalizing acc cs with
  | zero => cases h
  | succ fuel ih =>
    cases cs with
    | nil => cases h
    | cons c cs =>
      unfold stringBody at h
      split at h
      · next hc =>
        cases beq_iff_eq.mp hc
        cases h
        exact ⟨[], by simp, .close rest⟩
      · next hclosing =>
        split at h
        · cases h
        · next hbreak =>
          split at h
          · next hescape =>
            cases beq_iff_eq.mp hescape
            split at h
            · next denoted after hread =>
              obtain ⟨more, rfl, hbody⟩ := ih h
              exact ⟨denoted ++ more, by simp, .escape (escaped_eq_some.mp hread) hbody⟩
            · cases h
          · next hescape =>
            obtain ⟨more, rfl, hbody⟩ := ih h
            exact ⟨encodeChar c ++ more, by simp, .plain (by simpa using hclosing)
              (by simpa using hbreak) (by simpa using hescape) hbody⟩

theorem body_of_string {limit : Nat} {s : String} (h : string limit closing cs = some (s, rest)) :
    Body Taken closing cs (encodeChars s.toList) rest := by
  unfold string at h
  split at h
  · next bytes after hread =>
    obtain ⟨s', htext, heq⟩ := Option.map_eq_some_iff.mp h
    cases heq
    obtain ⟨more, hbytes, hbody⟩ := body_of_stringBody hread
    rw [List.reverse_nil, List.nil_append] at hbytes
    rwa [← ofBytes?_eq_some.mp htext, hbytes]
  · cases h

variable (hquote : IsQuote closing)
include hquote

theorem stringBody_of_body (h : Body Taken closing cs bytes rest) {fuel : Nat}
    (hfuel : cs.length < fuel) (acc : List UInt8) :
    stringBody closing fuel acc cs = some (acc.reverse ++ bytes, rest) := by
  have hquotes : closing ≠ '\\' := by rcases hquote with rfl | rfl <;> decide
  induction h generalizing fuel acc with
  | close rest =>
    obtain ⟨fuel, rfl⟩ := Nat.exists_eq_succ_of_ne_zero (Nat.ne_of_gt (Nat.zero_lt_of_lt hfuel))
    simp [stringBody]
  | plain hclosing hbreak hescape h ih =>
    obtain ⟨fuel, rfl⟩ := Nat.exists_eq_succ_of_ne_zero (Nat.ne_of_gt (Nat.zero_lt_of_lt hfuel))
    have hread := ih (Nat.lt_of_succ_lt_succ hfuel)
    simp [stringBody, hclosing, hbreak, hescape, hread]
  | escape hescape h ih =>
    obtain ⟨fuel, rfl⟩ := Nat.exists_eq_succ_of_ne_zero (Nat.ne_of_gt (Nat.zero_lt_of_lt hfuel))
    have hread := ih (Nat.lt_of_le_of_lt hescape.suffix.length_le (Nat.lt_of_succ_lt_succ hfuel))
    simp [stringBody, hquotes.symm, escaped_eq_some.mpr hescape, hread]

/-- A quoted text is read exactly where it is written with the escapes that are taken, and the text
has the bytes that they denote. -/
theorem string_eq_some {limit : Nat} (hlimit : cs.length < limit) {s : String} :
    string limit closing cs = some (s, rest) ↔
      Body Taken closing cs (encodeChars s.toList) rest := by
  refine ⟨body_of_string, fun h => ?_⟩
  unfold string
  rw [stringBody_of_body hquote h hlimit]
  simp [ofBytes?_eq_some.mpr rfl]

end Quoted

theorem Body.suffix {closing : Char} {cs rest : List Char} {bytes : List UInt8}
    (h : Body Taken closing cs bytes rest) : rest <:+ cs := by
  induction h with
  | close rest => exact List.suffix_cons _ _
  | plain _ _ _ _ ih => exact suffix_cons_of_suffix ih
  | escape hescape _ ih => exact suffix_cons_of_suffix (ih.trans hescape.suffix)

/-! ## Values -/

/-- The items of a table after entries that have a key or none. -/
def addItems (items : Items) (entries : List (Option String × Json)) : Items :=
  entries.foldl (fun items entry => addItem items entry.1 entry.2) items

/-- What binds a quoted key, and the text behind it. -/
inductive Binds : List Char → List Char → Prop where
  | both (rest : List Char) : Binds (':' :: '=' :: rest) rest
  | colon (rest : List Char) : Binds (':' :: rest) rest
  | equals {cs rest : List Char} (h : equals? cs = some rest) : Binds cs rest

mutual
/-- A value is written like this, and this text is behind it. -/
inductive IsValue (escape : Escapes) : List Char → Json → List Char → Prop where
  | quoted {cs body rest : List Char} {closing : Char} {s : String}
    (hskip : skip cs = closing :: body) (hquote : IsQuote closing)
    (h : Body escape closing body (encodeChars s.toList) rest) : IsValue escape cs (.str s) rest
  | long {cs after rest : List Char} {s : String} (hskip : skip cs = '[' :: after)
    (hopens : opensLong after = true) (h : longString after = some (s, rest)) :
    IsValue escape cs (.str s) rest
  | number {cs rest : List Char} {v : Json} (h : number (skip cs) = some (v, rest)) :
    IsValue escape cs v rest
  | word {cs rest : List Char} {v : Json} (h : wordValue (skip cs) = some (v, rest)) :
    IsValue escape cs v rest
  | table {cs after rest : List Char} {entries : List (Option String × Json)}
    (hskip : skip cs = '{' :: after) (h : AreEntries escape after entries rest) :
    IsValue escape cs (tableValue (addItems ([], []) entries)) rest
  | list {cs after rest : List Char} {items : List Json} (hskip : skip cs = '[' :: after)
    (hopens : opensLong after = false) (h : AreItems escape after items rest) :
    IsValue escape cs (.arr items) rest

/-- The key in front of an item, which may be missing. -/
inductive IsKey (escape : Escapes) : List Char → Option String → List Char → Prop where
  | bracketed {after inner outer rest : List Char} {k : Json} {name : String}
    (hopens : opensLong after = false) (h : IsValue escape after k inner)
    (hclose : skip inner = ']' :: outer) (hequals : skip outer = '=' :: rest)
    (hname : keyText k = some name) : IsKey escape ('[' :: after) (some name) rest
  | quoted {body after rest : List Char} {closing : Char} {s : String} (hquote : IsQuote closing)
    (h : Body escape closing body (encodeChars s.toList) after) (hbinds : Binds (skip after) rest) :
    IsKey escape (closing :: body) (some s) rest
  | name {c : Char} {cs rest : List Char} (hc : isNameStart c = true)
    (hequals : equals? (skip ((c :: cs).dropWhile isNameChar)) = some rest) :
    IsKey escape (c :: cs) (some (String.ofList ((c :: cs).takeWhile isNameChar))) rest
  | none (cs : List Char) : IsKey escape cs none cs

/-- The items of a table with their keys, up to its closing brace. -/
inductive AreEntries (escape : Escapes) :
    List Char → List (Option String × Json) → List Char → Prop where
  | close {cs rest : List Char} (hclose : skip cs = '}' :: rest) : AreEntries escape cs [] rest
  | last {cs inner after rest : List Char} {k : Option String} {v : Json}
    (hkey : IsKey escape (skip cs) k inner) (hvalue : IsValue escape inner v after)
    (hclose : skip after = '}' :: rest) : AreEntries escape cs [(k, v)] rest
  | next {cs inner after tail rest : List Char} {k : Option String} {v : Json} {separator : Char}
    {entries : List (Option String × Json)} (hkey : IsKey escape (skip cs) k inner)
    (hvalue : IsValue escape inner v after) (hseparator : separator = ',' ∨ separator = ';')
    (hnext : skip after = separator :: tail) (h : AreEntries escape tail entries rest) :
    AreEntries escape cs ((k, v) :: entries) rest

/-- The items of a list, up to its closing bracket. -/
inductive AreItems (escape : Escapes) : List Char → List Json → List Char → Prop where
  | close {cs rest : List Char} (hclose : skip cs = ']' :: rest) : AreItems escape cs [] rest
  | last {cs after rest : List Char} {v : Json} (hvalue : IsValue escape (skip cs) v after)
    (hclose : skip after = ']' :: rest) : AreItems escape cs [v] rest
  | next {cs after tail rest : List Char} {v : Json} {items : List Json}
    (hvalue : IsValue escape (skip cs) v after) (hnext : skip after = ',' :: tail)
    (h : AreItems escape tail items rest) : AreItems escape cs (v :: items) rest
end

/-! ## What is left behind a leaf -/

section Left
variable {cs rest : List Char}

theorem skipFrom_suffix (comment : Bool) (cs : List Char) : skipFrom comment cs <:+ cs := by
  induction cs generalizing comment with
  | nil => exact List.suffix_refl _
  | cons c cs ih =>
    have hnext (comment : Bool) : skipFrom comment cs <:+ c :: cs :=
      suffix_cons_of_suffix (ih comment)
    unfold skipFrom
    split
    · exact hnext _
    · split
      · exact hnext _
      · split
        · exact hnext _
        · exact List.suffix_refl _

theorem skip_suffix (cs : List Char) : skip cs <:+ cs := skipFrom_suffix false cs

/-- What is behind the first character that is not skipped. -/
theorem suffix_of_skip {c : Char} {text : List Char} (h : skip cs = c :: rest)
    (hcs : cs <:+ text) : rest <:+ text :=
  suffix_of_cons_suffix (h ▸ (skip_suffix cs).trans hcs)

theorem word?_suffix {word : List Char} (h : word? word cs = some rest) : rest <:+ cs := by
  unfold word? at h
  split at h
  · next after hstrip =>
    split at h
    · cases h
    · cases h
      rw [stripPrefixChars_eq_some.mp hstrip]
      exact List.suffix_append _ _
  · cases h

theorem wordValue_suffix {v : Json} (h : wordValue cs = some (v, rest)) : rest <:+ cs := by
  unfold wordValue at h
  split at h
  · next hword =>
    cases h
    exact word?_suffix hword
  · split at h
    · next hword =>
      cases h
      exact word?_suffix hword
    · split at h
      · next hword =>
        cases h
        exact word?_suffix hword
      · obtain ⟨after, hword, heq⟩ := Option.map_eq_some_iff.mp h
        cases heq
        exact word?_suffix hword

theorem untilText_suffix {closing acc : List Char} {s : String}
    (h : untilText closing acc cs = some (s, rest)) : rest <:+ cs := by
  induction cs generalizing acc with
  | nil => cases h
  | cons c cs ih =>
    unfold untilText at h
    split at h
    · next after hstrip =>
      cases h
      rw [stripPrefixChars_eq_some.mp hstrip]
      exact List.suffix_append _ _
    · exact suffix_cons_of_suffix (ih h)

theorem longString_suffix {s : String} (h : longString cs = some (s, rest)) : rest <:+ cs := by
  have hspan := List.dropWhile_suffix (l := cs) (· == '=')
  unfold longString at h
  rw [List.span_eq_takeWhile_dropWhile] at h
  dsimp only at h
  split at h
  · next after hafter =>
    rw [hafter] at hspan
    have hbehind : after <:+ cs := suffix_of_cons_suffix hspan
    refine (untilText_suffix h).trans ?_
    -- the line break behind the opening brackets may have two characters
    split
    · next tail hbreak =>
      split at hbreak
      · exact suffix_of_cons_suffix (suffix_of_cons_suffix (hbreak ▸ hbehind))
      · exact suffix_of_cons_suffix (hbreak ▸ hbehind)
    · split
      · exact suffix_of_cons_suffix hbehind
      · exact hbehind
  · cases h

theorem numeralBody_suffix (acc cs : List Char) : (numeralBody acc cs).2 <:+ cs := by
  induction cs generalizing acc with
  | nil => exact List.suffix_refl _
  | cons c cs ih =>
    unfold numeralBody
    dsimp only
    split
    · exact suffix_cons_of_suffix (ih _)
    · exact List.suffix_refl _

theorem unsigned_suffix {negative : Bool} {v : Json} (h : unsigned negative cs = some (v, rest)) :
    rest <:+ cs := by
  have hhex (mark : Char) (after : List Char) :
      (after.span isHexDigit).2 <:+ '0' :: mark :: after := by
    rw [List.span_eq_takeWhile_dropWhile]
    exact suffix_cons_of_suffix (suffix_cons_of_suffix (List.dropWhile_suffix _))
  unfold unsigned at h
  dsimp only at h
  split at h
  · next after =>
    split at h
    · cases h
    · cases h
      exact hhex 'x' after
  · next after =>
    split at h
    · cases h
    · cases h
      exact hhex 'X' after
  · obtain ⟨w, -, heq⟩ := Option.map_eq_some_iff.mp h
    cases heq
    exact numeralBody_suffix [] cs

theorem number_suffix {v : Json} (h : number cs = some (v, rest)) : rest <:+ cs := by
  unfold number at h
  split at h
  · exact suffix_cons_of_suffix (unsigned_suffix h)
  · exact unsigned_suffix h

theorem equals?_suffix (h : equals? cs = some rest) : rest <:+ cs := by
  unfold equals? at h
  split at h
  · split at h
    · cases h
    · cases h
      exact List.suffix_cons _ _
  · cases h

theorem Binds.suffix (h : Binds cs rest) : rest <:+ cs := by
  cases h with
  | both rest => exact suffix_cons_of_suffix (List.suffix_cons _ _)
  | colon rest => exact List.suffix_cons _ _
  | equals h => exact equals?_suffix h

end Left

/-! ## What is read -/

section Reads
variable {text : List Char} {escape : Escapes}

/-- Wherever the reader begins in the text, what it reads is written like this, and it ends in the
text. -/
def Reads {α : Type} (text : List Char) (written : List Char → α → List Char → Prop)
    (scan : Scan α) : Prop :=
  ∀ cs a rest, cs <:+ text → scan cs = some (a, rest) → written cs a rest ∧ rest <:+ text

variable (hescape : ∀ cs bytes rest, '\\' :: cs <:+ text → Taken cs bytes rest →
  escape cs bytes rest)
include hescape

theorem body_of_taken {closing : Char} {cs rest : List Char} {bytes : List UInt8}
    (h : Body Taken closing cs bytes rest) (hcs : cs <:+ text) :
    Body escape closing cs bytes rest := by
  induction h with
  | close rest => exact .close rest
  | plain hclosing hbreak hplain _ ih =>
    exact .plain hclosing hbreak hplain (ih (suffix_of_cons_suffix hcs))
  | escape htaken _ ih =>
    refine .escape (hescape _ _ _ hcs htaken) (ih ?_)
    exact htaken.suffix.trans (suffix_of_cons_suffix hcs)

theorem reads_string (limit : Nat) (closing : Char) :
    Reads text (fun cs s rest => Body escape closing cs (encodeChars s.toList) rest)
      (string limit closing) := by
  intro cs s rest hcs h
  have hbody : Body Taken closing cs (encodeChars s.toList) rest := body_of_string h
  exact ⟨body_of_taken hescape hbody hcs, hbody.suffix.trans hcs⟩

section Nested
variable {value : Scan Json} (hvalue : Reads text (IsValue escape) value)
include hvalue

theorem reads_key (limit : Nat) : Reads text (IsKey escape) (key value limit) := by
  intro cs k rest hcs h
  unfold key at h
  split at h
  · cases h
  next c tail =>
  have htail : tail <:+ text := suffix_of_cons_suffix hcs
  split at h
  · next hopens =>
    simp only [Bool.and_eq_true, beq_iff_eq, Bool.not_eq_true'] at hopens
    obtain ⟨rfl, hopens⟩ := hopens
    split at h
    · cases h
    next k' inner hread =>
    obtain ⟨hwritten, hinner⟩ := hvalue _ _ _ htail hread
    split at h
    · next outer hclose =>
      split at h
      · next after hequals =>
        obtain ⟨name, hname, heq⟩ := Option.map_eq_some_iff.mp h
        cases heq
        have houter : outer <:+ text := suffix_of_skip hclose hinner
        exact ⟨.bracketed hopens hwritten hclose hequals hname, suffix_of_skip hequals houter⟩
      · cases h
    · cases h
  · split at h
    · next hquote =>
      have hquote : IsQuote c := by simpa [IsQuote] using hquote
      split at h
      · cases h
      next s after hread =>
      obtain ⟨hbody, hafter⟩ := reads_string hescape limit c _ _ _ htail hread
      have hskipped : skip after <:+ text := (skip_suffix after).trans hafter
      have hbound {rest : List Char} (hbinds : Binds (skip after) rest) :
          IsKey escape (c :: tail) (some s) rest ∧ rest <:+ text :=
        ⟨.quoted hquote hbody hbinds, hbinds.suffix.trans hskipped⟩
      split at h
      · next hbinds =>
        cases h
        exact hbound (hbinds ▸ .both rest)
      · next hbinds =>
        cases h
        exact hbound (hbinds ▸ .colon rest)
      · split at h
        · next hequals =>
          cases h
          exact hbound (.equals hequals)
        · cases h
          exact ⟨.none _, hcs⟩
    · split at h
      · next hstart =>
        rw [List.span_eq_takeWhile_dropWhile] at h
        dsimp only at h
        split at h
        · next hequals =>
          cases h
          have hname := (List.dropWhile_suffix isNameChar).trans hcs
          exact ⟨.name hstart hequals,
            (equals?_suffix hequals).trans ((skip_suffix _).trans hname)⟩
        · cases h
          exact ⟨.none _, hcs⟩
      · cases h
        exact ⟨.none _, hcs⟩

theorem entries_of_table (limit : Nat) {fuel : Nat} {items : Items} {cs rest : List Char} {v : Json}
    (hcs : cs <:+ text) (h : table value limit fuel items cs = some (v, rest)) :
    ∃ entries, v = tableValue (addItems items entries) ∧ AreEntries escape cs entries rest ∧
      rest <:+ text := by
  induction fuel generalizing items cs with
  | zero => cases h
  | succ fuel ih =>
    have hskipped : skip cs <:+ text := (skip_suffix cs).trans hcs
    unfold table at h
    split at h
    · next hclose =>
      cases h
      exact ⟨[], rfl, .close hclose, suffix_of_skip hclose hcs⟩
    · split at h
      · cases h
      next k inner hkey =>
      obtain ⟨hkey, hinner⟩ := reads_key hescape hvalue limit _ _ _ hskipped hkey
      split at h
      · cases h
      next w after hread =>
      obtain ⟨hwritten, hafter⟩ := hvalue _ _ _ hinner hread
      dsimp only at h
      split at h
      · next tail hnext =>
        obtain ⟨entries, hv, hentries, hleft⟩ := ih (suffix_of_skip hnext hafter) h
        exact ⟨(k, w) :: entries, hv, .next hkey hwritten (Or.inl rfl) hnext hentries, hleft⟩
      · next tail hnext =>
        obtain ⟨entries, hv, hentries, hleft⟩ := ih (suffix_of_skip hnext hafter) h
        exact ⟨(k, w) :: entries, hv, .next hkey hwritten (Or.inr rfl) hnext hentries, hleft⟩
      · next hclose =>
        cases h
        exact ⟨[(k, w)], rfl, .last hkey hwritten hclose, suffix_of_skip hclose hafter⟩
      · cases h

omit hescape in
theorem items_of_list {fuel : Nat} {items : List Json} {cs rest : List Char} {v : Json}
    (hcs : cs <:+ text) (h : list value fuel items cs = some (v, rest)) :
    ∃ more, v = .arr (items.reverse ++ more) ∧ AreItems escape cs more rest ∧ rest <:+ text := by
  induction fuel generalizing items cs with
  | zero => cases h
  | succ fuel ih =>
    have hskipped : skip cs <:+ text := (skip_suffix cs).trans hcs
    unfold list at h
    split at h
    · next hclose =>
      cases h
      exact ⟨[], by simp, .close hclose, suffix_of_skip hclose hcs⟩
    · split at h
      · cases h
      next w after hread =>
      obtain ⟨hwritten, hafter⟩ := hvalue _ _ _ hskipped hread
      split at h
      · next tail hnext =>
        obtain ⟨more, rfl, hitems, hleft⟩ := ih (suffix_of_skip hnext hafter) h
        exact ⟨w :: more, by simp, .next hwritten hnext hitems, hleft⟩
      · next hclose =>
        cases h
        exact ⟨[w], by simp, .last hwritten hclose, suffix_of_skip hclose hafter⟩
      · cases h

end Nested

theorem reads_valueWith {table list : Scan Json}
    (htable : Reads text (fun cs v rest => ∃ entries,
      v = tableValue (addItems ([], []) entries) ∧ AreEntries escape cs entries rest) table)
    (hlist : Reads text (fun cs v rest => ∃ items, v = .arr items ∧ AreItems escape cs items rest)
      list) (limit : Nat) : Reads text (IsValue escape) (valueWith table list limit) := by
  intro cs v rest hcs h
  unfold valueWith at h
  split at h
  · cases h
  next c after hskip =>
  have hskipped : c :: after <:+ text := hskip ▸ (skip_suffix cs).trans hcs
  have hafter : after <:+ text := suffix_of_skip hskip hcs
  split at h
  · next hopens =>
    rw [beq_iff_eq.mp hopens] at hskip
    obtain ⟨⟨entries, rfl, hentries⟩, hleft⟩ := htable _ _ _ hafter h
    exact ⟨.table hskip hentries, hleft⟩
  · split at h
    · next hopens =>
      rw [beq_iff_eq.mp hopens] at hskip
      split at h
      · next hlong =>
        obtain ⟨⟨s, left⟩, hread, heq⟩ := Option.map_eq_some_iff.mp h
        cases heq
        exact ⟨.long hskip hlong hread, (longString_suffix hread).trans hafter⟩
      · next hlong =>
        obtain ⟨⟨items, rfl, hitems⟩, hleft⟩ := hlist _ _ _ hafter h
        exact ⟨.list hskip (by simpa using hlong) hitems, hleft⟩
    · split at h
      · next hquote =>
        have hquote : IsQuote c := by simpa [IsQuote] using hquote
        obtain ⟨⟨s, left⟩, hread, heq⟩ := Option.map_eq_some_iff.mp h
        cases heq
        obtain ⟨hbody, hleft⟩ := reads_string hescape limit c _ _ _ hafter hread
        exact ⟨.quoted hskip hquote hbody, hleft⟩
      · split at h
        · exact ⟨.number (hskip ▸ h), (number_suffix h).trans hskipped⟩
        · exact ⟨.word (hskip ▸ h), (wordValue_suffix h).trans hskipped⟩

/-- Induction on the nesting still allowed: the tables and lists of one level hold values of the
level below. -/
theorem reads_valueAt (limit depth : Nat) : Reads text (IsValue escape) (valueAt limit depth) := by
  induction depth with
  | zero =>
    have hnone {written : List Char → Json → List Char → Prop} :
        Reads text written (fun _ => none) := fun _ _ _ _ h => nomatch h
    exact reads_valueWith hescape hnone hnone limit
  | succ depth ih =>
    refine reads_valueWith hescape (fun cs v rest hcs h => ?_) (fun cs v rest hcs h => ?_) limit
    · obtain ⟨entries, hv, hentries, hleft⟩ := entries_of_table hescape ih limit hcs h
      exact ⟨⟨entries, hv, hentries⟩, hleft⟩
    · obtain ⟨items, hv, hitems, hleft⟩ := items_of_list ih hcs h
      exact ⟨⟨items, hv, hitems⟩, hleft⟩

end Reads

/-! ## Whole texts -/

/-- The text is written as this value, with nothing but blanks and comments behind it. -/
def Spells (escape : Escapes) (text : String) (v : Json) : Prop :=
  ∃ rest, IsValue escape text.toList v rest ∧ skip rest = []

theorem spells_of_decode {escape : Escapes} {text : String} {v : Json}
    (hescape : ∀ cs bytes rest, '\\' :: cs <:+ text.toList → Taken cs bytes rest →
      escape cs bytes rest) (h : decode text = some v) : Spells escape text v := by
  unfold decode decodeChars at h
  split at h
  · next v' rest hread =>
    split at h
    · next hend =>
      cases h
      exact ⟨rest, (reads_valueAt hescape _ _ _ _ _ (List.suffix_refl _) hread).1,
        List.isEmpty_iff.mp hend⟩
    · cases h
  · cases h

/-- Whether a slip may stand here, by its first characters. -/
def maySlip : List Char → Bool
  | 'x' :: '+' :: _ => true
  | 'u' :: '+' :: _ => true
  | '\n' :: '\r' :: _ => true
  | 'z' :: cs => (cs.dropWhile isAsciiBlank).head? == some '\x0b'
  | _ => false

theorem maySlip_of_slip {cs rest : List Char} {bytes : List UInt8} (h : Slip cs bytes rest) :
    maySlip cs = true := by
  cases h with
  | byte h rest => rfl
  | unit h hc rest => rfl
  | blanks h rest =>
    have htab : isAsciiBlank '\x0b' = false := by decide
    simp [maySlip, List.dropWhile_append_of_pos h, htab]
  | newline rest => rfl

theorem not_slip_of_tails {cs : List Char} (h : cs.tails.all (fun tail => match tail with
      | '\\' :: after => !maySlip after
      | _ => true) = true) {after : List Char} (hafter : '\\' :: after <:+ cs)
    (bytes : List UInt8) (rest : List Char) : ¬ Slip after bytes rest := by
  intro hslip
  have hmay := List.all_eq_true.mp h _ ((List.mem_tails _ _).mpr hafter)
  simp [maySlip_of_slip hslip] at hmay

/-- In a text that is read, every quoted text is written with escapes that are taken, and it has the
bytes they denote. So its escapes are those of Lua and JSON, unless a slip stands behind a backslash
of the text; any other escape leaves the whole text without a value. A text behind an opening quote
is read exactly where it is written so. -/
theorem decode_escapes (text : String) :
    (∀ v, decode text = some v → Spells Taken text v ∧
      ((∀ cs, '\\' :: cs <:+ text.toList → ∀ bytes rest, ¬ Slip cs bytes rest) →
        Spells Escape text v)) ∧
    ((∀ v, ¬ Spells Taken text v) → decode text = none) ∧
    ∀ closing s rest, IsQuote closing →
      (string (text.toList.length + 1) closing text.toList = some (s, rest) ↔
        Body Taken closing text.toList (encodeChars s.toList) rest) := by
  have htaken {v : Json} : decode text = some v → Spells Taken text v :=
    spells_of_decode (fun _ _ _ _ htaken => htaken)
  refine ⟨fun v h => ⟨htaken h, fun hnone => ?_⟩, fun hnone => ?_,
    fun closing s rest hquote => string_eq_some hquote (Nat.lt_succ_self _)⟩
  · refine spells_of_decode (fun cs bytes rest hcs htaken => ?_) h
    exact (htaken.resolve_left (hnone cs hcs bytes rest)).1
  · cases h : decode text with
    | none => rfl
    | some v => exact absurd (htaken h) (hnone v)

/-- Escapes of every kind, in a key and in nested values. -/
theorem decode_escapes_nested :
    let text :=
      "\x7b['\\x41\\'']=[\"\\u0042\\ud83d\\ude00\"], \"\\67\\z \n \\u\x7bE9\x7d\\n\\\n\\/\"\x7d"
    let v : Json := .obj [("1", .str "Cé\n\n/"), ("A'", .arr [.str "B😀"])]
    decode text = some v ∧ Spells Escape text v := by
  intro text v
  have h : decode text = some v := by decide +kernel
  refine ⟨h, ((decode_escapes text).1 v h).2 fun cs hcs => not_slip_of_tails ?_ hcs⟩
  decide +kernel

theorem not_escape_signed (cs : List Char) (bytes : List UInt8) (rest : List Char) :
    ¬ Escape ('x' :: '+' :: cs) bytes rest := by
  intro h
  generalize hcs : 'x' :: '+' :: cs = signed at h
  cases h with
  | letter h rest =>
    cases hcs
    simp [letterBytes] at h
  | itself h rest =>
    cases hcs
    simp at h
  | @byte ds h rest =>
    cases ds with
    | nil => cases h.length
    | cons d ds =>
      have hplus := h.digits d List.mem_cons_self
      rw [← (List.cons.inj (List.cons.inj hcs).2).1, isHexDigit_plus] at hplus
      cases hplus
  | @decimal ds rest hne h hends hbyte =>
    cases ds with
    | nil => exact hne rfl
    | cons d ds =>
      have hdigit := h d List.mem_cons_self
      rw [← (List.cons.inj hcs).1] at hdigit
      cases hdigit
  | _ => cases hcs

/-- A sign and a digit are taken for a byte, where neither Lua nor JSON has such an escape. -/
theorem decode_signed_byte : decode "\"\\x+1\"" = some (.str "\x01") ∧
    ∀ v, ¬ Spells Escape "\"\\x+1\"" v := by
  refine ⟨by decide +kernel, ?_⟩
  rintro v ⟨rest, h, -⟩
  have hopen : skip "\"\\x+1\"".toList = ['"', '\\', 'x', '+', '1', '"'] := by decide +kernel
  cases h with
  | quoted hskip hquote h =>
    obtain ⟨rfl, rfl⟩ := List.cons.inj (hopen.symm.trans hskip)
    generalize encodeChars _ = bytes at h
    cases h with
    | plain hclosing hbreak hescape h => exact hescape rfl
    | escape hescape h => exact not_escape_signed _ _ _ hescape
  | long hskip hopens h => cases hopen.symm.trans hskip
  | number h =>
    rw [hopen] at h
    cases h
  | word h =>
    rw [hopen] at h
    cases h
  | table hskip h => cases hopen.symm.trans hskip
  | list hskip hopens h => cases hopen.symm.trans hskip

end DiceHost.Literal
