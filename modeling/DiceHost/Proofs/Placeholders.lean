import DiceHost.Proofs.Render

/-! # The pass of a reply

The host goes from one opening brace to the next, and looks for the closing brace behind each of
them. What comes out is what a pass character by character comes to.
-/
namespace DiceHost
open DiceHost.Text

/-! ## From brace to brace -/

section Table
variable {table : List (String × String)}

/-- A placeholder stands where a name of the table is closed. -/
theorem placeholderAt_eq (htable : Braceless (table.map Prod.fst)) (cs : List Char) :
    placeholderAt table cs = closedName? table cs := by
  unfold closedName?
  cases hcut : cutFirst (· == '}') cs with
  | none =>
    refine placeholderAt_eq_none.mpr (fun entry _ hprefix => ?_)
    have hclose : '}' ∈ cs := hprefix.subset (by simp)
    simpa using cutFirst_eq_none hcut '}' hclose
  | some found =>
    obtain ⟨name, rest⟩ := found
    obtain ⟨hname, c, hc, rfl⟩ := cutFirst_eq_some hcut
    have hbare : '}' ∉ (String.ofList name).toList := by
      rw [String.toList_ofList]
      exact fun hmem => by simpa using hname '}' hmem
    have hclosed := placeholderAt_closed htable hbare rest
    rw [String.toList_ofList] at hclosed
    rw [beq_iff_eq.mp hc, hclosed]
    rfl

theorem renderOnto_eq (htable : Braceless (table.map Prod.fst)) {fuel : Nat} {out cs : List Char}
    (h : cs.length ≤ fuel) : renderOnto table fuel out cs = out.reverse ++ filled table cs := by
  induction fuel generalizing out cs with
  | zero =>
    rw [List.length_eq_zero_iff.mp (Nat.le_zero.mp h)]
    rfl
  | succ fuel ih =>
    unfold renderOnto
    cases hcut : cutFirst (· == '{') cs with
    | none =>
      have hopen : '{' ∉ cs := fun hmem => by simpa using cutFirst_eq_none hcut '{' hmem
      have hcopied : filled table (cs ++ []) = cs ++ filled table [] := filled_append hopen []
      rw [List.append_nil, filled_nil, List.append_nil] at hcopied
      rw [hcopied]
    | some found =>
      obtain ⟨before, after⟩ := found
      obtain ⟨hbefore, c, hc, rfl⟩ := cutFirst_eq_some hcut
      -- what stands in front of the first opening brace holds no placeholder
      have hopen : '{' ∉ before := fun hmem => by simpa using hbefore '{' hmem
      have hafter : after.length ≤ fuel := by
        rw [List.length_append, List.length_cons] at h
        omega
      rw [beq_iff_eq.mp hc, filled_append hopen]
      dsimp only
      cases hname : closedName? table after with
      | none =>
        have hcopied : filled table ('{' :: after) = '{' :: filled table after :=
          filled_char (fun _ => (placeholderAt_eq htable after).trans hname)
        rw [hcopied]
        dsimp only
        rw [ih hafter]
        simp
      | some found =>
        have hfound := (placeholderAt_eq htable after).trans hname
        rw [filled_placeholder hfound]
        dsimp only
        rw [ih ((Nat.le_of_lt (length_lt_of_placeholderAt hfound)).trans hafter)]
        simp

end Table

theorem braceless_table (values : Placeholders) : Braceless (values.table.map Prod.fst) := by
  have hnames : values.table.map Prod.fst = ["self", "nick", "uid", "gid", "card", "pc"] := rfl
  rw [hnames]
  unfold Braceless
  decide

theorem render_eq_filled (values : Placeholders) (text : String) :
    render values text = String.ofList (filled values.table text.toList) := by
  rw [render, renderOnto_eq (braceless_table values) (Nat.le_refl _)]
  rfl

/-! ## Character by character -/

/-- A pass over a text: where the rest of the text begins with a placeholder, its value comes out
and the pass goes on behind it, and elsewhere one character is copied. -/
inductive Scans (table : List (String × String)) : List Char → List Char → Prop where
  | done : Scans table [] []
  | replaced {name value : String} {rest out : List Char} (hentry : (name, value) ∈ table)
      (hrest : Scans table rest out) : Scans table (mark name ++ rest) (value.toList ++ out)
  | copied {c : Char} {rest out : List Char}
      (hfree : ∀ entry ∈ table, ¬ mark entry.1 <+: c :: rest) (hrest : Scans table rest out) :
      Scans table (c :: rest) (c :: out)

section Table
variable {table : List (String × String)}

theorem not_mark_iff {c : Char} {rest : List Char} :
    (∀ entry ∈ table, ¬ mark entry.1 <+: c :: rest) ↔
      (c = '{' → placeholderAt table rest = none) := by
  simp only [placeholderAt_eq_none, mark, List.cons_prefix_cons, not_and]
  exact ⟨fun h hc entry hentry => h entry hentry hc.symm,
    fun h entry hentry hc => h hc.symm entry hentry⟩

theorem filled_entry (htable : Braceless (table.map Prod.fst))
    (hnames : (table.map Prod.fst).Nodup) {name value : String} (hentry : (name, value) ∈ table)
    (rest : List Char) : filled table (mark name ++ rest) = value.toList ++ filled table rest := by
  have hname := (htable name (List.mem_map_of_mem hentry)).2
  have hfind : KeyTable.find? table name = some value :=
    KeyTable.find?_eq_some_of_nodup hnames hentry
  have hfound : placeholderAt table (name.toList ++ '}' :: rest) = some (value.toList, rest) := by
    rw [placeholderAt_closed htable hname, hfind]
    rfl
  rw [mark, List.cons_append, List.append_assoc, List.singleton_append, filled_placeholder hfound]

theorem scans_filled (table : List (String × String)) (cs : List Char) :
    Scans table cs (filled table cs) := by
  -- a placeholder is taken in one go, so the induction is on the length of what is left
  induction hlength : cs.length using Nat.strongRecOn generalizing cs with
  | ind length ih =>
    subst hlength
    cases cs with
    | nil => exact .done
    | cons c rest =>
      rcases ahead table c rest with ⟨rfl, value, more, hvalue⟩ | hchar
      · have hlt := length_lt_of_placeholderAt hvalue
        rw [filled_placeholder hvalue]
        obtain ⟨entry, hentry, rfl, rfl⟩ := exists_of_placeholderAt hvalue
        have hmore := Scans.replaced hentry (ih more.length (hlt.trans (Nat.lt_succ_self _)) more rfl)
        simpa [mark] using hmore
      · rw [filled_char hchar]
        exact .copied (not_mark_iff.mpr hchar) (ih rest.length (Nat.lt_succ_self _) rest rfl)

theorem eq_filled_of_scans (htable : Braceless (table.map Prod.fst))
    (hnames : (table.map Prod.fst).Nodup) {cs out : List Char} (h : Scans table cs out) :
    out = filled table cs := by
  induction h with
  | done => rfl
  | replaced hentry _ ih => rw [filled_entry htable hnames hentry, ih]
  | copied hfree _ ih => rw [filled_char (not_mark_iff.mp hfree), ih]

/-- In the first of two parts of a text a placeholder begins. -/
def BeginsIn (table : List (String × String)) (lead tail : List Char) : Prop :=
  ∃ entry ∈ table, ∃ i < lead.length, mark entry.1 <+: (lead ++ tail).drop i

instance (table : List (String × String)) (lead tail : List Char) :
    Decidable (BeginsIn table lead tail) :=
  inferInstanceAs (Decidable (∃ entry ∈ table, ∃ i < lead.length,
    mark entry.1 <+: (lead ++ tail).drop i))

/-- A part in which no placeholder begins is copied. -/
theorem filled_of_not_beginsIn {lead tail : List Char} (h : ¬ BeginsIn table lead tail) :
    filled table (lead ++ tail) = lead ++ filled table tail := by
  induction lead with
  | nil => rfl
  | cons c lead ih =>
    have hfree : ∀ entry ∈ table, ¬ mark entry.1 <+: c :: (lead ++ tail) :=
      fun entry hentry hmark => h ⟨entry, hentry, 0, Nat.succ_pos _, hmark⟩
    have hlead : ¬ BeginsIn table lead tail := by
      rintro ⟨entry, hentry, i, hi, hmark⟩
      exact h ⟨entry, hentry, i + 1, Nat.succ_lt_succ hi, hmark⟩
    rw [List.cons_append, filled_char (not_mark_iff.mp hfree), ih hlead, List.cons_append]

/-- Behind an opening brace that another one follows there is no name. -/
theorem not_mark_brace {name : String} (h : '{' ∉ name.toList) (rest : List Char) :
    ¬ mark name <+: '{' :: '{' :: rest := by
  intro hmark
  have hname := (List.cons_prefix_cons.mp hmark).2
  cases hchars : name.toList with
  | nil =>
    rw [hchars] at hname
    exact absurd (List.cons_prefix_cons.mp hname).1 (by decide)
  | cons d more =>
    rw [hchars] at hname h
    exact h ((List.cons_prefix_cons.mp hname).1 ▸ List.mem_cons_self)

/-- No placeholder begins with a stray brace in front of another opening brace. -/
theorem not_beginsIn_strays (htable : Braceless (table.map Prod.fst)) (count : Nat)
    (rest : List Char) : ¬ BeginsIn table (List.replicate count '{') ('{' :: rest) := by
  rintro ⟨entry, hentry, i, hi, hmark⟩
  rw [List.length_replicate] at hi
  obtain ⟨left, rfl⟩ := Nat.exists_eq_add_of_lt hi
  have hdrop : (List.replicate (i + left + 1) '{' ++ '{' :: rest).drop i =
      '{' :: (List.replicate left '{' ++ '{' :: rest) := by
    rw [List.drop_append_of_le_length (by simp; omega), List.drop_replicate,
      show i + left + 1 - i = left + 1 by omega, List.replicate_succ, List.cons_append]
  obtain ⟨more, hmore⟩ : ∃ more, List.replicate left '{' ++ '{' :: rest = '{' :: more := by
    cases left with
    | zero => exact ⟨rest, rfl⟩
    | succ left => exact ⟨_, rfl⟩
  rw [hdrop, hmore] at hmark
  exact not_mark_brace (htable entry.1 (List.mem_map_of_mem hentry)).1 more hmark

end Table

theorem nodup_table (values : Placeholders) : (values.table.map Prod.fst).Nodup := by
  have hnames : values.table.map Prod.fst = ["self", "nick", "uid", "gid", "card", "pc"] := rfl
  rw [hnames]
  decide

/-- A reply is what a pass character by character makes of the text. So a part in which no
placeholder begins comes through unchanged, and a placeholder is replaced also behind stray opening
braces, by a value that is not looked at again. -/
theorem render_scans (values : Placeholders) (text : String) :
    (∀ out, Scans values.table text.toList out ↔ out = (render values text).toList) ∧
    (∀ lead tail : String, text = lead ++ tail →
      ¬ BeginsIn values.table lead.toList tail.toList →
      render values text = lead ++ render values tail) ∧
    ∀ (count : Nat) (name value rest : String), (name, value) ∈ values.table →
      text = String.ofList (List.replicate count '{' ++ mark name) ++ rest →
      render values text =
        String.ofList (List.replicate count '{') ++ value ++ render values rest := by
  have htable := braceless_table values
  refine ⟨fun out => ?_, fun lead tail htext hbegins => ?_, fun count name value rest hentry htext => ?_⟩
  · rw [render_eq_filled, String.toList_ofList]
    refine ⟨eq_filled_of_scans htable (nodup_table values), ?_⟩
    rintro rfl
    exact scans_filled values.table text.toList
  · rw [render_eq_filled, render_eq_filled, htext, String.toList_append,
      filled_of_not_beginsIn hbegins, String.ofList_append, String.ofList_toList]
  · have hstrays := not_beginsIn_strays htable count (name.toList ++ ['}'] ++ rest.toList)
    rw [render_eq_filled, render_eq_filled, htext, String.toList_append, String.toList_ofList,
      List.append_assoc, mark, List.cons_append, filled_of_not_beginsIn hstrays, ← List.cons_append,
      ← mark, filled_entry htable (nodup_table values) hentry, String.ofList_append,
      String.ofList_append, String.ofList_toList, String.append_assoc]

/-- Values that are placeholders themselves are put in as they are, and braces that are unknown or
left open stay. -/
theorem render_scans_braces :
    let values : Placeholders := ⟨"{uid}", "u1", "g1", "{pc}", "宠"⟩
    let rest := "\x7d-{hp}\x7bcard{x}\x7bgid"
    ¬ BeginsIn values.table rest.toList [] ∧
      render values ("\x7b\x7b{nick}" ++ rest) = "\x7b\x7b{uid}" ++ rest := by
  intro values rest
  have hbegins : ¬ BeginsIn values.table rest.toList [] := by decide +kernel
  have hstrays := (render_scans values ("\x7b\x7b{nick}" ++ rest)).2.2 2 "nick" "{uid}" rest
    (by decide) (by decide +kernel)
  have hrest := (render_scans values rest).2.1 rest "" (by simp) hbegins
  refine ⟨hbegins, ?_⟩
  rw [hstrays, hrest]
  decide +kernel

end DiceHost
