import DiceHost.Proofs.Template.Defaults
import DiceHost.Proofs.Template.Registry
import DiceHost.Proofs.Text.Words

/-! # Fields of a template that was read

The reader of a template keeps a field that is open, the pieces of its body and the fields that are
done. Elements may be nested, left open or closed twice, and a field may be pushed while another
one is open; whatever the events are, no field without both names comes out of them, and no
formula without a language.
-/
namespace DiceHost.Plugin
open DiceHost.Text

/-! ## From events -/

/-- Read a template from the events of its markup. -/
def Template.ofEvents (events : List Xml.Event) : Except Failure Template :=
  match events.foldlM TemplateState.step {} with
  | none => .error (.template "malformed markup")
  | some s =>
    match s.name.filter (fun n => !isBlankText n) with
    | none => .error (.template "missing <model name=...>")
    | some name =>
      match repeated? name [] [] s.fields.reverse with
      | some message => .error (.template message)
      | none => .ok ⟨name, s.fields.reverse⟩

/-- What a template is depends on the events of its text only. -/
theorem parse_eq_ofEvents (text : String) : Template.parse text =
    match Xml.events text with
    | none => .error (.template "malformed markup")
    | some events => Template.ofEvents events := by
  unfold Template.parse Template.ofEvents
  cases Xml.events text with
  | none => rfl
  | some events => rfl

/-! ## One field -/

/-- Both names of the field are filled in, and a formula is a trimmed text in some language. -/
structure TemplateField.Sound (f : TemplateField) : Prop where
  display : f.display ≠ ""
  short : f.alias ≠ ""
  formula : ∀ src, f.formula = some src → f.dialect ≠ none ∧ src ≠ "" ∧ trim src = src

theorem sound_fieldOf {attributes : List (String × String)} {f : TemplateField}
    (h : fieldOf attributes = some f) : f.Sound := by
  unfold fieldOf at h
  split at h
  · next display short _ _ =>
    split at h
    · cases h
    · next hfilled =>
      cases h
      have hnames : display ≠ "" ∧ short ≠ "" := by
        simpa [String.isEmpty_iff] using hfilled
      exact ⟨hnames.1, hnames.2, fun _ hsrc => nomatch hsrc⟩
  · cases h

theorem TemplateField.Sound.closeField {f : TemplateField} (h : f.Sound) (body : List (List Char)) :
    (closeField f body).Sound := by
  unfold Plugin.closeField
  dsimp only
  split
  · next hclosed =>
    obtain ⟨hdialect, hfilled⟩ := Bool.and_eq_true_iff.mp hclosed
    refine ⟨h.display, h.short, fun src hsrc => ?_⟩
    cases hsrc
    refine ⟨Option.isSome_iff_ne_none.mp hdialect, fun hempty => ?_, ?_⟩
    · rw [String.ofList_eq_empty_iff.mp hempty] at hfilled
      cases hfilled
    · rw [trim, String.toList_ofList, trimChars_trimChars]
  · exact h

/-! ## Any events -/

/-- The field that is open and those that are done are as they should be. -/
structure TemplateState.Sound (s : TemplateState) : Prop where
  fields : ∀ f ∈ s.fields, f.Sound
  current : ∀ f, s.current = some f → f.Sound

theorem TemplateState.Sound.step {s t : TemplateState} {event : Xml.Event} (h : s.Sound)
    (hstep : s.step event = some t) : t.Sound := by
  cases event with
  | start name attributes =>
    simp only [TemplateState.step] at hstep
    split at hstep
    · obtain ⟨found, -, rfl⟩ := Option.map_eq_some_iff.mp hstep
      exact ⟨h.fields, h.current⟩
    · split at hstep
      · cases hstep
        exact ⟨h.fields, h.current⟩
      · split at hstep
        · obtain ⟨found, -, rfl⟩ := Option.map_eq_some_iff.mp hstep
          exact ⟨h.fields, fun f hf => sound_fieldOf hf⟩
        · cases hstep
          exact h
  | empty name attributes =>
    simp only [TemplateState.step] at hstep
    split at hstep
    · obtain ⟨found, -, rfl⟩ := Option.map_eq_some_iff.mp hstep
      exact ⟨h.fields, h.current⟩
    · split at hstep
      · obtain ⟨found, -, rfl⟩ := Option.map_eq_some_iff.mp hstep
        refine ⟨fun f hf => ?_, h.current⟩
        rcases List.mem_append.mp hf with hf | hf
        · exact sound_fieldOf (Option.mem_toList.mp hf)
        · exact h.fields f hf
      · cases hstep
        exact h
  | text raw =>
    simp only [TemplateState.step] at hstep
    split at hstep
    · obtain ⟨piece, -, rfl⟩ := Option.map_eq_some_iff.mp hstep
      exact ⟨h.fields, h.current⟩
    · cases hstep
      exact h
  | cdata content =>
    simp only [TemplateState.step] at hstep
    split at hstep <;> cases hstep
    · exact ⟨h.fields, h.current⟩
    · exact h
  | close name =>
    simp only [TemplateState.step] at hstep
    split at hstep
    · cases hstep
      exact ⟨h.fields, h.current⟩
    · split at hstep
      · split at hstep
        · next f hcurrent =>
          cases hstep
          exact ⟨List.forall_mem_cons.mpr ⟨(h.current f hcurrent).closeField s.body, h.fields⟩,
            fun _ hnone => nomatch hnone⟩
        · cases hstep
          exact h
      · cases hstep
        exact h

theorem TemplateState.Sound.run {events : List Xml.Event} {s t : TemplateState} (h : s.Sound)
    (hrun : events.foldlM TemplateState.step s = some t) : t.Sound := by
  induction events generalizing s with
  | nil =>
    cases hrun
    exact h
  | cons event rest ih =>
    obtain ⟨u, hstep, hrest⟩ := Option.bind_eq_some_iff.mp hrun
    exact ih (h.step hstep) hrest

/-! ## The template -/

/-- What holds of every template that is read. -/
structure Template.Sound (t : Template) : Prop where
  name : isBlankText t.name = false
  fields : ∀ f ∈ t.fields, f.Sound
  distinct : t.Distinct
  /-- an alias leads to the display name of its own field, and nothing else does -/
  aliases : ∀ short display, KeyTable.find? t.aliases short = some display ↔
    ∃ f ∈ t.fields, f.alias = short ∧ f.display = display
  /-- a display name belongs to one alias only -/
  injective : ∀ short short' display, KeyTable.find? t.aliases short = some display →
    KeyTable.find? t.aliases short' = some display → short = short'

section Aliases
variable {t : Template}

theorem Template.Distinct.find?_aliases_eq_some (ht : t.Distinct) {short display : String} :
    KeyTable.find? t.aliases short = some display ↔
      ∃ f ∈ t.fields, f.alias = short ∧ f.display = display := by
  constructor
  · intro h
    rw [find?_aliases, Template.display?, Option.map_eq_some_iff] at h
    obtain ⟨f, hfound, hdisplay⟩ := h
    have hshort := List.find?_some hfound
    exact ⟨f, List.mem_reverse.mp (List.mem_of_find?_eq_some hfound), of_decide_eq_true hshort,
      hdisplay⟩
  · rintro ⟨f, hf, rfl, rfl⟩
    rw [find?_aliases, ht.display?_eq hf]

theorem Template.Distinct.alias_unique (ht : t.Distinct) {short short' display : String}
    (h : KeyTable.find? t.aliases short = some display)
    (h' : KeyTable.find? t.aliases short' = some display) : short = short' := by
  obtain ⟨f, hf, rfl, hdisplay⟩ := ht.find?_aliases_eq_some.mp h
  obtain ⟨g, hg, rfl, hdisplay'⟩ := ht.find?_aliases_eq_some.mp h'
  have hsame : f = g := List.inj_on_of_nodup_map ht.displays hf hg (hdisplay.trans hdisplay'.symm)
  rw [hsame]

end Aliases

/-- Whatever the events are, a template that is read has a name, its fields have names of their own
and formulas only in a language, and its aliases stand for the display names one to one. -/
theorem template_of_events :
    (∀ text, Template.parse text =
      match Xml.events text with
      | none => .error (.template "malformed markup")
      | some events => Template.ofEvents events) ∧
    ∀ events t, Template.ofEvents events = .ok t → t.Sound := by
  refine ⟨parse_eq_ofEvents, fun events t h => ?_⟩
  unfold Template.ofEvents at h
  split at h
  · cases h
  · next s hrun =>
    have hsound : s.Sound :=
      TemplateState.Sound.run ⟨by simp, by simp⟩ hrun
    split at h
    · cases h
    · next name hname =>
      split at h
      · cases h
      · next hrepeated =>
        cases h
        obtain ⟨-, hdisplays, haliases⟩ := repeated?_none hrepeated
        have hdistinct : Template.Distinct ⟨name, s.fields.reverse⟩ := ⟨hdisplays, haliases⟩
        have hfilled := (Option.filter_eq_some_iff.mp hname).2
        exact ⟨by simpa using hfilled, fun f hf => hsound.fields f (List.mem_reverse.mp hf),
          hdistinct, fun _ _ => hdistinct.find?_aliases_eq_some,
          fun _ _ _ => hdistinct.alias_unique⟩

/-- A tag with a display name, an alias and a language. -/
def tagged (display short : String) : List Char :=
  ("name=\"" ++ display ++ "\" alias=\"" ++ short ++ "\" text=\"js\"").toList

/-- An element inside another one takes its place, and its end closes both; what is never closed
is no field. -/
def nestedEvents : List Xml.Event :=
  [.start "model".toList "name=\"M\"".toList, .start "property".toList [],
    .start "any".toList (tagged "A" "a"), .text "1".toList,
    .start "any".toList (tagged "B" "b"), .empty "any".toList (tagged "C" "c"),
    .text "this.c".toList, .cdata " + 2 ".toList, .close "any".toList, .close "any".toList,
    .start "any".toList "name=\"D\"".toList, .close "property".toList,
    .start "any".toList (tagged "E" "e")]

def nestedTemplate : Template :=
  ⟨"M", [⟨"C", "c", some "js", none, none⟩, ⟨"B", "b", some "js", some "this.c + 2", none⟩]⟩

theorem template_of_events_nested :
    Template.ofEvents nestedEvents = .ok nestedTemplate ∧ nestedTemplate.Sound := by
  have hread : Template.ofEvents nestedEvents = .ok nestedTemplate :=
    eq_ok_of_toOption (by decide +kernel)
  exact ⟨hread, template_of_events.2 _ _ hread⟩

end DiceHost.Plugin
