import DiceHost.Proofs.Store.Cards

/-! # Decks

A deck is what a store keeps of its cards, their attributes left out, together with the bindings.
The moves below are all that users can do to it, and every move keeps a sound deck sound: numbers
and names are used once, an owner has at most one active card, and a binding chooses a card that
is there.
-/
namespace DiceHost

/-- The cards of a store without their attributes, and the bindings. -/
structure Deck where
  last : Nat := 0
  cards : List Card := []
  bindings : List Binding := []

namespace Deck

/-- The owner has a card of this name. -/
def Has (d : Deck) (owner : Owner) (name : String) : Prop :=
  ∃ card ∈ d.cards, card.owner = owner ∧ card.name = name

structure Sound (d : Deck) : Prop where
  numbered : ∀ card ∈ d.cards, card.id ≤ d.last
  numbers : d.cards.Pairwise (fun a b => a.id ≠ b.id)
  names : d.cards.Pairwise (fun a b => ¬ a.Same b)
  active : d.cards.Pairwise (fun a b => ¬ a.Rivals b)
  bound : ∀ binding ∈ d.bindings, binding.group ≠ "" ∧ d.Has binding.owner binding.card

/-- The same deck in another order. -/
structure Alike (d e : Deck) : Prop where
  last : d.last = e.last
  cards : d.cards.Perm e.cards
  bindings : d.bindings.Perm e.bindings

theorem Alike.refl (d : Deck) : d.Alike d := ⟨rfl, List.Perm.refl _, List.Perm.refl _⟩

theorem Alike.has {d e : Deck} (h : d.Alike e) {owner : Owner} {name : String}
    (hd : d.Has owner name) : e.Has owner name := by
  obtain ⟨card, hcard, hnamed⟩ := hd
  exact ⟨card, h.cards.mem_iff.mp hcard, hnamed⟩

theorem Sound.alike {d e : Deck} (h : d.Sound) (halike : d.Alike e) : e.Sound where
  numbered card hcard := by
    rw [← halike.last]
    exact h.numbered card (halike.cards.mem_iff.mpr hcard)
  numbers := (halike.cards.pairwise_iff Ne.symm).mp h.numbers
  names := (halike.cards.pairwise_iff (fun hne hsame => hne hsame.symm)).mp h.names
  active := (halike.cards.pairwise_iff (fun hne hrivals => hne hrivals.symm)).mp h.active
  bound binding hbinding := by
    obtain ⟨hgroup, hcard⟩ := h.bound binding (halike.bindings.mem_iff.mpr hbinding)
    exact ⟨hgroup, halike.has hcard⟩

theorem sound_empty : Sound {} where
  numbered card hcard := by cases hcard
  numbers := List.Pairwise.nil
  names := List.Pairwise.nil
  active := List.Pairwise.nil
  bound binding hbinding := by cases hbinding

/-! ## Moves -/

/-- A card as it stands in a deck. -/
def bare (card : Card) : Card := { card with attributes := [] }

def create (d : Deck) (new : NewCard) : Deck :=
  { d with last := d.last + 1, cards := bare (new.numbered (d.last + 1)) :: d.cards }

def activate (d : Deck) (owner : Owner) (name : String) : Deck :=
  { d with cards := d.cards.map (fun card =>
      if card.owner = owner then { card with active := card.name = name } else card) }

def remove (d : Deck) (owner : Owner) (name : String) : Deck :=
  { d with
    cards := d.cards.filter (fun card => !card.isNamed owner name)
    bindings := d.bindings.filter (fun binding => !binding.chooses owner name) }

def unbind (d : Deck) (owner : Owner) (group : String) : Deck :=
  { d with bindings := d.bindings.filter (fun binding => !binding.isAt owner group) }

def bind (d : Deck) (binding : Binding) : Deck :=
  { d with bindings := binding :: (d.unbind binding.owner binding.group).bindings }

/-- What can be done to a deck: a new card has a free name and is active only if its owner has no
other one, and only a card that is there is bound. -/
inductive Move (d : Deck) : Deck → Prop
  | none : Move d d
  | create (new : NewCard) (hfree : ¬ d.Has new.owner new.name)
      (hfirst : new.active = true → ∀ card ∈ d.cards, card.owner ≠ new.owner) :
      Move d (d.create new)
  | activate (owner : Owner) (name : String) : Move d (d.activate owner name)
  | remove (owner : Owner) (name : String) : Move d (d.remove owner name)
  | bind (binding : Binding) (hgroup : binding.group ≠ "")
      (hcard : d.Has binding.owner binding.card) : Move d (d.bind binding)
  | unbind (owner : Owner) (group : String) : Move d (d.unbind owner group)

section Sound
variable {d : Deck} (h : d.Sound)
include h

theorem Sound.create {new : NewCard} (hfree : ¬ d.Has new.owner new.name)
    (hfirst : new.active = true → ∀ card ∈ d.cards, card.owner ≠ new.owner) :
    (d.create new).Sound where
  numbered card hcard := by
    rcases List.mem_cons.mp hcard with rfl | hcard
    · exact le_refl _
    · exact (h.numbered card hcard).trans (Nat.le_succ _)
  numbers := by
    refine List.pairwise_cons.mpr ⟨fun card hcard heq => ?_, h.numbers⟩
    have hid : d.last + 1 = card.id := heq
    have hle := h.numbered card hcard
    omega
  names := by
    refine List.pairwise_cons.mpr ⟨fun card hcard hsame => ?_, h.names⟩
    exact hfree ⟨card, hcard, hsame.1.symm, hsame.2.symm⟩
  active := by
    refine List.pairwise_cons.mpr ⟨fun card hcard hrivals => ?_, h.active⟩
    exact hfirst hrivals.2.1 card hcard hrivals.1.symm
  bound binding hbinding := by
    obtain ⟨hgroup, card, hcard, hnamed⟩ := h.bound binding hbinding
    exact ⟨hgroup, card, List.mem_cons_of_mem _ hcard, hnamed⟩

theorem Sound.activate (owner : Owner) (name : String) : (d.activate owner name).Sound := by
  have hkeep (card : Card) : ∃ active,
      (if card.owner = owner then { card with active := card.name = name } else card) =
        { card with active := active } := by
    split
    · exact ⟨_, rfl⟩
    · exact ⟨card.active, rfl⟩
  refine ⟨?_, ?_, ?_, ?_, ?_⟩
  · intro card hcard
    obtain ⟨old, hold, rfl⟩ := List.mem_map.mp hcard
    obtain ⟨active, heq⟩ := hkeep old
    rw [heq]
    exact h.numbered old hold
  · refine List.pairwise_map.mpr (h.numbers.imp ?_)
    intro a b hne
    obtain ⟨aactive, ha⟩ := hkeep a
    obtain ⟨bactive, hb⟩ := hkeep b
    rw [ha, hb]
    exact hne
  · refine List.pairwise_map.mpr (h.names.imp ?_)
    intro a b hne
    obtain ⟨aactive, ha⟩ := hkeep a
    obtain ⟨bactive, hb⟩ := hkeep b
    rw [ha, hb]
    exact hne
  · refine List.pairwise_map.mpr ((h.names.and h.active).imp ?_)
    rintro a b ⟨hnames, hactive⟩ hrivals
    -- Two rivals of this owner would both have the name that was made active.
    by_cases ha : a.owner = owner
    · by_cases hb : b.owner = owner
      · rw [if_pos ha, if_pos hb] at hrivals
        have haname : a.name = name := of_decide_eq_true hrivals.2.1
        have hbname : b.name = name := of_decide_eq_true hrivals.2.2
        exact hnames ⟨ha.trans hb.symm, haname.trans hbname.symm⟩
      · rw [if_pos ha, if_neg hb] at hrivals
        exact hb (hrivals.1.symm.trans ha)
    · by_cases hb : b.owner = owner
      · rw [if_neg ha, if_pos hb] at hrivals
        exact ha (hrivals.1.trans hb)
      · rw [if_neg ha, if_neg hb] at hrivals
        exact hactive hrivals
  · intro binding hbinding
    obtain ⟨hgroup, card, hcard, howner, hname⟩ := h.bound binding hbinding
    obtain ⟨active, heq⟩ := hkeep card
    refine ⟨hgroup, _, List.mem_map_of_mem hcard, ?_⟩
    rw [heq]
    exact ⟨howner, hname⟩

theorem Sound.remove (owner : Owner) (name : String) : (d.remove owner name).Sound where
  numbered card hcard := h.numbered card (List.mem_filter.mp hcard).1
  numbers := List.Pairwise.sublist List.filter_sublist h.numbers
  names := List.Pairwise.sublist List.filter_sublist h.names
  active := List.Pairwise.sublist List.filter_sublist h.active
  bound binding hbinding := by
    obtain ⟨hbinding, hother⟩ := List.mem_filter.mp hbinding
    obtain ⟨hgroup, card, hcard, howner, hname⟩ := h.bound binding hbinding
    refine ⟨hgroup, card, List.mem_filter.mpr ⟨hcard, ?_⟩, howner, hname⟩
    have hnamed : card.isNamed owner name = binding.chooses owner name := by
      rw [Card.isNamed, Binding.chooses, howner, hname]
    rw [hnamed]
    exact hother

theorem Sound.unbind (owner : Owner) (group : String) : (d.unbind owner group).Sound :=
  { h with bound := fun binding hbinding => h.bound binding (List.mem_filter.mp hbinding).1 }

theorem Sound.bind {binding : Binding} (hgroup : binding.group ≠ "")
    (hcard : d.Has binding.owner binding.card) : (d.bind binding).Sound := by
  refine { h with bound := fun other hother => ?_ }
  rcases List.mem_cons.mp hother with rfl | hother
  · exact ⟨hgroup, hcard⟩
  · exact (h.unbind binding.owner binding.group).bound other hother

theorem Sound.move {e : Deck} (hmove : d.Move e) : e.Sound := by
  cases hmove with
  | none => exact h
  | create new hfree hfirst => exact h.create hfree hfirst
  | activate owner name => exact h.activate owner name
  | remove owner name => exact h.remove owner name
  | bind binding hgroup hcard => exact h.bind hgroup hcard
  | unbind owner group => exact h.unbind owner group

end Sound

end Deck
end DiceHost
