import DiceHost.Engine.Step

/-! # Courses of the engine

The memory held and the instructions counted decide whether a limit stops a run, and nothing
else. A course is therefore told without them: it leads from one configuration to another
whatever has been counted, and a run along it either gets to its end or is stopped by a limit.
-/
namespace DiceHost.Engine

/-! ## Runs -/

/-- So many steps lead from one configuration to the other; the limits are looked at after each
of them. -/
inductive Steps : Nat → Next → Next → Prop
  | refl (n : Next) : Steps 0 n n
  | cons {count : Nat} {n m last : Next} : step n = .next m → Steps count m.checked last →
      Steps (count + 1) n last

theorem Steps.next {count : Nat} {n m last : Next} (hstep : step n = .next m)
    (hchecked : m.checked = m) (h : Steps count m last) : Steps (count + 1) n last := by
  refine .cons hstep ?_
  rwa [hchecked]

theorem Steps.trans {count count' : Nat} {n m last : Next} (h : Steps count n m)
    (h' : Steps count' m last) : Steps (count' + count) n last := by
  induction h with
  | refl n => exact h'
  | cons hstep _ ih => exact .cons hstep (ih h')

theorem run_of_steps {count : Nat} {n m : Next} (h : Steps count n m) (fuel : Nat) :
    run (fuel + count) n = run fuel m := by
  induction h with
  | refl n => rfl
  | cons hstep _ ih =>
    rw [← Nat.add_assoc, run, hstep]
    exact ih

theorem run_of_steps_give {count fuel : Nat} {n : Next} {s : State} {values : List Value}
    (h : Steps count n ⟨s, .give values, []⟩) (hfuel : count < fuel) :
    run fuel n = (s, .ok values) := by
  obtain ⟨left, rfl⟩ := Nat.exists_eq_add_of_lt hfuel
  rw [Nat.add_assoc, Nat.add_comm, run_of_steps h]
  rfl

/-! ## Courses -/

/-- The state with other counts. -/
def State.counted (s : State) (held instructions : Nat) : State :=
  { s with held := held, instructions := instructions }

def Next.counted (n : Next) (held instructions : Nat) : Next :=
  { n with state := n.state.counted held instructions }

/-- The frame of a function that catches faults. -/
def Frame.catches : Frame → Bool
  | .protect _ | .handler .. => true
  | _ => false

/-- A fault is not caught. -/
def Uncaught (k : List Frame) : Prop := k.any Frame.catches = false

/-- What every step of a course keeps. -/
structure Onward (n m : Next) : Prop where
  uncaught : Uncaught n.stack → Uncaught m.stack
  limits : m.state.limits = n.state.limits
  counting : m.state.counting = n.state.counting

/-- So many steps lead from one configuration to the other, whatever is counted. -/
inductive Leads : Nat → Next → Next → Prop
  | refl {n m : Next} : n.counted 0 0 = m.counted 0 0 → Leads 0 n m
  | cons {count : Nat} {n m last : Next}
      (step : ∀ held instructions, ∃ held' instructions',
        step (n.counted held instructions) = .next (m.counted held' instructions'))
      (onward : Onward n m) : Leads count m last → Leads (count + 1) n last

theorem Leads.one {n m : Next}
    (step : ∀ held instructions, ∃ held' instructions',
      step (n.counted held instructions) = .next (m.counted held' instructions'))
    (onward : Onward n m) : Leads 1 n m := .cons step onward (.refl rfl)

/-- A step that counts nothing, before a course. -/
theorem Leads.after {count : Nat} {n m last : Next} (h : Leads count m last)
    (step : ∀ held instructions,
      step (n.counted held instructions) = .next (m.counted held instructions))
    (onward : Onward n m) : Leads (count + 1) n last :=
  .cons (fun held instructions => ⟨held, instructions, step held instructions⟩) onward h

theorem counted_eq {n m : Next} (h : n.counted 0 0 = m.counted 0 0) (held instructions : Nat) :
    n.counted held instructions = m.counted held instructions := by
  have hcounted := congrArg (fun n : Next => n.counted held instructions) h
  exact hcounted

theorem onward_of_counted {n m : Next} (h : n.counted 0 0 = m.counted 0 0) : Onward n m := by
  have hstack : (n.counted 0 0).stack = (m.counted 0 0).stack := congrArg Next.stack h
  have hstate : (n.counted 0 0).state = (m.counted 0 0).state := congrArg Next.state h
  have hlimits := congrArg State.limits hstate
  have hcounting := congrArg State.counting hstate
  exact ⟨fun hopen => Eq.mp (congrArg Uncaught hstack) hopen, hlimits.symm, hcounting.symm⟩

theorem Onward.trans {n m last : Next} (h : Onward n m) (h' : Onward m last) : Onward n last :=
  ⟨fun hopen => h'.uncaught (h.uncaught hopen), h'.limits.trans h.limits,
    h'.counting.trans h.counting⟩

theorem Leads.trans {count count' : Nat} {n m last : Next} (h : Leads count n m)
    (h' : Leads count' m last) : Leads (count' + count) n last := by
  induction h with
  | refl heq =>
    -- where the courses meet, other counts are meant by the same configuration
    cases h' with
    | refl heq' => exact .refl (heq.trans heq')
    | cons hstep honward hrest =>
      refine .cons (fun held instructions => ?_) ((onward_of_counted heq).trans honward) hrest
      rw [counted_eq heq]
      exact hstep held instructions
  | cons hstep honward _ ih => exact .cons hstep honward (ih h')

theorem Leads.onward {count : Nat} {n m : Next} (h : Leads count n m) : Onward n m := by
  induction h with
  | refl heq => exact onward_of_counted heq
  | cons _ honward _ ih => exact honward.trans ih

/-- Whatever is counted, what is done with a state goes on to this configuration. -/
structure Becomes (f : State → Next) (s : State) (k : List Frame) (n : Next) : Prop where
  eq : ∀ held instructions, ∃ held' instructions',
    f (s.counted held instructions) = n.counted held' instructions'
  uncaught : Uncaught k → Uncaught n.stack
  limits : n.state.limits = s.limits
  counting : n.state.counting = s.counting

theorem Becomes.leads {f : State → Next} {s : State} {control : Control} {k k' : List Frame}
    {n last : Next} {count : Nat} (h : Becomes f s k' n)
    (hstep : ∀ s, step ⟨s, control, k⟩ = .next (f s)) (hk : Uncaught k → Uncaught k')
    (hrest : Leads count n last) : Leads (count + 1) ⟨s, control, k⟩ last := by
  refine .cons (fun held instructions => ?_)
    ⟨fun hopen => h.uncaught (hk hopen), h.limits, h.counting⟩ hrest
  obtain ⟨held', instructions', heq⟩ := h.eq held instructions
  exact ⟨held', instructions', (hstep _).trans (congrArg Progress.next heq)⟩

theorem Becomes.of_eq {f : State → Next} {s : State} {k : List Frame} {n : Next}
    (heq : ∀ held instructions, f (s.counted held instructions) = n.counted held instructions)
    (huncaught : Uncaught k → Uncaught n.stack) (hlimits : n.state.limits = s.limits)
    (hcounting : n.state.counting = s.counting) : Becomes f s k n :=
  ⟨fun held instructions => ⟨held, instructions, heq held instructions⟩, huncaught, hlimits,
    hcounting⟩

/-- What a limit ends a run with. -/
def State.Stops (s : State) (fault : Fault) : Prop :=
  (s.limits.memory ≠ 0 ∧ fault = .exhausted) ∨
    (s.counting = true ∧
      fault = .thrown (.failure "runtime error: Script exceeded instruction limit"))

/-- A look at the limits changes what is counted or ends the run. -/
theorem checked_counted (n : Next) (held instructions : Nat) :
    (∃ held' instructions', (n.counted held instructions).checked =
      n.counted held' instructions') ∨
    ∃ s fault, n.state.Stops fault ∧
      (n.counted held instructions).checked = ⟨s, .raise fault, n.stack⟩ := by
  unfold Next.checked
  split
  · exact Or.inl ⟨held, instructions, rfl⟩
  · split
    · next hover =>
      have hcounting : n.state.counting = true := (Bool.and_eq_true_iff.mp hover).1
      exact Or.inr ⟨_, _, Or.inr ⟨hcounting, rfl⟩, rfl⟩
    · split
      · next hlimit =>
        have hmemory : n.state.limits.memory ≠ 0 :=
          bne_iff_ne.mp (Bool.and_eq_true_iff.mp hlimit).1
        dsimp only
        split
        · exact Or.inr ⟨_, _, Or.inl ⟨hmemory, rfl⟩, rfl⟩
        · exact Or.inl ⟨_, _, rfl⟩
      · exact Or.inl ⟨held, instructions, rfl⟩

theorem unwind_uncaught {k : List Frame} (h : Uncaught k) (s : State) (fault : Fault) :
    unwind s fault k = none := by
  induction k with
  | nil => rfl
  | cons frame k ih =>
    obtain ⟨hframe, hk⟩ := Bool.or_eq_false_iff.mp h
    cases frame with
    | protect site => cases hframe
    | handler f site => cases hframe
    | _ => exact ih hk

/-- A run along a course that gives values gives these values, unless a limit stops it. -/
theorem run_of_leads {count fuel : Nat} {n : Next} {s : State} {values : List Value}
    (h : Leads count n ⟨s, .give values, []⟩) (hopen : Uncaught n.stack) (hfuel : count < fuel)
    (held instructions : Nat) :
    (∃ held' instructions', run fuel (n.counted held instructions) =
      (s.counted held' instructions', .ok values)) ∨
    ∃ t fault, n.state.Stops fault ∧
      run fuel (n.counted held instructions) = (t, .error fault) := by
  generalize hlast : (⟨s, .give values, []⟩ : Next) = last at h
  induction h generalizing fuel held instructions with
  | refl heq =>
    obtain ⟨fuel, rfl⟩ := Nat.exists_eq_add_one_of_ne_zero (Nat.ne_of_gt hfuel)
    rw [counted_eq heq, ← hlast]
    exact Or.inl ⟨held, instructions, rfl⟩
  | @cons count n m last hstep honward _ ih =>
    obtain ⟨fuel, rfl⟩ := Nat.exists_eq_add_one_of_ne_zero (Nat.ne_of_gt (Nat.zero_lt_of_lt hfuel))
    have hleft : count < fuel := Nat.lt_of_succ_lt_succ hfuel
    obtain ⟨held', instructions', hnext⟩ := hstep held instructions
    have hrun : run (fuel + 1) (n.counted held instructions) =
        run fuel (m.counted held' instructions').checked := by rw [run, hnext]
    have hstops {fault : Fault} (hm : m.state.Stops fault) : n.state.Stops fault := by
      rwa [State.Stops, honward.limits, honward.counting] at hm
    have hm := honward.uncaught hopen
    rw [hrun]
    -- a limit may stop the run after this step, or after one of those that follow
    rcases checked_counted m held' instructions' with ⟨held', instructions', hchecked⟩ |
      ⟨after, fault, hfault, hchecked⟩
    · rw [hchecked]
      rcases ih hm hleft held' instructions' hlast with hdone | ⟨t, fault, hfault, hfailed⟩
      · exact Or.inl hdone
      · exact Or.inr ⟨t, fault, hstops hfault, hfailed⟩
    · obtain ⟨fuel, rfl⟩ := Nat.exists_eq_add_one_of_ne_zero (Nat.ne_of_gt
        (Nat.zero_lt_of_lt hleft))
      refine Or.inr ⟨after, fault, hstops hfault, ?_⟩
      rw [hchecked, run, step]
      dsimp only
      rw [unwind_uncaught hm]

/-- Without limits a course is what a run goes through. -/
theorem exists_steps_of_leads {count : Nat} {n m : Next} (h : Leads count n m)
    (hmemory : n.state.limits.memory = 0) (hcounting : n.state.counting = false)
    (held instructions : Nat) : ∃ held' instructions',
      Steps count (n.counted held instructions) (m.counted held' instructions') := by
  induction h generalizing held instructions with
  | refl heq =>
    rw [counted_eq heq]
    exact ⟨held, instructions, .refl _⟩
  | @cons count n m last hstep honward _ ih =>
    obtain ⟨held', instructions', hnext⟩ := hstep held instructions
    rw [← honward.limits] at hmemory
    rw [← honward.counting] at hcounting
    rcases checked_counted m held' instructions' with ⟨held', instructions', hchecked⟩ |
      ⟨s, fault, hstops, -⟩
    · obtain ⟨held'', instructions'', hsteps⟩ := ih hmemory hcounting held' instructions'
      exact ⟨held'', instructions'', .cons hnext (hchecked ▸ hsteps)⟩
    · rcases hstops with ⟨hlimited, -⟩ | ⟨hlimited, -⟩
      · exact absurd hmemory hlimited
      · rw [hcounting] at hlimited
        cases hlimited

end DiceHost.Engine
