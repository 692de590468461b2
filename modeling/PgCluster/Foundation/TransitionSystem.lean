import Mathlib.Tactic.TypeStar

/-! Reachable states of a nondeterministic system and the induction rule for invariants. -/

namespace Foundation

structure TransitionSystem (State : Type*) where
  initial : State → Prop
  step : State → State → Prop

namespace TransitionSystem

variable {State : Type*} {system : TransitionSystem State}

/-- The states of all finite runs from an initial state. -/
inductive Reachable (system : TransitionSystem State) : State → Prop where
  | initial {state} (start : system.initial state) : system.Reachable state
  | step {state next} (before : system.Reachable state) (move : system.step state next)
    : system.Reachable next

/-- A property of the initial states that every step preserves holds in every run,
by induction on the run.
-/
theorem Reachable.invariant {property : State → Prop}
    (start : ∀ state, system.initial state → property state)
    (preserved
      : ∀ state next, property state → system.step state next → property next)
    {state : State} (run : system.Reachable state)
    : property state := by
  induction run with
  | initial first => exact start _ first
  | step _ move ih => exact preserved _ _ ih move

end TransitionSystem

end Foundation
