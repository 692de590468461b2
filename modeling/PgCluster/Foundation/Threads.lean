import Mathlib.Algebra.BigOperators.Group.Finset.Basic

/-! Threads with a state of their own over one shared state; a step is taken by one thread. -/

namespace Foundation

structure Threads (Thread Own Shared : Type*) where
  own : Thread → Own
  shared : Shared

namespace Threads

variable {Thread Own Shared : Type*} [DecidableEq Thread]

/-- One thread takes a step of its own program on the shared state. -/
def advance (threads : Threads Thread Own Shared) (thread : Thread)
    (step : Own → Shared → Own × Shared)
    : Threads Thread Own Shared where
  own := Function.update threads.own thread (step (threads.own thread) threads.shared).1
  shared := (step (threads.own thread) threads.shared).2

@[simp] theorem advance_shared (threads : Threads Thread Own Shared) (thread : Thread)
    (step : Own → Shared → Own × Shared)
    : (threads.advance thread step).shared
      = (step (threads.own thread) threads.shared).2 := rfl

@[simp] theorem advance_own_self (threads : Threads Thread Own Shared) (thread : Thread)
    (step : Own → Shared → Own × Shared)
    : (threads.advance thread step).own thread
      = (step (threads.own thread) threads.shared).1 :=
  Function.update_self ..

/-- A step leaves the own states of all other threads alone. -/
@[simp] theorem advance_own_other {threads : Threads Thread Own Shared}
    {thread other : Thread} (apart : other ≠ thread) (step : Own → Shared → Own × Shared)
    : (threads.advance thread step).own other = threads.own other :=
  Function.update_of_ne apart ..

/-- Two steps of one thread in a row are one step of it. -/
theorem advance_advance (threads : Threads Thread Own Shared) (thread : Thread)
    (first second : Own → Shared → Own × Shared)
    : (threads.advance thread first).advance thread second
      = threads.advance thread (fun own shared =>
          second (first own shared).1 (first own shared).2) := by
  simp [advance]

/-- A relation between own and shared states survives a step if the stepping thread and,
by what the shared state does, all other threads keep it.
-/
theorem advance_forall (relation : Thread → Own → Shared → Prop)
    {threads : Threads Thread Own Shared} {thread : Thread}
    {step : Own → Shared → Own × Shared}
    (related : ∀ other, relation other (threads.own other) threads.shared)
    (self
      : relation thread (step (threads.own thread) threads.shared).1
          (step (threads.own thread) threads.shared).2)
    (stable
      : ∀ other,
          other ≠ thread → relation other (threads.own other) threads.shared
          → relation other (threads.own other) (step (threads.own thread) threads.shared).2)
    : ∀ other,
        relation other ((threads.advance thread step).own other)
          (threads.advance thread step).shared := by
  intro other
  by_cases same : other = thread
  · rw [same, advance_own_self, advance_shared]
    exact self
  · rw [advance_own_other same, advance_shared]
    exact stable other same (related other)

/-- A sum of what each thread contributes changes by the stepping thread's share alone. -/
theorem sum_advance [Fintype Thread] (share : Own → Nat)
    (threads : Threads Thread Own Shared) (thread : Thread)
    (step : Own → Shared → Own × Shared)
    : ∑ other, share ((threads.advance thread step).own other) + share (threads.own thread)
      = ∑ other, share (threads.own other)
        + share (step (threads.own thread) threads.shared).1 := by
  have rest : ∀ other ∈ Finset.univ.erase thread,
      share ((threads.advance thread step).own other) = share (threads.own other) := by
    intro other member
    rw [advance_own_other (Finset.ne_of_mem_erase member)]
  have member := Finset.mem_univ thread
  rw [← Finset.add_sum_erase _ _ member, ← Finset.add_sum_erase _ _ member,
    Finset.sum_congr rfl rest, advance_own_self]
  omega

end Threads

end Foundation
