import PgCluster.Foundation.TransitionSystem
import Mathlib.Data.Finset.Card

/-! A pool that runs every waiting job once, in any order, with a bound on the jobs in
progress. What can be in progress together depends on the jobs and the bound alone.
-/

namespace Foundation

structure WorkerPool (Job : Type*) where
  waiting : Finset Job
  running : Finset Job

namespace WorkerPool

variable {Job : Type*} [DecidableEq Job]

inductive Step (limit : Nat) : WorkerPool Job → WorkerPool Job → Prop where
  | start {pool job} (waits : job ∈ pool.waiting) (free : pool.running.card < limit)
    : Step limit pool ⟨pool.waiting.erase job, insert job pool.running⟩
  | finish {pool job} (runs : job ∈ pool.running)
    : Step limit pool ⟨pool.waiting, pool.running.erase job⟩

/-- A pool over a set of jobs, none of them started yet. -/
def system (limit : Nat) (jobs : Finset Job) : TransitionSystem (WorkerPool Job) where
  initial pool := pool = ⟨jobs, ∅⟩
  step := Step limit

/-- Only given jobs wait or run, and the running ones respect the bound. -/
structure Bounded (limit : Nat) (jobs : Finset Job) (pool : WorkerPool Job) : Prop where
  waiting : pool.waiting ⊆ jobs
  running : pool.running ⊆ jobs
  limited : pool.running.card ≤ limit

/-- A started or finished job keeps the bounds, by cases on the step. -/
theorem Bounded.step {limit : Nat} {jobs : Finset Job} {pool next : WorkerPool Job}
    (bounded : Bounded limit jobs pool) (move : Step limit pool next)
    : Bounded limit jobs next := by
  cases move with
  | @start job waits free =>
      have count := Finset.card_insert_le job pool.running
      refine ⟨?_, ?_, Nat.le_trans count free⟩
      · exact (Finset.erase_subset _ _).trans bounded.waiting
      · exact Finset.insert_subset (bounded.waiting waits) bounded.running
  | finish runs =>
      refine ⟨bounded.waiting, ?_, ?_⟩
      · exact (Finset.erase_subset _ _).trans bounded.running
      · exact Nat.le_trans (Finset.card_le_card (Finset.erase_subset _ _)) bounded.limited

/-- Every reachable pool is bounded, by invariance from the untouched pool. -/
theorem bounded {limit : Nat} {jobs : Finset Job} {pool : WorkerPool Job}
    (run : (system limit jobs).Reachable pool)
    : Bounded limit jobs pool := by
  refine run.invariant ?_ (fun _ _ before move => before.step move)
  intro first start
  rw [start]
  exact ⟨subset_rfl, Finset.empty_subset _, by simp⟩

/-- Any jobs within the bound can run together, by starting them one after another. -/
theorem reachable_running {limit : Nat} {jobs : Finset Job} (chosen : Finset Job)
    (included : chosen ⊆ jobs) (limited : chosen.card ≤ limit)
    : (system limit jobs).Reachable ⟨jobs \ chosen, chosen⟩ := by
  induction chosen using Finset.induction with
  | empty => exact .initial (by simp [system])
  | insert job chosen fresh ih =>
      rw [Finset.card_insert_of_notMem fresh] at limited
      have before := ih ((Finset.subset_insert _ _).trans included) (by omega)
      have waits : job ∈ jobs \ chosen :=
        Finset.mem_sdiff.mpr ⟨included (Finset.mem_insert_self _ _), fresh⟩
      have move : Step limit ⟨jobs \ chosen, chosen⟩ _ := .start waits limited
      rw [Finset.sdiff_insert]
      exact before.step move

/-- At most half of a whole ever runs exactly when the bound or the number of jobs forbids
more. Witness: the largest set of jobs that the bound lets run.
-/
theorem always_minority_iff (limit whole : Nat) (jobs : Finset Job)
    : (∀ pool, (system limit jobs).Reachable pool → 2 * pool.running.card < whole)
      ↔ 2 * min limit jobs.card < whole := by
  refine ⟨?_, ?_⟩
  · intro always
    obtain ⟨chosen, included, count⟩ :=
      Finset.exists_subset_card_eq (Nat.min_le_right limit jobs.card)
    have few := always _
      (reachable_running chosen included (count ▸ Nat.min_le_left limit jobs.card))
    rwa [count] at few
  · intro few pool run
    have bounds := bounded run
    have inJobs := Finset.card_le_card bounds.running
    have limited := bounds.limited
    omega

end WorkerPool

end Foundation
