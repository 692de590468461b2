import PgCluster.Backend.ClusterTest

/-! How often a counted operation is applied: once with the worker's knowledge, and once more
for each attempt that the server committed although it raised.
-/

namespace PgCluster.Backend

open Foundation

variable {Thread Account : Type*} [DecidableEq Thread] [Fintype Account] {conf : Conf}

-----------------------------------------------------------------------------------------
-- Applications of an operation
-----------------------------------------------------------------------------------------

/-- The commits of an operation of a thread. -/
def Shared.applications (shared : Shared Thread Account) (thread : Thread)
    (operation : Nat)
    : Nat :=
  shared.committed.countP (fun entry => entry.thread = thread ∧ entry.operation = operation)

/-- Those of them that the thread was or was not told of. -/
def Shared.told (shared : Shared Thread Account) (acknowledged : Bool) (thread : Thread)
    (operation : Nat)
    : Nat :=
  shared.committed.countP (fun entry =>
    (entry.thread = thread ∧ entry.operation = operation) ∧ entry.acknowledged = acknowledged)

omit [Fintype Account] in
theorem Shared.applications_eq (shared : Shared Thread Account) (thread : Thread)
    (operation : Nat)
    : shared.applications thread operation
      = shared.told true thread operation + shared.told false thread operation := by
  unfold applications told
  induction shared.committed with
  | nil => rfl
  | cons entry rest ih =>
      simp only [List.countP_cons, ih]
      by_cases mine : entry.thread = thread ∧ entry.operation = operation
        <;> cases entry.acknowledged <;> simp [mine] <;> omega

omit [Fintype Account] in
@[simp] theorem Shared.told_commit (shared : Shared Thread Account) (acknowledged : Bool)
    (thread other : Thread) (operation number : Nat) (transfer : Transfer Account)
    (known : Bool)
    : (shared.commit other number transfer known).told acknowledged thread operation
      = shared.told acknowledged thread operation
        + if (other = thread ∧ number = operation) ∧ known = acknowledged then 1 else 0 := by
  simp [told, commit, List.countP_append, List.countP_singleton]

-----------------------------------------------------------------------------------------
-- Operations in progress and settled ones
-----------------------------------------------------------------------------------------

/-- The standing of a thread with what it has counted: all that it has left behind has been
acknowledged once, and the one in progress not yet.
-/
structure Standing (thread : Thread) (worker : Worker) (shared : Shared Thread Account)
    : Prop where
  outside
    : ∀ acknowledged operation,
        operation = 0 ∨ worker.counted < operation
        → shared.told acknowledged thread operation = 0
  earlier
    : ∀ operation,
        0 < operation → operation < worker.counted → shared.told true thread operation = 1
  settled
    : ¬ worker.position.Attempting → ¬ worker.position.Ended → 0 < worker.counted
      → shared.told true thread worker.counted = 1
  attempted
    : worker.position.Attempting
      → 0 < worker.counted ∧ shared.told true thread worker.counted = 0

omit [Fintype Account] in
/-- The standing depends on the commits of the thread's own operations alone. -/
theorem Standing.congr {thread : Thread} {worker : Worker} {shared : Shared Thread Account}
    (standing : Standing thread worker shared) (after : Shared Thread Account)
    (same
      : ∀ acknowledged operation,
          after.told acknowledged thread operation = shared.told acknowledged thread operation)
    : Standing thread worker after where
  outside acknowledged operation far :=
    (same acknowledged operation).trans (standing.outside acknowledged operation far)
  earlier operation positive before :=
    (same true operation).trans (standing.earlier operation positive before)
  settled idle working some_ := (same true _).trans (standing.settled idle working some_)
  attempted attempting :=
    ⟨(standing.attempted attempting).1, (same true _).trans (standing.attempted attempting).2⟩

/-- The step of a thread keeps its standing, by cases on its effect. -/
theorem Standing.step {thread : Thread} {worker : Worker} {shared : Shared Thread Account}
    (standing : Standing thread worker shared) (conf : Conf) (reply : Reply Account)
    : Standing thread (worker.step conf thread reply shared).1
        (worker.step conf thread reply shared).2 := by
  by_cases ceased : worker.position.Ended
  · rw [Worker.step_ended ceased]
    exact standing
  cases worker.step_effect conf thread reply shared with
  | counts seen stands starts counted _ committed =>
      have kept := standing.congr (worker.step conf thread reply shared).2
        (fun _ _ => by simp only [Shared.told, committed])
      have idle : ¬ worker.position.Attempting := by simp [stands, Position.Attempting]
      have attempting : (worker.step conf thread reply shared).1.position.Attempting := by
        simp [starts, Position.Attempting]
      refine ⟨?_, ?_, fun idle => absurd attempting idle, fun _ => ⟨by omega, ?_⟩⟩
      · intro acknowledged operation far
        exact kept.outside acknowledged operation (by omega)
      · intro operation positive before
        by_cases last : operation = worker.counted
        · rw [last]
          exact kept.settled idle ceased (by omega)
        · exact kept.earlier operation positive (by omega)
      · rw [counted]
        exact kept.outside true _ (.inr (by omega))
  | finishes transfer stands done counted commits =>
      have current := standing.attempted (by simp [stands, Position.Attempting])
      rw [commits]
      refine ⟨?_, ?_, fun _ _ _ => ?_, fun attempting => ?_⟩
      · intro acknowledged operation far
        rw [Shared.told_commit, if_neg (by omega), standing.outside _ operation (by omega)]
      · intro operation positive before
        rw [Shared.told_commit, if_neg (by omega), standing.earlier operation positive (by omega)]
      · simp [counted, current.2]
      · simp [done, Position.Attempting] at attempting
  | loses transfer stands goesOn counted commits =>
      have current := standing.attempted (by simp [stands, Position.Attempting])
      rw [commits]
      refine ⟨?_, ?_, fun idle working => ?_, fun _ => ?_⟩
      · intro acknowledged operation far
        rw [Shared.told_commit, if_neg (by omega), standing.outside _ operation (by omega)]
      · intro operation positive before
        rw [Shared.told_commit, if_neg (by omega), standing.earlier operation positive (by omega)]
      · exact absurd (goesOn.imp_right .inr) (not_or.mpr ⟨idle, working⟩)
      · simpa [counted] using current
  | moves stands counted _ committed starts goesOn =>
      have kept := standing.congr (worker.step conf thread reply shared).2
        (fun _ _ => by simp only [Shared.told, committed])
      refine ⟨?_, ?_, fun idle working => ?_, fun attempting => ?_⟩
      · rw [counted]
        exact kept.outside
      · rw [counted]
        exact kept.earlier
      · rw [counted]
        exact kept.settled (fun attempting => (goesOn attempting).elim idle working) ceased
      · rw [counted]
        exact kept.attempted (starts attempting)

/-- The step of another thread commits none of this one's operations. -/
theorem told_step_other {thread other : Thread} (apart : other ≠ thread) (conf : Conf)
    (worker : Worker) (reply : Reply Account) (shared : Shared Thread Account)
    (acknowledged : Bool) (operation : Nat)
    : (worker.step conf other reply shared).2.told acknowledged thread operation
      = shared.told acknowledged thread operation := by
  cases worker.step_effect conf other reply shared with
  | counts _ _ _ _ _ committed => simp only [Shared.told, committed]
  | finishes _ _ _ _ commits => simp [commits, apart]
  | loses _ _ _ _ commits => simp [commits, apart]
  | moves _ _ _ committed _ _ => simp only [Shared.told, committed]

/-- In every run without a failover all threads keep their standing. -/
theorem standing_of_run (conf : Conf) {labels : List (Label Thread Account)}
    (keeps : ∀ label ∈ labels, label.KeepsCommits) (thread : Thread)
    : Standing thread (((clusterTest Thread Account conf).run labels).own thread)
        ((clusterTest Thread Account conf).run labels).shared := by
  refine Machine.after_invariant
    (fun state : TestState Thread Account =>
      ∀ thread, Standing thread (state.own thread) state.shared)
    ?_ ?_ (Machine.each_of_labels keeps (clusterTest Thread Account conf).start) thread
  · intro state label standing met
    cases label with
    | work mover reply =>
        refine Threads.advance_forall (fun thread own shared => Standing thread own shared)
          standing ((standing mover).step conf reply) ?_
        intro other apart before
        exact before.congr _ (told_step_other apart.symm conf _ reply _)
    | requestStop => exact fun other => (standing other).congr _ (fun _ _ => rfl)
    | failover _ => exact False.elim met
  · intro thread
    refine ⟨fun _ _ _ => rfl, ?_, ?_, ?_⟩
    · intro operation positive before
      simp [clusterTest, Worker.initial] at before
    · simp [clusterTest, Worker.initial]
    · simp [clusterTest, Worker.initial, Position.Attempting]

-----------------------------------------------------------------------------------------
-- Commits that raise
-----------------------------------------------------------------------------------------

/-- The thread executes the task of an operation, the server commits and the call raises. -/
def LosesAcknowledgement (thread : Thread) (operation : Nat)
    (state : TestState Thread Account)
    : Label Thread Account → Prop
  | .work mover reply =>
      mover = thread
      ∧ (state.own thread).position = .executing
      ∧ (state.own thread).counted = operation
      ∧ reply.transfer.isSome
      ∧ reply.answer.hidesCommit
  | _ => False

instance (thread : Thread) (operation : Nat) (state : TestState Thread Account)
    (label : Label Thread Account)
    : Decidable (LosesAcknowledgement thread operation state label) :=
  match label with
  | .work _ _ => inferInstanceAs (Decidable (_ ∧ _))
  | .requestStop | .failover _ => inferInstanceAs (Decidable False)

/-- A thread's own step adds a commit it is not told of exactly then. -/
theorem told_false_step (worker : Worker) (conf : Conf) (thread : Thread)
    (reply : Reply Account) (shared : Shared Thread Account) (operation : Nat)
    : (worker.step conf thread reply shared).2.told false thread operation
      = shared.told false thread operation
        + if worker.position = .executing
              ∧ worker.counted = operation
              ∧ reply.transfer.isSome
              ∧ reply.answer.hidesCommit then
            1
          else
            0 := by
  by_cases able : worker.position = .executing ∧ reply.transfer ≠ none
  · obtain ⟨transfer, picks⟩ := Option.ne_none_iff_exists'.mp able.2
    cases answers : reply.answer
      <;> simp [Worker.step, Worker.execute, able.1, picks, answers, Answer.hidesCommit]
  · have idle : worker.position ≠ .executing ∨ reply.transfer = none := by
      rwa [not_and_or, not_not] at able
    simp only [Shared.told, Worker.step_committed idle]
    rcases idle with elsewhere | missing
    · simp [elsewhere]
    · simp [missing]

/-- The commits that a thread is not told of are the attempts that raised behind their
commit, step by step.
-/
theorem told_false_of_run {labels : List (Label Thread Account)}
    (keeps : ∀ label ∈ labels, label.KeepsCommits) (thread : Thread) (operation : Nat)
    : ((clusterTest Thread Account conf).run labels).shared.told false thread operation
      = (clusterTest Thread Account conf).tally (LosesAcknowledgement thread operation)
          (clusterTest Thread Account conf).start labels := by
  have grows : ∀ (state : TestState Thread Account) (label : Label Thread Account),
      label.KeepsCommits
      → ((clusterTest Thread Account conf).step state label).shared.told false thread operation
        = state.shared.told false thread operation
          + if LosesAcknowledgement thread operation state label then 1 else 0 := by
    intro state label met
    cases label with
    | work mover reply =>
        by_cases mine : mover = thread
        · rw [clusterTest_work, Threads.advance_shared, mine, told_false_step]
          simp [LosesAcknowledgement]
        · rw [clusterTest_work, Threads.advance_shared, told_step_other mine]
          simp [LosesAcknowledgement, mine]
    | requestStop => simp [LosesAcknowledgement, Shared.told]
    | failover _ => exact False.elim met
  have count := Machine.count_after
    (fun state : TestState Thread Account => state.shared.told false thread operation) grows
    (Machine.each_of_labels keeps (clusterTest Thread Account conf).start)
  rw [Machine.run, count]
  exact Nat.zero_add _

/-- At the end of the loop each counted operation has been applied once with the worker's
knowledge and once for each attempt that raised behind its commit; no other one has.
-/
theorem operation_applied (conf : Conf) {labels : List (Label Thread Account)}
    (keeps : ∀ label ∈ labels, label.KeepsCommits) {thread : Thread}
    (ended : (((clusterTest Thread Account conf).run labels).own thread).position = .closing)
    (operation : Nat)
    : ((clusterTest Thread Account conf).run labels).shared.applications thread operation
      = if 0 < operation
            ∧ operation ≤ (((clusterTest Thread Account conf).run labels).own thread).counted then
          1
            + (clusterTest Thread Account conf).tally (LosesAcknowledgement thread operation)
                (clusterTest Thread Account conf).start labels
        else
          0 := by
  have standing := standing_of_run conf keeps thread
  rw [Shared.applications_eq]
  split
  · rename_i inside
    rw [told_false_of_run keeps]
    congr 1
    by_cases last
        : operation = (((clusterTest Thread Account conf).run labels).own thread).counted
    · rw [last]
      exact standing.settled (by simp [ended, Position.Attempting])
        (by simp [ended, Position.Ended]) (by omega)
    · exact standing.earlier operation inside.1 (by omega)
  · rw [standing.outside true operation (by omega), standing.outside false operation (by omega)]

/-- One attempt raises behind its commit and the next one succeeds. -/
def resentOperation : List (Label (Fin 1) (Fin 2)) :=
  List.replicate 9 (.work 0 (exampleReply .succeeds))
    ++ [.work 0 (exampleReply (.commitsThenRaises .connectionFailure))]
    ++ List.replicate 7 (.work 0 (exampleReply .succeeds))

/-- Witness: the lost acknowledgement is the second application. -/
theorem operation_applied_resent
    : ((clusterTest (Fin 1) (Fin 2) (exampleConf 1 ["node1"])).run resentOperation
        ).shared.applications 0 1
      = 2 := by
  rw [operation_applied (exampleConf 1 ["node1"])
    (by simp [resentOperation, Label.KeepsCommits]) (by decide) 1]
  decide

/-- One increment, two commits: the worker ends its loop with an operation applied twice. -/
theorem operation_applied_twice
    : let last := (clusterTest (Fin 1) (Fin 2) (exampleConf 1 ["node1"])).run resentOperation
      (last.own 0).position = .closing
      ∧ (last.own 0).counted = 1
      ∧ last.shared.operationNum = 1
      ∧ last.shared.applications 0 1 = 2 := by
  decide

end PgCluster.Backend
