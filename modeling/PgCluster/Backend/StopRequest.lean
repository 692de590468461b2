import PgCluster.Backend.ClusterTest

/-! A worker behind a stop request: when it starts no further attempt and therefore ends. -/

namespace PgCluster.Backend

open Foundation

variable {Thread Account : Type*} [Fintype Account]

/-- What a worker meets at a step behind the request: globals that the other threads may
have changed, but for the flag, and the answer to its call.
-/
structure AfterStop (Thread Account : Type*) [Fintype Account] where
  shared : Shared Thread Account
  requested : shared.isTerminate = true
  reply : Reply Account

/-- A worker from the state in which the request finds it. -/
def stoppedWorker (conf : Conf) (thread : Thread) (worker : Worker)
    : Machine Worker (AfterStop Thread Account) where
  start := worker
  step before meets := (before.step conf thread meets.reply meets.shared).1

/-- The clause repeats the task without a look at the flag. -/
def DbError.Repeats (error : DbError) : Prop :=
  repairOf workerFuncClauses error = some .switchHost
  ∨ repairOf workerFuncClauses error = some .countAndReconnect

/-- The step leads back to the head of the inner loop. -/
def Worker.GoesRound (worker : Worker) (meets : AfterStop Thread Account) : Prop :=
  match worker.position with
  | .opening => worker.dbHosts ≠ [] ∧ ∃ error ∈ meets.reply.answer.error?, error.Repeats
  | .naming | .askingPid => ∃ error ∈ meets.reply.answer.error?, error.Repeats
  | .executing =>
      ∃ error ∈ meets.reply.answer.error?,
        error.Repeats
        ∧ (meets.reply.transfer ≠ none ∨ meets.reply.answer = .raises error)
  | .rollback =>
      worker.dbLocal ≠ none
      ∧ (meets.reply.answer.error? = none
        ∨ meets.reply.answer.error? = some .noActiveTransaction)
  | _ => False

/-- A clause goes round exactly for the classes it repeats. -/
theorem Worker.except_retry_iff (worker : Worker) (error : DbError)
    : (worker.except error).position = .retry ↔ error.Repeats := by
  cases error <;> simp [Worker.except, DbError.Repeats, repairOf, workerFuncClauses]

/-- On its way out: past the places from which an attempt is still ahead. -/
def Position.Leaving : Position → Prop
  | .load | .store _ | .retry => False
  | _ => True

/-- The calls and tests ahead of a leaving thread. -/
def Position.remaining : Position → Nat
  | .returned | .escaped => 0
  | .closing | .rollback | .returnTest => 1
  | .stopTest => 2
  | .loopTest => 3
  | .executing => 4
  | .registering _ => 5
  | .askingPid => 6
  | .naming => 7
  | .opening => 8
  | .load | .store _ | .retry => 9

/-- What a leaving thread does next: it goes round, or it leaves further. -/
structure Worker.Leaves (worker next : Worker) (round : Prop) : Prop where
  again : next.position = .retry ↔ round
  leaving : ¬ round → next.position.Leaving
  fewer : ¬ round → ¬ worker.position.Ended → next.position.remaining < worker.position.remaining

/-- A clause that does not go round leaves a repair or a test behind, or the thread ends. -/
theorem Worker.leaves_except (worker : Worker) (error : DbError)
    (calls : 1 < worker.position.remaining)
    : worker.Leaves (worker.except error) error.Repeats := by
  have again := worker.except_retry_iff error
  have lands : ¬ error.Repeats
      → (worker.except error).position.Leaving
        ∧ (worker.except error).position.remaining ≤ 1 := by
    intro once
    rcases worker.except_position error with ⟨_, lands⟩ | ⟨_, lands | lands | lands⟩
    · simp [lands, Position.Leaving, Position.remaining]
    · exact absurd (again.mp lands) once
    · simp [lands, Position.Leaving, Position.remaining]
    · simp [lands, Position.Leaving, Position.remaining]
  exact ⟨again, fun once => (lands once).1, fun once _ => (lands once).2.trans_lt calls⟩

/-- A step to a place further ahead goes round for nothing. -/
theorem Worker.leaves_of {worker next : Worker} {round : Prop} (never : ¬ round)
    (leaving : next.position.Leaving)
    (fewer : ¬ worker.position.Ended → next.position.remaining < worker.position.remaining)
    : worker.Leaves next round := by
  refine ⟨iff_of_false ?_ never, fun _ => leaving, fun _ => fewer⟩
  intro stands
  simp [stands, Position.Leaving] at leaving

/-- A call that raises goes round exactly for the classes that are repeated. -/
theorem Worker.goesRound_iff_of_raised {worker : Worker} {meets : AfterStop Thread Account}
    {error : DbError} (raised : worker.raised meets.reply = some error)
    : worker.GoesRound meets ↔ error.Repeats := by
  obtain ⟨answers, ⟨stands, hosts⟩ | stands | stands | ⟨stands, sent⟩⟩ :=
    worker.raised_cases raised
  · simp [GoesRound, stands, hosts, answers]
  · simp [GoesRound, stands, answers]
  · simp [GoesRound, stands, answers]
  · simp [GoesRound, stands, answers, sent]

/-- A step without an exception goes round only behind a rollback. -/
theorem Worker.Way.goesRound_iff {worker : Worker} {conf : Conf}
    {meets : AfterStop Thread Account} {position : Position}
    (way : worker.Way conf meets.reply meets.shared position)
    : worker.GoesRound meets ↔ position = .retry := by
  cases way with
  | rowless stands answers rows =>
      simp [GoesRound, stands, rows, answers]
  | rollsBack stands uses answers => simp [GoesRound, stands, uses, answers]
  | rollbackFails error stands uses answers other =>
      simp [GoesRound, stands, answers, other]
  | hostless stands hosts => simp [GoesRound, stands, hosts]
  | names stands answers | hears _ stands answers _ | unheard stands answers _ =>
      simp [GoesRound, stands, answers]
  | unrolled stands missing => simp [GoesRound, stands, missing]
  | begins stands _ | done stands _ | stops stands _ | works stands _ | loads stands
  | unregistered _ stands _ | returns stands _ | closes stands _ | unclosed stands _ =>
      simp [GoesRound, stands]

/-- Such a step leads to a place further ahead. -/
theorem Worker.Way.leaves {worker : Worker} {conf : Conf} {meets : AfterStop Thread Account}
    {position : Position} (way : worker.Way conf meets.reply meets.shared position)
    (leaving : worker.position.Leaving)
    : worker.Leaves { worker with position := position } (worker.GoesRound meets) := by
  have requested := meets.requested
  refine ⟨way.goesRound_iff.symm, ?_, ?_⟩
  · intro never
    rw [way.goesRound_iff] at never
    cases way <;> simp_all [Position.Leaving]
  · intro never _
    rw [way.goesRound_iff] at never
    cases way <;> simp_all [Position.Leaving, Position.remaining]

/-- From a leaving position the step goes round or leaves further. -/
theorem Worker.step_leaves {worker : Worker} (leaving : worker.position.Leaving)
    (conf : Conf) (thread : Thread) (meets : AfterStop Thread Account)
    : worker.Leaves (worker.step conf thread meets.reply meets.shared).1
        (worker.GoesRound meets) := by
  cases worker.step_cases conf thread meets.reply meets.shared with
  | goes position way lands =>
      rw [lands]
      exact way.leaves leaving
  | counts seen stands lands => simp [stands, Position.Leaving] at leaving
  | retries stands lands => simp [stands, Position.Leaving] at leaving
  | connects stands hosts answers lands =>
      rw [lands]
      exact leaves_of (by simp [GoesRound, stands, answers]) (by simp [Position.Leaving])
        (by simp [stands, Position.remaining])
  | registers currentPid conn stands uses lands =>
      rw [lands]
      exact leaves_of (by simp [GoesRound, stands]) (by simp [Position.Leaving])
        (by simp [stands, Position.remaining])
  | raises error calls raised lands =>
      rw [lands, goesRound_iff_of_raised raised]
      refine leaves_except worker error ?_
      simp only [List.mem_cons, List.not_mem_nil, or_false] at calls
      rcases calls with stands | stands | stands | stands
        <;> simp [stands, Position.remaining]
  | finishes transfer stands answers picks lands =>
      rw [lands]
      exact leaves_of (by simp [GoesRound, stands, answers, Answer.error?])
        (by simp [Position.Leaving]) (by simp [stands, Position.remaining])
  | loses error transfer stands answers picks lands =>
      have raised : worker.raised meets.reply = some error := by
        simp [Worker.raised, stands, answers, picks]
      rw [lands, goesRound_iff_of_raised raised]
      exact leaves_except worker error (by simp [stands, Position.remaining])
  | reconnects stands running lands => simp [meets.requested] at running
  | rests ended lands =>
      rw [lands]
      refine leaves_of ?_ leaving (fun working => absurd ended working)
      rcases ended with stands | stands <;> simp [GoesRound, stands]

/-- No further attempt is started, and the thread ends. -/
def StopsPromptly (conf : Conf) (thread : Thread) (worker : Worker)
    (meets : Nat → AfterStop Thread Account)
    : Prop :=
  (∀ count, ((stoppedWorker conf thread worker).path meets count).position ≠ .retry)
  ∧ ∃ count, ((stoppedWorker conf thread worker).path meets count).position.Ended

/-- A worker stops exactly if the request does not find it between the test of the flag and
its next attempt, and no step from there on goes round.
-/
theorem stopsPromptly_iff (conf : Conf) (thread : Thread) (worker : Worker)
    (meets : Nat → AfterStop Thread Account)
    : StopsPromptly conf thread worker meets
      ↔ worker.position.Leaving
        ∧ ∀ count,
            ¬ ((stoppedWorker conf thread worker).path meets count).GoesRound (meets count)
    := by
  have leavingAll : worker.position.Leaving
      → (∀ count, ¬ ((stoppedWorker conf thread worker).path meets count).GoesRound (meets count))
      → ∀ count, ((stoppedWorker conf thread worker).path meets count).position.Leaving := by
    intro leaving never count
    induction count with
    | zero => exact leaving
    | succ count ih =>
        exact (Worker.step_leaves ih conf thread (meets count)).leaving (never count)
  constructor
  · rintro ⟨noRetry, _⟩
    have leaving : worker.position.Leaving := by
      have now := noRetry 0
      have next := noRetry 1
      have later := noRetry 2
      cases stands : worker.position with
      | retry => exact absurd stands now
      | store seen =>
          exact absurd (by simp [Machine.path, stoppedWorker, Worker.step, stands]) next
      | load => exact absurd (by simp [Machine.path, stoppedWorker, Worker.step, stands]) later
      | _ => trivial
    refine ⟨leaving, ?_⟩
    -- the first step that goes round would be at the head of the loop next
    have all : ∀ count,
        ((stoppedWorker conf thread worker).path meets count).position.Leaving
        ∧ ¬ ((stoppedWorker conf thread worker).path meets count).GoesRound (meets count) := by
      intro count
      induction count with
      | zero =>
          exact ⟨leaving, fun round =>
            noRetry 1 ((Worker.step_leaves leaving conf thread (meets 0)).again.mpr round)⟩
      | succ count ih =>
          have here := (Worker.step_leaves ih.1 conf thread (meets count)).leaving ih.2
          exact ⟨here, fun round =>
            noRetry (count + 2)
              ((Worker.step_leaves here conf thread (meets (count + 1))).again.mpr round)⟩
    exact fun count => (all count).2
  · rintro ⟨leaving, never⟩
    have all := leavingAll leaving never
    refine ⟨?_, ?_⟩
    · intro count stands
      have here := all count
      simp [stands, Position.Leaving] at here
    · refine Machine.exists_path_end (fun worker : Worker => worker.position.Ended)
        (fun worker => worker.position.remaining) ?_
      exact fun count working =>
        (Worker.step_leaves (all count) conf thread (meets count)).fewer (never count) working

/-- Where a worker stands that only hears refusals. -/
def Worker.Connecting (worker : Worker) : Prop :=
  worker.position = .opening ∧ worker.dbLocal = none ∧ worker.dbHosts ≠ []

/-- Refused connections lead back to the same call in two steps, for ever. -/
theorem connecting_forever (conf : Conf) (thread : Thread) {worker : Worker}
    (connecting : worker.Connecting) {meets : Nat → AfterStop Thread Account}
    (refused : ∀ count, (meets count).reply.answer = .raises .clientCannotConnect) (count : Nat)
    : ((stoppedWorker conf thread worker).path meets (2 * count)).Connecting
      ∧ ((stoppedWorker conf thread worker).path meets (2 * count + 1)).position = .retry := by
  have around : ∀ before : Worker, before.Connecting
      → ∀ first second : AfterStop Thread Account,
        first.reply.answer = .raises .clientCannotConnect
        → (before.step conf thread first.reply first.shared).1.position = .retry
          ∧ ((before.step conf thread first.reply first.shared).1.step conf thread second.reply
              second.shared).1.Connecting := by
    rintro before ⟨stands, unconnected, hosts⟩ first second outcome
    obtain ⟨host, others, list⟩ := List.exists_cons_of_ne_nil hosts
    have failed : before.step conf thread first.reply first.shared
        = ({ before with
            position := .retry, dbLocal := none,
            reconnectAttempt := before.reconnectAttempt + 1 }, first.shared) := by
      simp [Worker.step, stands, list, outcome, Answer.error?, Worker.except, repairOf,
        workerFuncClauses]
    rw [failed]
    refine ⟨rfl, ?_⟩
    simp only [Worker.step, Worker.retry]
    split
    · exact ⟨rfl, rfl, hosts⟩
    · exact ⟨rfl, rfl, by simp [list, switchHost]⟩
  induction count with
  | zero =>
      exact ⟨connecting, (around worker connecting (meets 0) (meets 0) (refused 0)).1⟩
  | succ count ih =>
      have next := (around _ ih.1 (meets (2 * count)) (meets (2 * count + 1)) (refused _)).2
      exact ⟨next, (around _ next (meets (2 * count + 2)) (meets 0) (refused _)).1⟩

/-- Every host refuses for ever: the worker that the request finds at its first connection
goes on connecting.
-/
theorem stopsPromptly_refused
    : let conf := exampleConf 1 ["node1", "node2"]
      let stopped := (clusterTest (Fin 1) (Fin 2) conf).run
        (List.replicate 5 (.work 0 (exampleReply .succeeds)) ++ [.requestStop])
      ∃ meets : Nat → AfterStop (Fin 1) (Fin 2),
        (∀ count,
          (meets count).shared = stopped.shared
          ∧ (meets count).reply.answer = .raises .clientCannotConnect)
        ∧ (∀ count,
          ((stoppedWorker conf 0 (stopped.own 0)).path meets (2 * count)).position = .opening)
        ∧ ¬ StopsPromptly conf 0 (stopped.own 0) meets := by
  intro conf stopped
  have connecting : (stopped.own 0).Connecting := by
    refine ⟨by decide, by decide, by decide⟩
  let meets : Nat → AfterStop (Fin 1) (Fin 2) := fun _ =>
    ⟨stopped.shared, by decide, exampleReply (.raises .clientCannotConnect)⟩
  have refused : ∀ count, (meets count).reply.answer = .raises .clientCannotConnect :=
    fun _ => rfl
  have forever := connecting_forever conf 0 connecting refused
  refine ⟨meets, fun _ => ⟨rfl, rfl⟩, fun count => (forever count).1.1, ?_⟩
  intro prompt
  exact prompt.1 1 (forever 0).2

end PgCluster.Backend
