import PgCluster.Backend.ClusterTest

/-! When the failures that worker_func handles leave its threads alive: the exact condition on
the outcome of each call and on the tests of the loop.
-/

namespace PgCluster.Backend

open Foundation

variable {Thread Account : Type*} [Fintype Account] {conf : Conf}

/-- No exception has escaped, and there is a connection to close. -/
def Worker.Alive (worker : Worker) : Prop :=
  worker.position ≠ .escaped ∧ (worker.position = .closing → worker.dbLocal ≠ none)

/-- What keeps the next step from ending the thread: the loop ends behind a connection only,
a call of the try block does not raise a missing transaction, and a ROLLBACK runs on a
connection and raises nothing else.
-/
def Worker.Careful (conf : Conf) (worker : Worker) (shared : Shared Thread Account)
    (reply : Reply Account)
    : Prop :=
  match worker.position with
  | .loopTest => shared.operationNum < conf.operations ∨ worker.dbLocal ≠ none
  | .stopTest => shared.isTerminate = false ∨ worker.dbLocal ≠ none
  | .opening => worker.dbHosts ≠ [] ∧ reply.answer.error? ≠ some .noActiveTransaction
  | .naming | .askingPid => reply.answer.error? ≠ some .noActiveTransaction
  | .executing =>
      reply.answer.error? ≠ some .noActiveTransaction
      ∧ (reply.transfer ≠ none ∨ ∃ error, reply.answer = .raises error)
  | .rollback =>
      worker.dbLocal ≠ none
      ∧ (reply.answer.error? = none ∨ reply.answer.error? = some .noActiveTransaction)
  | _ => True

theorem Worker.alive_of_position {worker : Worker} (working : worker.position ≠ .escaped)
    (open_ : worker.position ≠ .closing)
    : worker.Alive :=
  ⟨working, fun stands => absurd stands open_⟩

/-- The clauses keep the thread alive exactly for the classes they name. -/
theorem Worker.except_alive_iff (worker : Worker) (error : DbError)
    : (worker.except error).Alive ↔ error ≠ .noActiveTransaction := by
  rcases worker.except_position error with ⟨same, lands⟩ | ⟨differs, lands | lands | lands⟩
  · refine iff_of_false (fun alive => alive.1 lands) (fun other => other same)
  all_goals
    exact iff_of_true (alive_of_position (by simp [lands]) (by simp [lands])) differs

/-- A call that raises is careful exactly with the classes that a clause names. -/
theorem Worker.careful_iff_of_raised {worker : Worker} {shared : Shared Thread Account}
    {reply : Reply Account} {error : DbError} (raised : worker.raised reply = some error)
    : worker.Careful conf shared reply ↔ error ≠ .noActiveTransaction := by
  obtain ⟨answers, ⟨stands, hosts⟩ | stands | stands | ⟨stands, sent⟩⟩ :=
    worker.raised_cases raised
  · simp [Careful, stands, hosts, answers]
  · simp [Careful, stands, answers]
  · simp [Careful, stands, answers]
  · have row : reply.transfer ≠ none ∨ ∃ other, reply.answer = .raises other :=
      sent.imp_right fun raises => ⟨error, raises⟩
    simp [Careful, stands, answers, row]

/-- Without an exception a step leaves the thread alive exactly if it is careful, by cases on
its kind.
-/
theorem Worker.Way.alive_iff {worker : Worker} (connected : worker.Connected)
    (alive : worker.Alive) {reply : Reply Account} {shared : Shared Thread Account}
    {position : Position} (way : worker.Way conf reply shared position)
    : Alive { worker with position := position } ↔ worker.Careful conf shared reply := by
  cases way with
  | begins stands more => simp [Careful, Alive, stands, more]
  | done stands enough => simp [Careful, Alive, stands, enough]
  | stops stands stopped => simp [Careful, Alive, stands, stopped]
  | works stands running => simp [Careful, Alive, stands, running]
  | loads stands | returns stands _ | closes stands _ => simp [Careful, Alive, stands]
  | hostless stands hosts => simp [Careful, Alive, stands, hosts]
  | names stands answers | hears _ stands answers _ => simp [Careful, Alive, stands, answers]
  | unheard stands _ missing => exact absurd stands (connected missing).2.1
  | unregistered currentPid stands missing =>
      exact absurd stands ((connected missing).2.2 currentPid)
  | rowless stands answers rows => simp [Careful, Alive, stands, answers, rows]
  | unrolled stands missing => simp [Careful, Alive, stands, missing]
  | rollsBack stands uses answers => simp [Careful, Alive, stands, uses, answers]
  | rollbackFails _ stands _ answers other => simp [Careful, Alive, stands, answers, other]
  | unclosed stands missing => exact absurd missing (alive.2 stands)

/-- A step leaves the thread alive exactly if it is careful. -/
theorem Worker.step_alive_iff {worker : Worker} (connected : worker.Connected)
    (alive : worker.Alive) (thread : Thread) (reply : Reply Account)
    (shared : Shared Thread Account)
    : (worker.step conf thread reply shared).1.Alive
      ↔ worker.Careful conf shared reply := by
  cases worker.step_cases conf thread reply shared with
  | goes position way lands =>
      rw [lands]
      exact way.alive_iff connected alive
  | retries stands lands =>
      rw [lands]
      refine iff_of_true ?_ (by simp [Careful, stands])
      rcases worker.retry_lands conf with opens | executes
      · exact alive_of_position (by simp [opens]) (by simp [opens])
      · exact alive_of_position (by simp [executes]) (by simp [executes])
  | counts _ stands lands | registers _ _ stands _ lands | reconnects stands _ lands =>
      rw [lands]
      simp [Careful, Alive, stands]
  | connects stands hosts answers lands =>
      rw [lands]
      simp [Careful, Alive, stands, hosts, answers]
  | raises error calls raised lands =>
      rw [lands, careful_iff_of_raised raised]
      exact worker.except_alive_iff error
  | finishes transfer stands answers picks lands =>
      rw [lands]
      simp [Careful, Alive, stands, answers, picks, Answer.error?]
  | loses error transfer stands answers picks lands =>
      have raised : worker.raised reply = some error := by
        simp [Worker.raised, stands, answers, picks]
      rw [lands, careful_iff_of_raised raised]
      exact worker.except_alive_iff error
  | rests ended lands =>
      rw [lands]
      rcases ended with stands | stands
      · simp [Careful, Alive, stands]
      · exact absurd stands alive.1

variable [DecidableEq Thread]

/-- All threads have ended by returning so far, and close open connections only. -/
def Survives (state : TestState Thread Account) : Prop :=
  ∀ thread, (state.own thread).Alive

/-- The thread that moves is careful. -/
def CarefulLabel (conf : Conf) (state : TestState Thread Account)
    : Label Thread Account → Prop
  | .work thread reply => (state.own thread).Careful conf state.shared reply
  | _ => True

omit [Fintype Account] in
theorem survives_advance_iff {state : TestState Thread Account} (survives : Survives state)
    (thread : Thread)
    (step : Worker → Shared Thread Account → Worker × Shared Thread Account)
    : Survives (state.advance thread step)
      ↔ (step (state.own thread) state.shared).1.Alive := by
  constructor
  · intro after
    have mine := after thread
    rwa [Threads.advance_own_self] at mine
  · intro alive
    exact Threads.advance_forall (fun _ (own : Worker) _ => own.Alive) survives alive
      (fun _ _ before => before)

/-- In every run all workers survive exactly if every step is careful. Every step keeps the
connection behind an open, so the alternatives without one cannot happen there.
-/
theorem survives_iff (conf : Conf) (labels : List (Label Thread Account))
    : (clusterTest Thread Account conf).Always Survives
          (clusterTest Thread Account conf).start labels
      ↔ (clusterTest Thread Account conf).Each (CarefulLabel conf)
          (clusterTest Thread Account conf).start labels := by
  refine Machine.always_iff_each
    (fun state : TestState Thread Account => ∀ thread, (state.own thread).Connected)
    ?_ ?_ ?_ ?_ labels
  · intro state label connected
    cases label with
    | work thread reply =>
        exact Threads.advance_forall (fun _ (own : Worker) _ => own.Connected) connected
          ((connected thread).step conf thread reply state.shared) (fun _ _ before => before)
    | requestStop | failover _ => exact connected
  · intro state label connected survives
    cases label with
    | work thread reply =>
        exact (survives_advance_iff survives thread _).trans
          (Worker.step_alive_iff (connected thread) (survives thread) thread reply state.shared)
    | requestStop | failover _ => exact iff_of_true survives trivial
  · exact fun _ _ => by simp [clusterTest, Worker.initial]
  · exact fun _ => Worker.alive_of_position (by simp [clusterTest, Worker.initial])
      (by simp [clusterTest, Worker.initial])

/-- The only worker of an unfinished test loses its connection inside the repair of a
deadlock: the exception of the ROLLBACK passes the clauses beside it.
-/
theorem survives_rollbackEscapes
    : let last := (clusterTest (Fin 1) (Fin 2) (exampleConf 1 ["node1"])).run
        (List.replicate 9 (.work 0 (exampleReply .succeeds))
          ++ [.work 0 (exampleReply (.raises .deadlock)),
            .work 0 (exampleReply (.raises .connectionFailure))])
      (last.own 0).position = .escaped ∧ ¬ Survives last := by
  refine ⟨by decide, ?_⟩
  intro survives
  exact (survives 0).1 (by decide)

end PgCluster.Backend
