import PgCluster.Backend.ClusterTest

/-! cluster_specific_execute beside the inner loop of worker_func: the two copies of the retry
loop meet the same outcomes, and the main thread's copy lacks classes in its clauses.
-/

namespace PgCluster.Backend

open Foundation

-----------------------------------------------------------------------------------------
-- cluster_specific_execute
-----------------------------------------------------------------------------------------

inductive ExecutePosition where
  | retry
  | opening
  | naming
  | calling
  | closing
  | returned
  | escaped
deriving DecidableEq, Repr

/-- The local variables of cluster_specific_execute. -/
structure ClusterExecute where
  position : ExecutePosition
  dbLocal : Option Conn
  reconnectAttempt : Nat
  dbHosts : List String
deriving DecidableEq, Repr

def ClusterExecute.initial (conf : Conf) : ClusterExecute where
  position := .retry
  dbLocal := none
  reconnectAttempt := 0
  dbHosts := conf.dbHosts

/-- The clauses behind its try block. -/
def ClusterExecute.except (main : ClusterExecute) (error : DbError) : ClusterExecute :=
  match repairOf clusterSpecificExecuteClauses error with
  | some .reconnect => { main with position := .retry, dbLocal := none }
  | some .countAndReconnect =>
      { main with
        position := .retry, dbLocal := none, reconnectAttempt := main.reconnectAttempt + 1 }
  | _ => { main with position := .escaped }

/-- The head of its loop. -/
def ClusterExecute.retry (conf : Conf) (main : ClusterExecute) : ClusterExecute :=
  match main.dbLocal with
  | some _ => { main with position := .calling }
  | none =>
      if main.reconnectAttempt < conf.reconnectAttempt then
        { main with position := .opening }
      else
        { main with
          position := .opening, dbHosts := switchHost main.dbHosts, reconnectAttempt := 0 }

/-- The next step, with the connection that an open leads to and how its call ends. -/
def ClusterExecute.step (conf : Conf) (conn : Conn) (answer : Answer) (main : ClusterExecute)
    : ClusterExecute :=
  match main.position with
  | .retry => main.retry conf
  | .opening =>
      match main.dbHosts, answer.error? with
      | [], _ => { main with position := .escaped }
      | _ :: _, some error => main.except error
      | _ :: _, none => { main with position := .naming, dbLocal := some conn }
  | .naming =>
      match answer.error? with
      | some error => main.except error
      | none => { main with position := .calling }
  | .calling =>
      match answer.error? with
      | some error => main.except error
      | none => { main with position := .closing }
  | .closing =>
      match main.dbLocal with
      | some _ => { main with position := .returned }
      | none => { main with position := .escaped }
  | .returned | .escaped => main

-----------------------------------------------------------------------------------------
-- Both loops on the same outcomes
-----------------------------------------------------------------------------------------

/-- The call that a loop makes next, or how it has ended. -/
inductive NextCall where
  | opens
  | setsName
  | runsTask
  | finished
  | escaped
deriving DecidableEq, Repr

/-- What a loop has decided: its next call, the hosts from the one it contacts next on, and
its count of attempts.
-/
structure Decision where
  call : NextCall
  dbHosts : List String
  reconnectAttempt : Nat
deriving DecidableEq, Repr

/-- The outcome of a call that both loops make, while no stop is requested, and those of the
two calls that only worker_func makes behind it: the question for the backend's number, and
the ROLLBACK of a deadlock. An execution that succeeds has found its rows.
-/
structure Outcome (Thread Account : Type*) [Fintype Account] where
  thread : Thread
  shared : Shared Thread Account
  running : shared.isTerminate = false
  reply : Reply Account
  rows : reply.transfer ≠ none
  pid : Answer
  rollback : Answer

variable {Thread Account : Type*} [Fintype Account]

def Worker.decision (worker : Worker) : Decision where
  call :=
    match worker.position with
    | .opening => .opens
    | .naming => .setsName
    | .executing => .runsTask
    | .loopTest => .finished
    | _ => .escaped
  dbHosts := worker.dbHosts
  reconnectAttempt := worker.reconnectAttempt

def ClusterExecute.decision (main : ClusterExecute) : Decision where
  call :=
    match main.position with
    | .opening => .opens
    | .naming => .setsName
    | .calling => .runsTask
    | .returned => .finished
    | _ => .escaped
  dbHosts := main.dbHosts
  reconnectAttempt := main.reconnectAttempt

/-- How the call of a position ends at which only worker_func calls the database. -/
def Outcome.answerAt (outcome : Outcome Thread Account) : Position → Answer
  | .askingPid => outcome.pid
  | .rollback => outcome.rollback
  | _ => .succeeds

/-- A step between two calls that both loops make: the head of the loop, the repairs, and the
question for the backend's number.
-/
def Worker.between (conf : Conf) (outcome : Outcome Thread Account) (worker : Worker)
    : Worker :=
  match worker.position with
  | .retry | .askingPid | .registering _ | .rollback | .returnTest =>
      (worker.step conf outcome.thread
        { outcome.reply with answer := outcome.answerAt worker.position } outcome.shared).1
  | _ => worker

/-- From an exception up to the next call of both loops, two steps at most. -/
def Worker.recover (conf : Conf) (outcome : Outcome Thread Account) (worker : Worker)
    : Worker :=
  (worker.between conf outcome).between conf outcome

/-- Up to the next call of both loops; the question for the number may lead to an exception. -/
def Worker.settle (conf : Conf) (outcome : Outcome Thread Account) (worker : Worker)
    : Worker :=
  (worker.between conf outcome).recover conf outcome

/-- The inner loop of worker_func from one call to the next, for one task. -/
def Worker.meets (conf : Conf) (outcome : Outcome Thread Account) (worker : Worker)
    : Worker :=
  match worker.position with
  | .opening | .naming | .executing =>
      (worker.step conf outcome.thread outcome.reply outcome.shared).1.settle conf outcome
  | _ => worker

def ClusterExecute.settle (conf : Conf) (outcome : Outcome Thread Account)
    (main : ClusterExecute)
    : ClusterExecute :=
  match main.position with
  | .retry | .closing => main.step conf outcome.reply.conn .succeeds
  | _ => main

/-- The loop of cluster_specific_execute from one call to the next. -/
def ClusterExecute.meets (conf : Conf) (outcome : Outcome Thread Account)
    (main : ClusterExecute)
    : ClusterExecute :=
  match main.position with
  | .opening | .naming | .calling =>
      (main.step conf outcome.reply.conn outcome.reply.answer).settle conf outcome
  | _ => main

structure Lockstep where
  worker : Worker
  main : ClusterExecute

variable (Thread Account) in
/-- Both loops from their beginnings, the worker with one counted operation. -/
def lockstep (conf : Conf) : Machine Lockstep (Outcome Thread Account) where
  start :=
    ⟨({ Worker.initial conf with position := .retry, counted := 1 } : Worker).retry conf,
      (ClusterExecute.initial conf).retry conf⟩
  step state outcome := ⟨state.worker.meets conf outcome, state.main.meets conf outcome⟩

/-- Both loops contact the same host next, have counted the same attempts and agree on
whether to go on or to end.
-/
def SameDecision (state : Lockstep) : Prop := state.worker.decision = state.main.decision

/-- The classes that only worker_func repairs, apart from the deadlock. -/
def DbError.OnlyWorker (error : DbError) : Prop :=
  error ∈ [DbError.readOnlyTransaction, .protocol, .connectionFailure, .connectionReset]

/-- A deadlock that worker_func repairs: its ROLLBACK goes through or finds no transaction. -/
def RepairedDeadlock (error : DbError) (rollback : Option DbError) : Prop :=
  error = .deadlock ∧ (rollback = none ∨ rollback = some .noActiveTransaction)

/-- The call raises a class that only worker_func repairs; or the name is set and the
question for the backend's number, which only worker_func asks, raises anything but a
repaired deadlock. A deadlock needs a connection, and without a host there is no call.
-/
def Decision.GoesApart (decision : Decision) (outcome pid rollback : Option DbError)
    : Prop :=
  match decision.call with
  | .opens => decision.dbHosts ≠ [] ∧ ∃ error ∈ outcome, error.OnlyWorker
  | .setsName =>
      (∃ error ∈ outcome, error.OnlyWorker ∨ RepairedDeadlock error rollback)
      ∨ outcome = none ∧ ∃ error ∈ pid, ¬ RepairedDeadlock error rollback
  | .runsTask => ∃ error ∈ outcome, error.OnlyWorker ∨ RepairedDeadlock error rollback
  | .finished | .escaped => False

-----------------------------------------------------------------------------------------
-- One retry loop for both lists of clauses
-----------------------------------------------------------------------------------------

/-- Connect again, to the next host once the attempts are used up. -/
def Decision.reconnect (conf : Conf) (dbHosts : List String) (reconnectAttempt : Nat)
    : Decision :=
  if reconnectAttempt < conf.reconnectAttempt then
    ⟨.opens, dbHosts, reconnectAttempt⟩
  else
    ⟨.opens, switchHost dbHosts, 0⟩

/-- What a clause decides about an exception; without a connection the ROLLBACK of a deadlock
is an AttributeError.
-/
def Decision.repair (conf : Conf) (clauses : List ExceptClause) (rollback : Option DbError)
    (decision : Decision) (error : DbError)
    : Decision :=
  match repairOf clauses error with
  | some .rollback =>
      { decision with
        call :=
          if decision.call ≠ .opens ∧ (rollback = none ∨ rollback = some .noActiveTransaction)
          then .runsTask
          else .escaped }
  | some .switchHost => reconnect conf (switchHost decision.dbHosts) decision.reconnectAttempt
  | some .returnOrReconnect | some .reconnect =>
      reconnect conf decision.dbHosts decision.reconnectAttempt
  | some .countAndReconnect => reconnect conf decision.dbHosts (decision.reconnectAttempt + 1)
  | none => { decision with call := .escaped }

/-- The retry loop with given clauses, from one call to the next. The question for the
backend's number stands behind the naming of the connection.
-/
def Decision.next (conf : Conf) (clauses : List ExceptClause)
    (outcome pid rollback : Option DbError) (decision : Decision)
    : Decision :=
  match decision.call, outcome with
  | .finished, _ | .escaped, _ => decision
  | .opens, none =>
      { decision with call := if decision.dbHosts = [] then .escaped else .setsName }
  | .opens, some error =>
      if decision.dbHosts = [] then
        { decision with call := .escaped }
      else
        decision.repair conf clauses rollback error
  | .setsName, none =>
      match pid with
      | none => { decision with call := .runsTask }
      | some error => decision.repair conf clauses rollback error
  | .runsTask, none => { decision with call := .finished }
  | .setsName, some error | .runsTask, some error =>
      decision.repair conf clauses rollback error

/-- Between two calls a loop stands at the second, with a connection exactly behind an open. -/
structure Worker.Settled (worker : Worker) : Prop where
  place
    : worker.position = .opening ∨ worker.position = .naming ∨ worker.position = .executing
      ∨ worker.position = .loopTest ∨ worker.position = .escaped
  unconnected : worker.position = .opening → worker.dbLocal = none
  connected : worker.position = .naming ∨ worker.position = .executing → worker.dbLocal ≠ none

structure ClusterExecute.Settled (main : ClusterExecute) : Prop where
  place
    : main.position = .opening ∨ main.position = .naming ∨ main.position = .calling
      ∨ main.position = .returned ∨ main.position = .escaped
  connected : main.position = .naming ∨ main.position = .calling → main.dbLocal ≠ none

variable {conf : Conf}

/-- The head of the inner loop without a connection decides to connect again. -/
theorem Worker.retry_reconnects (conf : Conf) {worker : Worker}
    (unconnected : worker.dbLocal = none)
    : (worker.retry conf).Settled
      ∧ (worker.retry conf).decision
        = .reconnect conf worker.dbHosts worker.reconnectAttempt := by
  unfold Worker.retry Decision.reconnect
  by_cases few : worker.reconnectAttempt < conf.reconnectAttempt
    <;> simp only [unconnected, few, if_true, if_false]
    <;> exact ⟨⟨.inl rfl, fun _ => rfl, by simp⟩, rfl⟩

theorem Worker.between_settled {worker : Worker} (settled : worker.Settled)
    (outcome : Outcome Thread Account)
    : worker.between conf outcome = worker := by
  rcases settled.place with stands | stands | stands | stands | stands
    <;> simp [Worker.between, stands]

theorem Worker.settle_settled {worker : Worker} (settled : worker.Settled)
    (outcome : Outcome Thread Account)
    : worker.settle conf outcome = worker := by
  simp only [Worker.settle, Worker.recover, between_settled settled]

theorem Worker.recover_retry {worker : Worker} (stands : worker.position = .retry)
    (unconnected : worker.dbLocal = none) (outcome : Outcome Thread Account)
    : worker.recover conf outcome = worker.retry conf := by
  have first : worker.between conf outcome = worker.retry conf := by
    simp [Worker.between, Worker.step, stands]
  have settled := (worker.retry_reconnects conf unconnected).1
  simp only [Worker.recover, first, between_settled settled]

theorem Worker.recover_returnTest {worker : Worker} (stands : worker.position = .returnTest)
    (outcome : Outcome Thread Account)
    : worker.recover conf outcome
      = ({ worker with position := .retry, dbLocal := none } : Worker).retry conf := by
  have first : worker.between conf outcome
      = { worker with position := .retry, dbLocal := none } := by
    simp [Worker.between, Worker.step, stands, outcome.running]
  rw [Worker.recover, first]
  simp [Worker.between, Worker.step]

/-- A deadlock keeps the connection, if there is one and the ROLLBACK goes through or finds
no transaction.
-/
theorem Worker.recover_rollback {worker : Worker} (stands : worker.position = .rollback)
    (outcome : Outcome Thread Account)
    : worker.recover conf outcome
      = { worker with
          position :=
            if worker.dbLocal ≠ none
                ∧ (outcome.rollback.error? = none
                  ∨ outcome.rollback.error? = some .noActiveTransaction) then
              .executing
            else .escaped } := by
  cases connected : worker.dbLocal with
  | none => simp [Worker.recover, Worker.between, Worker.step, stands, connected]
  | some conn =>
      have first : worker.between conf outcome
          = { worker with
              position :=
                if outcome.rollback.error? = none
                    ∨ outcome.rollback.error? = some .noActiveTransaction then
                  .retry
                else .escaped } := by
        cases ended : outcome.rollback.error? with
        | none => simp [Worker.between, Worker.step, stands, connected, Outcome.answerAt, ended]
        | some error =>
            by_cases idle : error = .noActiveTransaction
              <;> simp [Worker.between, Worker.step, stands, connected, Outcome.answerAt,
                ended, idle]
      rw [Worker.recover, first]
      by_cases passes : outcome.rollback.error? = none
          ∨ outcome.rollback.error? = some .noActiveTransaction
        <;> simp [Worker.between, Worker.step, connected, Worker.retry, passes]

/-- The loop waits for a call, with a connection exactly behind an open. -/
inductive Worker.Calls (worker : Worker) : Prop where
  | opening (stands : worker.position = .opening) (unconnected : worker.dbLocal = none)
  | naming (stands : worker.position = .naming) (connected : worker.dbLocal ≠ none)
  | executing (stands : worker.position = .executing) (connected : worker.dbLocal ≠ none)

theorem Worker.Calls.opens_iff {worker : Worker} (calls : worker.Calls)
    : worker.decision.call = .opens ↔ worker.dbLocal = none := by
  cases calls with
  | opening stands unconnected => simp [decision, stands, unconnected]
  | naming stands connected | executing stands connected =>
      simp [decision, stands, connected]

/-- The clauses do not look at the position that an exception comes from. -/
theorem Worker.except_askingPid (worker : Worker) (error : DbError)
    : ({ worker with position := .askingPid } : Worker).except error = worker.except error := by
  cases error <;> rfl

/-- An exception leads to what the clauses of worker_func decide, by cases on its repair. -/
theorem Worker.recover_except (conf : Conf) {worker : Worker} (calls : worker.Calls)
    (outcome : Outcome Thread Account) (error : DbError)
    : ((worker.except error).recover conf outcome).Settled
      ∧ ((worker.except error).recover conf outcome).decision
        = worker.decision.repair conf workerFuncClauses outcome.rollback.error? error := by
  have opens := calls.opens_iff
  unfold Worker.except Decision.repair
  cases repaired : repairOf workerFuncClauses error with
  | none =>
      have escaped : ({ worker with position := .escaped } : Worker).Settled :=
        ⟨by simp, by simp, by simp⟩
      simp only [Worker.recover, between_settled escaped]
      exact ⟨escaped, rfl⟩
  | some repair =>
      cases repair with
      | rollback =>
          simp only [ne_eq, opens]
          rw [recover_rollback rfl]
          by_cases goesOn : worker.dbLocal ≠ none
              ∧ (outcome.rollback.error? = none
                ∨ outcome.rollback.error? = some .noActiveTransaction)
          · rw [if_pos goesOn, if_pos goesOn]
            exact ⟨⟨by simp, by simp, fun _ => goesOn.1⟩, rfl⟩
          · rw [if_neg goesOn, if_neg goesOn]
            exact ⟨⟨by simp, by simp, by simp⟩, rfl⟩
      | returnOrReconnect =>
          simp only
          rw [recover_returnTest rfl]
          exact retry_reconnects conf rfl
      | switchHost | reconnect | countAndReconnect =>
          simp only
          rw [recover_retry rfl rfl]
          exact retry_reconnects conf rfl

/-- The third step finds the loop at its next call. -/
theorem Worker.settle_except (conf : Conf) {worker : Worker} (calls : worker.Calls)
    (outcome : Outcome Thread Account) (error : DbError)
    : ((worker.except error).settle conf outcome).Settled
      ∧ ((worker.except error).settle conf outcome).decision
        = worker.decision.repair conf workerFuncClauses outcome.rollback.error? error := by
  have recovers := recover_except conf calls outcome error
  have same : (worker.except error).settle conf outcome
      = (worker.except error).recover conf outcome :=
    between_settled recovers.1 outcome
  rw [same]
  exact recovers

/-- Behind the naming worker_func asks for the backend's number, and an exception there is
repaired like one of the naming itself.
-/
theorem Worker.settle_askingPid (conf : Conf) {worker : Worker}
    (stands : worker.position = .naming) {conn : Conn} (connected : worker.dbLocal = some conn)
    (outcome : Outcome Thread Account)
    : (({ worker with position := .askingPid } : Worker).settle conf outcome).Settled
      ∧ (({ worker with position := .askingPid } : Worker).settle conf outcome).decision
        = match outcome.pid.error? with
          | none => { worker.decision with call := .runsTask }
          | some error =>
              worker.decision.repair conf workerFuncClauses outcome.rollback.error?
                error := by
  cases asked : outcome.pid.error? with
  | none =>
      have asks
          : ({ worker with position := .askingPid } : Worker).settle conf outcome
            = { worker with position := .executing, registered := true } := by
        simp [settle, recover, between, step, Outcome.answerAt, asked, connected]
      rw [asks]
      exact ⟨⟨by simp, by simp, fun _ => by simp [connected]⟩, rfl⟩
  | some error =>
      have raises
          : ({ worker with position := .askingPid } : Worker).settle conf outcome
            = (worker.except error).recover conf outcome := by
        have asks
            : ({ worker with position := .askingPid } : Worker).between conf outcome
              = worker.except error := by
          simpa [between, step, Outcome.answerAt, asked] using except_askingPid worker error
        rw [settle, asks]
      rw [raises]
      exact recover_except conf (.naming stands (by simp [connected])) outcome error

/-- The inner loop of worker_func is the retry loop with its clauses, by cases on the call. -/
theorem Worker.meets_next (conf : Conf) {worker : Worker} (settled : worker.Settled)
    (outcome : Outcome Thread Account)
    : (worker.meets conf outcome).Settled
      ∧ (worker.meets conf outcome).decision
        = worker.decision.next conf workerFuncClauses outcome.reply.answer.error?
            outcome.pid.error? outcome.rollback.error? := by
  have excepts : worker.Calls → _ := fun calls => settle_except conf calls outcome
  rcases settled.place with stands | stands | stands | stands | stands
  · have waits := Calls.opening stands (settled.unconnected stands)
    have opens : worker.decision.call = .opens := by simp [decision, stands]
    have hosts : worker.decision.dbHosts = worker.dbHosts := rfl
    simp only [meets, step, stands, Decision.next, opens, hosts]
    cases contacts : worker.dbHosts with
    | nil =>
        have escaped : ({ worker with position := .escaped, dbHosts := [] } : Worker).Settled :=
          ⟨by simp, by simp, by simp⟩
        simp only [settle_settled escaped, if_true]
        refine ⟨escaped, ?_⟩
        cases outcome.reply.answer.error? <;> simp [decision, contacts]
    | cons host rest =>
        cases outcome.reply.answer.error? with
        | some error => simpa using excepts waits error
        | none =>
            have named
                : ({ worker with
                      position := .naming, dbLocal := some outcome.reply.conn,
                      dbHosts := host :: rest, registered := false } : Worker).Settled :=
              ⟨by simp, by simp, by simp⟩
            simp only [settle_settled named]
            exact ⟨named, by simp [decision, contacts]⟩
  · have waits := Calls.naming stands (settled.connected (.inl stands))
    have names : worker.decision.call = .setsName := by simp [decision, stands]
    simp only [meets, step, stands, Decision.next, names]
    cases outcome.reply.answer.error? with
    | some error => exact excepts waits error
    | none =>
        obtain ⟨conn, connected⟩ :=
          Option.ne_none_iff_exists'.mp (settled.connected (.inl stands))
        exact settle_askingPid conf stands connected outcome
  · have waits := Calls.executing stands (settled.connected (.inr stands))
    have runs : worker.decision.call = .runsTask := by simp [decision, stands]
    obtain ⟨transfer, rows⟩ := Option.ne_none_iff_exists'.mp outcome.rows
    simp only [meets, step, stands, execute, rows, Decision.next, runs]
    cases outcome.reply.answer with
    | raises error => exact excepts waits error
    | commitsThenRaises error => exact excepts waits error
    | succeeds =>
        have finished : ({ worker with position := .loopTest } : Worker).Settled :=
          ⟨by simp, by simp, by simp⟩
        simp only [settle_settled finished]
        exact ⟨finished, rfl⟩
  · have finished : worker.decision.call = .finished := by simp [decision, stands]
    simpa only [meets, stands, Decision.next, finished, and_true] using settled
  · have escaped : worker.decision.call = .escaped := by simp [decision, stands]
    simpa only [meets, stands, Decision.next, escaped, and_true] using settled

theorem ClusterExecute.retry_reconnects (conf : Conf) {main : ClusterExecute}
    (unconnected : main.dbLocal = none)
    : (main.retry conf).Settled
      ∧ (main.retry conf).decision
        = .reconnect conf main.dbHosts main.reconnectAttempt := by
  unfold ClusterExecute.retry Decision.reconnect
  by_cases few : main.reconnectAttempt < conf.reconnectAttempt
    <;> simp only [unconnected, few, if_true, if_false]
    <;> exact ⟨⟨.inl rfl, by simp⟩, rfl⟩

theorem ClusterExecute.settle_settled {main : ClusterExecute} (settled : main.Settled)
    (outcome : Outcome Thread Account)
    : main.settle conf outcome = main := by
  rcases settled.place with stands | stands | stands | stands | stands
    <;> simp [settle, stands]

theorem ClusterExecute.settle_retry {main : ClusterExecute} (stands : main.position = .retry)
    (outcome : Outcome Thread Account)
    : main.settle conf outcome = main.retry conf := by
  simp [settle, step, stands]

/-- An exception leads to what the clauses of cluster_specific_execute decide. -/
theorem ClusterExecute.settle_except (conf : Conf) (main : ClusterExecute)
    (outcome : Outcome Thread Account) (error : DbError)
    : ((main.except error).settle conf outcome).Settled
      ∧ ((main.except error).settle conf outcome).decision
        = main.decision.repair conf clusterSpecificExecuteClauses outcome.rollback.error?
            error := by
  unfold ClusterExecute.except Decision.repair
  cases repaired : repairOf clusterSpecificExecuteClauses error with
  | none =>
      have escaped : ({ main with position := .escaped } : ClusterExecute).Settled :=
        ⟨by simp, by simp⟩
      simp only [settle_settled escaped]
      exact ⟨escaped, rfl⟩
  | some repair =>
      rcases repairOf_clusterSpecificExecute_eq_some repaired with ⟨rfl, _⟩ | ⟨rfl, _⟩
      all_goals
        simp only
        rw [settle_retry rfl]
        exact retry_reconnects conf rfl

/-- cluster_specific_execute is the retry loop with its own clauses, by cases on the call. -/
theorem ClusterExecute.meets_next (conf : Conf) {main : ClusterExecute}
    (settled : main.Settled) (outcome : Outcome Thread Account)
    : (main.meets conf outcome).Settled
      ∧ (main.meets conf outcome).decision
        = main.decision.next conf clusterSpecificExecuteClauses outcome.reply.answer.error?
            none outcome.rollback.error? := by
  have excepts := main.settle_except conf outcome
  rcases settled.place with stands | stands | stands | stands | stands
  · have opens : main.decision.call = .opens := by simp [decision, stands]
    have hosts : main.decision.dbHosts = main.dbHosts := rfl
    simp only [meets, step, stands, Decision.next, opens, hosts]
    cases contacts : main.dbHosts with
    | nil =>
        have escaped
            : ({ main with position := .escaped, dbHosts := [] } : ClusterExecute).Settled :=
          ⟨by simp, by simp⟩
        simp only [settle_settled escaped, if_true]
        refine ⟨escaped, ?_⟩
        cases outcome.reply.answer.error? <;> simp [decision, contacts]
    | cons host rest =>
        cases outcome.reply.answer.error? with
        | some error => simpa using excepts error
        | none =>
            have named
                : ({ main with
                      position := .naming, dbLocal := some outcome.reply.conn,
                      dbHosts := host :: rest } : ClusterExecute).Settled :=
              ⟨by simp, by simp⟩
            simp only [settle_settled named]
            exact ⟨named, by simp [decision, contacts]⟩
  · have names : main.decision.call = .setsName := by simp [decision, stands]
    simp only [meets, step, stands, Decision.next, names]
    cases outcome.reply.answer.error? with
    | some error => exact excepts error
    | none =>
        have called : ({ main with position := .calling } : ClusterExecute).Settled :=
          ⟨by simp, fun _ => settled.connected (.inl stands)⟩
        simp only [settle_settled called]
        exact ⟨called, rfl⟩
  · have runs : main.decision.call = .runsTask := by simp [decision, stands]
    simp only [meets, step, stands, Decision.next, runs]
    cases outcome.reply.answer.error? with
    | some error => exact excepts error
    | none =>
        obtain ⟨conn, connected⟩ :=
          Option.ne_none_iff_exists'.mp (settled.connected (.inr stands))
        have closes
            : ({ main with position := .closing } : ClusterExecute).settle conf outcome
              = { main with position := .returned } := by
          simp [settle, step, connected]
        simp only [closes]
        exact ⟨⟨by simp, by simp⟩, rfl⟩
  · have finished : main.decision.call = .finished := by simp [decision, stands]
    simpa only [meets, stands, Decision.next, finished, and_true] using settled
  · have escaped : main.decision.call = .escaped := by simp [decision, stands]
    simpa only [meets, stands, Decision.next, escaped, and_true] using settled

-----------------------------------------------------------------------------------------
-- Where the two lists of clauses decide alike
-----------------------------------------------------------------------------------------

theorem Decision.reconnect_call (conf : Conf) (dbHosts : List String) (reconnectAttempt : Nat)
    : (reconnect conf dbHosts reconnectAttempt).call = .opens := by
  unfold reconnect
  split <;> rfl

/-- The clauses repair an exception alike unless only worker_func repairs its class. -/
theorem Decision.repair_eq_iff (conf : Conf) (decision : Decision)
    (rollback : Option DbError) (error : DbError)
    : decision.repair conf workerFuncClauses rollback error
      = decision.repair conf clusterSpecificExecuteClauses rollback error
      ↔ (RepairedDeadlock error rollback → decision.call = .opens) ∧ ¬ error.OnlyWorker := by
  have goesOn
      : ∀ dbHosts reconnectAttempt,
          reconnect conf dbHosts reconnectAttempt ≠ { decision with call := .escaped } := by
    intro dbHosts reconnectAttempt same
    have opens := reconnect_call conf dbHosts reconnectAttempt
    simp [same] at opens
  by_cases deadlock : error = .deadlock
  · subst deadlock
    by_cases opens : decision.call = .opens
      <;> by_cases passes : rollback = none ∨ rollback = some .noActiveTransaction
      <;> simp [repair, repairOf, workerFuncClauses, clusterSpecificExecuteClauses,
        RepairedDeadlock, DbError.OnlyWorker, opens, passes]
  · cases error
      <;> simp_all [repair, repairOf, workerFuncClauses, clusterSpecificExecuteClauses,
        RepairedDeadlock, DbError.OnlyWorker]

/-- The repair of worker_func leads to the execution of the task only behind a repaired
deadlock.
-/
theorem Decision.repair_runsTask_iff (conf : Conf) {decision : Decision}
    (names : decision.call = .setsName) (rollback : Option DbError) (error : DbError)
    : decision.repair conf workerFuncClauses rollback error
        = { decision with call := .runsTask }
      ↔ RepairedDeadlock error rollback := by
  have goesOn
      : ∀ dbHosts reconnectAttempt,
          reconnect conf dbHosts reconnectAttempt ≠ { decision with call := .runsTask } := by
    intro dbHosts reconnectAttempt same
    have opens := reconnect_call conf dbHosts reconnectAttempt
    simp [same] at opens
  by_cases passes : rollback = none ∨ rollback = some .noActiveTransaction
    <;> cases error
    <;> simp [repair, repairOf, workerFuncClauses, RepairedDeadlock, names, passes, goesOn]

/-- From equal decisions the two loops go apart exactly there, by cases on the call. -/
theorem Decision.next_eq_iff (conf : Conf) (decision : Decision)
    (outcome pid rollback : Option DbError)
    : decision.next conf workerFuncClauses outcome pid rollback
      = decision.next conf clusterSpecificExecuteClauses outcome none rollback
      ↔ ¬ decision.GoesApart outcome pid rollback := by
  unfold next GoesApart
  cases outcome with
  | none =>
      cases calls : decision.call with
      | setsName =>
          cases pid with
          | none => simp
          | some error =>
              have alike := repair_runsTask_iff conf calls rollback error
              simpa using alike
      | opens | runsTask | finished | escaped => simp
  | some error =>
      have alike := decision.repair_eq_iff conf rollback error
      cases calls : decision.call with
      | opens =>
          by_cases unconfigured : decision.dbHosts = []
          · simp [unconfigured]
          · simpa [unconfigured, calls] using alike
      | setsName | runsTask =>
          simp [calls] at alike ⊢
          rw [alike]
          tauto
      | finished | escaped => simp

/-- Both loops stand between two calls. -/
def Lockstep.Settled (state : Lockstep) : Prop := state.worker.Settled ∧ state.main.Settled

variable (Thread Account) in
theorem lockstep_start (conf : Conf)
    : (lockstep Thread Account conf).start.Settled
      ∧ SameDecision (lockstep Thread Account conf).start := by
  have worker :=
    ({ Worker.initial conf with position := .retry, counted := 1 } : Worker).retry_reconnects
      conf rfl
  have main := (ClusterExecute.initial conf).retry_reconnects conf rfl
  exact ⟨⟨worker.1, main.1⟩, worker.2.trans main.2.symm⟩

/-- The two loops make the same decisions along a run exactly when no call in it raises a
class that only worker_func repairs, nor the question for the backend's number anything but
a repaired deadlock.
-/
theorem sameDecision_iff (conf : Conf) (outcomes : List (Outcome Thread Account))
    : (lockstep Thread Account conf).Always SameDecision
        (lockstep Thread Account conf).start outcomes
      ↔ (lockstep Thread Account conf).Each
          (fun state outcome =>
            ¬ state.worker.decision.GoesApart outcome.reply.answer.error? outcome.pid.error?
                outcome.rollback.error?)
          (lockstep Thread Account conf).start outcomes := by
  have start := lockstep_start Thread Account conf
  refine Machine.always_iff_each Lockstep.Settled ?_ ?_ start.1 start.2 outcomes
  · intro state outcome settled
    exact ⟨(Worker.meets_next conf settled.1 outcome).1,
      (ClusterExecute.meets_next conf settled.2 outcome).1⟩
  · intro state outcome settled same
    have worker := (Worker.meets_next conf settled.1 outcome).2
    have main := (ClusterExecute.meets_next conf settled.2 outcome).2
    have alike := state.worker.decision.next_eq_iff conf outcome.reply.answer.error?
      outcome.pid.error? outcome.rollback.error?
    simp only [SameDecision, lockstep, worker, main]
    rw [← show state.worker.decision = state.main.decision from same]
    exact alike

def exampleOutcome {Thread : Type*} (thread : Thread) (answer : Answer)
    : Outcome Thread (Fin 2) where
  thread := thread
  shared := .initial Thread (Fin 2)
  running := rfl
  reply := exampleReply answer
  rows := Option.some_ne_none _
  pid := .succeeds
  rollback := .succeeds

/-- The connection is lost during the body and everything succeeds afterwards: worker_func
has done its task, the main thread has ended with the exception.
-/
theorem sameDecision_connectionFailure
    : let test := lockstep (Fin 1) (Fin 2) (exampleConf 1 ["node1", "node2"])
      let outcomes := [.succeeds, .succeeds, .raises .connectionFailure, .succeeds, .succeeds,
        .succeeds].map (exampleOutcome 0)
      (test.run outcomes).worker.decision.call = .finished
      ∧ (test.run outcomes).main.position = .escaped
      ∧ ¬ test.Always SameDecision test.start outcomes := by
  intro test outcomes
  refine ⟨by decide, by decide, ?_⟩
  intro always
  exact absurd (congrArg Decision.call always.last) (by decide)

end PgCluster.Backend
