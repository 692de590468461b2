/-! The exception classes of the driver that the test backend handles, and its except
clauses with what each of them does.
-/

namespace PgCluster.Backend

/-- The classes that some clause of worker_func names; none is a subclass of another. -/
inductive DbError where
  | deadlock
  | noActiveTransaction
  | readOnlyTransaction
  | queryCanceled
  | adminShutdown
  | crashShutdown
  | serverNotReady
  | clientCannotConnect
  | protocol
  | connectionFailure
  | connectionReset
deriving DecidableEq, Repr

/-- The body of an except clause. -/
inductive Repair where
  | rollback
  | switchHost
  | returnOrReconnect
  | reconnect
  | countAndReconnect
deriving DecidableEq, Repr

structure ExceptClause where
  classes : List DbError
  repair : Repair

/-- The clauses behind the try block of worker_func; NoActiveTransactionError is named only
by the clause around its ROLLBACK statement.
-/
def workerFuncClauses : List ExceptClause := [
  ⟨[.deadlock], .rollback⟩,
  ⟨[.readOnlyTransaction], .switchHost⟩,
  ⟨[.queryCanceled, .adminShutdown, .crashShutdown, .serverNotReady], .returnOrReconnect⟩,
  ⟨[.clientCannotConnect, .protocol, .connectionFailure, .connectionReset],
    .countAndReconnect⟩]

/-- The clauses behind the try block of cluster_specific_execute. -/
def clusterSpecificExecuteClauses : List ExceptClause := [
  ⟨[.queryCanceled, .adminShutdown, .crashShutdown, .serverNotReady], .reconnect⟩,
  ⟨[.clientCannotConnect], .countAndReconnect⟩]

/-- The first clause that names the class of an exception takes it. -/
def repairOf (clauses : List ExceptClause) (error : DbError) : Option Repair :=
  (clauses.find? (fun clause => error ∈ clause.classes)).map (·.repair)

/-- What both copies repair, they repair alike, up to the test of is_terminate. -/
theorem repairOf_clusterSpecificExecute_eq_some {error : DbError} {repair : Repair}
    (repaired : repairOf clusterSpecificExecuteClauses error = some repair)
    : repair = .reconnect ∧ repairOf workerFuncClauses error = some .returnOrReconnect
      ∨ repair = .countAndReconnect
        ∧ repairOf workerFuncClauses error = some .countAndReconnect := by
  cases error <;> revert repaired <;> cases repair <;> decide

end PgCluster.Backend
