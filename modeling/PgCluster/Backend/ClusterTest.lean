import PgCluster.Backend.Worker
import PgCluster.Foundation.Machine
import PgCluster.Foundation.Threads

/-! The running test: the workers over the globals they share, a stop request at any time,
and failovers to a standby that lacks the last commits.
-/

namespace PgCluster.Backend

open Foundation

inductive Label (Thread Account : Type*) [Fintype Account] where
  | work (thread : Thread) (reply : Reply Account)
  | requestStop
  | failover (kept : Nat)

variable {Thread Account : Type*} [DecidableEq Thread] [Fintype Account]

abbrev TestState (Thread Account : Type*) := Threads Thread Worker (Shared Thread Account)

def TestState.step (conf : Conf) (state : TestState Thread Account)
    : Label Thread Account → TestState Thread Account
  | .work thread reply => state.advance thread (Worker.step conf thread reply)
  | .requestStop => { state with shared := { state.shared with isTerminate := true } }
  | .failover kept =>
      { state with
        shared := { state.shared with committed := state.shared.committed.take kept } }

variable (Thread Account) in
/-- The workers as the main thread starts them. -/
def clusterTest (conf : Conf) : Machine (TestState Thread Account) (Label Thread Account) where
  start := ⟨fun _ => .initial conf, .initial Thread Account⟩
  step := TestState.step conf

variable {conf : Conf}

@[simp] theorem clusterTest_work (state : TestState Thread Account) (thread : Thread)
    (reply : Reply Account)
    : (clusterTest Thread Account conf).step state (.work thread reply)
      = state.advance thread (Worker.step conf thread reply) := rfl

@[simp] theorem clusterTest_requestStop (state : TestState Thread Account)
    : (clusterTest Thread Account conf).step state .requestStop
      = { state with shared := { state.shared with isTerminate := true } } := rfl

@[simp] theorem clusterTest_failover (state : TestState Thread Account) (kept : Nat)
    : (clusterTest Thread Account conf).step state (.failover kept)
      = { state with
          shared := { state.shared with committed := state.shared.committed.take kept } } :=
  rfl

/-- No commit is taken back. -/
def Label.KeepsCommits : Label Thread Account → Prop
  | .failover _ => False
  | _ => True

/-- A step of a worker whose call, if it makes one, succeeds. -/
def Label.Succeeds : Label Thread Account → Prop
  | .work _ reply => reply.answer = .succeeds
  | _ => False

omit [DecidableEq Thread] in
/-- Only the workers' steps call the database. -/
theorem Label.Succeeds.work {label : Label Thread Account} (succeeds : label.Succeeds)
    : ∃ thread reply, label = .work thread reply ∧ reply.answer = .succeeds := by
  cases label with
  | work thread reply => exact ⟨thread, reply, rfl, succeeds⟩
  | requestStop | failover _ => exact False.elim succeeds

/-- The increments that all threads have made. -/
def TestState.counted [Fintype Thread] (state : TestState Thread Account) : Nat :=
  ∑ thread, (state.own thread).counted

/-- A configuration to run the test by hand. -/
def exampleConf (operations : Int) (hosts : List String) : Conf where
  operations := operations
  accounts := 2
  reconnectAttempt := 3
  dbsDict := hosts.map (fun host => (host, host))

/-- Both rows of two accounts, and an answer to any call. -/
def exampleReply (answer : Answer) : Reply (Fin 2) where
  conn := ⟨"node1", 100, 0⟩
  selection := ⟨[0, 1], by decide, by decide⟩
  amount := 150
  answer := answer

end PgCluster.Backend
