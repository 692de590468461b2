import PgCluster.Backend.Handlers
import PgCluster.Foundation.OrderedDict
import Mathlib.Data.Fintype.Card

/-! One step of worker_func: each read and each write of a global and each call of the
database is a step of its own.
-/

namespace PgCluster.Backend

open Foundation

/-- What the backend reads from its command line and its configuration file. -/
structure Conf where
  operations : Int
  accounts : Int
  reconnectAttempt : Int
  dbsDict : List (String × String)
deriving DecidableEq, Repr

/-- db_hosts as each thread builds it, the first host in front. -/
def Conf.dbHosts (conf : Conf) : List String := conf.dbsDict.map Prod.snd

/-- popleft, then append. -/
def switchHost : List String → List String
  | [] => []
  | invalidHost :: rest => rest ++ [invalidHost]

/-- A connection object; the serial number tells objects apart, and the server numbers its
own backends.
-/
structure Conn where
  server : String
  pid : Nat
  serial : Nat
deriving DecidableEq, Repr

-----------------------------------------------------------------------------------------
-- The task of an operation
-----------------------------------------------------------------------------------------

/-- The answer to `ORDER BY random() LIMIT 2`. -/
structure Selection (Account : Type*) [Fintype Account] where
  rows : List Account
  distinct : rows.Nodup
  size : rows.length = min 2 (Fintype.card Account)

/-- A transfer of a number of cents; the receiver is paid one unit on top. -/
structure Transfer (Account : Type*) where
  fromAccount : Account
  toAccount : Account
  amount : Int
deriving DecidableEq, Repr

/-- result[0] and result[1]; with fewer rows the subscript raises an IndexError. -/
def transferOf {Account : Type*} (rows : List Account) (amount : Int)
    : Option (Transfer Account) :=
  match rows with
  | fromAccount :: toAccount :: _ => some ⟨fromAccount, toAccount, amount⟩
  | _ => none

/-- How a call of the database ends; a COMMIT may be carried out and still raise. -/
inductive Answer where
  | succeeds
  | raises (error : DbError)
  | commitsThenRaises (error : DbError)
deriving DecidableEq, Repr

def Answer.error? : Answer → Option DbError
  | .succeeds => none
  | .raises error | .commitsThenRaises error => some error

/-- The server has committed although the call raises. -/
def Answer.hidesCommit : Answer → Bool
  | .commitsThenRaises _ => true
  | _ => false

/-- What the environment answers to the next call, whichever it is. -/
structure Reply (Account : Type*) [Fintype Account] where
  conn : Conn
  selection : Selection Account
  amount : Int
  answer : Answer

def Reply.transfer {Account : Type*} [Fintype Account] (reply : Reply Account)
    : Option (Transfer Account) :=
  transferOf reply.selection.rows reply.amount

-----------------------------------------------------------------------------------------
-- State
-----------------------------------------------------------------------------------------

/-- The next atomic step of a thread that runs worker_func. -/
inductive Position where
  | loopTest
  | stopTest
  | load
  | store (seen : Nat)
  | retry
  | opening
  | naming
  | askingPid
  | registering (currentPid : Nat)
  | executing
  | rollback
  | returnTest
  | closing
  | returned
  | escaped
deriving DecidableEq, Repr

/-- The local variables, and as ghosts the number of increments the thread has made and
whether it has put its connection into db_conns.
-/
structure Worker where
  position : Position
  dbLocal : Option Conn
  reconnectAttempt : Nat
  dbHosts : List String
  counted : Nat
  registered : Bool
deriving DecidableEq, Repr

def Worker.initial (conf : Conf) : Worker where
  position := .loopTest
  dbLocal := none
  reconnectAttempt := 0
  dbHosts := conf.dbHosts
  counted := 0
  registered := false

def Position.Ended (position : Position) : Prop :=
  position = .returned ∨ position = .escaped

instance (position : Position) : Decidable position.Ended :=
  inferInstanceAs (Decidable (_ ∨ _))

/-- An operation has been counted and is not done. -/
def Position.Attempting : Position → Prop
  | .retry | .opening | .naming | .askingPid | .registering _ | .executing | .rollback
  | .returnTest => True
  | _ => False

/-- Behind an open the thread has its connection. -/
def Worker.Connected (worker : Worker) : Prop :=
  worker.dbLocal = none
  → worker.position ≠ .naming
    ∧ worker.position ≠ .askingPid
    ∧ ∀ currentPid, worker.position ≠ .registering currentPid

/-- A committed transaction of execute_task: the increment it was started for, by thread and
number, and whether the thread was told of the commit.
-/
structure Applied (Thread Account : Type*) where
  thread : Thread
  operation : Nat
  transfer : Transfer Account
  acknowledged : Bool
deriving DecidableEq, Repr

/-- CLUSTERTESTGlobal with db_conns in insertion order, and the server's commits. -/
structure Shared (Thread Account : Type*) where
  operationNum : Nat
  isTerminate : Bool
  dbConns : List (Nat × Conn)
  committed : List (Applied Thread Account)
deriving DecidableEq, Repr

def Shared.initial (Thread Account : Type*) : Shared Thread Account where
  operationNum := 0
  isTerminate := false
  dbConns := []
  committed := []

-----------------------------------------------------------------------------------------
-- Steps
-----------------------------------------------------------------------------------------

/-- The except clauses behind the try block, up to their next call or read of a global. -/
def Worker.except (worker : Worker) (error : DbError) : Worker :=
  match repairOf workerFuncClauses error with
  | some .rollback => { worker with position := .rollback }
  | some .switchHost =>
      { worker with position := .retry, dbLocal := none, dbHosts := switchHost worker.dbHosts }
  | some .returnOrReconnect => { worker with position := .returnTest }
  | some .reconnect => { worker with position := .retry, dbLocal := none }
  | some .countAndReconnect =>
      { worker with
        position := .retry, dbLocal := none, reconnectAttempt := worker.reconnectAttempt + 1 }
  | none => { worker with position := .escaped }

/-- The head of the inner loop: keep the connection, connect again or to another host. -/
def Worker.retry (conf : Conf) (worker : Worker) : Worker :=
  match worker.dbLocal with
  | some _ => { worker with position := .executing }
  | none =>
      if worker.reconnectAttempt < conf.reconnectAttempt then
        { worker with position := .opening }
      else
        { worker with
          position := .opening, dbHosts := switchHost worker.dbHosts, reconnectAttempt := 0 }

variable {Thread Account : Type*} [Fintype Account]

def Shared.commit (shared : Shared Thread Account) (thread : Thread) (operation : Nat)
    (transfer : Transfer Account) (acknowledged : Bool)
    : Shared Thread Account :=
  { shared with
    committed := shared.committed ++ [⟨thread, operation, transfer, acknowledged⟩] }

/-- execute_task and the end of the inner loop; an IndexError passes all clauses. -/
def Worker.execute (thread : Thread) (reply : Reply Account) (worker : Worker)
    (shared : Shared Thread Account)
    : Worker × Shared Thread Account :=
  match reply.answer, reply.transfer with
  | .raises error, _ => (worker.except error, shared)
  | _, none => ({ worker with position := .escaped }, shared)
  | .succeeds, some transfer =>
      ({ worker with position := .loopTest },
        shared.commit thread worker.counted transfer true)
  | .commitsThenRaises error, some transfer =>
      (worker.except error, shared.commit thread worker.counted transfer false)

/-- The next step of a worker, with the answer that its call gets, if it makes one. -/
def Worker.step (conf : Conf) (thread : Thread) (reply : Reply Account) (worker : Worker)
    (shared : Shared Thread Account)
    : Worker × Shared Thread Account :=
  match worker.position with
  | .loopTest =>
      if shared.operationNum < conf.operations then
        ({ worker with position := .stopTest }, shared)
      else
        ({ worker with position := .closing }, shared)
  | .stopTest =>
      if shared.isTerminate then
        ({ worker with position := .closing }, shared)
      else
        ({ worker with position := .load }, shared)
  | .load => ({ worker with position := .store shared.operationNum }, shared)
  | .store seen =>
      ({ worker with position := .retry, counted := worker.counted + 1 },
        { shared with operationNum := seen + 1 })
  | .retry => (worker.retry conf, shared)
  | .opening =>
      match worker.dbHosts, reply.answer.error? with
      | [], _ => ({ worker with position := .escaped }, shared)
      | _ :: _, some error => (worker.except error, shared)
      | _ :: _, none =>
          ({ worker with position := .naming, dbLocal := some reply.conn, registered := false },
            shared)
  | .naming =>
      match reply.answer.error? with
      | some error => (worker.except error, shared)
      | none => ({ worker with position := .askingPid }, shared)
  | .askingPid =>
      match reply.answer.error?, worker.dbLocal with
      | some error, _ => (worker.except error, shared)
      | none, some conn => ({ worker with position := .registering conn.pid }, shared)
      | none, none => ({ worker with position := .escaped }, shared)
  | .registering currentPid =>
      match worker.dbLocal with
      | some conn =>
          ({ worker with position := .executing, registered := true },
            { shared with dbConns := setItem shared.dbConns currentPid conn })
      | none => ({ worker with position := .escaped }, shared)
  | .executing => worker.execute thread reply shared
  | .rollback =>
      match worker.dbLocal, reply.answer.error? with
      | none, _ => ({ worker with position := .escaped }, shared)
      | some _, none => ({ worker with position := .retry }, shared)
      | some _, some error =>
          if error = .noActiveTransaction then
            ({ worker with position := .retry }, shared)
          else
            ({ worker with position := .escaped }, shared)
  | .returnTest =>
      if shared.isTerminate then
        ({ worker with position := .returned }, shared)
      else
        ({ worker with position := .retry, dbLocal := none }, shared)
  | .closing =>
      match worker.dbLocal with
      | some _ => ({ worker with position := .returned }, shared)
      | none => ({ worker with position := .escaped }, shared)
  | .returned => (worker, shared)
  | .escaped => (worker, shared)

-----------------------------------------------------------------------------------------
-- What a step can do
-----------------------------------------------------------------------------------------

/-- Two accounts are enough for the subscripts. -/
theorem Reply.exists_transfer (several : 2 ≤ Fintype.card Account) (reply : Reply Account)
    : ∃ transfer, reply.transfer = some transfer := by
  have size := reply.selection.size
  rw [Nat.min_eq_left several] at size
  obtain ⟨fromAccount, toAccount, same⟩ := List.length_eq_two.mp size
  exact ⟨⟨fromAccount, toAccount, reply.amount⟩, by simp [Reply.transfer, transferOf, same]⟩

theorem Reply.transfer_eq_none (few : Fintype.card Account < 2) (reply : Reply Account)
    : reply.transfer = none := by
  have size := reply.selection.size
  rcases same : reply.selection.rows with _ | ⟨first, _ | ⟨second, rest⟩⟩
  · simp [Reply.transfer, transferOf, same]
  · simp [Reply.transfer, transferOf, same]
  · rw [same] at size
    simp only [List.length_cons] at size
    omega

@[simp] theorem Worker.except_counted (worker : Worker) (error : DbError)
    : (worker.except error).counted = worker.counted := by
  unfold Worker.except
  split <;> rfl

/-- The clauses lead back to the inner loop, but for the one class that none of them names. -/
theorem Worker.except_position (worker : Worker) (error : DbError)
    : error = .noActiveTransaction ∧ (worker.except error).position = .escaped
      ∨ error ≠ .noActiveTransaction
        ∧ ((worker.except error).position = .retry
          ∨ (worker.except error).position = .rollback
          ∨ (worker.except error).position = .returnTest) := by
  cases error <;> simp [Worker.except, repairOf, workerFuncClauses]

@[simp] theorem Worker.retry_counted (conf : Conf) (worker : Worker)
    : (worker.retry conf).counted = worker.counted := by
  unfold Worker.retry
  split
  · rfl
  · split <;> rfl

/-- The inner loop keeps a connection it has, and connects if it has none. -/
theorem Worker.retry_position (conf : Conf) (worker : Worker)
    : (worker.retry conf).dbLocal = worker.dbLocal
      ∧ (worker.dbLocal = none → (worker.retry conf).position = .opening)
      ∧ (worker.dbLocal ≠ none → (worker.retry conf).position = .executing) := by
  unfold Worker.retry
  cases connected : worker.dbLocal with
  | some conn => simp
  | none => by_cases few : worker.reconnectAttempt < conf.reconnectAttempt <;> simp [few]

/-- It goes on with an open or with the transfer. -/
theorem Worker.retry_lands (conf : Conf) (worker : Worker)
    : (worker.retry conf).position = .opening ∨ (worker.retry conf).position = .executing := by
  have landing := worker.retry_position conf
  by_cases connected : worker.dbLocal = none
  · exact .inl (landing.2.1 connected)
  · exact .inr (landing.2.2 connected)

/-- A step that only goes on to another position, with what it has found. -/
inductive Worker.Way (conf : Conf) (reply : Reply Account) (worker : Worker)
    (shared : Shared Thread Account)
    : Position → Prop where
  | begins (stands : worker.position = .loopTest)
      (more : shared.operationNum < conf.operations)
    : Way conf reply worker shared .stopTest
  | done (stands : worker.position = .loopTest)
      (enough : ¬ (shared.operationNum : Int) < conf.operations)
    : Way conf reply worker shared .closing
  | stops (stands : worker.position = .stopTest) (stopped : shared.isTerminate = true)
    : Way conf reply worker shared .closing
  | works (stands : worker.position = .stopTest) (running : shared.isTerminate = false)
    : Way conf reply worker shared .load
  | loads (stands : worker.position = .load)
    : Way conf reply worker shared (.store shared.operationNum)
  | hostless (stands : worker.position = .opening) (hosts : worker.dbHosts = [])
    : Way conf reply worker shared .escaped
  | names (stands : worker.position = .naming) (answers : reply.answer.error? = none)
    : Way conf reply worker shared .askingPid
  | hears (conn : Conn) (stands : worker.position = .askingPid)
      (answers : reply.answer.error? = none) (uses : worker.dbLocal = some conn)
    : Way conf reply worker shared (.registering conn.pid)
  | unheard (stands : worker.position = .askingPid) (answers : reply.answer.error? = none)
      (missing : worker.dbLocal = none)
    : Way conf reply worker shared .escaped
  | unregistered (currentPid : Nat) (stands : worker.position = .registering currentPid)
      (missing : worker.dbLocal = none)
    : Way conf reply worker shared .escaped
  | rowless (stands : worker.position = .executing)
      (answers : ∀ error, reply.answer ≠ .raises error) (rows : reply.transfer = none)
    : Way conf reply worker shared .escaped
  | unrolled (stands : worker.position = .rollback) (missing : worker.dbLocal = none)
    : Way conf reply worker shared .escaped
  | rollsBack (stands : worker.position = .rollback) (uses : worker.dbLocal ≠ none)
      (answers
        : reply.answer.error? = none ∨ reply.answer.error? = some .noActiveTransaction)
    : Way conf reply worker shared .retry
  | rollbackFails (error : DbError) (stands : worker.position = .rollback)
      (uses : worker.dbLocal ≠ none) (answers : reply.answer.error? = some error)
      (other : error ≠ .noActiveTransaction)
    : Way conf reply worker shared .escaped
  | returns (stands : worker.position = .returnTest) (stopped : shared.isTerminate = true)
    : Way conf reply worker shared .returned
  | closes (stands : worker.position = .closing) (uses : worker.dbLocal ≠ none)
    : Way conf reply worker shared .returned
  | unclosed (stands : worker.position = .closing) (missing : worker.dbLocal = none)
    : Way conf reply worker shared .escaped

/-- The exception that a call in the try block raises in this step, if it makes one. -/
def Worker.raised (worker : Worker) (reply : Reply Account) : Option DbError :=
  match worker.position with
  | .opening => if worker.dbHosts = [] then none else reply.answer.error?
  | .naming | .askingPid => reply.answer.error?
  | .executing =>
      match reply.answer, reply.transfer with
      | .raises error, _ => some error
      | .commitsThenRaises error, some _ => some error
      | _, _ => none
  | _ => none

/-- What a call that raises has met, by cases on the position. -/
theorem Worker.raised_cases {worker : Worker} {reply : Reply Account} {error : DbError}
    (raised : worker.raised reply = some error)
    : reply.answer.error? = some error
      ∧ (worker.position = .opening ∧ worker.dbHosts ≠ []
        ∨ worker.position = .naming
        ∨ worker.position = .askingPid
        ∨ worker.position = .executing
          ∧ (reply.transfer ≠ none ∨ reply.answer = .raises error)) := by
  cases stands : worker.position with
  | opening =>
      by_cases hosts : worker.dbHosts = []
      · simp [Worker.raised, stands, hosts] at raised
      · exact ⟨by simpa [Worker.raised, stands, hosts] using raised, .inl ⟨rfl, hosts⟩⟩
  | naming => exact ⟨by simpa [Worker.raised, stands] using raised, .inr (.inl rfl)⟩
  | askingPid => exact ⟨by simpa [Worker.raised, stands] using raised, .inr (.inr (.inl rfl))⟩
  | executing =>
      cases answers : reply.answer with
      | succeeds => simp [Worker.raised, stands, answers] at raised
      | raises other =>
          have same : other = error := by simpa [Worker.raised, stands, answers] using raised
          simp [Answer.error?, same]
      | commitsThenRaises other =>
          cases picks : reply.transfer with
          | none => simp [Worker.raised, stands, answers, picks] at raised
          | some transfer =>
              have same : other = error := by
                simpa [Worker.raised, stands, answers, picks] using raised
              simp [Answer.error?, same]
  | _ => simp [Worker.raised, stands] at raised

/-- A step of that kind raises nothing in the try block. -/
theorem Worker.Way.raised_eq_none {conf : Conf} {reply : Reply Account} {worker : Worker}
    {shared : Shared Thread Account} {position : Position}
    (way : worker.Way conf reply shared position)
    : worker.raised reply = none := by
  cases way with
  | hostless stands hosts => simp [raised, stands, hosts]
  | names stands answers | hears _ stands answers _ | unheard stands answers _ =>
      simp [raised, stands, answers]
  | rowless stands answers rows =>
      cases outcome : reply.answer with
      | raises error => exact absurd outcome (answers error)
      | succeeds | commitsThenRaises _ => simp [raised, stands, outcome, rows]
  | begins stands _ | done stands _ | stops stands _ | works stands _ | loads stands
  | unregistered _ stands _ | unrolled stands _ | rollsBack stands _ _
  | rollbackFails _ stands _ _ _ | returns stands _ | closes stands _ | unclosed stands _ =>
      simp [raised, stands]

/-- All that a step can do, with what it has found. -/
inductive Worker.Steps (conf : Conf) (thread : Thread) (reply : Reply Account)
    (worker : Worker) (shared : Shared Thread Account)
    (result : Worker × Shared Thread Account)
    : Prop where
  | goes (position : Position) (way : worker.Way conf reply shared position)
      (lands : result = ({ worker with position := position }, shared))
  | counts (seen : Nat) (stands : worker.position = .store seen)
      (lands
        : result
          = ({ worker with position := .retry, counted := worker.counted + 1 },
              { shared with operationNum := seen + 1 }))
  | retries (stands : worker.position = .retry) (lands : result = (worker.retry conf, shared))
  | connects (stands : worker.position = .opening) (hosts : worker.dbHosts ≠ [])
      (answers : reply.answer.error? = none)
      (lands
        : result
          = ({ worker with
                position := .naming, dbLocal := some reply.conn, registered := false },
              shared))
  | registers (currentPid : Nat) (conn : Conn)
      (stands : worker.position = .registering currentPid)
      (uses : worker.dbLocal = some conn)
      (lands
        : result
          = ({ worker with position := .executing, registered := true },
              { shared with dbConns := setItem shared.dbConns currentPid conn }))
  | raises (error : DbError)
      (calls : worker.position ∈ [.opening, .naming, .askingPid, .executing])
      (raised : worker.raised reply = some error)
      (lands : result = (worker.except error, shared))
  | finishes (transfer : Transfer Account) (stands : worker.position = .executing)
      (answers : reply.answer = .succeeds) (picks : reply.transfer = some transfer)
      (lands
        : result
          = ({ worker with position := .loopTest },
              shared.commit thread worker.counted transfer true))
  | loses (error : DbError) (transfer : Transfer Account)
      (stands : worker.position = .executing)
      (answers : reply.answer = .commitsThenRaises error)
      (picks : reply.transfer = some transfer)
      (lands
        : result
          = (worker.except error, shared.commit thread worker.counted transfer false))
  | reconnects (stands : worker.position = .returnTest) (running : shared.isTerminate = false)
      (lands : result = ({ worker with position := .retry, dbLocal := none }, shared))
  | rests (ended : worker.position.Ended) (lands : result = (worker, shared))

/-- Every step is one of these, by cases on the position. -/
theorem Worker.step_cases (conf : Conf) (thread : Thread) (reply : Reply Account)
    (worker : Worker) (shared : Shared Thread Account)
    : worker.Steps conf thread reply shared (worker.step conf thread reply shared) := by
  cases stands : worker.position with
  | loopTest =>
      simp only [step, stands]
      split
      · rename_i more
        exact .goes _ (.begins stands more) rfl
      · rename_i enough
        exact .goes _ (.done stands enough) rfl
  | stopTest =>
      cases stopped : shared.isTerminate <;> simp only [step, stands, stopped]
      · exact .goes _ (.works stands stopped) rfl
      · exact .goes _ (.stops stands stopped) rfl
  | load => exact .goes _ (.loads stands) (by simp only [step, stands])
  | store seen => exact .counts seen stands (by simp only [step, stands])
  | retry => exact .retries stands (by simp only [step, stands])
  | opening =>
      simp only [step, stands]
      split
      · rename_i empty
        exact .goes _ (.hostless stands empty) rfl
      · rename_i hosts answers
        exact .raises _ (by simp [stands]) (by simp [raised, stands, hosts, answers]) rfl
      · rename_i hosts answers
        exact .connects stands (by simp [hosts]) answers rfl
  | naming =>
      simp only [step, stands]
      split
      · rename_i answers
        exact .raises _ (by simp [stands]) (by simp [raised, stands, answers]) rfl
      · rename_i answers
        exact .goes _ (.names stands answers) rfl
  | askingPid =>
      simp only [step, stands]
      split
      · rename_i answers
        exact .raises _ (by simp [stands]) (by simp [raised, stands, answers]) rfl
      · rename_i answers uses
        exact .goes _ (.hears _ stands answers uses) rfl
      · rename_i answers missing
        exact .goes _ (.unheard stands answers missing) rfl
  | registering currentPid =>
      simp only [step, stands]
      split
      · rename_i uses
        exact .registers currentPid _ stands uses rfl
      · rename_i missing
        exact .goes _ (.unregistered currentPid stands missing) rfl
  | executing =>
      simp only [step, stands, execute]
      split
      · rename_i answers
        exact .raises _ (by simp [stands]) (by simp [raised, stands, answers]) rfl
      · rename_i rows answers
        exact .goes _ (.rowless stands answers rows) rfl
      · rename_i answers picks
        exact .finishes _ stands answers picks rfl
      · rename_i answers picks
        exact .loses _ _ stands answers picks rfl
  | rollback =>
      simp only [step, stands]
      split
      · rename_i missing
        exact .goes _ (.unrolled stands missing) rfl
      · rename_i uses answers
        exact .goes _ (.rollsBack stands (by simp [uses]) (.inl answers)) rfl
      · rename_i uses answers
        split
        · rename_i same
          exact .goes _ (.rollsBack stands (by simp [uses]) (.inr (same ▸ answers))) rfl
        · rename_i other
          exact .goes _ (.rollbackFails _ stands (by simp [uses]) answers other) rfl
  | returnTest =>
      cases stopped : shared.isTerminate <;> simp only [step, stands, stopped]
      · exact .reconnects stands stopped rfl
      · exact .goes _ (.returns stands stopped) rfl
  | closing =>
      simp only [step, stands]
      split
      · rename_i uses
        exact .goes _ (.closes stands (by simp [uses])) rfl
      · rename_i missing
        exact .goes _ (.unclosed stands missing) rfl
  | returned => exact .rests (.inl stands) (by simp only [step, stands])
  | escaped => exact .rests (.inr stands) (by simp only [step, stands])

/-- What a step can do to the counts and to the commits: count an operation, commit its
transfer with or without the thread's knowledge, or neither.
-/
inductive Worker.Effect (thread : Thread) (worker : Worker) (shared : Shared Thread Account)
    (next : Worker) (after : Shared Thread Account)
    : Prop where
  | counts (seen : Nat) (stands : worker.position = .store seen)
      (starts : next.position = .retry) (counted : next.counted = worker.counted + 1)
      (written : after.operationNum = seen + 1) (committed : after.committed = shared.committed)
  | finishes (transfer : Transfer Account) (stands : worker.position = .executing)
      (done : next.position = .loopTest) (counted : next.counted = worker.counted)
      (commits : after = shared.commit thread worker.counted transfer true)
  | loses (transfer : Transfer Account) (stands : worker.position = .executing)
      (goesOn : next.position.Attempting ∨ next.position = .escaped)
      (counted : next.counted = worker.counted)
      (commits : after = shared.commit thread worker.counted transfer false)
  | moves (stands : ∀ seen, worker.position ≠ .store seen)
      (counted : next.counted = worker.counted)
      (written : after.operationNum = shared.operationNum)
      (committed : after.committed = shared.committed)
      (starts : next.position.Attempting → worker.position.Attempting)
      (goesOn : worker.position.Attempting → next.position.Attempting ∨ next.position.Ended)

theorem Worker.except_attempting (worker : Worker) (error : DbError)
    : (worker.except error).position.Attempting ∨ (worker.except error).position = .escaped := by
  rcases worker.except_position error with ⟨_, lands⟩ | ⟨_, lands | lands | lands⟩
    <;> simp [lands, Position.Attempting]

omit [Fintype Account] in
/-- An exception leaves the counts and the commits alone. -/
theorem Worker.Effect.except (thread : Thread) {worker : Worker}
    (shared : Shared Thread Account) (attempting : worker.position.Attempting)
    (error : DbError)
    : Effect thread worker shared (worker.except error) shared := by
  refine .moves ?_ (by simp) rfl rfl (fun _ => attempting) ?_
  · intro seen stands
    simp [stands, Position.Attempting] at attempting
  · intro _
    exact (worker.except_attempting error).imp_right .inr

omit [Fintype Account] in
/-- A step that only goes on stays within an attempt or ends the thread. -/
theorem Worker.Effect.goes (thread : Thread) {worker : Worker} (shared : Shared Thread Account)
    {position : Position} (stands : ∀ seen, worker.position ≠ .store seen)
    (starts : position.Attempting → worker.position.Attempting)
    (goesOn : worker.position.Attempting → position.Attempting ∨ position.Ended)
    : Effect thread worker shared { worker with position := position } shared :=
  .moves stands rfl rfl rfl starts goesOn

/-- Every step has one of these effects. -/
theorem Worker.step_effect (conf : Conf) (thread : Thread) (reply : Reply Account)
    (worker : Worker) (shared : Shared Thread Account)
    : Effect thread worker shared (worker.step conf thread reply shared).1
        (worker.step conf thread reply shared).2 := by
  cases worker.step_cases conf thread reply shared with
  | goes position way lands =>
      rw [lands]
      cases way <;> apply Effect.goes <;> simp_all [Position.Attempting, Position.Ended]
  | counts seen stands lands =>
      rw [lands]
      exact .counts seen stands rfl rfl rfl rfl
  | retries stands lands =>
      rw [lands]
      refine .moves (by simp [stands]) (by simp) rfl rfl
        (by simp [stands, Position.Attempting]) ?_
      intro _
      rcases worker.retry_lands conf with opens | executes
      · simp [opens, Position.Attempting]
      · simp [executes, Position.Attempting]
  | connects stands hosts answers lands =>
      rw [lands]
      exact .moves (by simp [stands]) rfl rfl rfl (by simp [stands, Position.Attempting])
        (by simp [Position.Attempting])
  | registers currentPid conn stands uses lands =>
      rw [lands]
      exact .moves (by simp [stands]) rfl rfl rfl (by simp [stands, Position.Attempting])
        (by simp [Position.Attempting])
  | raises error calls raised lands =>
      rw [lands]
      have attempting : worker.position.Attempting := by
        simp only [List.mem_cons, List.not_mem_nil, or_false] at calls
        rcases calls with stands | stands | stands | stands <;> simp [stands, Position.Attempting]
      exact .except thread shared attempting error
  | finishes transfer stands answers picks lands =>
      rw [lands]
      exact .finishes transfer stands rfl rfl rfl
  | loses error transfer stands answers picks lands =>
      rw [lands]
      exact .loses transfer stands (worker.except_attempting error) (by simp) rfl
  | reconnects stands running lands =>
      rw [lands]
      exact .moves (by simp [stands]) rfl rfl rfl (by simp [stands, Position.Attempting])
        (by simp [Position.Attempting])
  | rests ended lands =>
      rw [lands]
      refine .moves ?_ rfl rfl rfl (fun attempting => attempting) ?_
      · intro seen stands
        simp [stands, Position.Ended] at ended
      · exact fun _ => .inr ended

/-- No worker sets the flag. -/
@[simp] theorem Worker.step_isTerminate (conf : Conf) (thread : Thread)
    (reply : Reply Account) (worker : Worker) (shared : Shared Thread Account)
    : (worker.step conf thread reply shared).2.isTerminate = shared.isTerminate := by
  unfold Worker.step Worker.execute
  cases worker.position <;> simp only <;> (repeat' split) <;> rfl

theorem Worker.step_ended {worker : Worker} (ended : worker.position.Ended) (conf : Conf)
    (thread : Thread) (reply : Reply Account) (shared : Shared Thread Account)
    : worker.step conf thread reply shared = (worker, shared) := by
  rcases ended with ceased | ceased <;> simp [Worker.step, ceased]

/-- Only an execution with its two rows commits. -/
theorem Worker.step_committed {worker : Worker} {reply : Reply Account}
    (idle : worker.position ≠ .executing ∨ reply.transfer = none) (conf : Conf)
    (thread : Thread) (shared : Shared Thread Account)
    : (worker.step conf thread reply shared).2.committed = shared.committed := by
  by_cases stands : worker.position = .executing
  · have missing := idle.resolve_left (fun other => other stands)
    simp only [Worker.step, stands, Worker.execute, missing]
    split <;> simp_all
  · cases worker.step_effect conf thread reply shared with
    | counts _ _ _ _ _ committed => exact committed
    | finishes _ elsewhere _ _ _ => exact absurd elsewhere stands
    | loses _ elsewhere _ _ _ => exact absurd elsewhere stands
    | moves _ _ _ committed _ _ => exact committed

/-- Every step keeps the connection of a thread behind an open. -/
theorem Worker.Connected.step {worker : Worker} (connected : worker.Connected) (conf : Conf)
    (thread : Thread) (reply : Reply Account) (shared : Shared Thread Account)
    : (worker.step conf thread reply shared).1.Connected := by
  have excepts : ∀ error, (worker.except error).Connected := by
    intro error _
    rcases worker.except_position error with ⟨_, lands⟩ | ⟨_, lands | lands | lands⟩
      <;> simp [lands]
  cases worker.step_cases conf thread reply shared with
  | goes position way lands =>
      rw [lands]
      cases way with
      | names stands answers => exact fun missing => absurd stands (connected missing).1
      | hears conn stands answers uses =>
          exact fun missing => absurd (uses.symm.trans missing) (by simp)
      | _ => exact fun _ => by simp
  | retries stands lands =>
      rw [lands]
      have landing := worker.retry_position conf
      intro missing
      rw [landing.1] at missing
      simp [landing.2.1 missing]
  | connects stands hosts answers lands =>
      rw [lands]
      exact fun missing => by simp at missing
  | raises error calls raised lands | loses error _ _ _ _ lands =>
      rw [lands]
      exact excepts error
  | counts seen stands lands | registers _ _ stands _ lands | finishes _ stands _ _ lands
  | reconnects stands _ lands =>
      rw [lands]
      exact fun _ => by simp
  | rests ended lands =>
      rw [lands]
      exact connected

end PgCluster.Backend
