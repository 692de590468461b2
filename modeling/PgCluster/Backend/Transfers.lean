import PgCluster.Backend.Worker
import PgCluster.Foundation.Machine
import PgCluster.Foundation.RowLocks
import PgCluster.Foundation.Threads
import Mathlib.Algebra.BigOperators.Group.Finset.Piecewise
import Mathlib.Tactic.Ring

/-! execute_task statement by statement, on rows that a transaction locks to its end: the
balances are those of the committed transfers, whatever the interleaving.
-/

namespace PgCluster.Backend

open Foundation

-----------------------------------------------------------------------------------------
-- Balances of committed transfers
-----------------------------------------------------------------------------------------

/-- What init_test_tbls_and_data inserts, in cents. -/
def initialBalance : Int := 10000

/-- One unit of money, in cents. -/
def unit : Int := 100

section Balances

variable {Account : Type*} [DecidableEq Account]

/-- `SET balance = balance - amount`. -/
def Transfer.debit (transfer : Transfer Account) : RowUpdate Account Int :=
  ⟨transfer.fromAccount, fun balance => balance - transfer.amount⟩

/-- `SET balance = balance + amount + 1`. -/
def Transfer.credit (transfer : Transfer Account) : RowUpdate Account Int :=
  ⟨transfer.toAccount, fun balance => balance + transfer.amount + unit⟩

def Transfer.script (transfer : Transfer Account) : List (RowUpdate Account Int) :=
  [transfer.debit, transfer.credit]

/-- What the transfers out of an account have taken. -/
def outgoing (transfers : List (Transfer Account)) (account : Account) : Int :=
  ((transfers.filter (fun transfer => transfer.fromAccount = account)).map
    (fun transfer => transfer.amount)).sum

/-- What the transfers into an account have brought, each with its unit on top. -/
def incoming (transfers : List (Transfer Account)) (account : Account) : Int :=
  ((transfers.filter (fun transfer => transfer.toAccount = account)).map
    (fun transfer => transfer.amount + unit)).sum

def balance (transfers : List (Transfer Account)) (account : Account) : Int :=
  initialBalance - outgoing transfers account + incoming transfers account

/-- What a transfer adds to the balance of an account. -/
def Transfer.gain (transfer : Transfer Account) (account : Account) : Int :=
  (if transfer.toAccount = account then transfer.amount + unit else 0)
    - (if transfer.fromAccount = account then transfer.amount else 0)

theorem balance_cons (transfer : Transfer Account) (rest : List (Transfer Account))
    (account : Account)
    : balance (transfer :: rest) account = balance rest account + transfer.gain account := by
  unfold balance outgoing incoming Transfer.gain
  by_cases source : transfer.fromAccount = account
    <;> by_cases target : transfer.toAccount = account <;> simp [source, target] <;> omega

theorem replay_script (transfer : Transfer Account) (table : Account → Int)
    (account : Account)
    : replay transfer.script table account = table account + transfer.gain account := by
  simp only [Transfer.script, replay, List.foldl_cons, List.foldl_nil, RowUpdate.apply,
    Transfer.debit, Transfer.credit, Transfer.gain]
  by_cases target : transfer.toAccount = account
  · rw [target, Function.update_self]
    by_cases source : transfer.fromAccount = account
    · rw [source, Function.update_self]
      simp only [if_true]
      omega
    · rw [Function.update_of_ne (Ne.symm source)]
      simp only [if_true, source, if_false]
      omega
  · rw [Function.update_of_ne (Ne.symm target)]
    by_cases source : transfer.fromAccount = account
    · rw [source, Function.update_self]
      simp only [target, if_true, if_false]
      omega
    · rw [Function.update_of_ne (Ne.symm source)]
      simp only [target, source, if_false]
      omega

/-- Transfers one after another lead to their balances, by induction on them. -/
theorem replay_transfers (transfers : List (Transfer Account)) (table : Account → Int)
    (account : Account)
    : replay (transfers.flatMap Transfer.script) table account
      = table account - initialBalance + balance transfers account := by
  induction transfers generalizing table with
  | nil => simp [replay, balance, outgoing, incoming]
  | cons transfer rest ih =>
      rw [List.flatMap_cons, replay_append, ih, replay_script, balance_cons]
      omega

/-- Every transfer adds one unit to the total, by induction on the transfers. -/
theorem sum_balance [Fintype Account] (transfers : List (Transfer Account))
    : ∑ account, balance transfers account
      = initialBalance * Fintype.card Account + unit * transfers.length := by
  induction transfers with
  | nil => simp [balance, outgoing, incoming, mul_comm]
  | cons transfer rest ih =>
      have gains : ∑ account, transfer.gain account = unit := by
        simp [Transfer.gain, Finset.sum_sub_distrib]
      simp only [balance_cons, Finset.sum_add_distrib, ih, gains, List.length_cons]
      push_cast
      ring

end Balances

-----------------------------------------------------------------------------------------
-- Statements of concurrent transactions
-----------------------------------------------------------------------------------------

/-- The next statement of a session; SELECT FOR UPDATE locks its rows one after another. -/
inductive Stage (Account : Type*) where
  | idle
  | selecting (rows unlocked : List Account) (amount : Int)
  | debiting (transfer : Transfer Account)
  | crediting (transfer : Transfer Account)
  | committing (transfer : Transfer Account)

/-- What happens to a session: it starts a task, goes on with it as far as locks allow, or
fails (a deadlock, a lost connection, any other exception).
-/
inductive Event (Account : Type*) [Fintype Account] where
  | start (selection : Selection Account) (amount : Int)
  | proceed
  | fail

/-- The accounts table and, as a ghost, the committed transfers. -/
structure Accounts (Session Account : Type*) where
  locks : RowLocks Session Account Int
  transfers : List (Transfer Account)

variable {Session Account : Type*} [DecidableEq Session] [DecidableEq Account]
  [Fintype Account]

def Accounts.rollback (accounts : Accounts Session Account) (session : Session)
    : Accounts Session Account :=
  { accounts with locks := accounts.locks.abort session }

/-- One statement; a session that would have to wait for a lock stays where it is. -/
def Stage.step (session : Session) (event : Event Account) (stage : Stage Account)
    (accounts : Accounts Session Account)
    : Stage Account × Accounts Session Account :=
  match event, stage with
  | .start selection amount, .idle =>
      (.selecting selection.rows selection.rows amount, accounts)
  | .proceed, .selecting rows (row :: unlocked) amount =>
      if accounts.locks.Free session row then
        (.selecting rows unlocked amount,
          { accounts with locks := accounts.locks.lock session row })
      else
        (stage, accounts)
  | .proceed, .selecting rows [] amount =>
      match transferOf rows amount with
      | some transfer => (.debiting transfer, accounts)
      | none => (.idle, accounts.rollback session)
  | .proceed, .debiting transfer =>
      if accounts.locks.Free session transfer.fromAccount then
        (.crediting transfer,
          { accounts with locks := accounts.locks.update session transfer.debit })
      else
        (stage, accounts)
  | .proceed, .crediting transfer =>
      if accounts.locks.Free session transfer.toAccount then
        (.committing transfer,
          { accounts with locks := accounts.locks.update session transfer.credit })
      else
        (stage, accounts)
  | .proceed, .committing transfer =>
      (.idle, ⟨accounts.locks.commit session, accounts.transfers ++ [transfer]⟩)
  | .fail, _ => (.idle, accounts.rollback session)
  | .start _ _, _ | .proceed, .idle => (stage, accounts)

abbrev AccountsState (Session Account : Type*) :=
  Threads Session (Stage Account) (Accounts Session Account)

variable (Session Account) in
/-- Any sessions on the table that init_test_tbls_and_data leaves. -/
def concurrentTasks : Machine (AccountsState Session Account) (Session × Event Account) where
  start := ⟨fun _ => .idle, .untouched Session (fun _ => initialBalance), []⟩
  step state label := state.advance label.1 (Stage.step label.1 label.2)

/-- The updates that a transaction has made before its next statement. -/
def Stage.script : Stage Account → List (RowUpdate Account Int)
  | .crediting transfer => [transfer.debit]
  | .committing transfer => transfer.script
  | _ => []

/-- The table is in order, and the scripts of its history are those of the transfers. -/
structure Accounts.Booked (accounts : Accounts Session Account) : Prop where
  serial : RowLocks.Serial (fun _ => initialBalance) accounts.locks
  history : accounts.locks.history = accounts.transfers.flatMap Transfer.script

section Bookings

variable {accounts : Accounts Session Account}

omit [Fintype Account]

/-- A rollback forgets what the session has written and nobody else's updates. -/
theorem Accounts.Booked.rollback (booked : accounts.Booked) (session : Session)
    : (accounts.rollback session).Booked
      ∧ (accounts.rollback session).locks.script session = []
      ∧ ∀ other, other ≠ session
        → (accounts.rollback session).locks.script other = accounts.locks.script other := by
  refine ⟨⟨booked.serial.abort session, booked.history⟩, ?_, ?_⟩
  · simp [Accounts.rollback, RowLocks.abort_script]
  · intro other apart
    simp [Accounts.rollback, RowLocks.abort_script, apart]

/-- An update of a row that is free goes to the end of the session's script. -/
theorem Accounts.Booked.update (booked : accounts.Booked) {session : Session}
    {update : RowUpdate Account Int} (free : accounts.locks.Free session update.row)
    : Accounts.Booked { accounts with locks := accounts.locks.update session update }
      ∧ (accounts.locks.update session update).script session
        = accounts.locks.script session ++ [update]
      ∧ ∀ other, other ≠ session
        → (accounts.locks.update session update).script other
          = accounts.locks.script other := by
  refine ⟨⟨booked.serial.update free, booked.history⟩, ?_, ?_⟩
  · simp [RowLocks.update_script]
  · intro other apart
    simp [RowLocks.update_script, apart]

/-- A commit takes the session's script, which is that of its transfer, into the history. -/
theorem Accounts.Booked.commit (booked : accounts.Booked) {session : Session}
    {transfer : Transfer Account} (script : accounts.locks.script session = transfer.script)
    : Accounts.Booked ⟨accounts.locks.commit session, accounts.transfers ++ [transfer]⟩
      ∧ (accounts.locks.commit session).script session = []
      ∧ ∀ other, other ≠ session
        → (accounts.locks.commit session).script other = accounts.locks.script other := by
  refine ⟨⟨booked.serial.commit session, ?_⟩, ?_, ?_⟩
  · have history := booked.history
    simp [RowLocks.commit, RowLocks.release, history, script]
  · simp [RowLocks.commit_script]
  · intro other apart
    simp [RowLocks.commit_script, apart]

end Bookings

/-- A statement keeps the table in order and the session's script up to date, by cases on
the statement.
-/
theorem Stage.step_booked {session : Session} {stage : Stage Account}
    {accounts : Accounts Session Account} (booked : accounts.Booked)
    (script : accounts.locks.script session = stage.script) (event : Event Account)
    : (stage.step session event accounts).2.Booked
      ∧ (stage.step session event accounts).2.locks.script session
        = (stage.step session event accounts).1.script
      ∧ ∀ other, other ≠ session
        → (stage.step session event accounts).2.locks.script other
          = accounts.locks.script other := by
  cases event with
  | fail => exact booked.rollback session
  | start selection amount =>
      cases stage <;> exact ⟨booked, script, fun _ _ => rfl⟩
  | proceed =>
      cases stage with
      | idle => exact ⟨booked, script, fun _ _ => rfl⟩
      | selecting rows unlocked amount =>
          cases unlocked with
          | nil =>
              simp only [Stage.step]
              split
              · exact ⟨booked, script, fun _ _ => rfl⟩
              · exact booked.rollback session
          | cons row unlocked =>
              simp only [Stage.step]
              split
              · rename_i free
                exact ⟨⟨booked.serial.lock free, booked.history⟩, script, fun _ _ => rfl⟩
              · exact ⟨booked, script, fun _ _ => rfl⟩
      | debiting transfer =>
          simp only [Stage.step]
          split
          · rename_i free
            have debited : accounts.locks.Free session transfer.debit.row := free
            obtain ⟨after, mine, others⟩ := booked.update debited
            refine ⟨after, ?_, others⟩
            rw [mine, script]
            rfl
          · exact ⟨booked, script, fun _ _ => rfl⟩
      | crediting transfer =>
          simp only [Stage.step]
          split
          · rename_i free
            have credited : accounts.locks.Free session transfer.credit.row := free
            obtain ⟨after, mine, others⟩ := booked.update credited
            refine ⟨after, ?_, others⟩
            rw [mine, script]
            rfl
          · exact ⟨booked, script, fun _ _ => rfl⟩
      | committing transfer => exact booked.commit script

/-- In every run the table is in order, by one statement after another. -/
theorem booked_of_run (labels : List (Session × Event Account))
    : ((concurrentTasks Session Account).run labels).shared.Booked := by
  refine (Machine.after_forall
    (fun state : AccountsState Session Account =>
      state.shared.Booked
      ∧ ∀ session, state.shared.locks.script session = (state.own session).script)
    ?_ ⟨⟨RowLocks.serial_untouched _, rfl⟩, fun _ => rfl⟩ labels).1
  rintro state ⟨session, event⟩ ⟨booked, scripts⟩
  obtain ⟨after, mine, others⟩ := Stage.step_booked booked (scripts session) event
  refine ⟨after, ?_⟩
  refine Threads.advance_forall
    (fun session (stage : Stage Account) (shared : Accounts Session Account) =>
      shared.locks.script session = stage.script)
    scripts mine ?_
  intro other apart before
  exact (others other apart).trans before

/-- In every committed state each balance is 100 less what the committed transfers out of
the account have taken plus what those into it have brought, and the total has grown by one
unit a transfer.
-/
theorem money_conserved (labels : List (Session × Event Account))
    : (∀ account,
        ((concurrentTasks Session Account).run labels).shared.locks.committed account
          = initialBalance
            - outgoing ((concurrentTasks Session Account).run labels).shared.transfers account
            + incoming ((concurrentTasks Session Account).run labels).shared.transfers account)
      ∧ ∑ account,
          ((concurrentTasks Session Account).run labels).shared.locks.committed account
        = initialBalance * Fintype.card Account
          + unit * ((concurrentTasks Session Account).run labels).shared.transfers.length := by
  have booked := booked_of_run labels
  have balances : ∀ account,
      ((concurrentTasks Session Account).run labels).shared.locks.committed account
        = balance ((concurrentTasks Session Account).run labels).shared.transfers account := by
    intro account
    rw [booked.serial.replayed, booked.history, replay_transfers]
    omega
  refine ⟨balances, ?_⟩
  rw [← sum_balance]
  exact Finset.sum_congr rfl (fun account _ => balances account)

end PgCluster.Backend
