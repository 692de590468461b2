import Mathlib.Logic.Function.Basic

/-! Rows under exclusive locks that a transaction keeps to its end. What is committed is the
replay of the committed transactions one after another.
-/

namespace Foundation

/-- A change of one row, computed from its present value. -/
structure RowUpdate (Row Value : Type*) where
  row : Row
  change : Value → Value

variable {Session Row Value : Type*} [DecidableEq Row]

def RowUpdate.apply (update : RowUpdate Row Value) (table : Row → Value) : Row → Value :=
  Function.update table update.row (update.change (table update.row))

/-- The updates one after another. -/
def replay (updates : List (RowUpdate Row Value)) (table : Row → Value) : Row → Value :=
  updates.foldl (fun before update => update.apply before) table

theorem replay_append (first second : List (RowUpdate Row Value)) (table : Row → Value)
    : replay (first ++ second) table = replay second (replay first table) :=
  List.foldl_append

/-- What becomes of a row depends on its own value alone, by induction on the updates. -/
theorem replay_congr (updates : List (RowUpdate Row Value)) {table other : Row → Value}
    {row : Row} (same : table row = other row)
    : replay updates table row = replay updates other row := by
  induction updates generalizing table other with
  | nil => exact same
  | cons update rest ih =>
      refine ih ?_
      by_cases here : row = update.row
      · rw [here] at same ⊢
        simp [RowUpdate.apply, same]
      · simp [RowUpdate.apply, Function.update_of_ne here, same]

/-- A row without an update keeps its value, by induction on the updates. -/
theorem replay_of_forall_ne {updates : List (RowUpdate Row Value)} {row : Row}
    (apart : ∀ update ∈ updates, update.row ≠ row) (table : Row → Value)
    : replay updates table row = table row := by
  induction updates generalizing table with
  | nil => rfl
  | cons update rest ih =>
      have later := ih (fun other member => apart other (List.mem_cons_of_mem _ member))
        (update.apply table)
      refine later.trans ?_
      exact Function.update_of_ne (apart update List.mem_cons_self).symm _ _

-----------------------------------------------------------------------------------------
-- Transactions
-----------------------------------------------------------------------------------------

/-- Each session has at most one open transaction, with its lock and its version of the rows
it has written; the scripts and the history are kept as ghosts.
-/
structure RowLocks (Session Row Value : Type*) where
  committed : Row → Value
  owner : Row → Option Session
  written : Session → Row → Option Value
  script : Session → List (RowUpdate Row Value)
  history : List (RowUpdate Row Value)

namespace RowLocks

/-- No transaction is open. -/
def untouched (Session : Type*) (table : Row → Value) : RowLocks Session Row Value where
  committed := table
  owner _ := none
  written _ _ := none
  script _ := []
  history := []

/-- A session neither waits for its own locks nor for rows that nobody holds. -/
def Free (locks : RowLocks Session Row Value) (session : Session) (row : Row) : Prop :=
  locks.owner row = none ∨ locks.owner row = some session

/-- The table as the session sees it: its own versions and else the last commits. -/
def view (locks : RowLocks Session Row Value) (session : Session) : Row → Value :=
  fun row => (locks.written session row).getD (locks.committed row)

def lock (locks : RowLocks Session Row Value) (session : Session) (row : Row)
    : RowLocks Session Row Value :=
  { locks with owner := Function.update locks.owner row (some session) }

@[simp] theorem lock_committed (locks : RowLocks Session Row Value) (session : Session)
    (row : Row)
    : (locks.lock session row).committed = locks.committed := rfl

@[simp] theorem lock_written (locks : RowLocks Session Row Value) (session : Session)
    (row : Row)
    : (locks.lock session row).written = locks.written := rfl

@[simp] theorem lock_script (locks : RowLocks Session Row Value) (session : Session)
    (row : Row)
    : (locks.lock session row).script = locks.script := rfl

variable [DecidableEq Session]

instance (locks : RowLocks Session Row Value) (session : Session) (row : Row)
    : Decidable (locks.Free session row) :=
  inferInstanceAs (Decidable (_ ∨ _))

/-- Lock the row and write a version of it computed from the latest one. -/
def update (locks : RowLocks Session Row Value) (session : Session)
    (update : RowUpdate Row Value)
    : RowLocks Session Row Value :=
  { locks.lock session update.row with
    written := Function.update locks.written session
      (Function.update (locks.written session) update.row
        (some (update.change (locks.view session update.row))))
    script := Function.update locks.script session (locks.script session ++ [update]) }

/-- The end of a transaction gives its locks back. -/
def release (locks : RowLocks Session Row Value) (session : Session)
    : RowLocks Session Row Value :=
  { locks with
    owner := fun row => if locks.owner row = some session then none else locks.owner row
    written := Function.update locks.written session (fun _ => none)
    script := Function.update locks.script session [] }

/-- A rollback leaves nothing but the released locks. -/
def abort (locks : RowLocks Session Row Value) (session : Session)
    : RowLocks Session Row Value :=
  locks.release session

/-- All versions of the session become visible at once. -/
def commit (locks : RowLocks Session Row Value) (session : Session)
    : RowLocks Session Row Value :=
  { locks.release session with
    committed := locks.view session
    history := locks.history ++ locks.script session }

theorem update_script (locks : RowLocks Session Row Value) (session other : Session)
    (update : RowUpdate Row Value)
    : (locks.update session update).script other
      = if other = session then locks.script session ++ [update] else locks.script other := by
  simp [RowLocks.update, Function.update_apply]

omit [DecidableEq Row] in
theorem abort_script (locks : RowLocks Session Row Value) (session other : Session)
    : (locks.abort session).script other
      = if other = session then [] else locks.script other := by
  simp [abort, release, Function.update_apply]

omit [DecidableEq Row] in
theorem commit_script (locks : RowLocks Session Row Value) (session other : Session)
    : (locks.commit session).script other
      = if other = session then [] else locks.script other := by
  simp [commit, release, Function.update_apply]

/-- Only locked rows are written, each session sees its script replayed on what is
committed, and what is committed is the history replayed on the first table.
-/
structure Serial (initial : Row → Value) (locks : RowLocks Session Row Value) : Prop where
  owned : ∀ session row, locks.written session row ≠ none → locks.owner row = some session
  held : ∀ session, ∀ update ∈ locks.script session, locks.owner update.row = some session
  seen : ∀ session, locks.view session = replay (locks.script session) locks.committed
  replayed : locks.committed = replay locks.history initial

variable {initial : Row → Value} {locks : RowLocks Session Row Value}

omit [DecidableEq Session] in
theorem serial_untouched (table : Row → Value)
    : Serial table (untouched Session table) where
  owned _ _ some_ := absurd rfl some_
  held _ _ member := absurd member List.not_mem_nil
  seen _ := rfl
  replayed := rfl

omit [DecidableEq Session] in
/-- Locking a free row takes nothing from another session. -/
theorem Serial.lock (serial : Serial initial locks) {session : Session} {row : Row}
    (free : locks.Free session row)
    : Serial initial (locks.lock session row) := by
  have kept : ∀ {other row'}, locks.owner row' = some other
      → (locks.lock session row).owner row' = some other := by
    intro other row' owns
    by_cases here : row' = row
    · rw [here] at owns ⊢
      simp only [RowLocks.lock, Function.update_self]
      rcases free with nobody | mine
      · rw [nobody] at owns
        cases owns
      · exact mine ▸ owns
    · simpa [RowLocks.lock, Function.update_of_ne here] using owns
  exact {
    owned := fun other row' some_ => kept (serial.owned other row' some_)
    held := fun other update member => kept (serial.held other update member)
    seen := serial.seen
    replayed := serial.replayed
  }

/-- An update of a free row extends the session's script, and no other session notices. -/
theorem Serial.update (serial : Serial initial locks) {session : Session}
    {update : RowUpdate Row Value} (free : locks.Free session update.row)
    : Serial initial (locks.update session update) := by
  have locked := serial.lock free
  have mine : (locks.lock session update.row).owner update.row = some session := by
    simp [RowLocks.lock]
  refine ⟨?_, ?_, ?_, serial.replayed⟩
  · intro other row some_
    by_cases same : other = session
    · by_cases here : row = update.row
      · rw [here, same]
        exact mine
      · refine locked.owned other row ?_
        simpa [RowLocks.update, same, Function.update_of_ne here] using some_
    · refine locked.owned other row ?_
      simpa [RowLocks.update, Function.update_of_ne same] using some_
  · intro other entry member
    by_cases same : other = session
    · rw [same] at member ⊢
      simp only [RowLocks.update, Function.update_self, List.mem_append,
        List.mem_singleton] at member
      rcases member with before | new
      · exact locked.held session entry before
      · rw [new]
        exact mine
    · refine locked.held other entry ?_
      simpa [RowLocks.update, Function.update_of_ne same] using member
  · intro other
    by_cases same : other = session
    · have before := serial.seen session
      funext row
      simp only [same, view, RowLocks.update, Function.update_self, lock_committed,
        replay_append, ← before]
      by_cases here : row = update.row
      · simp [here, replay, RowUpdate.apply, view]
      · simp [replay, RowUpdate.apply, Function.update_of_ne here, view]
    · have before := serial.seen other
      funext row
      have there := congrFun before row
      simpa [view, RowLocks.update, Function.update_of_ne same] using there

omit [DecidableEq Row] in
/-- The rows of other sessions keep their owner at the end of a transaction. -/
theorem release_owner {session other : Session} (apart : other ≠ session) {row : Row}
    : (locks.release session).owner row = some other ↔ locks.owner row = some other := by
  by_cases mine : locks.owner row = some session
  · simp [release, mine, apart.symm]
  · simp [release, mine]

/-- A rollback leaves the commits and the other sessions as they are. -/
theorem Serial.abort (serial : Serial initial locks) (session : Session)
    : Serial initial (locks.abort session) := by
  refine ⟨?_, ?_, ?_, serial.replayed⟩
  · intro other row some_
    by_cases same : other = session
    · simp [RowLocks.abort, release, same] at some_
    · refine (release_owner same).mpr (serial.owned other row ?_)
      simpa [RowLocks.abort, release, Function.update_of_ne same] using some_
  · intro other update member
    by_cases same : other = session
    · simp [RowLocks.abort, release, same] at member
    · refine (release_owner same).mpr (serial.held other update ?_)
      simpa [RowLocks.abort, release, Function.update_of_ne same] using member
  · intro other
    by_cases same : other = session
    · funext row
      simp [RowLocks.abort, release, view, same, replay]
    · funext row
      have there := congrFun (serial.seen other) row
      simpa [RowLocks.abort, release, view, Function.update_of_ne same] using there

/-- A commit appends the session's script to the history. The rows of other sessions are
not among those it changes, by their owners.
-/
theorem Serial.commit (serial : Serial initial locks) (session : Session)
    : Serial initial (locks.commit session) := by
  have aborted := serial.abort session
  refine ⟨aborted.owned, aborted.held, ?_, ?_⟩
  · intro other
    by_cases same : other = session
    · funext row
      simp [RowLocks.commit, release, view, same, replay]
    · funext row
      have before := congrFun (serial.seen other) row
      have scripts : (locks.commit session).script other = locks.script other := by
        simp [RowLocks.commit, release, Function.update_of_ne same]
      have versions : (locks.commit session).written other = locks.written other := by
        simp [RowLocks.commit, release, Function.update_of_ne same]
      have table : (locks.commit session).committed = locks.view session := rfl
      rw [view, versions, scripts, table]
      by_cases owns : locks.owner row = some other
      · have unwritten : locks.written session row = none := by
          by_contra some_
          have mine := serial.owned session row some_
          rw [owns] at mine
          exact same (Option.some.inj mine)
        have unchanged : locks.view session row = locks.committed row := by
          simp [view, unwritten]
        rw [replay_congr _ unchanged, unchanged]
        exact before
      · have unwritten : locks.written other row = none := by
          by_contra some_
          exact owns (serial.owned other row some_)
        rw [replay_of_forall_ne]
        · simp [unwritten]
        · intro update member here
          exact owns (here ▸ serial.held other update member)
  · simp only [RowLocks.commit, replay_append, serial.seen session, ← serial.replayed]

end RowLocks

end Foundation
