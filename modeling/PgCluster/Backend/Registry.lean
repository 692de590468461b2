import PgCluster.Backend.ClusterTest

/-! The connections in db_conns and the loop that interrupts them after a signal: when a
worker's connection is overwritten, missed, or breaks the iteration.
-/

namespace PgCluster.Backend

open Foundation

variable {Thread Account : Type*} [Fintype Account]

-----------------------------------------------------------------------------------------
-- Registration
-----------------------------------------------------------------------------------------

/-- A live thread has the connection in db_local and has registered it. -/
structure Worker.Holds (worker : Worker) (conn : Conn) : Prop where
  live : ¬ worker.position.Ended
  uses : worker.dbLocal = some conn
  registered : worker.registered = true

/-- On the way from its open to its registration the thread carries the number that the
server gave its connection.
-/
def Worker.Introduced (worker : Worker) : Prop :=
  match worker.position with
  | .naming | .askingPid => worker.registered = false
  | .registering currentPid =>
      worker.registered = false
      ∧ ∃ conn, worker.dbLocal = some conn ∧ conn.pid = currentPid
  | _ => True

theorem Worker.introduced_except (worker : Worker) (error : DbError)
    : (worker.except error).Introduced := by
  rcases worker.except_position error with ⟨_, lands⟩ | ⟨_, lands | lands | lands⟩
    <;> simp [Introduced, lands]

/-- Every step keeps this. -/
theorem Worker.Introduced.step {worker : Worker} (introduced : worker.Introduced)
    (conf : Conf) (thread : Thread) (reply : Reply Account) (shared : Shared Thread Account)
    : (worker.step conf thread reply shared).1.Introduced := by
  cases worker.step_cases conf thread reply shared with
  | goes position way lands =>
      rw [lands]
      cases way with
      | names stands answers => simpa [Introduced, stands] using introduced
      | hears conn stands answers uses =>
          have unregistered : worker.registered = false := by
            simpa [Introduced, stands] using introduced
          exact ⟨unregistered, conn, uses, rfl⟩
      | _ => trivial
  | retries stands lands =>
      rw [lands]
      rcases worker.retry_lands conf with opens | executes
      · simp [Introduced, opens]
      · simp [Introduced, executes]
  | connects stands hosts answers lands =>
      rw [lands]
      rfl
  | raises error _ _ lands | loses error _ _ _ _ lands =>
      rw [lands]
      exact worker.introduced_except error
  | counts _ _ lands | registers _ _ _ _ lands | finishes _ _ _ _ lands
  | reconnects _ _ lands =>
      rw [lands]
      trivial
  | rests ended lands =>
      rw [lands]
      exact introduced

/-- What a step does to db_conns: a registration, or nothing, and then the thread comes to
hold no connection that it did not hold before.
-/
inductive Worker.Registers (worker : Worker) (shared : Shared Thread Account) (next : Worker)
    (after : Shared Thread Account)
    : Prop where
  | enters (currentPid : Nat) (conn : Conn) (stands : worker.position = .registering currentPid)
      (uses : worker.dbLocal = some conn)
      (lands : next = { worker with position := .executing, registered := true })
      (written : after.dbConns = setItem shared.dbConns currentPid conn)
  | keeps
      (elsewhere
        : ∀ currentPid,
            worker.position = .registering currentPid → worker.dbLocal = none)
      (same : after.dbConns = shared.dbConns)
      (held : ∀ conn, next.Holds conn → worker.Holds conn)

omit [Fintype Account] in
/-- A thread that keeps or drops its connection holds nothing new. -/
theorem Worker.registers_of {worker next : Worker} {shared after : Shared Thread Account}
    (elsewhere : ∀ currentPid, worker.position = .registering currentPid → worker.dbLocal = none)
    (working : ¬ worker.position.Ended) (same : after.dbConns = shared.dbConns)
    (kept : next.dbLocal = worker.dbLocal ∨ next.dbLocal = none)
    (registered : next.registered = worker.registered)
    : worker.Registers shared next after := by
  refine .keeps elsewhere same ?_
  intro conn holds
  have uses := holds.uses
  rcases kept with kept | dropped
  · exact ⟨working, kept ▸ uses, registered ▸ holds.registered⟩
  · rw [dropped] at uses
    cases uses

omit [Fintype Account] in
theorem Worker.registers_except {worker : Worker} {shared after : Shared Thread Account}
    (elsewhere : ∀ currentPid, worker.position = .registering currentPid → worker.dbLocal = none)
    (working : ¬ worker.position.Ended) (same : after.dbConns = shared.dbConns)
    (error : DbError)
    : worker.Registers shared (worker.except error) after := by
  refine registers_of elsewhere working same ?_ ?_
  · cases error <;> simp [Worker.except, repairOf, workerFuncClauses]
  · unfold Worker.except
    split <;> rfl

/-- Every step registers or holds nothing new. -/
theorem Worker.step_registers {worker : Worker} (conf : Conf)
    (thread : Thread) (reply : Reply Account) (shared : Shared Thread Account)
    : worker.Registers shared (worker.step conf thread reply shared).1
        (worker.step conf thread reply shared).2 := by
  cases worker.step_cases conf thread reply shared with
  | rests ended lands =>
      rw [lands]
      refine .keeps ?_ rfl (fun _ holds => holds)
      intro currentPid stands
      simp [stands, Position.Ended] at ended
  | goes position way lands =>
      rw [lands]
      refine registers_of ?_ ?_ rfl (.inl rfl) rfl
      · intro currentPid stands
        cases way <;> simp_all
      · cases way <;> simp_all [Position.Ended]
  | retries stands lands =>
      rw [lands]
      refine registers_of (by simp [stands]) (by simp [stands, Position.Ended]) rfl
        (.inl (worker.retry_position conf).1) ?_
      unfold Worker.retry
      split
      · rfl
      · split <;> rfl
  | connects stands hosts answers lands =>
      rw [lands]
      refine .keeps (by simp [stands]) rfl (fun conn holds => ?_)
      have registered := holds.registered
      cases registered
  | registers currentPid conn stands uses lands =>
      rw [lands]
      exact .enters currentPid conn stands uses rfl rfl
  | raises error calls raised lands =>
      rw [lands]
      have elsewhere : ∀ currentPid, worker.position ≠ .registering currentPid := by
        intro currentPid stands
        simp [stands] at calls
      have working : ¬ worker.position.Ended := by
        rintro (stands | stands) <;> simp [stands] at calls
      exact registers_except (fun _ stands => absurd stands (elsewhere _)) working rfl error
  | loses error transfer stands answers picks lands =>
      rw [lands]
      have working : ¬ worker.position.Ended := by
        simp [stands, Position.Ended]
      have same
          : (shared.commit thread worker.counted transfer false).dbConns = shared.dbConns :=
        rfl
      exact registers_except (by simp [stands]) working same error
  | counts _ stands lands | finishes _ stands _ _ lands | reconnects stands _ lands =>
      rw [lands]
      exact registers_of (by simp [stands]) (by simp [stands, Position.Ended]) rfl (by simp) rfl

-----------------------------------------------------------------------------------------
-- The loop over the registry
-----------------------------------------------------------------------------------------

/-- The main thread behind a signal: an iteration over a dict remembers the size that the
dict had at its start and raises a RuntimeError once the size differs.
-/
inductive InterruptLoop where
  | supervising
  | terminating
  | iterating (size index : Nat) (interrupted : List Conn)
  | finished (interrupted : List Conn)
  | raised
deriving DecidableEq, Repr

/-- One step of the loop; what interrupt raises is caught. -/
def InterruptLoop.next (dbConns : List (Nat × Conn)) : InterruptLoop → InterruptLoop
  | .terminating => .iterating dbConns.length 0 []
  | .iterating size index interrupted =>
      if dbConns.length ≠ size then
        .raised
      else
        match dbConns[index]? with
        | some item => .iterating size (index + 1) (interrupted ++ [item.2])
        | none => .finished interrupted
  | loop => loop

structure Termination (Thread Account : Type*) where
  test : TestState Thread Account
  loop : InterruptLoop

inductive TerminationLabel (Thread Account : Type*) [Fintype Account] where
  | test (label : Label Thread Account)
  | signal
  | next

variable [DecidableEq Thread]

/-- The workers go on while the main thread handles the signal. -/
def Termination.step (conf : Conf) (state : Termination Thread Account)
    : TerminationLabel Thread Account → Termination Thread Account
  | .test label => { state with test := state.test.step conf label }
  | .signal =>
      match state.loop with
      | .supervising => ⟨state.test.step conf .requestStop, .terminating⟩
      | _ => state
  | .next => { state with loop := state.loop.next state.test.shared.dbConns }

variable (Thread Account) in
def termination (conf : Conf)
    : Machine (Termination Thread Account) (TerminationLabel Thread Account) where
  start := ⟨(clusterTest Thread Account conf).start, .supervising⟩
  step := Termination.step conf

/-- The loop has not failed, and has interrupted a connection or has it still ahead. -/
def InterruptLoop.Covers (loop : InterruptLoop) (dbConns : List (Nat × Conn)) (conn : Conn)
    : Prop :=
  match loop with
  | .supervising | .terminating => True
  | .iterating _ index interrupted =>
      conn ∈ interrupted ∨ conn ∈ (dbConns.drop index).map Prod.snd
  | .finished interrupted => conn ∈ interrupted
  | .raised => False

/-- Each connection that a live worker has registered is a value of db_conns and reached by
the loop, which has not raised.
-/
structure Reached (state : Termination Thread Account) : Prop where
  registered
    : ∀ thread conn,
        (state.test.own thread).Holds conn → conn ∈ state.test.shared.dbConns.map Prod.snd
  covered
    : ∀ thread conn,
        (state.test.own thread).Holds conn → state.loop.Covers state.test.shared.dbConns conn
  running : state.loop ≠ .raised

/-- A registration that the loop can still reach: its key has not been passed. -/
def InterruptLoop.Admits (loop : InterruptLoop) (dbConns : List (Nat × Conn))
    (currentPid : Nat) (conn : Conn)
    : Prop :=
  match loop with
  | .iterating _ index interrupted =>
      currentPid ∈ (dbConns.map Prod.fst).take index → conn ∈ interrupted
  | .finished interrupted => conn ∈ interrupted
  | _ => True

/-- A registration takes no other live worker's number and comes neither behind the loop nor
to a key that the loop has passed; the loop moves only while the dict has its first size.
-/
def RegistersSafely (state : Termination Thread Account)
    : TerminationLabel Thread Account → Prop
  | .test (.work thread _) =>
      ∀ currentPid conn,
        (state.test.own thread).position = .registering currentPid
        → (state.test.own thread).dbLocal = some conn
        → (∀ other held,
            other ≠ thread → (state.test.own other).Holds held → held.pid = currentPid
            → held = conn)
          ∧ state.loop.Admits state.test.shared.dbConns currentPid conn
  | .next =>
      match state.loop with
      | .iterating size _ _ => state.test.shared.dbConns.length = size
      | _ => True
  | _ => True

/-- The keys are the numbers of their connections, each once, and the loop stays within. -/
structure Keyed (dbConns : List (Nat × Conn)) (loop : InterruptLoop) : Prop where
  distinct : (dbConns.map Prod.fst).Nodup
  named : ∀ item ∈ dbConns, item.1 = item.2.pid
  within
    : ∀ size index interrupted,
        loop = .iterating size index interrupted → index ≤ dbConns.length

/-- A connection is found under its number. -/
theorem Keyed.mem_values_iff {dbConns : List (Nat × Conn)} {loop : InterruptLoop}
    (keyed : Keyed dbConns loop) (index : Nat) (conn : Conn)
    : conn ∈ (dbConns.drop index).map Prod.snd ↔ (conn.pid, conn) ∈ dbConns.drop index := by
  rw [List.mem_map]
  constructor
  · rintro ⟨⟨key, value⟩, member, rfl⟩
    have same := keyed.named _ (List.mem_of_mem_drop member)
    simp only at same
    rwa [← same]
  · exact fun member => ⟨_, member, rfl⟩

/-- A registration under the connection's number keeps the keys. -/
theorem Keyed.setItem {dbConns : List (Nat × Conn)} {loop : InterruptLoop}
    (keyed : Keyed dbConns loop) (conn : Conn)
    : Keyed (setItem dbConns conn.pid conn) loop where
  distinct := nodup_keys_setItem keyed.distinct conn.pid conn
  named item member := by
    rcases (mem_setItem keyed.distinct conn.pid conn item).mp member with new | ⟨_, old⟩
    · rw [new]
    · exact keyed.named item old
  within size index interrupted loop :=
    (keyed.within size index interrupted loop).trans (length_le_setItem _ _ _)

/-- Behind an index are then the connection itself, unless its key is before it, and the
connections of other numbers that were there.
-/
theorem Keyed.mem_setItem_iff {dbConns : List (Nat × Conn)} {loop : InterruptLoop}
    (keyed : Keyed dbConns loop) {index : Nat} (within : index ≤ dbConns.length)
    (conn held : Conn)
    : held ∈ ((Foundation.setItem dbConns conn.pid conn).drop index).map Prod.snd
      ↔ held = conn ∧ conn.pid ∉ (dbConns.map Prod.fst).take index
        ∨ held.pid ≠ conn.pid ∧ held ∈ (dbConns.drop index).map Prod.snd := by
  rw [(keyed.setItem conn).mem_values_iff, keyed.mem_values_iff,
    mem_drop_setItem keyed.distinct within]
  constructor
  · rintro (⟨same, before⟩ | other)
    · exact .inl ⟨congrArg Prod.snd same, before⟩
    · exact .inr other
  · rintro (⟨rfl, before⟩ | other)
    · exact .inl ⟨rfl, before⟩
    · exact .inr other

/-- The loop takes one item of the dict at a time. -/
theorem Keyed.next {dbConns : List (Nat × Conn)} {loop : InterruptLoop}
    (keyed : Keyed dbConns loop)
    : Keyed dbConns (loop.next dbConns) := by
  refine ⟨keyed.distinct, keyed.named, ?_⟩
  intro size index interrupted here
  cases loop with
  | terminating =>
      simp only [InterruptLoop.next, InterruptLoop.iterating.injEq] at here
      omega
  | iterating size' index' interrupted' =>
      simp only [InterruptLoop.next] at here
      split at here
      · cases here
      · split at here
        · rename_i item found
          have bound := (List.getElem?_eq_some_iff.mp found).1
          simp only [InterruptLoop.iterating.injEq] at here
          omega
        · cases here
  | supervising | finished _ | raised => simp [InterruptLoop.next] at here

/-- What all runs keep: the registry is keyed by the numbers that the threads ask for. -/
structure Ordered (state : Termination Thread Account) : Prop where
  introduced : ∀ thread, (state.test.own thread).Introduced
  keyed : Keyed state.test.shared.dbConns state.loop

/-- The number under which a thread registers is that of its connection. -/
theorem Worker.Introduced.pid {worker : Worker} (introduced : worker.Introduced)
    {currentPid : Nat} (stands : worker.position = .registering currentPid) {conn : Conn}
    (uses : worker.dbLocal = some conn)
    : currentPid = conn.pid := by
  simp only [Introduced, stands] at introduced
  obtain ⟨_, other, uses', pid⟩ := introduced
  rw [uses] at uses'
  injection uses' with same
  rw [same, pid]

variable {conf : Conf}

/-- Every step keeps the order, by what it does to db_conns and to the loop. -/
theorem Ordered.step {state : Termination Thread Account} (ordered : Ordered state)
    (label : TerminationLabel Thread Account)
    : Ordered ((termination Thread Account conf).step state label) := by
  rcases label with (⟨thread, reply⟩ | _ | kept) | _ | _
  · have introduced := ordered.introduced thread
    refine ⟨?_, ?_⟩
    · exact Threads.advance_forall (fun _ (own : Worker) _ => own.Introduced)
        ordered.introduced (introduced.step conf thread reply _) (fun _ _ before => before)
    · change Keyed ((state.test.own thread).step conf thread reply state.test.shared).2.dbConns
        state.loop
      cases (state.test.own thread).step_registers conf thread reply state.test.shared with
      | enters currentPid conn stands uses _ written =>
          rw [written, introduced.pid stands uses]
          exact ordered.keyed.setItem conn
      | keeps _ same _ =>
          rw [same]
          exact ordered.keyed
  · exact ⟨ordered.introduced, ordered.keyed⟩
  · exact ⟨ordered.introduced, ordered.keyed⟩
  · simp only [termination, Termination.step]
    split
    · exact ⟨ordered.introduced, ordered.keyed.distinct, ordered.keyed.named, by simp⟩
    · exact ordered
  · exact ⟨ordered.introduced, ordered.keyed.next⟩

/-- What a registration does to the connections that were covered, and to its own. -/
theorem InterruptLoop.covers_setItem_iff {loop : InterruptLoop}
    {dbConns : List (Nat × Conn)} (keyed : Keyed dbConns loop) (running : loop ≠ .raised)
    (conn : Conn)
    : (loop.Covers (setItem dbConns conn.pid conn) conn
        ↔ loop.Admits dbConns conn.pid conn)
      ∧ ∀ held, held.pid ≠ conn.pid → loop.Covers dbConns held
        → loop.Covers (setItem dbConns conn.pid conn) held := by
  cases loop with
  | supervising | terminating => simp [Covers, Admits]
  | raised => exact absurd rfl running
  | finished interrupted => exact ⟨Iff.rfl, fun _ _ covered => covered⟩
  | iterating size index interrupted =>
      have within := keyed.within size index interrupted rfl
      refine ⟨?_, ?_⟩
      · simp only [Covers, Admits, keyed.mem_setItem_iff within, ne_eq, not_true_eq_false,
          false_and, or_false, true_and]
        constructor
        · rintro (covered | ahead) passed
          · exact covered
          · exact absurd passed ahead
        · intro covered
          by_cases passed : conn.pid ∈ (dbConns.map Prod.fst).take index
          · exact .inl (covered passed)
          · exact .inr passed
      · intro held other covered
        simp only [Covers, keyed.mem_setItem_iff within]
        exact covered.imp_right (fun ahead => .inr ⟨other, ahead⟩)

/-- The step of a thread that registers its connection writes one item of db_conns and moves
the thread on.
-/
structure Registration (state next : Termination Thread Account) (thread : Thread) (conn : Conn)
    : Prop where
  dict : next.test.shared.dbConns = setItem state.test.shared.dbConns conn.pid conn
  loop : next.loop = state.loop
  own
    : next.test.own thread
      = { state.test.own thread with position := .executing, registered := true }
  others : ∀ other, other ≠ thread → next.test.own other = state.test.own other

theorem registration_of_registering {state : Termination Thread Account} {thread : Thread}
    (reply : Reply Account) {conn : Conn}
    (stands : (state.test.own thread).position = .registering conn.pid)
    (uses : (state.test.own thread).dbLocal = some conn)
    : Registration state
        ((termination Thread Account conf).step state (.test (.work thread reply)))
        thread conn where
  dict := by simp [termination, Termination.step, TestState.step, Worker.step, stands, uses]
  loop := rfl
  own := by simp [termination, Termination.step, TestState.step, Worker.step, stands, uses]
  others _ apart := Threads.advance_own_other apart _

section Registrations

variable {state next : Termination Thread Account} {thread : Thread} {conn : Conn}

omit [Fintype Account] [DecidableEq Thread] in
/-- The thread holds its connection then. -/
theorem Registration.holds (registration : Registration state next thread conn)
    (uses : (state.test.own thread).dbLocal = some conn)
    : (next.test.own thread).Holds conn := by
  rw [registration.own]
  exact ⟨by simp [Position.Ended], uses, rfl⟩

omit [Fintype Account] [DecidableEq Thread] in
/-- The whole dict then: the connection itself and those of other numbers. -/
theorem Registration.mem_values_iff (registration : Registration state next thread conn)
    (ordered : Ordered state) (held : Conn)
    : held ∈ next.test.shared.dbConns.map Prod.snd
      ↔ held = conn
        ∨ held.pid ≠ conn.pid ∧ held ∈ state.test.shared.dbConns.map Prod.snd := by
  have behind := ordered.keyed.mem_setItem_iff (Nat.zero_le _) conn held
  rw [← registration.dict] at behind
  simpa using behind

omit [Fintype Account] in
/-- Whoever holds a connection then holds the new one or, if nobody else has taken its number,
one of another number.
-/
theorem Registration.holds_cases (registration : Registration state next thread conn)
    (uses : (state.test.own thread).dbLocal = some conn)
    (numbers
      : ∀ other held,
          other ≠ thread → (state.test.own other).Holds held → held.pid = conn.pid
          → held = conn)
    {other : Thread} {held : Conn} (heldBy : (next.test.own other).Holds held)
    : held = conn ∨ held.pid ≠ conn.pid ∧ (state.test.own other).Holds held := by
  by_cases same : other = thread
  · have used := heldBy.uses
    rw [same, registration.own] at used
    rw [uses] at used
    injection used with equal
    exact .inl equal.symm
  · rw [registration.others other same] at heldBy
    by_cases number : held.pid = conn.pid
    · exact .inl (numbers other held same heldBy number)
    · exact .inr ⟨number, heldBy⟩

end Registrations

/-- A registration leaves all connections reached exactly if it is safe: its own one is
registered now, and another live worker's one stays unless it has the same number.
-/
theorem Reached.register_iff {state : Termination Thread Account} (reached : Reached state)
    (ordered : Ordered state) {thread : Thread} {reply : Reply Account} {currentPid : Nat}
    {conn : Conn} (stands : (state.test.own thread).position = .registering currentPid)
    (uses : (state.test.own thread).dbLocal = some conn)
    : Reached ((termination Thread Account conf).step state (.test (.work thread reply)))
      ↔ RegistersSafely state (.test (.work thread reply)) := by
  obtain rfl := (ordered.introduced thread).pid stands uses
  have registration : Registration state
      ((termination Thread Account conf).step state (.test (.work thread reply))) thread conn :=
    registration_of_registering reply stands uses
  generalize (termination Thread Account conf).step state (.test (.work thread reply)) = next
    at registration
  obtain ⟨mine, rest⟩ :=
    InterruptLoop.covers_setItem_iff ordered.keyed reached.running conn
  rw [← registration.dict, ← registration.loop] at mine rest
  constructor
  · intro after number held there uses'
    rw [stands, Position.registering.injEq] at there
    rw [uses, Option.some.injEq] at uses'
    obtain rfl := there
    obtain rfl := uses'
    have covered := after.covered thread conn (registration.holds uses)
    refine ⟨?_, registration.loop ▸ mine.mp covered⟩
    intro other held apart heldBy same
    have member := after.registered other held (by rwa [registration.others other apart])
    rcases (registration.mem_values_iff ordered held).mp member with equal | ⟨differs, _⟩
    · exact equal
    · exact absurd same differs
  · intro safe
    obtain ⟨numbers, place⟩ := safe conn.pid conn stands uses
    refine ⟨?_, ?_, by rw [registration.loop]; exact reached.running⟩
    · intro other held heldBy
      rw [registration.mem_values_iff ordered]
      rcases registration.holds_cases uses numbers heldBy with new | ⟨differs, before⟩
      · exact .inl new
      · exact .inr ⟨differs, reached.registered other held before⟩
    · intro other held heldBy
      rcases registration.holds_cases uses numbers heldBy with rfl | ⟨differs, before⟩
      · exact mine.mpr (registration.loop.symm ▸ place)
      · exact rest held differs (registration.loop.symm ▸ reached.covered other held before)

/-- The loop leaves all connections reached exactly if the dict has kept its size. -/
theorem Reached.next_iff {state : Termination Thread Account} (reached : Reached state)
    : Reached ((termination Thread Account conf).step state .next)
      ↔ RegistersSafely state .next := by
  have step : (termination Thread Account conf).step state .next
      = { state with loop := state.loop.next state.test.shared.dbConns } := rfl
  rw [step]
  cases loop : state.loop with
  | supervising | finished _ | raised =>
      simp only [RegistersSafely, loop, iff_true, InterruptLoop.next]
      rw [← loop]
      exact reached
  | terminating =>
      simp only [RegistersSafely, loop, iff_true, InterruptLoop.next]
      refine ⟨reached.registered, ?_, by simp⟩
      exact fun thread conn holds => .inr (reached.registered thread conn holds)
  | iterating size index interrupted =>
      by_cases kept : state.test.shared.dbConns.length = size
      · simp only [RegistersSafely, loop, kept, iff_true, InterruptLoop.next, ne_eq,
          not_true_eq_false, if_false]
        refine ⟨reached.registered, ?_, by split <;> simp⟩
        intro thread conn holds
        have covered := reached.covered thread conn holds
        rw [loop] at covered
        rcases found : state.test.shared.dbConns[index]? with _ | item
        · have behind := List.drop_eq_nil_of_le (List.getElem?_eq_none_iff.mp found)
          simp only [InterruptLoop.Covers, behind, List.map_nil, List.not_mem_nil, or_false]
            at covered
          exact covered
        · obtain ⟨bound, here⟩ := List.getElem?_eq_some_iff.mp found
          simp only [InterruptLoop.Covers, List.drop_eq_getElem_cons bound, here, List.map_cons,
            List.mem_cons] at covered
          rcases covered with before | now | ahead
          · exact .inl (List.mem_append_left _ before)
          · exact .inl (List.mem_append_right _ (by simp [now]))
          · exact .inr ahead
      · simp only [RegistersSafely, loop, kept, iff_false, InterruptLoop.next, ne_eq,
          not_false_eq_true, if_true]
        exact fun after => after.running rfl

/-- A worker's step that registers nothing leaves all connections reached. -/
theorem Reached.work_keeps {state : Termination Thread Account} (reached : Reached state)
    {thread : Thread} {reply : Reply Account}
    (same
      : ((state.test.own thread).step conf thread reply state.test.shared).2.dbConns
        = state.test.shared.dbConns)
    (held
      : ∀ conn,
          ((state.test.own thread).step conf thread reply state.test.shared).1.Holds conn
          → (state.test.own thread).Holds conn)
    : Reached ((termination Thread Account conf).step state (.test (.work thread reply))) := by
  have dict : ((termination Thread Account conf).step state
      (.test (.work thread reply))).test.shared.dbConns = state.test.shared.dbConns := same
  have before : ∀ other conn,
      (((termination Thread Account conf).step state
        (.test (.work thread reply))).test.own other).Holds conn
      → (state.test.own other).Holds conn := by
    intro other conn holds
    by_cases mine : other = thread
    · rw [mine] at holds ⊢
      refine held conn ?_
      simpa [termination, Termination.step, TestState.step] using holds
    · simpa [termination, Termination.step, TestState.step, Threads.advance_own_other mine]
        using holds
  refine ⟨?_, ?_, reached.running⟩
  · intro other conn holds
    rw [dict]
    exact reached.registered other conn (before other conn holds)
  · intro other conn holds
    rw [dict]
    exact reached.covered other conn (before other conn holds)

/-- In every run all connections of live workers are registered and reached, and the loop
does not raise, exactly if every step is safe.
-/
theorem reached_iff (conf : Conf) (labels : List (TerminationLabel Thread Account))
    : (termination Thread Account conf).Always Reached
          (termination Thread Account conf).start labels
      ↔ (termination Thread Account conf).Each RegistersSafely
          (termination Thread Account conf).start labels := by
  refine Machine.always_iff_each Ordered (fun _ label ordered => ordered.step label)
    ?_ ?_ ?_ labels
  · intro state label ordered reached
    cases label with
    | test label =>
        cases label with
        | work thread reply =>
            cases (state.test.own thread).step_registers conf thread reply state.test.shared with
            | enters currentPid conn stands uses _ _ =>
                exact reached.register_iff ordered stands uses
            | keeps elsewhere same held =>
                refine iff_of_true (reached.work_keeps same held) ?_
                intro currentPid conn stands uses
                rw [elsewhere currentPid stands] at uses
                cases uses
        | requestStop | failover _ =>
            exact iff_of_true ⟨reached.registered, reached.covered, reached.running⟩ trivial
    | signal =>
        refine iff_of_true ?_ trivial
        simp only [termination, Termination.step]
        split
        · exact ⟨reached.registered, fun _ _ _ => trivial, by simp⟩
        · exact reached
    | next => exact reached.next_iff
  · refine ⟨fun _ => ?_, by simp [termination, clusterTest, Shared.initial], ?_,
      by simp [termination]⟩
    · simp [termination, clusterTest, Worker.initial, Worker.Introduced]
    · simp [termination, clusterTest, Shared.initial]
  · have nobody : ∀ (thread : Thread) (conn : Conn),
        ¬ (((termination Thread Account conf).start).test.own thread).Holds conn := by
      intro thread conn holds
      have registered := holds.registered
      cases registered
    exact ⟨fun thread conn holds => absurd holds (nobody thread conn),
      fun thread conn holds => absurd holds (nobody thread conn), by simp [termination]⟩

/-- A worker's step with a success on the given connection. -/
def succeedsOn {Thread : Type*} (thread : Thread) (conn : Conn)
    : TerminationLabel Thread (Fin 2) :=
  .test (.work thread { exampleReply .succeeds with conn := conn })

/-- A second worker comes from node1, where it had another number, to node2, where its number
is the one that the first worker has on node1.
-/
def sharedNumber {Thread : Type*} (first second : Thread)
    : List (TerminationLabel Thread (Fin 2)) :=
  List.replicate 9 (succeedsOn first ⟨"node1", 100, 0⟩)
    ++ List.replicate 9 (succeedsOn second ⟨"node1", 101, 1⟩)
    ++ [.test (.work second (exampleReply (.raises .readOnlyTransaction)))]
    ++ List.replicate 5 (succeedsOn second ⟨"node2", 100, 2⟩)

/-- The registry forgets the first worker's connection while it is in use. -/
theorem reached_overwritten
    : let last :=
        (termination (Fin 2) (Fin 2) (exampleConf 2 ["node1", "node2"])).run (sharedNumber 0 1)
      (last.test.own 0).Holds ⟨"node1", 100, 0⟩
      ∧ (last.test.own 1).Holds ⟨"node2", 100, 2⟩
      ∧ last.test.shared.dbConns.map Prod.snd = [⟨"node2", 100, 2⟩, ⟨"node1", 101, 1⟩]
      ∧ ¬ Reached last := by
  intro last
  have first : (last.test.own 0).Holds ⟨"node1", 100, 0⟩ := ⟨by decide, by decide, by decide⟩
  have second : (last.test.own 1).Holds ⟨"node2", 100, 2⟩ := ⟨by decide, by decide, by decide⟩
  have values : last.test.shared.dbConns.map Prod.snd
      = [⟨"node2", 100, 2⟩, ⟨"node1", 101, 1⟩] := by
    decide
  refine ⟨first, second, values, ?_⟩
  intro reached
  have member := reached.registered 0 _ first
  rw [values] at member
  simp at member

end PgCluster.Backend
