import PgCluster.Backend.ClusterTest
import Mathlib.Data.Fintype.BigOperators

/-! The number of committed transfers when every call of the database succeeds: exact when
the increments are serialised, and one too many in some run of every larger test.
-/

namespace PgCluster.Backend

open Foundation

variable {Thread Account : Type*} [Fintype Account] {conf : Conf}

/-- Every operation can be carried out: there is a host and there are two accounts. -/
def Conf.Workable (conf : Conf) (Account : Type*) [Fintype Account] : Prop :=
  conf.dbHosts ≠ [] ∧ 2 ≤ Fintype.card Account

-----------------------------------------------------------------------------------------
-- Every counted operation is committed
-----------------------------------------------------------------------------------------

/-- One for an operation that is counted and not done. -/
def Worker.pending (worker : Worker) : Nat :=
  match worker.position with
  | .retry | .opening | .naming | .askingPid | .registering _ | .executing | .rollback
  | .returnTest => 1
  | _ => 0

/-- No exception has been raised, and behind an open the thread has its connection. -/
structure Worker.Smooth (worker : Worker) : Prop where
  hosts : worker.dbHosts ≠ []
  unrepaired : worker.position ≠ .rollback ∧ worker.position ≠ .returnTest
  connected : worker.Connected

theorem switchHost_eq_nil {hosts : List String} : switchHost hosts = [] ↔ hosts = [] := by
  cases hosts <;> simp [switchHost]

/-- Between the loop test and the write of the counter. -/
def Position.Counting : Position → Prop
  | .stopTest | .load | .store _ => True
  | _ => False

/-- The loop has ended. -/
def Position.Past : Position → Prop
  | .closing | .returned | .escaped => True
  | _ => False

/-- Without an exception nothing has to be repaired, and a smooth worker gets past each
subscript: it stays on its way, or the loop or the request ends it.
-/
theorem Worker.Smooth.way {worker : Worker} (smooth : worker.Smooth)
    (several : 2 ≤ Fintype.card Account) {reply : Reply Account} {shared : Shared Thread Account}
    {position : Position} (way : worker.Way conf reply shared position)
    : (position ≠ .rollback ∧ position ≠ .returnTest)
      ∧ Worker.pending { worker with position := position } = worker.pending
      ∧ (position.Past → shared.isTerminate = false
        → worker.position = .loopTest ∧ conf.operations ≤ shared.operationNum
          ∨ worker.position.Past) := by
  have repaired := smooth.unrepaired
  cases way with
  | begins stands _ | works stands _ | loads stands | names stands _ | hears _ stands _ _ =>
      simp [pending, stands, Position.Past]
  | done stands enough => simp [pending, stands, not_lt.mp enough]
  | stops stands stopped => simp [pending, stands, stopped]
  | closes stands _ | unclosed stands _ => simp [pending, stands, Position.Past]
  | hostless stands hosts => exact absurd hosts smooth.hosts
  | unheard stands _ missing => exact absurd stands (smooth.connected missing).2.1
  | unregistered currentPid stands missing =>
      exact absurd stands ((smooth.connected missing).2.2 currentPid)
  | rowless stands _ rows =>
      obtain ⟨transfer, picks⟩ := reply.exists_transfer several
      simp [rows] at picks
  | unrolled stands _ | rollsBack stands _ _ | rollbackFails _ stands _ _ _ =>
      exact absurd stands repaired.1
  | returns stands _ => exact absurd stands repaired.2

theorem Worker.raised_of_succeeds {worker : Worker} {reply : Reply Account}
    (succeeds : reply.answer = .succeeds)
    : worker.raised reply = none := by
  cases stands : worker.position <;> simp [raised, stands, succeeds, Answer.error?]

/-- With successful calls a worker stays smooth, and commits what it has counted. -/
theorem Worker.Smooth.step {worker : Worker} (smooth : worker.Smooth)
    (several : 2 ≤ Fintype.card Account) {reply : Reply Account}
    (succeeds : reply.answer = .succeeds) (conf : Conf) (thread : Thread)
    (shared : Shared Thread Account)
    : (worker.step conf thread reply shared).1.Smooth
      ∧ (worker.step conf thread reply shared).2.committed.length
          + (worker.step conf thread reply shared).1.pending + worker.counted
        = shared.committed.length + worker.pending
          + (worker.step conf thread reply shared).1.counted := by
  have kept := smooth.connected.step conf thread reply shared
  cases worker.step_cases conf thread reply shared with
  | goes position way lands =>
      rw [lands] at kept ⊢
      have onItsWay := smooth.way several way
      exact ⟨⟨smooth.hosts, onItsWay.1, kept⟩, by simp [onItsWay.2.1]⟩
  | counts seen stands lands =>
      rw [lands] at kept ⊢
      refine ⟨⟨smooth.hosts, by simp, kept⟩, ?_⟩
      simp only [pending, stands]
      omega
  | retries stands lands =>
      rw [lands] at kept ⊢
      have hosts : (worker.retry conf).dbHosts ≠ [] := by
        unfold Worker.retry
        split
        · exact smooth.hosts
        · split
          · exact smooth.hosts
          · simpa [switchHost_eq_nil] using smooth.hosts
      rcases worker.retry_lands conf with opens | executes
      · exact ⟨⟨hosts, by simp [opens], kept⟩, by simp [pending, stands, opens]⟩
      · exact ⟨⟨hosts, by simp [executes], kept⟩, by simp [pending, stands, executes]⟩
  | connects stands hosts answers lands =>
      rw [lands] at kept ⊢
      exact ⟨⟨hosts, by simp, kept⟩, by simp [pending, stands]⟩
  | registers currentPid conn stands uses lands =>
      rw [lands] at kept ⊢
      exact ⟨⟨smooth.hosts, by simp, kept⟩, by simp [pending, stands]⟩
  | raises error calls raised lands => simp [raised_of_succeeds succeeds] at raised
  | finishes transfer stands answers picks lands =>
      rw [lands] at kept ⊢
      refine ⟨⟨smooth.hosts, by simp, kept⟩, ?_⟩
      simp only [pending, stands, Shared.commit, List.length_append, List.length_singleton]
  | loses error transfer stands answers picks lands => simp [succeeds] at answers
  | reconnects stands running lands => exact absurd stands smooth.unrepaired.2
  | rests ended lands =>
      rw [lands]
      exact ⟨smooth, rfl⟩

/-- Only a load leads to a store, of the value it has seen. -/
theorem Worker.position_of_step_store {worker : Worker} {thread : Thread}
    {reply : Reply Account} {shared : Shared Thread Account} {seen : Nat}
    (lands : (worker.step conf thread reply shared).1.position = .store seen)
    : worker.position = .load ∧ shared.operationNum = seen := by
  have raisesNone : ∀ error, (worker.except error).position ≠ .store seen := by
    intro error same
    have landing := worker.except_attempting error
    simp [same, Position.Attempting] at landing
  cases worker.step_cases conf thread reply shared with
  | goes position way result =>
      rw [result] at lands
      cases way with
      | loads stands => exact ⟨stands, by injection lands⟩
      | _ => cases lands
  | retries stands result =>
      rw [result] at lands
      rcases worker.retry_lands conf with opens | executes
      · simp [opens] at lands
      · simp [executes] at lands
  | raises error _ _ result | loses error _ _ _ _ result =>
      rw [result] at lands
      exact absurd lands (raisesNone error)
  | counts _ _ result | connects _ _ _ result | registers _ _ _ _ result
  | finishes _ _ _ _ result | reconnects _ _ result =>
      rw [result] at lands
      cases lands
  | rests ended result =>
      rw [result] at lands
      rcases ended with stands | stands <;> simp [stands] at lands

theorem Position.Attempting.not_counting {position : Position}
    (attempting : position.Attempting)
    : ¬ position.Counting := by
  cases position <;> simp_all [Attempting, Counting]

/-- A thread is on its way to the write only behind a loop test that it passed. -/
theorem Worker.counting_of_step {worker : Worker} {thread : Thread} {reply : Reply Account}
    {shared : Shared Thread Account}
    (counting : (worker.step conf thread reply shared).1.position.Counting)
    : worker.position = .loopTest ∧ shared.operationNum < conf.operations
      ∨ worker.position.Counting ∧ ∀ seen, worker.position ≠ .store seen := by
  have raisesNone : ∀ error, ¬ (worker.except error).position.Counting := by
    intro error
    rcases worker.except_attempting error with attempting | escaped
    · exact attempting.not_counting
    · simp [escaped, Position.Counting]
  cases worker.step_cases conf thread reply shared with
  | goes position way lands =>
      rw [lands] at counting
      cases way with
      | begins stands more => exact .inl ⟨stands, more⟩
      | works stands _ | loads stands => simp [stands, Position.Counting]
      | _ => exact counting.elim
  | retries stands lands =>
      rw [lands] at counting
      rcases worker.retry_lands conf with opens | executes
      · simp [opens, Position.Counting] at counting
      · simp [executes, Position.Counting] at counting
  | raises error _ _ lands | loses error _ _ _ _ lands =>
      rw [lands] at counting
      exact absurd counting (raisesNone error)
  | counts _ _ lands | connects _ _ _ lands | registers _ _ _ _ lands
  | finishes _ _ _ _ lands | reconnects _ _ lands =>
      rw [lands] at counting
      exact counting.elim
  | rests ended lands =>
      rw [lands] at counting
      rcases ended with stands | stands <;> simp [stands, Position.Counting] at counting

/-- Without a stop request a smooth worker leaves the loop only at its test. -/
theorem Worker.Smooth.past_of_step {worker : Worker} (smooth : worker.Smooth)
    (several : 2 ≤ Fintype.card Account) {thread : Thread} {reply : Reply Account}
    {shared : Shared Thread Account} (succeeds : reply.answer = .succeeds)
    (running : shared.isTerminate = false)
    (past : (worker.step conf thread reply shared).1.position.Past)
    : worker.position = .loopTest ∧ conf.operations ≤ shared.operationNum
      ∨ worker.position.Past := by
  cases worker.step_cases conf thread reply shared with
  | goes position way lands =>
      rw [lands] at past
      exact (smooth.way several way).2.2 past running
  | retries stands lands =>
      rw [lands] at past
      rcases worker.retry_lands conf with opens | executes
      · simp [opens, Position.Past] at past
      · simp [executes, Position.Past] at past
  | raises error calls raised lands => simp [raised_of_succeeds succeeds] at raised
  | loses error transfer stands answers picks lands => simp [succeeds] at answers
  | counts _ _ lands | connects _ _ _ lands | registers _ _ _ _ lands
  | finishes _ _ _ _ lands | reconnects _ _ lands =>
      rw [lands] at past
      exact past.elim
  | rests ended lands =>
      rw [lands] at past
      exact .inr past

/-- A step that is no write leaves the counter alone. -/
theorem Worker.step_operationNum {worker : Worker} (conf : Conf) (thread : Thread)
    (reply : Reply Account) (shared : Shared Thread Account)
    (stands : ∀ seen, worker.position ≠ .store seen)
    : (worker.step conf thread reply shared).2.operationNum = shared.operationNum
      ∧ (worker.step conf thread reply shared).1.counted = worker.counted := by
  cases worker.step_effect conf thread reply shared with
  | counts seen store _ _ _ _ => exact absurd store (stands seen)
  | finishes _ _ _ counted commits => exact ⟨by rw [commits]; rfl, counted⟩
  | loses _ _ _ counted commits => exact ⟨by rw [commits]; rfl, counted⟩
  | moves _ counted written _ _ _ => exact ⟨written, counted⟩

variable [DecidableEq Thread] [Fintype Thread]

def TestState.pending (state : TestState Thread Account) : Nat :=
  ∑ thread, (state.own thread).pending

/-- The commits tally with the increments, of which the counter holds at most all. -/
structure Tally (state : TestState Thread Account) : Prop where
  smooth : ∀ thread, (state.own thread).Smooth
  commits : state.shared.committed.length + state.pending = state.counted
  counter : state.shared.operationNum ≤ state.counted
  seen
    : ∀ thread seen, (state.own thread).position = .store seen → seen ≤ state.counted

theorem tally_start (hosts : conf.dbHosts ≠ [])
    : Tally (clusterTest Thread Account conf).start where
  smooth _ :=
    ⟨hosts, by simp [clusterTest, Worker.initial],
      fun _ => by simp [clusterTest, Worker.initial]⟩
  commits := by
    simp [clusterTest, TestState.pending, TestState.counted, Shared.initial, Worker.initial,
      Worker.pending]
  counter := Nat.zero_le _
  seen := by simp [clusterTest, Worker.initial]

/-- A step counts at most one operation more. -/
theorem counted_advance (conf : Conf) (state : TestState Thread Account) (thread : Thread)
    (reply : Reply Account)
    : TestState.counted (state.advance thread (Worker.step conf thread reply))
          + (state.own thread).counted
        = state.counted
          + ((state.own thread).step conf thread reply state.shared).1.counted
      ∧ state.counted
        ≤ TestState.counted (state.advance thread (Worker.step conf thread reply)) := by
  have sum := state.sum_advance Worker.counted thread (Worker.step conf thread reply)
  refine ⟨sum, ?_⟩
  unfold TestState.counted
  cases (state.own thread).step_effect conf thread reply state.shared with
  | counts _ _ _ counted _ _ => omega
  | finishes _ _ _ counted _ => omega
  | loses _ _ _ counted _ => omega
  | moves _ counted _ _ _ _ => omega

/-- Successful steps keep the tally, by the effect of the step. -/
theorem Tally.step {state : TestState Thread Account} (tally : Tally state)
    (conf : Conf) (several : 2 ≤ Fintype.card Account) {label : Label Thread Account}
    (succeeds : label.Succeeds)
    : Tally ((clusterTest Thread Account conf).step state label) := by
  obtain ⟨thread, reply, rfl, answer⟩ := succeeds.work
  obtain ⟨smooth, commits⟩ :=
    (tally.smooth thread).step several answer conf thread state.shared
  obtain ⟨sum, more⟩ := counted_advance conf state thread reply
  have pending := state.sum_advance Worker.pending thread (Worker.step conf thread reply)
  have before := tally.commits
  have counter := tally.counter
  refine ⟨?_, ?_, ?_, ?_⟩
  · refine Threads.advance_forall (fun _ (own : Worker) _ => own.Smooth) tally.smooth smooth ?_
    exact fun _ _ kept => kept
  · simp only [clusterTest_work, Threads.advance_shared]
    unfold TestState.pending at before ⊢
    omega
  · simp only [clusterTest_work, Threads.advance_shared]
    cases (state.own thread).step_effect conf thread reply state.shared with
    | counts seen stands _ counted written _ =>
        have bound := tally.seen thread seen stands
        omega
    | finishes _ _ _ _ commits =>
        rw [commits]
        exact Nat.le_trans counter more
    | loses _ _ _ _ commits =>
        rw [commits]
        exact Nat.le_trans counter more
    | moves _ _ written _ _ _ => omega
  · intro other seen stands
    refine Nat.le_trans ?_ more
    by_cases same : other = thread
    · rw [same, clusterTest_work, Threads.advance_own_self] at stands
      rw [← (Worker.position_of_step_store stands).2]
      exact counter
    · rw [clusterTest_work, Threads.advance_own_other same] at stands
      exact tally.seen other seen stands

-----------------------------------------------------------------------------------------
-- Serialised increments
-----------------------------------------------------------------------------------------

/-- A loop test is passed only while no thread is between its own and its write. -/
def Serialised (conf : Conf) (state : TestState Thread Account)
    : Label Thread Account → Prop
  | .work thread _ =>
      (state.own thread).position = .loopTest
      → state.shared.operationNum < conf.operations
      → ∀ other, ¬ (state.own other).position.Counting
  | _ => True

/-- The counter is exact and one thread at a time takes it up to the bound. -/
structure Serial (conf : Conf) (state : TestState Thread Account) : Prop where
  tally : Tally state
  running : state.shared.isTerminate = false
  counter : state.shared.operationNum = state.counted
  bound : state.shared.operationNum ≤ conf.operations
  alone
    : ∀ thread other,
        (state.own thread).position.Counting → (state.own other).position.Counting
        → thread = other
  below
    : ∀ thread,
        (state.own thread).position.Counting → state.shared.operationNum < conf.operations
  seen
    : ∀ thread seen,
        (state.own thread).position = .store seen → seen = state.shared.operationNum
  past
    : ∀ thread,
        (state.own thread).position.Past → conf.operations ≤ state.shared.operationNum

/-- The write of the one counting thread counts one operation. -/
theorem Serial.store_step {state : TestState Thread Account} (serial : Serial conf state)
    {thread : Thread} {reply : Reply Account} {seen : Nat}
    (stands : (state.own thread).position = .store seen)
    (tally : Tally (state.advance thread (Worker.step conf thread reply)))
    : Serial conf (state.advance thread (Worker.step conf thread reply)) := by
  have counting : (state.own thread).position.Counting := by
    simp [stands, Position.Counting]
  have below := serial.below thread counting
  have seenNow := serial.seen thread seen stands
  have counter := serial.counter
  have lands : ((state.own thread).step conf thread reply state.shared).1.position = .retry := by
    simp [Worker.step, stands]
  have nobody : ∀ other,
      ¬ ((state.advance thread (Worker.step conf thread reply)).own other).position.Counting := by
    intro other
    by_cases same : other = thread
    · rw [same, Threads.advance_own_self, lands]
      exact fun counts => counts
    · rw [Threads.advance_own_other same]
      exact fun also => same (serial.alone other thread also counting)
  have written : (state.advance thread (Worker.step conf thread reply)).shared.operationNum
      = seen + 1 := by
    simp [Worker.step, stands]
  have counted : ((state.own thread).step conf thread reply state.shared).1.counted
      = (state.own thread).counted + 1 := by
    simp [Worker.step, stands]
  obtain ⟨sum, _⟩ := counted_advance conf state thread reply
  refine ⟨tally, ?_, by omega, by omega, ?_, ?_, ?_, ?_⟩
  · rw [Threads.advance_shared, Worker.step_isTerminate]
    exact serial.running
  · exact fun other _ counts => absurd counts (nobody other)
  · exact fun other counts => absurd counts (nobody other)
  · intro other value store
    exact absurd (by rw [store]; trivial) (nobody other)
  · intro other past
    exfalso
    by_cases same : other = thread
    · rw [same, Threads.advance_own_self, lands] at past
      exact past
    · rw [Threads.advance_own_other same] at past
      have reached := serial.past other past
      omega

omit [Fintype Thread] in
/-- Who counts behind a step has counted ahead of it, or is the stepping thread and has passed
its loop test.
-/
theorem counting_of_advance {state : TestState Thread Account} {thread other : Thread}
    {reply : Reply Account}
    (counts : ((state.advance thread (Worker.step conf thread reply)).own
      other).position.Counting)
    : other = thread
        ∧ (state.own thread).position = .loopTest
        ∧ state.shared.operationNum < conf.operations
      ∨ (state.own other).position.Counting := by
  by_cases same : other = thread
  · rw [same, Threads.advance_own_self] at counts
    rcases Worker.counting_of_step counts with ⟨test, more⟩ | ⟨already, _⟩
    · exact .inl ⟨same, test, more⟩
    · exact .inr (by rwa [same])
  · rw [Threads.advance_own_other same] at counts
    exact .inr counts

/-- Any other step leaves the counter alone, and only a passed loop test adds a counting
thread.
-/
theorem Serial.other_step {state : TestState Thread Account} (serial : Serial conf state)
    (several : 2 ≤ Fintype.card Account) {thread : Thread} {reply : Reply Account}
    (succeeds : reply.answer = .succeeds)
    (serialised : Serialised conf state (.work thread reply))
    (stands : ∀ seen, (state.own thread).position ≠ .store seen)
    (tally : Tally (state.advance thread (Worker.step conf thread reply)))
    : Serial conf (state.advance thread (Worker.step conf thread reply)) := by
  obtain ⟨written, counted⟩ := Worker.step_operationNum conf thread reply state.shared stands
  have same_ : (state.advance thread (Worker.step conf thread reply)).shared.operationNum
      = state.shared.operationNum := written
  have counter := serial.counter
  have bound := serial.bound
  obtain ⟨sum, _⟩ := counted_advance conf state thread reply
  refine ⟨tally, ?_, by omega, by omega, ?_, ?_, ?_, ?_⟩
  · rw [Threads.advance_shared, Worker.step_isTerminate]
    exact serial.running
  · intro first second counts also
    rcases counting_of_advance counts with ⟨same, test, more⟩ | counts
    · rcases counting_of_advance also with ⟨alike, _, _⟩ | also
      · rw [same, alike]
      · exact absurd also (serialised test more second)
    · rcases counting_of_advance also with ⟨alike, test, more⟩ | also
      · exact absurd counts (serialised test more first)
      · exact serial.alone first second counts also
  · intro other counts
    rw [same_]
    rcases counting_of_advance counts with ⟨_, _, more⟩ | counts
    · exact more
    · exact serial.below other counts
  · intro other seen store
    rw [same_]
    by_cases same : other = thread
    · rw [same, Threads.advance_own_self] at store
      exact (Worker.position_of_step_store store).2.symm
    · rw [Threads.advance_own_other same] at store
      exact serial.seen other seen store
  · intro other past
    rw [same_]
    by_cases same : other = thread
    · rw [same, Threads.advance_own_self] at past
      rcases (serial.tally.smooth thread).past_of_step several succeeds serial.running past
        with ⟨_, enough⟩ | already
      · exact enough
      · exact serial.past thread already
    · rw [Threads.advance_own_other same] at past
      exact serial.past other past

/-- Serialised steps keep the counter exact, by cases on whether the step is the write. -/
theorem Serial.step {state : TestState Thread Account} (serial : Serial conf state)
    (several : 2 ≤ Fintype.card Account) {label : Label Thread Account}
    (succeeds : label.Succeeds) (serialised : Serialised conf state label)
    : Serial conf ((clusterTest Thread Account conf).step state label) := by
  have tally := serial.tally.step conf several succeeds
  obtain ⟨thread, reply, rfl, answer⟩ := succeeds.work
  by_cases stores : ∃ seen, (state.own thread).position = .store seen
  · obtain ⟨seen, stands⟩ := stores
    exact serial.store_step stands tally
  · exact serial.other_step several answer serialised
      (fun seen same => stores ⟨seen, same⟩) tally

theorem serial_start (hosts : conf.dbHosts ≠ []) (some_ : 0 ≤ conf.operations)
    : Serial conf (clusterTest Thread Account conf).start where
  tally := tally_start hosts
  running := rfl
  counter := by simp [clusterTest, TestState.counted, Shared.initial, Worker.initial]
  bound := some_
  alone := by simp [clusterTest, Worker.initial, Position.Counting]
  below := by simp [clusterTest, Worker.initial, Position.Counting]
  seen := by simp [clusterTest, Worker.initial]
  past := by simp [clusterTest, Worker.initial, Position.Past]

/-- All workers have ended. -/
def TestState.AllEnded (state : TestState Thread Account) : Prop :=
  ∀ thread, (state.own thread).position.Ended

omit [DecidableEq Thread] [Fintype Account] in
theorem TestState.AllEnded.pending_eq_zero {state : TestState Thread Account}
    (ended : state.AllEnded)
    : state.pending = 0 := by
  refine Finset.sum_eq_zero ?_
  intro thread _
  rcases ended thread with ceased | ceased <;> simp [Worker.pending, ceased]

/-- In a run with serialised increments the commits are as many as the operations, by the
invariant at its end.
-/
theorem committed_of_serialised [Nonempty Thread] (workable : conf.Workable Account)
    (wanted : 0 ≤ conf.operations) {labels : List (Label Thread Account)}
    (succeeds : ∀ label ∈ labels, label.Succeeds)
    (serialised
      : (clusterTest Thread Account conf).Each (Serialised conf)
          (clusterTest Thread Account conf).start labels)
    (ended : ((clusterTest Thread Account conf).run labels).AllEnded)
    : ((clusterTest Thread Account conf).run labels).shared.committed.length
      = conf.operations := by
  have serial : Serial conf ((clusterTest Thread Account conf).run labels) := by
    refine Machine.after_invariant (Serial conf) ?_ (serial_start workable.1 wanted)
      ((Machine.each_of_labels succeeds _).and serialised)
    intro state label before met
    exact before.step workable.2 met.1 met.2
  obtain ⟨thread⟩ := ‹Nonempty Thread›
  have past := serial.past thread
    (by rcases ended thread with ceased | ceased <;> simp [ceased, Position.Past])
  have none_ := ended.pending_eq_zero
  have commits := serial.tally.commits
  have counter := serial.counter
  have bound := serial.bound
  omega

-----------------------------------------------------------------------------------------
-- Runs that end
-----------------------------------------------------------------------------------------

/-- The value that the thread's next write will be based on. -/
def Worker.basis (worker : Worker) (shared : Shared Thread Account) : Nat :=
  match worker.position with
  | .store seen => seen
  | _ => shared.operationNum

/-- The operations still ahead of a thread that runs alone weigh more than the steps of one. -/
def Worker.measure (conf : Conf) (worker : Worker) (shared : Shared Thread Account) : Nat :=
  let ahead := (conf.operations - worker.basis shared).toNat
  match worker.position with
  | .loopTest => 20 * ahead + 5
  | .stopTest => 20 * max ahead 1 + 4
  | .load => 20 * max ahead 1 + 3
  | .store _ => 20 * max ahead 1 + 2
  | .rollback | .returnTest => 20 * ahead + 15
  | .retry => 20 * ahead + 14
  | .opening => 20 * ahead + 13
  | .naming => 20 * ahead + 12
  | .askingPid => 20 * ahead + 11
  | .registering _ => 20 * ahead + 10
  | .executing => 20 * ahead + 9
  | .closing => 1
  | .returned | .escaped => 0

omit [DecidableEq Thread] [Fintype Thread] in
/-- A successful step comes closer to the end of the thread, by cases on the position. -/
theorem Worker.measure_step_lt {worker : Worker} (working : ¬ worker.position.Ended)
    (conf : Conf) (thread : Thread) {reply : Reply Account}
    (succeeds : reply.answer = .succeeds) (shared : Shared Thread Account)
    : (worker.step conf thread reply shared).1.measure conf
        (worker.step conf thread reply shared).2
      < worker.measure conf shared := by
  have noError : reply.answer.error? = none := by simp [succeeds, Answer.error?]
  cases stands : worker.position with
  | loopTest =>
      by_cases more : shared.operationNum < conf.operations
      · simp only [Worker.step, stands, more, if_true, measure, basis]
        omega
      · simp only [Worker.step, stands, more, if_false, measure, basis]
        omega
  | stopTest =>
      cases stopped : shared.isTerminate <;> simp [Worker.step, stands, stopped, measure, basis]
  | load => simp [Worker.step, stands, measure, basis]
  | store seen =>
      simp only [Worker.step, stands, measure, basis]
      omega
  | retry =>
      simp only [Worker.step, stands, Worker.retry]
      repeat' split
      all_goals simp [stands, measure, basis]
  | opening =>
      simp only [Worker.step, stands, noError]
      split <;> simp_all [measure, basis]
  | naming | rollback | askingPid | registering _ =>
      simp only [Worker.step, stands, noError]
      try split
      all_goals simp_all [measure, basis]
  | executing =>
      simp only [Worker.step, Worker.execute, stands, succeeds]
      split <;> simp_all [measure, basis, Shared.commit]
  | returnTest =>
      cases stopped : shared.isTerminate <;> simp [Worker.step, stands, stopped, measure, basis]
  | closing =>
      simp only [Worker.step, stands]
      split <;> simp [stands, measure]
  | returned | escaped => simp [stands, Position.Ended] at working

omit [DecidableEq Thread] [Fintype Thread] in
theorem Label.succeeds_of_mem_replicate {thread : Thread} {reply : Reply Account}
    (succeeds : reply.answer = .succeeds) {count : Nat} {label : Label Thread Account}
    (member : label ∈ List.replicate count (Label.work thread reply))
    : label.Succeeds := by
  rw [List.eq_of_mem_replicate member]
  exact succeeds

omit [Fintype Thread] in
/-- A thread that runs alone ends, by induction on the measure. -/
theorem exists_solo_ended (conf : Conf) {reply : Reply Account}
    (succeeds : reply.answer = .succeeds) (thread : Thread) (state : TestState Thread Account)
    : ∃ count,
        let last := (clusterTest Thread Account conf).after state
          (List.replicate count (.work thread reply))
        (last.own thread).position.Ended
        ∧ ∀ other, other ≠ thread → last.own other = state.own other := by
  induction size : (state.own thread).measure conf state.shared
    using Nat.strong_induction_on generalizing state with
  | _ size_ ih =>
      by_cases ended : (state.own thread).position.Ended
      · exact ⟨0, ended, fun _ _ => rfl⟩
      · have less := Worker.measure_step_lt ended conf thread succeeds state.shared
        obtain ⟨count, ceased, kept⟩ :=
          ih _ (size ▸ less) (state.advance thread (Worker.step conf thread reply)) (by simp)
        refine ⟨count + 1, ceased, ?_⟩
        intro other apart
        exact (kept other apart).trans (Threads.advance_own_other apart _)

omit [Fintype Thread] in
/-- Any threads can be run to their ends one after another, by induction on their list. -/
theorem exists_ended (conf : Conf) {reply : Reply Account} (succeeds : reply.answer = .succeeds)
    (threads : List Thread) (state : TestState Thread Account)
    : ∃ labels : List (Label Thread Account),
        (∀ label ∈ labels, label.Succeeds)
        ∧ (∀ thread ∈ threads,
          (((clusterTest Thread Account conf).after state labels).own thread).position.Ended)
        ∧ ∀ thread, thread ∉ threads
          → ((clusterTest Thread Account conf).after state labels).own thread
            = state.own thread := by
  induction threads generalizing state with
  | nil => exact ⟨[], by simp, by simp, fun _ _ => rfl⟩
  | cons first rest ih =>
      obtain ⟨count, ceased, kept⟩ := exists_solo_ended conf succeeds first state
      obtain ⟨labels, allSucceed, ended, same⟩ := ih
        ((clusterTest Thread Account conf).after state (.replicate count (.work first reply)))
      refine ⟨.replicate count (.work first reply) ++ labels, ?_, ?_, ?_⟩
      · intro label member
        rcases List.mem_append.mp member with alone | later
        · exact Label.succeeds_of_mem_replicate succeeds alone
        · exact allSucceed label later
      · intro thread member
        rw [Machine.after_append]
        by_cases later : thread ∈ rest
        · exact ended thread later
        · rcases List.mem_cons.mp member with here | later'
          · rw [same thread later, here]
            exact ceased
          · exact absurd later' later
      · intro thread outside
        rw [Machine.after_append, same thread (fun later => outside (.tail _ later))]
        exact kept thread (fun here => outside (here ▸ List.mem_cons_self))

theorem exists_allEnded (conf : Conf) {reply : Reply Account}
    (succeeds : reply.answer = .succeeds) (state : TestState Thread Account)
    : ∃ labels : List (Label Thread Account),
        (∀ label ∈ labels, label.Succeeds)
        ∧ ((clusterTest Thread Account conf).after state labels).AllEnded := by
  obtain ⟨labels, allSucceed, ended, _⟩ :=
    exists_ended conf succeeds Finset.univ.toList state
  exact ⟨labels, allSucceed, fun thread => ended thread (by simp)⟩

-----------------------------------------------------------------------------------------
-- One transfer too many
-----------------------------------------------------------------------------------------

theorem tally_after {state : TestState Thread Account} (tally : Tally state)
    (several : 2 ≤ Fintype.card Account) {labels : List (Label Thread Account)}
    (succeeds : ∀ label ∈ labels, label.Succeeds)
    : Tally ((clusterTest Thread Account conf).after state labels) :=
  Machine.after_invariant Tally (fun _ _ before met => before.step conf several met) tally
    (Machine.each_of_labels succeeds _)

/-- The increments are never taken back. -/
theorem counted_after (conf : Conf) (state : TestState Thread Account)
    {labels : List (Label Thread Account)} (succeeds : ∀ label ∈ labels, label.Succeeds)
    : state.counted ≤ ((clusterTest Thread Account conf).after state labels).counted := by
  refine Machine.after_invariant
    (fun later : TestState Thread Account => state.counted ≤ later.counted) ?_ le_rfl
    (Machine.each_of_labels succeeds _)
  intro later label before met
  obtain ⟨thread, reply, rfl, _⟩ := met.work
  exact before.trans (counted_advance conf later thread reply).2

omit [Fintype Thread] in
/-- A thread that ends alone has seen the counter at the bound. -/
theorem operations_le_of_solo {state : TestState Thread Account} {thread : Thread}
    (smooth : (state.own thread).Smooth) (several : 2 ≤ Fintype.card Account)
    (running : state.shared.isTerminate = false)
    (working : ¬ (state.own thread).position.Past) {reply : Reply Account}
    (succeeds : reply.answer = .succeeds) {count : Nat}
    (ended
      : (((clusterTest Thread Account conf).after state
          (.replicate count (.work thread reply))).own thread).position.Ended)
    : conf.operations
      ≤ ((clusterTest Thread Account conf).after state
          (.replicate count (.work thread reply))).shared.operationNum := by
  have each : (clusterTest Thread Account conf).Each
      (fun _ label => label = .work thread reply) state (.replicate count (.work thread reply)) :=
    Machine.each_of_labels (fun _ member => List.eq_of_mem_replicate member) _
  have kept := Machine.after_invariant
    (fun later : TestState Thread Account =>
      (later.own thread).Smooth
      ∧ later.shared.isTerminate = false
      ∧ ((later.own thread).position.Past → conf.operations ≤ later.shared.operationNum))
    ?_ ⟨smooth, running, fun past => absurd past working⟩ each
  · refine kept.2.2 ?_
    rcases ended with ceased | ceased <;> simp [ceased, Position.Past]
  · intro later label before same
    obtain ⟨smooth, running, bound⟩ := before
    rw [same]
    simp only [clusterTest_work, Threads.advance_own_self, Threads.advance_shared,
      Worker.step_isTerminate]
    refine ⟨(smooth.step several succeeds conf thread later.shared).1, running, ?_⟩
    intro past
    have reached : conf.operations ≤ later.shared.operationNum
        ∧ ∀ seen, (later.own thread).position ≠ .store seen := by
      rcases smooth.past_of_step several succeeds running past with ⟨test, enough⟩ | already
      · exact ⟨enough, by simp [test]⟩
      · refine ⟨bound already, ?_⟩
        intro seen stands
        simp [stands, Position.Past] at already
    rw [(Worker.step_operationNum conf thread reply later.shared reached.2).1]
    exact reached.1

/-- Some answer of the database is a success. -/
theorem exists_succeeding (Account : Type*) [Fintype Account]
    : ∃ reply : Reply Account, reply.answer = .succeeds := by
  refine ⟨⟨⟨"", 0, 0⟩, ⟨(Finset.univ : Finset Account).toList.take 2, ?_, ?_⟩, 0, .succeeds⟩, rfl⟩
  · exact (Finset.nodup_toList _).sublist (List.take_sublist _ _)
  · simp

/-- A thread that has passed the loop test while another one does all operations adds one
more transfer. The tally turns its increment into a commit at the end.
-/
theorem exists_overrun (workable : conf.Workable Account) (wanted : 0 < conf.operations)
    {slow fast : Thread} (apart : slow ≠ fast)
    : ∃ labels : List (Label Thread Account),
        (∀ label ∈ labels, label.Succeeds)
        ∧ ((clusterTest Thread Account conf).run labels).AllEnded
        ∧ conf.operations
          < ((clusterTest Thread Account conf).run labels).shared.committed.length := by
  obtain ⟨hosts, several⟩ := workable
  obtain ⟨reply, succeeds⟩ := exists_succeeding Account
  let move : Label Thread Account := .work slow reply
  let start := (clusterTest Thread Account conf).start
  -- the slow thread passes both tests
  let passed := (clusterTest Thread Account conf).after start [move, move]
  have passedOwn : passed.own slow = { Worker.initial conf with position := .load } := by
    simp [passed, move, start, clusterTest, TestState.step, Worker.step, Worker.initial,
      Shared.initial, wanted]
  have passedFast : passed.own fast = Worker.initial conf := by
    simp [passed, move, apart.symm]
    rfl
  have tally : Tally passed := tally_after (tally_start hosts) several
    (by simp [move, Label.Succeeds, succeeds])
  -- the fast thread runs to its end
  obtain ⟨count, ended, kept⟩ := exists_solo_ended conf succeeds fast passed
  let rest := List.replicate count (Label.work fast reply)
  let reached := (clusterTest Thread Account conf).after passed rest
  have bound : conf.operations ≤ reached.shared.operationNum :=
    operations_le_of_solo (tally.smooth fast) several (by simp [passed, move, start]; rfl)
      (by simp [passedFast, Worker.initial, Position.Past]) succeeds ended
  have tally : Tally reached :=
    tally_after tally several (fun _ => Label.succeeds_of_mem_replicate succeeds)
  have reachedOwn : reached.own slow = { Worker.initial conf with position := .load } :=
    (kept slow apart).trans passedOwn
  -- the slow thread counts its operation, and all threads end
  let written := (clusterTest Thread Account conf).after reached [move, move]
  obtain ⟨last, allSucceed, allEnded⟩ := exists_allEnded conf succeeds written
  have tally' : Tally ((clusterTest Thread Account conf).after written last) :=
    tally_after (tally_after tally several (by simp [move, Label.Succeeds, succeeds])) several
      allSucceed
  have more : reached.counted + 1 ≤ written.counted := by
    have first := counted_advance conf reached slow reply
    have second :=
      counted_advance conf (reached.advance slow (Worker.step conf slow reply)) slow reply
    simp only [Threads.advance_own_self, Threads.advance_shared, reachedOwn, Worker.step]
      at first second
    simp only [written, move, Machine.after_cons, Machine.after_nil, clusterTest_work]
    omega
  have later := counted_after conf written allSucceed
  refine ⟨[move, move] ++ rest ++ [move, move] ++ last, ?_, ?_, ?_⟩
  · intro label member
    simp only [List.mem_append] at member
    rcases member with ((first | alone) | second) | end_
    · simp_all [move, Label.Succeeds]
    · exact Label.succeeds_of_mem_replicate succeeds alone
    · simp_all [move, Label.Succeeds]
    · exact allSucceed label end_
  · simpa only [Machine.run, Machine.after_append] using allEnded
  · have none_ := allEnded.pending_eq_zero
    have commits := tally'.commits
    have counter := tally.counter
    simp only [Machine.run, Machine.after_append]
    change conf.operations
      < (((clusterTest Thread Account conf).after written last).shared.committed.length : Int)
    omega

-----------------------------------------------------------------------------------------
-- Tests without commits
-----------------------------------------------------------------------------------------

omit [Fintype Thread] in
/-- Nothing is committed if the threads keep to states that cannot commit. -/
theorem committed_eq_nil_of (quiet : Worker → Prop) (initial : quiet (.initial conf))
    (kept
      : ∀ worker thread (reply : Reply Account) (shared : Shared Thread Account),
          quiet worker → quiet (worker.step conf thread reply shared).1)
    (idle
      : ∀ worker (reply : Reply Account),
          quiet worker → worker.position ≠ .executing ∨ reply.transfer = none)
    {labels : List (Label Thread Account)} (succeeds : ∀ label ∈ labels, label.Succeeds)
    : ((clusterTest Thread Account conf).run labels).shared.committed = [] := by
  have each : (clusterTest Thread Account conf).Each (fun _ label => label.Succeeds)
      (clusterTest Thread Account conf).start labels :=
    Machine.each_of_labels succeeds _
  have invariant := Machine.after_invariant
    (fun state => (∀ thread, quiet (state.own thread)) ∧ state.shared.committed = [])
    ?_ ⟨fun _ => initial, rfl⟩ each
  · exact invariant.2
  · intro state label before met
    obtain ⟨allQuiet, empty⟩ := before
    obtain ⟨thread, reply, rfl, _⟩ := met.work
    refine ⟨?_, ?_⟩
    · refine Threads.advance_forall (fun _ own _ => quiet own) allQuiet ?_
        (fun _ _ same => same)
      exact kept _ _ _ _ (allQuiet thread)
    · rw [clusterTest_work, Threads.advance_shared,
        Worker.step_committed (idle _ reply (allQuiet thread)), empty]

/-- Before the first connection, with no host to connect to. -/
structure Worker.Hostless (worker : Worker) : Prop where
  hosts : worker.dbHosts = []
  unconnected : worker.dbLocal = none
  before
    : worker.position ≠ .naming
      ∧ worker.position ≠ .askingPid
      ∧ worker.position ≠ .executing
      ∧ ∀ currentPid, worker.position ≠ .registering currentPid

omit [DecidableEq Thread] [Fintype Thread] in
/-- Without hosts the subscript of db_hosts ends every attempt. -/
theorem Worker.Hostless.step {worker : Worker} (hostless : worker.Hostless) (thread : Thread)
    (reply : Reply Account) (shared : Shared Thread Account)
    : (worker.step conf thread reply shared).1.Hostless := by
  obtain ⟨hosts, unconnected, before⟩ := hostless
  cases worker.step_cases conf thread reply shared with
  | goes position way lands =>
      rw [lands]
      refine ⟨hosts, unconnected, ?_⟩
      cases way with
      | names stands _ => exact absurd stands before.1
      | hears _ stands _ _ => exact absurd stands before.2.1
      | _ => simp
  | retries stands lands =>
      rw [lands]
      simp only [Worker.retry, unconnected]
      split
      · exact ⟨hosts, rfl, by simp⟩
      · exact ⟨by simp [hosts, switchHost], rfl, by simp⟩
  | counts seen stands lands =>
      rw [lands]
      exact ⟨hosts, unconnected, by simp⟩
  | connects stands listed answers lands => exact absurd hosts listed
  | registers currentPid conn stands uses lands =>
      exact absurd stands (before.2.2.2 currentPid)
  | raises error calls raised lands =>
      have atOpening : worker.position = .opening := by
        simpa [before] using calls
      simp [Worker.raised, atOpening, hosts] at raised
  | finishes transfer stands _ _ _ | loses error transfer stands _ _ _ =>
      exact absurd stands before.2.2.1
  | reconnects stands running lands =>
      rw [lands]
      exact ⟨hosts, rfl, by simp⟩
  | rests ended lands =>
      rw [lands]
      exact ⟨hosts, unconnected, before⟩

omit [DecidableEq Thread] [Fintype Thread] in
/-- Without an operation to do the loop is never entered. -/
theorem Worker.step_idle {worker : Worker} (unwanted : conf.operations ≤ 0)
    (outside : worker.position = .loopTest ∨ worker.position.Past) (thread : Thread)
    (reply : Reply Account) (shared : Shared Thread Account)
    : (worker.step conf thread reply shared).1.position.Past := by
  have enough : ¬ (shared.operationNum : Int) < conf.operations := by omega
  rcases outside with test | past
  · simp [Worker.step, test, enough, Position.Past]
  · cases stands : worker.position with
    | closing =>
        simp only [Worker.step, stands]
        split <;> simp [Position.Past]
    | returned | escaped => simp [Worker.step, stands, Position.Past]
    | _ => simp [stands, Position.Past] at past

omit [Fintype Thread] in
/-- Nothing is committed if there is no operation, no host or no second account. -/
theorem committed_eq_nil
    (unable : conf.operations ≤ 0 ∨ ¬ conf.Workable Account)
    {labels : List (Label Thread Account)} (succeeds : ∀ label ∈ labels, label.Succeeds)
    : ((clusterTest Thread Account conf).run labels).shared.committed = [] := by
  by_cases unwanted : conf.operations ≤ 0
  · refine committed_eq_nil_of
      (fun worker => worker.position = .loopTest ∨ worker.position.Past) (.inl rfl) ?_ ?_ succeeds
    · exact fun _ thread reply shared outside =>
        .inr (Worker.step_idle unwanted outside thread reply shared)
    · intro worker _ outside
      refine .inl ?_
      intro stands
      rcases outside with test | past
      · simp [stands] at test
      · simp [stands, Position.Past] at past
  · by_cases several : 2 ≤ Fintype.card Account
    · have hosts : conf.dbHosts = [] := by
        by_contra some_
        exact (unable.resolve_left unwanted) ⟨some_, several⟩
      refine committed_eq_nil_of Worker.Hostless ⟨hosts, rfl, by simp [Worker.initial]⟩ ?_ ?_
        succeeds
      · exact fun _ thread reply shared hostless => hostless.step thread reply shared
      · exact fun _ _ hostless => .inl hostless.before.2.2.1
    · exact committed_eq_nil_of (fun _ => True) trivial (fun _ _ _ _ _ => trivial)
        (fun _ reply _ => .inr (reply.transfer_eq_none (by omega))) succeeds

-----------------------------------------------------------------------------------------
-- The number of transfers
-----------------------------------------------------------------------------------------

/-- Every interleaving of successful calls ends with as many commits as operations. -/
def AppliesRequested (Thread Account : Type*) [DecidableEq Thread] [Fintype Account]
    (conf : Conf)
    : Prop :=
  ∀ labels : List (Label Thread Account),
    (∀ label ∈ labels, label.Succeeds)
    → ((clusterTest Thread Account conf).run labels).AllEnded
    → ((clusterTest Thread Account conf).run labels).shared.committed.length
      = conf.operations

/-- The number of commits is right in all interleavings exactly if there is nothing to do or
one worker that is able to do it, and right in every run with serialised increments.
-/
theorem appliesRequested_iff (others : Nat) (Account : Type*) [Fintype Account]
    (conf : Conf)
    : (AppliesRequested (Fin (others + 1)) Account conf
        ↔ conf.operations = 0
          ∨ others = 0 ∧ 0 < conf.operations ∧ conf.Workable Account)
      ∧ (0 ≤ conf.operations → conf.Workable Account
        → ∀ labels : List (Label (Fin (others + 1)) Account),
          (∀ label ∈ labels, label.Succeeds)
          → (clusterTest (Fin (others + 1)) Account conf).Each (Serialised conf)
              (clusterTest (Fin (others + 1)) Account conf).start labels
          → ((clusterTest (Fin (others + 1)) Account conf).run labels).AllEnded
          → ((clusterTest (Fin (others + 1)) Account conf).run labels).shared.committed.length
            = conf.operations) := by
  refine ⟨⟨?_, ?_⟩, ?_⟩
  · intro applies
    obtain ⟨reply, succeeds⟩ := exists_succeeding Account
    obtain ⟨labels, allSucceed, ended⟩ := exists_allEnded conf succeeds
      (clusterTest (Fin (others + 1)) Account conf).start
    have exact_ := applies labels allSucceed ended
    by_cases able : 0 < conf.operations ∧ conf.Workable Account
    · refine .inr ⟨?_, able⟩
      by_contra several
      have apart : (0 : Fin (others + 1)) ≠ Fin.last others := by
        intro same
        exact several (congrArg Fin.val same).symm
      obtain ⟨labels, allSucceed, ended, more⟩ :=
        exists_overrun able.2 able.1 apart
      have exact_ := applies labels allSucceed ended
      omega
    · have unable : conf.operations ≤ 0 ∨ ¬ conf.Workable Account := by
        by_cases unwanted : conf.operations ≤ 0
        · exact .inl unwanted
        · exact .inr (fun workable => able ⟨by omega, workable⟩)
      rw [committed_eq_nil unable allSucceed] at exact_
      exact .inl exact_.symm
  · rintro (none_ | ⟨rfl, wanted, workable⟩) labels succeeds ended
    · rw [committed_eq_nil (.inl none_.le) succeeds, none_]
      rfl
    · refine committed_of_serialised workable wanted.le succeeds ?_ ended
      -- a lone thread at its loop test is not on its way to a write
      have alone : ∀ (state : TestState (Fin 1) Account) label, Serialised conf state label := by
        intro state label
        cases label with
        | work thread reply =>
            intro test _ other
            rw [Subsingleton.elim other thread, test]
            exact fun counting => counting
        | requestStop | failover _ => trivial
      exact Machine.each_of_forall alone labels _
  · intro wanted workable labels succeeds serialised ended
    exact committed_of_serialised workable wanted succeeds serialised ended

/-- Two workers that pass the loop test together carry out one requested operation twice. -/
theorem appliesRequested_overruns
    : ∃ labels : List (Label (Fin 2) (Fin 2)),
        (∀ label ∈ labels, label.Succeeds)
        ∧ ((clusterTest (Fin 2) (Fin 2) (exampleConf 1 ["node1"])).run labels).AllEnded
        ∧ ((clusterTest (Fin 2) (Fin 2) (exampleConf 1 ["node1"])).run labels
            ).shared.committed.length
          = 2 := by
  let reply := exampleReply .succeeds
  refine ⟨.work 0 reply :: .work 1 reply
    :: (List.replicate 11 (.work 0 reply) ++ List.replicate 11 (.work 1 reply)), ?_, ?_, ?_⟩
  · simp [reply, Label.Succeeds, exampleReply]
  · unfold TestState.AllEnded
    decide
  · decide

end PgCluster.Backend
