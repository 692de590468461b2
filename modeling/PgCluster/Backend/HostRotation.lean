import PgCluster.Backend.ClusterSpecific
import PgCluster.Foundation.RoundRobin

/-! The rotation of db_hosts in the two retry loops: which host is contacted while all opens
fail, and what the count of attempts says about the current host.
-/

namespace PgCluster.Backend

open Foundation

-----------------------------------------------------------------------------------------
-- The schedule of failing opens
-----------------------------------------------------------------------------------------

/-- A retry loop with the hosts that its calls of open have been given. -/
structure Contacts (Loop : Type*) where
  loop : Loop
  contacted : List String

/-- What the environment decides about the next step of a worker. -/
structure WorkerLabel (Thread Account : Type*) [Fintype Account] where
  thread : Thread
  shared : Shared Thread Account
  reply : Reply Account

/-- `reconnect_attempt` of the configuration, where it is positive. -/
def Conf.turns (conf : Conf) : Nat := conf.reconnectAttempt.toNat

variable {Thread Account : Type*} [Fintype Account]

variable (Thread Account) in
/-- worker_func from its beginning. -/
def workerOpens (conf : Conf) : Machine (Contacts Worker) (WorkerLabel Thread Account) where
  start := ⟨.initial conf, []⟩
  step state label :=
    {
      loop := (state.loop.step conf label.thread label.reply label.shared).1
      contacted :=
        state.contacted
        ++ if state.loop.position = .opening then state.loop.dbHosts.head?.toList else []
    }

/-- cluster_specific_execute from its beginning. -/
def mainOpens (conf : Conf) : Machine (Contacts ClusterExecute) (Conn × Answer) where
  start := ⟨.initial conf, []⟩
  step state label :=
    {
      loop := state.loop.step conf label.1 label.2
      contacted :=
        state.contacted
        ++ if state.loop.position = .opening then state.loop.dbHosts.head?.toList else []
    }

/-- If the step is a call of open, then it raises ClientCannotConnectError. -/
def WorkerOpenFails (state : Contacts Worker) (label : WorkerLabel Thread Account) : Prop :=
  state.loop.position = .opening → label.reply.answer.error? = some .clientCannotConnect

def MainOpenFails (state : Contacts ClusterExecute) (label : Conn × Answer) : Prop :=
  state.loop.position = .opening → label.2.error? = some .clientCannotConnect

/-- The hosts are contacted round robin, each for the configured number of attempts. -/
structure RoundRobin (conf : Conf) (contacted dbHosts : List String) : Prop where
  given
    : ∀ count host,
        contacted[count]? = some host → turnOf conf.dbHosts conf.turns count = some host
  rotation : dbHosts ~r conf.dbHosts
  covers
    : ∀ first, first + conf.dbHosts.length * conf.turns ≤ contacted.length
        → ∀ host ∈ conf.dbHosts,
            host ∈ (contacted.drop first).take (conf.dbHosts.length * conf.turns)

/-- The hosts have been rotated this often, and so many attempts have been made on the one
in front.
-/
structure OnSchedule (conf : Conf) (contacted dbHosts : List String)
    (reconnectAttempt rounds : Nat)
    : Prop where
  hosts : dbHosts = conf.dbHosts.rotate rounds
  opens : contacted.length = rounds * conf.turns + reconnectAttempt
  given
    : ∀ count host,
        contacted[count]? = some host → turnOf conf.dbHosts conf.turns count = some host

theorem switchHost_eq_rotate (hosts : List String) : switchHost hosts = hosts.rotate 1 := by
  cases hosts <;> simp [switchHost]

namespace OnSchedule

variable {conf : Conf} {contacted dbHosts : List String} {reconnectAttempt rounds : Nat}

theorem initial (conf : Conf) : OnSchedule conf [] conf.dbHosts 0 0 :=
  ⟨by simp, by simp, by simp⟩

theorem exists_front (schedule : OnSchedule conf contacted dbHosts reconnectAttempt rounds)
    (configured : conf.dbHosts ≠ [])
    : ∃ front rest, dbHosts = front :: rest := by
  refine List.exists_cons_of_ne_nil ?_
  rw [schedule.hosts]
  simpa using configured

/-- A failed open is one more attempt on the host in front, whose turn it is. -/
theorem fails (schedule : OnSchedule conf contacted dbHosts reconnectAttempt rounds)
    (configured : conf.dbHosts ≠ []) (few : reconnectAttempt < conf.turns)
    : OnSchedule conf (contacted ++ dbHosts.head?.toList) dbHosts (reconnectAttempt + 1)
        rounds := by
  have turn := head?_rotate_eq_turnOf configured few rounds
  rw [← schedule.hosts, ← schedule.opens] at turn
  obtain ⟨front, rest, hosts⟩ := schedule.exists_front configured
  have found : dbHosts.head? = some front := by rw [hosts, List.head?_cons]
  refine ⟨schedule.hosts, ?_, ?_⟩
  · simp [found, schedule.opens, Nat.add_assoc]
  · intro count host given
    rw [found, Option.toList_some, List.getElem?_append] at given
    split at given
    · exact schedule.given count host given
    · rename_i beyond
      have last : count = contacted.length := by
        have inside := (List.getElem?_eq_some_iff.mp given).1
        simp only [List.length_singleton] at inside
        omega
      subst last
      rw [Nat.sub_self, List.getElem?_cons_zero] at given
      rw [← turn, found, given]

/-- Behind the last attempt on a host the next one is in front. -/
theorem switches (schedule : OnSchedule conf contacted dbHosts reconnectAttempt rounds)
    (used : reconnectAttempt = conf.turns)
    : OnSchedule conf contacted (switchHost dbHosts) 0 (rounds + 1) := by
  refine ⟨?_, ?_, schedule.given⟩
  · rw [switchHost_eq_rotate, schedule.hosts, List.rotate_rotate]
  · rw [schedule.opens, used, Nat.add_mul, Nat.one_mul, Nat.add_zero]

theorem roundRobin (schedule : OnSchedule conf contacted dbHosts reconnectAttempt rounds)
    (positive : 0 < conf.turns)
    : RoundRobin conf contacted dbHosts := by
  refine ⟨schedule.given, ?_, ?_⟩
  · rw [schedule.hosts]
    exact List.IsRotated.symm ⟨rounds, rfl⟩
  · intro first long host member
    obtain ⟨count, from_, until_, turn⟩ := exists_turnOf positive member first
    have inside : count < contacted.length := by omega
    have given := schedule.given count _ (List.getElem?_eq_getElem inside)
    rw [turn] at given
    refine List.mem_iff_getElem?.mpr ⟨count - first, ?_⟩
    have within : count - first < conf.dbHosts.length * conf.turns := by omega
    have place : first + (count - first) = count := by omega
    rw [List.getElem?_take_of_lt within, List.getElem?_drop, place,
      List.getElem?_eq_getElem inside, ← given]

end OnSchedule

/-- A position from which no connection has been made. -/
def Position.Unconnected : Position → Prop
  | .naming | .askingPid | .registering _ | .executing | .rollback | .returnTest | .returned =>
      False
  | _ => True

/-- The worker is on the schedule; only at the head of its inner loop may the attempts be used
up.
-/
structure WorkerScheduled (conf : Conf) (state : Contacts Worker) : Prop where
  place : state.loop.position.Unconnected
  unconnected : state.loop.dbLocal = none
  scheduled
    : ∃ rounds,
        OnSchedule conf state.contacted state.loop.dbHosts state.loop.reconnectAttempt rounds
        ∧ (state.loop.reconnectAttempt < conf.turns
          ∨ state.loop.reconnectAttempt = conf.turns ∧ state.loop.position = .retry)

structure MainScheduled (conf : Conf) (state : Contacts ClusterExecute) : Prop where
  place
    : state.loop.position = .retry ∨ state.loop.position = .opening
  unconnected : state.loop.dbLocal = none
  scheduled
    : ∃ rounds,
        OnSchedule conf state.contacted state.loop.dbHosts state.loop.reconnectAttempt rounds
        ∧ (state.loop.reconnectAttempt < conf.turns
          ∨ state.loop.reconnectAttempt = conf.turns ∧ state.loop.position = .retry)

theorem Conf.lt_turns_iff {conf : Conf} (positive : 1 ≤ conf.reconnectAttempt) (count : Nat)
    : (count : Int) < conf.reconnectAttempt ↔ count < conf.turns := by
  unfold Conf.turns
  omega

/-- Every step keeps the worker on the schedule, by cases on its position. -/
theorem WorkerScheduled.step {conf : Conf} (positive : 1 ≤ conf.reconnectAttempt)
    (configured : conf.dbHosts ≠ []) {state : Contacts Worker}
    (scheduled : WorkerScheduled conf state) (label : WorkerLabel Thread Account)
    (fails : WorkerOpenFails state label)
    : WorkerScheduled conf ((workerOpens Thread Account conf).step state label) := by
  obtain ⟨place, unconnected, rounds, schedule, few⟩ := scheduled
  have under : state.loop.position ≠ .retry → state.loop.reconnectAttempt < conf.turns := by
    intro elsewhere
    rcases few with few | ⟨_, stands⟩
    · exact few
    · exact absurd stands elsewhere
  cases stands : state.loop.position with
  | naming | askingPid | registering _ | executing | rollback | returnTest | returned =>
      simp [Position.Unconnected, stands] at place
  | loopTest | stopTest =>
      have bound := under (by simp [stands])
      simp only [workerOpens, Worker.step, stands, reduceCtorEq, if_false, List.append_nil]
      split <;> exact ⟨by simp [Position.Unconnected], unconnected, rounds, schedule, .inl bound⟩
  | load | store _ | escaped =>
      have bound := under (by simp [stands])
      simp only [workerOpens, Worker.step, stands, reduceCtorEq, if_false, List.append_nil]
      exact ⟨by simp [Position.Unconnected, stands], unconnected, rounds, schedule, .inl bound⟩
  | closing =>
      have bound := under (by simp [stands])
      simp only [workerOpens, Worker.step, stands, unconnected, reduceCtorEq, if_false,
        List.append_nil]
      exact ⟨by simp [Position.Unconnected], rfl, rounds, schedule, .inl bound⟩
  | retry =>
      have head := Conf.lt_turns_iff positive state.loop.reconnectAttempt
      simp only [workerOpens, Worker.step, stands, Worker.retry, unconnected, head, reduceCtorEq,
        if_false, List.append_nil]
      split
      · rename_i bound
        exact ⟨by simp [Position.Unconnected], rfl, rounds, schedule, .inl bound⟩
      · rename_i used
        have exhausted := (few.resolve_left used).1
        have positive_ := (Conf.lt_turns_iff positive 0).mp (by omega)
        exact ⟨by simp [Position.Unconnected], rfl, rounds + 1, schedule.switches exhausted,
          .inl positive_⟩
  | opening =>
      have bound := under (by simp [stands])
      have next := schedule.fails configured bound
      have raises := fails stands
      obtain ⟨front, rest, hosts⟩ := schedule.exists_front configured
      rw [hosts] at next
      simp only [workerOpens, Worker.step, stands, raises, hosts, if_true, Worker.except]
      refine ⟨trivial, rfl, rounds, next, ?_⟩
      exact (Nat.lt_or_eq_of_le bound).imp_right (fun last => ⟨last, rfl⟩)

/-- Every step keeps cluster_specific_execute on the schedule, by cases on its position. -/
theorem MainScheduled.step {conf : Conf} (positive : 1 ≤ conf.reconnectAttempt)
    (configured : conf.dbHosts ≠ []) {state : Contacts ClusterExecute}
    (scheduled : MainScheduled conf state) (label : Conn × Answer)
    (fails : MainOpenFails state label)
    : MainScheduled conf ((mainOpens conf).step state label) := by
  obtain ⟨place, unconnected, rounds, schedule, few⟩ := scheduled
  rcases place with stands | stands
  · have head := Conf.lt_turns_iff positive state.loop.reconnectAttempt
    simp only [mainOpens, ClusterExecute.step, stands, ClusterExecute.retry, unconnected, head,
      reduceCtorEq, if_false, List.append_nil]
    split
    · rename_i bound
      exact ⟨.inr rfl, rfl, rounds, schedule, .inl bound⟩
    · rename_i used
      have exhausted := (few.resolve_left used).1
      have positive_ := (Conf.lt_turns_iff positive 0).mp (by omega)
      exact ⟨.inr rfl, rfl, rounds + 1, schedule.switches exhausted, .inl positive_⟩
  · have bound : state.loop.reconnectAttempt < conf.turns := by
      rcases few with few | ⟨_, elsewhere⟩
      · exact few
      · simp [stands] at elsewhere
    have next := schedule.fails configured bound
    have raises := fails stands
    obtain ⟨front, rest, hosts⟩ := schedule.exists_front configured
    rw [hosts] at next
    simp only [mainOpens, ClusterExecute.step, stands, raises, hosts, if_true,
      ClusterExecute.except]
    refine ⟨.inl rfl, rfl, rounds, next, ?_⟩
    exact (Nat.lt_or_eq_of_le bound).imp_right (fun last => ⟨last, rfl⟩)

variable (Thread Account) in
/-- In both loops, as long as every open raises ClientCannotConnectError, the hosts are
contacted round robin.
-/
theorem opens_roundRobin (conf : Conf) (positive : 1 ≤ conf.reconnectAttempt)
    (configured : conf.dbHosts ≠ [])
    : (∀ labels,
          (workerOpens Thread Account conf).Each WorkerOpenFails
            (workerOpens Thread Account conf).start labels
          → RoundRobin conf ((workerOpens Thread Account conf).run labels).contacted
              ((workerOpens Thread Account conf).run labels).loop.dbHosts)
      ∧ ∀ labels,
          (mainOpens conf).Each MainOpenFails (mainOpens conf).start labels
          → RoundRobin conf ((mainOpens conf).run labels).contacted
              ((mainOpens conf).run labels).loop.dbHosts := by
  have turns : 0 < conf.turns := (Conf.lt_turns_iff positive 0).mp (by omega)
  constructor
  · intro labels fail
    have start : WorkerScheduled conf (workerOpens Thread Account conf).start :=
      ⟨trivial, rfl, 0, OnSchedule.initial conf, .inl turns⟩
    have scheduled := Machine.after_invariant (WorkerScheduled conf)
      (fun state label before => before.step positive configured label) start fail
    obtain ⟨rounds, schedule, _⟩ := scheduled.scheduled
    exact schedule.roundRobin turns
  · intro labels fail
    have start : MainScheduled conf (mainOpens conf).start :=
      ⟨.inl rfl, rfl, 0, OnSchedule.initial conf, .inl turns⟩
    have scheduled := Machine.after_invariant (MainScheduled conf)
      (fun state label before => before.step positive configured label) start fail
    obtain ⟨rounds, schedule, _⟩ := scheduled.scheduled
    exact schedule.roundRobin turns

/-- Seven opens of cluster_specific_execute, three for each of two hosts. -/
theorem opens_roundRobin_twoHosts
    : let main := mainOpens (exampleConf 1 ["node1", "node2"])
      let final := main.run
        (List.replicate 14 (⟨"node1", 100, 0⟩, .raises .clientCannotConnect))
      final.contacted = ["node1", "node1", "node1", "node2", "node2", "node2", "node1"]
      ∧ RoundRobin (exampleConf 1 ["node1", "node2"]) final.contacted final.loop.dbHosts := by
  intro main final
  refine ⟨by decide, (opens_roundRobin (Fin 1) (Fin 2) _ (by decide) (by decide)).2 _ ?_⟩
  have raises : main.Each
      (fun _ label => label.2.error? = some .clientCannotConnect) main.start
      (List.replicate 14 (⟨"node1", 100, 0⟩, .raises .clientCannotConnect)) :=
    Machine.each_of_labels (by simp [Answer.error?]) _
  refine raises.imp (fun _ => True) (fun _ _ _ _ => trivial) ?_ trivial
  intro state label _ fails _
  exact fails

-----------------------------------------------------------------------------------------
-- What the count of attempts says
-----------------------------------------------------------------------------------------

/-- The step completes a task. -/
def Worker.Completes (worker : Worker) (reply : Reply Account) : Prop :=
  worker.position = .executing ∧ reply.answer = .succeeds ∧ reply.transfer.isSome = true

instance (worker : Worker) (reply : Reply Account) : Decidable (worker.Completes reply) :=
  inferInstanceAs (Decidable (_ ∧ _))

/-- The step moves on to the next host for want of further attempts. -/
def Worker.Exhausted (conf : Conf) (worker : Worker) : Prop :=
  worker.position = .retry ∧ worker.dbLocal = none
  ∧ ¬ (worker.reconnectAttempt : Int) < conf.reconnectAttempt

instance (conf : Conf) (worker : Worker) : Decidable (worker.Exhausted conf) :=
  inferInstanceAs (Decidable (_ ∧ _))

/-- The classes of a failed connection. -/
def DbError.ConnectionClass (error : DbError) : Prop :=
  error ∈ [DbError.clientCannotConnect, .protocol, .connectionFailure, .connectionReset]

instance (error : DbError) : Decidable error.ConnectionClass :=
  inferInstanceAs (Decidable (error ∈ _))

/-- What a step of a worker does to its hosts and its count. -/
inductive Worker.Turns (conf : Conf) (reply : Reply Account) (worker next : Worker)
    : Prop where
  | fails (error : DbError) (raises : worker.raised reply = some error)
      (connection : error.ConnectionClass) (hosts : next.dbHosts = worker.dbHosts)
      (count : next.reconnectAttempt = worker.reconnectAttempt + 1)
      (stands : next.position = .retry ∧ next.dbLocal = none)
  | switches (raises : worker.raised reply = some .readOnlyTransaction)
      (hosts : next.dbHosts = switchHost worker.dbHosts)
      (count : next.reconnectAttempt = worker.reconnectAttempt)
  | exhausts (exhausted : worker.Exhausted conf) (silent : worker.raised reply = none)
      (hosts : next.dbHosts = switchHost worker.dbHosts) (count : next.reconnectAttempt = 0)
  | completes (completes : worker.Completes reply) (silent : worker.raised reply = none)
      (hosts : next.dbHosts = worker.dbHosts)
      (count : next.reconnectAttempt = worker.reconnectAttempt)
  | keeps (other : ∀ error ∈ worker.raised reply,
        error ≠ .readOnlyTransaction ∧ ¬ error.ConnectionClass)
      (goesOn : ¬ worker.Exhausted conf ∧ ¬ worker.Completes reply)
      (hosts : next.dbHosts = worker.dbHosts)
      (count : next.reconnectAttempt = worker.reconnectAttempt)

/-- A call that raises is no move to the next host and completes nothing. -/
theorem Worker.goesOn_of_raised (conf : Conf) {reply : Reply Account} {worker : Worker}
    {error : DbError} (raises : worker.raised reply = some error)
    : ¬ worker.Exhausted conf ∧ ¬ worker.Completes reply := by
  constructor
  · intro exhausted
    simp [raised, exhausted.1] at raises
  · intro completes
    simp [raised, completes.1, completes.2.1] at raises

/-- A step without an exception, a move or a completed task keeps hosts and count. -/
theorem Worker.Turns.of_silent {conf : Conf} {reply : Reply Account} {worker next : Worker}
    (silent : worker.raised reply = none) (notExhausted : ¬ worker.Exhausted conf)
    (notCompletes : ¬ worker.Completes reply) (hosts : next.dbHosts = worker.dbHosts)
    (count : next.reconnectAttempt = worker.reconnectAttempt)
    : worker.Turns conf reply next :=
  .keeps (by simp [silent]) ⟨notExhausted, notCompletes⟩ hosts count

/-- An exception in the try block, by cases on its class. -/
theorem Worker.turns_except (conf : Conf) {reply : Reply Account} {worker : Worker}
    {error : DbError} (raises : worker.raised reply = some error)
    : worker.Turns conf reply (worker.except error) := by
  have goesOn := goesOn_of_raised conf raises
  cases error with
  | clientCannotConnect | protocol | connectionFailure | connectionReset =>
      exact .fails _ raises (by decide) rfl rfl ⟨rfl, rfl⟩
  | readOnlyTransaction => exact .switches raises rfl rfl
  | deadlock | noActiveTransaction | queryCanceled | adminShutdown | crashShutdown
  | serverNotReady =>
      refine .keeps ?_ goesOn rfl rfl
      intro other same
      rw [raises] at same
      cases same
      decide

/-- The head of the inner loop moves on once no attempt is left. -/
theorem Worker.turns_retry (conf : Conf) (reply : Reply Account) {worker : Worker}
    (stands : worker.position = .retry)
    : worker.Turns conf reply (worker.retry conf) := by
  have silent : worker.raised reply = none := by simp [raised, stands]
  have notCompletes : ¬ worker.Completes reply := by simp [Completes, stands]
  unfold Worker.retry
  split
  · rename_i conn connected
    exact .of_silent silent (by simp [Exhausted, connected]) notCompletes rfl rfl
  · rename_i unconnected
    split
    · rename_i few
      exact .of_silent silent (by simp [Exhausted, few]) notCompletes rfl rfl
    · rename_i used
      exact .exhausts ⟨stands, unconnected, used⟩ silent rfl rfl

/-- Every step is one of these. -/
theorem Worker.step_turns (conf : Conf) (thread : Thread) (reply : Reply Account)
    (worker : Worker) (shared : Shared Thread Account)
    : worker.Turns conf reply (worker.step conf thread reply shared).1 := by
  cases worker.step_cases conf thread reply shared with
  | goes position way lands =>
      rw [lands]
      have notExhausted : ¬ worker.Exhausted conf := by
        intro exhausted
        have stands := exhausted.1
        cases way <;> simp_all
      have notCompletes : ¬ worker.Completes reply := by
        rintro ⟨stands, answers, picks⟩
        cases way <;> simp_all
      exact .of_silent way.raised_eq_none notExhausted notCompletes rfl rfl
  | retries stands lands =>
      rw [lands]
      exact turns_retry conf reply stands
  | counts _ stands lands | registers _ _ stands _ lands | reconnects stands _ lands =>
      rw [lands]
      exact .of_silent (by simp [raised, stands]) (by simp [Exhausted, stands])
        (by simp [Completes, stands]) rfl rfl
  | connects stands hosts answers lands =>
      rw [lands]
      exact .of_silent (by simp [raised, stands, answers]) (by simp [Exhausted, stands])
        (by simp [Completes, stands]) rfl rfl
  | raises error calls raised lands =>
      rw [lands]
      exact turns_except conf raised
  | finishes transfer stands answers picks lands =>
      rw [lands]
      exact .completes ⟨stands, answers, by simp [picks]⟩ (by simp [raised, stands, answers])
        rfl rfl
  | loses error transfer stands answers picks lands =>
      rw [lands]
      exact turns_except conf (by simp [raised, stands, answers, picks])
  | rests ended lands =>
      rw [lands]
      rcases ended with stands | stands
        <;> exact .of_silent (by simp [raised, stands]) (by simp [Exhausted, stands])
              (by simp [Completes, stands]) rfl rfl

/-- A worker with the number of its connection failures since it moved to its host or
completed a task.
-/
structure HostWatch where
  worker : Worker
  failures : Nat

/-- The failures after a step: none behind a move or a completed task, one more behind a
connection failure.
-/
def HostWatch.failuresAfter (conf : Conf) (reply : Reply Account) (watch : HostWatch) : Nat :=
  match watch.worker.raised reply with
  | some error =>
      if error = .readOnlyTransaction then 0
      else if error.ConnectionClass then watch.failures + 1
      else watch.failures
  | none =>
      if watch.worker.Exhausted conf ∨ watch.worker.Completes reply then 0
      else watch.failures

variable (Thread Account) in
/-- worker_func with that number, in any environment. -/
def watchedWorker (conf : Conf) : Machine HostWatch (WorkerLabel Thread Account) where
  start := ⟨.initial conf, 0⟩
  step watch label :=
    ⟨(watch.worker.step conf label.thread label.reply label.shared).1,
      watch.failuresAfter conf label.reply⟩

/-- The local variable is the number of these failures. -/
def CountsFailures (watch : HostWatch) : Prop := watch.worker.reconnectAttempt = watch.failures

/-- If the worker leaves its host in the step, then directly behind a
ReadOnlyTransactionError or behind the configured number of failures.
-/
def LeavesDuly (conf : Conf) (watch : HostWatch) (label : WorkerLabel Thread Account) : Prop :=
  (watch.worker.step conf label.thread label.reply label.shared).1.dbHosts
      ≠ watch.worker.dbHosts
  → watch.worker.raised label.reply = some .readOnlyTransaction
    ∨ (watch.failures : Int) = conf.reconnectAttempt

/-- A step that completes a task, or in which a ReadOnlyTransactionError is raised, finds no
attempt counted.
-/
def FindsNoAttempt (watch : HostWatch) (label : WorkerLabel Thread Account) : Prop :=
  watch.worker.Completes label.reply
    ∨ watch.worker.raised label.reply = some .readOnlyTransaction
  → watch.worker.reconnectAttempt = 0

instance (watch : HostWatch) (label : WorkerLabel Thread Account)
    : Decidable (FindsNoAttempt watch label) :=
  inferInstanceAs (Decidable (_ → _))

/-- The count stays below the configured number, but for the way from the last failure to the
head of the inner loop.
-/
def Worker.Bounded (conf : Conf) (worker : Worker) : Prop :=
  (worker.reconnectAttempt : Int) < conf.reconnectAttempt
  ∨ (worker.reconnectAttempt : Int) = conf.reconnectAttempt
    ∧ worker.position = .retry ∧ worker.dbLocal = none

/-- Every step keeps the bound, by cases on what it does to the count. -/
theorem Worker.Bounded.step {conf : Conf} (positive : 1 ≤ conf.reconnectAttempt)
    {worker : Worker} (bounded : worker.Bounded conf) (thread : Thread) (reply : Reply Account)
    (shared : Shared Thread Account)
    : (worker.step conf thread reply shared).1.Bounded conf := by
  have under : ¬ worker.Exhausted conf
      → (worker.reconnectAttempt : Int) < conf.reconnectAttempt := by
    intro goesOn
    rcases bounded with few | ⟨used, stands, unconnected⟩
    · exact few
    · exact absurd ⟨stands, unconnected, by omega⟩ goesOn
  have raising : worker.raised reply ≠ none → ¬ worker.Exhausted conf := by
    intro raises exhausted
    simp [raised, exhausted.1] at raises
  cases worker.step_turns conf thread reply shared with
  | fails error raises connection hosts count stands =>
      have few := under (raising (by simp [raises]))
      unfold Bounded
      rw [count]
      have most : (worker.reconnectAttempt : Int) + 1 ≤ conf.reconnectAttempt := by omega
      rcases Int.lt_or_eq_of_le most with less | last
      · exact .inl (by push_cast; exact less)
      · exact .inr ⟨by push_cast; exact last, stands⟩
  | switches raises hosts count =>
      have few := under (raising (by simp [raises]))
      exact .inl (by rw [count]; exact few)
  | exhausts exhausted silent hosts count => exact .inl (by rw [count]; omega)
  | completes completes silent hosts count =>
      have few := under (by simp [Exhausted, completes.1])
      exact .inl (by rw [count]; exact few)
  | keeps other goesOn hosts count =>
      have few := under goesOn.1
      exact .inl (by rw [count]; exact few)

/-- A step keeps the count exactly if it finds no attempt counted where it should drop some. -/
theorem countsFailures_step_iff {conf : Conf} {watch : HostWatch}
    (counts : CountsFailures watch) (label : WorkerLabel Thread Account)
    : CountsFailures ((watchedWorker Thread Account conf).step watch label)
      ↔ FindsNoAttempt watch label := by
  unfold CountsFailures at counts
  simp only [CountsFailures, FindsNoAttempt, watchedWorker, HostWatch.failuresAfter]
  cases watch.worker.step_turns conf label.thread label.reply label.shared with
  | fails error raises connection hosts count stands =>
      have notReadOnly : error ≠ .readOnlyTransaction := by
        intro same
        subst same
        exact absurd connection (by decide)
      have notCompletes : ¬ watch.worker.Completes label.reply := by
        intro completes
        simp [Worker.raised, completes.1, completes.2.1] at raises
      simp [raises, notReadOnly, connection, count, counts, notCompletes]
  | switches raises hosts count => simp [raises, count]
  | exhausts exhausted silent hosts count =>
      have notCompletes : ¬ watch.worker.Completes label.reply := by
        intro completes
        exact absurd (exhausted.1.symm.trans completes.1) (by decide)
      simp [silent, exhausted, count, notCompletes]
  | completes completes silent hosts count => simp [silent, completes, count]
  | keeps other goesOn hosts count =>
      cases raises : watch.worker.raised label.reply with
      | none => simp [count, goesOn.1, goesOn.2, counts]
      | some error =>
          obtain ⟨notReadOnly, notConnection⟩ := other error (by simp [raises])
          simp [count, goesOn.2, notReadOnly, notConnection, counts]

/-- A worker whose count is right leaves its host duly. -/
theorem leavesDuly_of_counts {conf : Conf} {watch : HostWatch} (counts : CountsFailures watch)
    (bounded : watch.worker.Bounded conf) (label : WorkerLabel Thread Account)
    : LeavesDuly conf watch label := by
  intro moved
  cases watch.worker.step_turns conf label.thread label.reply label.shared with
  | fails error raises connection hosts count stands => exact (moved hosts).elim
  | switches raises hosts count => exact .inl raises
  | exhausts exhausted silent hosts count =>
      refine .inr ?_
      rw [← counts]
      rcases bounded with few | ⟨used, _⟩
      · exact absurd few exhausted.2.2
      · exact used
  | completes completes silent hosts count => exact (moved hosts).elim
  | keeps other goesOn hosts count => exact (moved hosts).elim

/-- All along a run the count is the number of failures and hosts are left duly, if and only
if tasks are completed and ReadOnlyTransactionErrors raised with no attempt counted.
-/
theorem leavesHosts_iff (conf : Conf) (positive : 1 ≤ conf.reconnectAttempt)
    (labels : List (WorkerLabel Thread Account))
    : ((watchedWorker Thread Account conf).Always CountsFailures
          (watchedWorker Thread Account conf).start labels
        ∧ (watchedWorker Thread Account conf).Each (LeavesDuly conf)
          (watchedWorker Thread Account conf).start labels)
      ↔ (watchedWorker Thread Account conf).Each FindsNoAttempt
          (watchedWorker Thread Account conf).start labels := by
  have bounded : (watchedWorker Thread Account conf).start.worker.Bounded conf := by
    refine .inl ?_
    simp only [watchedWorker, Worker.initial]
    omega
  have kept : ∀ (watch : HostWatch) (label : WorkerLabel Thread Account),
      watch.worker.Bounded conf
      → ((watchedWorker Thread Account conf).step watch label).worker.Bounded conf :=
    fun watch label before => before.step positive label.thread label.reply label.shared
  have counts : CountsFailures (watchedWorker Thread Account conf).start := rfl
  have step : ∀ (watch : HostWatch) (label : WorkerLabel Thread Account),
      watch.worker.Bounded conf → CountsFailures watch
      → (CountsFailures ((watchedWorker Thread Account conf).step watch label)
        ↔ FindsNoAttempt watch label) :=
    fun watch label _ before => countsFailures_step_iff before label
  have counting := Machine.always_iff_each
    (fun watch : HostWatch => watch.worker.Bounded conf) kept step bounded counts labels
  rw [counting]
  refine ⟨And.left, fun met => ⟨met, ?_⟩⟩
  refine met.imp (fun watch : HostWatch => CountsFailures watch ∧ watch.worker.Bounded conf)
    (fun watch label invariant condition =>
      ⟨(countsFailures_step_iff invariant.1 label).mpr condition,
        kept watch label invariant.2⟩)
    (fun watch label invariant _ => leavesDuly_of_counts invariant.1 invariant.2 label)
    ⟨counts, bounded⟩

/-- A label that answers the next call, as long as no stop is requested. -/
def answering {Thread : Type*} (thread : Thread) (answer : Answer)
    : WorkerLabel Thread (Fin 2) where
  thread := thread
  shared := .initial Thread (Fin 2)
  reply := exampleReply answer

/-- The steps to the first open, a refused one, a connection, and a completed task. -/
def refusedOnce : List Answer :=
  List.replicate 5 .succeeds ++ [.raises .clientCannotConnect] ++ List.replicate 6 .succeeds

/-- A refusal ahead of a completed task is still counted behind it. -/
theorem leavesHosts_refusedOnce
    : let test := watchedWorker (Fin 1) (Fin 2) (exampleConf 2 ["node1", "node2"])
      let labels := refusedOnce.map (answering 0)
      ¬ (test.Always CountsFailures test.start labels
        ∧ test.Each (LeavesDuly (exampleConf 2 ["node1", "node2"])) test.start labels) := by
  intro test labels lawful
  have last := lawful.1.last
  unfold CountsFailures at last
  revert last
  decide

/-- A completed task, a lost connection and two refused opens in the next one, the move to the
other host, and the task completed there.
-/
def lostServer : List Answer :=
  List.replicate 15 .succeeds
  ++ [.raises .connectionFailure, .succeeds, .raises .clientCannotConnect, .succeeds,
    .raises .clientCannotConnect]
  ++ List.replicate 6 .succeeds

/-- Behind the third failure the worker leaves its host, and both tasks find no attempt. -/
theorem leavesHosts_lostServer
    : let conf := exampleConf 2 ["node1", "node2"]
      let test := watchedWorker (Fin 1) (Fin 2) conf
      let labels := lostServer.map (answering 0)
      (test.after test.start labels).worker.dbHosts = ["node2", "node1"]
      ∧ (test.tally (fun watch label => watch.worker.Completes label.reply) test.start labels
        = 2)
      ∧ test.Always CountsFailures test.start labels
      ∧ test.Each (LeavesDuly conf) test.start labels := by
  intro conf test labels
  refine ⟨by decide, by decide, (leavesHosts_iff conf (by decide) labels).mpr ?_⟩
  decide

end PgCluster.Backend
