import PgCluster.Etcd.Configuration
import PgCluster.Foundation.Majority
import PgCluster.Foundation.WorkerPool

/-! The restarts of etcd that end a run of the role.
The notified handlers run in file order, each on its hosts with up to `forks` of them in
progress, or as one loop over the masters. A member is down while its restart is running.
-/

namespace PgCluster.Etcd

open Foundation

/-- What decides where a restart handler acts, and whether it is a `run_once` loop. -/
structure Handler where
  name : String
  whenLaunch : Bool
  whenOutsideMasters : Bool
  loopOverMasters : Bool
deriving DecidableEq, Repr

def restartEtcdMasters : Handler where
  name := "Restart etcd masters"
  whenLaunch := true
  whenOutsideMasters := false
  loopOverMasters := true

def restartEtcdMembers : Handler where
  name := "Restart etcd members"
  whenLaunch := true
  whenOutsideMasters := true
  loopOverMasters := false

def restartEtcdTantorService : Handler where
  name := "Restart etcd-tantor.service"
  whenLaunch := false
  whenOutsideMasters := false
  loopOverMasters := false

/-- The handlers of the role in file order. -/
def etcdHandlers : List Handler :=
  [restartEtcdMasters, restartEtcdMembers, restartEtcdTantorService]

/-- A run of the role over its group, up to the templates: the files that its hosts have
before them, and the number of hosts on which Ansible works at a time.
-/
structure RoleRun where
  vars : Variables
  masters : List Host
  facts : Host → AddressFacts
  discovery : Discovery
  files : Host → String → Option String
  forks : Nat

namespace RoleRun

def members (run : RoleRun) : Finset Host := run.masters.toFinset

def tasks (run : RoleRun) (host : Host) : List TemplateTask :=
  templateTasks run.vars run.masters host (run.facts host) run.discovery

/-- The hosts on which the run changes `etcd.conf` or the unit file. -/
def changed (run : RoleRun) : Finset Host :=
  run.members.filter
    (fun host => ∃ task ∈ run.tasks host, run.files host task.dest ≠ some task.content)

def notified (run : RoleRun) (handler : Handler) : Finset Host :=
  run.members.filter
    (fun host => handler.name ∈ notifications (run.tasks host) (run.files host))

/-- The hosts whose etcd a handler restarts: a loop restarts all masters once it runs. -/
def targets (run : RoleRun) (handler : Handler) : Finset Host :=
  let acting := (run.notified handler).filter (fun host =>
    (handler.whenLaunch → run.vars.etcdLaunch)
    ∧ (handler.whenOutsideMasters → host ∉ run.masters))
  if handler.loopOverMasters then if acting = ∅ then ∅ else run.members else acting

/-- The restarts of a handler that can be in progress together. -/
def limit (run : RoleRun) (handler : Handler) : Nat :=
  if handler.loopOverMasters then 1 else run.forks

end RoleRun

-----------------------------------------------------------------------------------------
-- The handler phase
-----------------------------------------------------------------------------------------

/-- The handlers that are still to finish, the current one first, and its restarts. -/
structure HandlerPhase where
  handlers : List Handler
  restarts : WorkerPool Host

/-- Begins the first of the given handlers, with all its hosts waiting. -/
def RoleRun.begin (run : RoleRun) : List Handler → HandlerPhase
  | [] => ⟨[], ⟨∅, ∅⟩⟩
  | handler :: rest => ⟨handler :: rest, ⟨run.targets handler, ∅⟩⟩

inductive HandlerStep (run : RoleRun) : HandlerPhase → HandlerPhase → Prop where
  | restart {handler rest restarts next}
      (move : WorkerPool.Step (run.limit handler) restarts next)
    : HandlerStep run ⟨handler :: rest, restarts⟩ ⟨handler :: rest, next⟩
  | nextHandler {handler rest}
    : HandlerStep run ⟨handler :: rest, ⟨∅, ∅⟩⟩ (run.begin rest)

def RoleRun.handlerPhase (run : RoleRun) : TransitionSystem HandlerPhase where
  initial phase := phase = run.begin etcdHandlers
  step := HandlerStep run

/-- A majority of the members is up, and no two running restarts alone break it. -/
structure KeepsQuorum (members restarting : Finset Host) : Prop where
  up : Majority (members \ restarting).card members.card
  pairs
    : ∀ left ∈ restarting,
        ∀ right ∈ restarting,
          left ≠ right → Majority (members \ {left, right}).card members.card

/-- The handlers to come are those of the role, and the restarts in progress come from the
pool of the current one.
-/
structure HandlerPhase.Worked (run : RoleRun) (phase : HandlerPhase) : Prop where
  known : ∀ handler ∈ phase.handlers, handler ∈ etcdHandlers
  idle : phase.handlers = [] → phase.restarts.running = ∅
  pool
    : ∀ handler ∈ phase.handlers.head?,
        (WorkerPool.system (run.limit handler) (run.targets handler)).Reachable
          phase.restarts

/-- Every begun handler starts from its own untouched pool. -/
theorem RoleRun.begin_worked (run : RoleRun) {remaining : List Handler}
    (known : ∀ handler ∈ remaining, handler ∈ etcdHandlers)
    : (run.begin remaining).Worked run := by
  cases remaining with
  | nil => exact ⟨known, fun _ => rfl, by simp [RoleRun.begin]⟩
  | cons handler rest =>
      refine ⟨known, by simp [RoleRun.begin], ?_⟩
      intro current isHead
      obtain rfl : handler = current := by simpa [RoleRun.begin] using isHead
      exact .initial rfl

/-- Restarts stay in the pool of the current handler, by cases on the step. -/
theorem HandlerStep.worked {run : RoleRun} {phase next : HandlerPhase}
    (worked : phase.Worked run) (move : HandlerStep run phase next)
    : next.Worked run := by
  cases move with
  | @restart handler rest restarts following inner =>
      refine ⟨worked.known, by simp, ?_⟩
      intro current isHead
      obtain rfl : handler = current := by simpa using isHead
      exact .step (worked.pool handler rfl) inner
  | nextHandler =>
      apply run.begin_worked
      intro following inRest
      exact worked.known following (List.mem_cons_of_mem _ inRest)

/-- Every reachable phase is worked, by invariance from the first handler. -/
theorem handlerPhase_worked {run : RoleRun} {phase : HandlerPhase}
    (reached : run.handlerPhase.Reachable phase)
    : phase.Worked run := by
  refine reached.invariant ?_ ?_
  · intro first start
    rw [start]
    exact run.begin_worked (fun _ member => member)
  · intro current next before move
    exact HandlerStep.worked before move

/-- Once a handler has begun, its pool runs through all its states, by induction on them. -/
theorem handlerPhase_reachable_pool {run : RoleRun} {handler : Handler}
    {rest : List Handler} {restarts : WorkerPool Host}
    (begun : run.handlerPhase.Reachable (run.begin (handler :: rest)))
    (reached
      : (WorkerPool.system (run.limit handler) (run.targets handler)).Reachable restarts)
    : run.handlerPhase.Reachable ⟨handler :: rest, restarts⟩ := by
  induction reached with
  | initial start =>
      rw [start]
      exact begun
  | step _ move ih => exact .step ih (.restart move)

-----------------------------------------------------------------------------------------
-- The handler that the notifications reach
-----------------------------------------------------------------------------------------

/-- Every notification of the two template tasks names one handler. -/
theorem mem_notifications_iff (run : RoleRun) (host : Host) (name : String)
    : name ∈ notifications (run.tasks host) (run.files host)
      ↔ name = restartEtcdTantorService.name
        ∧ ∃ task ∈ run.tasks host, run.files host task.dest ≠ some task.content := by
  have notify : ∀ task ∈ run.tasks host, task.notify = restartEtcdTantorService.name := by
    simp [RoleRun.tasks, templateTasks, restartEtcdTantorService]
  simp only [notifications, List.mem_map, List.mem_filter, decide_eq_true_eq]
  refine ⟨?_, ?_⟩
  · intro ⟨task, ⟨inTasks, differs⟩, named⟩
    exact ⟨named ▸ notify task inTasks, task, inTasks, differs⟩
  · intro ⟨named, task, inTasks, differs⟩
    exact ⟨task, ⟨inTasks, differs⟩, named ▸ notify task inTasks⟩

/-- No other handler has a host to restart. -/
theorem targets_unnotified (run : RoleRun) {handler : Handler}
    (other : handler.name ≠ restartEtcdTantorService.name)
    : run.targets handler = ∅ := by
  have nobody : run.notified handler = ∅ := by
    simp [RoleRun.notified, mem_notifications_iff, other]
  simp [RoleRun.targets, nobody]

/-- The parallel handler restarts exactly the hosts whose files changed. -/
theorem targets_restartEtcdTantorService (run : RoleRun)
    : run.targets restartEtcdTantorService = run.changed := by
  have notified : run.notified restartEtcdTantorService = run.changed := by
    simp [RoleRun.notified, RoleRun.changed, mem_notifications_iff]
  unfold RoleRun.targets
  rw [notified]
  simp [restartEtcdTantorService]

/-- The run reaches the parallel handler past the two that nobody notified. -/
theorem reaches_restartEtcdTantorService (run : RoleRun)
    : run.handlerPhase.Reachable (run.begin [restartEtcdTantorService]) := by
  have masters : run.targets restartEtcdMasters = ∅ := targets_unnotified run (by decide)
  have members : run.targets restartEtcdMembers = ∅ := targets_unnotified run (by decide)
  have first : run.handlerPhase.Reachable
      ⟨[restartEtcdMasters, restartEtcdMembers, restartEtcdTantorService], ⟨∅, ∅⟩⟩ := by
    refine .initial ?_
    simp [RoleRun.handlerPhase, RoleRun.begin, etcdHandlers, masters]
  have second := first.step HandlerStep.nextHandler
  rw [RoleRun.begin, members] at second
  exact second.step HandlerStep.nextHandler

/-- Removing the last host of an inventory changes a file on every host that stays. -/
theorem changed_of_removed (run : RoleRun) {former : Host} {before : Discovery}
    (written
      : ∀ host ∈ run.masters,
          run.files host
            = writtenFiles (templateTasks run.vars (run.masters ++ [former]) host
                (run.facts host) before))
    : run.changed = run.members := by
  apply Finset.filter_true_of_mem
  intro host member
  have inMasters : host ∈ run.masters := List.mem_toFinset.mp member
  have differs := etcdConf_ne_of_added run.vars inMasters former (run.facts host)
    run.discovery before
  rw [written host inMasters]
  refine ⟨_, List.mem_cons_self, ?_⟩
  simpa [writtenFiles, templateTasks] using differs.symm

/-- Adding a host to an inventory changes a file on every earlier host. -/
theorem changed_of_added (run : RoleRun) {earlier : List Host} {added : Host}
    {before : Discovery} (grown : run.masters = earlier ++ [added])
    (written
      : ∀ host ∈ earlier,
          run.files host
            = writtenFiles (templateTasks run.vars earlier host (run.facts host) before))
    : earlier.toFinset ⊆ run.changed := by
  intro host member
  have inEarlier : host ∈ earlier := List.mem_toFinset.mp member
  have differs := etcdConf_ne_of_added run.vars inEarlier added (run.facts host) before
    run.discovery
  refine Finset.mem_filter.mpr ⟨?_, _, List.mem_cons_self, ?_⟩
  · simp [RoleRun.members, grown, inEarlier]
  · rw [written host inEarlier, grown]
    simpa [writtenFiles, templateTasks] using differs

-----------------------------------------------------------------------------------------
-- Quorum during the restarts
-----------------------------------------------------------------------------------------

/-- Quorum is kept exactly by fewer than half of the members: no pair exceeds them all. -/
theorem keepsQuorum_iff {members restarting : Finset Host}
    (included : restarting ⊆ members)
    : KeepsQuorum members restarting ↔ 2 * restarting.card < members.card := by
  refine ⟨?_, ?_⟩
  · intro kept
    exact (majority_sdiff_iff included).mp kept.up
  · intro few
    refine ⟨(majority_sdiff_iff included).mpr few, ?_⟩
    intro left inLeft right inRight _
    have pair : {left, right} ⊆ restarting := by
      simp [Finset.insert_subset_iff, inLeft, inRight]
    have count := Finset.card_le_card pair
    exact (majority_sdiff_iff (pair.trans included)).mpr (by omega)

/-- The loop over the masters, which nothing notifies, keeps quorum from three members on.
Witness: one restart at a time.
-/
theorem restartEtcdMasters_keepsQuorum (run : RoleRun) {members jobs : Finset Host}
    (large : 3 ≤ members.card) (included : jobs ⊆ members) {pool : WorkerPool Host}
    (reached : (WorkerPool.system (run.limit restartEtcdMasters) jobs).Reachable pool)
    : KeepsQuorum members pool.running := by
  have bounds := WorkerPool.bounded reached
  have single : pool.running.card ≤ 1 := bounds.limited
  exact (keepsQuorum_iff (bounds.running.trans included)).mpr (by omega)

/-- Restarts in progress are those of changed members in the pool of the parallel handler,
or there are none.
-/
theorem HandlerPhase.Worked.restarting {run : RoleRun} {phase : HandlerPhase}
    (worked : phase.Worked run)
    : phase.restarts.running = ∅
      ∨ (WorkerPool.system run.forks run.changed).Reachable phase.restarts := by
  cases current : phase.handlers with
  | nil => exact Or.inl (worked.idle current)
  | cons handler rest =>
      have pool := worked.pool handler (by simp [current])
      have known := worked.known handler (by simp [current])
      by_cases service : handler = restartEtcdTantorService
      · rw [service, targets_restartEtcdTantorService] at pool
        exact Or.inr pool
      · have other : handler.name ≠ restartEtcdTantorService.name := by
          simp only [etcdHandlers, List.mem_cons, List.not_mem_nil, or_false] at known
          rcases known with rfl | rfl | rfl
          · decide
          · decide
          · exact absurd rfl service
        rw [targets_unnotified run other] at pool
        exact Or.inl (Finset.subset_empty.mp (WorkerPool.bounded pool).running)

/-- Three nodes after a fourth one has left the inventory, and the usual five forks. -/
def afterRemoval : RoleRun where
  vars := {}
  masters := [.withAddress "node1" "10.0.0.1", .withAddress "node2" "10.0.0.2",
    .withAddress "node3" "10.0.0.3"]
  facts host := ⟨"0.0.0.0", host.facts.defaultIpv4, host.facts.defaultIpv4,
    host.facts.defaultIpv4⟩
  discovery := ⟨true, none, ["node1", "node2", "node3", "node4"]⟩
  files host := writtenFiles (templateTasks {}
    [.withAddress "node1" "10.0.0.1", .withAddress "node2" "10.0.0.2",
      .withAddress "node3" "10.0.0.3", .withAddress "node4" "10.0.0.4"] host
    ⟨"0.0.0.0", host.facts.defaultIpv4, host.facts.defaultIpv4, host.facts.defaultIpv4⟩
    ⟨true, none, ["node1", "node2", "node3", "node4"]⟩)
  forks := 5

end PgCluster.Etcd
