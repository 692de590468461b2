import PgCluster.Patroni.Upgrade

/-! Safety of the rolling upgrade: which hosts may be down before, during and after the
switchover, and when the role takes the leader for a replica.
-/

namespace PgCluster.Patroni

open Foundation

-----------------------------------------------------------------------------------------
-- The order of the tasks
-----------------------------------------------------------------------------------------

/-- Some remaining task does this to these hosts. -/
def Ahead (target : Target) (action : Action) (tasks : List UpgradeTask) : Prop :=
  ∃ task ∈ tasks, task.target = target ∧ task.action = action

instance (target : Target) (action : Action) (tasks : List UpgradeTask)
    : Decidable (Ahead target action tasks) :=
  inferInstanceAs (Decidable (∃ task ∈ tasks, _))

/-- Stopped replicas are started later; the master is stopped behind both the last start of
a replica and the switchover, and no task on all hosts touches a service.
-/
theorem upgradeTasks_order {tasks : List UpgradeTask} (suffix : tasks <:+ upgradeTasks)
    {task : UpgradeTask} (current : task ∈ tasks.head?)
    : (task.target = .replicas → task.action = .stopService
        → Ahead .replicas .startService tasks)
      ∧ (task.target = .master → task.action = .stopService
        → ¬ Ahead .replicas .startService tasks ∧ ¬ Ahead .master .switchover tasks)
      ∧ (task.target = .master → task.action = .startService ∨ task.action = .switchover
        → ¬ Ahead .replicas .startService tasks)
      ∧ (task.target = .replicas → task.action ≠ .switchover)
      ∧ (task.target = .everyHost
        → task.action ≠ .stopService
          ∧ task.action ≠ .startService
          ∧ task.action ≠ .switchover) := by
  have all : ∀ tasks ∈ upgradeTasks.tails,
      ∀ task ∈ tasks.head?,
        (task.target = .replicas → task.action = .stopService
          → Ahead .replicas .startService tasks)
        ∧ (task.target = .master → task.action = .stopService
          → ¬ Ahead .replicas .startService tasks ∧ ¬ Ahead .master .switchover tasks)
        ∧ (task.target = .master → task.action = .startService ∨ task.action = .switchover
          → ¬ Ahead .replicas .startService tasks)
        ∧ (task.target = .replicas → task.action ≠ .switchover)
        ∧ (task.target = .everyHost
          → task.action ≠ .stopService
            ∧ task.action ≠ .startService
            ∧ task.action ≠ .switchover) := by
    decide
  exact all tasks ((List.mem_tails _ _).mpr suffix) task current

-----------------------------------------------------------------------------------------
-- Classification of the hosts
-----------------------------------------------------------------------------------------

variable {cluster : PatroniCluster}

theorem patroniIsMaster_iff (node : Node)
    : patroniIsMaster cluster.rows node = true
      ↔ node.inventoryHostname = cluster.leaderNode.memberName := by
  simp [patroniIsMaster, cluster.oneLeader, eq_comm]

/-- The leader's node keeps its inventory name as the member name. -/
def PatroniCluster.LeaderKeepsName (cluster : PatroniCluster) : Prop :=
  cluster.leaderNode.inventoryHostname = cluster.leaderNode.memberName

/-- Then it is the master for the role, and the only one, by distinct inventory names. -/
theorem PatroniCluster.LeaderKeepsName.master_iff (keeps : cluster.LeaderKeepsName)
    {node : Node} (member : node ∈ cluster.nodes)
    : patroniIsMaster cluster.rows node = true ↔ node = cluster.leaderNode := by
  rw [patroniIsMaster_iff]
  refine ⟨?_, ?_⟩
  · intro same
    exact cluster.distinctHosts member cluster.leaderIn (same.trans keeps.symm)
  · intro same
    rw [same]
    exact keeps

/-- The chosen candidate is not the inventory name of the host that chooses. -/
theorem patroniNewLeader_ne {order : SetOrder String} {rows : List ListedMember} {node : Node}
    {candidate : String} (chosen : patroniNewLeader order rows node = some candidate)
    : candidate ≠ node.inventoryHostname := by
  have member := List.mem_of_head? chosen
  simpa using (mem_differenceIn.mp member).2

-----------------------------------------------------------------------------------------
-- The invariant of the upgrade
-----------------------------------------------------------------------------------------

def ReplicasUp (cluster : PatroniCluster) (services : Services) : Prop :=
  ∀ node ∈ cluster.nodes, node ≠ cluster.leaderNode → node ∈ services.running

/-- The leader leads and runs until the last replica has started; from then on the replicas
run, and the leader's node is down only with the leadership elsewhere.
-/
structure Handover (cluster : PatroniCluster)
    (progress : LinearPlay.Progress UpgradeTask Node Services)
    : Prop where
  suffix : progress.tasks <:+ upgradeTasks
  todo : progress.todo ⊆ cluster.nodes
  before
    : Ahead .replicas .startService progress.tasks
      → progress.world.leader = cluster.leaderNode.memberName
        ∧ progress.world.handedOver = false
        ∧ cluster.leaderNode ∈ progress.world.running
  after
    : ¬ Ahead .replicas .startService progress.tasks
      → ReplicasUp cluster progress.world
        ∧ (progress.world.handedOver = true
          → progress.world.leader ≠ cluster.leaderNode.memberName)
        ∧ (cluster.leaderNode ∉ progress.world.running → progress.world.handedOver = true)
  started
    : ∀ task ∈ progress.tasks.head?,
        task.target = .replicas → task.action = .startService → progress.failed = false
        → ∀ node ∈ cluster.nodes,
            node ≠ cluster.leaderNode → node ∉ progress.todo → node ∈ progress.world.running
  switched
    : ∀ task ∈ progress.tasks.head?,
        task.target = .master → task.action = .switchover → progress.failed = false
        → cluster.leaderNode ∉ progress.todo
        → progress.world.handedOver = true
  past : ¬ Ahead .master .switchover progress.tasks → progress.world.handedOver = true

/-- The invariant makes a state safe: at least one replica exists. -/
theorem Handover.safe {progress : LinearPlay.Progress UpgradeTask Node Services}
    (handover : Handover cluster progress)
    : Safe cluster progress.world := by
  obtain ⟨replica, inNodes, other⟩ :=
    Finset.exists_mem_ne cluster.several cluster.leaderNode
  by_cases ahead : Ahead .replicas .startService progress.tasks
  · obtain ⟨leads, _, up⟩ := handover.before ahead
    refine ⟨fun down => absurd up down, ?_, ⟨_, up⟩⟩
    intro node member same
    rw [leads] at same
    rw [cluster.distinctMembers member cluster.leaderIn same]
    exact up
  · obtain ⟨replicas, elsewhere, ended⟩ := handover.after ahead
    refine ⟨ended, ?_, ⟨replica, replicas replica inNodes other⟩⟩
    intro node member same
    by_cases own : node = cluster.leaderNode
    · by_contra down
      rw [own] at same down
      exact elsewhere (ended down) same.symm
    · exact replicas node member own

/-- All services run at the start, and every task is ahead. -/
theorem Handover.start
    : Handover cluster
        ⟨upgradeTasks, cluster.nodes, false,
          ⟨cluster.nodes, cluster.leaderNode.memberName, false⟩⟩ where
  suffix := List.suffix_refl _
  todo := Finset.Subset.refl _
  before := fun _ => ⟨rfl, rfl, cluster.leaderIn⟩
  after := fun none => absurd (show Ahead _ _ upgradeTasks by decide) none
  started := fun _ _ _ _ _ _ member _ outside => absurd member outside
  switched := fun _ _ _ _ _ outside => absurd cluster.leaderIn outside
  past := fun none => absurd (show Ahead _ _ upgradeTasks by decide) none

/-- A host that leaves the services alone keeps the invariant, unless the task needed it. -/
theorem Handover.quiet {task : UpgradeTask} {rest : List UpgradeTask} {todo : Finset Node}
    {failed ok : Bool} {services : Services} {node : Node}
    (handover : Handover cluster ⟨task :: rest, todo, failed, services⟩)
    (needless
      : ok = true
        → (task.target = .replicas → task.action = .startService
            → node = cluster.leaderNode)
          ∧ (task.target = .master → task.action = .switchover
            → node ≠ cluster.leaderNode))
    : Handover cluster ⟨task :: rest, todo.erase node, failed || !ok, services⟩ where
  suffix := handover.suffix
  todo := (Finset.erase_subset _ _).trans handover.todo
  before := handover.before
  after := handover.after
  started := by
    intro current isHead target action succeeded replica member other outside
    obtain rfl : task = current := by simpa using isHead
    simp only [Bool.or_eq_false_iff, Bool.not_eq_false'] at succeeded
    have apart : replica ≠ node := by
      rw [(needless succeeded.2).1 target action]
      exact other
    exact handover.started task rfl target action succeeded.1 replica member other
      (fun inTodo => outside (Finset.mem_erase.mpr ⟨apart, inTodo⟩))
  switched := by
    intro current isHead target action succeeded outside
    obtain rfl : task = current := by simpa using isHead
    simp only [Bool.or_eq_false_iff, Bool.not_eq_false'] at succeeded
    have apart := (needless succeeded.2).2 target action
    exact handover.switched task rfl target action succeeded.1
      (fun inTodo => outside (Finset.mem_erase.mpr ⟨apart.symm, inTodo⟩))
  past := handover.past

section Effects

variable {task : UpgradeTask} {rest : List UpgradeTask} {todo : Finset Node}
  {failed ok : Bool} {services : Services} {node : Node}

/-- The task is for the replicas and the host is one, or it is for the master alone. -/
def ForHost (cluster : PatroniCluster) (task : UpgradeTask) (node : Node) : Prop :=
  task.target = .replicas ∧ node ≠ cluster.leaderNode
  ∨ task.target = .master ∧ node = cluster.leaderNode

theorem head_eq {current : UpgradeTask} (isHead : current ∈ (task :: rest).head?)
    : current = task := by
  simpa [eq_comm] using isHead

/-- Stopping a service keeps the invariant: a replica's while its start is ahead, and the
master's once the switchover is behind.
-/
theorem Handover.stop (handover : Handover cluster ⟨task :: rest, todo, failed, services⟩)
    (action : task.action = .stopService) (forHost : ForHost cluster task node)
    : Handover cluster
        ⟨task :: rest, todo.erase node, failed || !ok,
          { services with running := services.running.erase node }⟩ := by
  have order := upgradeTasks_order handover.suffix rfl
  have todo := (Finset.erase_subset node _).trans handover.todo
  rcases forHost with ⟨replicas, other⟩ | ⟨master, own⟩
  · have ahead := order.1 replicas action
    obtain ⟨leads, none, up⟩ := handover.before ahead
    exact {
      suffix := handover.suffix
      todo := todo
      before := fun _ => ⟨leads, none, Finset.mem_erase.mpr ⟨other.symm, up⟩⟩
      after := fun absent => absurd ahead absent
      started := fun current isHead _ start => by simp [head_eq isHead, action] at start
      switched := fun current isHead _ switch => by simp [head_eq isHead, action] at switch
      past := handover.past
    }
  · obtain ⟨noStart, noSwitchover⟩ := order.2.1 master action
    obtain ⟨running, elsewhere, _⟩ := handover.after noStart
    exact {
      suffix := handover.suffix
      todo := todo
      before := fun ahead => absurd ahead noStart
      after := fun _ => ⟨
        fun replica member other =>
          Finset.mem_erase.mpr ⟨own ▸ other, running replica member other⟩,
        elsewhere,
        fun _ => handover.past noSwitchover
      ⟩
      started := fun current isHead _ start => by simp [head_eq isHead, action] at start
      switched := fun current isHead _ switch => by simp [head_eq isHead, action] at switch
      past := handover.past
    }

/-- Starting a service keeps the invariant, and brings the host's part of a start. -/
theorem Handover.startService
    (handover : Handover cluster ⟨task :: rest, todo, failed, services⟩)
    (action : task.action = .startService) (forHost : ForHost cluster task node)
    : Handover cluster
        ⟨task :: rest, todo.erase node, failed || !ok,
          { services with running := insert node services.running }⟩ := by
  have order := upgradeTasks_order handover.suffix rfl
  have todo := (Finset.erase_subset node _).trans handover.todo
  have more : services.running ⊆ insert node services.running := Finset.subset_insert _ _
  rcases forHost with ⟨replicas, _⟩ | ⟨master, _⟩
  · have ahead : Ahead .replicas .startService (task :: rest) :=
      ⟨task, by simp, replicas, action⟩
    obtain ⟨leads, none, up⟩ := handover.before ahead
    exact {
      suffix := handover.suffix
      todo := todo
      before := fun _ => ⟨leads, none, more up⟩
      after := fun absent => absurd ahead absent
      started := fun current isHead target start succeeded replica member other outside => by
        simp only [Bool.or_eq_false_iff] at succeeded
        by_cases same : replica = node
        · simp [same]
        · exact more (handover.started current isHead target start succeeded.1 replica member
            other (fun inTodo => outside (Finset.mem_erase.mpr ⟨same, inTodo⟩)))
      switched := fun current isHead _ switch => by simp [head_eq isHead, action] at switch
      past := handover.past
    }
  · have noStart := order.2.2.1 master (Or.inl action)
    obtain ⟨running, elsewhere, ended⟩ := handover.after noStart
    exact {
      suffix := handover.suffix
      todo := todo
      before := fun ahead => absurd ahead noStart
      after := fun _ => ⟨
        fun replica member other => more (running replica member other),
        elsewhere,
        fun down => ended (fun up => down (more up))
      ⟩
      started := fun current isHead target => by simp [head_eq isHead, master] at target
      switched := fun current isHead _ switch => by simp [head_eq isHead, action] at switch
      past := handover.past
    }

/-- A switchover on the leader's node moves the leadership to another member. -/
theorem Handover.switchover (keeps : cluster.LeaderKeepsName)
    (handover : Handover cluster ⟨task :: rest, todo, failed, services⟩)
    (action : task.action = .switchover) (forHost : ForHost cluster task node)
    (can : ok = true → (patroniNewLeader cluster.order cluster.rows node).isSome = true)
    : Handover cluster
        ⟨task :: rest, todo.erase node, failed || !ok,
          {
            services with
            leader := (patroniNewLeader cluster.order cluster.rows node).getD services.leader
            handedOver := services.handedOver || ok
          }⟩ := by
  have order := upgradeTasks_order handover.suffix rfl
  rcases forHost with ⟨replicas, _⟩ | ⟨master, own⟩
  · exact absurd action (order.2.2.2.1 replicas)
  · have noStart := order.2.2.1 master (Or.inr action)
    obtain ⟨running, elsewhere, ended⟩ := handover.after noStart
    have ahead : Ahead .master .switchover (task :: rest) := ⟨task, by simp, master, action⟩
    exact {
      suffix := handover.suffix
      todo := (Finset.erase_subset node _).trans handover.todo
      before := fun start => absurd start noStart
      after := fun _ => by
        have kept (down : cluster.leaderNode ∉ services.running)
            : (services.handedOver || ok) = true := by
          have already : services.handedOver = true := ended down
          simp [already]
        refine ⟨running, ?_, kept⟩
        intro moved
        cases chosen : patroniNewLeader cluster.order cluster.rows node with
        | none =>
            have still : services.handedOver = true := by
              cases ok with
              | false => simpa using moved
              | true => simp [chosen] at can
            exact elsewhere still
        | some candidate =>
            rw [← keeps, ← own]
            exact patroniNewLeader_ne chosen
      started := fun current isHead target => by simp [head_eq isHead, master] at target
      switched := fun current isHead _ _ succeeded _ => by
        simp only [Bool.or_eq_false_iff, Bool.not_eq_false'] at succeeded
        simp [succeeded.2]
      past := fun absent => absurd ahead absent
    }

/-- Every action that a host takes keeps the invariant, by cases on the action. -/
theorem Handover.effect (keeps : cluster.LeaderKeepsName)
    (handover : Handover cluster ⟨task :: rest, todo, failed, services⟩)
    (member : node ∈ cluster.nodes) (applies : task.appliesTo cluster.rows node = true)
    (can : ok = true → task.action.canSucceed cluster.order cluster.rows node = true)
    : Handover cluster
        ⟨task :: rest, todo.erase node, failed || !ok,
          task.action.effect cluster.order cluster.rows node ok services⟩ := by
  have order := upgradeTasks_order handover.suffix rfl
  have master := keeps.master_iff member
  have forHost : task.target ≠ .everyHost → ForHost cluster task node := by
    intro special
    unfold ForHost
    cases target : task.target with
    | everyHost => exact absurd target special
    | replicas =>
        have replica : patroniIsMaster cluster.rows node ≠ true := by
          simpa [UpgradeTask.appliesTo, target] using applies
        exact Or.inl ⟨rfl, fun own => replica (master.mpr own)⟩
    | master =>
        have own : patroniIsMaster cluster.rows node = true := by
          simpa [UpgradeTask.appliesTo, target] using applies
        exact Or.inr ⟨rfl, master.mp own⟩
  cases action : task.action with
  | stopService =>
      exact handover.stop action (forHost (fun every => (order.2.2.2.2 every).1 action))
  | startService =>
      exact handover.startService action
        (forHost (fun every => (order.2.2.2.2 every).2.1 action))
  | switchover =>
      exact handover.switchover keeps action
        (forHost (fun every => (order.2.2.2.2 every).2.2 action))
        (fun succeeded => by simpa [action, Action.canSucceed] using can succeeded)
  | checkStatus | setFact | chooseNewLeader | install | pause =>
      exact handover.quiet (fun _ => by simp [action])

/-- The next task begins with the invariant: what its predecessor had to bring is there,
for no host has it to do any more.
-/
theorem Handover.nextTask (handover : Handover cluster ⟨task :: rest, ∅, false, services⟩)
    : Handover cluster ⟨rest, cluster.nodes, false, services⟩ where
  suffix := (List.suffix_cons task rest).trans handover.suffix
  todo := Finset.Subset.refl _
  before := fun ⟨later, inRest, does⟩ =>
    handover.before ⟨later, List.mem_cons_of_mem _ inRest, does⟩
  after := by
    intro absent
    by_cases ahead : Ahead .replicas .startService (task :: rest)
    · obtain ⟨start, inTasks, replicas, action⟩ := ahead
      rcases List.mem_cons.mp inTasks with rfl | inRest
      · obtain ⟨_, none, up⟩ := handover.before ⟨start, by simp, replicas, action⟩
        refine ⟨?_, fun moved => ?_, fun down => absurd up down⟩
        · intro replica member other
          exact handover.started start rfl replicas action rfl replica member other (by simp)
        · exact absurd (none.symm.trans moved) (by decide)
      · exact absurd ⟨start, inRest, replicas, action⟩ absent
    · exact handover.after ahead
  started := fun _ _ _ _ _ _ member _ outside => absurd member outside
  switched := fun _ _ _ _ _ outside => absurd cluster.leaderIn outside
  past := by
    intro absent
    by_cases ahead : Ahead .master .switchover (task :: rest)
    · obtain ⟨switch, inTasks, master, action⟩ := ahead
      rcases List.mem_cons.mp inTasks with rfl | inRest
      · exact handover.switched switch rfl master action rfl (by simp)
      · exact absurd ⟨switch, inRest, master, action⟩ absent
    · exact handover.past ahead

end Effects

/-- Every step of the play keeps the invariant, by cases on what the host does. -/
theorem Handover.step (keeps : cluster.LeaderKeepsName)
    {progress next : LinearPlay.Progress UpgradeTask Node Services}
    (handover : Handover cluster progress)
    (move : cluster.upgrade.Step progress next)
    : Handover cluster next := by
  cases move with
  | @perform task rest todo failed services node ok after waits performed =>
      have member := handover.todo waits
      have master := keeps.master_iff member
      cases performed with
      | skipped other =>
          refine handover.quiet (fun _ => ⟨?_, ?_⟩)
          · intro replicas _
            apply master.mp
            simpa [UpgradeTask.appliesTo, replicas] using other
          · intro target _ own
            have none : patroniIsMaster cluster.rows node = false := by
              simpa [UpgradeTask.appliesTo, target] using other
            rw [master.mpr own] at none
            cases none
      | succeeded applies can => exact handover.effect keeps member applies (fun _ => can)
      | failedBefore => exact handover.quiet (fun ok => by cases ok)
      | failedAfter applies => exact handover.effect keeps member applies (fun ok => by cases ok)
  | nextTask => exact handover.nextTask

/-- While the leader's node keeps its name, every reachable state of the upgrade is safe,
by invariance.
-/
theorem upgrade_safe_of_keepsName (keeps : cluster.LeaderKeepsName)
    {progress : LinearPlay.Progress UpgradeTask Node Services}
    (reached : cluster.upgrade.system.Reachable progress)
    : Safe cluster progress.world := by
  have handover : Handover cluster progress := by
    refine reached.invariant ?_ ?_
    · intro first start
      rw [start]
      exact Handover.start
    · intro current next before move
      exact before.step keeps move
  exact handover.safe

-----------------------------------------------------------------------------------------
-- Other names of the leader's node
-----------------------------------------------------------------------------------------

/-- The leader's member name is the inventory name of a host, and no other member is listed
as a replica.
-/
def PatroniCluster.NoCandidate (cluster : PatroniCluster) : Prop :=
  ∃ node ∈ cluster.nodes,
    node.inventoryHostname = cluster.leaderNode.memberName
    ∧ ∀ row ∈ cluster.rows, row.role = "Replica" → row.member = node.inventoryHostname

theorem patroniNewLeader_eq_none_iff (order : SetOrder String) (rows : List ListedMember)
    (node : Node)
    : patroniNewLeader order rows node = none
      ↔ ∀ row ∈ rows, row.role = "Replica" → row.member = node.inventoryHostname := by
  simp only [patroniNewLeader, List.head?_eq_none_iff, differenceIn_eq_nil_iff,
    membersWithRole, List.mem_map, List.mem_filter, decide_eq_true_eq, List.mem_singleton]
  refine ⟨?_, ?_⟩
  · intro covered row inRows replica
    exact covered row.member ⟨row, ⟨inRows, replica⟩, rfl⟩
  · intro alone item ⟨row, ⟨inRows, replica⟩, same⟩
    rw [← same]
    exact alone row inRows replica

/-- Up to the choice of a candidate no task touches a service. -/
theorem upgradeTasks_choice {tasks : List UpgradeTask} (suffix : tasks <:+ upgradeTasks)
    (ahead : Ahead .master .chooseNewLeader tasks) {task : UpgradeTask}
    (current : task ∈ tasks.head?)
    : task.action ≠ .stopService
      ∧ task.action ≠ .startService
      ∧ task.action ≠ .switchover
      ∧ (task.action = .chooseNewLeader → task.target = .master) := by
  have all : ∀ tasks ∈ upgradeTasks.tails,
      Ahead .master .chooseNewLeader tasks
      → ∀ task ∈ tasks.head?,
          task.action ≠ .stopService
          ∧ task.action ≠ .startService
          ∧ task.action ≠ .switchover
          ∧ (task.action = .chooseNewLeader → task.target = .master) := by
    decide
  exact all tasks ((List.mem_tails _ _).mpr suffix) ahead task current

/-- The upgrade does not get past the choice: the services are as at the start, and the host
that cannot choose has its task left or has failed.
-/
structure Stuck (cluster : PatroniCluster) (chooser : Node)
    (progress : LinearPlay.Progress UpgradeTask Node Services)
    : Prop where
  suffix : progress.tasks <:+ upgradeTasks
  ahead : Ahead .master .chooseNewLeader progress.tasks
  untouched : progress.world = cluster.upgrade.start
  waiting
    : ∀ task ∈ progress.tasks.head?,
        task.action = .chooseNewLeader → progress.failed = false → chooser ∈ progress.todo

/-- An action other than those on services has no effect. -/
theorem effect_eq_self {action : Action} (notStop : action ≠ .stopService)
    (notStart : action ≠ .startService) (notSwitchover : action ≠ .switchover)
    (order : SetOrder String) (rows : List ListedMember) (node : Node) (ok : Bool)
    (services : Services)
    : action.effect order rows node ok services = services := by
  cases action with
  | stopService => exact absurd rfl notStop
  | startService => exact absurd rfl notStart
  | switchover => exact absurd rfl notSwitchover
  | checkStatus | setFact | chooseNewLeader | install | pause => rfl

/-- Every step leaves the upgrade stuck: the chooser can only fail. -/
theorem Stuck.step {chooser : Node} (member : chooser ∈ cluster.nodes)
    (master : patroniIsMaster cluster.rows chooser = true)
    (nobody : patroniNewLeader cluster.order cluster.rows chooser = none)
    {progress next : LinearPlay.Progress UpgradeTask Node Services}
    (stuck : Stuck cluster chooser progress) (move : cluster.upgrade.Step progress next)
    : Stuck cluster chooser next := by
  cases move with
  | @perform task rest todo failed services node ok after waits performed =>
      obtain ⟨notStop, notStart, notSwitchover, forMaster⟩ :=
        upgradeTasks_choice stuck.suffix stuck.ahead rfl
      have silent : after = services := by
        cases performed with
        | skipped | failedBefore => rfl
        | succeeded | failedAfter =>
            exact effect_eq_self notStop notStart notSwitchover _ _ _ _ _
      refine ⟨stuck.suffix, stuck.ahead, silent.trans stuck.untouched, ?_⟩
      intro current isHead action succeeded
      obtain rfl := head_eq isHead
      simp only [Bool.or_eq_false_iff, Bool.not_eq_false'] at succeeded
      have waiting := stuck.waiting current rfl action succeeded.1
      refine Finset.mem_erase.mpr ⟨?_, waiting⟩
      intro same
      subst same
      cases performed with
      | skipped other => simp [UpgradeTask.appliesTo, forMaster action, master] at other
      | succeeded _ can => simp [action, Action.canSucceed, nobody] at can
      | failedBefore | failedAfter => cases succeeded.2
  | @nextTask task rest services =>
      refine ⟨(List.suffix_cons task rest).trans stuck.suffix, ?_, stuck.untouched, ?_⟩
      · obtain ⟨choice, inTasks, target, action⟩ := stuck.ahead
        rcases List.mem_cons.mp inTasks with rfl | inRest
        · exact absurd (stuck.waiting choice rfl action rfl) (by simp)
        · exact ⟨choice, inRest, target, action⟩
      · intro _ _ _ _
        exact member

/-- Without a candidate every reachable state is the first one, by invariance. -/
theorem upgrade_safe_of_noCandidate (blocked : cluster.NoCandidate)
    {progress : LinearPlay.Progress UpgradeTask Node Services}
    (reached : cluster.upgrade.system.Reachable progress)
    : Safe cluster progress.world := by
  obtain ⟨chooser, member, named, alone⟩ := blocked
  have master := (patroniIsMaster_iff chooser).mpr named
  have nobody := (patroniNewLeader_eq_none_iff cluster.order cluster.rows chooser).mpr alone
  have stuck : Stuck cluster chooser progress := by
    refine reached.invariant ?_ ?_
    · intro first start
      rw [start]
      have ahead : Ahead .master .chooseNewLeader upgradeTasks := by decide
      exact ⟨List.suffix_refl _, ahead, rfl, fun _ _ _ _ => member⟩
    · intro current next before move
      exact before.step member master nobody move
  rw [stuck.untouched]
  exact Handover.start.safe

/-- A task that does not touch the services can succeed on every host, when a candidate is
there for those who choose.
-/
theorem performs_silently {task : UpgradeTask} (notStop : task.action ≠ .stopService)
    (notStart : task.action ≠ .startService) (notSwitchover : task.action ≠ .switchover)
    {node : Node} {services : Services}
    (can
      : task.appliesTo cluster.rows node = true
        → task.action.canSucceed cluster.order cluster.rows node = true)
    : Performs cluster.order cluster.rows task node services true services := by
  cases applies : task.appliesTo cluster.rows node with
  | false => exact .skipped applies
  | true =>
      have performed : Performs cluster.order cluster.rows task node services true
          (task.action.effect cluster.order cluster.rows node true services) :=
        .succeeded applies (can applies)
      rwa [effect_eq_self notStop notStart notSwitchover] at performed

/-- If the role takes the leader's node for a replica and whoever it takes for the master can
choose, the leader's service can be stopped before any switchover.
-/
theorem upgrade_unsafe (renamed : ¬ cluster.LeaderKeepsName)
    (choice : ¬ cluster.NoCandidate)
    : ∃ progress, cluster.upgrade.system.Reachable progress
        ∧ ¬ Safe cluster progress.world := by
  have candidate : ∀ node ∈ cluster.nodes, patroniIsMaster cluster.rows node = true
      → (patroniNewLeader cluster.order cluster.rows node).isSome = true := by
    intro node member master
    by_contra none
    refine choice ⟨node, member, (patroniIsMaster_iff node).mp master, ?_⟩
    exact (patroniNewLeader_eq_none_iff cluster.order cluster.rows node).mp (by simpa using none)
  have begun : cluster.upgrade.system.Reachable
      ⟨upgradeTasks, cluster.nodes, false, cluster.upgrade.start⟩ := .initial rfl
  have checked := LinearPlay.reachable_pass
    (fun _ _ => performs_silently (by decide) (by decide) (by decide) (fun _ => rfl)) begun
  have classified := LinearPlay.reachable_pass
    (fun _ _ => performs_silently (by decide) (by decide) (by decide) (fun _ => rfl)) checked
  have current := LinearPlay.reachable_pass
    (fun _ _ => performs_silently (by decide) (by decide) (by decide) (fun _ => rfl)) classified
  have chosen : cluster.upgrade.system.Reachable
      ⟨replicaTasks ++ masterTasks, cluster.nodes, false, cluster.upgrade.start⟩ := by
    refine LinearPlay.reachable_pass ?_ current
    intro node member
    exact performs_silently (by decide) (by decide) (by decide) (candidate node member)
  have replica : patroniIsMaster cluster.rows cluster.leaderNode = false := by
    rw [Bool.eq_false_iff, ne_eq, patroniIsMaster_iff]
    exact renamed
  have stopped := chosen.step (LinearPlay.Step.perform cluster.leaderIn
    (Performs.succeeded (by simp [UpgradeTask.appliesTo, replica]) rfl))
  refine ⟨_, stopped, ?_⟩
  intro safe
  have ended := safe.handedOver (by simp [Action.effect])
  cases ended

/-- Every reachable state of the upgrade is safe if and only if the leader's node keeps its
inventory name, or the role finds no candidate. Witness: otherwise the leader's service is
stopped with those of the replicas.
-/
theorem upgrade_safe_iff (cluster : PatroniCluster)
    : (∀ progress, cluster.upgrade.system.Reachable progress → Safe cluster progress.world)
      ↔ cluster.LeaderKeepsName ∨ cluster.NoCandidate := by
  refine ⟨?_, ?_⟩
  · intro always
    by_contra neither
    obtain ⟨renamed, choice⟩ := not_or.mp neither
    obtain ⟨progress, reached, broken⟩ := upgrade_unsafe renamed choice
    exact broken (always progress reached)
  · intro condition progress reached
    rcases condition with keeps | blocked
    · exact upgrade_safe_of_keepsName keeps reached
    · exact upgrade_safe_of_noCandidate blocked reached

/-- Two hosts with member names of their own. -/
def renamedNodes : Finset Node :=
  {
    { inventoryHostname := "node1", patroniName := some "pg1" },
    { inventoryHostname := "node2", patroniName := some "pg2" }
  }

theorem renamedNodes_distinct
    : (∀ left ∈ renamedNodes, ∀ right ∈ renamedNodes,
          left.inventoryHostname = right.inventoryHostname → left = right)
      ∧ ∀ left ∈ renamedNodes, ∀ right ∈ renamedNodes,
          left.memberName = right.memberName → left = right := by
  decide

/-- The first of them leads and the second one follows. -/
def renamedCluster : PatroniCluster where
  nodes := renamedNodes
  rows := [
    { member := "pg1", role := "Leader", state := "running" },
    { member := "pg2", role := "Replica", state := "streaming" }
  ]
  order := .kept
  leaderNode := { inventoryHostname := "node1", patroniName := some "pg1" }
  several := by decide
  distinctHosts := fun left inLeft right inRight =>
    renamedNodes_distinct.1 left inLeft right inRight
  distinctMembers := fun left inLeft right inRight =>
    renamedNodes_distinct.2 left inLeft right inRight
  leaderIn := by decide
  oneLeader := by decide

/-- There the leader's service is stopped along with the replica's. -/
theorem upgrade_stops_renamedLeader
    : ¬ (∀ (cluster : PatroniCluster) progress,
          cluster.upgrade.system.Reachable progress → Safe cluster progress.world) := by
  intro always
  have renamed : ¬ renamedCluster.LeaderKeepsName := by
    unfold PatroniCluster.LeaderKeepsName
    decide
  have choice : ¬ renamedCluster.NoCandidate := by
    unfold PatroniCluster.NoCandidate
    decide
  obtain ⟨progress, reached, broken⟩ := upgrade_unsafe renamed choice
  exact broken (always renamedCluster progress reached)

end PgCluster.Patroni
