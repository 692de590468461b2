import PgCluster.Foundation.Filters
import PgCluster.Foundation.LinearPlay
import PgCluster.Patroni.Naming

/-! The rolling upgrade block of the Patroni role, on all hosts in linear order.
The role takes the master to be the host whose inventory name is the leader's member name.
-/

namespace PgCluster.Patroni

open Foundation

def membersWithRole (role : String) (rows : List ListedMember) : List String :=
  (rows.filter (fun row => row.role = role)).map ListedMember.member

/-- `patroni_is_master`. -/
def patroniIsMaster (rows : List ListedMember) (node : Node) : Bool :=
  (membersWithRole "Leader" rows).head? = some node.inventoryHostname

/-- `patroni_new_leader`: the first replica other than the inventory name; the task fails
when there is none. The filter `difference` keeps the order of the rows up to ansible-core
2.15 and goes through sets later.
-/
def patroniNewLeader (order : SetOrder String) (rows : List ListedMember) (node : Node)
    : Option String :=
  (differenceIn order (membersWithRole "Replica" rows) [node.inventoryHostname]).head?

inductive Target where
  | everyHost
  | replicas
  | master
deriving DecidableEq, Repr

inductive Action where
  | checkStatus
  | setFact
  | chooseNewLeader
  | stopService
  | install
  | startService
  | switchover
  | pause
deriving DecidableEq, Repr

structure UpgradeTask where
  name : String
  target : Target
  action : Action
deriving DecidableEq, Repr

/-- The four package tasks, of which the operating system selects one. -/
def installTasks (target : Target) (suffix : String) : List UpgradeTask :=
  [
    ⟨"Install patroni-tantor-all (RHEL-like systems)" ++ suffix, target, .install⟩,
    ⟨"Install patroni-tantor-all (Alt linux)" ++ suffix, target, .install⟩,
    ⟨"Install patroni-tantor-all (Debian-like systems)" ++ suffix, target, .install⟩,
    ⟨"Install patroni-tantor-all (MosOS)" ++ suffix, target, .install⟩
  ]

/-- The tasks that put the new package on the replicas. -/
def replicaTasks : List UpgradeTask :=
  [⟨"Stop Patroni service on replica", .replicas, .stopService⟩]
  ++ installTasks .replicas ""
  ++ [⟨"Start Patroni service on replica", .replicas, .startService⟩]

/-- The tasks that hand over and put it on the previous master. -/
def masterTasks : List UpgradeTask :=
  [
    ⟨"Perform switchover if this node is the master", .master, .switchover⟩,
    ⟨"Wait for switchover to complete", .master, .pause⟩,
    ⟨"Stop Patroni service at previous master", .master, .stopService⟩
  ]
  ++ installTasks .master " at previous master"
  ++ [⟨"Start Patroni service at previous master node", .master, .startService⟩]

/-- The block in file order. -/
def upgradeTasks : List UpgradeTask :=
  [
    ⟨"Check if this node is the master", .everyHost, .checkStatus⟩,
    ⟨"Set patroni_is_master fact", .everyHost, .setFact⟩,
    ⟨"Set current master", .master, .setFact⟩,
    ⟨"Choose new leader", .master, .chooseNewLeader⟩
  ]
  ++ replicaTasks
  ++ masterTasks

/-- The services that run, the member that leads, and whether a switchover succeeded. -/
structure Services where
  running : Finset Node
  leader : String
  handedOver : Bool

def UpgradeTask.appliesTo (task : UpgradeTask) (rows : List ListedMember) (node : Node)
    : Bool :=
  match task.target with
  | .everyHost => true
  | .replicas => !patroniIsMaster rows node
  | .master => patroniIsMaster rows node

/-- A chosen candidate is needed to choose and to switch over. -/
def Action.canSucceed (order : SetOrder String) (rows : List ListedMember) (node : Node)
    : Action → Bool
  | .chooseNewLeader | .switchover => (patroniNewLeader order rows node).isSome
  | _ => true

/-- Facts fail for want of a value only; commands, packages and services can always fail. -/
def Action.canFail (order : SetOrder String) (rows : List ListedMember) (node : Node)
    : Action → Bool
  | .setFact => false
  | .chooseNewLeader => (patroniNewLeader order rows node).isNone
  | _ => true

/-- What an action does to the services; only a successful switchover counts as one. -/
def Action.effect (order : SetOrder String) (rows : List ListedMember) (node : Node)
    (ok : Bool) (services : Services)
    : Action → Services
  | .stopService => { services with running := services.running.erase node }
  | .startService => { services with running := insert node services.running }
  | .switchover =>
      {
        services with
        leader := (patroniNewLeader order rows node).getD services.leader
        handedOver := services.handedOver || ok
      }
  | _ => services

/-- A host skips a task that is not for it, succeeds with its effect, or fails with or without
that effect.
-/
inductive Performs (order : SetOrder String) (rows : List ListedMember) (task : UpgradeTask)
    (node : Node) (services : Services)
    : Bool → Services → Prop where
  | skipped (other : task.appliesTo rows node = false)
    : Performs order rows task node services true services
  | succeeded (applies : task.appliesTo rows node = true)
    (can : task.action.canSucceed order rows node = true)
    : Performs order rows task node services true
        (task.action.effect order rows node true services)
  | failedBefore (applies : task.appliesTo rows node = true)
    (can : task.action.canFail order rows node = true)
    : Performs order rows task node services false services
  | failedAfter (applies : task.appliesTo rows node = true)
    (can : task.action.canFail order rows node = true)
    : Performs order rows task node services false
        (task.action.effect order rows node false services)

/-- An inventory of at least two hosts with distinct names, and the status that all of them
see: it names exactly one leader, the member of one of the hosts. Sets are listed in any
order.
-/
structure PatroniCluster where
  nodes : Finset Node
  rows : List ListedMember
  order : SetOrder String
  leaderNode : Node
  several : 2 ≤ nodes.card
  distinctHosts : Set.InjOn Node.inventoryHostname nodes
  distinctMembers : Set.InjOn Node.memberName nodes
  leaderIn : leaderNode ∈ nodes
  oneLeader : membersWithRole "Leader" rows = [leaderNode.memberName]

/-- The block on all hosts, with all services running at the start. -/
def PatroniCluster.upgrade (cluster : PatroniCluster)
    : LinearPlay UpgradeTask Node Services where
  tasks := upgradeTasks
  hosts := cluster.nodes
  start := ⟨cluster.nodes, cluster.leaderNode.memberName, false⟩
  perform := Performs cluster.order cluster.rows

/-- The first leader is down only after a successful switchover, the service of the leader
runs, and so does some service.
-/
structure Safe (cluster : PatroniCluster) (services : Services) : Prop where
  handedOver : cluster.leaderNode ∉ services.running → services.handedOver = true
  leaderUp
    : ∀ node ∈ cluster.nodes,
        node.memberName = services.leader → node ∈ services.running
  someUp : services.running.Nonempty

end PgCluster.Patroni
