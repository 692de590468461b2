import PgCluster.Patroni.Upgrade

/-! The member that the upgrade hands the leadership to: when the choice on the master is one
that Patroni accepts, for one order of listing sets and for every order.
-/

namespace PgCluster.Patroni

open Foundation

/-- The status that every host of the play reads: distinct members, of which one leads. -/
structure ClusterStatus where
  rows : List ListedMember
  leader : String
  hosts : List Node
  distinctMembers : (rows.map ListedMember.member).Nodup
  oneLeader : membersWithRole "Leader" rows = [leader]
  distinctHosts : (hosts.map Node.inventoryHostname).Nodup

/-- The member follows the leader. -/
def ListedMember.Follows (row : ListedMember) : Prop :=
  row.state = "running" ∨ row.state = "streaming"

/-- Patroni takes the member as the candidate of a switchover: it follows the leader, and it
is a synchronous standby if the cluster has one.
-/
structure ListedMember.Eligible (rows : List ListedMember) (row : ListedMember) : Prop where
  listed : row ∈ rows
  notLeader : row.role ≠ "Leader"
  follows : row.Follows
  synchronous
    : (∃ other ∈ rows, other.role = "Sync Standby") → row.role = "Sync Standby"

namespace ClusterStatus

/-- The choice of the hosts that take themselves for the master: none where there is no such
host, since the task is skipped everywhere.
-/
def newLeader (status : ClusterStatus) (order : SetOrder String) : Option String :=
  (status.hosts.find? (patroniIsMaster status.rows)).bind
    (patroniNewLeader order status.rows)

/-- The block has chosen an eligible member. -/
def ChoosesEligible (status : ClusterStatus) (order : SetOrder String) : Prop :=
  ∃ row : ListedMember,
    row.Eligible status.rows ∧ status.newLeader order = some row.member

/-- The Member of the leader's row is the inventory name of a host of the play. -/
def LeaderNamed (status : ClusterStatus) : Prop :=
  status.leader ∈ status.hosts.map Node.inventoryHostname

/-- No row has Role Sync Standby. -/
def Asynchronous (status : ClusterStatus) : Prop :=
  ∀ row ∈ status.rows, row.role ≠ "Sync Standby"

/-- The replicas in the order of the rows. -/
def replicas (status : ClusterStatus) : List String := membersWithRole "Replica" status.rows

variable (status : ClusterStatus)

theorem row_unique {row other : ListedMember} (listed : row ∈ status.rows)
    (otherListed : other ∈ status.rows) (same : row.member = other.member)
    : row = other :=
  List.inj_on_of_nodup_map status.distinctMembers listed otherListed same

theorem mem_replicas {name : String}
    : name ∈ status.replicas
      ↔ ∃ row ∈ status.rows, row.role = "Replica" ∧ row.member = name := by
  simp [replicas, membersWithRole, and_assoc]

/-- No replica has the name of the leader, by distinct members. -/
theorem replica_ne_leader {name : String} (replica : name ∈ status.replicas)
    : name ≠ status.leader := by
  intro same
  subst same
  have leads : status.leader ∈ membersWithRole "Leader" status.rows := by
    rw [status.oneLeader]
    exact List.mem_singleton_self _
  simp only [membersWithRole, List.mem_map, List.mem_filter, decide_eq_true_eq] at leads
  obtain ⟨first, ⟨firstListed, leads⟩, firstName⟩ := leads
  obtain ⟨second, secondListed, follows, secondName⟩ := status.mem_replicas.mp replica
  have row := status.row_unique firstListed secondListed (firstName.trans secondName.symm)
  rw [row, follows] at leads
  simp at leads

/-- The master takes nothing away from the replicas, which are listed once each. -/
theorem patroniNewLeader_master (order : SetOrder String) {node : Node}
    (named : node.inventoryHostname = status.leader)
    : patroniNewLeader order status.rows node = (order.list status.replicas).head? := by
  have distinct : status.replicas.Nodup :=
    status.distinctMembers.sublist (List.filter_sublist.map ListedMember.member)
  have apart : ∀ name ∈ status.replicas, name ∉ [node.inventoryHostname] := by
    intro name replica
    simpa [named] using status.replica_ne_leader replica
  have nothing := difference_of_disjoint distinct apart
  rw [patroniNewLeader, differenceIn, ← nothing]
  rfl

/-- The choice is the replica that the order puts first, made where the leader's name is the
inventory name of a host.
-/
theorem newLeader_eq_some_iff (order : SetOrder String) (candidate : String)
    : status.newLeader order = some candidate
      ↔ status.LeaderNamed ∧ (order.list status.replicas).head? = some candidate := by
  have master : ∀ node, patroniIsMaster status.rows node = true
      ↔ node.inventoryHostname = status.leader := by
    intro node
    simp [patroniIsMaster, status.oneLeader, eq_comm]
  unfold newLeader LeaderNamed
  cases found : status.hosts.find? (patroniIsMaster status.rows) with
  | none =>
      have nobody : status.leader ∉ status.hosts.map Node.inventoryHostname := by
        intro named
        obtain ⟨node, inHosts, same⟩ := List.mem_map.mp named
        exact List.find?_eq_none.mp found node inHosts ((master node).mpr same)
      simp [nobody]
  | some node =>
      have named := (master node).mp (List.find?_some found)
      have inHosts : status.leader ∈ status.hosts.map Node.inventoryHostname :=
        named ▸ List.mem_map_of_mem (List.mem_of_find?_eq_some found)
      simp [inHosts, status.patroniNewLeader_master order named]

/-- A replica is eligible exactly when it follows the leader of an asynchronous cluster. -/
theorem eligible_replica_iff {row : ListedMember} (listed : row ∈ status.rows)
    (replica : row.role = "Replica")
    : row.Eligible status.rows ↔ row.Follows ∧ status.Asynchronous := by
  constructor
  · intro eligible
    refine ⟨eligible.follows, fun other otherListed sync => ?_⟩
    have role := eligible.synchronous ⟨other, otherListed, sync⟩
    simp [replica] at role
  · intro ⟨follows, asynchronous⟩
    refine ⟨listed, by simp [replica], follows, fun standby => ?_⟩
    obtain ⟨other, otherListed, sync⟩ := standby
    exact (asynchronous other otherListed sync).elim

/-- For one order of listing sets: the replica in front decides. -/
theorem choosesEligible_iff_front (order : SetOrder String)
    : status.ChoosesEligible order
      ↔ status.LeaderNamed
        ∧ status.Asynchronous
        ∧ ∃ row ∈ status.rows,
            row.role = "Replica"
            ∧ (order.list status.replicas).head? = some row.member
            ∧ row.Follows := by
  unfold ChoosesEligible
  simp only [newLeader_eq_some_iff]
  constructor
  · intro ⟨row, eligible, named, front⟩
    have listed := (order.perm _).mem_iff.mp (List.mem_of_head? front)
    obtain ⟨found, inRows, replica, same⟩ := status.mem_replicas.mp listed
    obtain rfl := status.row_unique inRows eligible.listed same
    have decides := (status.eligible_replica_iff inRows replica).mp eligible
    exact ⟨named, decides.2, found, inRows, replica, front, decides.1⟩
  · intro ⟨named, asynchronous, row, inRows, replica, front, follows⟩
    exact ⟨row, (status.eligible_replica_iff inRows replica).mpr ⟨follows, asynchronous⟩,
      named, front⟩

/-- For one order of listing sets an eligible member is chosen if and only if the leader's
name is the inventory name of a host, no row is a synchronous standby, and the replica in
front follows the leader; for every order, if and only if there is a replica and all of them
follow. Witness: every replica is in front in some order.
-/
theorem choosesEligible_iff
    : (∀ order,
          status.ChoosesEligible order
          ↔ status.LeaderNamed
            ∧ status.Asynchronous
            ∧ ∃ row ∈ status.rows,
                row.role = "Replica"
                ∧ (order.list status.replicas).head? = some row.member
                ∧ row.Follows)
      ∧ ((∀ order, status.ChoosesEligible order)
          ↔ status.LeaderNamed
            ∧ status.Asynchronous
            ∧ (∃ row ∈ status.rows, row.role = "Replica")
            ∧ ∀ row ∈ status.rows, row.role = "Replica" → row.Follows) := by
  refine ⟨status.choosesEligible_iff_front, ?_⟩
  simp only [choosesEligible_iff_front]
  constructor
  · intro always
    obtain ⟨named, asynchronous, first, inRows, replica, _⟩ := always .kept
    refine ⟨named, asynchronous, ⟨first, inRows, replica⟩, fun row listed follower => ?_⟩
    have member := status.mem_replicas.mpr ⟨row, listed, follower, rfl⟩
    obtain ⟨_, _, found, foundListed, _, front, follows⟩ := always (.inFront row.member)
    rw [head?_inFront member] at front
    obtain rfl := status.row_unique listed foundListed (Option.some.inj front)
    exact follows
  · intro ⟨named, asynchronous, ⟨first, inRows, replica⟩, all⟩ order
    have member : first.member ∈ order.list status.replicas :=
      (order.perm _).mem_iff.mpr (status.mem_replicas.mpr ⟨first, inRows, replica, rfl⟩)
    obtain ⟨front, rest, shape⟩ := List.exists_cons_of_ne_nil (List.ne_nil_of_mem member)
    have listed : front ∈ status.replicas := by
      rw [← (order.perm _).mem_iff, shape]
      exact List.mem_cons_self
    obtain ⟨row, rowListed, follower, rfl⟩ := status.mem_replicas.mp listed
    exact ⟨named, asynchronous, row, rowListed, follower, by simp [shape],
      all row rowListed follower⟩

/-- A cluster whose only replica has failed, beside a synchronous standby. -/
def failedReplica : ClusterStatus where
  rows :=
    [⟨"db1", "Leader", "running", by decide⟩, ⟨"db2", "Replica", "start failed", by decide⟩,
      ⟨"db3", "Sync Standby", "streaming", by decide⟩]
  leader := "db1"
  hosts :=
    [{ inventoryHostname := "db1" }, { inventoryHostname := "db2" },
      { inventoryHostname := "db3" }]
  distinctMembers := by decide
  oneLeader := by decide
  distinctHosts := by decide

/-- The failed replica is chosen in every order, although the standby is eligible. -/
theorem choosesEligible_failedReplica
    : (∃ row : ListedMember, row.Eligible failedReplica.rows)
      ∧ ∀ order,
          failedReplica.newLeader order = some "db2"
          ∧ ¬ failedReplica.ChoosesEligible order := by
  constructor
  · refine ⟨⟨"db3", "Sync Standby", "streaming", by decide⟩, by decide, by decide, .inr rfl,
      fun _ => rfl⟩
  · intro order
    have chosen : failedReplica.newLeader order = some "db2" := by
      have single : order.list failedReplica.replicas = ["db2"] :=
        List.perm_singleton.mp (order.perm ["db2"])
      exact (failedReplica.newLeader_eq_some_iff order "db2").mpr
        ⟨by unfold LeaderNamed; decide, by rw [single]; rfl⟩
    refine ⟨chosen, fun ⟨row, eligible, named⟩ => ?_⟩
    have member : row.member = "db2" := (Option.some.inj (chosen.symm.trans named)).symm
    have follows := eligible.follows
    have listed := eligible.listed
    simp only [failedReplica, List.mem_cons, List.not_mem_nil, or_false] at listed
    rcases listed with row_ | row_ | row_ <;> subst row_ <;> simp [ListedMember.Follows] at *

end ClusterStatus

end PgCluster.Patroni
