import PgCluster.Etcd.Configuration
import PgCluster.Etcd.MembershipPlan

/-! Two runs of the etcd role with the same inventory, variables and facts.
Between them the first plan has completed and every member starts and publishes its name;
the second run sees that membership through any set of answering probes.
-/

namespace PgCluster.Etcd

open Foundation

/-- The probe results when the listed hosts answer with the same membership. -/
def probeResults (masters : List Host) (answers : Host → Bool) (members : List Member)
    : List ProbeResult :=
  masters.map (fun host => ⟨host, if answers host then some members else none⟩)

/-- The items of the adding loop: `cluster_manage.yml` is included for an existing cluster
only.
-/
def plannedAdds (masters : List Host) (discovery : Discovery) : List String :=
  if discovery.etcdClusterExists then etcdNodesToAdd masters discovery.etcdMemberNames
  else []

/-- The items of the removing loop. -/
def plannedRemoves (masters : List Host) (discovery : Discovery) : List String :=
  if discovery.etcdClusterExists then etcdNodesToRemove masters discovery.etcdMemberNames
  else []

/-- The commands over the items of both loops. -/
def planCommands (vars : Variables) (masters : List Host) (adds removes : List String)
    : List PlanStep :=
  adds.map (fun item => .memberAdd item (addedPeerUrl vars masters item))
    ++ removes.map .memberRemove

/-- The commands of a run. -/
def rolePlan (vars : Variables) (masters : List Host) (discovery : Discovery)
    : List PlanStep :=
  planCommands vars masters (plannedAdds masters discovery) (plannedRemoves masters discovery)

/-- A member already holds the peer URL of a `member add`. -/
def urlHeld (peers : List Peer) (peerUrl : Option String) : Bool :=
  peerUrl.any (fun url => peers.any (fun peer => url ∈ peer.peerURLs))

/-- An accepted command. etcd refuses to add a peer URL that a member holds, with the message
'already exists' that `failed_when` lets pass.
-/
def PlanStep.perform (peers : List Peer) : PlanStep → List Peer
  | .memberAdd name peerUrl =>
      if urlHeld peers peerUrl then peers else (PlanStep.memberAdd name peerUrl).apply peers
  | .memberRemove name => (PlanStep.memberRemove name).apply peers

def performPlan (peers : List Peer) (steps : List PlanStep) : List Peer :=
  steps.foldl PlanStep.perform peers

/-- The peer that `member add` creates for a node. -/
def addedPeer (vars : Variables) (masters : List Host) (item : String) : Peer :=
  ⟨"", (addedPeerUrl vars masters item).toList⟩

/-- The items whose adding command is not refused, in the order of the loop. -/
def acceptedAdds (vars : Variables) (masters : List Host)
    : List Peer → List String → List String
  | _, [] => []
  | peers, item :: rest =>
      if urlHeld peers (addedPeerUrl vars masters item) then
        acceptedAdds vars masters peers rest
      else item :: acceptedAdds vars masters (peers ++ [addedPeer vars masters item]) rest

/-- A peer after its member has started: it keeps a published name and publishes one
otherwise.
-/
def Peer.publish (names : Peer → String) (peer : Peer) : Peer :=
  { peer with name := if peer.name = "" then names peer else peer.name }

/-- The started membership after a run: that of the performed plan in a found cluster;
otherwise the inventory founds a cluster.
-/
def settledPeers (vars : Variables) (masters : List Host) (discovery : Discovery)
    (adds removes : List String) (names : Peer → String) (peers : List Peer)
    : List Peer :=
  if discovery.etcdClusterExists then
    (performPlan peers (planCommands vars masters adds removes)).map (Peer.publish names)
  else masters.map (fun host => ⟨host.unifiedHostname, [vars.listedPeerUrl host]⟩)

/-- A completed run, the membership it leads to, and a second run over it.
An existing cluster answers at least one probe of the first run, whose loops go through
their items in any order. An added node starts the member that was created for it.
-/
structure TwoRuns (vars : Variables) (masters : List Host) where
  before : List Member
  firstAnswers : Host → Bool
  visible : before ≠ [] ↔ ∃ host ∈ masters, firstAnswers host = true
  adds : List String
  addsPlanned
    : adds.Perm
        (plannedAdds masters (discover masters (probeResults masters firstAnswers before)))
  removes : List String
  removesPlanned
    : removes.Perm
        (plannedRemoves masters (discover masters (probeResults masters firstAnswers before)))
  names : Peer → String
  joined
    : ∀ item ∈ acceptedAdds vars masters (before.map Member.toPeer) adds,
        names (addedPeer vars masters item) = item
  after : List Member
  settled
    : after.map Member.toPeer
      = settledPeers vars masters (discover masters (probeResults masters firstAnswers before))
          adds removes names (before.map Member.toPeer)
  published : ∀ member ∈ after, member.name ≠ ""
  secondAnswers : Host → Bool

namespace TwoRuns

variable {vars : Variables} {masters : List Host} (runs : TwoRuns vars masters)

def first : Discovery :=
  discover masters (probeResults masters runs.firstAnswers runs.before)

def second : Discovery :=
  discover masters (probeResults masters runs.secondAnswers runs.after)

/-- The handlers notified on a host by the second run, over the files of the first. -/
def secondNotifications (host : Host) (facts : AddressFacts) : List String :=
  notifications (templateTasks vars masters host facts runs.second)
    (writtenFiles (templateTasks vars masters host facts runs.first))

/-- The names that the members have published after the first run. -/
def publishedNames : List String := runs.after.map (fun member => member.name)

/-- The name under which an unnamed member of the first run has started since. -/
def Leftover (name : String) : Prop :=
  ∃ member ∈ runs.before, member.name = "" ∧ runs.names member.toPeer = name

/-- The first run's command for the node was refused, since a member held its peer URL, and
no member has started under its name since.
-/
def LeftOut (name : String) : Prop :=
  name ∈ runs.adds
  ∧ name ∉ acceptedAdds vars masters (runs.before.map Member.toPeer) runs.adds
  ∧ name ∉ runs.publishedNames

instance (name : String) : Decidable (runs.LeftOut name) := inferInstanceAs (Decidable (_ ∧ _))

end TwoRuns

/-- All answers report the same membership, so an existing cluster yields its names. -/
theorem discover_probeResults_names (masters : List Host) (answers : Host → Bool)
    (members : List Member)
    : (discover masters (probeResults masters answers members)).etcdMemberNames
      = if (discover masters (probeResults masters answers members)).etcdClusterExists then
          etcdMemberNames (members.map Member.toPeer)
        else [] := by
  apply discover_names
  intro result inResults reply answered
  obtain ⟨host, _, rfl⟩ := List.mem_map.mp inResults
  by_cases answer : answers host = true <;> simp_all

theorem discover_probeResults_exists (masters : List Host) (answers : Host → Bool)
    (members : List Member)
    : (discover masters (probeResults masters answers members)).etcdClusterExists = true
      ↔ ∃ host ∈ masters, answers host = true := by
  rw [discover_exists_iff]
  simp only [probeResults, List.mem_map, exists_exists_and_eq_and]
  apply exists_congr
  intro host
  by_cases answer : answers host = true <;> simp [answer]

/-- Adding commands extend the membership by the accepted ones, by induction on the items. -/
theorem performPlan_adds (vars : Variables) (masters : List Host) (peers : List Peer)
    (adds : List String)
    : performPlan peers
        (adds.map (fun item => .memberAdd item (addedPeerUrl vars masters item)))
      = peers ++ (acceptedAdds vars masters peers adds).map (addedPeer vars masters) := by
  induction adds generalizing peers with
  | nil => simp [performPlan, acceptedAdds]
  | cons item rest ih =>
      unfold performPlan at ih ⊢
      rw [List.map_cons, List.foldl_cons, acceptedAdds]
      by_cases held : urlHeld peers (addedPeerUrl vars masters item) = true
      · simp [PlanStep.perform, held, ih]
      · simp [PlanStep.perform, held, PlanStep.apply, ih, addedPeer]

/-- Removing commands are never refused. -/
theorem performPlan_removes (peers : List Peer) (removes : List String)
    : performPlan peers (removes.map .memberRemove)
      = peers.filter (fun peer => peer.name ∉ removes) := by
  rw [← runPlan_removes]
  unfold performPlan runPlan
  induction removes generalizing peers with
  | nil => rfl
  | cons name rest ih => exact ih _

/-- A performed plan keeps the unremoved peers and the accepted additions, which are out of
reach of the removals.
-/
theorem performPlan_planCommands (vars : Variables) (masters : List Host)
    (peers : List Peer) (adds : List String) {removes : List String} (named : "" ∉ removes)
    : performPlan peers (planCommands vars masters adds removes)
      = peers.filter (fun peer => peer.name ∉ removes)
        ++ (acceptedAdds vars masters peers adds).map (addedPeer vars masters) := by
  have added := performPlan_adds vars masters peers adds
  unfold planCommands performPlan at *
  rw [List.foldl_append, added]
  refine (performPlan_removes _ removes).trans ?_
  rw [List.filter_append]
  congr 1
  apply List.filter_eq_self.mpr
  intro peer member
  obtain ⟨item, _, rfl⟩ := List.mem_map.mp member
  exact decide_eq_true named

theorem acceptedAdds_subset (vars : Variables) (masters : List Host) (peers : List Peer)
    (adds : List String)
    : acceptedAdds vars masters peers adds ⊆ adds := by
  induction adds generalizing peers with
  | nil => simp [acceptedAdds]
  | cons item rest ih =>
      unfold acceptedAdds
      split
      · exact List.subset_cons_of_subset _ (ih peers)
      · exact List.cons_subset_cons _ (ih _)

namespace TwoRuns

variable {vars : Variables} {masters : List Host} (runs : TwoRuns vars masters)

/-- A cluster found by the first run is known to it with all its names. -/
theorem first_names (found : runs.first.etcdClusterExists = true)
    : runs.first.etcdMemberNames = etcdMemberNames (runs.before.map Member.toPeer) := by
  have general := discover_probeResults_names masters runs.firstAnswers runs.before
  exact general.trans (if_pos found)

/-- The names seen by the second run are those of the settled members, all published. -/
theorem second_names (found : runs.second.etcdClusterExists = true)
    : runs.second.etcdMemberNames = runs.publishedNames := by
  have general := discover_probeResults_names masters runs.secondAnswers runs.after
  have named : ∀ name ∈ runs.publishedNames, name ≠ "" := by
    intro name member
    obtain ⟨settled, inAfter, rfl⟩ := List.mem_map.mp member
    exact runs.published settled inAfter
  refine general.trans ((if_pos found).trans ?_)
  rw [etcdMemberNames, List.map_map]
  exact List.filter_eq_self.mpr (fun name member => decide_eq_true (named name member))

/-- The items of the first run's adding loop, whatever its order. -/
theorem mem_adds {item : String}
    : item ∈ runs.adds ↔ item ∈ plannedAdds masters runs.first :=
  runs.addsPlanned.mem_iff

/-- The settled members of a found cluster: the staying ones under their names, then the
accepted additions under theirs.
-/
theorem settled_found (found : runs.first.etcdClusterExists = true)
    : runs.after.map Member.toPeer
      = ((runs.before.map Member.toPeer).filter (stays masters)).map
            (Peer.publish runs.names)
        ++ (acceptedAdds vars masters (runs.before.map Member.toPeer) runs.adds).map
            (fun item => ⟨item, (addedPeerUrl vars masters item).toList⟩) := by
  have removes : ∀ name,
      name ∈ runs.removes
      ↔ name ∈ etcdNodesToRemove masters (etcdMemberNames (runs.before.map Member.toPeer)) := by
    intro name
    rw [← runs.first_names found, runs.removesPlanned.mem_iff]
    exact iff_of_eq (congrArg (name ∈ ·) (if_pos found))
  have unnamed : "" ∉ runs.removes := by
    rw [removes]
    exact empty_notMem_removals masters _
  rw [runs.settled, settledPeers]
  refine (if_pos found).trans ?_
  rw [performPlan_planCommands vars masters _ _ unnamed, List.map_append, List.map_map]
  congr 1
  · congr 1
    apply List.filter_congr
    intro peer member
    rw [Bool.eq_iff_iff, decide_eq_true_iff, removes]
    exact notMem_removals_iff_stays member
  · apply List.map_congr_left
    intro item accepted
    simpa [Peer.publish, addedPeer] using runs.joined item accepted

/-- Without a cluster the inventory has founded one. -/
theorem settled_founded (absent : runs.first.etcdClusterExists = false)
    : runs.after.map Member.toPeer
      = masters.map (fun host => ⟨host.unifiedHostname, [vars.listedPeerUrl host]⟩) := by
  rw [runs.settled, settledPeers]
  exact if_neg (by simpa [first] using absent)

theorem mem_publishedNames {name : String}
    : name ∈ runs.publishedNames
      ↔ ∃ peer ∈ runs.after.map Member.toPeer, peer.name = name := by
  simp [publishedNames]

/-- A node that was no joining one is a member now, and so is a node whose adding command
was accepted. Witness: the founding list, the staying members or the additions.
-/
theorem known_or_leftOut {host : Host} (inMasters : host ∈ masters)
    : (runs.first.joins host = false
          → host.unifiedHostname ∈ runs.publishedNames)
      ∧ (host.unifiedHostname ∉ runs.publishedNames
          → runs.LeftOut host.unifiedHostname) := by
  have inventory := List.mem_map_of_mem (f := Host.unifiedHostname) inMasters
  cases found : runs.first.etcdClusterExists with
  | false =>
      have known : host.unifiedHostname ∈ runs.publishedNames := by
        rw [mem_publishedNames, runs.settled_founded found]
        exact ⟨_, List.mem_map_of_mem inMasters, rfl⟩
      exact ⟨fun _ => known, fun unknown => absurd known unknown⟩
  | true =>
      have names := runs.first_names found
      have remembered
          : host.unifiedHostname ∈ runs.first.etcdMemberNames
            → host.unifiedHostname ∈ runs.publishedNames := by
        intro known
        rw [names] at known
        obtain ⟨inNames, named⟩ := List.mem_filter.mp known
        obtain ⟨peer, inPeers, same⟩ := List.mem_map.mp inNames
        have staying : stays masters peer = true := by simp_all [stays]
        rw [mem_publishedNames, runs.settled_found found]
        refine ⟨peer.publish runs.names, List.mem_append_left _ (List.mem_map_of_mem
          (List.mem_filter.mpr ⟨inPeers, staying⟩)), ?_⟩
        simp_all [Peer.publish]
      refine ⟨fun stayed => remembered ?_, fun unknown => ?_⟩
      · simpa [Discovery.joins, found] using stayed
      · have planned : host.unifiedHostname ∈ runs.adds := by
          rw [runs.mem_adds]
          refine (congrArg (host.unifiedHostname ∈ ·) (if_pos found)).mpr ?_
          exact mem_difference.mpr ⟨inventory, fun known => unknown (remembered known)⟩
        refine ⟨planned, fun accepted => unknown ?_, unknown⟩
        rw [mem_publishedNames, runs.settled_found found]
        exact ⟨_, List.mem_append_right _ (List.mem_map_of_mem accepted), rfl⟩

/-- A published name outside the inventory is that of an unnamed member of the first run. -/
theorem leftover_of_outside {name : String} (published : name ∈ runs.publishedNames)
    (outside : name ∉ masters.map Host.unifiedHostname)
    : runs.Leftover name := by
  obtain ⟨settled, inAfter, rfl⟩ := runs.mem_publishedNames.mp published
  cases found : runs.first.etcdClusterExists with
  | false =>
      rw [runs.settled_founded found] at inAfter
      obtain ⟨host, inMasters, rfl⟩ := List.mem_map.mp inAfter
      exact absurd (List.mem_map_of_mem inMasters) outside
  | true =>
      rw [runs.settled_found found] at inAfter
      rcases List.mem_append.mp inAfter with kept | added
      · obtain ⟨peer, inFilter, rfl⟩ := List.mem_map.mp kept
        obtain ⟨inPeers, staying⟩ := List.mem_filter.mp inFilter
        obtain ⟨member, inBefore, rfl⟩ := List.mem_map.mp inPeers
        cases decEq member.name "" with
        | isTrue unnamed =>
            exact ⟨member, inBefore, unnamed, by simp [Peer.publish, unnamed]⟩
        | isFalse named => simp_all [Peer.publish, stays]
      · obtain ⟨item, accepted, rfl⟩ := List.mem_map.mp added
        have planned := runs.mem_adds.mp (acceptedAdds_subset vars masters _ _ accepted)
        simp only [plannedAdds, found, if_true, etcdNodesToAdd] at planned
        exact absurd (mem_difference.mp planned).1 outside

/-- A left-out node was a joining one: only such nodes are added. -/
theorem leftOut_joins {host : Host} (leftOut : runs.LeftOut host.unifiedHostname)
    : runs.first.joins host = true := by
  have planned := runs.mem_adds.mp leftOut.1
  cases found : runs.first.etcdClusterExists with
  | false => simp [plannedAdds, found] at planned
  | true =>
      simp only [plannedAdds, found, if_true, etcdNodesToAdd] at planned
      simp [Discovery.joins, found, (mem_difference.mp planned).2]

/-- In the second run exactly the left-out nodes join, provided a probe is answered. -/
theorem second_joins_iff {host : Host} (inMasters : host ∈ masters)
    : runs.second.joins host = true
      ↔ runs.second.etcdClusterExists = true ∧ runs.LeftOut host.unifiedHostname := by
  cases found : runs.second.etcdClusterExists with
  | false => simp [Discovery.joins, found]
  | true =>
      have cases := runs.known_or_leftOut inMasters
      simp only [Discovery.joins, found, runs.second_names found, Bool.true_and,
        decide_eq_true_eq, true_and]
      exact ⟨cases.2, fun leftOut => leftOut.2.2⟩

/-- The second run adds left-out nodes and removes leftovers of unnamed members only. -/
theorem second_plan
    : ∀ step ∈ rolePlan vars masters runs.second,
        (∃ item,
          step = .memberAdd item (addedPeerUrl vars masters item) ∧ runs.LeftOut item)
        ∨ ∃ name, step = .memberRemove name ∧ runs.Leftover name := by
  intro step planned
  cases found : runs.second.etcdClusterExists with
  | false => simp [rolePlan, planCommands, plannedAdds, plannedRemoves, found] at planned
  | true =>
      simp only [rolePlan, planCommands, plannedAdds, plannedRemoves, found, if_true,
        runs.second_names found] at planned
      rcases List.mem_append.mp planned with added | removed
      · obtain ⟨item, inAdds, rfl⟩ := List.mem_map.mp added
        obtain ⟨inInventory, unknown⟩ := mem_difference.mp inAdds
        obtain ⟨host, inMasters, rfl⟩ := List.mem_map.mp inInventory
        exact .inl ⟨_, rfl, (runs.known_or_leftOut inMasters).2 unknown⟩
      · obtain ⟨name, inRemoves, rfl⟩ := List.mem_map.mp removed
        obtain ⟨published, outside⟩ := mem_difference.mp inRemoves
        exact .inr ⟨name, rfl, runs.leftover_of_outside published outside⟩

/-- Nothing is notified in the second run exactly when `etcd.conf` stays as it was. -/
theorem secondNotifications_eq_nil_iff (host : Host) (facts : AddressFacts)
    : runs.secondNotifications host facts = []
      ↔ etcdConf vars masters host facts runs.second
        = etcdConf vars masters host facts runs.first := by
  rw [eq_comm (a := etcdConf vars masters host facts runs.second)]
  simp [secondNotifications, notifications, templateTasks, writtenFiles]

/-- The file of an inventory host stays exactly when the host did not join in the first run
or joins once more. Witness: a host joins in the second run as a left-out node only.
-/
theorem second_conf_iff {host : Host} (inMasters : host ∈ masters) (facts : AddressFacts)
    : etcdConf vars masters host facts runs.second
        = etcdConf vars masters host facts runs.first
      ↔ runs.first.joins host = false
        ∨ (runs.second.etcdClusterExists = true
            ∧ runs.LeftOut host.unifiedHostname) := by
  have second := runs.second_joins_iff inMasters
  rw [etcdConf_eq_iff, ← second]
  cases joined : runs.first.joins host with
  | true => simp
  | false =>
      have still : ¬ runs.second.joins host = true := by
        intro again
        have before := runs.leftOut_joins (second.mp again).2
        simp [joined] at before
      simpa using still

end TwoRuns

/-- A voting member that lists no client URL. -/
def listedMember (name url : String) (id : MemberId) : Member :=
  ⟨⟨name, [url]⟩, id, [], false⟩

/-- Node `number` of the growing inventory. -/
def growingNode (number : String) : Host :=
  .withAddress ("node" ++ number) ("10.0.0." ++ number)

/-- The group grows from `node1` to four nodes. An interrupted run has added `node2`, and a
member under another name holds the peer URL of `node3`.
-/
def growingRuns : TwoRuns {} (["1", "2", "3", "4"].map growingNode) where
  before := [
    listedMember "node1" "https://10.0.0.1:2380" ⟨"1a", by decide, by simp⟩,
    listedMember "" "https://10.0.0.2:2380" ⟨"2b", by decide, by simp⟩,
    listedMember "old" "https://10.0.0.3:2380" ⟨"3c", by decide, by simp⟩
  ]
  firstAnswers := fun host => host = growingNode "1"
  visible := by decide
  adds := ["node4", "node3", "node2"]
  addsPlanned := by decide
  removes := ["old"]
  removesPlanned := by decide
  names := fun peer => if peer.peerURLs = ["https://10.0.0.4:2380"] then "node4" else "node2"
  joined := by decide
  after := [
    listedMember "node1" "https://10.0.0.1:2380" ⟨"1a", by decide, by simp⟩,
    listedMember "node2" "https://10.0.0.2:2380" ⟨"2b", by decide, by simp⟩,
    listedMember "node4" "https://10.0.0.4:2380" ⟨"4d", by decide, by simp⟩
  ]
  settled := by decide
  published := by decide
  secondAnswers := fun _ => true

end PgCluster.Etcd
