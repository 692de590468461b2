import PgCluster.Etcd.Members
import PgCluster.Foundation.Filters
import PgCluster.Foundation.Majority

/-! The plan of `cluster_manage.yml`: every missing node is added, then every surplus
member is removed. A plan acts on the replicated membership; added peers stay unstarted
because the role configures and starts their nodes only after the whole plan.
-/

namespace PgCluster.Etcd

open Foundation

def etcdNodesToAdd (masters : List Host) (memberNames : List String) : List String :=
  difference (masters.map Host.unifiedHostname) memberNames

def etcdNodesToRemove (masters : List Host) (memberNames : List String) : List String :=
  difference memberNames (masters.map Host.unifiedHostname)

/-- `target_node_ip`: the default address of the first host with the unified name. -/
def targetNodeIp (masters : List Host) (item : String) : Option String :=
  ((masters.filter (fun host => host.unifiedHostname = item)).map
    (fun host => host.facts.defaultIpv4)).head?

/-- The `--peer-urls` argument of a node's `member add`, with its literal scheme. -/
def addedPeerUrl (vars : Variables) (masters : List Host) (item : String) : Option String :=
  (targetNodeIp masters item).map (fun ip => "https://" ++ ip ++ ":" ++ vars.etcdPortPeer)

/-- A URL without TLS never begins like one with it. -/
theorem schemes_ne (left right : String) : "https://" ++ left ≠ "http://" ++ right := by
  intro same
  have letters := congrArg (fun text => text.toList[4]?) same
  simp at letters

/-- A node is added with a listed URL exactly when TLS is on and the first host of its name
has the listed address. Witness: the literal scheme is the one of TLS.
-/
theorem addedPeerUrl_eq_listed_iff {vars : Variables} {masters : List Host} {item : String}
    {host : Host}
    : addedPeerUrl vars masters item = some (vars.listedPeerUrl host)
      ↔ vars.etcdSecure = true
        ∧ targetNodeIp masters item = some host.facts.defaultIpv4 := by
  cases target : targetNodeIp masters item with
  | none => simp [addedPeerUrl, target]
  | some ip =>
      cases secure : vars.etcdSecure with
      | true =>
          simp [addedPeerUrl, target, Variables.listedPeerUrl, Variables.etcdScheme, secure]
      | false =>
          have plain := schemes_ne ip host.facts.defaultIpv4
          simpa [addedPeerUrl, target, Variables.listedPeerUrl, Variables.etcdScheme, secure]
            using plain

inductive PlanStep where
  | memberAdd (name : String) (peerUrl : Option String)
  | memberRemove (name : String)
deriving DecidableEq, Repr

/-- The commands of both loops in order, one for each item. -/
def membershipPlan (vars : Variables) (masters : List Host) (memberNames : List String)
    : List PlanStep :=
  (etcdNodesToAdd masters memberNames).map
      (fun item => .memberAdd item (addedPeerUrl vars masters item))
    ++ (etcdNodesToRemove masters memberNames).map .memberRemove

/-- A successful command: an added peer votes at once without a name, and a removal takes
away the peers of the given name.
-/
def PlanStep.apply (peers : List Peer) : PlanStep → List Peer
  | .memberAdd _ peerUrl => peers ++ [⟨"", peerUrl.toList⟩]
  | .memberRemove name => peers.filter (fun peer => peer.name ≠ name)

def runPlan (peers : List Peer) (steps : List PlanStep) : List Peer :=
  steps.foldl PlanStep.apply peers

/-- A member that the complete plan leaves in place. -/
def stays (masters : List Host) (peer : Peer) : Bool :=
  peer.name = "" ∨ peer.name ∈ masters.map Host.unifiedHostname

theorem runPlan_append (peers : List Peer) (first second : List PlanStep)
    : runPlan peers (first ++ second) = runPlan (runPlan peers first) second :=
  List.foldl_append

/-- Adds extend the membership in order, by induction on the added names. -/
theorem runPlan_adds (peers : List Peer) (url : String → Option String)
    (adds : List String)
    : runPlan peers (adds.map (fun item => .memberAdd item (url item)))
      = peers ++ adds.map (fun item => ⟨"", (url item).toList⟩) := by
  induction adds generalizing peers with
  | nil => simp [runPlan]
  | cons head rest ih =>
      have next := ih (peers ++ [⟨"", (url head).toList⟩])
      simpa only [runPlan, List.map_cons, List.foldl_cons, PlanStep.apply, List.append_assoc,
        List.singleton_append] using next

/-- Removals keep the peers of all other names, by induction on the removed names. -/
theorem runPlan_removes (peers : List Peer) (removes : List String)
    : runPlan peers (removes.map .memberRemove)
      = peers.filter (fun peer => peer.name ∉ removes) := by
  induction removes generalizing peers with
  | nil => simp [runPlan]
  | cons head rest ih =>
      have next := ih (peers.filter (fun peer => peer.name ≠ head))
      simp only [runPlan, List.map_cons, List.foldl_cons, PlanStep.apply] at next ⊢
      rw [next, List.filter_filter]
      apply List.filter_congr
      intro peer _
      simp [Bool.and_comm]

/-- Any initial part of a plan keeps the unremoved peers and appends the added ones.
Witness: both loops in turn; unnamed additions are out of reach of the removals.
-/
theorem runPlan_parts (peers : List Peer) (url : String → Option String)
    {adds removes : List String} (named : "" ∉ removes)
    : runPlan peers
        (adds.map (fun item => .memberAdd item (url item)) ++ removes.map .memberRemove)
      = peers.filter (fun peer => peer.name ∉ removes)
        ++ adds.map (fun item => ⟨"", (url item).toList⟩) := by
  rw [runPlan_append, runPlan_adds, runPlan_removes, List.filter_append]
  congr 1
  apply List.filter_eq_self.mpr
  intro peer member
  obtain ⟨item, _, rfl⟩ := List.mem_map.mp member
  simpa using named

theorem empty_notMem_names (peers : List Peer) : "" ∉ etcdMemberNames peers := by
  simp [etcdMemberNames]

theorem empty_notMem_removals (masters : List Host) (peers : List Peer)
    : "" ∉ etcdNodesToRemove masters (etcdMemberNames peers) := by
  intro member
  exact empty_notMem_names peers (mem_difference.mp member).1

/-- The removals spare exactly the staying members of the discovered cluster. -/
theorem notMem_removals_iff_stays {masters : List Host} {peers : List Peer} {peer : Peer}
    (member : peer ∈ peers)
    : peer.name ∉ etcdNodesToRemove masters (etcdMemberNames peers)
      ↔ stays masters peer = true := by
  have listed : peer.name ≠ "" → peer.name ∈ etcdMemberNames peers := by
    intro named
    exact List.mem_filter.mpr ⟨List.mem_map_of_mem member, by simpa using named⟩
  have unlisted := empty_notMem_names peers
  unfold etcdNodesToRemove
  rw [mem_difference]
  by_cases named : peer.name = ""
  · simp [stays, named, unlisted]
  · simp [stays, named, listed named]

/-- The whole plan keeps the staying members and appends one peer for each added node. -/
theorem runPlan_membershipPlan (vars : Variables) (masters : List Host) (peers : List Peer)
    : runPlan peers (membershipPlan vars masters (etcdMemberNames peers))
      = peers.filter (stays masters)
        ++ (etcdNodesToAdd masters (etcdMemberNames peers)).map
            (fun item => ⟨"", (addedPeerUrl vars masters item).toList⟩) := by
  unfold membershipPlan
  rw [runPlan_parts peers _ (empty_notMem_removals masters peers)]
  congr 1
  apply List.filter_congr
  intro peer member
  rw [Bool.eq_iff_iff, decide_eq_true_iff]
  exact notMem_removals_iff_stays member

def startedCount (peers : List Peer) : Nat := peers.countP Peer.started

def unstartedCount (peers : List Peer) : Nat := peers.countP (fun peer => !peer.started)

/-- The started members that the complete plan keeps. -/
def stayingCount (masters : List Host) (peers : List Peer) : Nat :=
  peers.countP (fun peer => peer.started && stays masters peer)

/-- The started members are a majority, so the cluster can commit a change. -/
def HasQuorum (peers : List Peer) : Prop := Majority (startedCount peers) peers.length

instance (peers : List Peer) : Decidable (HasQuorum peers) :=
  inferInstanceAs (Decidable (Majority _ _))

theorem length_eq_counts (peers : List Peer)
    : peers.length = startedCount peers + unstartedCount peers := by
  simpa [startedCount, unstartedCount] using List.length_eq_countP_add_countP Peer.started

theorem startedCount_append (left right : List Peer)
    : startedCount (left ++ right) = startedCount left + startedCount right :=
  List.countP_append

/-- Unnamed peers are out of reach of removals, so their number never changes. -/
theorem unstartedCount_kept (peers : List Peer) {removes : List String}
    (named : "" ∉ removes)
    : unstartedCount (peers.filter (fun peer => peer.name ∉ removes))
      = unstartedCount peers := by
  unfold unstartedCount
  rw [List.countP_filter]
  apply List.countP_congr
  intro peer _
  by_cases empty : peer.name = ""
  · simp [Peer.started, empty, named]
  · simp [Peer.started, empty]

/-- After some additions and removals quorum is a comparison of three counts. -/
theorem hasQuorum_parts_iff (peers : List Peer) (url : String → Option String)
    {adds removes : List String} (named : "" ∉ removes)
    : HasQuorum (runPlan peers
        (adds.map (fun item => .memberAdd item (url item)) ++ removes.map .memberRemove))
      ↔ adds.length + unstartedCount peers
        < startedCount (peers.filter (fun peer => peer.name ∉ removes)) := by
  have kept := unstartedCount_kept peers named
  have total := length_eq_counts (peers.filter (fun peer => peer.name ∉ removes))
  have unnamed : startedCount (adds.map (fun item => ⟨"", (url item).toList⟩)) = 0 := by
    simp [startedCount, List.countP_map, Function.comp_def, Peer.started]
  have count := startedCount_append (peers.filter (fun peer => peer.name ∉ removes))
    (adds.map (fun item => ⟨"", (url item).toList⟩))
  rw [runPlan_parts peers url named]
  unfold HasQuorum Majority
  rw [count, unnamed, List.length_append, List.length_map]
  omega

/-- Fewer removals keep at least the members that stay to the end. -/
theorem stayingCount_le (masters : List Host) (peers : List Peer) (count : Nat)
    : stayingCount masters peers
      ≤ startedCount (peers.filter (fun peer =>
          peer.name ∉ (etcdNodesToRemove masters (etcdMemberNames peers)).take count)) := by
  unfold stayingCount startedCount
  rw [List.countP_filter]
  apply List.countP_mono_left
  intro peer member staying
  simp only [Bool.and_eq_true, decide_eq_true_eq] at staying ⊢
  refine ⟨staying.1, fun removed => ?_⟩
  exact (notMem_removals_iff_stays member).mpr staying.2 (List.mem_of_mem_take removed)

theorem startedCount_all_removes (masters : List Host) (peers : List Peer)
    : startedCount (peers.filter (fun peer =>
        peer.name ∉ etcdNodesToRemove masters (etcdMemberNames peers)))
      = stayingCount masters peers := by
  unfold stayingCount startedCount
  rw [List.countP_filter]
  apply List.countP_congr
  intro peer member
  simp only [Bool.and_eq_true, decide_eq_true_eq, notMem_removals_iff_stays member]

/-- An initial part of the plan is an initial part of each loop. -/
theorem take_membershipPlan (vars : Variables) (masters : List Host)
    (memberNames : List String) (count : Nat)
    : (membershipPlan vars masters memberNames).take count
      = ((etcdNodesToAdd masters memberNames).take count).map
          (fun item => .memberAdd item (addedPeerUrl vars masters item))
        ++ ((etcdNodesToRemove masters memberNames).take
            (count - (etcdNodesToAdd masters memberNames).length)).map .memberRemove := by
  simp [membershipPlan, List.take_append, List.map_take]

/-- Quorum survives every step of the plan exactly when the added and the unstarted
members are fewer than the started members that stay. Witness: the last state has the
smallest margin, since additions only lower it and removals take started members.
-/
theorem membershipPlan_keepsQuorum_iff (vars : Variables) (masters : List Host)
    (peers : List Peer)
    : (∀ count,
        HasQuorum
          (runPlan peers
            ((membershipPlan vars masters (etcdMemberNames peers)).take count)))
      ↔ (etcdNodesToAdd masters (etcdMemberNames peers)).length + unstartedCount peers
        < stayingCount masters peers := by
  have named := empty_notMem_removals masters peers
  constructor
  · intro always
    have last := always (membershipPlan vars masters (etcdMemberNames peers)).length
    rw [List.take_length, membershipPlan, hasQuorum_parts_iff peers _ named,
      startedCount_all_removes] at last
    exact last
  · intro enough count
    have fewer : "" ∉ (etcdNodesToRemove masters (etcdMemberNames peers)).take
        (count - (etcdNodesToAdd masters (etcdMemberNames peers)).length) :=
      fun member => named (List.mem_of_mem_take member)
    have remaining := stayingCount_le masters peers
      (count - (etcdNodesToAdd masters (etcdMemberNames peers)).length)
    rw [take_membershipPlan, hasQuorum_parts_iff peers _ fewer]
    have shorter := List.length_take_le' count
      (etcdNodesToAdd masters (etcdMemberNames peers))
    omega

/-- Extending a healthy one-node cluster by one node loses quorum with the first step. -/
theorem membershipPlan_losesQuorum
    : ¬ (∀ (vars : Variables) (masters : List Host) (peers : List Peer),
          (∀ peer ∈ peers, peer.started = true)
          → (∃ peer ∈ peers, peer.name ∈ masters.map Host.unifiedHostname)
          → ∀ count,
              HasQuorum
                (runPlan peers
                  ((membershipPlan vars masters (etcdMemberNames peers)).take count))) := by
  intro always
  have first := always {}
    [.withAddress "node1" "10.0.0.1", .withAddress "node2" "10.0.0.2"]
    [⟨"node1", ["https://10.0.0.1:2380"]⟩] (by decide) (by decide) 1
  exact absurd first (by decide)

end PgCluster.Etcd
