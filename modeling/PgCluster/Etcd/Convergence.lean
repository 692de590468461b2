import PgCluster.Etcd.MembershipPlan

/-! Convergence of the replicated peer URLs to `ETCD_INITIAL_CLUSTER`.
The plan goes by names, so it neither touches unnamed leftovers nor moves a renumbered
member; both keep their URLs through a run whose commands all succeed.
-/

namespace PgCluster.Etcd

open Foundation

/-- The peer URLs that some member of the cluster carries. -/
def peerUrls (peers : List Peer) : Set String :=
  { url | ∃ peer ∈ peers, url ∈ peer.peerURLs }

/-- The peer URLs in the rendered `ETCD_INITIAL_CLUSTER`, equal on every host. -/
def initialClusterUrls (vars : Variables) (masters : List Host) : Set String :=
  { url | ∃ entry ∈ vars.etcdClusterEntries masters, entry.2 = url }

/-- The membership after a plan whose every command succeeded. -/
def managedPeers (vars : Variables) (masters : List Host) (peers : List Peer) : List Peer :=
  runPlan peers (membershipPlan vars masters (etcdMemberNames peers))

/-- A node of the inventory whose URL is in the membership after the plan: a staying
member carries it, or it is the URL with which some missing node is added.
-/
def Covered (vars : Variables) (masters : List Host) (peers : List Peer) (host : Host)
    : Prop :=
  (∃ peer ∈ peers, stays masters peer = true ∧ vars.listedPeerUrl host ∈ peer.peerURLs)
  ∨ ∃ item ∈ etcdNodesToAdd masters (etcdMemberNames peers),
      targetNodeIp masters item = some host.facts.defaultIpv4

/-- A listed URL belongs to an inventory host, by the loop of `etcd_cluster`. -/
theorem mem_initialClusterUrls {vars : Variables} {masters : List Host} {url : String}
    : url ∈ initialClusterUrls vars masters
      ↔ ∃ host ∈ masters, vars.listedPeerUrl host = url := by
  simp [initialClusterUrls, Variables.etcdClusterEntries]

/-- A target address is the default address of an inventory host, by filtering. -/
theorem targetNodeIp_host {masters : List Host} {item ip : String}
    (target : targetNodeIp masters item = some ip)
    : ∃ host ∈ masters, host.facts.defaultIpv4 = ip := by
  obtain ⟨host, member, address⟩ := List.mem_map.mp (List.mem_of_head? target)
  exact ⟨host, (List.mem_filter.mp member).1, address⟩

/-- The URLs after the plan are those of staying members and of the additions. -/
theorem mem_peerUrls_managed {vars : Variables} {masters : List Host} {peers : List Peer}
    {url : String}
    : url ∈ peerUrls (managedPeers vars masters peers)
      ↔ (∃ peer ∈ peers, stays masters peer = true ∧ url ∈ peer.peerURLs)
        ∨ ∃ item ∈ etcdNodesToAdd masters (etcdMemberNames peers),
            addedPeerUrl vars masters item = some url := by
  unfold managedPeers peerUrls
  rw [runPlan_membershipPlan]
  simp only [Set.mem_ofPred_eq, List.mem_append, List.mem_filter, List.mem_map, or_and_right,
    exists_or, and_assoc, exists_exists_and_eq_and, Option.mem_toList]

/-- Every addition carries a listed URL when TLS is on. Witness: its target host. -/
theorem added_mem_initialClusterUrls {vars : Variables} (secure : vars.etcdSecure = true)
    {masters : List Host} {item url : String}
    (added : addedPeerUrl vars masters item = some url)
    : url ∈ initialClusterUrls vars masters := by
  obtain ⟨ip, target, rfl⟩ := Option.map_eq_some_iff.mp added
  obtain ⟨host, member, address⟩ := targetNodeIp_host target
  refine mem_initialClusterUrls.mpr ⟨host, member, ?_⟩
  simp [Variables.listedPeerUrl, Variables.etcdScheme, secure, address]

/-- After a successful plan the peer URLs are the listed ones exactly when the members
that the plan leaves carry listed URLs only and every inventory node is covered.
Witness: the additions are always listed, so both inclusions concern what stays.
-/
theorem managedPeers_converge_iff (vars : Variables) (secure : vars.etcdSecure = true)
    (masters : List Host) (peers : List Peer)
    : peerUrls (managedPeers vars masters peers) = initialClusterUrls vars masters
      ↔ (∀ peer ∈ peers,
            stays masters peer = true
            → ∀ url ∈ peer.peerURLs, url ∈ initialClusterUrls vars masters)
        ∧ ∀ host ∈ masters, Covered vars masters peers host := by
  constructor
  · intro equal
    refine ⟨?_, ?_⟩
    · intro peer member staying url carried
      rw [← equal]
      exact mem_peerUrls_managed.mpr (Or.inl ⟨peer, member, staying, carried⟩)
    · intro host member
      have listed : vars.listedPeerUrl host ∈ initialClusterUrls vars masters :=
        mem_initialClusterUrls.mpr ⟨host, member, rfl⟩
      rw [← equal] at listed
      rcases mem_peerUrls_managed.mp listed with left | ⟨item, inAdds, added⟩
      · exact Or.inl left
      · exact Or.inr ⟨item, inAdds, (addedPeerUrl_eq_listed_iff.mp added).2⟩
  · intro ⟨within, covered⟩
    ext url
    refine ⟨?_, ?_⟩
    · intro carried
      rcases mem_peerUrls_managed.mp carried with
        ⟨peer, member, staying, inUrls⟩ | ⟨item, _, added⟩
      · exact within peer member staying url inUrls
      · exact added_mem_initialClusterUrls secure added
    · intro listed
      obtain ⟨host, member, rfl⟩ := mem_initialClusterUrls.mp listed
      rcases covered host member with left | ⟨item, inAdds, target⟩
      · exact mem_peerUrls_managed.mpr (Or.inl left)
      · exact mem_peerUrls_managed.mpr
          (Or.inr ⟨item, inAdds, addedPeerUrl_eq_listed_iff.mpr ⟨secure, target⟩⟩)

/-- A two-node inventory grows a one-node cluster to exactly the listed URLs. -/
theorem managedPeers_converge_growth
    : peerUrls (managedPeers {}
          [.withAddress "node1" "10.0.0.1", .withAddress "node2" "10.0.0.2"]
          [⟨"node1", ["https://10.0.0.1:2380"]⟩])
        = initialClusterUrls {}
            [.withAddress "node1" "10.0.0.1", .withAddress "node2" "10.0.0.2"] := by
  refine (managedPeers_converge_iff {} rfl _ _).mpr ⟨?_, ?_⟩
  · simp only [mem_initialClusterUrls]
    decide
  · unfold Covered
    decide

/-- An unnamed leftover of an interrupted addition keeps its unlisted URL. -/
theorem managedPeers_keep_leftover
    : ¬ (∀ (vars : Variables) (masters : List Host) (peers : List Peer),
          (∃ peer ∈ peers, peer.name ∈ masters.map Host.unifiedHostname)
          → peerUrls (managedPeers vars masters peers)
            = initialClusterUrls vars masters) := by
  intro always
  have equal := always {} [.withAddress "node1" "10.0.0.1"]
    [⟨"node1", ["https://10.0.0.1:2380"]⟩, ⟨"", ["https://10.0.0.9:2380"]⟩] (by decide)
  have same := Set.ext_iff.mp equal "https://10.0.0.9:2380"
  rw [mem_peerUrls_managed, mem_initialClusterUrls] at same
  exact absurd same (by decide)

end PgCluster.Etcd
