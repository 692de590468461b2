import PgCluster.Etcd.MembershipPlan

/-! The peer URL of a node in its own configuration, in every rendered member list and in
the command that adds it. Only the first of the three follows the chosen interface.
-/

namespace PgCluster.Etcd

/-- A node that listens on an address is reached at the other one. -/
def CoversAddress (listen address : String) : Prop := listen = "0.0.0.0" ∨ listen = address

/-- The advertised URL of a host is the one listed for its name and the one it is added
with, and the host listens on its address.
-/
def OnePeerUrl (vars : Variables) (masters : List Host) (host : Host) (facts : AddressFacts)
    : Prop :=
  (∀ entry ∈ vars.etcdClusterEntries masters,
    entry.1 = host.unifiedHostname → entry.2 = vars.advertisePeerUrl facts)
  ∧ addedPeerUrl vars masters host.unifiedHostname = some (vars.advertisePeerUrl facts)
  ∧ CoversAddress facts.etcdListenCluster facts.etcdAddressCluster

/-- Every host of the group has one peer URL under the facts that the role collects. -/
def EveryPeerUrl (vars : Variables) (masters : List Host) : Prop :=
  ∀ host ∈ masters, ∀ facts, collectFacts vars host = some facts
    → OnePeerUrl vars masters host facts

/-- The interface that the cluster address comes from carries the default address. -/
def UsesDefaultAddress (vars : Variables) (host : Host) : Prop :=
  vars.etcdIfaceCluster = "all"
  ∨ vars.etcdIfaceCluster = "default"
  ∨ host.facts.ipv4? vars.etcdIfaceCluster = some host.facts.defaultIpv4

variable {vars : Variables} {masters : List Host} {host : Host} {facts : AddressFacts}

/-- A host always listens on the address that it advertises. Witness: the two address rules
differ for `all` alone, which listens everywhere.
-/
theorem collectFacts_covers (useIps : vars.etcdUseIps = true)
    (collected : collectFacts vars host = some facts)
    : CoversAddress facts.etcdListenCluster facts.etcdAddressCluster := by
  obtain ⟨listen, address⟩ := collectFacts_some vars collected
  unfold listenAddress at listen
  split at listen
  · exact Or.inl (Option.some.inj listen).symm
  · rename_i other
    refine Or.inr ?_
    have same : some facts.etcdListenCluster = some facts.etcdAddressCluster := by
      rw [← listen, ← address]
      simp [advertisedAddress, useIps, other]
    exact Option.some.inj same

/-- The advertised address is the default one exactly when the interface carries it. -/
theorem etcdAddressCluster_eq_default_iff (useIps : vars.etcdUseIps = true)
    (collected : collectFacts vars host = some facts)
    : facts.etcdAddressCluster = host.facts.defaultIpv4 ↔ UsesDefaultAddress vars host := by
  have address := (collectFacts_some vars collected).2
  simp only [advertisedAddress, useIps, Bool.not_true, Bool.false_eq_true, if_false]
    at address
  unfold UsesDefaultAddress
  split at address
  · rename_i usual
    have same := Option.some.inj address
    rcases usual with all | default
    · simp [all, same]
    · simp [default, same]
  · rename_i chosen
    obtain ⟨notAll, notDefault⟩ := not_or.mp chosen
    simp [notAll, notDefault, address]

/-- An advertised URL equals a listed one exactly when the addresses agree. -/
theorem listedPeerUrl_eq_advertise_iff (listed : Host)
    : vars.listedPeerUrl listed = vars.advertisePeerUrl facts
      ↔ listed.facts.defaultIpv4 = facts.etcdAddressCluster := by
  simp [Variables.listedPeerUrl, Variables.advertisePeerUrl, String.append_assoc]

/-- The first host of a name present in the group has that name. -/
theorem targetNodeIp_of_member (member : host ∈ masters)
    : ∃ other ∈ masters,
        other.unifiedHostname = host.unifiedHostname
        ∧ targetNodeIp masters host.unifiedHostname = some other.facts.defaultIpv4 := by
  have named : host ∈ masters.filter
      (fun other => other.unifiedHostname = host.unifiedHostname) :=
    List.mem_filter.mpr ⟨member, by simp⟩
  cases candidates : masters.filter
      (fun other => other.unifiedHostname = host.unifiedHostname) with
  | nil => simp [candidates] at named
  | cons other rest =>
      have found : other ∈ masters.filter
          (fun other => other.unifiedHostname = host.unifiedHostname) := by
        simp [candidates]
      obtain ⟨inMasters, same⟩ := List.mem_filter.mp found
      exact ⟨other, inMasters, by simpa using same, by simp [targetNodeIp, candidates]⟩

/-- One host has one peer URL exactly when TLS is on, its interface carries its default
address and every host of its name has that address. Witness: the listed URL of the host
ties the advertised address to the default one, on which the other two places rely.
-/
theorem onePeerUrl_iff (useIps : vars.etcdUseIps = true) (member : host ∈ masters)
    (collected : collectFacts vars host = some facts)
    : OnePeerUrl vars masters host facts
      ↔ vars.etcdSecure = true
        ∧ UsesDefaultAddress vars host
        ∧ ∀ other ∈ masters,
            other.unifiedHostname = host.unifiedHostname
            → other.facts.defaultIpv4 = host.facts.defaultIpv4 := by
  have default := etcdAddressCluster_eq_default_iff useIps collected
  have ownUrl : vars.listedPeerUrl host = vars.advertisePeerUrl facts
      ↔ host.facts.defaultIpv4 = facts.etcdAddressCluster :=
    listedPeerUrl_eq_advertise_iff host
  refine ⟨?_, ?_⟩
  · intro ⟨listed, added, _⟩
    have urls : ∀ other ∈ masters, other.unifiedHostname = host.unifiedHostname
        → vars.listedPeerUrl other = vars.advertisePeerUrl facts := by
      intro other inMasters same
      exact listed (other.unifiedHostname, vars.listedPeerUrl other)
        (List.mem_map.mpr ⟨other, inMasters, rfl⟩) same
    have own := urls host member rfl
    rw [← own] at added
    refine ⟨(addedPeerUrl_eq_listed_iff.mp added).1, default.mp (ownUrl.mp own).symm, ?_⟩
    intro other inMasters same
    have address := (listedPeerUrl_eq_advertise_iff other).mp (urls other inMasters same)
    rw [address, ownUrl.mp own]
  · intro ⟨secure, usual, alike⟩
    have own := ownUrl.mpr (default.mpr usual).symm
    refine ⟨?_, ?_, collectFacts_covers useIps collected⟩
    · intro entry inEntries same
      obtain ⟨other, inMasters, rfl⟩ := List.mem_map.mp inEntries
      rw [← own]
      simp [Variables.listedPeerUrl, alike other inMasters same]
    · obtain ⟨other, inMasters, same, target⟩ := targetNodeIp_of_member member
      rw [← own]
      exact addedPeerUrl_eq_listed_iff.mpr ⟨secure, by rw [target, alike other inMasters same]⟩

/-- All hosts have one peer URL each exactly when that condition holds for all of them,
given that the role accepts their interfaces. Witness: the condition of one host.
-/
theorem everyPeerUrl_iff (vars : Variables) (masters : List Host)
    (useIps : vars.etcdUseIps = true)
    (accepted : ∀ host ∈ masters, (collectFacts vars host).isSome = true)
    : EveryPeerUrl vars masters
      ↔ ∀ host ∈ masters,
          vars.etcdSecure = true
          ∧ UsesDefaultAddress vars host
          ∧ ∀ other ∈ masters,
              other.unifiedHostname = host.unifiedHostname
              → other.facts.defaultIpv4 = host.facts.defaultIpv4 := by
  refine ⟨?_, ?_⟩
  · intro every host member
    obtain ⟨facts, collected⟩ := Option.isSome_iff_exists.mp (accepted host member)
    exact (onePeerUrl_iff useIps member collected).mp (every host member facts collected)
  · intro condition host member facts collected
    exact (onePeerUrl_iff useIps member collected).mpr (condition host member)

/-- Two nodes on the default interface have one peer URL each. -/
theorem everyPeerUrl_defaultInterface
    : EveryPeerUrl {} [.withAddress "node1" "10.0.0.1", .withAddress "node2" "10.0.0.2"] := by
  refine (everyPeerUrl_iff {} _ rfl (by decide)).mpr ?_
  unfold UsesDefaultAddress
  decide

/-- A node with its cluster traffic on `eth1`, beside the default address. -/
def dualHomed : Host :=
  ⟨"node1", ⟨"node1", "10.0.0.1", [("eth0", "10.0.0.1"), ("eth1", "192.168.7.1")]⟩, none⟩

/-- Choosing `eth1` advertises its address while the other two places use the default. -/
theorem everyPeerUrl_fails_eth1
    : ¬ (∀ (vars : Variables) (masters : List Host),
          vars.etcdUseIps = true
          → (∀ host ∈ masters, (collectFacts vars host).isSome = true)
          → EveryPeerUrl vars masters) := by
  intro always
  have every := always { etcdNetworkIface := some "eth1" } [dualHomed] rfl (by decide)
  have listed := (every dualHomed (by simp) ⟨"192.168.7.1", "192.168.7.1", "192.168.7.1",
    "192.168.7.1"⟩ (by decide)).1
  exact absurd (listed ("node1", "https://10.0.0.1:2380") (by decide) (by decide)) (by decide)

end PgCluster.Etcd
