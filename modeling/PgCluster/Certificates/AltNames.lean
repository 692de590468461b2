import PgCluster.Etcd.ClusterDiscovery
import PgCluster.Foundation.IpAddress

/-! The subject alternative names that the certificates role requests, against the addresses
that the roles dial for the etcd nodes.
-/

namespace PgCluster.Certificates

open Foundation Etcd

/-- A host of the inventory with its connection variable. The default address of the facts is
an IPv4 address; the FQDN fact is absent where no facts were gathered.
-/
structure CertificateHost where
  host : Host
  ansibleHost : String
  gatheredFqdn : Option String := some host.facts.fqdn
  ipv4 : isIpv4 host.facts.defaultIpv4.toList = true

/-- The hosts of the inventory, with those of the etcd group among them. -/
structure CertificateInventory where
  all : List CertificateHost
  invEtcd : List CertificateHost
  subset : invEtcd ⊆ all

-----------------------------------------------------------------------------------------
-- The request
-----------------------------------------------------------------------------------------

/-- An entry of a certificate request, by the prefix of its text. -/
inductive AltName where
  | dns (name : String)
  | ip (address : String)
deriving DecidableEq, Repr

/-- `subject_alt_name` of 'Generate CSR for missing nodes'. -/
def subjectAltName (item : CertificateHost) : List AltName :=
  [
    .dns item.host.inventoryHostname,
    .dns (item.gatheredFqdn.getD item.host.inventoryHostname),
    .ip item.ansibleHost,
    .ip "127.0.0.1",
    .dns "localhost"
  ]

/-- A client accepts the dialled host: an address by an address entry, a name by a name. -/
def Certifies (names : List AltName) (dialled : String) : Prop :=
  if isIpAddress dialled.toList then .ip dialled ∈ names else .dns dialled ∈ names

/-- The request can be made: its address entries are addresses. -/
def WellFormedRequest (names : List AltName) : Prop :=
  ∀ address, .ip address ∈ names → isIpAddress address.toList = true

-----------------------------------------------------------------------------------------
-- The URLs
-----------------------------------------------------------------------------------------

/-- `--endpoints` of 'Add new etcd members to cluster', for the leader. -/
def memberAddEndpoint (vars : Variables) (leader : Host) : String :=
  "https://" ++ leader.facts.defaultIpv4 ++ ":" ++ vars.etcdPortClient

/-- The entry of a host in `patroni_etcd3_hosts`. -/
def patroniEtcd3Host (vars : Variables) (host : Host) : String :=
  host.facts.defaultIpv4 ++ ":" ++ vars.etcdPortClient

/-- The text behind the two slashes of a URL. -/
def behindSlashes : List Char → List Char
  | '/' :: '/' :: rest => rest
  | _ :: rest => behindSlashes rest
  | [] => []

/-- The host part of a URL whose host is no IPv6 address. -/
def urlHost (url : String) : String := String.ofList (before ':' (behindSlashes url.toList))

/-- The host part of an entry `host:port`. -/
def entryHost (entry : String) : String := String.ofList (before ':' entry.toList)

/-- The host parts that the roles put into URLs for a node: in ETCD_INITIAL_CLUSTER, in the
endpoints of `member list` and `member add`, and in `patroni_etcd3_hosts`.
-/
def dialledHosts (vars : Variables) (host : Host) : List String :=
  [
    urlHost (vars.listedPeerUrl host),
    urlHost (probeEndpoint vars host),
    urlHost (memberAddEndpoint vars host),
    entryHost (patroniEtcd3Host vars host)
  ]

/-- The text in front of the port is the address. -/
theorem before_port {address : String} (ipv4 : isIpv4 address.toList = true) (port : String)
    : before ':' (address.toList ++ ':' :: port.toList) = address.toList :=
  before_append (notMem_colon_of_isIpv4 ipv4)

/-- The host part of a URL is the address in it. -/
theorem urlHost_scheme (vars : Variables) {host : Host}
    (ipv4 : isIpv4 host.facts.defaultIpv4.toList = true) (port : String)
    : urlHost (vars.etcdScheme ++ host.facts.defaultIpv4 ++ ":" ++ port)
        = host.facts.defaultIpv4
      ∧ urlHost ("https://" ++ host.facts.defaultIpv4 ++ ":" ++ port)
        = host.facts.defaultIpv4 := by
  have whole := before_port ipv4 port
  constructor
  · cases secure : vars.etcdSecure
      <;> simp [urlHost, Variables.etcdScheme, secure, behindSlashes, whole]
  · simp [urlHost, behindSlashes, whole]

/-- All places dial the default address. -/
theorem dialledHosts_eq (vars : Variables) (item : CertificateHost)
    : dialledHosts vars item.host = List.replicate 4 item.host.facts.defaultIpv4 := by
  have listed := urlHost_scheme vars item.ipv4 vars.etcdPortPeer
  have endpoint := urlHost_scheme vars item.ipv4 vars.etcdPortClient
  have entry : entryHost (patroniEtcd3Host vars item.host) = item.host.facts.defaultIpv4 := by
    simp [entryHost, patroniEtcd3Host, before_port item.ipv4]
  simp only [dialledHosts, Variables.listedPeerUrl, probeEndpoint, memberAddEndpoint, listed.1,
    endpoint.2, entry]
  rfl

-----------------------------------------------------------------------------------------
-- The certificates
-----------------------------------------------------------------------------------------

/-- The certificate of every etcd node names each host part dialled for it, and every request
of the inventory can be made.
-/
structure AllCertified (vars : Variables) (inventory : CertificateInventory) : Prop where
  certified
    : ∀ item ∈ inventory.invEtcd, ∀ dialled ∈ dialledHosts vars item.host,
        Certifies (subjectAltName item) dialled
  requests : ∀ item ∈ inventory.all, WellFormedRequest (subjectAltName item)

/-- A certificate names the default address if and only if that is the connection address or
the local one.
-/
theorem certifies_default_iff (item : CertificateHost)
    : Certifies (subjectAltName item) item.host.facts.defaultIpv4
      ↔ item.host.facts.defaultIpv4 = item.ansibleHost
        ∨ item.host.facts.defaultIpv4 = "127.0.0.1" := by
  simp [Certifies, isIpAddress, item.ipv4, subjectAltName]

/-- A request can be made if and only if the connection variable is an address. -/
theorem wellFormedRequest_iff (item : CertificateHost)
    : WellFormedRequest (subjectAltName item)
      ↔ isIpAddress item.ansibleHost.toList = true := by
  have here : isIpAddress "127.0.0.1".toList = true := by decide
  constructor
  · intro wellFormed
    exact wellFormed item.ansibleHost (by simp [subjectAltName])
  · intro address found member
    simp only [subjectAltName, List.mem_cons, AltName.ip.injEq, reduceCtorEq, false_or, or_false,
      List.not_mem_nil] at member
    rcases member with same | same
    · exact same ▸ address
    · exact same ▸ here

/-- Every dialled address is certified, and every request can be made, if and only if the
connection variables are addresses and those of the etcd nodes are their default addresses.
-/
theorem allCertified_iff (vars : Variables) (inventory : CertificateInventory)
    : AllCertified vars inventory
      ↔ (∀ item ∈ inventory.invEtcd,
            item.host.facts.defaultIpv4 = item.ansibleHost
            ∨ item.host.facts.defaultIpv4 = "127.0.0.1")
        ∧ ∀ item ∈ inventory.all, isIpAddress item.ansibleHost.toList = true := by
  constructor
  · intro all
    refine ⟨fun item member => ?_, fun item member => ?_⟩
    · have dialled := all.certified item member
      rw [dialledHosts_eq] at dialled
      exact (certifies_default_iff item).mp (dialled _ (by simp))
    · exact (wellFormedRequest_iff item).mp (all.requests item member)
  · intro condition
    refine ⟨fun item member dialled place => ?_, fun item member => ?_⟩
    · rw [dialledHosts_eq] at place
      rw [List.eq_of_mem_replicate place]
      exact (certifies_default_iff item).mpr (condition.1 item member)
    · exact (wellFormedRequest_iff item).mpr (condition.2 item member)

/-- An etcd node that is managed over another interface than its default one. -/
def twoInterfaces : CertificateHost where
  host := Host.withAddress "node1" "10.0.0.1"
  ansibleHost := "192.168.0.1"
  ipv4 := by decide

/-- Its certificate does not name the address that etcd dials. -/
theorem allCertified_twoInterfaces
    : ¬ AllCertified { etcdSecure := true }
        ⟨[twoInterfaces], [twoInterfaces], List.Subset.refl _⟩ := by
  intro all
  have dialled := all.certified twoInterfaces (List.mem_singleton_self _)
  rw [dialledHosts_eq] at dialled
  have certified := (certifies_default_iff twoInterfaces).mp (dialled _ (by simp))
  revert certified
  decide

end PgCluster.Certificates
