import PgCluster.Inventory

/-! The etcd group variables and the address facts that the etcd role derives from them.
Ports and suffixes are kept as the text that the templates print.
-/

namespace PgCluster.Etcd

/-- The settable variables of `group_vars/etcd.yml` that reach a file or a command, with the
reading of facts by the ansible-core that runs the play.
-/
structure Variables where
  etcdAutoCompactionMode : String := "periodic"
  etcdAutoCompactionRetention : String := "1h"
  etcdQuotaBackendBytes : String := "2147483648"
  etcdUser : String := "etcd"
  etcdDataDir : String := "/opt/tantor/var/lib/etcd"
  etcdSecure : Bool := true
  etcdConfDir : String := "/opt/tantor/var/lib/etcd/pg-cluster.pki"
  etcdPkiKeySuffix : String := "-key.pem"
  etcdPkiCertSuffix : String := ".pem"
  etcdUseIps : Bool := true
  etcdNetworkIface : Option String := none
  etcdIfacePublic : String := etcdNetworkIface.getD "all"
  etcdIfaceCluster : String := etcdNetworkIface.getD "default"
  etcdPortClient : String := "2379"
  etcdPortPeer : String := "2380"
  etcdClusterName : String := "pg-cluster"
  etcdInitialClusterToken : String := "d8bf8cc6-5158-11e6-8f13-3b32f4935bde"
  etcdLaunch : Bool := true
  -- before ansible-core 2.19 `set_fact` stores the texts `true` and `false` as Booleans
  setFactReadsBooleans : Bool := true
deriving DecidableEq, Repr

variable (vars : Variables)

def Variables.etcdScheme : String := if vars.etcdSecure then "https://" else "http://"

def Variables.etcdClusterDataDir : String :=
  vars.etcdDataDir ++ "/" ++ vars.etcdClusterName ++ ".etcd"

def Variables.etcdClusterPkiDir : String :=
  vars.etcdDataDir ++ "/" ++ vars.etcdClusterName ++ ".pki"

/-- A file below a directory, as the role spells it: `dir/file`. -/
structure PkiPath where
  dir : String
  file : String
deriving DecidableEq, Repr

def PkiPath.render (path : PkiPath) : String := path.dir ++ "/" ++ path.file

def Variables.etcdPkiKeyDest (host : Host) : PkiPath :=
  ⟨vars.etcdClusterPkiDir, host.inventoryHostname ++ vars.etcdPkiKeySuffix⟩

def Variables.etcdPkiCertDest (host : Host) : PkiPath :=
  ⟨vars.etcdClusterPkiDir, host.inventoryHostname ++ vars.etcdPkiCertSuffix⟩

def Variables.etcdPkiCaCertDest : PkiPath :=
  ⟨vars.etcdClusterPkiDir, "ca" ++ vars.etcdPkiCertSuffix⟩

/-- The peer URL of a host as `etcd_cluster` lists it. -/
def Variables.listedPeerUrl (host : Host) : String :=
  vars.etcdScheme ++ host.facts.defaultIpv4 ++ ":" ++ vars.etcdPortPeer

/-- `etcd_cluster`: the `name=url` entries of the group in inventory order. -/
def Variables.etcdClusterEntries (hosts : List Host) : List (String × String) :=
  hosts.map (fun host => (host.unifiedHostname, vars.listedPeerUrl host))

def Variables.etcdCluster (hosts : List Host) : String :=
  ",".intercalate ((vars.etcdClusterEntries hosts).map (fun entry => entry.1 ++ "=" ++ entry.2))

/-- `0.0.0.0` for `all`, the default address for `default`, else the interface address;
absent when the facts have no such interface, where templating stops the role.
-/
def listenAddress (facts : Facts) (iface : String) : Option String :=
  if iface = "all" then some "0.0.0.0"
  else if iface = "default" then some facts.defaultIpv4
  else facts.ipv4? iface

/-- The advertised address: the unified name without `etcd_use_ips`, else an address. -/
def advertisedAddress (host : Host) (iface : String) : Option String :=
  if !vars.etcdUseIps then some host.unifiedHostname
  else if iface = "all" ∨ iface = "default" then some host.facts.defaultIpv4
  else host.facts.ipv4? iface

/-- The four cached facts of 'Collect facts for etcd'. -/
structure AddressFacts where
  etcdListenPublic : String
  etcdListenCluster : String
  etcdAddressPublic : String
  etcdAddressCluster : String
deriving DecidableEq, Repr

/-- The facts of a host, absent when the role cannot compute one of them. -/
def collectFacts (host : Host) : Option AddressFacts := do
  let etcdListenPublic ← listenAddress host.facts vars.etcdIfacePublic
  let etcdListenCluster ← listenAddress host.facts vars.etcdIfaceCluster
  let etcdAddressPublic ← advertisedAddress vars host vars.etcdIfacePublic
  let etcdAddressCluster ← advertisedAddress vars host vars.etcdIfaceCluster
  return { etcdListenPublic, etcdListenCluster, etcdAddressPublic, etcdAddressCluster }

/-- The URL in `ETCD_LISTEN_PEER_URLS`. -/
def Variables.listenPeerUrl (facts : AddressFacts) : String :=
  vars.etcdScheme ++ facts.etcdListenCluster ++ ":" ++ vars.etcdPortPeer

/-- The URL in `ETCD_INITIAL_ADVERTISE_PEER_URLS`. -/
def Variables.advertisePeerUrl (facts : AddressFacts) : String :=
  vars.etcdScheme ++ facts.etcdAddressCluster ++ ":" ++ vars.etcdPortPeer

/-- Collected facts come from the four address rules, by inverting the bindings. -/
theorem collectFacts_some {host : Host} {facts : AddressFacts}
    (collected : collectFacts vars host = some facts)
    : listenAddress host.facts vars.etcdIfaceCluster = some facts.etcdListenCluster
      ∧ advertisedAddress vars host vars.etcdIfaceCluster
        = some facts.etcdAddressCluster := by
  simp only [collectFacts, Option.bind_eq_bind, Option.bind_eq_some_iff, Option.pure_def,
    Option.some.injEq] at collected
  obtain ⟨_, _, listen, foundListen, _, _, address, foundAddress, rfl⟩ := collected
  exact ⟨foundListen, foundAddress⟩

end PgCluster.Etcd
