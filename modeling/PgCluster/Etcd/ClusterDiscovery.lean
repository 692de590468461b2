import PgCluster.Etcd.Idempotence

/-! Whether an installed and healthy cluster answers the probes of the role.
The probe spells scheme, directory and file names on its own; the node serves what
`etcd.conf` and `pki.yml` gave it from the group variables.
-/

namespace PgCluster.Etcd

/-- The variables of a role whose TLS switch, data directory and cluster name are set. -/
def withSettings (etcdSecure : Bool) (etcdDataDir etcdClusterName : String) : Variables :=
  { etcdSecure, etcdDataDir, etcdClusterName }

/-- The three file arguments of the probe on a host. -/
structure ProbePaths where
  cacert : PkiPath
  cert : PkiPath
  key : PkiPath

def probePaths (vars : Variables) (host : Host) : ProbePaths where
  cacert := ⟨vars.etcdConfDir, "ca.pem"⟩
  cert := ⟨vars.etcdConfDir, host.unifiedHostname ++ ".pem"⟩
  key := ⟨vars.etcdConfDir, host.unifiedHostname ++ "-key.pem"⟩

/-- The files that `pki.yml` installs on a host. -/
def installedPaths (vars : Variables) (host : Host) : ProbePaths where
  cacert := vars.etcdPkiCaCertDest
  cert := vars.etcdPkiCertDest host
  key := vars.etcdPkiKeyDest host

def probeEndpoint (vars : Variables) (host : Host) : String :=
  "https://" ++ host.facts.defaultIpv4 ++ ":" ++ vars.etcdPortClient

/-- The URL of the host in its rendered `ETCD_LISTEN_CLIENT_URLS`. -/
def listenClientUrl (vars : Variables) (host : Host) : Option String :=
  (listenAddress host.facts vars.etcdIfaceCluster).map
    (fun address => vars.etcdScheme ++ address ++ ":" ++ vars.etcdPortClient)

variable {Directory : Type} [DecidableEq Directory]

/-- Two paths name the same file: the same name below what the node resolves to the same
directory.
-/
def sameFile (resolve : String → Directory) (left right : PkiPath) : Bool :=
  resolve left.dir = resolve right.dir && left.file = right.file

/-- The probe on a configured node succeeds: the node listens at the endpoint, and the three
arguments are the files that `pki.yml` installed, which it does with TLS only. Whether the
names in the node's certificate cover the dialled address is left out here.
-/
def probeSucceeds (vars : Variables) (resolve : String → Directory) (host : Host) : Bool :=
  listenClientUrl vars host = some (probeEndpoint vars host)
  && vars.etcdSecure
  && sameFile resolve (probePaths vars host).cacert (installedPaths vars host).cacert
  && sameFile resolve (probePaths vars host).cert (installedPaths vars host).cert
  && sameFile resolve (probePaths vars host).key (installedPaths vars host).key

/-- The nodes that an earlier run with the same settings configured and that are healthy,
with the directories as each of them resolves them.
-/
structure ConfiguredNodes (Directory : Type) where
  healthy : Host → Bool
  resolve : Host → String → Directory
  members : List Member

/-- The facts of 'Discover etcd cluster state' over configured nodes. -/
def discoverNodes (vars : Variables) (masters : List Host)
    (nodes : ConfiguredNodes Directory)
    : Discovery :=
  discover masters
    (probeResults masters
      (fun host => nodes.healthy host && probeSucceeds vars (nodes.resolve host) host)
      nodes.members)

/-- The cluster is found, and no node outside its member list is told to found one. -/
def DiscoversCluster (vars : Variables) (masters : List Host)
    (nodes : ConfiguredNodes Directory)
    : Prop :=
  (discoverNodes vars masters nodes).etcdClusterExists = true
  ∧ ∀ host ∈ masters,
      host.unifiedHostname ∉ etcdMemberNames (nodes.members.map Member.toPeer)
      → etcdInitialClusterState (discoverNodes vars masters nodes) host ≠ "new"

/-- With TLS on the endpoint of a probe is the listened URL of the default address. -/
theorem listenClientUrl_eq_endpoint_iff (etcdSecure : Bool)
    (etcdDataDir etcdClusterName : String) (host : Host)
    : listenClientUrl (withSettings etcdSecure etcdDataDir etcdClusterName) host
        = some (probeEndpoint (withSettings etcdSecure etcdDataDir etcdClusterName) host)
      ↔ etcdSecure = true := by
  cases etcdSecure with
  | true => simp [listenClientUrl, probeEndpoint, withSettings, listenAddress,
      Variables.etcdScheme]
  | false => simp [listenClientUrl, probeEndpoint, withSettings, listenAddress,
      Variables.etcdScheme]

theorem sameFile_iff (resolve : String → Directory) (left right : PkiPath)
    : sameFile resolve left right = true
      ↔ resolve left.dir = resolve right.dir ∧ left.file = right.file := by
  simp [sameFile]

/-- A probe succeeds exactly with TLS, the fixed directory and the inventory file name. -/
theorem probeSucceeds_iff (etcdSecure : Bool) (etcdDataDir etcdClusterName : String)
    (resolve : String → Directory) (host : Host)
    : probeSucceeds (withSettings etcdSecure etcdDataDir etcdClusterName) resolve host = true
      ↔ etcdSecure = true
        ∧ resolve (etcdDataDir ++ "/" ++ etcdClusterName ++ ".pki")
          = resolve "/opt/tantor/var/lib/etcd/pg-cluster.pki"
        ∧ host.keepsInventoryName := by
  have endpoint := listenClientUrl_eq_endpoint_iff etcdSecure etcdDataDir etcdClusterName host
  rw [← host.unifiedHostname_eq_inventory_iff]
  simp only [probeSucceeds, Bool.and_eq_true, decide_eq_true_eq, endpoint, sameFile_iff]
  simp only [probePaths, installedPaths, withSettings, Variables.etcdPkiCaCertDest,
    Variables.etcdPkiCertDest, Variables.etcdPkiKeyDest, Variables.etcdClusterPkiDir]
  constructor
  · intro ⟨⟨⟨⟨secure, _⟩, _⟩, directory, file⟩, _⟩
    refine ⟨secure, directory.symm, ?_⟩
    simpa using file
  · intro ⟨secure, directory, name⟩
    simp [secure, directory, name]

/-- The cluster is found exactly with TLS on and through a healthy node that keeps its
inventory name and resolves the configured directory to the probed one. Witness: the probes
of such nodes are the only ones to succeed.
-/
theorem discoverNodes_exists_iff (etcdSecure : Bool) (etcdDataDir etcdClusterName : String)
    (masters : List Host) (nodes : ConfiguredNodes Directory)
    : (discoverNodes (withSettings etcdSecure etcdDataDir etcdClusterName) masters
          nodes).etcdClusterExists
        = true
      ↔ etcdSecure = true
        ∧ ∃ host ∈ masters,
            nodes.healthy host = true
            ∧ nodes.resolve host (etcdDataDir ++ "/" ++ etcdClusterName ++ ".pki")
              = nodes.resolve host "/opt/tantor/var/lib/etcd/pg-cluster.pki"
            ∧ host.keepsInventoryName := by
  unfold discoverNodes
  rw [discover_probeResults_exists]
  simp only [Bool.and_eq_true, probeSucceeds_iff]
  constructor
  · intro ⟨host, inMasters, healthy, secure, directory, name⟩
    exact ⟨secure, host, inMasters, healthy, directory, name⟩
  · intro ⟨secure, host, inMasters, healthy, directory, name⟩
    exact ⟨host, inMasters, healthy, secure, directory, name⟩

/-- In a found cluster no host outside the member list is told to found one. -/
theorem discoverNodes_state {vars : Variables} {masters : List Host}
    {nodes : ConfiguredNodes Directory}
    (found : (discoverNodes vars masters nodes).etcdClusterExists = true) {host : Host}
    (outside : host.unifiedHostname ∉ etcdMemberNames (nodes.members.map Member.toPeer))
    : etcdInitialClusterState (discoverNodes vars masters nodes) host = "existing" := by
  have names : (discoverNodes vars masters nodes).etcdMemberNames
      = etcdMemberNames (nodes.members.map Member.toPeer) :=
    (discover_probeResults_names masters _ nodes.members).trans (if_pos found)
  simp [etcdInitialClusterState, Discovery.joins, found, names, outside]

/-- The cluster is discovered if and only if TLS is on and some healthy node keeps its
inventory name and resolves the configured directory to the probed one. Witness: the
nodes outside a found cluster join it.
-/
theorem discoversCluster_iff (etcdSecure : Bool) (etcdDataDir etcdClusterName : String)
    (masters : List Host) (nodes : ConfiguredNodes Directory)
    : DiscoversCluster (withSettings etcdSecure etcdDataDir etcdClusterName) masters nodes
      ↔ etcdSecure = true
        ∧ ∃ host ∈ masters,
            nodes.healthy host = true
            ∧ nodes.resolve host (etcdDataDir ++ "/" ++ etcdClusterName ++ ".pki")
              = nodes.resolve host "/opt/tantor/var/lib/etcd/pg-cluster.pki"
            ∧ host.keepsInventoryName := by
  rw [← discoverNodes_exists_iff]
  constructor
  · intro discovers
    exact discovers.1
  · intro found
    refine ⟨found, ?_⟩
    intro host _ outside
    rw [discoverNodes_state found outside]
    decide

/-- Naming the cluster `prod` hides a healthy one-node cluster from the next run. -/
theorem clusterName_hidesCluster
    : ¬ (∀ (etcdSecure : Bool) (etcdDataDir etcdClusterName : String) (masters : List Host)
          (nodes : ConfiguredNodes String),
          (∃ host ∈ masters, nodes.healthy host = true)
          → DiscoversCluster (withSettings etcdSecure etcdDataDir etcdClusterName) masters
              nodes) := by
  intro always
  let nodes : ConfiguredNodes String := {
    healthy := fun _ => true
    resolve := fun _ directory => directory
    members := [
      ⟨⟨"node1", ["https://10.0.0.1:2380"]⟩, ⟨"1a", by decide, by simp⟩,
        ["https://10.0.0.1:2379"], false⟩
    ]
  }
  have found := (always true "/opt/tantor/var/lib/etcd" "prod"
    [.withAddress "node1" "10.0.0.1"] nodes (by decide)).1
  exact absurd found (by decide)

end PgCluster.Etcd
