import PgCluster.Etcd.Members
import PgCluster.Foundation.TextTools

/-! The files that the etcd role renders on a host: `etcd.conf` and the unit file.
Only the cluster state and the token line depend on the discovered cluster.
-/

namespace PgCluster.Etcd

open Foundation

/-- The host enters an existing cluster of which it is no named member. -/
def Discovery.joins (discovery : Discovery) (host : Host) : Bool :=
  discovery.etcdClusterExists && host.unifiedHostname ∉ discovery.etcdMemberNames

def etcdInitialClusterState (discovery : Discovery) (host : Host) : String :=
  if discovery.joins host then "existing" else "new"

def etcdUseInitialToken (discovery : Discovery) (host : Host) : String :=
  if discovery.joins host then "false" else "true"

/-- The condition `if etcd_use_initial_token`: a Boolean where `set_fact` reads one, else a
text, which is true unless it is empty.
-/
def Variables.printsToken (vars : Variables) (etcdUseInitialToken : String) : Bool :=
  if vars.setFactReadsBooleans then etcdUseInitialToken = "true"
  else etcdUseInitialToken ≠ ""

/-- The endpoints of the commented client line, set by the commented conditional. -/
def clientEndpoints (vars : Variables) (facts : AddressFacts) : List String :=
  if vars.etcdIfacePublic = "all" then [facts.etcdListenPublic]
  else [facts.etcdListenPublic, "localhost"]

/-- The lines above `ETCD_INITIAL_CLUSTER`. -/
def etcdConfHead (vars : Variables) (isMaster : Bool) (host : Host) (facts : AddressFacts)
    : List String :=
  [
    "# [member]",
    "ETCD_NAME=\"" ++ host.unifiedHostname ++ "\"",
    "ETCD_DATA_DIR=\"" ++ vars.etcdClusterDataDir ++ "\"",
    "ETCD_AUTO_COMPACTION_MODE=\"" ++ vars.etcdAutoCompactionMode ++ "\"",
    "ETCD_AUTO_COMPACTION_RETENTION=\"" ++ vars.etcdAutoCompactionRetention ++ "\"",
    "ETCD_QUOTA_BACKEND_BYTES=\"" ++ vars.etcdQuotaBackendBytes ++ "\"",
    "#ETCD_SNAPSHOT_COUNTER=\"10000\"",
    "#ETCD_HEARTBEAT_INTERVAL=\"100\"",
    "#ETCD_ELECTION_TIMEOUT=\"1000\"",
    -- the block tags behind `##` swallow their line ends, so four prefixes run together
    "########ETCD_LISTEN_CLIENT_URLS=\""
      ++ ",".intercalate ((clientEndpoints vars facts).map
          (fun endpoint => vars.etcdScheme ++ endpoint ++ ":" ++ vars.etcdPortClient)) ++ "\"",
    "ETCD_LISTEN_CLIENT_URLS=\"" ++ vars.etcdScheme ++ facts.etcdListenCluster ++ ":"
      ++ vars.etcdPortClient ++ "," ++ vars.etcdScheme ++ "localhost:" ++ vars.etcdPortClient
      ++ "\"",
    "#ETCD_MAX_SNAPSHOTS=\"5\"",
    "#ETCD_MAX_WALS=\"5\"",
    "#ETCD_CORS=\"\"",
    "#",
    "# [cluster]"
  ]
  ++ (if isMaster then
      [
        "ETCD_LISTEN_PEER_URLS=\"" ++ vars.listenPeerUrl facts ++ "\"",
        "ETCD_ADVERTISE_CLIENT_URLS=\"" ++ vars.etcdScheme ++ facts.etcdAddressPublic ++ ":"
          ++ vars.etcdPortClient ++ "\"",
        "ETCD_INITIAL_ADVERTISE_PEER_URLS=\"" ++ vars.advertisePeerUrl facts ++ "\""
      ]
    else [])

/-- The lines below the token. -/
def etcdConfTail (vars : Variables) (isMaster : Bool) (host : Host) : List String :=
  [
    "# if you use different ETCD_NAME (e.g. test), set ETCD_INITIAL_CLUSTER value for this "
      ++ "name, i.e. \"test=http://...\"",
    "#ETCD_DISCOVERY=\"\"",
    "#ETCD_DISCOVERY_SRV=\"\"",
    "#ETCD_DISCOVERY_FALLBACK=\"proxy\"",
    "#ETCD_DISCOVERY_PROXY=\"\"",
    "#",
    "#[proxy]"
  ]
  ++ (if isMaster then [] else ["ETCD_PROXY=\"on\""])
  ++ ["#", "#[security]"]
  ++ (if vars.etcdSecure then
      [
        "ETCD_CERT_FILE=\"" ++ (vars.etcdPkiCertDest host).render ++ "\"",
        "ETCD_KEY_FILE=\"" ++ (vars.etcdPkiKeyDest host).render ++ "\"",
        "ETCD_CLIENT_CERT_AUTH=\"true\"",
        "ETCD_TRUSTED_CA_FILE=\"" ++ vars.etcdPkiCaCertDest.render ++ "\"",
        "ETCD_PEER_CERT_FILE=\"" ++ (vars.etcdPkiCertDest host).render ++ "\"",
        "ETCD_PEER_KEY_FILE=\"" ++ (vars.etcdPkiKeyDest host).render ++ "\"",
        "ETCD_PEER_CLIENT_CERT_AUTH=\"true\"",
        "ETCD_PEER_TRUSTED_CA_FILE=\"" ++ vars.etcdPkiCaCertDest.render ++ "\""
      ]
    else [])
  ++ [
    "#",
    "#[logging]",
    "#ETCD_DEBUG=\"true\"",
    "# examples for -log-package-levels etcdserver=WARNING,security=DEBUG",
    "#ETCD_LOG_PACKAGE_LEVELS=\"etcdserver=DEBUG\""
  ]

/-- The rendered `etcd.conf.j2`. -/
def etcdConf (vars : Variables) (masters : List Host) (host : Host) (facts : AddressFacts)
    (discovery : Discovery)
    : String :=
  unlines
    (etcdConfHead vars (host ∈ masters) host facts
      ++ (("ETCD_INITIAL_CLUSTER=\"" ++ vars.etcdCluster masters ++ "\"")
        :: ("ETCD_INITIAL_CLUSTER_STATE=\"" ++ etcdInitialClusterState discovery host ++ "\"")
        :: (if vars.printsToken (etcdUseInitialToken discovery host) then
            ["ETCD_INITIAL_CLUSTER_TOKEN=\"" ++ vars.etcdInitialClusterToken ++ "\""]
          else [])
        ++ etcdConfTail vars (host ∈ masters) host))

/-- The rendered `etcd-tantor.service.j2`. -/
def etcdService (vars : Variables) : String :=
  unlines [
    "[Unit]",
    "Description=Etcd Server",
    "After=network.target",
    "After=network-online.target",
    "Wants=network-online.target",
    "",
    "[Service]",
    "Type=notify",
    "WorkingDirectory=/opt/tantor/var/lib/etcd/",
    "EnvironmentFile=-/opt/tantor/etc/etcd/etcd.conf",
    "User= " ++ vars.etcdUser,
    "# set GOMAXPROCS to number of processors",
    "ExecStart=/bin/bash -c \"GOMAXPROCS=$(nproc) /opt/tantor/usr/bin/etcd\"",
    "Restart=on-failure",
    "LimitNOFILE=65536",
    "",
    "[Install]",
    "WantedBy=multi-user.target",
    ""
  ]

structure TemplateTask where
  name : String
  dest : String
  content : String
  notify : String
deriving DecidableEq, Repr

/-- The two template tasks that end the role, on one host. -/
def templateTasks (vars : Variables) (masters : List Host) (host : Host)
    (facts : AddressFacts) (discovery : Discovery)
    : List TemplateTask :=
  [
    {
      name := "Copy etcd configuration"
      dest := "/opt/tantor/etc/etcd/etcd.conf"
      content := etcdConf vars masters host facts discovery
      notify := "Restart etcd-tantor.service"
    },
    {
      name := "Configure etcd service"
      dest := "/etc/systemd/system/etcd-tantor.service"
      content := etcdService vars
      notify := "Restart etcd-tantor.service"
    }
  ]

/-- The content of each path once the tasks have run. -/
def writtenFiles (tasks : List TemplateTask) (path : String) : Option String :=
  (tasks.find? (fun task => task.dest = path)).map TemplateTask.content

/-- The handlers that the tasks notify on a host with the given files: a task notifies when
it changes its destination.
-/
def notifications (tasks : List TemplateTask) (files : String → Option String)
    : List String :=
  (tasks.filter (fun task => files task.dest ≠ some task.content)).map TemplateTask.notify

/-- The two possible state lines differ, whatever follows them. -/
theorem stateLines_ne (left right : String)
    : "ETCD_INITIAL_CLUSTER_STATE=\"existing\"\n" ++ left
      ≠ "ETCD_INITIAL_CLUSTER_STATE=\"new\"\n" ++ right := by
  intro same
  have letters := congrArg (fun text => text.toList[28]?) same
  simp at letters

/-- With the same inventory, variables and facts, two renderings are byte-identical exactly
when the host joins in both or in neither. Witness: the state line is the first to differ.
-/
theorem etcdConf_eq_iff (vars : Variables) (masters : List Host) (host : Host)
    (facts : AddressFacts) (left right : Discovery)
    : etcdConf vars masters host facts left = etcdConf vars masters host facts right
      ↔ left.joins host = right.joins host := by
  unfold etcdConf
  rw [unlines_append_inj]
  cases joinsLeft : left.joins host <;> cases joinsRight : right.joins host <;>
    simp [etcdInitialClusterState, etcdUseInitialToken, joinsLeft, joinsRight, unlines,
      String.append_assoc]
  · exact (stateLines_ne _ _).symm
  · exact stateLines_ne _ _

/-- A host behind a nonempty group extends its member list by a comma and an entry. -/
theorem etcdCluster_append (vars : Variables) {masters : List Host} (nonempty : masters ≠ [])
    (added : Host)
    : vars.etcdCluster (masters ++ [added])
      = vars.etcdCluster masters
        ++ ("," ++ (added.unifiedHostname ++ "=" ++ vars.listedPeerUrl added)) := by
  unfold Variables.etcdCluster Variables.etcdClusterEntries
  rw [List.map_append, List.map_append, String.intercalate_append_of_ne_nil]
  · simp [String.append_assoc]
  · simpa using nonempty
  · simp

/-- A closed quotation and a comma differ, whatever follows them. -/
theorem quote_ne_comma (left right : String) : "\"" ++ left ≠ "," ++ right := by
  intro same
  have letters := congrArg (fun text => text.toList[0]?) same
  simp at letters

/-- Adding a host to the inventory changes the file of every earlier host, whatever was
discovered. Witness: the longer member list is the first difference.
-/
theorem etcdConf_ne_of_added (vars : Variables) {masters : List Host} {host : Host}
    (member : host ∈ masters) (added : Host) (facts : AddressFacts)
    (before after : Discovery)
    : etcdConf vars masters host facts before
      ≠ etcdConf vars (masters ++ [added]) host facts after := by
  intro same
  have longer := etcdCluster_append vars (List.ne_nil_of_mem member) added
  have master : host ∈ masters ++ [added] := List.mem_append_left _ member
  unfold etcdConf at same
  simp only [member, master, decide_true, unlines_append_inj, List.cons_append, unlines,
    longer, String.append_assoc, String.append_right_inj] at same
  exact quote_ne_comma _ _ same

end PgCluster.Etcd
