import PgCluster.Patroni.PasswordEncryption

/-! PgBouncer's configuration file, and when it names the same password method as Patroni's
section, the one that belongs to the version.
-/

namespace PgCluster.Pgbouncer

open Patroni

/-- The variables that pgbouncer.ini.j2 reads, without major_version. -/
structure PgbouncerVars where
  patroniPgPort : String
  authUser : String
  logFile : String
  pidFile : String
  incomingHosts : String
  listenPort : String

/-- The lines of the file, with the method that its conditional has printed. -/
def PgbouncerVars.iniWith (vars : PgbouncerVars) (method : String) : List String := [
  "[databases]",
  "* = host=127.0.0.1 port=" ++ vars.patroniPgPort ++ " auth_user=" ++ vars.authUser,
  "",
  "[pgbouncer]",
  "logfile = " ++ vars.logFile,
  "pidfile = " ++ vars.pidFile,
  "",
  "listen_addr = 127.0.0.1," ++ vars.incomingHosts,
  "listen_port = " ++ vars.listenPort,
  "",
  "auth_file = /opt/tantor/etc/pgbouncer/userlist.txt",
  "auth_type = " ++ method,
  "auth_query = SELECT * FROM pgbouncer.get_auth($1)",
  "",
  "pool_mode = transaction",
  "max_client_conn = 5000",
  "default_pool_size = 200",
  "reserve_pool_size = 50",
  "",
  "ignore_startup_parameters = extra_float_digits,client_min_messages",
  "",
  "admin_users = postgres",
  "stats_users = stats, postgres",
  "",
  "server_lifetime = 86400",
  "server_idle_timeout = 10800",
  "query_wait_timeout = 120",
  "",
  "log_connections = 0",
  "log_disconnections = 0",
  "log_pooler_errors = 1",
  "",
  "server_reset_query=DISCARD ALL;"]

/-- The rendered file; none when a comparison raises. -/
def PgbouncerVars.render (vars : PgbouncerVars) (version : MajorVersion)
    : Option (List String) :=
  version.method.map vars.iniWith

/-- Both templates are rendered, with the method of the version in every place. -/
structure OneMethod (vars : BootstrapVars) (pgbouncer : PgbouncerVars)
    (version : MajorVersion)
    : Prop where
  patroniYml : vars.render version = some (vars.sectionWith (methodFor version.number))
  pgbouncerIni
    : pgbouncer.render version = some (pgbouncer.iniWith (methodFor version.number))

/-- The line of auth_type tells the method. -/
theorem iniWith_inj (vars : PgbouncerVars) {first second : String}
    (same : vars.iniWith first = vars.iniWith second)
    : first = second := by
  have line := congrArg (fun lines => lines[11]?) same
  simpa [PgbouncerVars.iniWith] using line

/-- PgBouncer's file is the one of a method exactly when the conditional gives it. -/
theorem render_eq_iff (vars : PgbouncerVars) (version : MajorVersion) (method : String)
    : vars.render version = some (vars.iniWith method) ↔ version.method = some method := by
  unfold PgbouncerVars.render
  cases version.method with
  | none => simp
  | some chosen =>
      simp only [Option.map_some, Option.some_inj]
      exact ⟨fun same => iniWith_inj vars same, congrArg vars.iniWith⟩

/-- An accepted version gets one method, its own, exactly if it is a text that its first digits
decide, whatever else the templates are given.
-/
theorem oneMethod_iff (vars : BootstrapVars) (pgbouncer : PgbouncerVars)
    {version : MajorVersion} (accepted : version.Accepted)
    : OneMethod vars pgbouncer version ↔ version.DecidedByDigits := by
  rw [← MajorVersion.method_eq_iff accepted]
  constructor
  · intro same
    exact (render_eq_iff pgbouncer version _).mp same.pgbouncerIni
  · intro chosen
    exact ⟨vars.render_of_method chosen, (render_eq_iff pgbouncer version _).mpr chosen⟩

/-- A further parameter, an entry of pg_hba and one cluster host. -/
def exampleVars : BootstrapVars where
  majorVersion := ""
  pgParameters := [⟨"track_commit_timestamp", "off"⟩]
  pgRecoveryConf := []
  pgConfData := []
  pgHba := [⟨"host", "all", "all", some "localhost", "trust", none⟩]
  invPg := ["10.0.0.7"]

def examplePgbouncer : PgbouncerVars :=
  ⟨"5432", "pgbouncer", "pgbouncer.log", "pgbouncer.pid", "*", "6432"⟩

theorem oneMethod_sixteen : OneMethod exampleVars examplePgbouncer (.text ['1', '6']) :=
  (oneMethod_iff exampleVars examplePgbouncer (by decide)).mpr (by decide)

/-- The integer of the inventory is accepted and raises; the text 9 gets the other method. -/
theorem oneMethod_seventeen
    : (MajorVersion.integer 17).Accepted
      ∧ ¬ OneMethod exampleVars examplePgbouncer (.integer 17)
      ∧ (MajorVersion.text ['9']).Accepted
      ∧ ¬ OneMethod exampleVars examplePgbouncer (.text ['9']) := by
  refine ⟨by decide, ?_, by decide, ?_⟩
  · intro same
    exact absurd same.pgbouncerIni (by decide)
  · intro same
    exact absurd same.pgbouncerIni (by decide)

end PgCluster.Pgbouncer
