import PgCluster.Foundation.BlockYaml

/-! The bootstrap.dcs section of Patroni's configuration: its template, line by line, and
where the lines of pg_configurator end up.
-/

namespace PgCluster.Patroni

open Foundation

-----------------------------------------------------------------------------------------
-- The template
-----------------------------------------------------------------------------------------

/-- An option with its value. -/
structure Guc where
  option : String
  value : String
deriving DecidableEq, Repr

def Guc.content (guc : Guc) : YamlContent := .pair guc.option guc.value

structure HbaClient where
  type : String
  database : String
  user : String
  address : Option String
  method : String
  options : Option String
deriving DecidableEq, Repr

structure Slot where
  name : String
  type : String
  database : String
  plugin : String
deriving DecidableEq, Repr

/-- The variables that the section reads, without their prefix `patroni_bootstrap_dcs_`. -/
structure BootstrapVars where
  ttl : Option Nat := none
  loopWait : Option Nat := none
  retryTimeout : Option Nat := none
  maximumLagOnFailover : Option Nat := none
  masterStartTimeout : Option Nat := none
  synchronousMode : Bool := false
  synchronousModeStrict : Bool := false
  checkTimeline : Bool := false
  standbyCluster : List Guc := []
  pgUsePgRewind : Bool := true
  pgUseSlots : Bool := true
  majorVersion : String
  pgParameters : List Guc
  pgRecoveryConf : List Guc
  /-- `patroni_pg_conf_data.postgresql.parameters.items()` -/
  pgConfData : List Guc
  pgHba : List HbaClient
  /-- the addresses of the hosts in `inv_pg` -/
  invPg : List String
  slots : List Slot := []

/-- `|d(default, true) |int` -/
def intOr (default : Nat) (value : Option Nat) : String :=
  match value with
  | none | some 0 => toString default
  | some number => toString number

/-- `|lower` of a flag. -/
def lower (flag : Bool) : String := if flag then "true" else "false"

/-- The method by the version, compared as a text; in between there is none. -/
def passwordEncryption (majorVersion : String) : String :=
  if ¬ "13" < majorVersion then "md5"
  else if ¬ majorVersion < "14" then "scram-sha-256"
  else ""

def HbaClient.content (client : HbaClient) : YamlContent :=
  .item (client.type ++ " " ++ client.database ++ " " ++ client.user ++ " "
    ++ client.address.getD "" ++ " " ++ client.method ++ " " ++ client.options.getD "")

def Slot.contents (slot : Slot) : List YamlContent :=
  [.pair "type" slot.type]
  ++ if slot.type = "logical" then [.pair "database" slot.database, .pair "plugin" slot.plugin]
    else []

namespace BootstrapVars

def settings (vars : BootstrapVars) : List YamlContent :=
  [
    .pair "ttl" (intOr 30 vars.ttl),
    .pair "loop_wait" (intOr 10 vars.loopWait),
    .pair "retry_timeout" (intOr 10 vars.retryTimeout),
    .pair "maximum_lag_on_failover" (intOr 1048576 vars.maximumLagOnFailover),
    .pair "master_start_timeout" (intOr 300 vars.masterStartTimeout),
    .pair "synchronous_mode" (lower vars.synchronousMode),
    .pair "synchronous_mode_strict" (lower vars.synchronousModeStrict),
    .pair "check_timeline" (lower vars.checkTimeline)
  ]

/-- `|map(attribute='value') |join() |trim |length > 0` -/
def HasStandby (vars : BootstrapVars) : Prop :=
  ∃ item ∈ vars.standbyCluster, ∃ value ∈ item.value.toList, value.isWhitespace = false

instance (vars : BootstrapVars) : Decidable vars.HasStandby :=
  inferInstanceAs (Decidable (∃ item ∈ vars.standbyCluster, _))

def standby (vars : BootstrapVars) : List YamlContent := vars.standbyCluster.map Guc.content

/-- What the condition on `patroni_bootstrap_dcs_pg_parameters` prints below `parameters`. -/
def parameters (vars : BootstrapVars) : List YamlContent :=
  .pair "password_encryption" (passwordEncryption vars.majorVersion)
    :: vars.pgParameters.map Guc.content

def recoveryConf (vars : BootstrapVars) : List YamlContent :=
  vars.pgRecoveryConf.map Guc.content

def confData (vars : BootstrapVars) : List YamlContent := vars.pgConfData.map Guc.content

def hba (vars : BootstrapVars) : List YamlContent :=
  vars.pgHba.map HbaClient.content
  ++ vars.invPg.map (fun address =>
    .item ("host all all " ++ address ++ "/32 " ++ passwordEncryption vars.majorVersion))

def slotSections (vars : BootstrapVars) : List (String × List YamlContent) :=
  vars.slots.map (fun slot => (slot.name, slot.contents))

/-- The first lines, up to those of `patroni_bootstrap_dcs_standby_cluster`. -/
def dcsLines (vars : BootstrapVars) : List YamlLine :=
  [⟨0, .pair "bootstrap" ""⟩] ++ [⟨2, .pair "dcs" ""⟩]
  ++ vars.settings.map (YamlLine.mk 4)
  ++ if vars.HasStandby then
      ⟨4, .pair "standby_cluster" ""⟩ :: vars.standby.map (YamlLine.mk 6)
    else []

/-- The lines up to the loop over the parameters of pg_configurator. -/
def postgresqlLines (vars : BootstrapVars) : List YamlLine :=
  [⟨4, .pair "postgresql" ""⟩]
  ++ [⟨6, .pair "use_pg_rewind" (lower vars.pgUsePgRewind)⟩]
  ++ [⟨6, .pair "use_slots" (lower vars.pgUseSlots)⟩]
  ++ (if vars.pgParameters.length > 0 then
      ⟨6, .pair "parameters" ""⟩ :: vars.parameters.map (YamlLine.mk 8)
    else [])
  ++ if vars.pgRecoveryConf.length > 0 then
      ⟨6, .pair "recovery_conf" ""⟩ :: vars.recoveryConf.map (YamlLine.mk 8)
    else []

/-- The lines behind that loop. -/
def lastLines (vars : BootstrapVars) : List YamlLine :=
  (if vars.pgHba.length > 0 then
      ⟨6, .pair "pg_hba" ""⟩ :: vars.hba.map (YamlLine.mk 8)
    else [])
  ++ if vars.slots.length > 0 then
      ⟨4, .pair "slots" ""⟩
        :: vars.slotSections.flatMap (fun part =>
          ⟨6, .pair part.1 ""⟩ :: part.2.map (YamlLine.mk 8))
    else []

/-- The rendered section. -/
def dcsSection (vars : BootstrapVars) : List YamlLine :=
  vars.dcsLines ++ vars.postgresqlLines ++ vars.confData.map (YamlLine.mk 8) ++ vars.lastLines

end BootstrapVars

-----------------------------------------------------------------------------------------
-- The document
-----------------------------------------------------------------------------------------

def postgresqlPath : List String := ["bootstrap", "dcs", "postgresql"]

def parametersPath : List String := postgresqlPath ++ ["parameters"]

def recoveryConfPath : List String := postgresqlPath ++ ["recovery_conf"]

namespace BootstrapVars

def dcsEntries (vars : BootstrapVars) : List YamlEntry :=
  [⟨[], .pair "bootstrap" ""⟩] ++ [⟨["bootstrap"], .pair "dcs" ""⟩]
  ++ vars.settings.map (YamlEntry.mk ["bootstrap", "dcs"])
  ++ if vars.HasStandby then
      ⟨["bootstrap", "dcs"], .pair "standby_cluster" ""⟩
        :: vars.standby.map (YamlEntry.mk ["bootstrap", "dcs", "standby_cluster"])
    else []

def postgresqlEntries (vars : BootstrapVars) : List YamlEntry :=
  [⟨["bootstrap", "dcs"], .pair "postgresql" ""⟩]
  ++ [⟨postgresqlPath, .pair "use_pg_rewind" (lower vars.pgUsePgRewind)⟩]
  ++ [⟨postgresqlPath, .pair "use_slots" (lower vars.pgUseSlots)⟩]

def parametersEntries (vars : BootstrapVars) : List YamlEntry :=
  if vars.pgParameters.length > 0 then
    ⟨postgresqlPath, .pair "parameters" ""⟩ :: vars.parameters.map (YamlEntry.mk parametersPath)
  else []

def recoveryConfEntries (vars : BootstrapVars) : List YamlEntry :=
  if vars.pgRecoveryConf.length > 0 then
    ⟨postgresqlPath, .pair "recovery_conf" ""⟩
      :: vars.recoveryConf.map (YamlEntry.mk recoveryConfPath)
  else []

def lastEntries (vars : BootstrapVars) : List YamlEntry :=
  (if vars.pgHba.length > 0 then
      ⟨postgresqlPath, .pair "pg_hba" ""⟩
        :: vars.hba.map (YamlEntry.mk (postgresqlPath ++ ["pg_hba"]))
    else [])
  ++ if vars.slots.length > 0 then
      ⟨["bootstrap", "dcs"], .pair "slots" ""⟩
        :: vars.slotSections.flatMap (fun part =>
          ⟨["bootstrap", "dcs", "slots"], .pair part.1 ""⟩
            :: part.2.map (YamlEntry.mk (["bootstrap", "dcs", "slots"] ++ [part.1])))
    else []

/-- The section, with the parameters of pg_configurator below the given keys. -/
def document (vars : BootstrapVars) (path : List String) : List YamlEntry :=
  vars.dcsEntries ++ (vars.postgresqlEntries ++ vars.parametersEntries
    ++ vars.recoveryConfEntries)
  ++ vars.confData.map (YamlEntry.mk path) ++ vars.lastEntries

/-- What the template has outside parameters and recovery_conf. -/
def ownEntries (vars : BootstrapVars) : List YamlEntry :=
  vars.dcsEntries ++ vars.postgresqlEntries
  ++ [⟨postgresqlPath, .pair "parameters" ""⟩, ⟨postgresqlPath, .pair "recovery_conf" ""⟩]
  ++ vars.lastEntries

/-- The entries have every parameter in its place and none elsewhere. Beside the two lists
there is below `parameters` only the password_encryption that the template writes in front of
its own list.
-/
structure Placed (vars : BootstrapVars) (entries : List YamlEntry) : Prop where
  parameters
    : childrenOf entries parametersPath
      = (if vars.pgParameters.length > 0 then vars.parameters else []) ++ vars.confData
  recoveryConf : childrenOf entries recoveryConfPath = vars.pgRecoveryConf.map Guc.content
  elsewhere
    : ∀ entry ∈ entries,
        entry.parent ≠ parametersPath → entry.parent ≠ recoveryConfPath
        → entry ∈ vars.ownEntries

/-- The rendered section is well formed and has every parameter in its place. -/
def ParametersLand (vars : BootstrapVars) : Prop :=
  ∃ entries, readYaml vars.dcsSection = some entries ∧ vars.Placed entries

-----------------------------------------------------------------------------------------
-- Reading the section
-----------------------------------------------------------------------------------------

/-- The level of dcs with the one of bootstrap. -/
def dcsLevels : List YamlLevel := [⟨2, .pair "dcs" ""⟩, ⟨0, .pair "bootstrap" ""⟩]

def postgresqlLevels : List YamlLevel := ⟨4, .pair "postgresql" ""⟩ :: dcsLevels

theorem gucs_pairs (gucs : List Guc)
    : ∀ content ∈ gucs.map Guc.content, content.isItem = false := by
  intro content member
  obtain ⟨guc, _, same⟩ := List.mem_map.mp member
  exact same ▸ rfl

theorem hba_items (vars : BootstrapVars) : ∀ content ∈ vars.hba, content.isItem = true := by
  intro content member
  simp only [hba, List.mem_append, List.mem_map] at member
  rcases member with ⟨client, _, same⟩ | ⟨address, _, same⟩ <;> exact same ▸ rfl

theorem slots_pairs (vars : BootstrapVars)
    : ∀ part ∈ vars.slotSections, ∀ content ∈ part.2, content.isItem = false := by
  intro part member content inside
  obtain ⟨slot, _, same⟩ := List.mem_map.mp member
  subst same
  simp only [Slot.contents] at inside
  split at inside <;> simp at inside <;> aesop

/-- The first lines end below dcs. -/
theorem reads_dcsLines (vars : BootstrapVars)
    : ∃ final, Reads [] vars.dcsLines vars.dcsEntries final
        ∧ StandsAt final 4 false dcsLevels := by
  have bootstrap := (accepts_nil false).reads (.pair "bootstrap" "")
  have dcs := (accepts_child (by decide : 0 < 2) "bootstrap" [] false).reads (.pair "dcs" "")
  have settings := (accepts_child (by decide : 2 < 4) "dcs" [⟨0, .pair "bootstrap" ""⟩]
    false).reads_run vars.settings (by simp [BootstrapVars.settings, YamlContent.isItem])
  obtain ⟨middle, settings, _, stands⟩ := settings
  have standby := (stands (by simp [BootstrapVars.settings])).reads_optional
    (by decide : 4 < 6) "standby_cluster" (gucs_pairs vars.standbyCluster) vars.HasStandby
  obtain ⟨final, standby, behind, _⟩ := standby
  exact ⟨final, ((bootstrap.trans dcs).trans settings).trans standby, behind⟩

/-- The section of postgresql begins below dcs. -/
theorem reads_postgresql (vars : BootstrapVars) {levels : List YamlLevel}
    (stands : StandsAt levels 4 false dcsLevels)
    : Reads levels
        ([⟨4, .pair "postgresql" ""⟩]
          ++ [⟨6, .pair "use_pg_rewind" (lower vars.pgUsePgRewind)⟩]
          ++ [⟨6, .pair "use_slots" (lower vars.pgUseSlots)⟩])
        vars.postgresqlEntries
        (⟨6, .pair "use_slots" (lower vars.pgUseSlots)⟩ :: postgresqlLevels) := by
  have postgresql := stands.accepts.reads (.pair "postgresql" "")
  have rewind := (accepts_child (by decide : 4 < 6) "postgresql" dcsLevels false).reads
    (.pair "use_pg_rewind" (lower vars.pgUsePgRewind))
  have slots := (standsAt_self 6 (.pair "use_pg_rewind" (lower vars.pgUsePgRewind))
    postgresqlLevels).accepts.reads (.pair "use_slots" (lower vars.pgUseSlots))
  exact (postgresql.trans rewind).trans slots

/-- What is open behind the two optional sections: the latest of them that is printed, or
still the line of use_slots.
-/
structure Opened (vars : BootstrapVars) (levels : List YamlLevel) : Prop where
  stands : StandsAt levels 6 false postgresqlLevels
  recoveryConf
    : vars.pgRecoveryConf ≠ []
      → StandsAt levels 8 false (⟨6, .pair "recovery_conf" ""⟩ :: postgresqlLevels)
  parameters
    : vars.pgRecoveryConf = [] → vars.pgParameters ≠ []
      → StandsAt levels 8 false (⟨6, .pair "parameters" ""⟩ :: postgresqlLevels)
  neither
    : vars.pgRecoveryConf = [] → vars.pgParameters = []
      → levels = ⟨6, .pair "use_slots" (lower vars.pgUseSlots)⟩ :: postgresqlLevels

theorem reads_postgresqlLines (vars : BootstrapVars) {levels : List YamlLevel}
    (stands : StandsAt levels 4 false dcsLevels)
    : ∃ final,
        Reads levels vars.postgresqlLines
          (vars.postgresqlEntries ++ vars.parametersEntries ++ vars.recoveryConfEntries) final
        ∧ vars.Opened final := by
  have first := vars.reads_postgresql stands
  have start := standsAt_self 6 (.pair "use_slots" (lower vars.pgUseSlots)) postgresqlLevels
  have pairs : ∀ content ∈ vars.parameters, content.isItem = false := by
    intro content member
    rcases List.mem_cons.mp member with same | member
    · exact same ▸ rfl
    · exact gucs_pairs _ content member
  obtain ⟨middle, parameters, behind, left, inside⟩ := start.reads_optional (by decide : 6 < 8)
    "parameters" pairs (vars.pgParameters.length > 0)
  obtain ⟨final, recoveryConf, ended, unread, below⟩ := behind.reads_optional
    (by decide : 6 < 8) "recovery_conf" (gucs_pairs vars.pgRecoveryConf)
    (vars.pgRecoveryConf.length > 0)
  refine ⟨final, (first.trans parameters).trans recoveryConf, ended, ?_, ?_, ?_⟩
  · intro some_
    exact below (List.length_pos_iff.mpr some_) (by simpa using some_)
  · intro none_ some_
    rw [unread (by simp [none_])]
    exact inside (List.length_pos_iff.mpr some_) (by simp [BootstrapVars.parameters])
  · intro none_ without
    rw [unread (by simp [none_]), left (by simp [without])]

/-- The lines behind the loop are read wherever postgresql is still open. -/
theorem reads_lastLines (vars : BootstrapVars) {levels : List YamlLevel}
    (stands : StandsAt levels 6 false postgresqlLevels)
    : ∃ final, Reads levels vars.lastLines vars.lastEntries final := by
  obtain ⟨middle, hba, behind, _⟩ := stands.reads_optional (by decide : 6 < 8) "pg_hba"
    vars.hba_items (vars.pgHba.length > 0)
  have outer : StandsAt middle 4 false dcsLevels := behind.outer (by decide : 4 < 6)
  by_cases shown : vars.slots.length > 0
  · have header := outer.accepts.reads (.pair "slots" "")
    obtain ⟨final, slots, _⟩ := (accepts_child (by decide : 4 < 6) "slots" dcsLevels
      false).reads_sections (by decide : 6 < 8) vars.slots_pairs
    refine ⟨final, hba.trans ?_⟩
    simp only [shown, ↓reduceIte]
    exact header.trans slots
  · refine ⟨middle, hba.trans ?_⟩
    simp only [shown, ↓reduceIte]
    exact reads_nil middle

/-- The section is well formed where the parameters of pg_configurator find a section of the
right indentation, and they are below that one.
-/
theorem read_dcsSection (vars : BootstrapVars) {path : List String}
    (place
      : vars.pgConfData = []
        ∨ vars.pgRecoveryConf ≠ [] ∧ path = recoveryConfPath
        ∨ (vars.pgRecoveryConf = [] ∧ vars.pgParameters ≠ []) ∧ path = parametersPath)
    : readYaml vars.dcsSection = some (vars.document path) := by
  obtain ⟨first, dcs, stands⟩ := vars.reads_dcsLines
  obtain ⟨second, postgresql, opened⟩ := vars.reads_postgresqlLines stands
  have loop : ∃ third,
      Reads second (vars.confData.map (YamlLine.mk 8)) (vars.confData.map (YamlEntry.mk path))
        third
      ∧ StandsAt third 6 false postgresqlLevels := by
    by_cases none_ : vars.pgConfData = []
    · exact ⟨second, by simp [BootstrapVars.confData, none_, reads_nil], opened.stands⟩
    · have found : ∃ key,
          StandsAt second 8 false (⟨6, .pair key ""⟩ :: postgresqlLevels)
          ∧ path = postgresqlPath ++ [key] := by
        rcases place with empty | ⟨some_, same⟩ | ⟨⟨without, some_⟩, same⟩
        · exact absurd empty none_
        · exact ⟨"recovery_conf", opened.recoveryConf some_, same⟩
        · exact ⟨"parameters", opened.parameters without some_, same⟩
      obtain ⟨key, inside, same⟩ := found
      obtain ⟨third, reads, _, behind⟩ :=
        inside.accepts.reads_run vars.confData (gucs_pairs vars.pgConfData)
      have below := behind (by simpa [BootstrapVars.confData] using none_)
      exact ⟨third, same ▸ reads, below.outer (by decide : 6 < 8)⟩
  obtain ⟨third, confData, behind⟩ := loop
  obtain ⟨final, last⟩ := vars.reads_lastLines behind
  have whole := ((dcs.trans postgresql).trans confData).trans last
  exact congrArg (Option.map Prod.fst) whole

/-- Without both sections the first parameter of pg_configurator fits nowhere. -/
theorem read_dcsSection_none (vars : BootstrapVars) (some_ : vars.pgConfData ≠ [])
    (without : vars.pgRecoveryConf = [] ∧ vars.pgParameters = [])
    : readYaml vars.dcsSection = none := by
  obtain ⟨first, dcs, stands⟩ := vars.reads_dcsLines
  obtain ⟨second, postgresql, opened⟩ := vars.reads_postgresqlLines stands
  have levels := opened.neither without.1 without.2
  obtain ⟨guc, rest, parts⟩ := List.exists_cons_of_ne_nil some_
  have nowhere : ∀ following, readLines second (⟨8, guc.content⟩ :: following) = none := by
    intro following
    cases flag : vars.pgUseSlots
      <;> simp [readLines, readLine, levels, lower, flag, YamlContent.isOpen, postgresqlLevels]
  have whole := (dcs.trans postgresql).append
    (vars.confData.map (YamlLine.mk 8) ++ vars.lastLines)
  simp only [BootstrapVars.confData, parts, List.map_cons, List.cons_append, nowhere,
    Option.map_none] at whole
  simp only [readYaml, dcsSection, BootstrapVars.confData, parts, List.map_cons,
    List.append_assoc, List.cons_append] at whole ⊢
  rw [whole]
  rfl

-----------------------------------------------------------------------------------------
-- Where the parameters land
-----------------------------------------------------------------------------------------

/-- The entry is in neither of the two sections. -/
def Outside (entry : YamlEntry) : Prop :=
  entry.parent ≠ parametersPath ∧ entry.parent ≠ recoveryConfPath

theorem outside_dcs (vars : BootstrapVars) : ∀ entry ∈ vars.dcsEntries, Outside entry := by
  intro entry member
  simp only [dcsEntries, List.mem_append, List.mem_map, List.mem_ite_nil_right, List.mem_cons,
    List.not_mem_nil, or_false] at member
  rcases member with ((same | same) | ⟨_, _, same⟩) | ⟨_, same | ⟨_, _, same⟩⟩
    <;> subst same <;> simp [Outside, parametersPath, recoveryConfPath, postgresqlPath]

theorem outside_postgresql (vars : BootstrapVars)
    : ∀ entry ∈ vars.postgresqlEntries, Outside entry := by
  intro entry member
  simp only [postgresqlEntries, List.mem_append, List.mem_singleton] at member
  rcases member with (same | same) | same
    <;> subst same <;> simp [Outside, parametersPath, recoveryConfPath, postgresqlPath]

theorem outside_last (vars : BootstrapVars) : ∀ entry ∈ vars.lastEntries, Outside entry := by
  intro entry member
  simp only [lastEntries, List.mem_append, List.mem_map, List.mem_ite_nil_right, List.mem_cons,
    List.mem_flatMap] at member
  rcases member with ⟨_, same | ⟨_, _, same⟩⟩ | ⟨_, same | ⟨_, _, same | ⟨_, _, same⟩⟩⟩
    <;> subst same <;> simp [Outside, parametersPath, recoveryConfPath, postgresqlPath]

/-- The children of a section are those of the two optional ones and of the loop. -/
theorem childrenOf_document (vars : BootstrapVars) {path : List String}
    (apart : postgresqlPath ≠ path) (place : List String)
    (outside : ∀ entry, Outside entry → entry.parent ≠ path)
    : childrenOf (vars.document place) path
      = (if vars.pgParameters.length > 0 ∧ parametersPath = path then vars.parameters else [])
        ++ (if vars.pgRecoveryConf.length > 0 ∧ recoveryConfPath = path then vars.recoveryConf
            else [])
        ++ if place = path then vars.confData else [] := by
  have dcs := childrenOf_eq_nil
    (fun entry member => outside entry (vars.outside_dcs entry member))
  have postgresql := childrenOf_eq_nil
    (fun entry member => outside entry (vars.outside_postgresql entry member))
  have last := childrenOf_eq_nil
    (fun entry member => outside entry (vars.outside_last entry member))
  simp only [document, childrenOf_append, dcs, postgresql, last, parametersEntries,
    recoveryConfEntries, childrenOf_section _ apart, childrenOf_run, List.nil_append,
    List.append_nil]

theorem childrenOf_parameters (vars : BootstrapVars) (place : List String)
    : childrenOf (vars.document place) parametersPath
      = (if vars.pgParameters.length > 0 then vars.parameters else [])
        ++ if place = parametersPath then vars.confData else [] := by
  have apart : recoveryConfPath ≠ parametersPath := by decide
  rw [vars.childrenOf_document (by decide) place (fun _ outside => outside.1)]
  simp [apart]

theorem childrenOf_recoveryConf (vars : BootstrapVars) (place : List String)
    : childrenOf (vars.document place) recoveryConfPath
      = vars.recoveryConf ++ if place = recoveryConfPath then vars.confData else [] := by
  have apart : parametersPath ≠ recoveryConfPath := by decide
  rw [vars.childrenOf_document (by decide) place (fun _ outside => outside.2)]
  by_cases none_ : vars.pgRecoveryConf = []
  · simp [apart, none_, BootstrapVars.recoveryConf]
  · simp [apart, List.length_pos_iff.mpr none_]

/-- With the parameters of pg_configurator in their place, everything is. -/
theorem placed_document (vars : BootstrapVars) {place : List String}
    (confData
      : vars.pgConfData = [] ∨ place = parametersPath)
    : vars.Placed (vars.document place) := by
  refine ⟨?_, ?_, ?_⟩
  · rw [childrenOf_parameters]
    rcases confData with none_ | same
    · simp [BootstrapVars.confData, none_]
    · simp [same]
  · rw [childrenOf_recoveryConf]
    rcases confData with none_ | same
    · simp [BootstrapVars.confData, none_, BootstrapVars.recoveryConf]
    · have apart : parametersPath ≠ recoveryConfPath := by decide
      simp [same, apart, BootstrapVars.recoveryConf]
  · intro entry member notParameters notRecovery
    simp only [document, parametersEntries, recoveryConfEntries, List.mem_append, List.mem_map,
      List.mem_ite_nil_right, List.mem_cons] at member
    simp only [ownEntries, List.mem_append, List.mem_cons]
    rcases member with
      ((dcs | (postgresql | ⟨_, header | ⟨_, _, same⟩⟩) | ⟨_, header | ⟨_, _, same⟩⟩)
        | ⟨content, tuned, same⟩) | last
    · exact .inl (.inl (.inl dcs))
    · exact .inl (.inl (.inr postgresql))
    · exact .inl (.inr (.inl header))
    · exact absurd (by rw [← same]) notParameters
    · exact .inl (.inr (.inr (.inl header)))
    · exact absurd (by rw [← same]) notRecovery
    · rcases confData with none_ | place_
      · simp [BootstrapVars.confData, none_] at tuned
      · exact absurd (by rw [← same, place_]) notParameters
    · exact .inr last

/-- Every parameter lands in its place if and only if pg_configurator has none, or there are
further parameters and no recovery options. By cases on the two lists.
-/
theorem parametersLand_iff (vars : BootstrapVars)
    : vars.ParametersLand
      ↔ vars.pgConfData = [] ∨ vars.pgParameters ≠ [] ∧ vars.pgRecoveryConf = [] := by
  constructor
  · intro lands
    obtain ⟨entries, read, placed⟩ := lands
    by_contra neither
    obtain ⟨some_, sections⟩ := not_or.mp neither
    by_cases recovery : vars.pgRecoveryConf = []
    · have without : vars.pgParameters = [] := by
        by_contra parameters
        exact sections ⟨parameters, recovery⟩
      rw [vars.read_dcsSection_none some_ ⟨recovery, without⟩] at read
      cases read
    · rw [vars.read_dcsSection (.inr (.inl ⟨recovery, rfl⟩))] at read
      cases read
      have children := placed.recoveryConf
      rw [childrenOf_recoveryConf] at children
      have length := congrArg List.length children
      simp [BootstrapVars.recoveryConf, BootstrapVars.confData, some_] at length
  · intro condition
    refine ⟨vars.document parametersPath, vars.read_dcsSection ?_, vars.placed_document ?_⟩
    · rcases condition with none_ | ⟨parameters, recovery⟩
      · exact .inl none_
      · exact .inr (.inr ⟨⟨recovery, parameters⟩, rfl⟩)
    · exact .inr rfl

/-- A tuned parameter beside a recovery option. -/
def tunedRecovery : BootstrapVars where
  majorVersion := "17"
  pgParameters := [⟨"port", "5432"⟩]
  pgRecoveryConf := [⟨"restore_command", "true"⟩]
  pgConfData := [⟨"work_mem", "64MB"⟩]
  pgHba := []
  invPg := []

/-- The tuned parameter is read as a recovery option. -/
theorem parametersLand_recovery : ¬ tunedRecovery.ParametersLand := by
  intro lands
  obtain ⟨entries, read, placed⟩ := lands
  have document : readYaml tunedRecovery.dcsSection
      = some (tunedRecovery.document recoveryConfPath) :=
    tunedRecovery.read_dcsSection (.inr (.inl ⟨by simp [tunedRecovery], rfl⟩))
  rw [document] at read
  cases read
  have children := placed.recoveryConf
  rw [childrenOf_recoveryConf] at children
  have length := congrArg List.length children
  simp [BootstrapVars.recoveryConf, BootstrapVars.confData, tunedRecovery] at length

end BootstrapVars

end PgCluster.Patroni
