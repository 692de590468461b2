import PgCluster.MajorVersion
import PgCluster.Patroni.BootstrapConfiguration

/-! The bootstrap.dcs section under any value of major_version: where the template compares it
and what is rendered then.
-/

namespace PgCluster.Patroni

open Foundation

namespace BootstrapVars

/-- The lines of `parameters`, with the method that their conditional has printed. -/
def parametersLines (vars : BootstrapVars) (method : String) : List YamlLine :=
  if vars.pgParameters.length > 0 then
    ⟨6, .pair "parameters" ""⟩ :: ⟨8, .pair "password_encryption" method⟩
      :: vars.pgParameters.map (fun guc => ⟨8, guc.content⟩)
  else
    []

def recoveryConfLines (vars : BootstrapVars) : List YamlLine :=
  if vars.pgRecoveryConf.length > 0 then
    ⟨6, .pair "recovery_conf" ""⟩ :: vars.pgRecoveryConf.map (fun guc => ⟨8, guc.content⟩)
  else
    []

/-- The lines of `pg_hba`, those of the cluster hosts with the method. -/
def hbaLines (vars : BootstrapVars) (method : String) : List YamlLine :=
  if vars.pgHba.length > 0 then
    ⟨6, .pair "pg_hba" ""⟩ :: vars.pgHba.map (fun client => ⟨8, client.content⟩)
      ++ vars.invPg.map (fun address =>
        ⟨8, .item ("host all all " ++ address ++ "/32 " ++ method)⟩)
  else
    []

def slotsLines (vars : BootstrapVars) : List YamlLine :=
  if vars.slots.length > 0 then
    ⟨4, .pair "slots" ""⟩
      :: vars.slots.flatMap (fun slot =>
        ⟨6, .pair slot.name ""⟩ :: slot.contents.map (fun content => ⟨8, content⟩))
  else
    []

/-- The section with the method in each place that names one. -/
def sectionWith (vars : BootstrapVars) (method : String) : List YamlLine :=
  vars.dcsLines
  ++ [⟨4, .pair "postgresql" ""⟩,
    ⟨6, .pair "use_pg_rewind" (lower vars.pgUsePgRewind)⟩,
    ⟨6, .pair "use_slots" (lower vars.pgUseSlots)⟩]
  ++ vars.parametersLines method ++ vars.recoveryConfLines
  ++ vars.pgConfData.map (fun guc => ⟨8, guc.content⟩)
  ++ vars.hbaLines method ++ vars.slotsLines

/-- The template comes to one of its conditionals on major_version. -/
def Compares (vars : BootstrapVars) : Prop :=
  vars.pgParameters.length > 0 ∨ vars.pgHba.length > 0 ∧ vars.invPg ≠ []

instance (vars : BootstrapVars) : Decidable vars.Compares :=
  inferInstanceAs (Decidable (_ ∨ _))

/-- The rendered section; none when a comparison raises. -/
def render (vars : BootstrapVars) (version : MajorVersion) : Option (List YamlLine) :=
  if vars.Compares then version.method.map vars.sectionWith else some (vars.sectionWith "")

/-- Where nothing is compared, no line names a method. -/
theorem sectionWith_of_not_compares {vars : BootstrapVars} (silent : ¬ vars.Compares)
    (method : String)
    : vars.sectionWith method = vars.sectionWith "" := by
  obtain ⟨noParameters, noHosts⟩ := not_or.mp silent
  have parameters : vars.parametersLines method = vars.parametersLines "" := by
    simp [parametersLines, noParameters]
  have hba : vars.hbaLines method = vars.hbaLines "" := by
    unfold hbaLines
    split
    · rename_i clients
      have none_ : vars.invPg = [] := by
        by_contra some_
        exact noHosts ⟨clients, some_⟩
      simp [none_]
    · rfl
  rw [sectionWith, parameters, hba, sectionWith]

/-- The section names a method throughout if its conditionals print it. -/
theorem render_of_method (vars : BootstrapVars) {version : MajorVersion} {method : String}
    (chosen : version.method = some method)
    : vars.render version = some (vars.sectionWith method) := by
  unfold render
  split
  · rw [chosen, Option.map_some]
  · rename_i silent
    rw [sectionWith_of_not_compares silent method]

/-- For a text the method is that of the conditional on texts. -/
theorem method_text_eq (majorVersion : String)
    : (MajorVersion.text majorVersion.toList).method
      = some (passwordEncryption majorVersion) := by
  rw [MajorVersion.method_text]
  simp only [passwordEncryption, String.lt_iff_toList_lt]
  rfl

/-- With that method the section is the one that is read for its parameters. -/
theorem sectionWith_passwordEncryption (vars : BootstrapVars)
    : vars.sectionWith (passwordEncryption vars.majorVersion) = vars.dcsSection := by
  simp only [sectionWith, dcsSection, postgresqlLines, lastLines, parametersLines, parameters,
    recoveryConfLines, recoveryConf, hbaLines, hba, slotsLines, slotSections, confData,
    List.map_cons, List.map_append, List.map_map, List.flatMap_map, List.cons_append,
    List.nil_append, List.append_assoc, Function.comp_def]

theorem render_text (vars : BootstrapVars)
    : vars.render (.text vars.majorVersion.toList) = some vars.dcsSection := by
  rw [vars.render_of_method (method_text_eq vars.majorVersion), sectionWith_passwordEncryption]

/-- An integer is never rendered where the template compares it. -/
theorem render_integer_eq_none_iff (vars : BootstrapVars) (number : Int)
    : vars.render (.integer number) = none ↔ vars.Compares := by
  unfold render
  split
  · rename_i compares
    exact iff_of_true rfl compares
  · rename_i silent
    exact iff_of_false (by simp) silent

end BootstrapVars

end PgCluster.Patroni
