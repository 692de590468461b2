import PgCluster.Foundation.BasicRegex
import PgCluster.Foundation.TextTools
import PgCluster.Patroni.Naming
import Mathlib.Data.List.Nodup

/-! The tracked script `chk_patroni_leader.sh` and the Patroni configuration that it reads.
Keepalived keeps the virtual address on a node only while the script exits with zero.
-/

namespace PgCluster.Keepalived

open Foundation
open PgCluster.Patroni

/-- The settings of the Patroni role that reach the configuration file. No line below the
node's name starts another top-level `name`.
-/
structure PatroniSettings where
  patroniConfigDir : String := "/opt/tantor/etc/patroni"
  patroniScope : String := "main"
  patroniNamespace : String := "/service/"
  below : List String
  unnamed : ∀ line ∈ below, ¬ "name:".toList <+: line.toList

/-- The lines of the rendered `patroni.yml.j2`. -/
def patroniYml (settings : PatroniSettings) (node : Node) : List String :=
  ["scope: " ++ settings.patroniScope, "namespace: " ++ settings.patroniNamespace,
    "name: " ++ node.memberName]
  ++ settings.below

/-- The destination of 'Create patroni configuration file'. -/
def createdPath (settings : PatroniSettings) (node : Node) : String :=
  settings.patroniConfigDir ++ "/" ++ node.configName ++ ".yml"

/-- The path that the script reads. -/
def readPath (settings : PatroniSettings) (node : Node) : String :=
  settings.patroniConfigDir ++ "/" ++ node.inventoryHostname ++ ".yml"

-----------------------------------------------------------------------------------------
-- The script
-----------------------------------------------------------------------------------------

def isBlank (value : Char) : Bool := value = ' ' || value = '\t'

/-- `cat … | grep -E "^name:" | cut -d: -f2 | tr -d '[:blank:]'`; a missing file has no
lines.
-/
def nodeName (file : Option (List String)) : List Char :=
  let named := ((file.getD []).map String.toList).filter
    (BasicRegex.read "^name:".toList).search
  commandOutput (named.map (fun line => deleteChars isBlank (cutField ':' 2 line)))

/-- A row after the unquoted `echo`, which joins words by single spaces. -/
def echoed (row : ListedMember) : List Char × List Char × List Char :=
  (squeezeSpaces row.member.toList, squeezeSpaces row.role.toList,
    squeezeSpaces row.state.toList)

/-- The raw output of the `jq` filter, one name on each line. -/
def leaderName (rows : List ListedMember) : List Char :=
  commandOutput (((rows.map echoed).filter (fun row =>
    row.2.1 = "Leader".toList && row.2.2 = "running".toList)).map Prod.fst)

/-- The exit status of the script, given the file it reads and what `patronictl` prints. -/
def chkPatroniLeader (file : Option (List String)) (output : Option (List ListedMember))
    : Nat :=
  let nodename := nodeName file
  if nodename = [] then 1
  else
    match output with
    | none => 1
    | some rows => if nodename = leaderName rows then 0 else 1

variable {File : Type} [DecidableEq File]

/-- The file that a node finds under the path of the script: the created one, if the node
resolves both paths to the same file.
-/
def configFile (settings : PatroniSettings) (resolve : Node → String → File) (node : Node)
    : Option (List String) :=
  if resolve node (readPath settings node) = resolve node (createdPath settings node) then
    some (patroniYml settings node)
  else none

/-- The status of the script rendered for a node. -/
def exitStatus (settings : PatroniSettings) (resolve : Node → String → File)
    (output : Option (List ListedMember)) (node : Node)
    : Nat :=
  chkPatroniLeader (configFile settings resolve node) output

/-- The rows of running leaders. -/
def runningLeaders (output : Option (List ListedMember)) : List ListedMember :=
  (output.getD []).filter (fun row => row.role = "Leader" && row.state = "running")

/-- A single running leader is the only member whose node succeeds, and without a running
leader no node does.
-/
def FollowsLeader (settings : PatroniSettings) (resolve : Node → String → File)
    (nodes : List Node)
    : Prop :=
  ∀ output,
    (∀ row, runningLeaders output = [row]
      → ∀ node ∈ nodes,
          exitStatus settings resolve output node = 0 ↔ node.memberName = row.member)
    ∧ (runningLeaders output = []
      → ∀ node ∈ nodes, exitStatus settings resolve output node ≠ 0)

/-- A name that the script reads back as it is: no colon and no blank. -/
def ReadsBack (name : String) : Prop :=
  ':' ∉ name.toList ∧ ∀ value ∈ name.toList, isBlank value = false

theorem ReadsBack.space_notMem {name : String} (readsBack : ReadsBack name)
    : ' ' ∉ name.toList := by
  intro member
  simpa [isBlank] using readsBack.2 ' ' member

-----------------------------------------------------------------------------------------
-- The name that the script extracts
-----------------------------------------------------------------------------------------

/-- The pattern of the script finds exactly the lines that begin with the key. -/
theorem search_name_iff (line : List Char)
    : (BasicRegex.read "^name:".toList).search line = true ↔ "name:".toList <+: line := by
  have shape : "^name:".toList = '^' :: "name:".toList := by simp
  rw [shape]
  apply search_read_anchored_iff
  · simp [Unrepeated]
  · simp

/-- Of the rendered file the script finds the line of the name alone. -/
theorem named_patroniYml (settings : PatroniSettings) (node : Node)
    : ((patroniYml settings node).map String.toList).filter
          (BasicRegex.read "^name:".toList).search
        = [("name: " ++ node.memberName).toList] := by
  have below : (settings.below.map String.toList).filter
      (BasicRegex.read "^name:".toList).search = [] := by
    apply List.filter_eq_nil_iff.mpr
    intro text inTexts found
    obtain ⟨line, inBelow, rfl⟩ := List.mem_map.mp inTexts
    exact settings.unnamed line inBelow ((search_name_iff _).mp found)
  have scope : (BasicRegex.read "^name:".toList).search
      ("scope: " ++ settings.patroniScope).toList = false := by
    rw [Bool.eq_false_iff, ne_eq, search_name_iff]
    simp
  have space : (BasicRegex.read "^name:".toList).search
      ("namespace: " ++ settings.patroniNamespace).toList = false := by
    rw [Bool.eq_false_iff, ne_eq, search_name_iff]
    simp
  have own : (BasicRegex.read "^name:".toList).search
      ("name: " ++ node.memberName).toList = true := by
    rw [search_name_iff]
    simp
  simp only [patroniYml, List.map_append, List.filter_append, below, List.append_nil,
    List.map_cons, List.map_nil, List.filter_cons, scope, space, own, Bool.false_eq_true,
    if_false, if_true, List.filter_nil]

/-- The extracted name is the member name up to a colon and without blanks. -/
theorem nodeName_patroniYml (settings : PatroniSettings) (node : Node)
    : nodeName (some (patroniYml settings node))
      = deleteChars isBlank (before ':' node.memberName.toList) := by
  have field : cutField ':' 2 ("name: " ++ node.memberName).toList
      = before ':' (' ' :: node.memberName.toList) := by
    have absent : ':' ∉ "name".toList := by decide
    rw [← cutField_two_append absent]
    congr 1
    simp
  have oneLine : '\n' ∉ deleteChars isBlank (before ':' (' ' :: node.memberName.toList)) := by
    intro member
    rcases List.mem_cons.mp (mem_of_mem_before (List.mem_filter.mp member).1) with
      space | inName
    · exact absurd space (by decide)
    · exact node.memberName_oneLine inName
  unfold nodeName
  rw [Option.getD_some, named_patroniYml]
  simp only [List.map_cons, List.map_nil, field]
  rw [commandOutput_single oneLine]
  rfl

/-- The extracted name is the member name exactly when that reads back. -/
theorem nodeName_eq_memberName_iff (settings : PatroniSettings) (node : Node)
    : nodeName (some (patroniYml settings node)) = node.memberName.toList
      ↔ ReadsBack node.memberName := by
  rw [nodeName_patroniYml]
  refine ⟨?_, ?_⟩
  · intro same
    refine ⟨?_, ?_⟩
    · intro colon
      rw [← same] at colon
      exact notMem_before ':' _ (List.mem_filter.mp colon).1
    · intro value member
      rw [← same] at member
      simpa using (List.mem_filter.mp member).2
  · intro ⟨colon, blanks⟩
    rw [before_eq_self colon]
    exact List.filter_eq_self.mpr (fun value member => by simp [blanks value member])

-----------------------------------------------------------------------------------------
-- The leader and the exit status
-----------------------------------------------------------------------------------------

/-- Squeezed columns select the same rows, for neither selected text has a space. -/
theorem leaderName_eq (rows : List ListedMember)
    : leaderName rows
      = commandOutput ((runningLeaders (some rows)).map
          (fun row => squeezeSpaces row.member.toList)) := by
  have role (row : ListedMember)
      : squeezeSpaces row.role.toList = "Leader".toList ↔ row.role = "Leader" := by
    rw [squeezeSpaces_eq_iff (by decide), String.toList_inj]
  have state (row : ListedMember)
      : squeezeSpaces row.state.toList = "running".toList ↔ row.state = "running" := by
    rw [squeezeSpaces_eq_iff (by decide), String.toList_inj]
  unfold leaderName runningLeaders
  rw [List.filter_map, List.map_map]
  congr 2
  apply List.filter_congr
  intro row _
  simp only [Function.comp_apply, echoed, role, state]

/-- Without a running leader no script succeeds: the extracted name is not empty there. -/
theorem chkPatroniLeader_ne_zero {output : Option (List ListedMember)}
    (nobody : runningLeaders output = []) (file : Option (List String))
    : chkPatroniLeader file output ≠ 0 := by
  unfold chkPatroniLeader
  cases output with
  | none => simp
  | some rows =>
      have empty : leaderName rows = [] := by simp [leaderName_eq, nobody]
      cases name : nodeName file with
      | nil => simp
      | cons _ _ => simp [empty]

/-- With one running leader a script succeeds exactly when it extracts that name. -/
theorem chkPatroniLeader_eq_zero_iff {output : Option (List ListedMember)}
    {row : ListedMember} (single : runningLeaders output = [row])
    (file : Option (List String))
    : chkPatroniLeader file output = 0
      ↔ nodeName file ≠ [] ∧ nodeName file = squeezeSpaces row.member.toList := by
  have oneLine : '\n' ∉ squeezeSpaces row.member.toList := by
    rw [mem_squeezeSpaces]
    exact row.memberLine
  unfold chkPatroniLeader
  cases output with
  | none => simp [runningLeaders] at single
  | some rows =>
      have leader : leaderName rows = squeezeSpaces row.member.toList := by
        rw [leaderName_eq, single, List.map_singleton, commandOutput_single oneLine]
      cases name : nodeName file with
      | nil => simp
      | cons _ _ => simp [leader]

/-- A node is recognised by its own name exactly when the script finds the created file and
the name reads back.
-/
theorem recognised_iff (settings : PatroniSettings) (resolve : Node → String → File)
    (node : Node)
    : (nodeName (configFile settings resolve node) ≠ []
        ∧ nodeName (configFile settings resolve node)
          = squeezeSpaces node.memberName.toList)
      ↔ resolve node (readPath settings node) = resolve node (createdPath settings node)
        ∧ ReadsBack node.memberName := by
  unfold configFile
  split
  · rename_i found
    rw [← nodeName_eq_memberName_iff settings node]
    refine ⟨?_, ?_⟩
    · intro ⟨_, same⟩
      have spaceless : ' ' ∉ nodeName (some (patroniYml settings node)) := by
        rw [nodeName_patroniYml]
        intro member
        simpa [isBlank] using (List.mem_filter.mp member).2
      exact ⟨found, ((squeezeSpaces_eq_iff spaceless).mp same.symm).symm⟩
    · intro ⟨_, same⟩
      have readsBack := (nodeName_eq_memberName_iff settings node).mp same
      rw [same, squeezeSpaces_eq_self readsBack.space_notMem]
      simpa using node.memberName_ne_empty
  · rename_i missing
    simp [missing, nodeName]

/-- The script follows the leader on every node if and only if each node finds its created
file under the inventory name and its member name has no colon and no blank.
Witness: an output in which the node itself is the running leader.
-/
theorem followsLeader_iff (settings : PatroniSettings) (resolve : Node → String → File)
    (nodes : List Node)
    : FollowsLeader settings resolve nodes
      ↔ ∀ node ∈ nodes,
          resolve node (readPath settings node) = resolve node (createdPath settings node)
          ∧ ReadsBack node.memberName := by
  refine ⟨?_, ?_⟩
  · intro follows node inNodes
    let row : ListedMember := ⟨node.memberName, "Leader", "running", node.memberName_oneLine⟩
    have single : runningLeaders (some [row]) = [row] := by
      simp [runningLeaders, row]
    have succeeds := ((follows (some [row])).1 row single node inNodes).mpr rfl
    exact (recognised_iff settings resolve node).mp
      ((chkPatroniLeader_eq_zero_iff single _).mp succeeds)
  · intro condition output
    refine ⟨?_, ?_⟩
    · intro row single node inNodes
      have recognised := (recognised_iff settings resolve node).mpr (condition node inNodes)
      have spaceless := (condition node inNodes).2.space_notMem
      have name : nodeName (configFile settings resolve node) = node.memberName.toList := by
        rw [recognised.2, squeezeSpaces_eq_self spaceless]
      unfold exitStatus
      rw [chkPatroniLeader_eq_zero_iff single, name, eq_comm, squeezeSpaces_eq_iff spaceless,
        String.toList_inj, eq_comm (a := row.member)]
      refine ⟨And.right, fun same => ⟨?_, same⟩⟩
      simpa using node.memberName_ne_empty
    · intro nobody node _
      exact chkPatroniLeader_ne_zero nobody _

/-- With distinct member names the address has at most one holder while the script follows
the leader.
-/
theorem FollowsLeader.atMostOne {settings : PatroniSettings} {resolve : Node → String → File}
    {nodes : List Node} (follows : FollowsLeader settings resolve nodes)
    (distinct : (nodes.map Node.memberName).Nodup) {output : Option (List ListedMember)}
    {row : ListedMember} (single : runningLeaders output = [row]) {left right : Node}
    (inLeft : left ∈ nodes) (inRight : right ∈ nodes)
    (leftHolds : exitStatus settings resolve output left = 0)
    (rightHolds : exitStatus settings resolve output right = 0)
    : left = right := by
  have status := (follows output).1 row single
  have leftName := (status left inLeft).mp leftHolds
  have rightName := (status right inRight).mp rightHolds
  exact List.inj_on_of_nodup_map distinct inLeft inRight (leftName.trans rightName.symm)

/-- A node named `pg1` beside its inventory name does not recognise itself as the leader. -/
theorem followsLeader_fails_renamed
    : ¬ (∀ (settings : PatroniSettings) (nodes : List Node),
          (nodes.map Node.memberName).Nodup
          → FollowsLeader settings (fun _ path => path) nodes) := by
  intro always
  let settings : PatroniSettings := {
    below := ["", "restapi:", "  listen: 0.0.0.0:8008"]
    unnamed := by decide
  }
  let node : Node := { inventoryHostname := "node1", patroniName := some "pg1" }
  let leader : ListedMember := { member := "pg1", role := "Leader", state := "running" }
  have status := (always settings [node] (by decide) (some [leader])).1 leader (by decide)
    node (by decide)
  exact absurd (status.mpr rfl) (by decide)

end PgCluster.Keepalived
