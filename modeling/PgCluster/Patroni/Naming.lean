import Mathlib.Data.List.Basic

/-! The names of a Patroni node and the rows of `patronictl list`.
The roles spell the node sometimes by its inventory name and sometimes by `patroni_name`.
-/

namespace PgCluster.Patroni

/-- A host with its optional `patroni_name`; both names are single lines. -/
structure Node where
  inventoryHostname : String
  patroniName : Option String := none
  nonempty : inventoryHostname ≠ "" := by decide
  inventoryLine : '\n' ∉ inventoryHostname.toList := by decide
  patroniLine : ∀ name ∈ patroniName, '\n' ∉ name.toList := by decide
deriving DecidableEq

/-- `patroni_name | default(inventory_hostname)`: replaces an undefined name only. -/
def Node.configName (node : Node) : String := node.patroniName.getD node.inventoryHostname

/-- `patroni_name | d(inventory_hostname, true)`: also replaces an empty name. -/
def Node.memberName (node : Node) : String :=
  if node.patroniName.getD "" = "" then node.inventoryHostname
  else node.patroniName.getD ""

/-- A row of `patronictl list -f json`, with the columns that the roles read. -/
structure ListedMember where
  member : String
  role : String
  state : String
  memberLine : '\n' ∉ member.toList := by decide
deriving DecidableEq

theorem Node.memberName_ne_empty (node : Node) : node.memberName ≠ "" := by
  unfold Node.memberName
  split
  · exact node.nonempty
  · assumption

theorem Node.memberName_oneLine (node : Node) : '\n' ∉ node.memberName.toList := by
  unfold Node.memberName
  split
  · exact node.inventoryLine
  · cases named : node.patroniName with
    | none => simp
    | some name => exact node.patroniLine name named

end PgCluster.Patroni
