import PgCluster.Etcd.MembershipPlan
import PgCluster.Foundation.BasicRegex
import PgCluster.Foundation.Selections
import PgCluster.Foundation.TextTools

/-! The removal tasks of `cluster_manage.yml`, from the listing to the removed members.
Each planned name is turned back into ids by searching whole rows of the listing, and the
rows that it finds become the lines of the removal script.
-/

namespace PgCluster.Etcd

open Foundation

-----------------------------------------------------------------------------------------
-- The listing pipeline and the removal script
-----------------------------------------------------------------------------------------

/-- Text that the shell leaves unchanged between double quotes, that is no option of grep
and that has no bracket expression or backslash.
-/
def PlainPattern (pattern : String) : Prop :=
  pattern.toList.head? ≠ some '-'
  ∧ ∀ value ∈ pattern.toList, value ∉ "\"$`\\[\n".toList

/-- The line filter `grep "pattern"` of the shell. Plain patterns are searched as basic
regular expressions; nothing is assumed about other patterns.
-/
structure Grep where
  selects : String → String → Bool
  selects_plain
    : ∀ pattern line,
        PlainPattern pattern
        → selects pattern line = (BasicRegex.read pattern.toList).search line.toList

/-- The filter that searches every pattern as a basic regular expression. -/
def Grep.basic : Grep where
  selects pattern line := (BasicRegex.read pattern.toList).search line.toList
  selects_plain := fun _ _ _ => rfl

/-- The rows printed by the `member list` of each loop item, in any order. -/
structure Listings (list : MemberList) where
  rows : String → List Member
  permuted : ∀ item, (rows item).Perm list.members

/-- The same rows in the order of the list for every item. -/
def Listings.inOrder (list : MemberList) : Listings list := ⟨fun _ => list.members, fun _ => .rfl⟩

/-- A registered result of 'Get member HEX IDs for removal'. -/
structure HexIdResult where
  item : String
  stdoutLines : List String
  rc : Nat
deriving DecidableEq, Repr

/-- `member list | grep "item" | cut -d',' -f1` under `pipefail`. -/
def getMemberHexIds (grep : Grep) (rows : List Member) (item : String) : HexIdResult :=
  let found := (rows.map Member.line).filter (grep.selects item)
  {
    item
    stdoutLines := found.map (fun line => String.ofList (cutField ',' 1 line.toList))
    rc := if found.isEmpty then 1 else 0
  }

/-- A line of the rendered removal script, run by the shell as its own command. -/
inductive ScriptLine where
  | memberRemove (argument : String)
  | other (command : String)
deriving DecidableEq, Repr

/-- `member remove {{ item.stdout }}`: only the first output line follows the command. -/
def removalScript (result : HexIdResult) : List ScriptLine :=
  match result.stdoutLines with
  | [] => []
  | first :: rest => .memberRemove first :: rest.map .other

/-- A removal takes away the member with the printed id; other lines name no command that
changes the membership.
-/
def ScriptLine.run (members : List Member) : ScriptLine → List Member
  | .memberRemove argument => members.filter (fun member => member.id.hex ≠ argument)
  | .other _ => members

/-- Both tasks over the planned names. A name without a found row fails the first task,
which ends the play; the removal loop goes on over failing items.
-/
def removeMembers (grep : Grep) {list : MemberList} (listings : Listings list)
    (items : List String)
    : List Member :=
  let results := items.map (fun item => getMemberHexIds grep (listings.rows item) item)
  if results.any (fun result => result.rc ≠ 0) then list.members
  else
    let selected := results.filter (fun result => !result.stdoutLines.isEmpty && result.rc = 0)
    (selected.flatMap removalScript).foldl ScriptLine.run list.members

-----------------------------------------------------------------------------------------
-- What the pipeline selects
-----------------------------------------------------------------------------------------

/-- The member of the first row that a planned name finds. -/
def firstFound (grep : Grep) {list : MemberList} (listings : Listings list) (item : String)
    : Option Member :=
  (listings.rows item).find? (fun member => grep.selects item member.line)

/-- The first column of a row is its id, since ids hold no comma. -/
theorem cutField_line (member : Member)
    : String.ofList (cutField ',' 1 member.line.toList) = member.id.hex := by
  have columns : ∃ rest, member.line.toList = member.id.hex.toList ++ ',' :: rest := by
    simp [Member.line, String.append_assoc]
  obtain ⟨rest, split⟩ := columns
  rw [split, cutField_one_append member.id.comma_notMem, String.ofList_toList]

theorem getMemberHexIds_stdoutLines (grep : Grep) (rows : List Member) (item : String)
    : (getMemberHexIds grep rows item).stdoutLines
      = (rows.filter (fun member => grep.selects item member.line)).map
          (fun member => member.id.hex) := by
  simp [getMemberHexIds, List.filter_map, Function.comp_def, cutField_line]

/-- The script removes by id exactly the first found member. -/
theorem memberRemove_mem_removalScript {grep : Grep} {list : MemberList}
    {listings : Listings list} {item argument : String}
    : .memberRemove argument
        ∈ removalScript (getMemberHexIds grep (listings.rows item) item)
      ↔ ∃ member, firstFound grep listings item = some member ∧ member.id.hex = argument := by
  unfold removalScript firstFound
  rw [getMemberHexIds_stdoutLines, ← List.head?_filter]
  cases (listings.rows item).filter (fun member => grep.selects item member.line) with
  | nil => simp
  | cons first rest => simp [eq_comm]

/-- A result is empty and fails exactly when the name finds no row. -/
theorem getMemberHexIds_failed_iff {grep : Grep} {list : MemberList}
    {listings : Listings list} {item : String}
    : ((getMemberHexIds grep (listings.rows item) item).rc ≠ 0
        ↔ firstFound grep listings item = none)
      ∧ ((getMemberHexIds grep (listings.rows item) item).stdoutLines.isEmpty = true
        ↔ firstFound grep listings item = none) := by
  unfold firstFound
  rw [← List.head?_filter, List.head?_eq_none_iff, getMemberHexIds_stdoutLines]
  simp [getMemberHexIds, List.filter_map, Function.comp_def]

/-- Running a script filters by the ids of its removal lines, by induction on the lines. -/
theorem foldl_run_eq_filter (members : List Member) (lines : List ScriptLine)
    : lines.foldl ScriptLine.run members
      = members.filter (fun member => .memberRemove member.id.hex ∉ lines) := by
  induction lines generalizing members with
  | nil => simp
  | cons line rest ih =>
      rw [List.foldl_cons, ih]
      cases line with
      | memberRemove argument =>
          rw [ScriptLine.run, List.filter_filter]
          apply List.filter_congr
          intro member _
          simp [Bool.and_comm]
      | other command => simp [ScriptLine.run]

/-- A found member belongs to the cluster, in whatever order the rows came. -/
theorem firstFound_mem {grep : Grep} {list : MemberList} {listings : Listings list}
    {item : String} {member : Member} (found : firstFound grep listings item = some member)
    : member ∈ list.members :=
  (listings.permuted item).mem_iff.mp (List.mem_of_find?_eq_some found)

/-- Among members of the list, the script names the id of a member exactly when that
member is the first found one. Witness: distinct ids.
-/
theorem memberRemove_id_mem_iff {grep : Grep} {list : MemberList}
    {listings : Listings list} {item : String} {member : Member}
    (listed : member ∈ list.members)
    : .memberRemove member.id.hex
        ∈ removalScript (getMemberHexIds grep (listings.rows item) item)
      ↔ firstFound grep listings item = some member := by
  rw [memberRemove_mem_removalScript]
  constructor
  · intro ⟨first, isFirst, sameId⟩
    have equal := list.eq_of_id (firstFound_mem isFirst) listed (MemberId.ext sameId)
    exact equal ▸ isFirst
  · intro isFirst
    exact ⟨member, isFirst, rfl⟩

/-- A planned name without a row leaves the membership as it is. -/
theorem removeMembers_of_notFound {grep : Grep} {list : MemberList}
    {listings : Listings list} {items : List String} {item : String}
    (planned : item ∈ items) (absent : firstFound grep listings item = none)
    : removeMembers grep listings items = list.members := by
  have failed
      : (items.map (fun item => getMemberHexIds grep (listings.rows item) item)).any
          (fun result => result.rc ≠ 0) = true := by
    apply List.any_eq_true.mpr
    refine ⟨_, List.mem_map_of_mem planned, ?_⟩
    exact decide_eq_true (getMemberHexIds_failed_iff.1.mpr absent)
  unfold removeMembers
  rw [if_pos failed]

/-- When every planned name finds a row, the members that remain are those that are not
the first found one of any planned name.
-/
theorem removeMembers_eq_filter {grep : Grep} {list : MemberList}
    {listings : Listings list} {items : List String}
    (found : ∀ item ∈ items, firstFound grep listings item ≠ none)
    : removeMembers grep listings items
      = list.members.filter
          (fun member => ∀ item ∈ items, firstFound grep listings item ≠ some member) := by
  let results := items.map (fun item => getMemberHexIds grep (listings.rows item) item)
  have good
      : ∀ result ∈ results, (!result.stdoutLines.isEmpty && result.rc = 0) = true := by
    intro result inResults
    obtain ⟨item, inItems, rfl⟩ := List.mem_map.mp inResults
    have lines := mt getMemberHexIds_failed_iff.2.mp (found item inItems)
    have code := mt getMemberHexIds_failed_iff.1.mp (found item inItems)
    simpa using ⟨by simpa using lines, not_not.mp code⟩
  have succeeded : ¬ results.any (fun result => result.rc ≠ 0) = true := by
    intro failed
    obtain ⟨result, inResults, code⟩ := List.any_eq_true.mp failed
    have ok := good result inResults
    simp_all
  have unfolded
      : removeMembers grep listings items
        = (results.flatMap removalScript).foldl ScriptLine.run list.members := by
    unfold removeMembers
    rw [if_neg succeeded]
    exact congrArg (fun selected => (selected.flatMap removalScript).foldl ScriptLine.run
      list.members) (List.filter_eq_self.mpr good)
  rw [unfolded, foldl_run_eq_filter]
  apply List.filter_congr
  intro member listed
  simp only [results, List.mem_flatMap, List.mem_map, exists_exists_and_eq_and,
    memberRemove_id_mem_iff listed, not_exists, not_and, ne_eq]

theorem mem_removeMembers {grep : Grep} {list : MemberList} {listings : Listings list}
    {items : List String} (found : ∀ item ∈ items, firstFound grep listings item ≠ none)
    {member : Member} (listed : member ∈ list.members)
    : member ∈ removeMembers grep listings items
      ↔ ∀ item ∈ items, firstFound grep listings item ≠ some member := by
  simp [removeMembers_eq_filter found, listed]

-----------------------------------------------------------------------------------------
-- When the removed members are the planned ones
-----------------------------------------------------------------------------------------

/-- The planned names of the discovered cluster. -/
def plannedRemovals (masters : List Host) (list : MemberList) : List String :=
  etcdNodesToRemove masters (etcdMemberNames (list.members.map Member.toPeer))

/-- The tasks remove exactly the members with a planned name, and therefore no member
whose node is in the inventory.
-/
def RemovesExactlyPlanned (grep : Grep) {list : MemberList} (listings : Listings list)
    (masters : List Host)
    : Prop :=
  (∀ member ∈ list.members,
    member ∉ removeMembers grep listings (plannedRemovals masters list)
      ↔ member.name ∈ plannedRemovals masters list)
  ∧ ∀ member ∈ list.members,
      member.name ∈ masters.map Host.unifiedHostname
      → member ∈ removeMembers grep listings (plannedRemovals masters list)

/-- Every planned name finds a planned member first, no two planned names find the same
one first, and no planned name belongs to two members.
-/
structure PlannedHits (grep : Grep) {list : MemberList} (listings : Listings list)
    (items : List String)
    : Prop where
  planned
    : ∀ item ∈ items,
        ∃ member, firstFound grep listings item = some member ∧ member.name ∈ items
  separate
    : ∀ left ∈ items,
        ∀ right ∈ items,
          firstFound grep listings left = firstFound grep listings right → left = right
  unique
    : ∀ left ∈ list.members,
        ∀ right ∈ list.members, left.name ∈ items → left.name = right.name → left = right

/-- A planned name is the name of some member, by the source of the difference. -/
theorem plannedRemovals_named {masters : List Host} {list : MemberList} {item : String}
    (planned : item ∈ plannedRemovals masters list)
    : ∃ member ∈ list.members, member.name = item := by
  have listed := (List.mem_filter.mp (mem_difference.mp planned).1).1
  simpa using listed

/-- The members with one of the given names. -/
def MemberList.named (list : MemberList) (items : List String) : Finset Member :=
  (list.members.filter (fun member => member.name ∈ items)).toFinset

theorem MemberList.mem_named {list : MemberList} {items : List String} {member : Member}
    : member ∈ list.named items ↔ member ∈ list.members ∧ member.name ∈ items := by
  simp [MemberList.named]

/-- Names that all belong to members are the labels of those members. -/
theorem MemberList.image_named {list : MemberList} {items : List String}
    (named : ∀ item ∈ items, ∃ member ∈ list.members, member.name = item)
    : (list.named items).image (fun member => member.name) = items.toFinset := by
  ext item
  simp only [Finset.mem_image, MemberList.mem_named, List.mem_toFinset]
  constructor
  · intro ⟨member, ⟨_, planned⟩, same⟩
    exact same ▸ planned
  · intro planned
    obtain ⟨member, listed, same⟩ := named item planned
    exact ⟨member, ⟨listed, same ▸ planned⟩, same⟩

/-- The conditions on the planned names are those on a choice of labelled members. -/
theorem plannedHits_iff {grep : Grep} {list : MemberList} {listings : Listings list}
    {items : List String}
    : PlannedHits grep listings items
      ↔ (∀ item ∈ items.toFinset,
            ∃ member ∈ list.named items, firstFound grep listings item = some member)
        ∧ Set.InjOn (firstFound grep listings) items.toFinset
        ∧ Set.InjOn (fun member : Member => member.name) (list.named items) := by
  constructor
  · intro hits
    refine ⟨?_, ?_, ?_⟩
    · intro item inItems
      obtain ⟨member, found, planned⟩ := hits.planned item (List.mem_toFinset.mp inItems)
      exact ⟨member, MemberList.mem_named.mpr ⟨firstFound_mem found, planned⟩, found⟩
    · intro left inLeft right inRight same
      exact hits.separate left (List.mem_toFinset.mp inLeft) right
        (List.mem_toFinset.mp inRight) same
    · intro left inLeft right inRight same
      obtain ⟨listedLeft, planned⟩ := MemberList.mem_named.mp inLeft
      obtain ⟨listedRight, _⟩ := MemberList.mem_named.mp inRight
      exact hits.unique left listedLeft right listedRight planned same
  · intro ⟨inside, separate, unique⟩
    refine ⟨?_, ?_, ?_⟩
    · intro item planned
      obtain ⟨member, isNamed, found⟩ := inside item (List.mem_toFinset.mpr planned)
      exact ⟨member, found, (MemberList.mem_named.mp isNamed).2⟩
    · intro left inLeft right inRight same
      exact separate (List.mem_toFinset.mpr inLeft) (List.mem_toFinset.mpr inRight) same
    · intro left listedLeft right listedRight planned same
      exact unique (MemberList.mem_named.mpr ⟨listedLeft, planned⟩)
        (MemberList.mem_named.mpr ⟨listedRight, same ▸ planned⟩) same

/-- First finds cover the planned members exactly under the three conditions. Witness: the
counting of choices and labels, as every find is a member.
-/
theorem firstFound_exact_iff {grep : Grep} {list : MemberList} {listings : Listings list}
    {items : List String} (named : ∀ item ∈ items, ∃ member ∈ list.members, member.name = item)
    : ((∀ item ∈ items, firstFound grep listings item ≠ none)
        ∧ ∀ member ∈ list.members,
            (∃ item ∈ items, firstFound grep listings item = some member)
            ↔ member.name ∈ items)
      ↔ PlannedHits grep listings items := by
  have labels := MemberList.image_named named
  rw [plannedHits_iff, ← choice_exact_iff labels (firstFound grep listings)]
  simp only [List.mem_toFinset, MemberList.mem_named]
  apply and_congr_right
  intro _
  apply forall_congr'
  intro member
  constructor
  · intro exact
    constructor
    · intro ⟨item, inItems, found⟩
      have listed := firstFound_mem found
      exact ⟨listed, (exact listed).mp ⟨item, inItems, found⟩⟩
    · intro ⟨listed, planned⟩
      exact (exact listed).mpr planned
  · intro exact listed
    simpa only [listed, true_and] using exact

/-- The tasks remove exactly the planned members if and only if the planned names hit them.
Witness: a name without a row ends the play; otherwise the first finds are what is removed.
-/
theorem removeMembers_exact_iff (grep : Grep) {list : MemberList} (listings : Listings list)
    (masters : List Host)
    : RemovesExactlyPlanned grep listings masters
      ↔ PlannedHits grep listings (plannedRemovals masters list) := by
  have named : ∀ item ∈ plannedRemovals masters list,
      ∃ member ∈ list.members, member.name = item := fun _ => plannedRemovals_named
  rw [← firstFound_exact_iff named]
  unfold RemovesExactlyPlanned
  constructor
  · intro ⟨exact, _⟩
    have found : ∀ item ∈ plannedRemovals masters list,
        firstFound grep listings item ≠ none := by
      intro item planned absent
      obtain ⟨member, listed, same⟩ := named item planned
      have removed := (exact member listed).mpr (same ▸ planned)
      rw [removeMembers_of_notFound planned absent] at removed
      exact removed listed
    refine ⟨found, ?_⟩
    intro member listed
    rw [← exact member listed, mem_removeMembers found listed]
    simp
  · intro ⟨found, exact⟩
    have removed : ∀ member ∈ list.members,
        member ∉ removeMembers grep listings (plannedRemovals masters list)
          ↔ member.name ∈ plannedRemovals masters list := by
      intro member listed
      rw [← exact member listed, mem_removeMembers found listed]
      simp
    refine ⟨removed, ?_⟩
    intro member listed inventory
    by_contra gone
    exact (mem_difference.mp ((removed member listed).mp gone)).2 inventory

/-- Removing `node1` from a cluster whose listing starts with `node10` removes `node10`,
which the inventory keeps.
-/
theorem removeMembers_hits_prefix
    : ¬ (∀ (grep : Grep) (list : MemberList) (listings : Listings list)
          (masters : List Host),
          RemovesExactlyPlanned grep listings masters) := by
  intro always
  let kept : Member :=
    ⟨⟨"node10", ["https://10.0.0.10:2380"]⟩, ⟨"1a", by decide, by simp⟩,
      ["https://10.0.0.10:2379"], false⟩
  let leaving : Member :=
    ⟨⟨"node1", ["https://10.0.0.1:2380"]⟩, ⟨"2b", by decide, by simp⟩,
      ["https://10.0.0.1:2379"], false⟩
  have exact := always .basic ⟨[kept, leaving], by decide⟩ (.inOrder _)
    [.withAddress "node10" "10.0.0.10"]
  have keeps := exact.2 kept (by decide) (by decide)
  exact absurd keeps (by decide)

-----------------------------------------------------------------------------------------
-- Host names, and runs without a failing command
-----------------------------------------------------------------------------------------

/-- A planned name without shell, bracket, star or anchor characters; dots stay wildcards. -/
def HostPattern (name : String) : Prop := PlainPattern name ∧ Unrepeated name.toList

/-- A host name finds the row of its own member, inside the name column. -/
theorem HostPattern.selects_own {name : String} (host : HostPattern name) (grep : Grep)
    {member : Member} (same : member.name = name)
    : grep.selects name member.line = true := by
  obtain ⟨before, after, split⟩
      : ∃ before after, member.line.toList = before ++ (name.toList ++ after) := by
    refine ⟨(member.id.hex ++ ", " ++ member.status ++ ", ").toList,
      (", " ++ ",".intercalate member.peerURLs ++ ", " ++ ",".intercalate member.clientURLs
        ++ ", " ++ (if member.isLearner then "true" else "false")).toList, ?_⟩
    simp only [Member.line, same, String.toList_append, List.append_assoc]
  rw [grep.selects_plain name member.line host.1, split]
  exact search_read_self host.2 before after

/-- Host names that are found in no other member's row hit exactly the planned members. -/
theorem PlannedHits.of_separate {grep : Grep} {list : MemberList}
    {listings : Listings list} {items : List String}
    (named : ∀ item ∈ items, ∃ member ∈ list.members, member.name = item)
    (hosts : ∀ item ∈ items, HostPattern item)
    (own
      : ∀ item ∈ items,
          ∀ member ∈ list.members, grep.selects item member.line = true → member.name = item)
    (unique
      : ∀ left ∈ list.members,
          ∀ right ∈ list.members, left.name ∈ items → left.name = right.name → left = right)
    : PlannedHits grep listings items := by
  have first
      : ∀ item ∈ items,
          ∃ member, firstFound grep listings item = some member ∧ member.name = item := by
    intro item planned
    obtain ⟨member, listed, same⟩ := named item planned
    have inRows := (listings.permuted item).mem_iff.mpr listed
    cases found : firstFound grep listings item with
    | none =>
        have missed := List.find?_eq_none.mp found member inRows
        exact absurd ((hosts item planned).selects_own grep same) missed
    | some hit =>
        have selected : grep.selects item hit.line = true := by
          simpa using List.find?_some found
        exact ⟨hit, rfl, own item planned hit (firstFound_mem found) selected⟩
  refine ⟨?_, ?_, unique⟩
  · intro item planned
    obtain ⟨member, found, same⟩ := first item planned
    exact ⟨member, found, same ▸ planned⟩
  · intro left inLeft right inRight equal
    obtain ⟨leftHit, leftFound, leftName⟩ := first left inLeft
    obtain ⟨rightHit, rightFound, rightName⟩ := first right inRight
    rw [leftFound, rightFound, Option.some.injEq] at equal
    rw [← leftName, ← rightName, equal]

/-- Each removal script is a single command, the only kind that can succeed as a whole. -/
def RemovalCompleted (grep : Grep) {list : MemberList} (listings : Listings list)
    (items : List String)
    : Prop :=
  ∀ item ∈ items,
    ((listings.rows item).filter (fun member => grep.selects item member.line)).length = 1

/-- In a completed run a host name finds the row of its own member and no other row. -/
theorem RemovalCompleted.own {grep : Grep} {list : MemberList} {listings : Listings list}
    {items : List String} (completed : RemovalCompleted grep listings items)
    (hosts : ∀ item ∈ items, HostPattern item) {item : String} (planned : item ∈ items)
    {member : Member} (listed : member ∈ list.members)
    (selected : grep.selects item member.line = true)
    : ∀ other ∈ list.members, other.name = item → other = member := by
  intro other inList same
  obtain ⟨only, single⟩ := List.length_eq_one_iff.mp (completed item planned)
  have selects {found : Member} (inMembers : found ∈ list.members)
      (chosen : grep.selects item found.line = true) : found = only := by
    have inRows := (listings.permuted item).mem_iff.mpr inMembers
    exact List.mem_singleton.mp (single ▸ List.mem_filter.mpr ⟨inRows, chosen⟩)
  rw [selects inList ((hosts item planned).selects_own grep same), selects listed selected]

/-- A completed removal of host names refines the removals of the plan. Witness: single
rows make every find exact, so both keep the members without a planned name.
-/
theorem RemovalCompleted.refinesPlan {grep : Grep} {list : MemberList}
    {listings : Listings list} {masters : List Host}
    (completed : RemovalCompleted grep listings (plannedRemovals masters list))
    (hosts : ∀ item ∈ plannedRemovals masters list, HostPattern item)
    : (removeMembers grep listings (plannedRemovals masters list)).map Member.toPeer
      = runPlan (list.members.map Member.toPeer)
          ((plannedRemovals masters list).map .memberRemove) := by
  have named : ∀ item ∈ plannedRemovals masters list,
      ∃ member ∈ list.members, member.name = item := fun _ => plannedRemovals_named
  have hits : PlannedHits grep listings (plannedRemovals masters list) := by
    apply PlannedHits.of_separate named hosts
    · intro item planned member listed selected
      obtain ⟨owner, inList, same⟩ := named item planned
      have equal := completed.own hosts planned listed selected owner inList same
      rw [← equal, same]
    · intro left inLeft right inRight planned same
      have selected := (hosts _ planned).selects_own grep (rfl : left.name = left.name)
      exact (completed.own hosts planned inLeft selected right inRight same.symm).symm
  obtain ⟨found, exact⟩ := (firstFound_exact_iff named).mpr hits
  rw [removeMembers_eq_filter found, runPlan_removes, List.filter_map]
  congr 1
  apply List.filter_congr
  intro member listed
  rw [Bool.eq_iff_iff, decide_eq_true_iff, Function.comp_apply, decide_eq_true_iff,
    ← exact member listed]
  simp

end PgCluster.Etcd
