import PgCluster.Etcd.Variables
import Mathlib.Data.List.Nodup

/-! The membership of an etcd cluster and its discovery by the role.
A peer is what etcd replicates about a member; the listing adds ids and client URLs.
-/

namespace PgCluster.Etcd

/-- A voting member. Its name is empty until the member has started and published it. -/
structure Peer where
  name : String
  peerURLs : List String
deriving DecidableEq, Repr

def Peer.started (peer : Peer) : Bool := peer.name ≠ ""

/-- A member id in the hexadecimal form in which `etcdctl` prints and reads it. -/
@[ext] structure MemberId where
  hex : String
  nonempty : hex ≠ ""
  digits : ∀ value ∈ hex.toList, value ∈ "0123456789abcdef".toList

instance : DecidableEq MemberId :=
  fun left right => decidable_of_iff (left.hex = right.hex) MemberId.ext_iff.symm

/-- One row of `etcdctl member list`. -/
structure Member extends Peer where
  id : MemberId
  clientURLs : List String
  isLearner : Bool
deriving DecidableEq

/-- The status column, which `etcdctl` derives from the name. -/
def Member.status (member : Member) : String :=
  if member.started then "started" else "unstarted"

/-- The printed row: `id, status, name, peerURLs, clientURLs, learner`. -/
def Member.line (member : Member) : String :=
  member.id.hex ++ ", " ++ member.status ++ ", " ++ member.name ++ ", "
    ++ ",".intercalate member.peerURLs ++ ", " ++ ",".intercalate member.clientURLs ++ ", "
    ++ (if member.isLearner then "true" else "false")

/-- A cluster's members, with the distinct ids that etcd gives them. -/
structure MemberList where
  members : List Member
  distinct : (members.map Member.id).Nodup

/-- The id column holds no comma; witness: the hexadecimal digits are not commas. -/
theorem MemberId.comma_notMem (id : MemberId) : ',' ∉ id.hex.toList := by
  intro member
  have digit := id.digits ',' member
  revert digit
  decide

/-- Two members of one list with the same id are the same member. -/
theorem MemberList.eq_of_id {list : MemberList} {left right : Member}
    (inLeft : left ∈ list.members) (inRight : right ∈ list.members)
    (same : left.id = right.id)
    : left = right :=
  List.inj_on_of_nodup_map list.distinct inLeft inRight same

/-- A result of 'Check existing etcd cluster members': the parsed output when the command
returned 0, nothing otherwise.
-/
structure ProbeResult where
  item : Host
  reply : Option (List Member)

/-- The global facts set by 'Parse cluster state' and 'Extract member names'. -/
structure Discovery where
  etcdClusterExists : Bool
  etcdLeader : Option Host
  etcdMemberNames : List String

/-- `members | selectattr('name', 'ne', '') | map(attribute='name')`. -/
def etcdMemberNames (peers : List Peer) : List String :=
  (peers.map Peer.name).filter (· ≠ "")

/-- The facts of one run. Names are defined only for an existing cluster and are read
with `default([])` elsewhere.
-/
def discover (masters : List Host) (results : List ProbeResult) : Discovery :=
  let succeeded := results.filter (·.reply.isSome)
  let etcdClusterExists := succeeded.length > 0
  let etcdClusterInfo := ((succeeded.filterMap ProbeResult.reply).head?).getD []
  {
    etcdClusterExists
    etcdLeader := ((succeeded.map ProbeResult.item).head?).orElse (fun _ => masters.head?)
    etcdMemberNames :=
      if etcdClusterExists then etcdMemberNames (etcdClusterInfo.map Member.toPeer) else []
  }

/-- Discovery succeeds exactly when some probe did. -/
theorem discover_exists_iff (masters : List Host) (results : List ProbeResult)
    : (discover masters results).etcdClusterExists = true
      ↔ ∃ result ∈ results, result.reply.isSome := by
  simp [discover, List.length_pos_iff_exists_mem]

/-- The first answer is the membership that every answer reports, by list cases. -/
theorem head_reply {results : List ProbeResult} {members : List Member}
    (agree : ∀ result ∈ results, ∀ reply, result.reply = some reply → reply = members)
    (answered : ∃ result ∈ results, result.reply.isSome)
    : ((results.filter (·.reply.isSome)).filterMap ProbeResult.reply).head?
      = some members := by
  obtain ⟨result, inResults, isReply⟩ := answered
  cases shape : (results.filter (·.reply.isSome)).filterMap ProbeResult.reply with
  | nil =>
      have absent := List.filterMap_eq_nil_iff.mp shape result (by simp [inResults, isReply])
      simp [absent] at isReply
  | cons first rest =>
      have member : first ∈ (results.filter (·.reply.isSome)).filterMap ProbeResult.reply := by
        simp [shape]
      obtain ⟨source, inFilter, reply⟩ := List.mem_filterMap.mp member
      have same := agree source (List.mem_filter.mp inFilter).1 first reply
      rw [same, List.head?_cons]

/-- When every answer is the same membership, the discovered names are its names; without
an answer there are none. Witness: the head of the successful replies.
-/
theorem discover_names {masters : List Host} {results : List ProbeResult}
    {members : List Member}
    (agree : ∀ result ∈ results, ∀ reply, result.reply = some reply → reply = members)
    : (discover masters results).etcdMemberNames
      = if (discover masters results).etcdClusterExists then
          etcdMemberNames (members.map Member.toPeer)
        else [] := by
  cases found : (discover masters results).etcdClusterExists with
  | true =>
      have answered := (discover_exists_iff masters results).mp found
      have flag : (results.filter (·.reply.isSome)).length > 0 := by
        simpa [discover] using found
      simp only [discover, flag, head_reply agree answered, decide_true, if_true,
        Option.getD_some]
  | false =>
      have flag : ¬ (results.filter (·.reply.isSome)).length > 0 := by
        simpa only [discover, decide_eq_false_iff_not] using found
      simp only [discover, flag, decide_false, Bool.false_eq_true, if_false]

end PgCluster.Etcd
