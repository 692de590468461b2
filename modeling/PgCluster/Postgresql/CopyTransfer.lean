import PgCluster.Postgresql.CopyManager

/-! COPY from one wire to many receivers: what the producer publishes goes through the manager,
and leaving the manager puts the receivers that are left between messages.
-/

namespace PgCluster.Postgresql

open Foundation

namespace ProtocolProducer

/-- What the manager gets from the producer, with the totals before and after. -/
def production (before after : ProtocolProducer) (view : Bytes) : Production :=
  .data (.view view) (after.totalMessages - before.totalMessages)
    (after.totalBytes - before.totalBytes)

def receiveProductions (producer : ProtocolProducer) : List Bytes → List Production
  | [] => []
  | read :: reads =>
      match producer.next read with
      | (after, .view view) => production producer after view :: after.receiveProductions reads
      | _ => []

def copiedProductions (first : Bytes) (reads : List Bytes) : List Production :=
  match trackState .init first with
  | (after, .view view) => production .init after view :: after.receiveProductions reads
  | _ => []

theorem wireOf_receiveProductions (producer : ProtocolProducer) (reads : List Bytes)
    : CopyManager.wireOf (producer.receiveProductions reads) = (producer.receive reads).2.flatten
      := by
  induction reads generalizing producer with
  | nil => rfl
  | cons read reads ih =>
      rw [receiveProductions, receive]
      rcases producer.next read with ⟨after, produced⟩
      cases produced with
      | view view =>
          dsimp only
          rw [List.flatten_cons, ← ih]
          rfl
      | _ => rfl

theorem wireOf_copiedProductions (first : Bytes) (reads : List Bytes)
    : CopyManager.wireOf (copiedProductions first reads) = (copied first reads).2.flatten := by
  rw [copiedProductions, copied]
  rcases trackState .init first with ⟨after, produced⟩
  cases produced with
  | view view =>
      dsimp only
      rw [List.flatten_cons, ← wireOf_receiveProductions]
      rfl
  | _ => rfl

/-- What is published is COPY data as far as it goes. -/
theorem Tracks.published {received published : Bytes} {producer : ProtocolProducer}
    (tracks : Tracks received producer published)
    : (wireStream.run .between published).1.isEnded = false
      ∧ (wireStream.run .between published).1.Reached := by
  cases tracks with
  | going run going reached =>
      rw [run]
      exact ⟨going, reached⟩
  | ended run ends whole =>
      rw [run]
      exact ⟨rfl, StreamPlace.between_reached⟩

theorem Tracks.totalMessages {received published : Bytes} {producer : ProtocolProducer}
    (tracks : Tracks received producer published)
    : producer.totalMessages = (wireStream.run .between published).2 := by
  cases tracks with
  | going run going reached => rw [run]
  | ended run ends whole => rw [run]

/-- A begun message is not read. -/
theorem drain_incomplete {place : StreamPlace} (going : place.isEnded = false)
    (reached : place.Reached) {begun : Bytes} (begins : wireStream.Begun begun place)
    : framing.drain begun = ⟨[], begun, none⟩ := by
  cases place with
  | between =>
      obtain rfl : begun = [] := begins
      exact drain_nil
  | header fragment =>
      obtain ⟨typ, -, rfl⟩ := begins
      have few : fragment.length < 4 := reached
      have short : (typ :: fragment).length < 5 := Nat.succ_lt_succ few
      have read := readMessage_short short
      rw [← framing_read] at read
      exact Framing.drain_incomplete read
  | body remaining =>
      obtain ⟨typ, head, -, -, fits, rfl⟩ := begins
      have some : 0 < remaining := reached
      have read := readMessage_header (Nat.le_add_left 4 (head.length + remaining)) fits typ head
      rw [Nat.add_sub_cancel, if_pos (Nat.lt_add_of_pos_right some), ← framing_read] at read
      exact Framing.drain_incomplete read
  | ended view => exact absurd going Bool.noConfusion
  | invalid => exact absurd reached not_false

theorem Reached.valid {place : StreamPlace} (reached : place.Reached) : place ≠ .invalid := by
  rintro rfl
  exact reached

/-- The messages of COPY data that goes on. -/
theorem drain_going {wire : Bytes} (going : (wireStream.run .between wire).1.isEnded = false)
    (reached : (wireStream.run .between wire).1.Reached)
    : (framing.drain wire).messages.length = (wireStream.run .between wire).2
      ∧ (framing.drain wire).error = none := by
  obtain ⟨messages, begun, whole, count, begins, same⟩ := exists_begun (Reached.valid reached)
  have incomplete := drain_incomplete going reached begins
  have reads (message : Message) (member : message ∈ messages) (more : Bytes)
      : framing.read (message.bytes ++ more) = .message message more :=
    readMessage_bytes (whole message member).2 more
  rw [← count, same, Framing.drain_encoded framing reads, incomplete, List.append_nil]
  exact ⟨rfl, rfl⟩

/-- A view of less than 2^32 bytes is taken by every transformer. -/
theorem Tracks.fits {received published view more : Bytes} {producer after : ProtocolProducer}
    (before : Tracks received producer published)
    (tracks : Tracks more after (published ++ view)) (small : view.length < 2 ^ 32)
    : Fits .pqv3 published (.view view) := by
  obtain ⟨going, reached⟩ := before.published
  obtain ⟨going', reached'⟩ := tracks.published
  obtain ⟨count, -⟩ := drain_going going reached
  obtain ⟨count', valid⟩ := drain_going going' reached'
  refine ⟨valid, ?_⟩
  rw [count, count', SizedStream.run_append]
  have less := @SizedStream.run_count_le wireStream (wireStream.run .between published).1 view
  exact Nat.add_le_add_left (Nat.le_trans less (Nat.le_sub_one_of_lt small)) _

/-- By induction on the reads. -/
theorem receiveProductions_sendable {reads : List Bytes} {producer : ProtocolProducer}
    {received published : Bytes} (tracks : Tracks received producer published)
    (receives : Receives received reads) (small : ∀ read ∈ reads, read.length < 2 ^ 32)
    : Sendable .pqv3 published (producer.receiveProductions reads) := by
  induction reads generalizing producer received published with
  | nil => trivial
  | cons read rest ih =>
      obtain ⟨going, valid, receives'⟩ := receives.cons
      obtain ⟨after, view, next, front, tracks'⟩ :=
        next_tracks tracks (receives.filled read List.mem_cons_self) going valid
      have less := Nat.lt_of_le_of_lt front.length_le (small read List.mem_cons_self)
      rw [receiveProductions, next]
      exact ⟨tracks.fits tracks' less, ih tracks' receives'
        (fun other member => small other (List.mem_cons_of_mem _ member))⟩

theorem copiedProductions_sendable {first : Bytes} {reads : List Bytes}
    (receives : Receives first reads) (small : ∀ read ∈ first :: reads, read.length < 2 ^ 32)
    : Sendable .pqv3 [] (copiedProductions first reads) := by
  obtain ⟨producer, view, tracked, front, tracks⟩ :=
    trackState_tracks (valid_front receives.valid)
  have less := Nat.lt_of_le_of_lt front.length_le (small first List.mem_cons_self)
  have nothing : Tracks [] ⟨0, 0, some (.ofPlace .between), .recvView, []⟩ [] :=
    .going (SizedStream.run_nil _) rfl StreamPlace.between_reached
  rw [copiedProductions, tracked]
  exact ⟨nothing.fits tracks less, receiveProductions_sendable tracks receives
    (fun other member => small other (List.mem_cons_of_mem _ member))⟩

end ProtocolProducer

namespace CopyManager

/-- Leaving the manager, as far as the receivers: what the realigned producer still gives is
accepted, and not transmitted any more.
-/
def exited (manager : CopyManager) (realigned : ProtocolProducer) : CopyManager :=
  {
    manager with
    producer := realigned.nextchunk.chunks.map (fun chunk => .data (.view chunk) 0 0)
  }.serviceProducer.1

/-- The receivers have what completes the last message, too. -/
theorem exited_has {wire : Bytes} {manager : CopyManager} (serves : manager.Serves .pqv3 wire)
    {realigned : ProtocolProducer} (once : realigned.nextchunk.chunks.length ≤ 1)
    {messages : List Message} (whole : ∀ message ∈ messages, IsCopyData message)
    (few
      : messages.length
        ≤ (framing.drain wire).messages.length + PqMessageStream.numDefault)
    (completed
      : wire ++ realigned.nextchunk.chunks.flatten = messages.flatMap Message.bytes)
    : ∀ receiver ∈ (manager.exited realigned).receivers,
        ((manager.exited realigned).objects receiver).Has (messages.flatMap Message.bytes) := by
  intro receiver member
  by_cases none : manager.receivers = []
  · rw [exited, serviceProducer, if_pos none] at member
    dsimp only at member
    rw [none] at member
    exact absurd member List.not_mem_nil
  unfold exited at member ⊢
  cases chunks : realigned.nextchunk.chunks with
  | nil =>
      rw [chunks, List.flatten_nil, List.append_nil] at completed
      simp only [chunks, List.map_nil, serviceProducer, if_neg none] at member ⊢
      rw [← completed]
      exact serves.receivers receiver member
  | cons chunk more =>
      obtain rfl : more = [] := by
        rw [chunks] at once
        exact List.eq_nil_of_length_eq_zero (Nat.le_zero.mp (Nat.le_of_succ_le_succ once))
      rw [chunks, List.flatten_singleton] at completed
      have fits : Fits .pqv3 wire (.view chunk) := by
        have drained := drain_flatMap_bytes (fun message member => (whole message member).2)
        rw [← completed] at drained
        rw [Fits, drained]
        exact ⟨rfl, few⟩
      obtain ⟨served, produced, -, -, loaded⟩ :=
        serviceProducer_data
          (serves.moved [.data (.view chunk) 0 0] manager.seenStopIteration manager.stats)
          none rfl fits
      simp only [chunks, List.map_cons, List.map_nil, produced] at member ⊢
      rw [← completed]
      exact loaded.receivers receiver member

end CopyManager

/-- The manager behind the calls, for COPY from a wire. -/
def transferred (first : Bytes) (reads : List Bytes) (objects : Nat → Receiver)
    (receivers : List Nat) (calls : List CopyCall)
    : CopyManager :=
  let object :=
    copyManager .pqv3 (ProtocolProducer.copiedProductions first reads) objects receivers
  object.after object.start calls

open ProtocolProducer CopyManager in
/-- COPY from a wire through the manager, left at any byte: every receiver that is left has
whole messages, in what it has passed on and what it keeps together, and the controller reads
on behind them.
-/
theorem exited_transferred {first : Bytes} {reads : List Bytes}
    (receives : Receives first reads) (small : ∀ read ∈ first :: reads, read.length < 2 ^ 32)
    {objects : Nat → Receiver} (fresh : ∀ receiver, (objects receiver).Fresh)
    {receivers : List Nat} {calls : List CopyCall}
    (met
      : (copyManager .pqv3 (copiedProductions first reads) objects receivers).Each Reconcilable
          (enter .pqv3 (copiedProductions first reads) objects receivers) calls)
    (all : (transferred first reads objects receivers calls).producer = [])
    : ∃ realigned messages completing passed,
        (copied first reads).1.realign = some realigned
        ∧ Aligned (first ++ reads.flatten) (copied first reads).2.flatten (copied first reads).1
            realigned messages completing passed
        ∧ ∀ receiver ∈
            ((transferred first reads objects receivers calls).exited realigned).receivers,
            (((transferred first reads objects receivers calls).exited realigned).objects
                receiver).Has
              ((messages ++ completing).flatMap Message.bytes) := by
  obtain ⟨conserved, bytes, realigned, messages, completing, passed, aligns, aligned⟩ :=
    realign_copied receives
  obtain ⟨given, pulled, serves, -⟩ :=
    run_steps (enter_serves fresh) (copiedProductions_sendable receives small) met
  refine ⟨realigned, messages, completing, passed, aligns, aligned, ?_⟩
  have given_eq : copiedProductions first reads = given := by
    have entered : copiedProductions first reads
        = given ++ (transferred first reads objects receivers calls).producer :=
      pulled
    rw [entered, all, List.append_nil]
  rw [List.nil_append, ← given_eq, wireOf_copiedProductions] at serves
  refine exited_has serves aligned.once aligned.copyData ?_ aligned.receivers
  have tracks := copied_tracks receives
  obtain ⟨going, reached⟩ := tracks.published
  rw [(drain_going going reached).1, ← tracks.totalMessages, aligned.count, List.length_append]
  exact Nat.add_le_add_left (Nat.le_trans aligned.single (by decide)) _

open ProtocolProducer CopyManager in
/-- A message of three bytes is left behind its first byte. -/
theorem exited_transferred_body
    : ∃ realigned messages completing passed,
        (copied [100, 0, 0] [[0, 7, 65]]).1.realign = some realigned
        ∧ Aligned ([100, 0, 0] ++ [[0, 7, 65]].flatten) (copied [100, 0, 0] [[0, 7, 65]]).2.flatten
            (copied [100, 0, 0] [[0, 7, 65]]).1 realigned messages completing passed
        ∧ ∀ receiver ∈
            ((transferred [100, 0, 0] [[0, 7, 65]] (fun _ => .protocol [] []) [0]
              [.next (fun _ => ⟨[2, 1], false⟩), .next (fun _ => ⟨[3], false⟩)]).exited
                realigned).receivers,
            (((transferred [100, 0, 0] [[0, 7, 65]] (fun _ => .protocol [] []) [0]
              [.next (fun _ => ⟨[2, 1], false⟩), .next (fun _ => ⟨[3], false⟩)]).exited
                realigned).objects receiver).Has
              ((messages ++ completing).flatMap Message.bytes) :=
  exited_transferred ⟨by decide, by decide, by decide⟩ (by decide)
    (fun _ => Or.inr (Or.inl rfl)) ⟨trivial, trivial, trivial⟩
    (List.eq_nil_of_length_eq_zero (by decide +kernel))

end PgCluster.Postgresql
