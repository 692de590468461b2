import PgCluster.Postgresql.CopyWire

/-! The producer of COPY data from a wire: it publishes what it reads up to the end of COPY,
and puts the receivers and the connection back between messages when COPY is interrupted.
-/

namespace PgCluster.Postgresql

open Foundation

/-- What `nextchunk` calls. -/
inductive NextChunk where
  | notInitialized
  | recvView
  /-- `iter(chunks).__next__`. -/
  | iter (chunks : List Bytes)
  /-- What `recover` of the subclass sets. -/
  | recovered
deriving DecidableEq

/-- What a call of the producer ends with. -/
inductive Produced where
  | view (view : Bytes)
  | stopIteration
  /-- The subclass goes on. -/
  | recovered
  | raises (error : WireError)
deriving DecidableEq

def NextChunk.chunks : NextChunk → List Bytes
  | .iter chunks => chunks
  | _ => []

def IsCopyData (message : Message) : Prop := message.typ = copyDataType ∧ message.Fits

/-- The rest of a message without the part of its body that was passed on. -/
def Message.behind (passed : Nat) (message : Message) : Message :=
  ⟨message.typ, message.body.drop passed⟩

theorem behind_zero : Message.behind 0 = id := rfl

structure ProtocolProducer where
  totalMessages : Nat
  totalBytes : Nat
  state : Option WireState
  nextchunk : NextChunk
  /-- The views that were given to `recover`. -/
  recovered : List Bytes
deriving DecidableEq

namespace ProtocolProducer

def init : ProtocolProducer := ⟨0, 0, none, .notInitialized, []⟩

/-- What every subclass does with a view, by its docstring: keep it for the controller. -/
def recover (producer : ProtocolProducer) (view : Bytes) : ProtocolProducer :=
  { producer with recovered := producer.recovered ++ [view], nextchunk := .recovered }

def processCopyData (producer : ProtocolProducer) (view : Bytes)
    : ProtocolProducer × Produced :=
  match producer.state with
  | none => (producer, .raises (.attributeError "'NoneType' object has no attribute 'update'"))
  | some state =>
      match state.update notCopyData view with
      | (state, .error error) => ({ producer with state := some state }, .raises error)
      | (state, .ok reply) =>
          let counted :=
            {
              producer with
              totalMessages := producer.totalMessages + reply.nmessages
              state := some state
            }
          match reply.finalView with
          | none => ({ counted with totalBytes := counted.totalBytes + view.length }, .view view)
          | some finalView =>
              let view :=
                if finalView = [] then view else view.take (view.length - finalView.length)
              (
                {
                  counted.recover finalView with
                  state := none
                  totalBytes := counted.totalBytes + view.length
                },
                .view view
              )

def trackState (producer : ProtocolProducer) (view : Bytes) : ProtocolProducer × Produced :=
  processCopyData { producer with state := some .init, nextchunk := .recvView } view

/-- The view of the buffer that recv_into has written. -/
def recvView (producer : ProtocolProducer) (view : Bytes) : ProtocolProducer × Produced :=
  if view = [] then (producer.recover [], .recovered) else producer.processCopyData view

def next (producer : ProtocolProducer) (read : Bytes) : ProtocolProducer × Produced :=
  match producer.nextchunk with
  | .notInitialized => (producer, .raises (.runtimeError "producer not properly initialized"))
  | .recvView => producer.recvView read
  | .iter [] => (producer, .stopIteration)
  | .iter (chunk :: chunks) => ({ producer with nextchunk := .iter chunks }, .view chunk)
  | .recovered => (producer, .recovered)

/-- `bytes.ljust`. -/
def ljust (bytes : Bytes) (width : Nat) (fill : UInt8) : Bytes :=
  bytes ++ List.replicate (width - bytes.length) fill

/-- What a state that is not between messages gives the producer and the receivers; none is
the exception of ulong_pack.
-/
def alignment (state : WireState) : Option (Bytes × Bytes) :=
  if state.finalView.getD [] ≠ [] then some (state.finalView.getD [], [])
  else if state.remainingBytes = -1 then
    let header := ljust state.sizeFragment 3 0 ++ [4]
    let buf := header.drop state.sizeFragment.length
    let bodylen := BigEndian.ofBytes header - 4
    some ([copyDataType] ++ state.sizeFragment, buf ++ List.replicate bodylen 0)
  else if state.remainingBytes > 0 then do
    let size ← BigEndian.pack 4 (state.remainingBytes.toNat + 4)
    some ([copyDataType] ++ size, List.replicate state.remainingBytes.toNat 0)
  else some ([], [])

def realign (producer : ProtocolProducer) : Option ProtocolProducer :=
  match producer.state with
  | none => some { producer with nextchunk := .iter [] }
  | some state => do
      let (forProducer, forReceivers) ← alignment state
      some
        {
          producer.recover forProducer with
          nextchunk := .iter (if forReceivers ≠ [] then [forReceivers] else [])
        }

/-- The views that are read one after another, and what is published of them. -/
def receive (producer : ProtocolProducer) : List Bytes → ProtocolProducer × List Bytes
  | [] => (producer, [])
  | read :: reads =>
      match producer.next read with
      | (after, .view view) =>
          let later := after.receive reads
          (later.1, view :: later.2)
      | (after, _) => (after, [])

-----------------------------------------------------------------------------------------
-- What is published
-----------------------------------------------------------------------------------------

/-- COPY data: a size counts its own four bytes. -/
def wireStream : SizedStream where
  belongs typ := !notCopyData typ
  valid size := decide (4 ≤ size)
  valid_ge := of_decide_eq_true

/-- The producer behind what it received, and what it published: everything, or all up to the
end of COPY and the rest recovered.
-/
inductive Tracks (received : Bytes) : ProtocolProducer → Bytes → Prop where
  | going
      {place : StreamPlace} {count : Nat} (run : wireStream.run .between received = (place, count))
      (going : place.isEnded = false) (reached : place.Reached)
      : Tracks received ⟨count, received.length, some (.ofPlace place), .recvView, []⟩ received
  | ended
      {published view : Bytes} {count : Nat}
      (run : wireStream.run .between published = (.between, count))
      (ends : (wireStream.run .between received).1 = .ended view)
      (whole : published ++ view = received)
      : Tracks received ⟨count, published.length, none, .recovered, [view]⟩ published

theorem update_wireStream {place : StreamPlace} (reached : place.Reached)
    (going : place.isEnded = false) {view : Bytes}
    (valid : (wireStream.run place view).1 ≠ .invalid)
    : WireState.update notCopyData (.ofPlace place) view
      = (.ofPlace (wireStream.run place view).1,
          .ok (WireState.reply (wireStream.run place view))) := by
  have condition : notCopyData = fun typ => !wireStream.belongs typ := by
    funext typ
    exact (Bool.not_not _).symm
  have updated := WireState.update_ofPlace reached going valid
  rwa [← condition] at updated

/-- One view is published up to the end of COPY. -/
theorem processCopyData_tracks {received view : Bytes} {place : StreamPlace} {count : Nat}
    (run : wireStream.run .between received = (place, count)) (going : place.isEnded = false)
    (reached : place.Reached)
    (valid : (wireStream.run .between (received ++ view)).1 ≠ .invalid)
    : ∃ producer published,
        processCopyData ⟨count, received.length, some (.ofPlace place), .recvView, []⟩ view
          = (producer, .view published)
        ∧ published <+: view ∧ Tracks (received ++ view) producer (received ++ published) := by
  have later : wireStream.run .between (received ++ view)
      = ((wireStream.run place view).1, count + (wireStream.run place view).2) := by
    rw [SizedStream.run_append, run]
  rw [later] at valid
  have updated := update_wireStream reached going valid
  have behind := SizedStream.run_reached reached valid
  rcases next : wireStream.run place view with ⟨place', more⟩
  rw [next] at later valid updated behind
  cases ends : place'.isEnded with
  | false =>
      have open_ : (WireState.ofPlace place').finalView = none := by
        cases place' <;> first | rfl | exact absurd ends Bool.noConfusion
      refine ⟨_, view, ?_, List.prefix_refl _, .going later ends behind⟩
      simp only [processCopyData, updated, WireState.reply, open_, List.length_append]
  | true =>
      obtain ⟨finalView, rfl⟩ : ∃ finalView, place' = .ended finalView := by
        cases place' <;> first | exact ⟨_, rfl⟩ | exact absurd ends Bool.noConfusion
      obtain ⟨before, rfl, short⟩ := SizedStream.exists_run_ended going (congrArg Prod.fst next)
      rw [next] at short
      have published : (if finalView = [] then before ++ finalView
            else (before ++ finalView).take ((before ++ finalView).length - finalView.length))
          = before := by
        split
        next none => simp [none]
        next => simp
      have run' : wireStream.run .between (received ++ before) = (.between, count + more) := by
        rw [SizedStream.run_append, run, short]
      have finished : (WireState.ofPlace (.ended finalView)).finalView = some finalView := rfl
      refine ⟨_, before, ?_, List.prefix_append _ _,
        .ended run' (congrArg Prod.fst later) (List.append_assoc received before finalView)⟩
      rw [List.length_append]
      simp only [processCopyData, updated, WireState.reply, finished, published, recover,
        List.nil_append]

theorem trackState_tracks {view : Bytes} (valid : (wireStream.run .between view).1 ≠ .invalid)
    : ∃ producer published,
        trackState .init view = (producer, .view published)
        ∧ published <+: view ∧ Tracks view producer published :=
  processCopyData_tracks (SizedStream.run_nil _) rfl StreamPlace.between_reached valid

/-- What is read behind some bytes: COPY goes on before the last read, and no size is invalid. -/
structure Receives (received : Bytes) (reads : List Bytes) : Prop where
  filled : ∀ read ∈ reads, read ≠ []
  going
    : reads ≠ []
      → (wireStream.run .between (received ++ reads.dropLast.flatten)).1.isEnded = false
  valid : (wireStream.run .between (received ++ reads.flatten)).1 ≠ .invalid

theorem valid_front {received more : Bytes}
    (valid : (wireStream.run .between (received ++ more)).1 ≠ .invalid)
    : (wireStream.run .between received).1 ≠ .invalid := by
  intro lost
  rw [SizedStream.run_append, lost, SizedStream.run_invalid] at valid
  exact valid rfl

/-- The first read is met before the end of COPY, and the others are met behind it. -/
theorem Receives.cons {received read : Bytes} {reads : List Bytes}
    (receives : Receives received (read :: reads))
    : (wireStream.run .between received).1.isEnded = false
      ∧ (wireStream.run .between (received ++ read)).1 ≠ .invalid
      ∧ Receives (received ++ read) reads := by
  have later := receives.going (List.cons_ne_nil _ _)
  have valid := receives.valid
  rw [List.flatten_cons, ← List.append_assoc] at valid
  refine ⟨?_, valid_front valid, ?_, ?_, valid⟩
  · cases ends : (wireStream.run .between received).1 with
    | ended view =>
        rw [SizedStream.run_append, ends, SizedStream.run_ended] at later
        exact later
    | _ => rfl
  · exact fun other member => receives.filled other (List.mem_cons_of_mem _ member)
  · intro more
    rwa [List.dropLast_cons_of_ne_nil more, List.flatten_cons, ← List.append_assoc] at later

theorem next_tracks {received published read : Bytes} {producer : ProtocolProducer}
    (tracks : Tracks received producer published) (some : read ≠ [])
    (going : (wireStream.run .between received).1.isEnded = false)
    (valid : (wireStream.run .between (received ++ read)).1 ≠ .invalid)
    : ∃ after view,
        producer.next read = (after, .view view)
        ∧ view <+: read ∧ Tracks (received ++ read) after (published ++ view) := by
  cases tracks with
  | ended run ends whole =>
      rw [ends] at going
      exact absurd going Bool.noConfusion
  | @going place count run open_ reached =>
      obtain ⟨after, view, processed, front, tracks⟩ :=
        processCopyData_tracks run open_ reached valid
      refine ⟨after, view, ?_, front, tracks⟩
      rw [ProtocolProducer.next, recvView, if_neg some]
      exact processed

/-- By induction on the reads. -/
theorem receive_tracks {reads : List Bytes} {producer : ProtocolProducer}
    {received published : Bytes} (tracks : Tracks received producer published)
    (receives : Receives received reads)
    : Tracks (received ++ reads.flatten) (producer.receive reads).1
        (published ++ (producer.receive reads).2.flatten) := by
  induction reads generalizing producer received published with
  | nil => simpa [receive] using tracks
  | cons read rest ih =>
      obtain ⟨going, valid, receives'⟩ := receives.cons
      obtain ⟨after, view, next, -, tracks⟩ :=
        next_tracks tracks (receives.filled read List.mem_cons_self) going valid
      simp only [receive, next, List.flatten_cons]
      rw [← List.append_assoc, ← List.append_assoc]
      exact ih tracks receives'

-----------------------------------------------------------------------------------------
-- Alignment
-----------------------------------------------------------------------------------------

/-- The begun message, as it is and cut off, is whole at the same byte. -/
theorem drain_remaining {typ : UInt8} {head : Bytes} {remaining : Nat}
    (fits : head.length + remaining + 4 < 256 ^ 4) (rest : Bytes)
    : (framing.drain (typ :: BigEndian.toBytes 4 (remaining + 4) ++ rest)).messages
        = (framing.drain
            (typ :: BigEndian.toBytes 4 (head.length + remaining + 4) ++ head
              ++ rest)).messages.modifyHead (Message.behind head.length)
      ∧ (framing.drain (typ :: BigEndian.toBytes 4 (remaining + 4) ++ rest)).error
        = (framing.drain
            (typ :: BigEndian.toBytes 4 (head.length + remaining + 4) ++ head ++ rest)).error := by
  have whole := readMessage_header (Nat.le_add_left 4 (head.length + remaining)) fits typ
    (head ++ rest)
  have cut := readMessage_header (Nat.le_add_left 4 remaining)
    (Nat.lt_of_le_of_lt (Nat.add_le_add_right (Nat.le_add_left _ _) 4) fits) typ rest
  rw [← List.append_assoc, List.length_append, Nat.add_sub_cancel, ← framing_read] at whole
  rw [Nat.add_sub_cancel, ← framing_read] at cut
  rcases Nat.lt_or_ge rest.length remaining with short | enough
  · rw [if_pos (Nat.add_lt_add_left short _)] at whole
    rw [if_pos short] at cut
    rw [Framing.drain_incomplete whole, Framing.drain_incomplete cut]
    exact ⟨rfl, rfl⟩
  · rw [if_neg (Nat.not_lt_of_le (Nat.add_le_add_left enough _)), List.take_length_add_append,
      List.drop_length_add_append] at whole
    rw [if_neg (Nat.not_lt_of_le enough)] at cut
    rw [Framing.drain_message whole, Framing.drain_message cut]
    simp [Message.behind]

/-- A header is completed by zeros and a four. -/
theorem alignment_header {fragment : Bytes} (few : fragment.length < 4)
    : ∃ body forReceivers,
        alignment (.ofPlace (.header fragment))
          = some (copyDataType :: fragment, forReceivers)
        ∧ IsCopyData ⟨copyDataType, body⟩ ∧ forReceivers ≠ []
        ∧ copyDataType :: fragment ++ forReceivers = Message.bytes ⟨copyDataType, body⟩ := by
  have length : (ljust fragment 3 0 ++ [4]).length = 4 := by
    simp only [ljust, List.length_append, List.length_replicate, List.length_singleton]
    omega
  have spelled := BigEndian.toBytes_ofBytes (ljust fragment 3 0 ++ [4])
  have small := BigEndian.ofBytes_lt (ljust fragment 3 0 ++ [4])
  rw [length] at spelled small
  have least : 4 ≤ BigEndian.ofBytes (ljust fragment 3 0 ++ [4]) := by
    rw [BigEndian.ofBytes_concat]
    exact Nat.le_add_left _ _
  have size : BigEndian.ofBytes (ljust fragment 3 0 ++ [4]) - 4 + 4
      = BigEndian.ofBytes (ljust fragment 3 0 ++ [4]) :=
    Nat.sub_add_cancel least
  have begins : fragment ++ (ljust fragment 3 0 ++ [4]).drop fragment.length
      = ljust fragment 3 0 ++ [4] := by
    simp [ljust]
  have aligned : alignment (.ofPlace (.header fragment))
      = some (copyDataType :: fragment,
          (ljust fragment 3 0 ++ [4]).drop fragment.length
            ++ List.replicate (BigEndian.ofBytes (ljust fragment 3 0 ++ [4]) - 4) 0) :=
    rfl
  refine ⟨List.replicate (BigEndian.ofBytes (ljust fragment 3 0 ++ [4]) - 4) 0, _, aligned,
    ⟨rfl, ?_⟩, ?_, ?_⟩
  · rwa [Message.Fits, List.length_replicate, size]
  · simp [ljust]
  · rw [Message.bytes, List.length_replicate, size, spelled, List.cons_append,
      ← List.append_assoc, begins]
    rfl

theorem alignment_body {remaining : Nat} (some : 0 < remaining)
    (fits : remaining + 4 < 256 ^ 4)
    : alignment (.ofPlace (.body remaining))
      = Option.some (copyDataType :: BigEndian.toBytes 4 (remaining + 4),
          List.replicate remaining 0) := by
  have inside : ¬ (remaining : Int) = -1 := by omega
  have packed : BigEndian.pack 4 (remaining + 4)
      = Option.some (BigEndian.toBytes 4 (remaining + 4)) :=
    if_pos fits
  simp [alignment, WireState.ofPlace, inside, some, packed]

/-- Behind the realignment: the receivers have whole messages, and the controller reads on as
if nothing had been passed on, but for the part of a body that was.
-/
structure Aligned (received published : Bytes) (producer realigned : ProtocolProducer)
    (messages completing : List Message) (passed : Nat)
    : Prop where
  count : producer.totalMessages = messages.length
  copyData : ∀ message ∈ messages ++ completing, IsCopyData message
  single : completing.length ≤ 1
  once : realigned.nextchunk.chunks.length ≤ 1
  receivers
    : published ++ realigned.nextchunk.chunks.flatten
      = (messages ++ completing).flatMap Message.bytes
  controller
    : ∀ rest,
        (framing.drain (realigned.recovered.flatten ++ rest)).messages
            = ((framing.drain (received ++ rest)).messages.drop messages.length).modifyHead
                (Message.behind passed)
        ∧ (framing.drain (realigned.recovered.flatten ++ rest)).error
          = (framing.drain (received ++ rest)).error

/-- The messages in front of what is begun are read first. -/
theorem drain_begun {messages : List Message} (whole : ∀ message ∈ messages, IsCopyData message)
    (begun rest : Bytes)
    : ((framing.drain (messages.flatMap Message.bytes ++ begun ++ rest)).messages.drop
          messages.length)
        = (framing.drain (begun ++ rest)).messages
      ∧ (framing.drain (messages.flatMap Message.bytes ++ begun ++ rest)).error
        = (framing.drain (begun ++ rest)).error := by
  have reads (message : Message) (member : message ∈ messages) (more : Bytes)
      : framing.read (message.bytes ++ more) = .message message more :=
    readMessage_bytes (whole message member).2 more
  rw [List.append_assoc, Framing.drain_encoded framing reads]
  exact ⟨List.drop_left, rfl⟩

/-- What is received is whole messages and a begun one. -/
theorem exists_begun {received : Bytes}
    (valid : (wireStream.run .between received).1 ≠ .invalid)
    : ∃ (messages : List Message) (begun : Bytes),
        (∀ message ∈ messages, IsCopyData message)
        ∧ messages.length = (wireStream.run .between received).2
        ∧ wireStream.Begun begun (wireStream.run .between received).1
        ∧ received = messages.flatMap Message.bytes ++ begun := by
  obtain ⟨messages, begun, whole, count, begins, same⟩ := SizedStream.run_spelled valid
  refine ⟨messages.map (fun message => ⟨message.1, message.2⟩), begun, ?_, ?_, begins, ?_⟩
  · intro message member
    obtain ⟨pair, inside, rfl⟩ := List.mem_map.mp member
    obtain ⟨belongs, -, fits⟩ := whole pair inside
    exact ⟨by simpa [wireStream, notCopyData] using belongs, fits⟩
  · rw [List.length_map, count]
  · rw [List.flatMap_map]
    exact same

/-- What the state of the wire gives is enough for both sides. -/
theorem exists_aligned {place : StreamPlace} {received begun forProducer forReceivers : Bytes}
    {messages : List Message} (completing : List Message) (passed : Nat)
    (alignment : alignment (.ofPlace place) = some (forProducer, forReceivers))
    (same : received = messages.flatMap Message.bytes ++ begun)
    (copyData : ∀ message ∈ messages, IsCopyData message)
    (single : completing.length ≤ 1) (also : ∀ message ∈ completing, IsCopyData message)
    (completed : begun ++ forReceivers = completing.flatMap Message.bytes)
    (controller
      : ∀ rest,
          (framing.drain (forProducer ++ rest)).messages
              = (framing.drain (begun ++ rest)).messages.modifyHead (Message.behind passed)
          ∧ (framing.drain (forProducer ++ rest)).error
            = (framing.drain (begun ++ rest)).error)
    : ∃ realigned,
        realign
            ⟨messages.length, received.length, some (.ofPlace place), .recvView, []⟩
          = some realigned
        ∧ Aligned received received
            ⟨messages.length, received.length, some (.ofPlace place), .recvView, []⟩ realigned
            messages completing passed := by
  refine ⟨
    {
      recover
        ⟨messages.length, received.length, some (.ofPlace place), .recvView, []⟩ forProducer with
      nextchunk := .iter (if forReceivers ≠ [] then [forReceivers] else [])
    }, ?_, rfl, ?_, single, ?_, ?_, ?_⟩
  · simp only [realign, alignment]
    rfl
  · intro message member
    exact (List.mem_append.mp member).elim (copyData message) (also message)
  · rw [NextChunk.chunks]
    split
    · exact Nat.le_refl 1
    · exact Nat.zero_le 1
  · have chunks : (if forReceivers ≠ [] then [forReceivers] else []).flatten = forReceivers := by
      split
      next => simp
      next none => simp [not_not.mp none]
    rw [NextChunk.chunks, chunks, same, List.append_assoc, completed, List.flatMap_append]
  · intro rest
    have drained := drain_begun copyData begun rest
    rw [same, drained.1, drained.2]
    simpa [recover] using controller rest

/-- Wherever COPY stops, the receivers and the controller are put between messages. -/
theorem realign_tracks {received published : Bytes} {producer : ProtocolProducer}
    (tracks : Tracks received producer published)
    (valid : (wireStream.run .between received).1 ≠ .invalid)
    : ∃ realigned messages completing passed,
        producer.realign = some realigned
        ∧ Aligned received published producer realigned messages completing passed := by
  cases tracks with
  | @ended published view count run ends whole =>
      obtain ⟨messages, begun, copyData, length, begins, same⟩ :=
        exists_begun (by rw [run]; exact StreamPlace.noConfusion)
      rw [run] at length begins
      obtain rfl : begun = [] := begins
      refine ⟨_, messages, [], 0, rfl, length.symm, by simpa using copyData, Nat.zero_le 1,
        Nat.zero_le 1, ?_, ?_⟩
      · simpa [NextChunk.chunks] using same
      · intro rest
        rw [← whole, same, List.append_nil]
        have drained := drain_begun copyData view rest
        rw [drained.1, drained.2, behind_zero]
        simp
  | @going place count run going reached =>
      obtain ⟨messages, begun, copyData, length, begins, same⟩ := exists_begun valid
      rw [run] at length begins
      dsimp only at length
      subst length
      have unchanged (rest : Bytes)
          : (framing.drain (begun ++ rest)).messages
              = (framing.drain (begun ++ rest)).messages.modifyHead (Message.behind 0)
            ∧ (framing.drain (begun ++ rest)).error = (framing.drain (begun ++ rest)).error := by
        rw [behind_zero, List.modifyHead_id]
        exact ⟨rfl, rfl⟩
      cases place with
      | between =>
          obtain rfl : begun = [] := begins
          have aligned : alignment (.ofPlace .between) = some ([], []) := rfl
          obtain ⟨realigned, result⟩ := exists_aligned [] 0 aligned same copyData (Nat.zero_le 1)
            (fun _ none => absurd none List.not_mem_nil) rfl unchanged
          exact ⟨realigned, _, _, _, result⟩
      | header fragment =>
          obtain ⟨typ, belongs, rfl⟩ := begins
          obtain rfl : typ = copyDataType := by simpa [wireStream, notCopyData] using belongs
          obtain ⟨body, forReceivers, alignment, also, -, completed⟩ := alignment_header reached
          obtain ⟨realigned, result⟩ := exists_aligned [⟨copyDataType, body⟩] 0 alignment same
            copyData (Nat.le_refl 1) (fun _ member => List.mem_singleton.mp member ▸ also)
            (by simpa using completed) unchanged
          exact ⟨realigned, _, _, _, result⟩
      | body remaining =>
          obtain ⟨typ, head, belongs, -, fits, rfl⟩ := begins
          obtain rfl : typ = copyDataType := by simpa [wireStream, notCopyData] using belongs
          have least : remaining + 4 < 256 ^ 4 :=
            Nat.lt_of_le_of_lt (Nat.add_le_add_right (Nat.le_add_left _ _) 4) fits
          have also : IsCopyData ⟨copyDataType, head ++ List.replicate remaining 0⟩ :=
            ⟨rfl, by rwa [Message.Fits, List.length_append, List.length_replicate]⟩
          obtain ⟨realigned, result⟩ := exists_aligned
            [⟨copyDataType, head ++ List.replicate remaining 0⟩] head.length
            (alignment_body reached least) same copyData (Nat.le_refl 1)
            (fun _ member => List.mem_singleton.mp member ▸ also) (by simp [Message.bytes])
            (fun rest => drain_remaining fits rest)
          exact ⟨realigned, _, _, _, result⟩
      | ended view => exact absurd going Bool.noConfusion
      | invalid => exact absurd reached not_false

-----------------------------------------------------------------------------------------
-- Runs
-----------------------------------------------------------------------------------------

/-- COPY from a first view on, and what is published of it and of the reads. -/
def copied (first : Bytes) (reads : List Bytes) : ProtocolProducer × List Bytes :=
  match trackState .init first with
  | (producer, .view view) =>
      let later := producer.receive reads
      (later.1, view :: later.2)
  | (producer, _) => (producer, [])

theorem tracks_conserve {received published : Bytes} {producer : ProtocolProducer}
    (tracks : Tracks received producer published)
    : published ++ producer.recovered.flatten = received ∧ producer.totalBytes = published.length
      := by
  cases tracks with
  | going run going reached => exact ⟨List.append_nil _, rfl⟩
  | ended run ends whole =>
      exact ⟨by rw [List.flatten_cons, List.flatten_nil, List.append_nil, whole], rfl⟩

theorem copied_tracks {first : Bytes} {reads : List Bytes} (receives : Receives first reads)
    : Tracks (first ++ reads.flatten) (copied first reads).1 (copied first reads).2.flatten := by
  obtain ⟨producer, view, tracked, -, tracks⟩ := trackState_tracks (valid_front receives.valid)
  simp only [copied, tracked, List.flatten_cons]
  exact receive_tracks tracks receives

/-- Wherever COPY from a wire stops, at its end or within a message: what was published and
recovered is what was received, and behind the realignment both sides are between messages.
-/
theorem realign_copied {first : Bytes} {reads : List Bytes} (receives : Receives first reads)
    : (copied first reads).2.flatten ++ (copied first reads).1.recovered.flatten
        = first ++ reads.flatten
      ∧ (copied first reads).1.totalBytes = (copied first reads).2.flatten.length
      ∧ ∃ realigned messages completing passed,
          (copied first reads).1.realign = some realigned
          ∧ Aligned (first ++ reads.flatten) (copied first reads).2.flatten
              (copied first reads).1 realigned messages completing passed := by
  have tracks := copied_tracks receives
  obtain ⟨conserved, bytes⟩ := tracks_conserve tracks
  exact ⟨conserved, bytes, realign_tracks tracks receives.valid⟩

/-- COPY is interrupted within a body of three bytes, of which one was published. -/
theorem realign_copied_body
    : (copied [100, 0, 0] [[0, 7, 65]]).2.flatten
          ++ (copied [100, 0, 0] [[0, 7, 65]]).1.recovered.flatten
        = [100, 0, 0] ++ [[0, 7, 65]].flatten
      ∧ (copied [100, 0, 0] [[0, 7, 65]]).1.totalBytes
        = (copied [100, 0, 0] [[0, 7, 65]]).2.flatten.length
      ∧ ∃ realigned messages completing passed,
          (copied [100, 0, 0] [[0, 7, 65]]).1.realign = some realigned
          ∧ Aligned ([100, 0, 0] ++ [[0, 7, 65]].flatten)
              (copied [100, 0, 0] [[0, 7, 65]]).2.flatten
              (copied [100, 0, 0] [[0, 7, 65]]).1 realigned messages completing passed :=
  realign_copied ⟨by decide, by decide, by decide⟩

end ProtocolProducer

end PgCluster.Postgresql
