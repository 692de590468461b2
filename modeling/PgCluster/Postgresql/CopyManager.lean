import Mathlib.Algebra.Group.Prod
import PgCluster.Postgresql.CopyProducer
import PgCluster.Postgresql.Elements

/-! One-to-many COPY: the manager hands what the producer gives to every receiver, drops the
receivers that fault, and takes them back when they are reconciled.
-/

namespace PgCluster.Postgresql

open Foundation

/-- The protocols of COPY data at the level of Python. -/
inductive CopyProtocol where
  | pqv3
  | chunks
  | null
deriving DecidableEq

/-- A piece of COPY data. -/
inductive CopyDatum where
  | view (view : Bytes)
  | lines (lines : List Bytes)
  | none
deriving DecidableEq

-----------------------------------------------------------------------------------------
-- Transformers
-----------------------------------------------------------------------------------------

inductive Transformer where
  | chunkProtocol (buffer : PqMessageStream)
  | catMessages
  | emptyView
  | emptyList
  | returnNone
  | noTransformation

/-- The table of the transformers, from the protocol of the producer to a receiver's. -/
def copyProtocolMappings : CopyProtocol → CopyProtocol → Transformer
  | .pqv3, .chunks => .chunkProtocol pqMessageStream.start
  | .chunks, .pqv3 => .catMessages
  | .null, .pqv3 => .emptyView
  | .null, .chunks => .emptyList
  | .pqv3, .null => .returnNone
  | .chunks, .null => .returnNone
  | .null, .null => .noTransformation
  | .chunks, .chunks => .noTransformation
  | .pqv3, .pqv3 => .noTransformation

namespace Transformer

/-- The new state and the result; none is an exception, of the sizes or of the kind of data. -/
def apply : Transformer → CopyDatum → Option (Transformer × CopyDatum)
  | .chunkProtocol buffer, .view data =>
      let written := pqMessageStream.answer buffer (.write data)
      let read := pqMessageStream.answer written.1 (.read none)
      match read.2 with
      | .messages messages =>
          some (.chunkProtocol read.1, .lines (messages.map (fun message => message.body)))
      | _ => none
  | .chunkProtocol _, _ => none
  | .catMessages, .lines lines =>
      (Postgresql.catMessages (lines.map Outgoing.copy)).map
        (fun data => (.catMessages, .view data))
  | .catMessages, _ => none
  | .emptyView, _ => some (.emptyView, .view [])
  | .emptyList, _ => some (.emptyList, .lines [])
  | .returnNone, _ => some (.returnNone, .none)
  | .noTransformation, data => some (.noTransformation, data)

end Transformer

/-- The entries of the two dicts are independent of each other. -/
structure CopyTransformer where
  protocols : List CopyProtocol
  transformers : CopyProtocol → Transformer
  current : CopyProtocol → CopyDatum

namespace CopyTransformer

def init (source : CopyProtocol) (targets : List CopyProtocol) : CopyTransformer :=
  ⟨targets, copyProtocolMappings source, fun _ => .none⟩

def call (transformer : CopyTransformer) (data : CopyDatum) : Option CopyTransformer :=
  if transformer.protocols.all
      (fun protocol => ((transformer.transformers protocol).apply data).isSome) then
    some
      {
        transformer with
        transformers := fun protocol =>
          match (transformer.transformers protocol).apply data with
          | some (next, _) => next
          | none => transformer.transformers protocol
        current := fun protocol =>
          match (transformer.transformers protocol).apply data with
          | some (_, result) => result
          | none => transformer.current protocol
      }
  else none

end CopyTransformer

-----------------------------------------------------------------------------------------
-- Receivers
-----------------------------------------------------------------------------------------

/-- A receiver with what has left it: the bytes that send took, and the lines of the calls
that returned.
-/
inductive Receiver where
  | null
  | protocol (view : Bytes) (sent : Bytes)
  | call (lines : Option (List Bytes)) (called : List Bytes)
deriving DecidableEq

/-- What the environment does in a transmission: how much every send takes, until one raises;
whether the callable raises.
-/
structure Outcome where
  sends : List Nat
  raises : Bool

namespace Receiver

def protocolOf : Receiver → CopyProtocol
  | .null => .null
  | .protocol _ _ => .pqv3
  | .call _ _ => .chunks

/-- The loop of transmit; whether it came to its end. -/
def transmitLoop : Bytes → Bytes → List Nat → Receiver × Bool
  | [], sent, _ => (.protocol [] sent, true)
  | byte :: view, sent, [] => (.protocol (byte :: view) sent, false)
  | byte :: view, sent, taken :: sends =>
      transmitLoop ((byte :: view).drop taken) (sent ++ (byte :: view).take taken) sends

def transmit (outcome : Outcome) : Receiver → Receiver × Bool
  | .null => (.null, true)
  | .protocol view sent => transmitLoop view sent outcome.sends
  | .call none called => (.call none called, true)
  | .call (some lines) called =>
      if outcome.raises then (.call (some lines) called, false)
      else (.call none (called ++ lines), true)

def accept : Receiver → CopyDatum → Receiver
  | .protocol _ sent, .view data => .protocol data sent
  | .call _ called, .lines lines => .call (some lines) called
  | receiver, _ => receiver

end Receiver

-----------------------------------------------------------------------------------------
-- The manager
-----------------------------------------------------------------------------------------

/-- What the producer gives to a call of next: data with the messages and bytes it adds to the
totals, or an exception. Behind the last one the iteration stops.
-/
inductive Production where
  | data (datum : CopyDatum) (messages bytes : Nat)
  | raises

/-- The receivers are a set of objects. -/
structure CopyManager where
  producer : List Production
  receivers : List Nat
  objects : Nat → Receiver
  transformer : CopyTransformer
  seenStopIteration : Bool
  stats : Nat × Nat
  /-- The receivers that the last transmission has dropped. -/
  faults : List Nat

inductive CopyReply where
  | progress (messages bytes : Nat)
  | stopIteration
  | producerFault
  | receiverFault (faults : List Nat)
  /-- An exception of a transformer. -/
  | transformer
  | reconciled
  /-- An exception of the transmission. -/
  | transmission
  /-- `RuntimeError("cannot add new receivers to copy operations")`. -/
  | cannotAdd
deriving DecidableEq

inductive CopyCall where
  | next (outcome : Nat → Outcome)
  | reconcile (receiver : Nat) (outcome : Outcome)

namespace CopyManager

/-- What a call has served: the messages and bytes of the producer, or an exception. -/
def serviceProducer (manager : CopyManager) : CopyManager × Except CopyReply (Nat × Nat) :=
  if manager.receivers = [] then (manager, .error .stopIteration)
  else
    match manager.producer with
    | [] => ({ manager with seenStopIteration := true }, .error .stopIteration)
    | .raises :: rest => ({ manager with producer := rest }, .error .producerFault)
    | .data datum messages bytes :: rest =>
        let pulled := { manager with producer := rest }
        match manager.transformer.call datum with
        | none => (pulled, .error .transformer)
        | some transformer =>
            (
              {
                pulled with
                transformer
                objects := fun receiver =>
                  if receiver ∈ manager.receivers then
                    (manager.objects receiver).accept
                      (transformer.current (manager.objects receiver).protocolOf)
                  else manager.objects receiver
              },
              .ok (messages, bytes)
            )

def serviceReceivers (manager : CopyManager) (outcome : Nat → Outcome)
    : CopyManager × List Nat :=
  let transmitted := fun receiver => (manager.objects receiver).transmit (outcome receiver)
  let faults := manager.receivers.filter (fun receiver => !(transmitted receiver).2)
  (
    {
      manager with
      objects := fun receiver =>
        if receiver ∈ manager.receivers then (transmitted receiver).1
        else manager.objects receiver
      receivers := manager.receivers.filter (fun receiver => (transmitted receiver).2)
      faults
    },
    faults
  )

def next (manager : CopyManager) (outcome : Nat → Outcome) : CopyManager × CopyReply :=
  match manager.serviceProducer with
  | (served, .error reply) => (served, reply)
  | (served, .ok (messages, bytes)) =>
      let stats := (manager.stats.1 + messages, manager.stats.2 + bytes)
      match { served with stats }.serviceReceivers outcome with
      | (transmitted, []) => ({ transmitted with stats := (0, 0) }, .progress stats.1 stats.2)
      | (transmitted, faults) => (transmitted, .receiverFault faults)

def reconcile (manager : CopyManager) (receiver : Nat) (outcome : Outcome)
    : CopyManager × CopyReply :=
  if (manager.objects receiver).protocolOf ∉ manager.transformer.protocols then
    (manager, .cannotAdd)
  else
    let transmitted := (manager.objects receiver).transmit outcome
    let moved :=
      {
        manager with
        objects := fun other => if other = receiver then transmitted.1 else manager.objects other
      }
    if transmitted.2 then
      ({ moved with receivers := moved.receivers.insert receiver }, .reconciled)
    else (moved, .transmission)

end CopyManager

-----------------------------------------------------------------------------------------
-- COPY data as a stream
-----------------------------------------------------------------------------------------

/-- The data on the wire. -/
def CopyDatum.wire : CopyDatum → Bytes
  | .view data => data
  | .lines data => data.flatMap (fun line => Message.bytes ⟨copyDataType, line⟩)
  | .none => []

def Production.wire : Production → Bytes
  | .data datum _ _ => datum.wire
  | .raises => []

/-- The lines that the data on the wire completes. -/
def rows (wire : Bytes) : List Bytes :=
  (framing.drain wire).messages.map (fun message => message.body)

/-- Data that the transformers take, behind what is already on the wire: the bytes of a view
hold no invalid size and less messages than one read takes; the lines fit their sizes.
-/
def Fits (source : CopyProtocol) (wire : Bytes) (datum : CopyDatum) : Prop :=
  match source, datum with
  | .pqv3, .view view =>
      (framing.drain (wire ++ view)).error = none
      ∧ (framing.drain (wire ++ view)).messages.length
        ≤ (framing.drain wire).messages.length + PqMessageStream.numDefault
  | .chunks, .lines lines => ∀ line ∈ lines, line.length + 4 < 2 ^ 31
  | _, _ => False

/-- A transformer behind what is on the wire. -/
inductive Transformer.Ready (wire : Bytes) : CopyProtocol → CopyProtocol → Transformer → Prop where
  | chunkProtocol
      {buffer : PqMessageStream} (holds : buffer.Holds (framing.drain wire).rest)
      : Ready wire .pqv3 .chunks (.chunkProtocol buffer)
  | catMessages : Ready wire .chunks .pqv3 .catMessages
  | emptyView : Ready wire .null .pqv3 .emptyView
  | emptyList : Ready wire .null .chunks .emptyList
  | returnNone (source : CopyProtocol) : Ready wire source .null .returnNone
  | noTransformation (protocol : CopyProtocol) : Ready wire protocol protocol .noTransformation

/-- Between the messages where the producer gives lines. -/
def Whole (source : CopyProtocol) (wire : Bytes) : Prop :=
  source = .chunks → (framing.drain wire).rest = [] ∧ (framing.drain wire).error = none

/-- What a transformer gives for the data that follows on the wire. -/
def Continues (target : CopyProtocol) (wire more : Bytes) (result : CopyDatum) : Prop :=
  match target with
  | .pqv3 => result = .view more
  | .chunks => ∃ lines, result = .lines lines ∧ rows (wire ++ more) = rows wire ++ lines
  | .null => True

theorem copyProtocolMappings_ready (source target : CopyProtocol)
    : (copyProtocolMappings source target).Ready [] source target := by
  cases source <;> cases target
  case pqv3.chunks => exact .chunkProtocol (by rw [drain_nil]; exact start_holds)
  all_goals constructor

/-- The lines that a part of the wire adds. -/
theorem rows_append (wire more : Bytes)
    : rows (wire ++ more)
      = rows wire
          ++ (framing.drain ((framing.drain wire).rest ++ more)).messages.map
              (fun message => message.body) := by
  rw [rows, Framing.drain_append, List.map_append]
  rfl

/-- One read takes all messages that a view completes. -/
theorem chunkProtocol_apply {buffer : PqMessageStream} {wire view : Bytes}
    (holds : buffer.Holds (framing.drain wire).rest) (fits : Fits .pqv3 wire (.view view))
    : ∃ next lines,
        Transformer.apply (.chunkProtocol buffer) (.view view) = some (next, .lines lines)
        ∧ next.Ready (wire ++ view) .pqv3 .chunks
        ∧ rows (wire ++ view) = rows wire ++ lines := by
  obtain ⟨valid, few⟩ := fits
  rw [Framing.drain_append] at valid few
  rw [List.length_append, Nat.add_le_add_iff_left] at few
  have written := pqMessageStream_follows holds (.write view)
  have read := pqMessageStream_follows written.holds (.read none)
  have all : framing.take PqMessageStream.numDefault ((framing.drain wire).rest ++ view)
      = framing.drain ((framing.drain wire).rest ++ view) :=
    Framing.take_of_count valid few
  have taken : (framing.stream PqMessageStream.numDefault).answer
        ((framing.drain wire).rest ++ view) (.read none)
      = ((framing.drain ((framing.drain wire).rest ++ view)).rest,
          .messages (framing.drain ((framing.drain wire).rest ++ view)).messages) := by
    rw [Framing.stream_read, Option.getD_none, all, Framing.popAll, valid]
  have stored : ((framing.stream PqMessageStream.numDefault).answer (framing.drain wire).rest
        (.write view)).1
      = (framing.drain wire).rest ++ view :=
    rfl
  rw [stored, taken] at read
  refine ⟨
    .chunkProtocol
      (pqMessageStream.answer (pqMessageStream.answer buffer (.write view)).1 (.read none)).1,
    _, ?_, .chunkProtocol ?_, rows_append wire view⟩
  · simp only [Transformer.apply, read.reply]
  · rw [Framing.drain_append]
    exact read.holds

/-- By induction on the lines. -/
theorem catMessages_lines {lines : List Bytes} (fits : ∀ line ∈ lines, line.length + 4 < 2 ^ 31)
    : catMessages (lines.map Outgoing.copy) = some (CopyDatum.lines lines).wire := by
  have parts : (lines.map Outgoing.copy).mapM Outgoing.bytes
      = some (lines.map (fun line => Message.bytes ⟨copyDataType, line⟩)) := by
    induction lines with
    | nil => rfl
    | cons line rest ih =>
        have small : line.length + 4 < 256 ^ 4 / 2 := fits line List.mem_cons_self
        have first : Outgoing.bytes (.copy line) = some (Message.bytes ⟨copyDataType, line⟩) := by
          simp only [Outgoing.bytes, BigEndian.packInt_of_lt small]
          rfl
        rw [List.map_cons, List.mapM_cons, first,
          ih (fun other member => fits other (List.mem_cons_of_mem _ member))]
        rfl
  simp only [catMessages, parts]
  rfl

/-- Whole lines are read as they are. -/
theorem drain_lines {lines : List Bytes} (fits : ∀ line ∈ lines, line.length + 4 < 2 ^ 31)
    : framing.drain (CopyDatum.lines lines).wire
      = ⟨lines.map (fun line => ⟨copyDataType, line⟩), [], none⟩ := by
  have same : (CopyDatum.lines lines).wire
      = (lines.map (fun line => (⟨copyDataType, line⟩ : Message))).flatMap Message.bytes := by
    rw [List.flatMap_map]
    rfl
  rw [same, drain_flatMap_bytes]
  intro message member
  obtain ⟨line, inside, rfl⟩ := List.mem_map.mp member
  exact Nat.lt_trans (fits line inside) (by decide)

theorem apply_ready {source target : CopyProtocol} {transformer : Transformer} {wire : Bytes}
    {datum : CopyDatum} (ready : transformer.Ready wire source target)
    (whole : Whole source wire) (fits : Fits source wire datum)
    : ∃ next result,
        transformer.apply datum = some (next, result)
        ∧ next.Ready (wire ++ datum.wire) source target
        ∧ Continues target wire datum.wire result := by
  cases ready with
  | chunkProtocol holds =>
      cases datum with
      | view view =>
          obtain ⟨next, lines, applied, ready, added⟩ := chunkProtocol_apply holds fits
          exact ⟨next, .lines lines, applied, ready, lines, rfl, added⟩
      | _ => exact absurd fits not_false
  | catMessages =>
      cases datum with
      | lines lines =>
          refine ⟨.catMessages, _, ?_, .catMessages, rfl⟩
          simp only [Transformer.apply, catMessages_lines fits]
          rfl
      | _ => exact absurd fits not_false
  | emptyView => cases datum <;> exact absurd fits not_false
  | emptyList => cases datum <;> exact absurd fits not_false
  | returnNone source => exact ⟨_, _, rfl, .returnNone source, trivial⟩
  | noTransformation protocol =>
      refine ⟨_, datum, rfl, .noTransformation source, ?_⟩
      cases source with
      | pqv3 =>
          cases datum with
          | view view => rfl
          | _ => exact absurd fits not_false
      | chunks =>
          cases datum with
          | lines lines =>
              refine ⟨lines, rfl, ?_⟩
              have bodies : (fun message : Message => message.body)
                    ∘ (fun line => (⟨copyDataType, line⟩ : Message))
                  = id :=
                rfl
              rw [rows_append, (whole rfl).1, List.nil_append, drain_lines fits, List.map_map,
                bodies, List.map_id]
          | _ => exact absurd fits not_false
      | null => trivial

-----------------------------------------------------------------------------------------
-- What receivers get
-----------------------------------------------------------------------------------------

namespace Receiver

/-- The receiver has taken what is on the wire, and passed it on or keeps it. -/
def Has (wire : Bytes) : Receiver → Prop
  | .null => True
  | .protocol view sent => sent ++ view = wire
  | .call lines called => called ++ lines.getD [] = rows wire

/-- Nothing is kept. -/
def Idle : Receiver → Prop
  | .null => True
  | .protocol view _ => view = []
  | .call lines _ => lines = none

/-- What was passed on is the front of the wire. -/
def Passed (wire : Bytes) : Receiver → Prop
  | .null => True
  | .protocol _ sent => sent <+: wire
  | .call _ called => called <+: rows wire

def Fresh (receiver : Receiver) : Prop :=
  receiver = .null ∨ receiver = .protocol [] [] ∨ receiver = .call none []

theorem Has.passed {wire : Bytes} {receiver : Receiver} (has : receiver.Has wire)
    : receiver.Passed wire := by
  cases receiver with
  | null => trivial
  | protocol view sent => exact ⟨view, has⟩
  | call lines called => exact ⟨lines.getD [], has⟩

theorem Passed.append {wire : Bytes} {receiver : Receiver} (passed : receiver.Passed wire)
    (more : Bytes)
    : receiver.Passed (wire ++ more) := by
  cases receiver with
  | null => trivial
  | protocol view sent => exact passed.trans (List.prefix_append _ _)
  | call lines called =>
      refine passed.trans ?_
      rw [rows_append]
      exact List.prefix_append _ _

theorem Fresh.has {receiver : Receiver} (fresh : receiver.Fresh) : receiver.Has [] := by
  rcases fresh with rfl | rfl | rfl
  · trivial
  · rfl
  · simp [Has, rows, drain_nil]

theorem Fresh.idle {receiver : Receiver} (fresh : receiver.Fresh) : receiver.Idle := by
  rcases fresh with rfl | rfl | rfl
  · trivial
  · rfl
  · rfl

/-- Sends lose nothing, by induction on them; at the end of the loop all is sent. -/
theorem transmitLoop_has {wire view sent : Bytes} (has : sent ++ view = wire) (sends : List Nat)
    : (transmitLoop view sent sends).1.Has wire
      ∧ ((transmitLoop view sent sends).2 = true → (transmitLoop view sent sends).1.Idle)
      ∧ (transmitLoop view sent sends).1.protocolOf = .pqv3 := by
  induction sends generalizing view sent with
  | nil => cases view <;> exact ⟨has, by simp [transmitLoop, Idle], rfl⟩
  | cons taken sends ih =>
      cases view with
      | nil => exact ⟨has, fun _ => rfl, rfl⟩
      | cons byte view =>
          refine ih ?_
          rw [List.append_assoc, List.take_append_drop]
          exact has

theorem transmit_idle {receiver : Receiver} (idle : receiver.Idle) (outcome : Outcome)
    : (receiver.transmit outcome).2 = true := by
  cases receiver with
  | null => rfl
  | protocol view sent =>
      obtain rfl : view = [] := idle
      cases sends : outcome.sends <;> simp [transmit, transmitLoop, sends]
  | call lines called =>
      obtain rfl : lines = none := idle
      rfl

theorem transmit_has {wire : Bytes} {receiver : Receiver} (has : receiver.Has wire)
    (outcome : Outcome)
    : (receiver.transmit outcome).1.Has wire
      ∧ ((receiver.transmit outcome).2 = true → (receiver.transmit outcome).1.Idle)
      ∧ (receiver.transmit outcome).1.protocolOf = receiver.protocolOf := by
  cases receiver with
  | null => exact ⟨trivial, fun _ => trivial, rfl⟩
  | protocol view sent => exact transmitLoop_has has outcome.sends
  | call lines called =>
      cases lines with
      | none => exact ⟨has, fun _ => rfl, rfl⟩
      | some lines =>
          simp only [transmit]
          split
          next => exact ⟨has, fun done => absurd done Bool.noConfusion, rfl⟩
          next => exact ⟨by simpa [Has] using has, fun _ => rfl, rfl⟩

/-- An idle receiver takes what follows on the wire. -/
theorem accept_has {wire more : Bytes} {receiver : Receiver} (has : receiver.Has wire)
    (idle : receiver.Idle) {result : CopyDatum}
    (continues : Continues receiver.protocolOf wire more result)
    : (receiver.accept result).Has (wire ++ more)
      ∧ (receiver.accept result).protocolOf = receiver.protocolOf := by
  cases receiver with
  | null => exact ⟨trivial, rfl⟩
  | protocol view sent =>
      obtain rfl : view = [] := idle
      obtain rfl : result = .view more := continues
      refine ⟨?_, rfl⟩
      rw [Has, List.append_nil] at has
      rw [accept, Has, has]
  | call lines called =>
      obtain rfl : lines = none := idle
      obtain ⟨lines, rfl, added⟩ := continues
      refine ⟨?_, rfl⟩
      rw [Has, Option.getD_none, List.append_nil] at has
      rw [accept, Has, Option.getD_some, added, has]

end Receiver

-----------------------------------------------------------------------------------------
-- Calls of the manager
-----------------------------------------------------------------------------------------

/-- What the producer gives fits, one after another. -/
def Sendable (source : CopyProtocol) (wire : Bytes) : List Production → Prop
  | [] => True
  | .raises :: rest => Sendable source wire rest
  | .data datum _ _ :: rest => Fits source wire datum ∧ Sendable source (wire ++ datum.wire) rest

def Production.counts : Production → Nat × Nat
  | .data _ messages bytes => (messages, bytes)
  | .raises => (0, 0)

def CopyReply.counts : CopyReply → Nat × Nat
  | .progress messages bytes => (messages, bytes)
  | _ => (0, 0)

namespace CopyManager

/-- The transformers and the receivers behind what is on the wire. -/
structure Loaded (source : CopyProtocol) (wire : Bytes) (manager : CopyManager) : Prop where
  receivers : ∀ receiver ∈ manager.receivers, (manager.objects receiver).Has wire
  passed : ∀ receiver, (manager.objects receiver).Passed wire
  ready
    : ∀ protocol ∈ manager.transformer.protocols,
        (manager.transformer.transformers protocol).Ready wire source protocol
  known
    : ∀ receiver ∈ manager.receivers,
        (manager.objects receiver).protocolOf ∈ manager.transformer.protocols
  whole : Whole source wire

/-- Between two calls: the receivers have passed on what is on the wire, and the ones that
were dropped last still can.
-/
structure Serves (source : CopyProtocol) (wire : Bytes) (manager : CopyManager) : Prop
    extends Loaded source wire manager where
  idle : ∀ receiver ∈ manager.receivers, (manager.objects receiver).Idle
  faults : ∀ receiver ∈ manager.faults, (manager.objects receiver).Has wire

theorem whole_append {source : CopyProtocol} {wire : Bytes} {datum : CopyDatum}
    (whole : Whole source wire) (fits : Fits source wire datum)
    : Whole source (wire ++ datum.wire) := by
  rintro rfl
  cases datum with
  | lines lines =>
      obtain ⟨rest, error⟩ := whole rfl
      rw [Framing.drain_append, rest, List.nil_append, drain_lines fits]
      exact ⟨rfl, rfl⟩
  | _ => exact absurd fits not_false

/-- Every transformer takes data that fits. -/
theorem call_ready {source : CopyProtocol} {wire : Bytes} {transformer : CopyTransformer}
    {datum : CopyDatum}
    (ready
      : ∀ protocol ∈ transformer.protocols,
          (transformer.transformers protocol).Ready wire source protocol)
    (whole : Whole source wire) (fits : Fits source wire datum)
    : ∃ next,
        transformer.call datum = some next ∧ next.protocols = transformer.protocols
        ∧ ∀ protocol ∈ transformer.protocols,
            (next.transformers protocol).Ready (wire ++ datum.wire) source protocol
            ∧ Continues protocol wire datum.wire (next.current protocol) := by
  have all : transformer.protocols.all
      (fun protocol => ((transformer.transformers protocol).apply datum).isSome) = true := by
    rw [List.all_eq_true]
    intro protocol member
    obtain ⟨_, _, applied, -⟩ := apply_ready (ready protocol member) whole fits
    rw [applied]
    rfl
  refine ⟨_, if_pos all, rfl, ?_⟩
  intro protocol member
  obtain ⟨next, result, applied, ready, continues⟩ :=
    apply_ready (ready protocol member) whole fits
  simp only [applied]
  exact ⟨ready, continues⟩

/-- Data that fits is distributed. -/
theorem serviceProducer_data {source : CopyProtocol} {wire : Bytes} {manager : CopyManager}
    (serves : manager.Serves source wire) (some : manager.receivers ≠ []) {datum : CopyDatum}
    {messages bytes : Nat} {rest : List Production}
    (pulls : manager.producer = .data datum messages bytes :: rest)
    (fits : Fits source wire datum)
    : ∃ served,
        manager.serviceProducer = (served, .ok (messages, bytes)) ∧ served.producer = rest
        ∧ served.stats = manager.stats ∧ served.Loaded source (wire ++ datum.wire) := by
  obtain ⟨transformer, called, protocols, ready⟩ :=
    call_ready serves.ready serves.whole fits
  have accepted (receiver : Nat) (member : receiver ∈ manager.receivers) :=
    Receiver.accept_has (serves.receivers receiver member) (serves.idle receiver member)
      (ready _ (serves.known receiver member)).2
  have served : manager.serviceProducer
      = (
          {
            manager with
            producer := rest
            transformer
            objects := fun receiver =>
              if receiver ∈ manager.receivers then
                (manager.objects receiver).accept
                  (transformer.current (manager.objects receiver).protocolOf)
              else manager.objects receiver
          },
          .ok (messages, bytes)
        ) := by
    rw [serviceProducer, if_neg some, pulls]
    simp only [called]
  refine ⟨_, served, rfl, rfl, ?_, ?_, ?_, ?_, whole_append serves.whole fits⟩
  · intro receiver member
    simp only [if_pos member]
    exact (accepted receiver member).1
  · intro receiver
    dsimp only
    split
    next member => exact (accepted receiver member).1.passed
    next => exact (serves.passed receiver).append _
  · intro protocol member
    rw [protocols] at member
    exact (ready protocol member).1
  · intro receiver member
    simp only [if_pos member, (accepted receiver member).2, protocols]
    exact serves.known receiver member

/-- Every receiver transmits, and those that fault are dropped. -/
theorem serviceReceivers_serves {source : CopyProtocol} {wire : Bytes} {manager : CopyManager}
    (loaded : manager.Loaded source wire) (outcome : Nat → Outcome)
    : (manager.serviceReceivers outcome).1.Serves source wire := by
  have transmitted (receiver : Nat) (member : receiver ∈ manager.receivers) :=
    Receiver.transmit_has (loaded.receivers receiver member) (outcome receiver)
  refine ⟨⟨?_, ?_, loaded.ready, ?_, loaded.whole⟩, ?_, ?_⟩
  · intro receiver member
    have inside := List.mem_of_mem_filter member
    simp only [serviceReceivers, if_pos inside]
    exact (transmitted receiver inside).1
  · intro receiver
    simp only [serviceReceivers]
    split
    next member => exact (transmitted receiver member).1.passed
    next => exact loaded.passed receiver
  · intro receiver member
    have inside := List.mem_of_mem_filter member
    simp only [serviceReceivers, if_pos inside, (transmitted receiver inside).2.2]
    exact loaded.known receiver inside
  · intro receiver member
    obtain ⟨inside, done⟩ := List.mem_filter.mp member
    simp only [serviceReceivers, if_pos inside]
    exact (transmitted receiver inside).2.1 done
  · intro receiver member
    have inside := List.mem_of_mem_filter member
    simp only [serviceReceivers, if_pos inside]
    exact (transmitted receiver inside).1

/-- What the productions put on the wire. -/
def wireOf (productions : List Production) : Bytes := productions.flatMap Production.wire

def countsOf (productions : List Production) : Nat × Nat :=
  (productions.map Production.counts).sum

/-- Behind a call: what the producer has given meanwhile is served, and told or kept. -/
structure Steps (source : CopyProtocol) (wire : Bytes) (manager : CopyManager)
    (result : CopyManager × CopyReply) (given : List Production)
    : Prop where
  producer : manager.producer = given ++ result.1.producer
  serves : result.1.Serves source (wire ++ wireOf given)
  told : result.2.counts + result.1.stats = manager.stats + countsOf given

theorem Loaded.with_stats {source : CopyProtocol} {wire : Bytes} {manager : CopyManager}
    (loaded : manager.Loaded source wire) (stats : Nat × Nat)
    : Loaded source wire { manager with stats } :=
  ⟨loaded.receivers, loaded.passed, loaded.ready, loaded.known, loaded.whole⟩

/-- Nothing of this is seen by the receivers. -/
theorem Serves.moved {source : CopyProtocol} {wire : Bytes} {manager : CopyManager}
    (serves : manager.Serves source wire) (producer : List Production)
    (seenStopIteration : Bool) (stats : Nat × Nat)
    : Serves source wire { manager with producer, seenStopIteration, stats } :=
  ⟨⟨serves.receivers, serves.passed, serves.ready, serves.known, serves.whole⟩,
    serves.idle, serves.faults⟩

theorem wireOf_raises (wire : Bytes) : wire ++ wireOf [.raises] = wire := by
  simp [wireOf, Production.wire]

theorem wireOf_data (wire : Bytes) (datum : CopyDatum) (messages bytes : Nat)
    : wire ++ wireOf [.data datum messages bytes] = wire ++ datum.wire := by
  simp [wireOf, Production.wire]

theorem next_steps {source : CopyProtocol} {wire : Bytes} {manager : CopyManager}
    (serves : manager.Serves source wire) (sendable : Sendable source wire manager.producer)
    (outcome : Nat → Outcome)
    : ∃ given, Steps source wire manager (manager.next outcome) given := by
  by_cases none : manager.receivers = []
  · refine ⟨[], ?_⟩
    have stopped : manager.next outcome = (manager, .stopIteration) := by
      simp only [next, serviceProducer, if_pos none]
    rw [stopped]
    exact ⟨rfl, by simpa [wireOf] using serves, by simp [countsOf, CopyReply.counts]⟩
  cases pulls : manager.producer with
  | nil =>
      refine ⟨[], ?_⟩
      have stopped : manager.next outcome
          = ({ manager with seenStopIteration := true }, .stopIteration) := by
        simp only [next, serviceProducer, if_neg none, pulls]
      rw [stopped]
      refine ⟨by simp, ?_, by simp [countsOf, CopyReply.counts]⟩
      rw [wireOf, List.flatMap_nil, List.append_nil]
      exact serves.moved manager.producer true manager.stats
  | cons production rest =>
      cases production with
      | raises =>
          refine ⟨[.raises], ?_⟩
          have raised : manager.next outcome
              = ({ manager with producer := rest }, .producerFault) := by
            simp only [next, serviceProducer, if_neg none, pulls]
          rw [raised]
          refine ⟨by simp [pulls], ?_,
            by simp [countsOf, CopyReply.counts, Production.counts, Prod.mk_zero_zero]⟩
          rw [wireOf_raises]
          exact serves.moved rest manager.seenStopIteration manager.stats
      | data datum messages bytes =>
          rw [pulls] at sendable
          obtain ⟨served, produced, producer, stats, loaded⟩ :=
            serviceProducer_data serves none pulls sendable.1
          refine ⟨[.data datum messages bytes], ?_⟩
          have counted : manager.stats + countsOf [.data datum messages bytes]
              = (manager.stats.1 + messages, manager.stats.2 + bytes) := by
            simp [countsOf, Production.counts, Prod.ext_iff]
          have transmitted := serviceReceivers_serves
            (loaded.with_stats (manager.stats.1 + messages, manager.stats.2 + bytes)) outcome
          have moved : manager.next outcome
              = match
                  { served with
                    stats := (manager.stats.1 + messages, manager.stats.2 + bytes)
                  }.serviceReceivers outcome with
                | (transmitted, []) =>
                    ({ transmitted with stats := (0, 0) },
                      .progress (manager.stats.1 + messages) (manager.stats.2 + bytes))
                | (transmitted, faults) => (transmitted, .receiverFault faults) := by
            simp only [next, produced]
          rcases result : { served with
              stats := (manager.stats.1 + messages, manager.stats.2 + bytes)
            }.serviceReceivers outcome with ⟨after, faults⟩
          have kept : after.producer = rest := by
            rw [← producer]
            exact (congrArg (fun result => result.1.producer) result).symm
          have told : after.stats = (manager.stats.1 + messages, manager.stats.2 + bytes) :=
            (congrArg (fun result => result.1.stats) result).symm
          rw [result] at transmitted moved
          rw [moved]
          cases faults with
          | nil =>
              refine ⟨by simp [pulls, kept], ?_, ?_⟩
              · rw [wireOf_data]
                exact transmitted.moved after.producer after.seenStopIteration (0, 0)
              · rw [counted]
                rfl
          | cons first others =>
              refine ⟨by simp [pulls, kept], ?_, ?_⟩
              · rw [wireOf_data]
                exact transmitted
              · rw [counted, told]
                exact Prod.ext (Nat.zero_add _) (Nat.zero_add _)

theorem reconcile_steps {source : CopyProtocol} {wire : Bytes} {manager : CopyManager}
    (serves : manager.Serves source wire) {receiver : Nat} (dropped : receiver ∈ manager.faults)
    (outcome : Outcome)
    : Steps source wire manager (manager.reconcile receiver outcome) [] := by
  have wire_eq : wire ++ wireOf [] = wire := List.append_nil wire
  have counted (stats : Nat × Nat) : (0, 0) + stats = stats + countsOf [] := by
    simp [countsOf, Prod.mk_zero_zero]
  obtain ⟨has, idle, same⟩ := Receiver.transmit_has (serves.faults receiver dropped) outcome
  rw [reconcile]
  split
  next => exact ⟨rfl, wire_eq.symm ▸ serves, counted _⟩
  next known =>
      have others (other : Nat) (taken : (manager.objects other).Has wire)
          : Receiver.Has wire
              (if other = receiver then ((manager.objects receiver).transmit outcome).1
                else manager.objects other) := by
        split
        next => exact has
        next => exact taken
      have passed (other : Nat)
          : Receiver.Passed wire
              (if other = receiver then ((manager.objects receiver).transmit outcome).1
                else manager.objects other) := by
        split
        next => exact has.passed
        next => exact serves.passed other
      have kinds (other : Nat)
          : Receiver.protocolOf
              (if other = receiver then ((manager.objects receiver).transmit outcome).1
                else manager.objects other)
            = (manager.objects other).protocolOf := by
        split
        next here => rw [same, here]
        next => rfl
      dsimp only
      split
      next done =>
          refine ⟨rfl, wire_eq.symm ▸ ⟨⟨?_, passed, serves.ready, ?_, serves.whole⟩, ?_, ?_⟩,
            counted _⟩
          · intro other member
            dsimp only
            split
            next => exact has
            next different =>
                exact serves.receivers other ((List.mem_insert_iff.mp member).resolve_left different)
          · intro other member
            dsimp only
            rw [kinds]
            rcases List.mem_insert_iff.mp member with rfl | member
            · exact not_not.mp known
            · exact serves.known other member
          · intro other member
            dsimp only
            split
            next => exact idle done
            next different =>
                exact serves.idle other ((List.mem_insert_iff.mp member).resolve_left different)
          · exact fun other member => others other (serves.faults other member)
      next failed =>
          have absent : receiver ∉ manager.receivers := fun member =>
            failed (Receiver.transmit_idle (serves.idle receiver member) outcome)
          refine ⟨rfl, wire_eq.symm ▸ ⟨⟨?_, passed, serves.ready, ?_, serves.whole⟩, ?_, ?_⟩,
            counted _⟩
          · exact fun other member => others other (serves.receivers other member)
          · intro other member
            dsimp only
            rw [kinds]
            exact serves.known other member
          · intro other member
            have different : other ≠ receiver := fun here => absent (here ▸ member)
            dsimp only
            rw [if_neg different]
            exact serves.idle other member
          · exact fun other member => others other (serves.faults other member)

/-- From the entered context on. -/
def enter (source : CopyProtocol) (producer : List Production) (objects : Nat → Receiver)
    (receivers : List Nat)
    : CopyManager where
  producer
  receivers
  objects
  transformer :=
    .init source (receivers.map (fun receiver => (objects receiver).protocolOf))
  seenStopIteration := false
  stats := (0, 0)
  faults := []

end CopyManager

def copyManager (source : CopyProtocol) (producer : List Production) (objects : Nat → Receiver)
    (receivers : List Nat)
    : Object CopyManager CopyCall CopyReply where
  start := .enter source producer objects receivers
  answer manager
    | .next outcome => manager.next outcome
    | .reconcile receiver outcome => manager.reconcile receiver outcome

/-- Only receivers that the last transmission dropped are reconciled. -/
def Reconcilable (manager : CopyManager) : CopyCall → Prop
  | .next _ => True
  | .reconcile receiver _ => receiver ∈ manager.faults

instance (manager : CopyManager) (call : CopyCall) : Decidable (Reconcilable manager call) :=
  match call with
  | .next _ => .isTrue trivial
  | .reconcile receiver _ => inferInstanceAs (Decidable (receiver ∈ manager.faults))

namespace CopyManager

variable {source : CopyProtocol} {producer : List Production} {objects : Nat → Receiver}
  {receivers : List Nat}

theorem enter_serves (fresh : ∀ receiver, (objects receiver).Fresh)
    : (enter source producer objects receivers).Serves source [] where
  receivers receiver _ := (fresh receiver).has
  passed receiver := (fresh receiver).has.passed
  ready protocol _ := copyProtocolMappings_ready source protocol
  known receiver member := List.mem_map.mpr ⟨receiver, member, rfl⟩
  whole := by
    rintro -
    rw [drain_nil]
    exact ⟨rfl, rfl⟩
  idle receiver _ := (fresh receiver).idle
  faults _ none := absurd none List.not_mem_nil

theorem sendable_append {wire : Bytes} {given rest : List Production}
    (sendable : Sendable source wire (given ++ rest))
    : Sendable source (wire ++ wireOf given) rest := by
  induction given generalizing wire with
  | nil => simpa [wireOf] using sendable
  | cons production given ih =>
      cases production with
      | raises => exact ih sendable
      | data datum messages bytes =>
          have later := ih sendable.2
          rwa [List.append_assoc] at later

/-- Every call, and so every run, keeps the receivers at what is on the wire: by induction on
the calls.
-/
theorem run_steps {manager : CopyManager} {wire : Bytes} (serves : manager.Serves source wire)
    (sendable : Sendable source wire manager.producer) {calls : List CopyCall}
    (met : (copyManager source producer objects receivers).Each Reconcilable manager calls)
    : ∃ given,
        manager.producer
            = given ++ ((copyManager source producer objects receivers).after manager calls).producer
        ∧ ((copyManager source producer objects receivers).after manager calls).Serves source
            (wire ++ wireOf given)
        ∧ (((copyManager source producer objects receivers).replies manager calls).map
                CopyReply.counts).sum
              + ((copyManager source producer objects receivers).after manager calls).stats
          = manager.stats + countsOf given := by
  induction calls generalizing manager wire with
  | nil =>
      refine ⟨[], rfl, ?_, ?_⟩
      · rw [wireOf, List.flatMap_nil, List.append_nil]
        exact serves
      · simp [countsOf]
  | cons call rest ih =>
      obtain ⟨given, steps⟩ : ∃ given,
          Steps source wire manager
            ((copyManager source producer objects receivers).answer manager call) given := by
        cases call with
        | next outcome => exact next_steps serves sendable outcome
        | reconcile receiver outcome => exact ⟨[], reconcile_steps serves met.1 outcome⟩
      rw [steps.producer] at sendable
      obtain ⟨later, producer, serves, told⟩ :=
        ih steps.serves (sendable_append sendable) met.2
      refine ⟨given ++ later, ?_, ?_, ?_⟩
      · rw [steps.producer, producer, List.append_assoc]
        rfl
      · rw [wireOf, List.flatMap_append, ← List.append_assoc]
        exact serves
      · rw [Object.replies_cons, Object.after_cons, List.map_cons, List.sum_cons, add_assoc, told,
          ← add_assoc, steps.told, add_assoc, countsOf, countsOf, countsOf, List.map_append,
          List.sum_append]

/-- However sends are cut and whichever transmissions fault: a receiver that was never dropped,
or was reconciled in time, has passed on exactly what the producer gave; one that was dropped
last keeps the rest; any other has passed on a front of it. Progress that was told and kept
adds up.
-/
theorem after_copyManager (fresh : ∀ receiver, (objects receiver).Fresh)
    (sendable : Sendable source [] producer) {calls : List CopyCall}
    (met
      : (copyManager source producer objects receivers).Each Reconcilable
          (enter source producer objects receivers) calls)
    : let manager :=
        (copyManager source producer objects receivers).after
          (enter source producer objects receivers) calls
      let replies :=
        (copyManager source producer objects receivers).replies
          (enter source producer objects receivers) calls
      ∃ given,
        producer = given ++ manager.producer
        ∧ (∀ receiver ∈ manager.receivers,
            (manager.objects receiver).Has (wireOf given) ∧ (manager.objects receiver).Idle)
        ∧ (∀ receiver ∈ manager.faults, (manager.objects receiver).Has (wireOf given))
        ∧ (∀ receiver, (manager.objects receiver).Passed (wireOf given))
        ∧ (replies.map CopyReply.counts).sum + manager.stats = countsOf given := by
  obtain ⟨given, pulled, serves, told⟩ := run_steps (enter_serves fresh) sendable met
  rw [List.nil_append] at serves
  refine ⟨given, pulled, ?_, serves.faults, serves.passed, ?_⟩
  · exact fun receiver member => ⟨serves.receivers receiver member, serves.idle receiver member⟩
  · rw [told]
    exact zero_add _

/-- A send takes two bytes and the next one raises; reconciled, the receiver is at the end. -/
theorem after_copyManager_reconciled
    : let object :=
        copyManager .pqv3 [.data (.view [100, 0, 0, 0, 5, 65]) 1 6] (fun _ => .protocol [] []) [0]
      let manager :=
        object.after object.start [.next (fun _ => ⟨[2], false⟩), .reconcile 0 ⟨[3, 1], false⟩]
      ∃ given,
        [.data (.view [100, 0, 0, 0, 5, 65]) 1 6] = given ++ manager.producer
        ∧ ∀ receiver ∈ manager.receivers, (manager.objects receiver).Has (wireOf given) := by
  have fresh (receiver : Nat) : ((fun _ => .protocol [] [] : Nat → Receiver) receiver).Fresh :=
    Or.inr (Or.inl rfl)
  have sendable : Sendable .pqv3 [] [.data (.view [100, 0, 0, 0, 5, 65]) 1 6] :=
    ⟨⟨by decide, by decide⟩, trivial⟩
  have met
      : (copyManager .pqv3 [.data (.view [100, 0, 0, 0, 5, 65]) 1 6] (fun _ => .protocol [] [])
            [0]).Each Reconcilable
          (enter .pqv3 [.data (.view [100, 0, 0, 0, 5, 65]) 1 6] (fun _ => .protocol [] []) [0])
          [.next (fun _ => ⟨[2], false⟩), .reconcile 0 ⟨[3, 1], false⟩] :=
    ⟨trivial, by decide, trivial⟩
  obtain ⟨given, pulled, receivers, -⟩ := after_copyManager fresh sendable met
  exact ⟨given, pulled, fun receiver member => (receivers receiver member).1⟩

end CopyManager

end PgCluster.Postgresql
