import PgCluster.Foundation.BigEndian
import PgCluster.Foundation.MemoryFile
import PgCluster.Foundation.MessageStream

/-! The message buffer of the driver in Python: a file of the received bytes, of which the
consumed front is cut off now and then.
-/

namespace PgCluster.Postgresql

open Foundation

/-- The type by its byte. -/
structure Message where
  typ : UInt8
  body : Bytes
deriving DecidableEq

inductive BufferError where
  /-- `ValueError("invalid message size '%d'" % (length,))`. -/
  | invalidMessageSize (length : Nat)
  /-- The `SystemError` of PyTuple_New for a negative size. -/
  | badInternalCall
  /-- An item of message_types before its first one is read. -/
  | outOfBounds
deriving DecidableEq

-----------------------------------------------------------------------------------------
-- Messages on the wire
-----------------------------------------------------------------------------------------

/-- The type, the length with its own four bytes, and the body. -/
def readMessage : Bytes → Reading UInt8 Message BufferError
  | typ :: first :: second :: third :: fourth :: pending =>
      let length := BigEndian.ofBytes [first, second, third, fourth]
      if length < 4 then .invalid (.invalidMessageSize length)
      else if pending.length < length - 4 then .incomplete
      else .message ⟨typ, pending.take (length - 4)⟩ (pending.drop (length - 4))
  | _ => .incomplete

def Message.bytes (message : Message) : Bytes :=
  message.typ :: BigEndian.toBytes 4 (message.body.length + 4) ++ message.body

/-- The body fits the four bytes of its length. -/
def Message.Fits (message : Message) : Prop := message.body.length + 4 < 256 ^ 4

instance (message : Message) : Decidable message.Fits :=
  inferInstanceAs (Decidable (_ < _))

theorem readMessage_short {pending : Bytes} (short : pending.length < 5)
    : readMessage pending = .incomplete := by
  match pending, short with
  | [], _ | [_], _ | [_, _], _ | [_, _, _], _ | [_, _, _, _], _ => rfl

/-- Bytes that hold a header, by their first five. -/
theorem exists_header {pending : Bytes} (enough : 5 ≤ pending.length)
    : ∃ typ first second third fourth rest,
        pending = typ :: first :: second :: third :: fourth :: rest := by
  match pending, enough with
  | typ :: first :: second :: third :: fourth :: rest, _ =>
      exact ⟨typ, first, second, third, fourth, rest, rfl⟩

theorem readMessage_message {pending rest : Bytes} {message : Message}
    (read : readMessage pending = .message message rest)
    : pending = message.bytes ++ rest := by
  rcases Nat.lt_or_ge pending.length 5 with short | enough
  · rw [readMessage_short short] at read
    contradiction
  obtain ⟨typ, first, second, third, fourth, tail, rfl⟩ := exists_header enough
  rw [readMessage] at read
  split at read
  · contradiction
  split at read
  · contradiction
  next valid complete =>
      cases read
      have digits := BigEndian.toBytes_ofBytes [first, second, third, fourth]
      have size
          : (tail.take (BigEndian.ofBytes [first, second, third, fourth] - 4)).length + 4
            = BigEndian.ofBytes [first, second, third, fourth] := by
        rw [List.length_take]
        omega
      rw [Message.bytes, size]
      simp only [List.length_cons, List.length_nil] at digits
      rw [digits]
      simp

/-- What is read behind a header. -/
theorem readMessage_header {size : Nat} (least : 4 ≤ size) (fits : size < 256 ^ 4)
    (typ : UInt8) (pending : Bytes)
    : readMessage (typ :: BigEndian.toBytes 4 size ++ pending)
      = if pending.length < size - 4 then .incomplete
        else .message ⟨typ, pending.take (size - 4)⟩ (pending.drop (size - 4)) := by
  have length := BigEndian.length_toBytes 4 size
  have value := BigEndian.ofBytes_toBytes fits
  match digits : BigEndian.toBytes 4 size, length with
  | [first, second, third, fourth], _ =>
      rw [digits] at value
      simp only [List.cons_append, List.nil_append, readMessage, value]
      rw [if_neg (Nat.not_lt_of_le least)]

/-- A message in front is read and nothing behind it is touched. -/
theorem readMessage_bytes {message : Message} (fits : message.Fits) (more : Bytes)
    : readMessage (message.bytes ++ more) = .message message more := by
  have header := readMessage_header (Nat.le_add_left _ _) fits message.typ
    (message.body ++ more)
  rw [Message.bytes, List.append_assoc, header, Nat.add_sub_cancel, List.take_left,
    List.drop_left, if_neg (by simp)]

def framing : Framing UInt8 Message BufferError where
  read := readMessage
  shrinks read := by
    rw [readMessage_message read, List.length_append, Message.bytes, List.cons_append,
      List.length_cons]
    omega
  message_append {pending message rest} read more := by
    rcases Nat.lt_or_ge pending.length 5 with short | enough
    · rw [readMessage_short short] at read
      contradiction
    obtain ⟨typ, first, second, third, fourth, tail, rfl⟩ := exists_header enough
    simp only [readMessage, List.cons_append, List.length_append] at read ⊢
    split at read
    · contradiction
    split at read
    · contradiction
    next valid complete =>
        cases read
        rw [if_neg valid, if_neg (by omega), List.take_append_of_le_length (by omega),
          List.drop_append_of_le_length (by omega)]
  invalid_append {pending error} read more := by
    rcases Nat.lt_or_ge pending.length 5 with short | enough
    · rw [readMessage_short short] at read
      contradiction
    obtain ⟨typ, first, second, third, fourth, tail, rfl⟩ := exists_header enough
    simp only [readMessage, List.cons_append] at read ⊢
    split at read
    · next invalid => rw [if_pos invalid, read]
    · split at read <;> contradiction

theorem framing_read (pending : Bytes) : framing.read pending = readMessage pending := rfl

theorem drain_nil : framing.drain [] = ⟨[], [], none⟩ := Framing.drain_incomplete rfl

-----------------------------------------------------------------------------------------
-- pq_message_stream
-----------------------------------------------------------------------------------------

/-- `struct.Struct('!xL').unpack_from`. -/
def xlUnpack (header : Bytes) : Nat := BigEndian.ofBytes ((header.drop 1).take 4)

structure PqMessageStream where
  strio : MemoryFile UInt8
  start : Nat

namespace PqMessageStream

def block : Nat := 512

def limit : Nat := block * 4

/-- The loop of _rtruncate. What lies in front is copied over before it is read again. -/
def moveBlocks (strio : MemoryFile UInt8) (copytoPos copyfromPos : Nat)
    (ahead : copytoPos ≤ copyfromPos)
    : MemoryFile UInt8 :=
  let read := (strio.seek copyfromPos).read block
  let written := (read.1.seek copytoPos).write read.2
  if full : read.2.length = block then
    moveBlocks written written.position read.1.position (by
      simp only [written, MemoryFile.write_position, MemoryFile.seek_position,
        read, MemoryFile.read_position]
      omega)
  else written
termination_by strio.content.length - copyfromPos
decreasing_by
  have inside : copyfromPos + block ≤ strio.content.length := by
    simp only [read, MemoryFile.read_data, MemoryFile.seek_content, MemoryFile.seek_position,
      List.length_take, List.length_drop, block] at full ⊢
    omega
  have content := MemoryFile.write_content (read.1.seek copytoPos)
    (by simp only [read, MemoryFile.seek_position, MemoryFile.seek_content,
      MemoryFile.read_content]; omega) read.2
  have size : written.content.length = strio.content.length := by
    simp only [written, content, full, MemoryFile.seek_content, MemoryFile.seek_position,
      List.length_append, List.length_take, List.length_drop, read, MemoryFile.read_content]
    omega
  rw [size, MemoryFile.read_position, full, MemoryFile.seek_position]
  simp only [block] at inside ⊢
  omega

/-- Remove the given amount of data, up to the position when no amount is given. -/
def rtruncate (strio : MemoryFile UInt8) (amt : Option Nat) : MemoryFile UInt8 :=
  let amount := amt.getD strio.position
  let size := strio.seekEnd.position
  if size = amount then strio.seekEnd.truncate 0
  else (moveBlocks strio.seekEnd 0 amount (Nat.zero_le _)).truncate (size - amount)

/-- What every reading method does first. -/
def dropConsumed (stream : PqMessageStream) : PqMessageStream :=
  if stream.start > limit then ⟨rtruncate stream.strio (some stream.start), 0⟩ else stream

def getMessage (strio : MemoryFile UInt8)
    : MemoryFile UInt8 × Except BufferError (Option Message) :=
  let header := strio.read 5
  if header.2.length < 5 then (header.1, .ok none)
  else
    let length := xlUnpack header.2
    let typ := header.2.headI
    if length < 4 then (header.1, .error (.invalidMessageSize length))
    else
      let body := header.1.read (length - 4)
      if body.2.length < length - 4 then (body.1, .ok none)
      else (body.1, .ok (some ⟨typ, body.2⟩))

/-- The body of next_message and of __next__, which differ in what they do without a
message.
-/
def pop (stream : PqMessageStream) (absent : StreamReply UInt8 Message BufferError)
    : PqMessageStream × StreamReply UInt8 Message BufferError :=
  let ready := stream.dropConsumed
  let got := getMessage (ready.strio.seek ready.start)
  match got.2 with
  | .error error => (⟨got.1, ready.start⟩, .raises error)
  | .ok none => (⟨got.1, ready.start⟩, absent)
  | .ok (some message) => (⟨got.1, got.1.position⟩, .message message)

def nextMessage (stream : PqMessageStream)
    : PqMessageStream × StreamReply UInt8 Message BufferError :=
  stream.pop .nothing

def next (stream : PqMessageStream)
    : PqMessageStream × StreamReply UInt8 Message BufferError :=
  stream.pop .stop

/-- The loop of read, with the number of messages it may still take. -/
def readMessages (strio : MemoryFile UInt8) (newStart : Nat)
    : Nat → MemoryFile UInt8 × Except BufferError (List Message × Nat)
  | 0 => (strio, .ok ([], newStart))
  | num + 1 =>
      let got := getMessage strio
      match got.2 with
      | .error error => (got.1, .error error)
      | .ok none => (got.1, .ok ([], newStart))
      | .ok (some message) =>
          let later := readMessages got.1 (newStart + (5 + message.body.length)) num
          (later.1, later.2.map (fun taken => (message :: taken.1, taken.2)))

def read (stream : PqMessageStream) (num : Nat)
    : PqMessageStream × StreamReply UInt8 Message BufferError :=
  let ready := stream.dropConsumed
  let got := readMessages (ready.strio.seek ready.start) ready.start num
  match got.2 with
  | .error error => (⟨got.1, ready.start⟩, .raises error)
  | .ok (messages, newStart) => (⟨got.1, newStart⟩, .messages messages)

def hasMessage (stream : PqMessageStream)
    : PqMessageStream × StreamReply UInt8 Message BufferError :=
  let header := (stream.strio.seek stream.start).read 5
  if header.2.length < 5 then (⟨header.1, stream.start⟩, .flag false)
  else
    let length := xlUnpack header.2
    if length < 4 then (⟨header.1, stream.start⟩, .raises (.invalidMessageSize length))
    else
      let strio := header.1.seekEnd
      (⟨strio, stream.start⟩, .flag (decide (strio.position - stream.start ≥ length + 1)))

/-- The loop of __len__. It looks for the last byte of each body only. -/
def countMessages (strio : MemoryFile UInt8)
    : MemoryFile UInt8 × Except BufferError Nat :=
  let header := strio.read 5
  if header.2.length < 5 then (header.1, .ok 0)
  else
    let length := xlUnpack header.2
    if length < 4 then (header.1, .error (.invalidMessageSize length))
    else
      let last := (header.1.seek (header.1.position + length - 4 - 1)).read 1
      if last.2.length ≠ 1 then (last.1, .ok 0)
      else
        let later := countMessages last.1
        (later.1, later.2.map (fun count => count + 1))
termination_by strio.content.length - strio.position
decreasing_by
  simp only [header, last, length, MemoryFile.read_data, MemoryFile.read_content,
    MemoryFile.seek_content, MemoryFile.read_position, MemoryFile.seek_position,
    List.length_take, List.length_drop] at *
  omega

def len (stream : PqMessageStream)
    : PqMessageStream × StreamReply UInt8 Message BufferError :=
  let counted := countMessages (stream.strio.seek stream.start)
  match counted.2 with
  | .error error => (⟨counted.1, stream.start⟩, .raises error)
  | .ok count => (⟨counted.1, stream.start⟩, .count count)

def write (stream : PqMessageStream) (data : Bytes) : PqMessageStream :=
  ⟨stream.strio.seekEnd.write data, stream.start⟩

def truncate (stream : PqMessageStream) : PqMessageStream := ⟨stream.strio.truncate 0, 0⟩

def getvalue (stream : PqMessageStream)
    : PqMessageStream × StreamReply UInt8 Message BufferError :=
  let data := (stream.strio.seek stream.start).readAll
  (⟨data.1, stream.start⟩, .data data.2)

/-- The `num` of read when none is given. -/
def numDefault : Nat := 0xFFFFFFFF

end PqMessageStream

open PqMessageStream in
def pqMessageStream
    : Object PqMessageStream (StreamCall UInt8) (StreamReply UInt8 Message BufferError) where
  start := ⟨.empty, 0⟩
  answer stream
    | .write data => (stream.write data, .nothing)
    | .truncate => (stream.truncate, .nothing)
    | .hasMessage => stream.hasMessage
    | .len => stream.len
    | .nextMessage => stream.nextMessage
    | .next => stream.next
    | .read num => stream.read (num.getD numDefault)
    | .getvalue => stream.getvalue

-----------------------------------------------------------------------------------------
-- The file as a stream
-----------------------------------------------------------------------------------------

namespace PqMessageStream

/-- What the moves leave, up to the size that is kept. By induction on the blocks: each one
is copied before any move overwrites it.
-/
theorem moveBlocks_content (strio : MemoryFile UInt8) (copytoPos copyfromPos : Nat)
    (ahead : copytoPos ≤ copyfromPos) (inside : copyfromPos ≤ strio.content.length)
    : (moveBlocks strio copytoPos copyfromPos ahead).content.take
          (strio.content.length - (copyfromPos - copytoPos))
        = strio.content.take copytoPos ++ strio.content.drop copyfromPos := by
  fun_induction moveBlocks strio copytoPos copyfromPos ahead with
  | case1 strio copytoPos copyfromPos ahead read written full ih =>
      have data : read.2 = (strio.content.drop copyfromPos).take block := rfl
      have enough : copyfromPos + block ≤ strio.content.length := by
        rw [data, List.length_take, List.length_drop] at full
        simp only [block] at full ⊢
        omega
      have room : copytoPos + read.2.length ≤ strio.content.length := by omega
      have size : written.content.length = strio.content.length :=
        MemoryFile.write_length (read.1.seek copytoPos) room
      have front : written.content.take (copytoPos + read.2.length)
          = strio.content.take copytoPos ++ read.2 :=
        MemoryFile.write_take (read.1.seek copytoPos)
          (show copytoPos ≤ strio.content.length by omega) read.2
      have behind : written.content.drop (copyfromPos + read.2.length)
          = strio.content.drop (copyfromPos + read.2.length) :=
        MemoryFile.write_drop (read.1.seek copytoPos) room
          (Nat.add_le_add_right ahead _)
      have target : written.position = copytoPos + read.2.length :=
        MemoryFile.write_position _ _
      have source : read.1.position = copyfromPos + read.2.length := rfl
      have moved : read.2 ++ strio.content.drop (copyfromPos + read.2.length)
          = strio.content.drop copyfromPos := by
        rw [full, ← List.drop_drop, data]
        exact List.take_append_drop _ _
      have kept : written.content.length - (read.1.position - written.position)
          = strio.content.length - (copyfromPos - copytoPos) := by
        rw [size, target, source, Nat.add_sub_add_right]
      have parts : written.content.take written.position
            ++ written.content.drop read.1.position
          = strio.content.take copytoPos ++ strio.content.drop copyfromPos := by
        rw [target, source, front, behind, List.append_assoc, moved]
      have later := ih (by omega)
      rw [kept, parts] at later
      exact later
  | case2 strio copytoPos copyfromPos ahead read written short =>
      have data : read.2 = strio.content.drop copyfromPos := by
        apply List.take_of_length_le
        have less : read.2.length < block := by
          have most : read.2.length ≤ block := List.length_take_le _ _
          omega
        simp only [read, MemoryFile.read_data, MemoryFile.seek_content,
          MemoryFile.seek_position, List.length_take] at less ⊢
        omega
      have front : written.content.take (copytoPos + read.2.length)
          = strio.content.take copytoPos ++ read.2 :=
        MemoryFile.write_take (read.1.seek copytoPos)
          (show copytoPos ≤ strio.content.length by omega) read.2
      have kept : strio.content.length - (copyfromPos - copytoPos)
          = copytoPos + read.2.length := by
        rw [data, List.length_drop]
        omega
      rw [kept, front, data]

theorem rtruncate_content {strio : MemoryFile UInt8} {amount : Nat}
    (inside : amount ≤ strio.content.length)
    : (rtruncate strio (some amount)).content = strio.content.drop amount := by
  by_cases all : strio.content.length = amount
  · have cut : rtruncate strio (some amount) = strio.seekEnd.truncate 0 := if_pos all
    rw [cut, ← all]
    simp
  · have moved : rtruncate strio (some amount)
        = (moveBlocks strio.seekEnd 0 amount (Nat.zero_le _)).truncate
            (strio.content.length - amount) := if_neg all
    have kept := moveBlocks_content strio.seekEnd 0 amount (Nat.zero_le _) inside
    rw [moved]
    simpa using kept

/-- The stream holds the given bytes. -/
structure Holds (stream : PqMessageStream) (pending : Bytes) : Prop where
  start_le
    : stream.start ≤ stream.strio.content.length
  drop_start
    : stream.strio.content.drop stream.start = pending

/-- Moving the position of the file is not seen. -/
theorem Holds.of_content {stream : PqMessageStream} {pending : Bytes}
    (holds : stream.Holds pending) {strio : MemoryFile UInt8}
    (same : strio.content = stream.strio.content)
    : Holds ⟨strio, stream.start⟩ pending :=
  ⟨by rw [same]; exact holds.start_le, by rw [same]; exact holds.drop_start⟩

theorem Holds.dropConsumed {stream : PqMessageStream} {pending : Bytes}
    (holds : stream.Holds pending)
    : stream.dropConsumed.Holds pending := by
  unfold PqMessageStream.dropConsumed
  split
  · have content := rtruncate_content holds.start_le
    exact ⟨Nat.zero_le _, by rw [List.drop_zero, content, holds.drop_start]⟩
  · exact holds

/-- The header of the file's next message, and what follows it. -/
theorem exists_file_header (strio : MemoryFile UInt8)
    (enough : 5 ≤ (strio.content.drop strio.position).length)
    : ∃ typ first second third fourth rest,
        strio.content.drop strio.position = typ :: first :: second :: third :: fourth :: rest
          ∧ (strio.read 5).2 = [typ, first, second, third, fourth]
          ∧ strio.content.drop (strio.position + 5) = rest
          ∧ strio.position + 5 + rest.length = strio.content.length := by
  obtain ⟨typ, first, second, third, fourth, rest, bytes⟩ := exists_header enough
  refine ⟨typ, first, second, third, fourth, rest, bytes, ?_, ?_, ?_⟩
  · rw [MemoryFile.read_data, bytes]
    rfl
  · rw [← List.drop_drop, bytes]
    rfl
  · have counted := congrArg List.length bytes
    simp only [List.length_drop, List.length_cons] at counted enough
    omega

theorem read_header_short {strio : MemoryFile UInt8}
    (short : (strio.content.drop strio.position).length < 5)
    : (strio.read 5).2.length < 5 := by
  rw [MemoryFile.read_data, List.length_take]
  omega

theorem enough_of_header {strio : MemoryFile UInt8} (long : ¬ (strio.read 5).2.length < 5)
    : 5 ≤ (strio.content.drop strio.position).length := by
  rw [MemoryFile.read_data, List.length_take] at long
  omega

/-- Of the message that the bytes from the position on begin with, what getMessage makes. -/
theorem getMessage_spec (strio : MemoryFile UInt8)
    : (getMessage strio).1.content = strio.content
      ∧ match framing.read (strio.content.drop strio.position) with
        | .incomplete => (getMessage strio).2 = .ok none
        | .invalid error => (getMessage strio).2 = .error error
        | .message message rest =>
            (getMessage strio).2 = .ok (some message)
              ∧ (getMessage strio).1.position = strio.position + (5 + message.body.length)
              ∧ strio.content.drop (strio.position + (5 + message.body.length)) = rest
              ∧ strio.position + (5 + message.body.length) ≤ strio.content.length := by
  rcases Nat.lt_or_ge (strio.content.drop strio.position).length 5 with short | enough
  · have got : getMessage strio = ((strio.read 5).1, .ok none) :=
      if_pos (read_header_short short)
    rw [framing_read, readMessage_short short, got]
    exact ⟨rfl, rfl⟩
  obtain ⟨typ, first, second, third, fourth, rest, bytes, header, after, total⟩ :=
    exists_file_header strio enough
  have body (size : Nat) : ((strio.read 5).1.read size).2 = rest.take size := by
    rw [MemoryFile.read_data, MemoryFile.read_content, MemoryFile.read_position, header]
    exact congrArg (List.take _) after
  have long : ¬ (strio.read 5).2.length < 5 := by
    rw [header]
    simp
  have got : getMessage strio
      = let length := BigEndian.ofBytes [first, second, third, fourth]
        if length < 4 then ((strio.read 5).1, .error (.invalidMessageSize length))
        else if (rest.take (length - 4)).length < length - 4 then
          (((strio.read 5).1.read (length - 4)).1, .ok none)
        else
          (((strio.read 5).1.read (length - 4)).1,
            .ok (some ⟨typ, rest.take (length - 4)⟩)) := by
    have length : BigEndian.ofBytes [first, second, third, fourth]
        = xlUnpack (strio.read 5).2 := by
      rw [header]
      rfl
    have head : typ = (strio.read 5).2.headI := by
      rw [header]
      rfl
    simp only [← body]
    rw [length, head]
    exact if_neg long
  rw [framing_read, bytes, readMessage, got]
  generalize BigEndian.ofBytes [first, second, third, fourth] = length
  simp only [List.length_take]
  split
  · exact ⟨rfl, rfl⟩
  split
  · rw [if_pos (by omega)]
    exact ⟨rfl, rfl⟩
  · rw [if_neg (by omega)]
    refine ⟨rfl, rfl, ?_, ?_, ?_⟩
    · rw [MemoryFile.read_position, body, MemoryFile.read_position, header, Nat.add_assoc]
      rfl
    · rw [← Nat.add_assoc, ← List.drop_drop, after, List.length_take,
        Nat.min_eq_left (by omega)]
    · rw [List.length_take]
      omega

/-- The stream and its reply are those of the abstract buffer. -/
structure Follows (result : PqMessageStream × StreamReply UInt8 Message BufferError)
    (model : Bytes × StreamReply UInt8 Message BufferError)
    : Prop where
  holds
    : result.1.Holds model.1
  reply
    : result.2 = model.2

theorem Holds.pop {stream : PqMessageStream} {pending : Bytes} (holds : stream.Holds pending)
    (absent : StreamReply UInt8 Message BufferError)
    : Follows (stream.pop absent) (framing.pop pending absent) := by
  have ready := holds.dropConsumed
  obtain ⟨content, spec⟩ :=
    getMessage_spec (stream.dropConsumed.strio.seek stream.dropConsumed.start)
  simp only [MemoryFile.seek_content, MemoryFile.seek_position, ready.drop_start]
    at content spec
  have unread := ready.of_content content
  unfold PqMessageStream.pop Framing.pop
  cases read : framing.read pending with
  | incomplete =>
      rw [read] at spec
      simp only [spec]
      exact ⟨unread, rfl⟩
  | invalid error =>
      rw [read] at spec
      simp only [spec]
      exact ⟨unread, rfl⟩
  | message message rest =>
      rw [read] at spec
      obtain ⟨result, position, after, inside⟩ := spec
      simp only [result]
      exact ⟨⟨by rw [content, position]; exact inside,
        by rw [content, position]; exact after⟩, rfl⟩

/-- By induction on the number of messages that are still asked for. -/
theorem readMessages_spec (num : Nat) (strio : MemoryFile UInt8) {pending : Bytes}
    (inside : strio.position ≤ strio.content.length)
    (holds : strio.content.drop strio.position = pending)
    : (readMessages strio strio.position num).1.content = strio.content
      ∧ match (framing.take num pending).error with
        | some error => (readMessages strio strio.position num).2 = .error error
        | none =>
            ∃ newStart,
              (readMessages strio strio.position num).2
                  = .ok ((framing.take num pending).messages, newStart)
                ∧ newStart ≤ strio.content.length
                ∧ strio.content.drop newStart = (framing.take num pending).rest := by
  induction num generalizing strio pending with
  | zero => exact ⟨rfl, strio.position, rfl, inside, holds⟩
  | succ num ih =>
      obtain ⟨content, spec⟩ := getMessage_spec strio
      rw [holds] at spec
      cases read : framing.read pending with
      | incomplete =>
          rw [read] at spec
          rw [Framing.take_incomplete read]
          simp only [readMessages, spec]
          exact ⟨content, strio.position, rfl, inside, holds⟩
      | invalid error =>
          rw [read] at spec
          rw [Framing.take_invalid read]
          simp only [readMessages, spec]
          exact ⟨content, trivial⟩
      | message message rest =>
          rw [read] at spec
          obtain ⟨result, position, after, room⟩ := spec
          have left : (getMessage strio).1.content.drop (getMessage strio).1.position = rest := by
            rw [content, position]
            exact after
          obtain ⟨kept, later⟩ :=
            ih (getMessage strio).1 (by rw [content, position]; exact room) left
          rw [content] at kept
          rw [content, position] at later
          rw [position] at kept
          rw [Framing.take_message read]
          simp only [readMessages, result]
          refine ⟨kept, ?_⟩
          cases error : (framing.take num rest).error with
          | some error =>
              rw [error] at later
              simp [later, Except.map]
          | none =>
              rw [error] at later
              obtain ⟨newStart, messages, small, left⟩ := later
              exact ⟨newStart, by simp [messages, Except.map], small, left⟩

theorem Holds.read {stream : PqMessageStream} {pending : Bytes} (holds : stream.Holds pending)
    (num : Nat)
    : Follows (stream.read num) (Framing.popAll pending (framing.take num pending)) := by
  have ready := holds.dropConsumed
  obtain ⟨content, spec⟩ := readMessages_spec num
    (stream.dropConsumed.strio.seek stream.dropConsumed.start) ready.start_le ready.drop_start
  simp only [MemoryFile.seek_content, MemoryFile.seek_position] at content spec
  unfold PqMessageStream.read Framing.popAll
  cases error : (framing.take num pending).error with
  | some error =>
      rw [error] at spec
      simp only [spec]
      exact ⟨ready.of_content content, rfl⟩
  | none =>
      rw [error] at spec
      obtain ⟨newStart, result, inside, left⟩ := spec
      simp only [result]
      exact ⟨⟨by rw [content]; exact inside, by rw [content]; exact left⟩, rfl⟩

theorem Holds.hasMessage {stream : PqMessageStream} {pending : Bytes}
    (holds : stream.Holds pending) (most : Nat)
    : Follows stream.hasMessage ((framing.stream most).answer pending .hasMessage) := by
  simp only [Framing.stream, framing_read]
  have bytes := holds.drop_start
  rcases Nat.lt_or_ge pending.length 5 with short | enough
  · rw [readMessage_short short]
    have few : ((stream.strio.seek stream.start).read 5).2.length < 5 := by
      apply read_header_short
      rw [MemoryFile.seek_content, MemoryFile.seek_position, bytes]
      exact short
    have got : stream.hasMessage
        = (⟨((stream.strio.seek stream.start).read 5).1, stream.start⟩, .flag false) :=
      if_pos few
    rw [got]
    exact ⟨holds.of_content rfl, rfl⟩
  obtain ⟨typ, first, second, third, fourth, rest, parts, header, after, total⟩ :=
    exists_file_header (stream.strio.seek stream.start)
      (by rw [MemoryFile.seek_content, MemoryFile.seek_position, bytes]; exact enough)
  simp only [MemoryFile.seek_content, MemoryFile.seek_position, bytes] at parts after total
  have long : ¬ ((stream.strio.seek stream.start).read 5).2.length < 5 := by
    rw [header]
    simp
  have length : xlUnpack ((stream.strio.seek stream.start).read 5).2
      = BigEndian.ofBytes [first, second, third, fourth] := by
    rw [header]
    rfl
  rw [parts, readMessage, ← length, ← parts]
  unfold PqMessageStream.hasMessage
  simp only [if_neg long]
  generalize xlUnpack ((stream.strio.seek stream.start).read 5).2 = length
  split
  · exact ⟨holds.of_content rfl, rfl⟩
  have enough : stream.strio.content.length - stream.start ≥ length + 1
      ↔ ¬ rest.length < length - 4 := by
    omega
  rw [MemoryFile.seekEnd_position]
  simp only [MemoryFile.read_content, MemoryFile.seek_content, enough]
  by_cases fewer : rest.length < length - 4
  · rw [if_pos fewer]
    exact ⟨holds.of_content rfl, by simp [fewer]⟩
  · rw [if_neg fewer]
    exact ⟨holds.of_content rfl, by simp [fewer]⟩

/-- By induction on the loop: a message is complete when the last byte of its body is
there.
-/
theorem countMessages_spec (strio : MemoryFile UInt8)
    : (countMessages strio).1.content = strio.content
      ∧ (countMessages strio).2
        = match (framing.drain (strio.content.drop strio.position)).error with
          | some error => .error error
          | none =>
              .ok (framing.drain (strio.content.drop strio.position)).messages.length := by
  fun_induction countMessages strio with
  | case1 strio header few =>
      have short : (strio.content.drop strio.position).length < 5 := by
        simp only [header, MemoryFile.read_data, List.length_take] at few
        omega
      rw [Framing.drain_incomplete (readMessage_short short)]
      exact ⟨rfl, rfl⟩
  | case2 strio header long length invalid =>
      obtain ⟨typ, first, second, third, fourth, rest, parts, bytes, after, total⟩ :=
        exists_file_header strio (enough_of_header long)
      have same : length = BigEndian.ofBytes [first, second, third, fourth] := by
        simp only [length, header, bytes]
        rfl
      have read : framing.read (strio.content.drop strio.position)
          = .invalid (.invalidMessageSize length) := by
        rw [framing_read, parts, readMessage, ← same]
        exact if_pos invalid
      rw [Framing.drain_invalid read]
      exact ⟨rfl, rfl⟩
  | case3 strio header long length valid last absent =>
      obtain ⟨typ, first, second, third, fourth, rest, parts, bytes, after, total⟩ :=
        exists_file_header strio (enough_of_header long)
      have same : length = BigEndian.ofBytes [first, second, third, fourth] := by
        simp only [length, header, bytes]
        rfl
      have behind : header.1.position = strio.position + 5 := by
        rw [MemoryFile.read_position, bytes]
        rfl
      have fewer : rest.length < length - 4 := by
        simp only [last, MemoryFile.read_data, MemoryFile.seek_content,
          MemoryFile.seek_position, List.length_take, List.length_drop, behind] at absent
        have content : header.1.content = strio.content := rfl
        rw [content] at absent
        omega
      have read : framing.read (strio.content.drop strio.position) = .incomplete := by
        rw [framing_read, parts, readMessage, ← same]
        exact (if_neg valid).trans (if_pos fewer)
      rw [Framing.drain_incomplete read]
      exact ⟨rfl, rfl⟩
  | case4 strio header long length valid last present later ih =>
      obtain ⟨typ, first, second, third, fourth, rest, parts, bytes, after, total⟩ :=
        exists_file_header strio (enough_of_header long)
      have same : length = BigEndian.ofBytes [first, second, third, fourth] := by
        simp only [length, header, bytes]
        rfl
      have behind : header.1.position = strio.position + 5 := by
        rw [MemoryFile.read_position, bytes]
        rfl
      have content : last.1.content = strio.content := rfl
      have position : last.1.position = strio.position + 5 + (length - 4) := by
        rw [MemoryFile.read_position, not_ne_iff.mp present, MemoryFile.seek_position, behind]
        omega
      have enough : ¬ rest.length < length - 4 := by
        have one := not_ne_iff.mp present
        simp only [last, MemoryFile.read_data, MemoryFile.seek_content,
          MemoryFile.seek_position, List.length_take, List.length_drop, behind] at one
        have inner : header.1.content = strio.content := rfl
        rw [inner] at one
        omega
      have read : framing.read (strio.content.drop strio.position)
          = .message ⟨typ, rest.take (length - 4)⟩ (last.1.content.drop last.1.position) := by
        rw [framing_read, parts, readMessage, ← same, content, position, ← List.drop_drop, after]
        exact (if_neg valid).trans (if_neg enough)
      obtain ⟨kept, counted⟩ := ih
      refine ⟨kept.trans content, ?_⟩
      rw [Framing.drain_message read]
      simp only [later, counted]
      split <;> rfl

theorem Holds.len {stream : PqMessageStream} {pending : Bytes} (holds : stream.Holds pending)
    (most : Nat)
    : Follows stream.len ((framing.stream most).answer pending .len) := by
  obtain ⟨content, counted⟩ := countMessages_spec (stream.strio.seek stream.start)
  simp only [MemoryFile.seek_content, MemoryFile.seek_position, holds.drop_start]
    at content counted
  simp only [PqMessageStream.len, Framing.stream, counted]
  cases (framing.drain pending).error with
  | some error => exact ⟨holds.of_content content, rfl⟩
  | none => exact ⟨holds.of_content content, rfl⟩

end PqMessageStream

-----------------------------------------------------------------------------------------
-- The buffer over whole runs
-----------------------------------------------------------------------------------------

open PqMessageStream

theorem pqMessageStream_follows {stream : PqMessageStream} {pending : Bytes}
    (holds : stream.Holds pending) (call : StreamCall UInt8)
    : Follows (pqMessageStream.answer stream call)
        ((framing.stream numDefault).answer pending call) := by
  cases call with
  | write data =>
      refine ⟨⟨?_, ?_⟩, rfl⟩
      · simp only [pqMessageStream, write, MemoryFile.seekEnd_write_content,
          List.length_append]
        exact Nat.le_add_right_of_le holds.start_le
      · simp only [pqMessageStream, write, MemoryFile.seekEnd_write_content]
        rw [List.drop_append_of_le_length holds.start_le, holds.drop_start]
        rfl
  | truncate => exact ⟨⟨Nat.zero_le _, by simp [pqMessageStream, truncate, Framing.stream]⟩, rfl⟩
  | hasMessage => exact holds.hasMessage _
  | len => exact holds.len _
  | nextMessage => exact holds.pop .nothing
  | next => exact holds.pop .stop
  | read num => exact holds.read _
  | getvalue =>
      refine ⟨holds.of_content rfl, ?_⟩
      simp [pqMessageStream, getvalue, Framing.stream, holds.drop_start]

theorem start_holds : pqMessageStream.start.Holds [] := ⟨Nat.le_refl 0, rfl⟩

theorem PqMessageStream.Holds.replies {stream : PqMessageStream} {pending : Bytes}
    (holds : stream.Holds pending) (calls : List (StreamCall UInt8))
    : pqMessageStream.replies stream calls
      = (framing.stream numDefault).replies pending calls := by
  apply Object.replies_eq Holds ?_ holds
  intro stream pending call holds
  have follows := pqMessageStream_follows holds call
  exact ⟨follows.holds, follows.reply⟩

/-- The calls of any run are answered as the bytes written and not yet consumed ask for. -/
theorem replies_pqMessageStream (calls : List (StreamCall UInt8))
    : pqMessageStream.replies pqMessageStream.start calls
      = (framing.stream numDefault).replies [] calls :=
  start_holds.replies calls

end PgCluster.Postgresql
