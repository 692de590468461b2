import PgCluster.Foundation.ChunkList
import PgCluster.Postgresql.MessageBuffer

/-! The message buffer of the C extension: a linked list of the written pieces. It answers
as the buffer in Python does, as far as its arithmetic reaches.
-/

namespace PgCluster.Postgresql

open Foundation

/-- Arithmetic of uint32_t. -/
def uint32 (number : Nat) : Nat := number % 2 ^ 32

abbrev PPlace := ChunkPlace UInt8

/-- The loop of p_at_least over the further chunks. -/
def atLeastLoop (amount : Nat) : Nat → List Bytes → Bool
  | _, [] => false
  | current, data :: rest =>
      let more := uint32 (current + data.length)
      if amount ≤ more then true else atLeastLoop amount more rest

def pAtLeast (place : PPlace) (amount : Nat) : Bool :=
  match place.list with
  | [] => decide (amount ≤ 0)
  | data :: rest =>
      let current := uint32 (data.length - place.offset)
      if amount ≤ current then true else atLeastLoop amount current rest

/-- The loop of p_seek, with the amount left. -/
def seekLoop : List Bytes → Nat → Nat → (List Bytes × Nat) × Nat
  | [], offset, amountLeft => (([], offset), amountLeft)
  | data :: rest, offset, amountLeft =>
      if amountLeft = 0 then ((data :: rest, offset), 0)
      else if amountLeft < data.length - offset then ((data :: rest, offset + amountLeft), 0)
      else seekLoop rest 0 (amountLeft - (data.length - offset))

/-- The loop of p_memcpy. -/
def memcpyLoop : List Bytes → Nat → Nat → Bytes
  | [], _, _ => []
  | data :: rest, offset, amountLeft =>
      if amountLeft = 0 then []
      else
        let thisRead := min (data.length - offset) amountLeft
        (data.drop offset).take thisRead ++ memcpyLoop rest 0 (amountLeft - thisRead)

def pMemcpy (place : PPlace) (amount : Nat) : Bytes :=
  memcpyLoop place.list place.offset amount

/-- By induction on the chunks. -/
theorem memcpyLoop_eq (list : List Bytes) (offset amount : Nat)
    : memcpyLoop list offset amount = (ChunkPlace.left list offset).take amount := by
  induction list generalizing offset amount with
  | nil => simp [memcpyLoop]
  | cons data rest ih =>
      unfold memcpyLoop
      split
      next none => simp [none]
      next some =>
          have first : (data.drop offset).take (min (data.length - offset) amount)
              = (data.drop offset).take amount := by
            rw [List.take_eq_take_iff, List.length_drop]
            omega
          have later : amount - min (data.length - offset) amount
              = amount - (data.length - offset) := by
            omega
          simp only [ih, ChunkPlace.left_zero, first, later]
          rw [ChunkPlace.left, List.take_append, List.length_drop]

theorem pMemcpy_eq (place : PPlace) (amount : Nat)
    : pMemcpy place amount = place.remaining.take amount :=
  memcpyLoop_eq _ _ _

/-- Where the loop stops, and how much it could not go: by induction on the chunks. -/
theorem seekLoop_spec (list : List Bytes) (offset amount : Nat)
    (filled : ∀ data ∈ list, 0 < data.length)
    (inside : ∀ data ∈ list.head?, offset < data.length) (reset : list = [] → offset = 0)
    : (∀ data ∈ (seekLoop list offset amount).1.1, 0 < data.length)
      ∧ (∀ data ∈ (seekLoop list offset amount).1.1.head?,
          (seekLoop list offset amount).1.2 < data.length)
      ∧ ((seekLoop list offset amount).1.1 = [] → (seekLoop list offset amount).1.2 = 0)
      ∧ ChunkPlace.left (seekLoop list offset amount).1.1 (seekLoop list offset amount).1.2
        = (ChunkPlace.left list offset).drop amount
      ∧ (seekLoop list offset amount).2
        = amount - (ChunkPlace.left list offset).length := by
  induction list generalizing offset amount with
  | nil => exact ⟨filled, inside, reset, by simp [seekLoop], by simp [seekLoop]⟩
  | cons data rest ih =>
      have less := inside data rfl
      unfold seekLoop
      split
      next none => exact ⟨filled, inside, reset, by simp [none], by simp [none]⟩
      next some =>
          split
          next small =>
              refine ⟨filled, ?_, by simp, ?_, ?_⟩
              · intro first head
                obtain rfl : data = first := by simpa using head
                exact (Nat.lt_sub_iff_add_lt'.mp small)
              · rw [ChunkPlace.left, ChunkPlace.left, List.drop_append, List.length_drop,
                  List.drop_drop, Nat.sub_eq_zero_of_le (by omega), List.drop_zero]
              · simp only [ChunkPlace.left, List.length_append, List.length_drop]
                omega
          next large =>
              obtain ⟨filled', inside', reset', place, amount'⟩ := ih 0
                (amount - (data.length - offset))
                (fun other member => filled other (List.mem_cons_of_mem _ member))
                (fun other head => filled other
                  (List.mem_cons_of_mem _ (List.mem_of_mem_head? head)))
                (fun _ => rfl)
              refine ⟨filled', inside', reset', ?_, ?_⟩
              · have passed : (data.drop offset).drop amount = [] :=
                  List.drop_of_length_le (by rw [List.length_drop]; omega)
                rw [place, ChunkPlace.left_zero, ChunkPlace.left, List.drop_append, passed,
                  List.nil_append, List.length_drop]
              · rw [amount', ChunkPlace.left_zero, ChunkPlace.left, List.length_append,
                  List.length_drop]
                omega

def pSeek (place : PPlace) (amount : Nat) : PPlace × Nat :=
  let moved := seekLoop place.list place.offset amount
  have spec := seekLoop_spec place.list place.offset amount place.filled place.inside
    place.reset
  (⟨moved.1.1, moved.1.2, spec.1, spec.2.1, spec.2.2.1⟩, amount - moved.2)

theorem pSeek_remaining (place : PPlace) (amount : Nat)
    : (pSeek place amount).1.remaining = place.remaining.drop amount :=
  (seekLoop_spec place.list place.offset amount place.filled place.inside
    place.reset).2.2.2.1

theorem pSeek_amount (place : PPlace) (amount : Nat)
    : (pSeek place amount).2 = min amount place.remaining.length := by
  have spec := (seekLoop_spec place.list place.offset amount place.filled place.inside
    place.reset).2.2.2.2
  simp only [pSeek, spec, ChunkPlace.remaining]
  omega

/-- Without a wrap the loop sums up what is there, by induction on the chunks. -/
theorem atLeastLoop_eq (amount : Nat) {current : Nat} (list : List Bytes)
    (less : current < amount) (small : current + list.flatten.length < 2 ^ 32)
    : atLeastLoop amount current list = decide (amount ≤ current + list.flatten.length) := by
  induction list generalizing current with
  | nil =>
      have absent : ¬ amount ≤ current + ([] : List Bytes).flatten.length := by
        simpa using less
      simp only [atLeastLoop, absent, decide_false]
  | cons data rest ih =>
      rw [List.flatten_cons, List.length_append] at small ⊢
      have exact_ : uint32 (current + data.length) = current + data.length :=
        Nat.mod_eq_of_lt (by omega)
      simp only [atLeastLoop, exact_]
      split
      next enough => exact (decide_eq_true (by omega)).symm
      next short => rw [ih (by omega) (by omega), Nat.add_assoc]

theorem pAtLeast_eq {place : PPlace} (small : place.remaining.length < 2 ^ 32) (amount : Nat)
    : pAtLeast place amount = decide (amount ≤ place.remaining.length) := by
  obtain ⟨list, offset, filled, inside, reset⟩ := place
  cases list with
  | nil => rfl
  | cons data rest =>
      simp only [ChunkPlace.remaining, ChunkPlace.left, List.length_append, List.length_drop]
        at small ⊢
      have exact_ : uint32 (data.length - offset) = data.length - offset :=
        Nat.mod_eq_of_lt (by omega)
      simp only [pAtLeast, exact_]
      split
      next enough => exact (decide_eq_true (by omega)).symm
      next short => rw [atLeastLoop_eq amount rest (by omega) small]

-----------------------------------------------------------------------------------------
-- pq_message_stream of the extension
-----------------------------------------------------------------------------------------

/-- A place, a tuple or NULL, and the exception that is set. -/
abbrev Built := PPlace × Except BufferError (Option Message)

/-- The index into message_types is a char, which is negative from 128 on. -/
def pBuildTuple (place : PPlace) : Built :=
  let header := pMemcpy place 5
  if header.length < 5 then (place, .ok none)
  else
    let body := (pSeek place header.length).1
    let msgLength := xlUnpack header
    if msgLength < 4 then (body, .error (.invalidMessageSize msgLength))
    else if !pAtLeast body (msgLength - 4) then (body, .ok none)
    else
      let data := pMemcpy body (msgLength - 4)
      let behind := if msgLength - 4 > 0 then (pSeek body data.length).1 else body
      if header.headI.toNat < 128 then (behind, .ok (some ⟨header.headI, data⟩))
      else (behind, .error .outOfBounds)

/-- Every round of the loop of p_length passes a header. -/
theorem pSeek_header_lt {place : PPlace} (long : ¬ (pMemcpy place 5).length < 5)
    (amount : Nat)
    : (pSeek (pSeek place (pMemcpy place 5).length).1 amount).1.remaining.length
      < place.remaining.length := by
  rw [pMemcpy_eq, List.length_take] at long
  rw [pSeek_remaining, pSeek_remaining, pMemcpy_eq, List.length_drop, List.length_drop,
    List.length_take]
  omega

/-- The loop of p_length. -/
def lengthLoop (place : PPlace) : Except BufferError Nat :=
  if place.list = [] then .ok 0
  else
    let header := pMemcpy place 5
    if long : header.length < 5 then .ok 0
    else
      let body := (pSeek place header.length).1
      let msgLength := xlUnpack header
      if msgLength < 4 then .error (.invalidMessageSize msgLength)
      else if (pSeek body (msgLength - 4)).2 < msgLength - 4 then .ok 0
      else (lengthLoop (pSeek body (msgLength - 4)).1).map (fun count => count + 1)
termination_by place.remaining.length
decreasing_by exact pSeek_header_lt long _

/-- Whether there is a last chunk decides where the next one goes. -/
structure PBuffer where
  position : PPlace
  last : Bool

namespace PBuffer

def empty : PBuffer := ⟨ChunkPlace.empty, false⟩

/-- The list is freed up to the place, and the last chunk with the whole of it. -/
def moveTo (buffer : PBuffer) (place : PPlace) : PBuffer :=
  ⟨place, if place.list = [] then false else buffer.last⟩

/-- A list of one chunk, from its beginning. -/
def single (data : Bytes) (some : 0 < data.length) : PPlace where
  list := [data]
  offset := 0
  filled other member := by
    obtain rfl := List.mem_singleton.mp member
    exact some
  inside other head := by
    obtain rfl : data = other := by simpa using head
    exact some
  reset none := by contradiction

/-- The place with one more chunk behind its last one. -/
def append (place : PPlace) (data : Bytes) (some : 0 < data.length) : PPlace where
  list := place.list ++ [data]
  offset := place.offset
  filled other member := by
    rcases List.mem_append.mp member with before | last
    · exact place.filled other before
    · obtain rfl := List.mem_singleton.mp last
      exact some
  inside other head := by
    cases list : place.list with
    | nil =>
        rw [list] at head
        obtain rfl : data = other := by simpa using head
        rw [place.reset list]
        exact some
    | cons first rest =>
        rw [list] at head
        exact place.inside other (by rw [list]; exact head)
  reset none := by simp at none

/-- The first chunk is put at the offset of the place, which is then zero. -/
def pWrite (buffer : PBuffer) (data : Bytes) : PBuffer :=
  if some : 0 < data.length then
    if buffer.last then ⟨append buffer.position data some, true⟩
    else ⟨single data some, true⟩
  else buffer

/-- The body of p_next and of p_next_message. -/
def pop (buffer : PBuffer) (absent : StreamReply UInt8 Message BufferError)
    : PBuffer × StreamReply UInt8 Message BufferError :=
  let built := pBuildTuple buffer.position
  match built.2 with
  | .error error => (buffer, .raises error)
  | .ok none => (buffer, absent)
  | .ok (some message) => (buffer.moveTo built.1, .message message)

/-- The loop of p_read. What is not built leaves the rest of the tuple without items. -/
def buildTuples (place : PPlace) : Nat → PPlace × Except BufferError (List Message)
  | 0 => (place, .ok [])
  | count + 1 =>
      let built := pBuildTuple place
      match built.2 with
      | .error error => (built.1, .error error)
      | .ok none => (built.1, .ok [])
      | .ok (some message) =>
          let later := buildTuples built.1 count
          (later.1, later.2.map (fun messages => message :: messages))

/-- `msg_count < msg_in && msg_count != -1 ? msg_count : msg_in`. -/
def countToRead (msgCount : Option Nat) (msgIn : Nat) : Nat :=
  match msgCount with
  | some number => if number < msgIn then number else msgIn
  | none => msgIn

/-- The size of the tuple is what p_length returns, -1 when that raises. -/
def pRead (buffer : PBuffer) (msgCount : Option Nat)
    : PBuffer × StreamReply UInt8 Message BufferError :=
  match lengthLoop buffer.position with
  | .error _ => (buffer, .raises .badInternalCall)
  | .ok msgIn =>
      let built := buildTuples buffer.position (countToRead msgCount msgIn)
      match built.2 with
      | .error error => (buffer, .raises error)
      | .ok messages => (buffer.moveTo built.1, .messages messages)

def pHasMessage (buffer : PBuffer) : PBuffer × StreamReply UInt8 Message BufferError :=
  let header := pMemcpy buffer.position 5
  if header.length < 5 then (buffer, .flag false)
  else
    let body := (pSeek buffer.position header.length).1
    let msgLength := xlUnpack header
    if msgLength < 4 then (buffer, .raises (.invalidMessageSize msgLength))
    else (buffer, .flag (pAtLeast body (msgLength - 4)))

def pLength (buffer : PBuffer) : PBuffer × StreamReply UInt8 Message BufferError :=
  match lengthLoop buffer.position with
  | .error error => (buffer, .raises error)
  | .ok count => (buffer, .count count)

def pGetvalue (buffer : PBuffer) : Bytes :=
  match buffer.position.list with
  | [] => []
  | data :: rest => data.drop buffer.position.offset ++ rest.flatten

end PBuffer

open PBuffer in
def pBuffer : Object PBuffer (StreamCall UInt8) (StreamReply UInt8 Message BufferError) where
  start := PBuffer.empty
  answer buffer
    | .write data => (buffer.pWrite data, .nothing)
    | .truncate => (PBuffer.empty, .nothing)
    | .hasMessage => buffer.pHasMessage
    | .len => buffer.pLength
    | .nextMessage => buffer.pop .nothing
    | .next => buffer.pop .stop
    | .read msgCount => buffer.pRead msgCount
    | .getvalue => (buffer, .data buffer.pGetvalue)

-----------------------------------------------------------------------------------------
-- The two buffers
-----------------------------------------------------------------------------------------

theorem pMemcpy_header_short {place : PPlace} (short : place.remaining.length < 5)
    : (pMemcpy place 5).length < 5 := by
  rw [pMemcpy_eq, List.length_take]
  omega

/-- The header of the place, and the place behind it. -/
theorem exists_place_header {place : PPlace} (enough : 5 ≤ place.remaining.length)
    : ∃ typ first second third fourth rest,
        place.remaining = typ :: first :: second :: third :: fourth :: rest
          ∧ pMemcpy place 5 = [typ, first, second, third, fourth]
          ∧ (pSeek place (pMemcpy place 5).length).1.remaining = rest := by
  obtain ⟨typ, first, second, third, fourth, rest, bytes⟩ := exists_header enough
  have header : pMemcpy place 5 = [typ, first, second, third, fourth] := by
    rw [pMemcpy_eq, bytes]
    rfl
  refine ⟨typ, first, second, third, fourth, rest, bytes, header, ?_⟩
  rw [pSeek_remaining, header, bytes]
  rfl

/-- Of the message that the place begins with, what p_build_tuple makes. -/
theorem pBuildTuple_spec {place : PPlace} (small : place.remaining.length < 2 ^ 32)
    : match framing.read place.remaining with
      | .incomplete => (pBuildTuple place).2 = .ok none
      | .invalid error => (pBuildTuple place).2 = .error error
      | .message message rest =>
          message.typ.toNat < 128
          → (pBuildTuple place).2 = .ok (some message)
              ∧ (pBuildTuple place).1.remaining = rest := by
  rcases Nat.lt_or_ge place.remaining.length 5 with short | enough
  · have built : pBuildTuple place = (place, .ok none) := if_pos (pMemcpy_header_short short)
    rw [framing_read, readMessage_short short, built]
  obtain ⟨typ, first, second, third, fourth, rest, bytes, header, behind⟩ :=
    exists_place_header enough
  have long : ¬ (pMemcpy place 5).length < 5 := by
    rw [header]
    simp
  have length : xlUnpack (pMemcpy place 5)
      = BigEndian.ofBytes [first, second, third, fourth] := by
    rw [header]
    rfl
  have head : (pMemcpy place 5).headI = typ := by
    rw [header]
    rfl
  have less : rest.length < 2 ^ 32 := by
    rw [bytes] at small
    simp only [List.length_cons] at small
    omega
  have present : pAtLeast (pSeek place (pMemcpy place 5).length).1
        (xlUnpack (pMemcpy place 5) - 4)
      = decide (xlUnpack (pMemcpy place 5) - 4 ≤ rest.length) := by
    rw [pAtLeast_eq (by rw [behind]; exact less), behind]
  unfold pBuildTuple
  simp only [if_neg long, present, head]
  rw [framing_read, bytes, readMessage, ← length]
  generalize xlUnpack (pMemcpy place 5) = size
  generalize (pSeek place (pMemcpy place 5).length).1 = body at behind
  by_cases invalid : size < 4
  · simp [invalid]
  by_cases fewer : rest.length < size - 4
  · have absent : ¬ size - 4 ≤ rest.length := by omega
    simp only [invalid, fewer, absent, if_false, if_true, decide_false, Bool.not_false]
  have complete : size - 4 ≤ rest.length := by omega
  simp only [invalid, fewer, complete, if_false, decide_true, Bool.not_true,
    Bool.false_eq_true]
  intro ascii
  have data : pMemcpy body (size - 4) = rest.take (size - 4) := by
    rw [pMemcpy_eq, behind]
  rw [if_pos ascii]
  refine ⟨by rw [data], ?_⟩
  by_cases some : size - 4 > 0
  · rw [if_pos some, pSeek_remaining, data, behind, List.length_take, Nat.min_eq_left complete]
  · rw [if_neg some, behind, show size - 4 = 0 by omega, List.drop_zero]

theorem enough_of_pMemcpy {place : PPlace} (long : ¬ (pMemcpy place 5).length < 5)
    : 5 ≤ place.remaining.length := by
  rw [pMemcpy_eq, List.length_take] at long
  omega

/-- By induction on the loop. -/
theorem lengthLoop_eq (place : PPlace)
    : lengthLoop place
      = match (framing.drain place.remaining).error with
        | some error => .error error
        | none => .ok (framing.drain place.remaining).messages.length := by
  fun_induction lengthLoop place with
  | case1 place none =>
      have nothing := place.remaining_eq_nil_iff.mpr none
      rw [nothing, drain_nil]
      rfl
  | case2 place some header short =>
      have few : place.remaining.length < 5 := by
        simp only [header, pMemcpy_eq, List.length_take] at short
        omega
      rw [Framing.drain_incomplete (readMessage_short few)]
      rfl
  | case3 place some header long msgLength invalid =>
      obtain ⟨typ, first, second, third, fourth, rest, bytes, parts, behind⟩ :=
        exists_place_header (enough_of_pMemcpy long)
      have same : msgLength = BigEndian.ofBytes [first, second, third, fourth] := by
        simp only [msgLength, header, parts]
        rfl
      have read : framing.read place.remaining = .invalid (.invalidMessageSize msgLength) := by
        rw [framing_read, bytes, readMessage, ← same]
        exact if_pos invalid
      rw [Framing.drain_invalid read]
  | case4 place some header long body msgLength valid short =>
      obtain ⟨typ, first, second, third, fourth, rest, bytes, parts, behind⟩ :=
        exists_place_header (enough_of_pMemcpy long)
      have same : msgLength = BigEndian.ofBytes [first, second, third, fourth] := by
        simp only [msgLength, header, parts]
        rfl
      have fewer : rest.length < msgLength - 4 := by
        rw [pSeek_amount] at short
        simp only [body, header, behind] at short
        omega
      have read : framing.read place.remaining = .incomplete := by
        rw [framing_read, bytes, readMessage, ← same]
        exact (if_neg valid).trans (if_pos fewer)
      rw [Framing.drain_incomplete read]
      rfl
  | case5 place some header long body msgLength valid enough ih =>
      obtain ⟨typ, first, second, third, fourth, rest, bytes, parts, behind⟩ :=
        exists_place_header (enough_of_pMemcpy long)
      have same : msgLength = BigEndian.ofBytes [first, second, third, fourth] := by
        simp only [msgLength, header, parts]
        rfl
      have complete : ¬ rest.length < msgLength - 4 := by
        rw [pSeek_amount] at enough
        simp only [body, header, behind] at enough
        omega
      have read : framing.read place.remaining
          = .message ⟨typ, rest.take (msgLength - 4)⟩
              (pSeek body (msgLength - 4)).1.remaining := by
        rw [framing_read, bytes, readMessage, ← same, pSeek_remaining]
        simp only [body, header, behind]
        exact (if_neg valid).trans (if_neg complete)
      rw [Framing.drain_message read, ih]
      dsimp only
      split <;> rfl

/-- The loop of p_read builds what it is asked for, when so many messages are there: by
induction on their number.
-/
theorem buildTuples_spec (count : Nat) {place : PPlace}
    (small : place.remaining.length < 2 ^ 32)
    (valid : (framing.drain place.remaining).error = none)
    (types : ∀ message ∈ (framing.drain place.remaining).messages, message.typ.toNat < 128)
    (enough : count ≤ (framing.drain place.remaining).messages.length)
    : (PBuffer.buildTuples place count).2
          = .ok (framing.take count place.remaining).messages
        ∧ (PBuffer.buildTuples place count).1.remaining
          = (framing.take count place.remaining).rest
        ∧ (framing.take count place.remaining).error = none := by
  induction count generalizing place with
  | zero => exact ⟨rfl, rfl, rfl⟩
  | succ count ih =>
      have spec := pBuildTuple_spec small
      cases read : framing.read place.remaining with
      | incomplete => simp [Framing.drain_incomplete read] at enough
      | invalid error => simp [Framing.drain_invalid read] at valid
      | message message rest =>
          rw [Framing.drain_message read] at valid types enough
          rw [read] at spec
          obtain ⟨built, behind⟩ := spec (types message List.mem_cons_self)
          have shorter := framing.shrinks read
          rw [← behind] at valid types enough shorter
          obtain ⟨messages, place', error⟩ := ih (by omega) valid
            (fun other member => types other (List.mem_cons_of_mem _ member))
            (Nat.le_of_succ_le_succ enough)
          rw [Framing.take_message read, ← behind]
          simp only [PBuffer.buildTuples, built, messages]
          exact ⟨rfl, place', error⟩

namespace PBuffer

/-- The buffer holds the given bytes, and knows whether it has a last chunk. -/
structure Holds (buffer : PBuffer) (pending : Bytes) : Prop where
  remaining
    : buffer.position.remaining = pending
  last
    : buffer.last = true ↔ buffer.position.list ≠ []

theorem Holds.list_ne_nil {buffer : PBuffer} {pending : Bytes} (holds : buffer.Holds pending)
    (some : pending ≠ [])
    : buffer.position.list ≠ [] := by
  rw [← holds.remaining] at some
  exact fun none => some (buffer.position.remaining_eq_nil_iff.mpr none)

theorem Holds.moveTo {buffer : PBuffer} {pending rest : Bytes} (holds : buffer.Holds pending)
    {place : PPlace} (there : place.remaining = rest) (further : rest.length ≤ pending.length)
    : (buffer.moveTo place).Holds rest := by
  refine ⟨there, ?_⟩
  by_cases none : place.list = []
  · simp [PBuffer.moveTo, none]
  · have some : pending ≠ [] := by
      intro nothing
      rw [nothing, List.length_nil, Nat.le_zero, List.length_eq_zero_iff, ← there] at further
      exact none (place.remaining_eq_nil_iff.mp further)
    simp only [PBuffer.moveTo, none, if_false]
    exact ⟨fun _ => none, fun _ => holds.last.mpr (holds.list_ne_nil some)⟩

theorem Holds.pWrite {buffer : PBuffer} {pending : Bytes} (holds : buffer.Holds pending)
    (data : Bytes)
    : (buffer.pWrite data).Holds (pending ++ data) := by
  unfold PBuffer.pWrite
  split
  next some =>
      split
      next last =>
          have list := holds.last.mp last
          refine ⟨?_, by simp [append]⟩
          rw [← holds.remaining]
          exact ChunkPlace.left_append list _ data
      next first =>
          have list : buffer.position.list = [] := by
            by_contra chunks
            exact first (holds.last.mpr chunks)
          have nothing := buffer.position.remaining_eq_nil_iff.mpr list
          refine ⟨?_, by simp [single]⟩
          rw [← holds.remaining, nothing]
          simp [single, ChunkPlace.remaining, ChunkPlace.left]
  next none =>
      have nothing : data = [] := List.length_eq_zero_iff.mp (by omega)
      rw [nothing, List.append_nil]
      exact holds

end PBuffer

/-- What the arithmetic and the tables of the extension reach: a buffer below the size of
its integers, ASCII types, and no limited read in front of an invalid header, which it
counts before it reads.
-/
structure Usable (pending : Bytes) (call : StreamCall UInt8) : Prop where
  size
    : pending.length < PqMessageStream.numDefault
  types
    : ∀ message ∈ (framing.drain pending).messages, message.typ.toNat < 128
  valid
    : ∀ limit, call = .read (some limit) → (framing.drain pending).error = none

/-- What the extension replies where the module answers: a read that meets an invalid header
raises the exception of PyTuple_New for a negative size.
-/
def replyOptimized
    : StreamCall UInt8 → StreamReply UInt8 Message BufferError
      → StreamReply UInt8 Message BufferError
  | .read _, .raises _ => .raises .badInternalCall
  | _, answer => answer

namespace PBuffer

structure Follows (result : PBuffer × StreamReply UInt8 Message BufferError)
    (model : Bytes × StreamReply UInt8 Message BufferError)
    : Prop where
  holds
    : result.1.Holds model.1
  reply
    : result.2 = model.2

theorem Holds.pop {buffer : PBuffer} {pending : Bytes} (holds : buffer.Holds pending)
    (small : pending.length < 2 ^ 32)
    (types : ∀ message ∈ (framing.drain pending).messages, message.typ.toNat < 128)
    (absent : StreamReply UInt8 Message BufferError)
    : Follows (buffer.pop absent) (framing.pop pending absent) := by
  obtain rfl := holds.remaining
  have spec := pBuildTuple_spec small
  unfold PBuffer.pop Framing.pop
  cases read : framing.read buffer.position.remaining with
  | incomplete =>
      rw [read] at spec
      simp only [spec]
      exact ⟨holds, rfl⟩
  | invalid error =>
      rw [read] at spec
      simp only [spec]
      exact ⟨holds, rfl⟩
  | message message rest =>
      rw [read] at spec
      rw [Framing.drain_message read] at types
      obtain ⟨built, behind⟩ := spec (types message List.mem_cons_self)
      simp only [built]
      exact ⟨holds.moveTo behind (Nat.le_of_lt (framing.shrinks read)), rfl⟩

/-- The number that C reads and the limit of Python end at the same message. -/
theorem take_countToRead {pending : Bytes} (valid : (framing.drain pending).error = none)
    (unlimited : framing.take PqMessageStream.numDefault pending = framing.drain pending)
    (limit : Option Nat)
    : countToRead limit (framing.drain pending).messages.length
          ≤ (framing.drain pending).messages.length
        ∧ framing.take (limit.getD PqMessageStream.numDefault) pending
          = framing.take (countToRead limit (framing.drain pending).messages.length)
              pending := by
  have all := Framing.take_of_count valid (Nat.le_refl _)
  cases limit with
  | none => exact ⟨Nat.le_refl _, by rw [Option.getD_none, unlimited, countToRead, all]⟩
  | some limit =>
      simp only [countToRead, Option.getD_some]
      split
      next fewer => exact ⟨Nat.le_of_lt fewer, rfl⟩
      next enough =>
          exact ⟨Nat.le_refl _,
            by rw [all, Framing.take_of_count valid (Nat.le_of_not_lt enough)]⟩

/-- Without an error p_read takes as many messages as there are, or as are asked for. -/
theorem Holds.pRead {buffer : PBuffer} {pending : Bytes} (holds : buffer.Holds pending)
    {limit : Option Nat} (usable : Usable pending (.read limit))
    : let answered := Framing.popAll pending
          (framing.take (limit.getD PqMessageStream.numDefault) pending)
      Follows (buffer.pRead limit) (answered.1, replyOptimized (.read limit) answered.2) := by
  intro answered
  obtain ⟨size, types, valid⟩ := usable
  obtain rfl := holds.remaining
  have length := lengthLoop_eq buffer.position
  have unlimited : framing.take PqMessageStream.numDefault buffer.position.remaining
      = framing.drain buffer.position.remaining :=
    Framing.take_eq_drain size
  unfold PBuffer.pRead
  cases error : (framing.drain buffer.position.remaining).error with
  | some error' =>
      rw [error] at length
      cases limit with
      | some limit =>
          have none := valid limit rfl
          rw [error] at none
          contradiction
      | none =>
          simp only [answered, length, Option.getD_none, unlimited, Framing.popAll, error]
          exact ⟨holds, rfl⟩
  | none =>
      rw [error] at length
      obtain ⟨enough, taken⟩ := take_countToRead error unlimited limit
      have small : buffer.position.remaining.length < 2 ^ 32 := Nat.lt_succ_of_lt size
      obtain ⟨messages, behind, fine⟩ := buildTuples_spec _ small error types enough
      simp only [answered, taken, length, messages, Framing.popAll, fine]
      exact ⟨holds.moveTo behind (Framing.take_rest_length _ _), rfl⟩

theorem Holds.pHasMessage {buffer : PBuffer} {pending : Bytes} (holds : buffer.Holds pending)
    (small : pending.length < 2 ^ 32) (most : Nat)
    : Follows buffer.pHasMessage ((framing.stream most).answer pending .hasMessage) := by
  obtain rfl := holds.remaining
  simp only [Framing.stream, framing_read]
  rcases Nat.lt_or_ge buffer.position.remaining.length 5 with short | enough
  · have got : buffer.pHasMessage = (buffer, .flag false) :=
      if_pos (pMemcpy_header_short short)
    rw [readMessage_short short, got]
    exact ⟨holds, rfl⟩
  obtain ⟨typ, first, second, third, fourth, rest, bytes, header, behind⟩ :=
    exists_place_header enough
  have long : ¬ (pMemcpy buffer.position 5).length < 5 := by
    rw [header]
    simp
  have length : xlUnpack (pMemcpy buffer.position 5)
      = BigEndian.ofBytes [first, second, third, fourth] := by
    rw [header]
    rfl
  have less : rest.length < 2 ^ 32 := by
    rw [bytes] at small
    simp only [List.length_cons] at small
    omega
  have present : pAtLeast (pSeek buffer.position (pMemcpy buffer.position 5).length).1
        (xlUnpack (pMemcpy buffer.position 5) - 4)
      = decide (xlUnpack (pMemcpy buffer.position 5) - 4 ≤ rest.length) := by
    rw [pAtLeast_eq (by rw [behind]; exact less), behind]
  unfold PBuffer.pHasMessage
  simp only [if_neg long, present]
  rw [bytes, readMessage, ← length, ← bytes]
  generalize xlUnpack (pMemcpy buffer.position 5) = size
  by_cases invalid : size < 4
  · simp only [invalid, if_true]
    exact ⟨holds, rfl⟩
  by_cases fewer : rest.length < size - 4
  · have absent : ¬ size - 4 ≤ rest.length := by omega
    simp only [invalid, fewer, absent, if_false, if_true, decide_false]
    exact ⟨holds, rfl⟩
  · have complete : size - 4 ≤ rest.length := by omega
    simp only [invalid, fewer, complete, if_false, decide_true]
    exact ⟨holds, rfl⟩

theorem pGetvalue_eq (buffer : PBuffer) : buffer.pGetvalue = buffer.position.remaining := by
  unfold PBuffer.pGetvalue ChunkPlace.remaining
  cases buffer.position.list with
  | nil => rfl
  | cons data rest => rfl

theorem Holds.pLength {buffer : PBuffer} {pending : Bytes} (holds : buffer.Holds pending)
    (most : Nat)
    : Follows buffer.pLength ((framing.stream most).answer pending .len) := by
  obtain rfl := holds.remaining
  simp only [PBuffer.pLength, lengthLoop_eq, Framing.stream]
  cases (framing.drain buffer.position.remaining).error with
  | some error => exact ⟨holds, rfl⟩
  | none => exact ⟨holds, rfl⟩

end PBuffer

theorem pBuffer_follows {buffer : PBuffer} {pending : Bytes} (holds : buffer.Holds pending)
    {call : StreamCall UInt8} (usable : Usable pending call)
    : let answered := (framing.stream PqMessageStream.numDefault).answer pending call
      PBuffer.Follows (pBuffer.answer buffer call)
        (answered.1, replyOptimized call answered.2) := by
  have small : pending.length < 2 ^ 32 := Nat.lt_succ_of_lt usable.size
  cases call with
  | write data => exact ⟨holds.pWrite data, rfl⟩
  | truncate => exact ⟨⟨rfl, by simp [pBuffer, PBuffer.empty, ChunkPlace.empty]⟩, rfl⟩
  | hasMessage => exact holds.pHasMessage small PqMessageStream.numDefault
  | len => exact holds.pLength PqMessageStream.numDefault
  | nextMessage => exact holds.pop small usable.types .nothing
  | next => exact holds.pop small usable.types .stop
  | read limit => exact holds.pRead usable
  | getvalue =>
      refine ⟨holds, ?_⟩
      rw [← holds.remaining]
      exact congrArg StreamReply.data buffer.pGetvalue_eq

end PgCluster.Postgresql
