import PgCluster.Postgresql.Elements
import PgCluster.Postgresql.OptimizedBuffer

/-! The functions on elements of the C extension: the strict parser of rows, and the writer
that copies runs of messages of one kind into one buffer.
-/

namespace PgCluster.Postgresql

open Foundation

-----------------------------------------------------------------------------------------
-- Rows
-----------------------------------------------------------------------------------------

inductive TupleError where
  /-- `"invalid tuple message: %d bytes is too small"`. -/
  | tooSmall (dlen : Nat)
  /-- `"not enough data available for attribute %d's size header: needed %d bytes, but only
  %lu remain at position %lu"`. -/
  | sizeHeader (cnatt remaining position : Nat)
  /-- `"attribute %d has invalid size %lu"`. -/
  | attributeSize (cnatt attsize : Nat)
  /-- `"invalid tuple(D) message, %lu remaining bytes after processing %d attributes"`. -/
  | remaining (bytes cnatt : Nat)
deriving DecidableEq

/-- The loop of _unpack_tuple_data, with the number of attributes still to come. -/
def unpackTupleData (dataLen : Nat)
    : Nat → Nat → Bytes → Except TupleError (List (Option Bytes))
  | 0, cnatt, data => if data ≠ [] then .error (.remaining data.length cnatt) else .ok []
  | count + 1, cnatt, data =>
      if data.length < 4 then
        .error (.sizeHeader cnatt data.length (dataLen - data.length))
      else
        let next := data.drop 4
        if data.take 4 = nullSequence then
          (unpackTupleData dataLen count (cnatt + 1) next).map (fun atts => none :: atts)
        else
          let attsize := BigEndian.ofBytes (data.take 4)
          if next.length < attsize then .error (.attributeSize cnatt attsize)
          else
            (unpackTupleData dataLen count (cnatt + 1) (next.drop attsize)).map
              (fun atts => some (next.take attsize) :: atts)

def parseTupleMessage (data : Bytes) : Except TupleError (List (Option Bytes)) :=
  if data.length < 2 then .error (.tooSmall data.length)
  else
    unpackTupleData (data.length - 2) (BigEndian.ofBytes (data.take 2)) 0 (data.drop 2)

theorem packTupleData_cons {att : Option Bytes} {atts : List (Option Bytes)} {data : Bytes}
    : packTupleData (att :: atts) = some data
      ↔ ∃ first rest, packAttribute att = some first ∧ packTupleData atts = some rest
        ∧ data = first ++ rest := by
  simp only [packTupleData, List.mapM_cons, Option.bind_eq_bind, Option.bind_eq_some_iff,
    Option.pure_def, Option.some.injEq]
  constructor
  · rintro ⟨_, ⟨first, packed, parts, each, rfl⟩, rfl⟩
    exact ⟨first, parts.flatten, packed, ⟨parts, each, rfl⟩, rfl⟩
  · rintro ⟨first, rest, packed, ⟨parts, each, rfl⟩, rfl⟩
    exact ⟨first :: parts, ⟨first, packed, parts, each, rfl⟩, rfl⟩

theorem map_eq_ok {Value Result : Type} {error : Type} {next : Value → Result}
    {result : Result} {before : Except error Value}
    : before.map next = .ok result ↔ ∃ value, before = .ok value ∧ next value = result := by
  cases before with
  | error problem => simp [Except.map]
  | ok value => simp [Except.map]

/-- A packed attribute in front is unpacked. -/
theorem unpackTupleData_append (dataLen count cnatt : Nat) {att : Option Bytes}
    (sized : Sized att) {first : Bytes} (packed : packAttribute att = some first)
    (rest : Bytes)
    : unpackTupleData dataLen (count + 1) cnatt (first ++ rest)
      = (unpackTupleData dataLen count (cnatt + 1) rest).map (fun atts => att :: atts) := by
  cases att with
  | none =>
      obtain rfl : nullSequence = first := Option.some.inj packed
      rw [unpackTupleData, if_neg (by simp [nullSequence])]
      exact if_pos rfl
  | some data =>
      simp only [packAttribute, Option.bind_eq_bind, Option.bind_eq_some_iff,
        Option.some.injEq] at packed
      obtain ⟨size, packed, rfl⟩ := packed
      have length := BigEndian.length_of_pack packed
      have number := BigEndian.ofBytes_of_pack packed
      have notNull : size ≠ nullSequence := by
        intro null
        rw [null] at number
        have all : BigEndian.ofBytes nullSequence = 0xFFFFFFFF := by decide
        have less := sized data rfl
        omega
      have long : ¬ (size ++ data ++ rest).length < 4 := by
        simp only [List.length_append]
        omega
      rw [unpackTupleData, if_neg long, List.append_assoc, take_append_of_length length,
        drop_append_of_length length]
      dsimp only
      rw [if_neg notNull, number, if_neg (by simp), List.drop_left, List.take_left]

/-- What the loop unpacks first was packed in front. -/
theorem exists_of_unpackTupleData {dataLen count cnatt : Nat} {data : Bytes}
    {atts : List (Option Bytes)}
    (unpacked : unpackTupleData dataLen (count + 1) cnatt data = .ok atts)
    : ∃ att later first rest,
        atts = att :: later ∧ data = first ++ rest ∧ packAttribute att = some first
          ∧ Sized att ∧ unpackTupleData dataLen count (cnatt + 1) rest = .ok later := by
  rw [unpackTupleData] at unpacked
  split at unpacked
  · contradiction
  next long =>
      dsimp only at unpacked
      have header : (data.take 4).length = 4 := by
        rw [List.length_take]
        omega
      split at unpacked
      next null =>
          obtain ⟨later, rest, rfl⟩ := map_eq_ok.mp unpacked
          refine ⟨none, later, nullSequence, data.drop 4, rfl, ?_, rfl, nofun, rest⟩
          rw [← null, List.take_append_drop]
      next notNull =>
          split at unpacked
          · contradiction
          next enough =>
              obtain ⟨later, rest, rfl⟩ := map_eq_ok.mp unpacked
              have bound := BigEndian.ofBytes_lt (data.take 4)
              have digits := BigEndian.toBytes_ofBytes (data.take 4)
              rw [header] at bound digits
              have size : ((data.drop 4).take (BigEndian.ofBytes (data.take 4))).length
                  = BigEndian.ofBytes (data.take 4) := by
                rw [List.length_take]
                omega
              have packed : ulongPack (BigEndian.ofBytes (data.take 4))
                  = some (data.take 4) := by
                rw [ulongPack, BigEndian.pack, if_pos bound, digits]
              refine ⟨some ((data.drop 4).take (BigEndian.ofBytes (data.take 4))), later,
                data.take 4 ++ (data.drop 4).take (BigEndian.ofBytes (data.take 4)), _, rfl,
                ?_, ?_, ?_, rest⟩
              · rw [List.append_assoc, List.take_append_drop, List.take_append_drop]
              · simp only [packAttribute, size, packed, Option.bind_eq_bind, Option.bind_some]
              · intro text same
                obtain rfl := Option.some.inj same
                rw [size]
                have other : BigEndian.ofBytes (data.take 4) ≠ 0xFFFFFFFF := by
                  intro all
                  rw [all] at digits
                  exact notNull digits.symm
                omega

/-- The rows that are unpacked are those whose packing the data is, by induction on the
number of attributes.
-/
theorem unpackTupleData_eq_ok (dataLen : Nat) {count cnatt : Nat} {data : Bytes}
    {atts : List (Option Bytes)}
    : unpackTupleData dataLen count cnatt data = .ok atts
      ↔ atts.length = count ∧ (∀ att ∈ atts, Sized att) ∧ packTupleData atts = some data := by
  induction count generalizing cnatt data atts with
  | zero =>
      rw [unpackTupleData, List.length_eq_zero_iff]
      constructor
      · intro ended
        split at ended
        · contradiction
        next nothing =>
            obtain rfl := Except.ok.inj ended
            obtain rfl := not_not.mp nothing
            exact ⟨rfl, by simp, rfl⟩
      · rintro ⟨rfl, -, packed⟩
        obtain rfl : [] = data := Option.some.inj packed
        rfl
  | succ count ih =>
      constructor
      · intro unpacked
        obtain ⟨att, later, first, rest, rfl, rfl, packed, sized, others⟩ :=
          exists_of_unpackTupleData unpacked
        obtain ⟨length, each, pack⟩ := ih.mp others
        refine ⟨by rw [List.length_cons, length], ?_, ?_⟩
        · simpa using ⟨sized, each⟩
        · exact packTupleData_cons.mpr ⟨first, rest, packed, pack, rfl⟩
      · rintro ⟨length, sized, packed⟩
        cases atts with
        | nil => contradiction
        | cons att atts =>
            obtain ⟨first, rest, pack, others, rfl⟩ := packTupleData_cons.mp packed
            have later : unpackTupleData dataLen count (cnatt + 1) rest = .ok atts :=
              ih.mpr ⟨Nat.succ.inj length,
                fun other member => sized other (List.mem_cons_of_mem _ member), others⟩
            rw [unpackTupleData_append _ _ _ (sized att List.mem_cons_self) pack, later]
            rfl

theorem serialize_of_parseTupleMessage {data : Bytes} {atts : List (Option Bytes)}
    (parsed : parseTupleMessage data = .ok atts)
    : (∀ att ∈ atts, Sized att) ∧ Tuple.serialize atts = some data := by
  simp only [parseTupleMessage] at parsed
  split at parsed
  · contradiction
  next long =>
      obtain ⟨count, sized, packed⟩ := (unpackTupleData_eq_ok _).mp parsed
      have head : (data.take 2).length = 2 := by
        rw [List.length_take]
        omega
      have bound := BigEndian.ofBytes_lt (data.take 2)
      have digits := BigEndian.toBytes_ofBytes (data.take 2)
      rw [head] at bound digits
      have counted : ushortPack atts.length = some (data.take 2) := by
        rw [count, ushortPack, BigEndian.pack, if_pos bound, digits]
      refine ⟨sized, ?_⟩
      simp only [Tuple.serialize, counted, packed, Option.bind_eq_bind, Option.bind_some,
        List.take_append_drop]

theorem parseTupleMessage_of_serialize {data : Bytes} {atts : List (Option Bytes)}
    (sized : ∀ att ∈ atts, Sized att) (wrote : Tuple.serialize atts = some data)
    : parseTupleMessage data = .ok atts := by
  simp only [Tuple.serialize, Option.bind_eq_bind, Option.bind_eq_some_iff,
    Option.some.injEq] at wrote
  obtain ⟨count, counted, rest, packed, rfl⟩ := wrote
  have length := BigEndian.length_of_pack counted
  have long : ¬ (count ++ rest).length < 2 := by
    rw [List.length_append]
    omega
  rw [parseTupleMessage, if_neg long, take_append_of_length length,
    drop_append_of_length length, BigEndian.ofBytes_of_pack counted]
  exact (unpackTupleData_eq_ok _).mpr ⟨rfl, sized, packed⟩

/-- The parser of the extension accepts exactly what `Tuple.serialize` writes. The one in
Python parses the same rows, and takes short data and data behind the attributes as well.
-/
theorem parseTupleMessage_eq_ok {data : Bytes} {atts : List (Option Bytes)}
    : (parseTupleMessage data = .ok atts
          ↔ (∀ att ∈ atts, Sized att) ∧ Tuple.serialize atts = some data)
        ∧ (parseTupleMessage data = .ok atts → Tuple.parse data = .ok atts) := by
  refine ⟨⟨serialize_of_parseTupleMessage, ?_⟩, ?_⟩
  · rintro ⟨sized, wrote⟩
    exact parseTupleMessage_of_serialize sized wrote
  · intro parsed
    obtain ⟨sized, wrote⟩ := serialize_of_parseTupleMessage parsed
    exact Tuple.parse_serialize sized wrote

-----------------------------------------------------------------------------------------
-- cat_messages
-----------------------------------------------------------------------------------------

/-- The adjacent COPY data, and the messages behind it. -/
def copyRun : List Outgoing → List Bytes × List Outgoing
  | .copy data :: rest => (data :: (copyRun rest).1, (copyRun rest).2)
  | messages => ([], messages)

/-- The adjacent rows, and the messages behind them. -/
def tupleRun : List Outgoing → List (List (Option Bytes)) × List Outgoing
  | .tuple atts :: rest => (atts :: (tupleRun rest).1, (tupleRun rest).2)
  | messages => ([], messages)

/-- A run and what is behind it are the messages, by induction on the run. -/
theorem copyRun_append (messages : List Outgoing)
    : (copyRun messages).1.map Outgoing.copy ++ (copyRun messages).2 = messages := by
  induction messages with
  | nil => rfl
  | cons message rest ih =>
      cases message with
      | copy data => rw [copyRun, List.map_cons, List.cons_append, ih]
      | tuple atts => rfl
      | element other => rfl

theorem tupleRun_append (messages : List Outgoing)
    : (tupleRun messages).1.map Outgoing.tuple ++ (tupleRun messages).2 = messages := by
  induction messages with
  | nil => rfl
  | cons message rest ih =>
      cases message with
      | copy data => rfl
      | tuple atts => rw [tupleRun, List.map_cons, List.cons_append, ih]
      | element other => rfl

theorem copyRun_length (messages : List Outgoing)
    : (copyRun messages).2.length ≤ messages.length := by
  have counted := congrArg List.length (copyRun_append messages)
  rw [List.length_append] at counted
  omega

theorem tupleRun_length (messages : List Outgoing)
    : (tupleRun messages).2.length ≤ messages.length := by
  have counted := congrArg List.length (tupleRun_append messages)
  rw [List.length_append] at counted
  omega

/-- The size of the data of an attribute, of which NULL has none. -/
def attSize : Option Bytes → Nat
  | none => 0
  | some data => data.length

/-- The size and the data of an attribute in the buffer. -/
def copyAttribute : Option Bytes → Bytes
  | none => nullSequence
  | some data => BigEndian.toBytes 4 (uint32 data.length) ++ data

/-- A `'d'` message at the position of the buffer, which moves by the size in the header. -/
def writeCopy (buf : MemoryFile UInt8) (data : Bytes) : MemoryFile UInt8 :=
  let msgLength := uint32 (uint32 data.length + 4)
  (buf.write (char 'd' :: (BigEndian.toBytes 4 msgLength ++ data))).seek
    (buf.position + (1 + msgLength))

/-- A `'D'` message. Its size is summed up while the attributes are copied. -/
def writeTuple (buf : MemoryFile UInt8) (atts : List (Option Bytes)) : MemoryFile UInt8 :=
  let msgLength := atts.foldl (fun sum att => uint32 (sum + attSize att))
    (uint32 (4 + 2 + atts.length * 4))
  (buf.write (char 'D' :: (BigEndian.toBytes 4 msgLength
      ++ (BigEndian.toBytes 2 atts.length ++ atts.flatMap copyAttribute)))).seek
    (buf.position + (1 + msgLength))

/-- The buffer, whose position is `bufpos`, with the size that is allocated for it. The
size of a run is added up before the run is written.
-/
def catLoop (buf : MemoryFile UInt8) (bufsize : Nat)
    : List Outgoing → Option (MemoryFile UInt8 × Nat)
  | [] => some (buf, bufsize)
  | .copy data :: rest =>
      let run := data :: (copyRun rest).1
      let xsize := (run.map List.length).sum + 5 * run.length
      catLoop (run.foldl writeCopy buf) (bufsize + xsize) (copyRun rest).2
  | .tuple atts :: rest =>
      let run := atts :: (tupleRun rest).1
      -- `"too many attributes in tuple message"`
      if run.any (fun atts => decide (0xFFFF < atts.length)) then none
      else
        let xsize := (run.map (fun atts => atts.length * 4 + (atts.map attSize).sum)).sum
          + 7 * run.length
        catLoop (run.foldl writeTuple buf) (bufsize + xsize) (tupleRun rest).2
  | .element element :: rest =>
      match element.serialize with
      | none => none
      | some serialized =>
          let msgType := element.cls.typ
          -- `"message size too large, was %u bytes, but could not add %u more"`
          if 2 ^ 32 ≤ uint32 serialized.length + 4 then none
          else
            let size := bufsize + (4 + msgType.length) + serialized.length
            let written := buf.write
              (msgType ++ (BigEndian.toBytes 4 (uint32 serialized.length + 4) ++ serialized))
            catLoop (written.seek size) size rest
termination_by messages => messages.length
decreasing_by
  · exact Nat.lt_succ_of_le (copyRun_length rest)
  · exact Nat.lt_succ_of_le (tupleRun_length rest)
  · exact Nat.lt_succ_self _

def catMessagesOptimized (messages : List Outgoing) : Option Bytes :=
  (catLoop .empty 0 messages).map (fun result => result.1.content.take result.2)

/-- The bytes of a message in the extension, which adds type and length to Void as well. -/
def Outgoing.bytesOptimized : Outgoing → Option Bytes
  | .element other => other.message
  | .copy data => Outgoing.bytes (.copy data)
  | .tuple atts => Outgoing.bytes (.tuple atts)

/-- A buffer that is filled up to its position. -/
def filled (content : Bytes) : MemoryFile UInt8 := ⟨content, content.length⟩

theorem filled_write (content data : Bytes)
    : (filled content).write data = filled (content ++ data) := by
  have written := MemoryFile.write_content (filled content) (Nat.le_refl _) data
  have position := MemoryFile.write_position (filled content) data
  rw [filled] at written position ⊢
  generalize (⟨content, content.length⟩ : MemoryFile UInt8).write data = file at *
  obtain ⟨inner, place⟩ := file
  simp only [List.take_length] at written position
  rw [written, position, List.drop_of_length_le (by omega), List.append_nil, filled,
    List.length_append]

@[simp] theorem filled_position (content : Bytes)
    : (filled content).position = content.length :=
  rfl

theorem filled_write_seek (content data : Bytes) {position : Nat}
    (behind : position = content.length + data.length)
    : ((filled content).write data).seek position = filled (content ++ data) := by
  rw [filled_write, behind, ← List.length_append]
  rfl

theorem uint32_of_lt {number : Nat} (less : number < 2 ^ 32) : uint32 number = number :=
  Nat.mod_eq_of_lt less

theorem packInt_bounds {number : Nat} {bytes : Bytes}
    (packed : BigEndian.packInt 4 number = some bytes)
    : number < 2 ^ 31 ∧ bytes = BigEndian.toBytes 4 number := by
  have plain := BigEndian.pack_of_packInt packed
  refine ⟨?_, (BigEndian.pack_eq_some plain).2⟩
  unfold BigEndian.packInt at packed
  split at packed
  next bounds =>
      have half : (256 ^ 4 / 2 : Nat) = 2 ^ 31 := by decide
      rw [half] at bounds
      omega
  next => contradiction

theorem writeCopy_filled {data out : Bytes}
    (wrote : (Outgoing.copy data).bytesOptimized = some out) (content : Bytes)
    : writeCopy (filled content) data = filled (content ++ out)
      ∧ out.length = data.length + 5 := by
  simp only [Outgoing.bytesOptimized, Outgoing.bytes, Option.bind_eq_bind,
    Option.bind_eq_some_iff, Option.some.injEq] at wrote
  obtain ⟨size, packed, rfl⟩ := wrote
  obtain ⟨less, rfl⟩ := packInt_bounds packed
  have length : uint32 (uint32 data.length + 4) = data.length + 4 := by
    rw [uint32_of_lt (show data.length < 2 ^ 32 by omega), uint32_of_lt (by omega)]
  have total : (char 'd' :: (BigEndian.toBytes 4 (data.length + 4) ++ data)).length
      = data.length + 5 := by
    simp only [List.length_cons, List.length_append, BigEndian.length_toBytes]
    omega
  refine ⟨?_, total⟩
  unfold writeCopy
  simp only [length]
  exact filled_write_seek content _ (by rw [total, filled_position]; omega)

/-- The packed attributes are those that are copied, by induction on them. -/
theorem flatten_eq_flatMap {atts : List (Option Bytes)} {parts : List Bytes}
    (each : atts.mapM packAttribute = some parts)
    : parts.flatten = atts.flatMap copyAttribute
      ∧ parts.flatten.length = atts.length * 4 + (atts.map attSize).sum := by
  induction atts generalizing parts with
  | nil =>
      obtain rfl : parts = [] := by simpa using each.symm
      exact ⟨rfl, rfl⟩
  | cons att rest ih =>
      simp only [List.mapM_cons, Option.bind_eq_bind, Option.bind_eq_some_iff,
        Option.pure_def, Option.some.injEq] at each
      obtain ⟨first, packed, others, later, rfl⟩ := each
      obtain ⟨same, length⟩ := ih later
      have copied : first = copyAttribute att ∧ first.length = 4 + attSize att := by
        cases att with
        | none =>
            obtain rfl : nullSequence = first := Option.some.inj packed
            exact ⟨rfl, rfl⟩
        | some data =>
            simp only [packAttribute, Option.bind_eq_bind, Option.bind_eq_some_iff,
              Option.some.injEq] at packed
            obtain ⟨size, packed, rfl⟩ := packed
            obtain ⟨fits, rfl⟩ := BigEndian.pack_eq_some packed
            refine ⟨?_, by rw [List.length_append, BigEndian.length_toBytes]; rfl⟩
            rw [copyAttribute, uint32_of_lt fits]
      refine ⟨?_, ?_⟩
      · rw [List.flatten_cons, List.flatMap_cons, same, copied.1]
      · rw [List.flatten_cons, List.length_append, length, copied.2, List.length_cons,
          List.map_cons, List.sum_cons]
        omega

/-- Sizes that fit are summed up exactly, by induction on the attributes. -/
theorem foldl_uint32 {atts : List (Option Bytes)} {start : Nat}
    (fits : start + (atts.map attSize).sum < 2 ^ 32)
    : atts.foldl (fun sum att => uint32 (sum + attSize att)) start
      = start + (atts.map attSize).sum := by
  induction atts generalizing start with
  | nil => rfl
  | cons att rest ih =>
      rw [List.map_cons, List.sum_cons] at fits
      rw [List.foldl_cons, uint32_of_lt (by omega), ih (by omega), List.map_cons,
        List.sum_cons, Nat.add_assoc]

theorem writeTuple_filled {atts : List (Option Bytes)} {out : Bytes}
    (wrote : (Outgoing.tuple atts).bytesOptimized = some out) (content : Bytes)
    : writeTuple (filled content) atts = filled (content ++ out)
      ∧ out.length = atts.length * 4 + (atts.map attSize).sum + 7
      ∧ ¬ 0xFFFF < atts.length := by
  simp only [Outgoing.bytesOptimized, Outgoing.bytes, Option.bind_eq_bind,
    Option.bind_eq_some_iff, Option.some.injEq] at wrote
  obtain ⟨parts, each, size, packed, count, counted, rfl⟩ := wrote
  obtain ⟨less, rfl⟩ := packInt_bounds packed
  obtain ⟨few, rfl⟩ := BigEndian.pack_eq_some counted
  obtain ⟨same, length⟩ := flatten_eq_flatMap each
  have sum : atts.foldl (fun sum att => uint32 (sum + attSize att))
      (uint32 (4 + 2 + atts.length * 4)) = parts.flatten.length + 6 := by
    rw [uint32_of_lt (by omega), foldl_uint32 (by omega), length]
    omega
  have total
      : (char 'D' :: (BigEndian.toBytes 4 (parts.flatten.length + 6)
            ++ (BigEndian.toBytes 2 atts.length ++ parts.flatten))).length
        = parts.flatten.length + 7 := by
    simp only [List.length_cons, List.length_append, BigEndian.length_toBytes]
    omega
  rw [List.append_assoc]
  refine ⟨?_, by rw [total, length], by omega⟩
  unfold writeTuple
  simp only [sum, ← same]
  exact filled_write_seek content _ (by rw [total, filled_position]; omega)

/-- A run of one kind is written message by message, by induction on it. -/
theorem foldl_filled {Item : Type} {write : MemoryFile UInt8 → Item → MemoryFile UInt8}
    {outgoing : Item → Outgoing} {size : Item → Nat} {more : Nat}
    (writes
      : ∀ item out, (outgoing item).bytesOptimized = some out
          → ∀ content, write (filled content) item = filled (content ++ out)
            ∧ out.length = size item + more)
    {run : List Item} {parts : List Bytes}
    (each : (run.map outgoing).mapM Outgoing.bytesOptimized = some parts) (content : Bytes)
    : run.foldl write (filled content) = filled (content ++ parts.flatten)
      ∧ parts.flatten.length = (run.map size).sum + more * run.length := by
  induction run generalizing parts content with
  | nil =>
      obtain rfl : parts = [] := by simpa using each.symm
      exact ⟨by simp, by simp⟩
  | cons item rest ih =>
      simp only [List.map_cons, List.mapM_cons, Option.bind_eq_bind, Option.bind_eq_some_iff,
        Option.pure_def, Option.some.injEq] at each
      obtain ⟨first, wrote, others, later, rfl⟩ := each
      obtain ⟨written, length⟩ := writes item first wrote content
      obtain ⟨last, total⟩ := ih later (content ++ first)
      refine ⟨?_, ?_⟩
      · rw [List.foldl_cons, written, last, List.flatten_cons, List.append_assoc]
      · rw [List.flatten_cons, List.length_append, length, total, List.map_cons,
          List.sum_cons, List.length_cons, Nat.mul_succ]
        omega

/-- The parts of a run and of what is behind it. -/
theorem mapM_bytesOptimized_append {first second : List Outgoing} {parts : List Bytes}
    (each : (first ++ second).mapM Outgoing.bytesOptimized = some parts)
    : ∃ front back,
        first.mapM Outgoing.bytesOptimized = some front
          ∧ second.mapM Outgoing.bytesOptimized = some back
          ∧ parts = front ++ back := by
  simp only [List.mapM_append, Option.bind_eq_bind, Option.bind_eq_some_iff,
    Option.pure_def, Option.some.injEq] at each
  obtain ⟨front, one, back, other, rfl⟩ := each
  exact ⟨front, back, one, other, rfl⟩

theorem copyRun_any (data : Bytes) (rest : List Outgoing)
    : Outgoing.copy data :: rest
      = (data :: (copyRun rest).1).map Outgoing.copy ++ (copyRun rest).2 := by
  rw [List.map_cons, List.cons_append, copyRun_append]

theorem tupleRun_any (atts : List (Option Bytes)) (rest : List Outgoing)
    : Outgoing.tuple atts :: rest
      = (atts :: (tupleRun rest).1).map Outgoing.tuple ++ (tupleRun rest).2 := by
  rw [List.map_cons, List.cons_append, tupleRun_append]

/-- Every item of a list that can be written can. -/
theorem exists_bytes_of_mem {Item : Type} {write : Item → Option Bytes} {items : List Item}
    {parts : List Bytes} (each : items.mapM write = some parts) {item : Item}
    (member : item ∈ items)
    : ∃ out, write item = some out := by
  induction items generalizing parts with
  | nil => contradiction
  | cons first rest ih =>
      simp only [List.mapM_cons, Option.bind_eq_bind, Option.bind_eq_some_iff,
        Option.pure_def, Option.some.injEq] at each
      obtain ⟨out, wrote, others, later, rfl⟩ := each
      rcases List.mem_cons.mp member with rfl | member
      · exact ⟨out, wrote⟩
      · exact ih later member

/-- The loop appends the bytes of the messages, and has allocated as much: by induction on the
runs.
-/
theorem catLoop_filled {messages : List Outgoing} {parts : List Bytes}
    (each : messages.mapM Outgoing.bytesOptimized = some parts) (content : Bytes)
    : catLoop (filled content) content.length messages
      = some (filled (content ++ parts.flatten), (content ++ parts.flatten).length) := by
  induction count : messages.length using Nat.strongRecOn
    generalizing messages parts content with
  | ind count ih =>
      subst count
      cases messages with
      | nil =>
          obtain rfl : parts = [] := by simpa using each.symm
          rw [catLoop, List.flatten_nil, List.append_nil]
      | cons message rest =>
          cases message with
          | copy data =>
              rw [copyRun_any] at each
              obtain ⟨front, back, run, behind, rfl⟩ := mapM_bytesOptimized_append each
              obtain ⟨written, total⟩ := foldl_filled
                (fun item out wrote content => writeCopy_filled wrote content) run content
              have later := ih _ (Nat.lt_succ_of_le (copyRun_length rest)) behind
                (content ++ front.flatten) rfl
              rw [List.length_append, total] at later
              rw [catLoop, written, later, List.flatten_append, List.append_assoc]
          | tuple atts =>
              rw [tupleRun_any] at each
              obtain ⟨front, back, run, behind, rfl⟩ := mapM_bytesOptimized_append each
              obtain ⟨written, total⟩ := foldl_filled
                (fun item out wrote content =>
                  ⟨(writeTuple_filled wrote content).1, (writeTuple_filled wrote content).2.1⟩)
                run content
              have few
                  : (atts :: (tupleRun rest).1).any
                      (fun atts => decide (0xFFFF < atts.length)) = false := by
                rw [List.any_eq_false]
                intro row member
                obtain ⟨out, wrote⟩ := exists_bytes_of_mem run (List.mem_map_of_mem member)
                simpa using (writeTuple_filled wrote []).2.2
              have later := ih _ (Nat.lt_succ_of_le (tupleRun_length rest)) behind
                (content ++ front.flatten) rfl
              rw [List.length_append, total] at later
              rw [catLoop]
              dsimp only
              rw [few, written, List.flatten_append, ← List.append_assoc]
              exact later
          | element element =>
              simp only [List.mapM_cons, Option.bind_eq_bind, Option.bind_eq_some_iff,
                Option.pure_def, Option.some.injEq, Outgoing.bytesOptimized, Element.message]
                at each
              obtain ⟨first, ⟨serialized, wrote, size, packed, rfl⟩, others, behind, rfl⟩ := each
              obtain ⟨fits, rfl⟩ := BigEndian.pack_eq_some packed
              have length : uint32 serialized.length = serialized.length :=
                uint32_of_lt (by omega)
              have small : ¬ 2 ^ 32 ≤ serialized.length + 4 := by omega
              have later := ih _ (Nat.lt_succ_self _) behind (content
                ++ (element.cls.typ
                  ++ (BigEndian.toBytes 4 (serialized.length + 4) ++ serialized))) rfl
              have total
                  : content.length + (4 + element.cls.typ.length) + serialized.length
                    = (content ++ (element.cls.typ
                      ++ (BigEndian.toBytes 4 (serialized.length + 4)
                        ++ serialized))).length := by
                simp only [List.length_append, BigEndian.length_toBytes]
                omega
              rw [catLoop, wrote]
              dsimp only
              rw [length, if_neg small, total,
                filled_write_seek content _ (by rw [List.length_append]), later,
                List.flatten_cons, List.append_assoc]

/-- Only Void gets other bytes, the length of an empty message. -/
theorem Outgoing.bytesOptimized_of_bytes {message : Outgoing} {out : Bytes}
    (wrote : message.bytes = some out)
    : message = .element .void ∧ out = [] ∧ message.bytesOptimized = some [0, 0, 0, 4]
      ∨ message ≠ .element .void ∧ message.bytesOptimized = some out := by
  cases message with
  | copy data => exact .inr ⟨nofun, wrote⟩
  | tuple atts => exact .inr ⟨nofun, wrote⟩
  | element other =>
      by_cases void : other = .void
      · subst void
        exact .inl ⟨rfl, (Option.some.inj wrote).symm, by decide⟩
      · refine .inr ⟨fun same => void (Outgoing.element.inj same), ?_⟩
        rwa [bytes, Element.bytes_of_ne void] at wrote

/-- What Python can write the extension can write, with no fewer bytes, and with the same
exactly when there is no Void: by induction on the messages.
-/
theorem exists_bytesOptimized {messages : List Outgoing} {parts : List Bytes}
    (each : messages.mapM Outgoing.bytes = some parts)
    : ∃ others,
        messages.mapM Outgoing.bytesOptimized = some others
          ∧ parts.flatten.length ≤ others.flatten.length
          ∧ (others.flatten = parts.flatten ↔ Outgoing.element .void ∉ messages) := by
  induction messages generalizing parts with
  | nil =>
      obtain rfl : parts = [] := by simpa using each.symm
      exact ⟨[], rfl, Nat.le_refl _, by simp⟩
  | cons message rest ih =>
      simp only [List.mapM_cons, Option.bind_eq_bind, Option.bind_eq_some_iff,
        Option.pure_def, Option.some.injEq] at each
      obtain ⟨first, wrote, later, each, rfl⟩ := each
      obtain ⟨others, written, longer, same⟩ := ih each
      rcases Outgoing.bytesOptimized_of_bytes wrote with ⟨rfl, rfl, more⟩ | ⟨typed, plain⟩
      · refine ⟨[0, 0, 0, 4] :: others, by simp [more, written], ?_, ?_⟩
        · simp only [List.flatten_cons, List.length_append, List.length_nil]
          omega
        · have differ : ([0, 0, 0, 4] :: others).flatten ≠ ([] :: later).flatten := by
            intro equal
            have lengths := congrArg List.length equal
            simp only [List.flatten_cons, List.length_append, List.length_cons,
              List.length_nil] at lengths
            omega
          exact iff_of_false differ (by simp)
      · refine ⟨first :: others, by simp [plain, written], ?_, ?_⟩
        · simp only [List.flatten_cons, List.length_append]
          omega
        · rw [List.flatten_cons, List.flatten_cons, List.append_right_inj, same,
            List.mem_cons, not_or]
          exact ⟨fun absent => ⟨typed.symm, absent⟩, And.right⟩

/-- The extension writes the bytes that Python writes exactly when there is no Void among
the messages.
-/
theorem catMessagesOptimized_eq_iff {messages : List Outgoing} {data : Bytes}
    (wrote : catMessages messages = some data)
    : catMessagesOptimized messages = some data ↔ Outgoing.element .void ∉ messages := by
  simp only [catMessages, Option.bind_eq_bind, Option.bind_eq_some_iff, Option.some.injEq]
    at wrote
  obtain ⟨parts, each, rfl⟩ := wrote
  obtain ⟨others, written, _, same⟩ := exists_bytesOptimized each
  have loop := catLoop_filled written []
  rw [List.nil_append] at loop
  have result : catMessagesOptimized messages = some others.flatten :=
    (congrArg (Option.map _) loop).trans (congrArg some List.take_length)
  rw [result, Option.some.injEq, same]

/-- Two runs of COPY data around a row and an element. -/
theorem catMessagesOptimized_eq_runs
    : catMessagesOptimized
          [.copy [7], .copy [], .tuple [none], .element (.empty .synchronize), .copy [8]]
        = some [100, 0, 0, 0, 5, 7, 100, 0, 0, 0, 4, 68, 0, 0, 0, 10, 0, 1, 255, 255, 255, 255,
            83, 0, 0, 0, 4, 100, 0, 0, 0, 5, 8] :=
  (catMessagesOptimized_eq_iff (by decide)).mpr (by simp)

end PgCluster.Postgresql
