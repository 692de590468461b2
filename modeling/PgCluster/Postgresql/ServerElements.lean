import PgCluster.Foundation.BinaryFields
import PgCluster.Foundation.OrderedDict
import Mathlib.Data.List.DropRight

/-! The data of the server's messages, version 3.0 of the protocol: how each class
serializes it, and how it parses what it is sent.
-/

namespace PgCluster.Postgresql

open Foundation

inductive ElementError where
  /-- `ValueError("string message not NUL-terminated")`. -/
  | notTerminated
  /-- `ValueError("empty message(%r) had data" %(typ.type,))`. -/
  | hadData (typ : Bytes)
  /-- `ValueError("invalid state for Ready message: " + repr(data))`. -/
  | invalidState (data : Bytes)
  /-- `ValueError("data length(%d) is not equal to the specified message size(%d)")`. -/
  | resultSize (length size : Nat)
  /-- `ValueError("invalid argument type data size")`. -/
  | argumentTypeDataSize
  /-- `ValueError("invalid argument type data")`. -/
  | argumentTypeData
  /-- `ValueError("invalid Describe message subtype, %r; expected %r")`, which names the
  expected one first. -/
  | describeSubtype (expected found : Bytes)
  /-- `ValueError("invalid Close message subtype, %r; expected %r")`, as for Describe. -/
  | closeSubtype (expected found : Bytes)
  /-- `ValueError("number of formats and data do not match up")`. -/
  | formatsNumber
  /-- `ValueError("invalid cancel query code")`. -/
  | cancelCode
  /-- `ValueError("invalid SSL Negotiation code")`. -/
  | negotiationCode
  /-- The `IndexError` of the text `"invalid version code {1}"`, which has one argument. -/
  | versionCode
  /-- The `ValueError` of an assignment to more names than there are values. -/
  | fewValues
  /-- The `TypeError` of a call with too few arguments. -/
  | fewArguments
  /-- The `ValueError` of `bytes.index`. -/
  | separatorNotFound
  /-- `struct.error`. -/
  | structSize
deriving DecidableEq

/-- The value, or the given exception. -/
def orRaise {Value : Type*} (error : ElementError) : Option Value → Except ElementError Value
  | some value => .ok value
  | none => .error error

@[simp] theorem orRaise_some {Value : Type*} (error : ElementError) (value : Value)
    : orRaise error (some value) = .ok value :=
  rfl

@[simp] theorem ok_bind {Value Result : Type} (value : Value)
    (next : Value → Except ElementError Result)
    : (Except.ok value >>= next) = next value :=
  rfl

def nul : UInt8 := 0

def char (letter : Char) : UInt8 := UInt8.ofNat letter.toNat

def nullSequence : Bytes := [0xFF, 0xFF, 0xFF, 0xFF]

def ushortPack : Nat → Option Bytes := BigEndian.pack 2

def ulongPack : Nat → Option Bytes := BigEndian.pack 4

def ushortUnpack (data : Bytes) : Except ElementError Nat :=
  orRaise .structSize (BigEndian.unpackFrom 2 data)

def ulongUnpack (data : Bytes) : Except ElementError Nat :=
  orRaise .structSize (BigEndian.unpackFrom 4 data)

-----------------------------------------------------------------------------------------
-- Attributes of tuples
-----------------------------------------------------------------------------------------

/-- One item of pack_tuple_data. -/
def packAttribute : Option Bytes → Option Bytes
  | none => some nullSequence
  | some data => do
      let size ← ulongPack data.length
      some (size ++ data)

def packTupleData (atts : List (Option Bytes)) : Option Bytes := do
  let parts ← atts.mapM packAttribute
  some parts.flatten

/-- One round of the loops that collect attributes: a slice may be shorter than its size. -/
def readAttribute (data : Bytes) : Except ElementError (Option Bytes × Bytes) :=
  let size := data.take 4
  let rest := data.drop 4
  if size = nullSequence then .ok (none, rest)
  else do
    let al ← ulongUnpack size
    .ok (some (rest.take al), rest.drop al)

/-- A size that stands for NULL cannot be the size of data. -/
def Sized (att : Option Bytes) : Prop := ∀ data, att = some data → data.length < 0xFFFFFFFF

theorem take_append_of_length {front : Bytes} {width : Nat} (length : front.length = width)
    (more : Bytes)
    : (front ++ more).take width = front := by
  rw [← length, List.take_left]

theorem drop_append_of_length {front : Bytes} {width : Nat} (length : front.length = width)
    (more : Bytes)
    : (front ++ more).drop width = more := by
  rw [← length, List.drop_left]

theorem ulongUnpack_append {number : Nat} {bytes : Bytes}
    (packed : ulongPack number = some bytes) (more : Bytes)
    : ulongUnpack (bytes ++ more) = .ok number := by
  rw [ulongUnpack, BigEndian.unpackFrom_pack packed, orRaise_some]

theorem ulongUnpack_pack {number : Nat} {bytes : Bytes}
    (packed : ulongPack number = some bytes)
    : ulongUnpack bytes = .ok number := by
  have read := ulongUnpack_append packed []
  rwa [List.append_nil] at read

theorem ushortUnpack_append {number : Nat} {bytes : Bytes}
    (packed : ushortPack number = some bytes) (more : Bytes)
    : ushortUnpack (bytes ++ more) = .ok number := by
  rw [ushortUnpack, BigEndian.unpackFrom_pack packed, orRaise_some]

theorem ushortUnpack_pack {number : Nat} {bytes : Bytes}
    (packed : ushortPack number = some bytes)
    : ushortUnpack bytes = .ok number := by
  have read := ushortUnpack_append packed []
  rwa [List.append_nil] at read

theorem readAttribute_append {att : Option Bytes} (sized : Sized att) {bytes : Bytes}
    (packed : packAttribute att = some bytes) (more : Bytes)
    : readAttribute (bytes ++ more) = .ok (att, more) := by
  cases att with
  | none =>
      obtain rfl : nullSequence = bytes := Option.some.inj packed
      rfl
  | some data =>
      simp only [packAttribute, Option.bind_eq_bind, Option.bind_eq_some_iff,
        Option.some.injEq] at packed
      obtain ⟨size, packed, rfl⟩ := packed
      have length := BigEndian.length_of_pack packed
      have notNull : size ≠ nullSequence := by
        intro null
        have number := BigEndian.ofBytes_of_pack packed
        rw [null] at number
        have all : BigEndian.ofBytes nullSequence = 0xFFFFFFFF := by decide
        have less := sized data rfl
        omega
      rw [readAttribute, List.append_assoc, take_append_of_length length,
        drop_append_of_length length]
      simp only [notNull, if_false, ulongUnpack_pack packed]
      show Except.ok (some ((data ++ more).take data.length), (data ++ more).drop data.length)
        = _
      rw [List.take_left, List.drop_left]

-----------------------------------------------------------------------------------------
-- Classes of one text, and of nothing
-----------------------------------------------------------------------------------------

namespace StringMessage

def serialize (data : Bytes) : Bytes := data ++ [nul]

def parse (data : Bytes) : Except ElementError Bytes :=
  if data.getLast? = some nul then .ok data.dropLast else .error .notTerminated

theorem parse_serialize (data : Bytes) : parse (serialize data) = .ok data := by
  simp [parse, serialize]

end StringMessage

namespace EmptyMessage

def parse (typ : Bytes) (data : Bytes) : Except ElementError Unit :=
  if data = [] then .ok () else .error (.hadData typ)

end EmptyMessage

namespace Subtyped

/-- Of Describe and of Close: a text behind the letter of what it names. -/
def serialize (subtype : UInt8) (data : Bytes) : Bytes := subtype :: (data ++ [nul])

def parse (subtype : UInt8) (error : Bytes → Bytes → ElementError) (data : Bytes)
    : Except ElementError Bytes :=
  if data.take 1 = [subtype] then StringMessage.parse (data.drop 1)
  else .error (error [subtype] (data.take 1))

theorem parse_serialize (subtype : UInt8) (error : Bytes → Bytes → ElementError)
    (data : Bytes)
    : parse subtype error (serialize subtype data) = .ok data :=
  (if_pos rfl).trans (StringMessage.parse_serialize data)

end Subtyped

namespace Complete

def parse (data : Bytes) : Bytes := data.rdropWhile (fun byte => byte = nul)

theorem parse_serialize {data : Bytes} (ended : data.getLast? ≠ some nul)
    : parse (StringMessage.serialize data) = data := by
  unfold parse StringMessage.serialize
  rw [List.rdropWhile_concat_pos _ _ _ (by simp), List.rdropWhile_eq_self_iff]
  intro some last
  apply ended
  rw [List.getLast?_eq_getLast_of_ne_nil some]
  simpa using last

end Complete

-----------------------------------------------------------------------------------------
-- Messages of the server
-----------------------------------------------------------------------------------------

namespace Notify

def serialize (pid : Nat) (channel payload : Bytes) : Option Bytes := do
  let pid ← ulongPack pid
  some (pid ++ (channel ++ nul :: (payload ++ [nul])))

def parse (data : Bytes) : Except ElementError (Nat × Bytes × Bytes) := do
  let pid ← ulongUnpack data
  match splitAtMost nul 2 (data.drop 4) with
  | [channel, payload, _] => .ok (pid, channel, payload)
  | _ => .error .fewValues

theorem parse_serialize {pid : Nat} {channel payload data : Bytes} (one : nul ∉ channel)
    (other : nul ∉ payload) (wrote : serialize pid channel payload = some data)
    : parse data = .ok (pid, channel, payload) := by
  simp only [serialize, Option.bind_eq_bind, Option.bind_eq_some_iff, Option.some.injEq]
    at wrote
  obtain ⟨size, packed, rfl⟩ := wrote
  unfold parse
  rw [ulongUnpack_append packed, drop_append_of_length (BigEndian.length_of_pack packed),
    splitAtMost_append one, splitAtMost_append other]
  rfl

end Notify

namespace ShowOption

def serialize (name value : Bytes) : Bytes := name ++ nul :: (value ++ [nul])

def parse (data : Bytes) : Except ElementError (Bytes × Bytes) :=
  match (splitAtMost nul 2 data).take 2 with
  | [name, value] => .ok (name, value)
  | _ => .error .fewArguments

theorem parse_serialize {name value : Bytes} (one : nul ∉ name) (other : nul ∉ value)
    : parse (serialize name value) = .ok (name, value) := by
  unfold parse serialize
  rw [splitAtMost_append one, splitAtMost_append other]
  rfl

end ShowOption

/-- What a `Ready` message can be built with. -/
inductive XactState where
  | idle
  | failed
  | transaction
deriving DecidableEq

namespace XactState

def bytes : XactState → Bytes
  | .idle => [char 'I']
  | .failed => [char 'E']
  | .transaction => [char 'T']

/-- `Ready.__init__`. -/
def ofBytes (data : Bytes) : Except ElementError XactState :=
  if data = [char 'I'] then .ok .idle
  else if data = [char 'E'] then .ok .failed
  else if data = [char 'T'] then .ok .transaction
  else .error (.invalidState data)

@[simp] theorem ofBytes_bytes (state : XactState) : ofBytes state.bytes = .ok state := by
  cases state <;> decide

end XactState

/-- A dict of `bytes`, in the order of its keys. -/
abbrev Fields := List (Bytes × Bytes)

/-- `dict` of a list of pairs: the last value of a key counts. -/
def dictOf {Value : Type*} (pairs : List (Bytes × Value)) : List (Bytes × Value) :=
  pairs.foldl (fun items pair => setItem items pair.1 pair.2) []

/-- Pairs of distinct keys are the items of their dict, by induction on them. -/
theorem dictOf_eq_self {Value : Type*} {pairs : List (Bytes × Value)}
    (distinct : (pairs.map Prod.fst).Nodup)
    : dictOf pairs = pairs := by
  have grows (before : List (Bytes × Value))
      (fresh : ((before ++ pairs).map Prod.fst).Nodup)
      : pairs.foldl (fun items pair => setItem items pair.1 pair.2) before
        = before ++ pairs := by
    clear distinct
    induction pairs generalizing before with
    | nil => simp
    | cons pair rest ih =>
        have absent : pair.1 ∉ before.map Prod.fst := by
          rw [List.map_append, List.nodup_append] at fresh
          exact fun member => fresh.2.2 pair.1 member pair.1 List.mem_cons_self rfl
        rw [List.foldl_cons, setItem, if_neg absent, ih _ (by simpa using fresh)]
        simp
  exact grows [] distinct

namespace Notice

/-- Fields without a value are not sent, nor those without a key. -/
def serialize (fields : List (Bytes × Option Bytes)) : Bytes :=
  [nul].intercalate
    (fields.filterMap
      (fun field => if field.1 = [] then none else field.2.map (fun value => field.1 ++ value)))
    ++ [nul]

/-- The first byte of a part is its key; parts without a byte are left out. -/
def fieldOf : Bytes → Option (Bytes × Bytes)
  | [] => none
  | letter :: value => some ([letter], value)

def parse (data : Bytes) : List (Bytes × Bytes) := dictOf ((data.splitOn nul).filterMap fieldOf)

end Notice

namespace FunctionResult

def serialize : Option Bytes → Option Bytes
  | none => some nullSequence
  | some result => do
      let size ← ulongPack result.length
      some (size ++ result)

def parse (data : Bytes) : Except ElementError (Option Bytes) :=
  if data = nullSequence then .ok none
  else do
    let size ← ulongUnpack (data.take 4)
    if size ≠ (data.drop 4).length then .error (.resultSize (data.drop 4).length size)
    else .ok (some (data.drop 4))

theorem parse_serialize {result : Option Bytes} {data : Bytes}
    (wrote : serialize result = some data)
    : parse data = .ok result := by
  cases result with
  | none =>
      obtain rfl : nullSequence = data := Option.some.inj wrote
      rfl
  | some result =>
      simp only [serialize, Option.bind_eq_bind, Option.bind_eq_some_iff, Option.some.injEq]
        at wrote
      obtain ⟨size, packed, rfl⟩ := wrote
      have length := BigEndian.length_of_pack packed
      have notNull : size ++ result ≠ nullSequence := by
        intro null
        have nothing : result = [] := by
          have counted := congrArg List.length null
          rw [List.length_append, length] at counted
          exact List.length_eq_zero_iff.mp (by simpa [nullSequence] using counted)
        rw [nothing, List.append_nil] at null
        have number := BigEndian.ofBytes_of_pack packed
        rw [null, nothing] at number
        exact absurd number (by decide)
      unfold parse
      rw [if_neg notNull, take_append_of_length length, drop_append_of_length length,
        ulongUnpack_pack packed]
      show (if result.length ≠ result.length then _ else _) = _
      rw [if_neg (not_not_intro rfl)]

end FunctionResult

/-- `unpack('!%dL'%(ac,), ...)`, one number at a time. -/
def readUlong (data : Bytes) : Except ElementError (Nat × Bytes) := do
  let number ← ulongUnpack (data.take 4)
  .ok (number, data.drop 4)

theorem readUlong_append {number : Nat} {bytes : Bytes}
    (packed : ulongPack number = some bytes) (more : Bytes)
    : readUlong (bytes ++ more) = .ok (number, more) := by
  have length := BigEndian.length_of_pack packed
  rw [readUlong, take_append_of_length length, drop_append_of_length length,
    ulongUnpack_pack packed]
  rfl

namespace TypeOids

/-- Of AttributeTypes and of Parse: a count, and so many type oids. -/
def serialize (types : List Nat) : Option Bytes := do
  let count ← ushortPack types.length
  let parts ← types.mapM ulongPack
  some (count ++ parts.flatten)

def parse (error : ElementError) (data : Bytes) : Except ElementError (List Nat) := do
  let ac ← ushortUnpack (data.take 2)
  let args := data.drop 2
  if args.length ≠ ac * 4 then .error error
  else
    let rows ← readRows readUlong ac args
    .ok rows.1

theorem parse_serialize {types : List Nat} {data : Bytes} (error : ElementError)
    (wrote : serialize types = some data)
    : parse error data = .ok types := by
  simp only [serialize, Option.bind_eq_bind, Option.bind_eq_some_iff, Option.some.injEq]
    at wrote
  obtain ⟨count, packed, parts, each, rfl⟩ := wrote
  have length := BigEndian.length_of_pack packed
  have rows : readRows readUlong types.length parts.flatten = .ok (types, []) := by
    have read := readRows_append (fun _ _ _ packed more => readUlong_append packed more) each []
    rwa [List.append_nil] at read
  unfold parse
  rw [take_append_of_length length, drop_append_of_length length, ushortUnpack_pack packed]
  show (if parts.flatten.length ≠ types.length * 4 then _ else _) = _
  have size := length_flatten_of_mapM (fun _ _ => BigEndian.length_of_pack) each
  rw [if_neg (not_not_intro size), rows]
  rfl

end TypeOids

/-- A row of a `TupleDescriptor`: its name and the six numbers of `"!LhLhlh"`. -/
structure Attribute where
  name : Bytes
  relationId : Nat
  columnNumber : Int
  typeId : Nat
  typlen : Int
  typmod : Int
  format : Int
deriving DecidableEq

namespace TupleDescriptor

def packRow (att : Attribute) : Option Bytes := do
  let relationId ← BigEndian.pack 4 att.relationId
  let columnNumber ← BigEndian.packInt 2 att.columnNumber
  let typeId ← BigEndian.pack 4 att.typeId
  let typlen ← BigEndian.packInt 2 att.typlen
  let typmod ← BigEndian.packInt 4 att.typmod
  let format ← BigEndian.packInt 2 att.format
  some (att.name ++ nul
    :: (relationId ++ (columnNumber ++ (typeId ++ (typlen ++ (typmod ++ format))))))

def serialize (atts : List Attribute) : Option Bytes := do
  let count ← ushortPack atts.length
  let rows ← atts.mapM packRow
  some (count ++ rows.flatten)

/-- `struct.unpack` of exactly eighteen bytes. -/
def unpackRow (name fields : Bytes) : Except ElementError Attribute :=
  if fields.length ≠ 18 then .error .structSize
  else do
    let relationId ← ulongUnpack fields
    let columnNumber ← orRaise .structSize (BigEndian.unpackIntFrom 2 (fields.drop 4))
    let typeId ← ulongUnpack (fields.drop 6)
    let typlen ← orRaise .structSize (BigEndian.unpackIntFrom 2 (fields.drop 10))
    let typmod ← orRaise .structSize (BigEndian.unpackIntFrom 4 (fields.drop 12))
    let format ← orRaise .structSize (BigEndian.unpackIntFrom 2 (fields.drop 16))
    .ok ⟨name, relationId, columnNumber, typeId, typlen, typmod, format⟩

def readRow (data : Bytes) : Except ElementError (Attribute × Bytes) := do
  let parts ← orRaise .separatorNotFound (cutAt nul data)
  let row ← unpackRow parts.1 (parts.2.take 18)
  .ok (row, parts.2.drop 18)

def parse (data : Bytes) : Except ElementError (List Attribute) := do
  let ac ← ushortUnpack (data.take 2)
  let rows ← readRows readRow ac (data.drop 2)
  .ok rows.1

theorem unpackRow_pack {att : Attribute} {relationId columnNumber typeId typlen typmod format}
    (packed₁ : BigEndian.pack 4 att.relationId = some relationId)
    (packed₂ : BigEndian.packInt 2 att.columnNumber = some columnNumber)
    (packed₃ : BigEndian.pack 4 att.typeId = some typeId)
    (packed₄ : BigEndian.packInt 2 att.typlen = some typlen)
    (packed₅ : BigEndian.packInt 4 att.typmod = some typmod)
    (packed₆ : BigEndian.packInt 2 att.format = some format)
    : unpackRow att.name
          (relationId ++ (columnNumber ++ (typeId ++ (typlen ++ (typmod ++ format)))))
        = .ok att := by
  have length₁ := BigEndian.length_of_pack packed₁
  have length₂ := BigEndian.length_of_packInt packed₂
  have length₃ := BigEndian.length_of_pack packed₃
  have length₄ := BigEndian.length_of_packInt packed₄
  have length₅ := BigEndian.length_of_packInt packed₅
  have length₆ := BigEndian.length_of_packInt packed₆
  have behind₁ := drop_append_of_length length₁
    (columnNumber ++ (typeId ++ (typlen ++ (typmod ++ format))))
  have behind₂ := drop_append_of_length length₂ (typeId ++ (typlen ++ (typmod ++ format)))
  have behind₃ := drop_append_of_length length₃ (typlen ++ (typmod ++ format))
  have behind₄ := drop_append_of_length length₄ (typmod ++ format)
  have behind₅ := drop_append_of_length length₅ format
  rw [← behind₁, List.drop_drop] at behind₂
  rw [← behind₂, List.drop_drop] at behind₃
  rw [← behind₃, List.drop_drop] at behind₄
  rw [← behind₄, List.drop_drop] at behind₅
  have last := BigEndian.unpackIntFrom_packInt packed₆ []
  rw [List.append_nil] at last
  have size
      : (relationId
          ++ (columnNumber ++ (typeId ++ (typlen ++ (typmod ++ format))))).length = 18 := by
    simp only [List.length_append]
    omega
  unfold unpackRow
  rw [if_neg (not_not_intro size), behind₁, behind₂, behind₃, behind₄, behind₅,
    ulongUnpack_append packed₁, ulongUnpack_append packed₃,
    BigEndian.unpackIntFrom_packInt packed₂, BigEndian.unpackIntFrom_packInt packed₄,
    BigEndian.unpackIntFrom_packInt packed₅, last]
  rfl

theorem readRow_append {att : Attribute} (named : nul ∉ att.name) {bytes : Bytes}
    (packed : packRow att = some bytes) (more : Bytes)
    : readRow (bytes ++ more) = .ok (att, more) := by
  simp only [packRow, Option.bind_eq_bind, Option.bind_eq_some_iff, Option.some.injEq]
    at packed
  obtain ⟨relationId, packed₁, columnNumber, packed₂, typeId, packed₃, typlen, packed₄,
    typmod, packed₅, format, packed₆, rfl⟩ := packed
  have row := unpackRow_pack packed₁ packed₂ packed₃ packed₄ packed₅ packed₆
  have size
      : (relationId
          ++ (columnNumber ++ (typeId ++ (typlen ++ (typmod ++ format))))).length = 18 := by
    simp only [List.length_append, BigEndian.length_of_pack packed₁,
      BigEndian.length_of_packInt packed₂, BigEndian.length_of_pack packed₃,
      BigEndian.length_of_packInt packed₄, BigEndian.length_of_packInt packed₅,
      BigEndian.length_of_packInt packed₆]
  rw [readRow, List.append_assoc, List.cons_append, cutAt_append named, orRaise_some,
    ok_bind]
  dsimp only
  rw [take_append_of_length size, drop_append_of_length size, row]
  rfl

theorem parse_serialize {atts : List Attribute} (named : ∀ att ∈ atts, nul ∉ att.name)
    {data : Bytes} (wrote : serialize atts = some data)
    : parse data = .ok atts := by
  simp only [serialize, Option.bind_eq_bind, Option.bind_eq_some_iff, Option.some.injEq]
    at wrote
  obtain ⟨count, packed, rows, each, rfl⟩ := wrote
  have length := BigEndian.length_of_pack packed
  have read := readRows_append
    (fun att member _ packed more => readRow_append (named att member) packed more) each []
  rw [List.append_nil] at read
  unfold parse
  rw [take_append_of_length length, drop_append_of_length length, ushortUnpack_pack packed]
  simp only [bind, Except.bind, read]

end TupleDescriptor

namespace Tuple

def serialize (atts : List (Option Bytes)) : Option Bytes := do
  let count ← ushortPack atts.length
  let data ← packTupleData atts
  some (count ++ data)

/-- Of the data behind the attributes nothing is said. -/
def parse (data : Bytes) : Except ElementError (List (Option Bytes)) := do
  let natts ← ushortUnpack (data.take 2)
  let rows ← readRows readAttribute natts (data.drop 2)
  .ok rows.1

end Tuple

/-- Packed attributes are read back, whatever follows. -/
theorem readRows_packTupleData {atts : List (Option Bytes)} (sized : ∀ att ∈ atts, Sized att)
    {data : Bytes} (packed : packTupleData atts = some data) (more : Bytes)
    : readRows readAttribute atts.length (data ++ more) = .ok (atts, more) := by
  simp only [packTupleData, Option.bind_eq_bind, Option.bind_eq_some_iff, Option.some.injEq]
    at packed
  obtain ⟨parts, each, rfl⟩ := packed
  exact readRows_append
    (fun att member _ packed more => readAttribute_append (sized att member) packed more)
    each more

namespace Tuple

theorem parse_serialize {atts : List (Option Bytes)} (sized : ∀ att ∈ atts, Sized att)
    {data : Bytes} (wrote : serialize atts = some data)
    : parse data = .ok atts := by
  simp only [serialize, Option.bind_eq_bind, Option.bind_eq_some_iff, Option.some.injEq]
    at wrote
  obtain ⟨count, packed, rows, each, rfl⟩ := wrote
  have length := BigEndian.length_of_pack packed
  have read := readRows_packTupleData sized each []
  rw [List.append_nil] at read
  unfold parse
  rw [take_append_of_length length, drop_append_of_length length, ushortUnpack_pack packed]
  simp only [bind, Except.bind, read]

end Tuple

/-- `struct.Struct("!LL")`. -/
def packTwo (first second : Nat) : Option Bytes := do
  let first ← ulongPack first
  let second ← ulongPack second
  some (first ++ second)

/-- It unpacks exactly eight bytes. -/
def unpackTwo (data : Bytes) : Except ElementError (Nat × Nat) :=
  if data.length ≠ 8 then .error .structSize
  else do
    let first ← ulongUnpack data
    let second ← ulongUnpack (data.drop 4)
    .ok (first, second)

theorem unpackTwo_pack {first second : Nat} {data : Bytes}
    (packed : packTwo first second = some data)
    : unpackTwo data = .ok (first, second) := by
  simp only [packTwo, Option.bind_eq_bind, Option.bind_eq_some_iff, Option.some.injEq]
    at packed
  obtain ⟨one, packed₁, two, packed₂, rfl⟩ := packed
  have length₁ := BigEndian.length_of_pack packed₁
  have length₂ := BigEndian.length_of_pack packed₂
  have size : (one ++ two).length = 8 := by
    rw [List.length_append, length₁, length₂]
  unfold unpackTwo
  rw [if_neg (not_not_intro size), ulongUnpack_append packed₁, drop_append_of_length length₁,
    ulongUnpack_pack packed₂]
  rfl

namespace Authentication

def serialize (request : Nat) (salt : Bytes) : Option Bytes := do
  let request ← ulongPack request
  some (request ++ salt)

def parse (data : Bytes) : Except ElementError (Nat × Bytes) := do
  let request ← ulongUnpack (data.take 4)
  .ok (request, data.drop 4)

theorem parse_serialize {request : Nat} {salt data : Bytes}
    (wrote : serialize request salt = some data)
    : parse data = .ok (request, salt) := by
  simp only [serialize, Option.bind_eq_bind, Option.bind_eq_some_iff, Option.some.injEq]
    at wrote
  obtain ⟨size, packed, rfl⟩ := wrote
  have length := BigEndian.length_of_pack packed
  rw [parse, take_append_of_length length, drop_append_of_length length,
    ulongUnpack_pack packed]
  rfl

end Authentication

/-- `ushort_unpack` of two bytes at a time. -/
def readUshort (data : Bytes) : Except ElementError (Nat × Bytes) := do
  let number ← ushortUnpack (data.take 2)
  .ok (number, data.drop 2)

theorem readUshort_append {number : Nat} {bytes : Bytes}
    (packed : ushortPack number = some bytes) (more : Bytes)
    : readUshort (bytes ++ more) = .ok (number, more) := by
  have length := BigEndian.length_of_pack packed
  rw [readUshort, take_append_of_length length, drop_append_of_length length,
    ushortUnpack_pack packed]
  rfl

namespace CopyBegin

/-- `struct.Struct("!BH")`, and the formats. -/
def serialize (format : Nat) (formats : List Nat) : Option Bytes := do
  let first ← BigEndian.pack 1 format
  let count ← ushortPack formats.length
  let rows ← formats.mapM ushortPack
  some (first ++ (count ++ rows.flatten))

def parse (data : Bytes) : Except ElementError (Nat × List Nat) := do
  let head := data.take 3
  if head.length ≠ 3 then .error .structSize
  else
    let format ← orRaise .structSize (BigEndian.unpackFrom 1 head)
    let natts ← ushortUnpack (head.drop 1)
    let formatsStr := data.drop 3
    if formatsStr.length ≠ natts * 2 then .error .formatsNumber
    else
      let rows ← readRows readUshort natts formatsStr
      .ok (format, rows.1)

theorem parse_serialize {format : Nat} {formats : List Nat} {data : Bytes}
    (wrote : serialize format formats = some data)
    : parse data = .ok (format, formats) := by
  simp only [serialize, Option.bind_eq_bind, Option.bind_eq_some_iff, Option.some.injEq]
    at wrote
  obtain ⟨first, packed₁, count, packed₂, rows, each, rfl⟩ := wrote
  have length₁ := BigEndian.length_of_pack packed₁
  have length₂ := BigEndian.length_of_pack packed₂
  have head : (first ++ count).length = 3 := by rw [List.length_append, length₁, length₂]
  have read := readRows_append
    (fun _ _ _ packed more => readUshort_append packed more) each []
  rw [List.append_nil] at read
  unfold parse
  rw [← List.append_assoc, take_append_of_length head, drop_append_of_length head]
  show (if (first ++ count).length ≠ 3 then _ else _) = _
  rw [if_neg (not_not_intro head), BigEndian.unpackFrom_pack packed₁, orRaise_some,
    drop_append_of_length length₁, ushortUnpack_pack packed₂]
  have size := length_flatten_of_mapM (fun _ _ => BigEndian.length_of_pack) each
  show (if rows.flatten.length ≠ formats.length * 2 then _ else _) = _
  rw [if_neg (not_not_intro size), read]
  rfl

end CopyBegin

namespace Notice

/-- The parts that are sent for fields of one byte as a key, by induction on the fields. -/
theorem filterMap_fieldOf {fields : Fields}
    (keys : ∀ field ∈ fields, ∃ letter, field.1 = [letter])
    : ((fields.map (fun field => field.1 ++ field.2)).filterMap fieldOf) = fields := by
  induction fields with
  | nil => rfl
  | cons field rest ih =>
      obtain ⟨letter, key⟩ := keys field List.mem_cons_self
      have first : fieldOf (field.1 ++ field.2) = some field := by
        rw [key]
        exact congrArg some (Prod.ext key.symm rfl)
      rw [List.map_cons, List.filterMap_cons_some first,
        ih (fun other member => keys other (List.mem_cons_of_mem _ member))]

/-- Parts joined and ended by a byte are each ended by it, unless there are none. -/
theorem intercalate_append (separator : UInt8) {parts : List Bytes} (some : parts ≠ [])
    : [separator].intercalate parts ++ [separator]
      = parts.flatMap (fun part => part ++ [separator]) := by
  induction parts with
  | nil => contradiction
  | cons part rest ih =>
      cases rest with
      | nil => simp [List.intercalate]
      | cons next others =>
          have later := ih (by simp)
          rw [List.flatMap_cons, ← later]
          simp [List.intercalate]

/-- What the parser is given back for fields that have a value and a key of one byte. -/
theorem parse_serialize {fields : Fields}
    (keys : ∀ field ∈ fields, ∃ letter, field.1 = [letter])
    (plain : ∀ field ∈ fields, nul ∉ field.1 ∧ nul ∉ field.2)
    (distinct : (fields.map Prod.fst).Nodup)
    : parse (serialize (fields.map (fun field => (field.1, some field.2)))) = fields := by
  have sent
      : (fields.map (fun field => (field.1, some field.2))).filterMap
          (fun field =>
            if field.1 = [] then none else field.2.map (fun value => field.1 ++ value))
        = fields.map (fun field => field.1 ++ field.2) := by
    rw [List.filterMap_map, ← List.filterMap_eq_map]
    refine List.filterMap_congr (fun field member => ?_)
    obtain ⟨letter, key⟩ := keys field member
    simp [key]
  unfold parse serialize
  rw [sent]
  have split
      : (([nul].intercalate (fields.map (fun field => field.1 ++ field.2))
            ++ [nul]).splitOn nul).filterMap fieldOf
        = fields := by
    cases fields with
    | nil => decide
    | cons field rest =>
        rw [intercalate_append nul (by simp), splitOn_flatMap, List.filterMap_append,
          filterMap_fieldOf keys]
        · simp [fieldOf]
        · intro part member
          obtain ⟨other, listed, rfl⟩ := List.mem_map.mp member
          simpa using plain other listed
  rw [split, dictOf_eq_self distinct]

end Notice

end PgCluster.Postgresql
