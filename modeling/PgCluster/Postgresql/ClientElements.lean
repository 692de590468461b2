import PgCluster.Postgresql.ServerElements

/-! The data of the client's messages: how each class serializes and parses it. -/

namespace PgCluster.Postgresql

open Foundation

namespace Version

/-- `version_struct.pack(major, minor)`. -/
def bytes (major minor : Nat) : Bytes :=
  BigEndian.toBytes 2 major ++ BigEndian.toBytes 2 minor

def cancelRequestCode : Bytes := bytes 1234 5678

def negotiateSSLCode : Bytes := bytes 1234 5679

def v3_0 : Bytes := bytes 3 0

theorem length_bytes (major minor : Nat) : (bytes major minor).length = 4 := by
  simp [bytes]

end Version

namespace CancelRequest

def serialize (pid key : Nat) : Option Bytes := do
  let data ← packTwo pid key
  some (Version.cancelRequestCode ++ data)

def parse (data : Bytes) : Except ElementError (Nat × Nat) :=
  if data.take 4 ≠ Version.cancelRequestCode then .error .cancelCode
  else unpackTwo (data.drop 4)

theorem parse_serialize {pid key : Nat} {data : Bytes}
    (wrote : serialize pid key = some data)
    : parse data = .ok (pid, key) := by
  simp only [serialize, Option.bind_eq_bind, Option.bind_eq_some_iff, Option.some.injEq]
    at wrote
  obtain ⟨two, packed, rfl⟩ := wrote
  have length : Version.cancelRequestCode.length = 4 := Version.length_bytes _ _
  rw [parse, take_append_of_length length, drop_append_of_length length,
    if_neg (not_not_intro rfl), unpackTwo_pack packed]

end CancelRequest

namespace NegotiateSSL

def parse (data : Bytes) : Except ElementError Unit :=
  if data ≠ Version.negotiateSSLCode then .error .negotiationCode else .ok ()

end NegotiateSSL

namespace Startup

/-- Parameters without a value are not sent. -/
def serialize (fields : List (Bytes × Option Bytes)) : Bytes :=
  Version.v3_0
    ++ (fields.filterMap
        (fun field => field.2.map (fun value => field.1 ++ nul :: (value ++ [nul])))).flatten
    ++ [nul]

/-- The loop over the parts: a key, then its value. -/
def pairs : List Bytes → Fields
  | key :: value :: rest => (key, value) :: pairs rest
  | _ => []

/-- The last two parts are those around the byte that ends the message. -/
def parse (data : Bytes) : Except ElementError Fields :=
  if data.take 4 ≠ Version.v3_0 then .error .versionCode
  else .ok (dictOf (pairs (((data.drop 4).splitOn nul).dropLast.dropLast)))

/-- By induction on the fields. -/
theorem pairs_flatMap (fields : Fields)
    : pairs (fields.flatMap (fun field => [field.1, field.2])) = fields := by
  induction fields with
  | nil => rfl
  | cons field rest ih => simp [pairs, ih]

theorem parse_serialize {fields : Fields}
    (plain : ∀ field ∈ fields, nul ∉ field.1 ∧ nul ∉ field.2)
    (distinct : (fields.map Prod.fst).Nodup)
    : parse (serialize (fields.map (fun field => (field.1, some field.2)))) = .ok fields := by
  have sent
      : ((fields.map (fun field => (field.1, some field.2))).filterMap
          (fun field =>
            field.2.map (fun value => field.1 ++ nul :: (value ++ [nul])))).flatten
          ++ [nul]
        = (fields.flatMap (fun field : Bytes × Bytes => [field.1, field.2])
            ++ [[]]).flatMap (fun part => part ++ [nul]) := by
    clear plain distinct
    induction fields with
    | nil => rfl
    | cons field rest ih =>
        simp only [List.map_cons, List.filterMap_cons, Option.map_some, List.flatten_cons,
          List.flatMap_cons, List.cons_append, List.nil_append, List.append_assoc] at ih ⊢
        rw [ih]
  have length : Version.v3_0.length = 4 := Version.length_bytes _ _
  unfold parse serialize
  rw [List.append_assoc, take_append_of_length length, drop_append_of_length length,
    if_neg (not_not_intro rfl), sent, splitOn_flatMap]
  · rw [List.dropLast_concat, List.dropLast_concat, pairs_flatMap, dictOf_eq_self distinct]
  · intro part member
    rcases List.mem_append.mp member with listed | last
    · obtain ⟨field, known, which⟩ := List.mem_flatMap.mp listed
      obtain ⟨key, value⟩ := plain field known
      simp only [List.mem_cons, List.not_mem_nil, or_false] at which
      rcases which with rfl | rfl
      · exact key
      · exact value
    · rw [List.mem_singleton.mp last]
      exact List.not_mem_nil

end Startup

namespace Parse

def serialize (name statement : Bytes) (argtypes : List Nat) : Option Bytes := do
  let types ← TypeOids.serialize argtypes
  some (name ++ nul :: (statement ++ nul :: types))

def parse (data : Bytes) : Except ElementError (Bytes × Bytes × List Nat) :=
  match splitAtMost nul 2 data with
  | [name, statement, args] => do
      let types ← TypeOids.parse .argumentTypeData args
      .ok (name, statement, types)
  | _ => .error .fewValues

theorem parse_serialize {name statement : Bytes} {argtypes : List Nat} {data : Bytes}
    (one : nul ∉ name) (other : nul ∉ statement)
    (wrote : serialize name statement argtypes = some data)
    : parse data = .ok (name, statement, argtypes) := by
  simp only [serialize, Option.bind_eq_bind, Option.bind_eq_some_iff, Option.some.injEq]
    at wrote
  obtain ⟨types, wrote, rfl⟩ := wrote
  unfold parse
  rw [splitAtMost_append one, splitAtMost_append other, splitAtMost_zero]
  dsimp only
  rw [TypeOids.parse_serialize _ wrote]
  rfl

end Parse

/-- `unpack("2s" * count, data)`, which takes exactly so many bytes. -/
def unpackFormats (count : Nat) (data : Bytes) : Except ElementError (List Bytes) :=
  if data.length ≠ 2 * count then .error .structSize else .ok (pairsOf count data)
where
  pairsOf : Nat → Bytes → List Bytes
    | 0, _ => []
    | count + 1, data => data.take 2 :: pairsOf count (data.drop 2)

/-- Formats of two bytes each are read back, by induction on them. -/
theorem unpackFormats_flatten {formats : List Bytes}
    (wide : ∀ format ∈ formats, format.length = 2)
    : formats.flatten.length = 2 * formats.length
      ∧ unpackFormats formats.length formats.flatten = .ok formats := by
  have both : formats.flatten.length = 2 * formats.length
      ∧ unpackFormats.pairsOf formats.length formats.flatten = formats := by
    induction formats with
    | nil => exact ⟨rfl, rfl⟩
    | cons format rest ih =>
        have first := wide format List.mem_cons_self
        obtain ⟨size, later⟩ :=
          ih (fun other member => wide other (List.mem_cons_of_mem _ member))
        refine ⟨?_, ?_⟩
        · rw [List.flatten_cons, List.length_append, first, size, List.length_cons]
          omega
        · rw [List.flatten_cons, List.length_cons, unpackFormats.pairsOf,
            take_append_of_length first, drop_append_of_length first, later]
  refine ⟨both.1, ?_⟩
  rw [unpackFormats, if_neg (not_not_intro both.1), both.2]

namespace Arguments

/-- Of Bind and of Function: the formats and the arguments, both behind the number of
arguments.
-/
def serialize (aformats : List Bytes) (arguments : List (Option Bytes)) : Option Bytes := do
  let ac ← ushortPack arguments.length
  let ad ← packTupleData arguments
  some (ac ++ (aformats.flatten ++ (ac ++ ad)))

def parse (data : Bytes)
    : Except ElementError (List Bytes × List (Option Bytes) × Bytes) := do
  let ac ← ushortUnpack (data.take 2)
  let aformats ← unpackFormats ac ((data.drop 2).take (2 * ac))
  let behind := (data.drop 2).drop (2 * ac)
  let natts ← ushortUnpack (behind.take 2)
  let rows ← readRows readAttribute natts (behind.drop 2)
  .ok (aformats, rows.1, rows.2)

/-- With a format for each argument, what follows is left. -/
theorem parse_append {aformats : List Bytes} {arguments : List (Option Bytes)} {data : Bytes}
    (wide : ∀ format ∈ aformats, format.length = 2)
    (paired : aformats.length = arguments.length) (sized : ∀ att ∈ arguments, Sized att)
    (wrote : serialize aformats arguments = some data) (more : Bytes)
    : parse (data ++ more) = .ok (aformats, arguments, more) := by
  simp only [serialize, Option.bind_eq_bind, Option.bind_eq_some_iff, Option.some.injEq]
    at wrote
  obtain ⟨ac, packed, ad, each, rfl⟩ := wrote
  have length := BigEndian.length_of_pack packed
  obtain ⟨size, formats⟩ := unpackFormats_flatten wide
  rw [paired] at size formats
  unfold parse
  rw [List.append_assoc, List.append_assoc, List.append_assoc, take_append_of_length length,
    drop_append_of_length length, ushortUnpack_pack packed, ok_bind,
    take_append_of_length size, drop_append_of_length size, formats, ok_bind]
  dsimp only
  rw [take_append_of_length length, drop_append_of_length length, ushortUnpack_pack packed,
    ok_bind, readRows_packTupleData sized each more]
  rfl

end Arguments

namespace Bind

def serialize (name statement : Bytes) (aformats : List Bytes)
    (arguments : List (Option Bytes)) (rformats : List Bytes)
    : Option Bytes := do
  let args ← Arguments.serialize aformats arguments
  let rfc ← ushortPack rformats.length
  some (name ++ nul :: (statement ++ nul :: (args ++ (rfc ++ rformats.flatten))))

def parse (messageData : Bytes)
    : Except ElementError
        (Bytes × Bytes × List Bytes × List (Option Bytes) × List Bytes) :=
  match splitAtMost nul 2 messageData with
  | [name, statement, data] => do
      let args ← Arguments.parse data
      let rfc ← ushortUnpack (args.2.2.take 2)
      let rformats ← unpackFormats rfc ((args.2.2.drop 2).take (2 * rfc))
      .ok (name, statement, args.1, args.2.1, rformats)
  | _ => .error .fewValues

theorem parse_serialize {name statement : Bytes} {aformats rformats : List Bytes}
    {arguments : List (Option Bytes)} {data : Bytes} (one : nul ∉ name)
    (other : nul ∉ statement) (wide : ∀ format ∈ aformats, format.length = 2)
    (results : ∀ format ∈ rformats, format.length = 2)
    (paired : aformats.length = arguments.length) (sized : ∀ att ∈ arguments, Sized att)
    (wrote : serialize name statement aformats arguments rformats = some data)
    : parse data = .ok (name, statement, aformats, arguments, rformats) := by
  simp only [serialize, Option.bind_eq_bind, Option.bind_eq_some_iff, Option.some.injEq]
    at wrote
  obtain ⟨args, each, rfc, packed, rfl⟩ := wrote
  have length := BigEndian.length_of_pack packed
  obtain ⟨size, formats⟩ := unpackFormats_flatten results
  unfold parse
  rw [splitAtMost_append one, splitAtMost_append other, splitAtMost_zero]
  dsimp only
  rw [Arguments.parse_append wide paired sized each, ok_bind]
  dsimp only
  rw [take_append_of_length length, drop_append_of_length length, ushortUnpack_pack packed,
    ok_bind, List.take_of_length_le (Nat.le_of_eq size), formats]
  rfl

end Bind

namespace Execute

def serialize (name : Bytes) (max : Nat) : Option Bytes := do
  let max ← ulongPack max
  some (name ++ nul :: max)

def parse (data : Bytes) : Except ElementError (Bytes × Nat) :=
  match splitAtMost nul 1 data with
  | [name, max] => do
      let max ← ulongUnpack max
      .ok (name, max)
  | _ => .error .fewValues

theorem parse_serialize {name data : Bytes} {max : Nat} (plain : nul ∉ name)
    (wrote : serialize name max = some data)
    : parse data = .ok (name, max) := by
  simp only [serialize, Option.bind_eq_bind, Option.bind_eq_some_iff, Option.some.injEq]
    at wrote
  obtain ⟨size, packed, rfl⟩ := wrote
  unfold parse
  rw [splitAtMost_append plain, splitAtMost_zero]
  dsimp only
  rw [ulongUnpack_pack packed]
  rfl

end Execute

namespace Function

def serialize (oid : Nat) (aformats : List Bytes) (arguments : List (Option Bytes))
    (rformat : Bytes)
    : Option Bytes := do
  let oid ← ulongPack oid
  let args ← Arguments.serialize aformats arguments
  some (oid ++ (args ++ rformat))

def parse (data : Bytes)
    : Except ElementError (Nat × List Bytes × List (Option Bytes) × Bytes) := do
  let oid ← ulongUnpack (data.take 4)
  let args ← Arguments.parse (data.drop 4)
  .ok (oid, args)

theorem parse_serialize {oid : Nat} {aformats : List Bytes}
    {arguments : List (Option Bytes)} {rformat data : Bytes}
    (wide : ∀ format ∈ aformats, format.length = 2)
    (paired : aformats.length = arguments.length) (sized : ∀ att ∈ arguments, Sized att)
    (wrote : serialize oid aformats arguments rformat = some data)
    : parse data = .ok (oid, aformats, arguments, rformat) := by
  simp only [serialize, Option.bind_eq_bind, Option.bind_eq_some_iff, Option.some.injEq]
    at wrote
  obtain ⟨size, packed, args, each, rfl⟩ := wrote
  have length := BigEndian.length_of_pack packed
  rw [parse, take_append_of_length length, drop_append_of_length length,
    ulongUnpack_pack packed, ok_bind, Arguments.parse_append wide paired sized each]
  rfl

end Function

end PgCluster.Postgresql
