import PgCluster.Postgresql.ClientElements
import PgCluster.Postgresql.MessageBuffer

/-! The elements of the protocol as one type: what is serialized is parsed again, and what
is put on the wire is read from it.
-/

namespace PgCluster.Postgresql

open Foundation

-----------------------------------------------------------------------------------------
-- Classes
-----------------------------------------------------------------------------------------

/-- The classes without data. -/
inductive EmptyKind where
  | null
  | noData
  | parseComplete
  | bindComplete
  | closeComplete
  | suspension
  | disconnect
  | flush
  | synchronize
  | copyDone
deriving DecidableEq

def EmptyKind.typ : EmptyKind → Bytes
  | .null => [char 'I']
  | .noData => [char 'n']
  | .parseComplete => [char '1']
  | .bindComplete => [char '2']
  | .closeComplete => [char '3']
  | .suspension => [char 's']
  | .disconnect => [char 'X']
  | .flush => [char 'H']
  | .synchronize => [char 'S']
  | .copyDone => [char 'c']

/-- The classes of one text. -/
inductive StringKind where
  | password
  | query
  | copyFail
deriving DecidableEq

def StringKind.typ : StringKind → Bytes
  | .password => [char 'p']
  | .query => [char 'Q']
  | .copyFail => [char 'f']

inductive NoticeKind where
  | notice
  | error
deriving DecidableEq

def NoticeKind.typ : NoticeKind → Bytes
  | .notice => [char 'N']
  | .error => [char 'E']

/-- What Describe and Close name. -/
inductive Subtype where
  | statement
  | portal
deriving DecidableEq

def Subtype.letter : Subtype → UInt8
  | .statement => char 'S'
  | .portal => char 'P'

inductive CopyDirection where
  | to
  | from
deriving DecidableEq

def CopyDirection.typ : CopyDirection → Bytes
  | .to => [char 'H']
  | .from => [char 'G']

/-- A class, by which data is parsed. -/
inductive Class where
  | notify
  | showOption
  | complete
  | empty (kind : EmptyKind)
  | ready
  | notice (kind : NoticeKind)
  | functionResult
  | attributeTypes
  | tupleDescriptor
  | tuple
  | killInformation
  | cancelRequest
  | negotiateSSL
  | startup
  | authentication
  | string (kind : StringKind)
  | parse
  | bind
  | execute
  | describe (subtype : Subtype)
  | close (subtype : Subtype)
  | function
  | copyBegin (direction : CopyDirection)
  | copyData
  | void
deriving DecidableEq

/-- The `type` of the messages of a class. -/
def Class.typ : Class → Bytes
  | .notify => [char 'A']
  | .showOption => [char 'S']
  | .complete => [char 'C']
  | .empty kind => kind.typ
  | .ready => [char 'Z']
  | .notice kind => kind.typ
  | .functionResult => [char 'V']
  | .attributeTypes => [char 't']
  | .tupleDescriptor => [char 'T']
  | .tuple => [char 'D']
  | .killInformation => [char 'K']
  | .cancelRequest => []
  | .negotiateSSL => []
  | .startup => []
  | .authentication => [char 'R']
  | .string kind => kind.typ
  | .parse => [char 'P']
  | .bind => [char 'B']
  | .execute => [char 'E']
  | .describe _ => [char 'D']
  | .close _ => [char 'C']
  | .function => [char 'F']
  | .copyBegin direction => direction.typ
  | .copyData => [char 'd']
  | .void => []

inductive Element where
  | notify (pid : Nat) (channel payload : Bytes)
  | showOption (name value : Bytes)
  | complete (data : Bytes)
  | empty (kind : EmptyKind)
  | ready (xactState : XactState)
  | notice (kind : NoticeKind) (fields : List (Bytes × Option Bytes))
  | functionResult (result : Option Bytes)
  | attributeTypes (types : List Nat)
  | tupleDescriptor (atts : List Attribute)
  | tuple (atts : List (Option Bytes))
  | killInformation (pid key : Nat)
  | cancelRequest (pid key : Nat)
  | negotiateSSL
  | startup (fields : List (Bytes × Option Bytes))
  | authentication (request : Nat) (salt : Bytes)
  | string (kind : StringKind) (data : Bytes)
  | parse (name statement : Bytes) (argtypes : List Nat)
  | bind (name statement : Bytes) (aformats : List Bytes) (arguments : List (Option Bytes))
      (rformats : List Bytes)
  | execute (name : Bytes) (max : Nat)
  | describe (subtype : Subtype) (data : Bytes)
  | close (subtype : Subtype) (data : Bytes)
  | function (oid : Nat) (aformats : List Bytes) (arguments : List (Option Bytes))
      (rformat : Bytes)
  | copyBegin (direction : CopyDirection) (format : Nat) (formats : List Nat)
  | copyData (data : Bytes)
  | void
deriving DecidableEq

namespace Element

def cls : Element → Class
  | .notify .. => .notify
  | .showOption .. => .showOption
  | .complete .. => .complete
  | .empty kind => .empty kind
  | .ready .. => .ready
  | .notice kind _ => .notice kind
  | .functionResult .. => .functionResult
  | .attributeTypes .. => .attributeTypes
  | .tupleDescriptor .. => .tupleDescriptor
  | .tuple .. => .tuple
  | .killInformation .. => .killInformation
  | .cancelRequest .. => .cancelRequest
  | .negotiateSSL => .negotiateSSL
  | .startup .. => .startup
  | .authentication .. => .authentication
  | .string kind _ => .string kind
  | .parse .. => .parse
  | .bind .. => .bind
  | .execute .. => .execute
  | .describe subtype _ => .describe subtype
  | .close subtype _ => .close subtype
  | .function .. => .function
  | .copyBegin direction .. => .copyBegin direction
  | .copyData .. => .copyData
  | .void => .void

/-- None where a number does not fit its field. -/
def serialize : Element → Option Bytes
  | .notify pid channel payload => Notify.serialize pid channel payload
  | .showOption name value => some (ShowOption.serialize name value)
  | .complete data => some (StringMessage.serialize data)
  | .empty _ => some []
  | .ready xactState => some xactState.bytes
  | .notice _ fields => some (Notice.serialize fields)
  | .functionResult result => FunctionResult.serialize result
  | .attributeTypes types => TypeOids.serialize types
  | .tupleDescriptor atts => TupleDescriptor.serialize atts
  | .tuple atts => Tuple.serialize atts
  | .killInformation pid key => packTwo pid key
  | .cancelRequest pid key => CancelRequest.serialize pid key
  | .negotiateSSL => some Version.negotiateSSLCode
  | .startup fields => some (Startup.serialize fields)
  | .authentication request salt => Authentication.serialize request salt
  | .string _ data => some (StringMessage.serialize data)
  | .parse name statement argtypes => Parse.serialize name statement argtypes
  | .bind name statement aformats arguments rformats =>
      Bind.serialize name statement aformats arguments rformats
  | .execute name max => Execute.serialize name max
  | .describe subtype data => some (Subtyped.serialize subtype.letter data)
  | .close subtype data => some (Subtyped.serialize subtype.letter data)
  | .function oid aformats arguments rformat =>
      Function.serialize oid aformats arguments rformat
  | .copyBegin _ format formats => CopyBegin.serialize format formats
  | .copyData data => some data
  | .void => some []

end Element

/-- The fields of a parsed dict, all of which have a value. -/
def withValues (fields : Fields) : List (Bytes × Option Bytes) :=
  fields.map (fun field => (field.1, some field.2))

/-- The `parse` of a class. -/
def Class.parseData : Class → Bytes → Except ElementError Element
  | .notify, data => do
      let parts ← Notify.parse data
      .ok (.notify parts.1 parts.2.1 parts.2.2)
  | .showOption, data => do
      let parts ← ShowOption.parse data
      .ok (.showOption parts.1 parts.2)
  | .complete, data => .ok (.complete (Complete.parse data))
  | .empty kind, data => do
      EmptyMessage.parse kind.typ data
      .ok (.empty kind)
  | .ready, data => do
      let state ← XactState.ofBytes data
      .ok (.ready state)
  | .notice kind, data => .ok (.notice kind (withValues (Notice.parse data)))
  | .functionResult, data => do
      let result ← FunctionResult.parse data
      .ok (.functionResult result)
  | .attributeTypes, data => do
      let types ← TypeOids.parse .argumentTypeDataSize data
      .ok (.attributeTypes types)
  | .tupleDescriptor, data => do
      let atts ← TupleDescriptor.parse data
      .ok (.tupleDescriptor atts)
  | .tuple, data => do
      let atts ← Tuple.parse data
      .ok (.tuple atts)
  | .killInformation, data => do
      let two ← unpackTwo data
      .ok (.killInformation two.1 two.2)
  | .cancelRequest, data => do
      let two ← CancelRequest.parse data
      .ok (.cancelRequest two.1 two.2)
  | .negotiateSSL, data => do
      NegotiateSSL.parse data
      .ok .negotiateSSL
  | .startup, data => do
      let fields ← Startup.parse data
      .ok (.startup (withValues fields))
  | .authentication, data => do
      let parts ← Authentication.parse data
      .ok (.authentication parts.1 parts.2)
  | .string kind, data => do
      let text ← StringMessage.parse data
      .ok (.string kind text)
  | .parse, data => do
      let parts ← Parse.parse data
      .ok (.parse parts.1 parts.2.1 parts.2.2)
  | .bind, data => do
      let parts ← Bind.parse data
      .ok (.bind parts.1 parts.2.1 parts.2.2.1 parts.2.2.2.1 parts.2.2.2.2)
  | .execute, data => do
      let parts ← Execute.parse data
      .ok (.execute parts.1 parts.2)
  | .describe subtype, data => do
      let text ← Subtyped.parse subtype.letter .describeSubtype data
      .ok (.describe subtype text)
  | .close subtype, data => do
      let text ← Subtyped.parse subtype.letter .closeSubtype data
      .ok (.close subtype text)
  | .function, data => do
      let parts ← Function.parse data
      .ok (.function parts.1 parts.2.1 parts.2.2.1 parts.2.2.2)
  | .copyBegin direction, data => do
      let parts ← CopyBegin.parse data
      .ok (.copyBegin direction parts.1 parts.2)
  | .copyData, data => .ok (.copyData data)
  | .void, _ => .ok .void

-----------------------------------------------------------------------------------------
-- Round trips
-----------------------------------------------------------------------------------------

/-- Every parameter has a value, keys are distinct, and no text holds the byte that ends
texts.
-/
structure PlainFields (fields : List (Bytes × Option Bytes)) : Prop where
  values
    : ∀ field ∈ fields, ∃ value, field.2 = some value
  distinct
    : (fields.map Prod.fst).Nodup
  keys
    : ∀ field ∈ fields, nul ∉ field.1
  texts
    : ∀ field ∈ fields, ∀ value, field.2 = some value → nul ∉ value

/-- A format of two bytes for each argument, none of which is as long as NULL looks. -/
structure PlainArguments (aformats : List Bytes) (arguments : List (Option Bytes)) : Prop where
  wide
    : ∀ format ∈ aformats, format.length = 2
  paired
    : aformats.length = arguments.length
  sized
    : ∀ att ∈ arguments, Sized att

/-- What the data of an element must not hold to be told apart on the wire. -/
def Element.Plain : Element → Prop
  | .notify _ channel payload => nul ∉ channel ∧ nul ∉ payload
  | .showOption name value => nul ∉ name ∧ nul ∉ value
  | .complete data => data.getLast? ≠ some nul
  | .notice _ fields =>
      PlainFields fields ∧ ∀ field ∈ fields, ∃ letter, field.1 = [letter]
  | .tupleDescriptor atts => ∀ att ∈ atts, nul ∉ att.name
  | .tuple atts => ∀ att ∈ atts, Sized att
  | .startup fields => PlainFields fields
  | .parse name statement _ => nul ∉ name ∧ nul ∉ statement
  | .bind name statement aformats arguments rformats =>
      nul ∉ name ∧ nul ∉ statement ∧ PlainArguments aformats arguments
        ∧ ∀ format ∈ rformats, format.length = 2
  | .execute name _ => nul ∉ name
  | .function _ aformats arguments _ => PlainArguments aformats arguments
  | _ => True

/-- Fields that all have a value are those of a dict of texts. -/
theorem PlainFields.exists_withValues {fields : List (Bytes × Option Bytes)}
    (plain : PlainFields fields)
    : ∃ dict : Fields,
        withValues dict = fields ∧ (dict.map Prod.fst).Nodup
          ∧ ∀ field ∈ dict, nul ∉ field.1 ∧ nul ∉ field.2 := by
  refine ⟨fields.map (fun field => (field.1, field.2.getD [])), ?_, ?_, ?_⟩
  · rw [withValues, List.map_map]
    refine (List.map_congr_left (fun field member => ?_)).trans (List.map_id _)
    obtain ⟨value, given⟩ := plain.values field member
    exact Prod.ext rfl (by simp [given])
  · rw [List.map_map]
    exact plain.distinct
  · intro field member
    obtain ⟨source, listed, rfl⟩ := List.mem_map.mp member
    obtain ⟨value, given⟩ := plain.values source listed
    exact ⟨plain.keys source listed,
      by simpa [given] using plain.texts source listed value given⟩

/-- Whatever an element serializes to, its class parses into the same element. -/
theorem Element.Plain.parseData {element : Element} (plain : element.Plain) {data : Bytes}
    (wrote : element.serialize = some data)
    : element.cls.parseData data = .ok element := by
  cases element with
  | notify pid channel payload =>
      simp only [Element.cls, Class.parseData, Notify.parse_serialize plain.1 plain.2 wrote,
        ok_bind]
  | showOption name value =>
      obtain rfl := Option.some.inj wrote
      simp only [Element.cls, Class.parseData, ShowOption.parse_serialize plain.1 plain.2,
        ok_bind]
  | complete text =>
      obtain rfl := Option.some.inj wrote
      simp only [Element.cls, Class.parseData, Complete.parse_serialize plain]
  | empty kind =>
      obtain rfl := Option.some.inj wrote
      rfl
  | ready xactState =>
      obtain rfl := Option.some.inj wrote
      simp only [Element.cls, Class.parseData, XactState.ofBytes_bytes, ok_bind]
  | notice kind fields =>
      obtain ⟨dict, rfl, distinct, texts⟩ := plain.1.exists_withValues
      obtain rfl := Option.some.inj wrote
      have keys : ∀ field ∈ dict, ∃ letter, field.1 = [letter] :=
        fun field member =>
          plain.2 (field.1, some field.2) (List.mem_map.mpr ⟨field, member, rfl⟩)
      simp only [Element.cls, Class.parseData, withValues,
        Notice.parse_serialize keys texts distinct]
  | functionResult result =>
      simp only [Element.cls, Class.parseData, FunctionResult.parse_serialize wrote, ok_bind]
  | attributeTypes types =>
      simp only [Element.cls, Class.parseData, TypeOids.parse_serialize _ wrote, ok_bind]
  | tupleDescriptor atts =>
      simp only [Element.cls, Class.parseData, TupleDescriptor.parse_serialize plain wrote,
        ok_bind]
  | tuple atts =>
      simp only [Element.cls, Class.parseData, Tuple.parse_serialize plain wrote, ok_bind]
  | killInformation pid key =>
      simp only [Element.cls, Class.parseData, unpackTwo_pack wrote, ok_bind]
  | cancelRequest pid key =>
      simp only [Element.cls, Class.parseData, CancelRequest.parse_serialize wrote, ok_bind]
  | negotiateSSL =>
      obtain rfl := Option.some.inj wrote
      rfl
  | startup fields =>
      obtain ⟨dict, rfl, distinct, texts⟩ := plain.exists_withValues
      obtain rfl := Option.some.inj wrote
      simp only [Element.cls, Class.parseData, withValues,
        Startup.parse_serialize texts distinct, ok_bind]
  | authentication request salt =>
      simp only [Element.cls, Class.parseData, Authentication.parse_serialize wrote, ok_bind]
  | string kind text =>
      obtain rfl := Option.some.inj wrote
      simp only [Element.cls, Class.parseData, StringMessage.parse_serialize, ok_bind]
  | parse name statement argtypes =>
      simp only [Element.cls, Class.parseData, Parse.parse_serialize plain.1 plain.2 wrote,
        ok_bind]
  | bind name statement aformats arguments rformats =>
      obtain ⟨one, other, args, results⟩ := plain
      simp only [Element.cls, Class.parseData,
        Bind.parse_serialize one other args.wide results args.paired args.sized wrote, ok_bind]
  | execute name max =>
      simp only [Element.cls, Class.parseData, Execute.parse_serialize plain wrote, ok_bind]
  | describe subtype text =>
      obtain rfl := Option.some.inj wrote
      simp only [Element.cls, Class.parseData, Subtyped.parse_serialize, ok_bind]
  | close subtype text =>
      obtain rfl := Option.some.inj wrote
      simp only [Element.cls, Class.parseData, Subtyped.parse_serialize, ok_bind]
  | function oid aformats arguments rformat =>
      simp only [Element.cls, Class.parseData,
        Function.parse_serialize plain.wide plain.paired plain.sized wrote, ok_bind]
  | copyBegin direction format formats =>
      simp only [Element.cls, Class.parseData, CopyBegin.parse_serialize wrote, ok_bind]
  | copyData text =>
      obtain rfl := Option.some.inj wrote
      rfl
  | void => rfl

/-- On data that an element of the class writes, parsing and serializing are inverse. -/
theorem parseData_serialize {element writer : Element} (plain : element.Plain)
    (same : writer.cls = element.cls) (other : writer.Plain) {data : Bytes}
    (wrote : writer.serialize = some data)
    : element.cls.parseData data = .ok element ↔ element.serialize = some data := by
  have back := other.parseData wrote
  rw [same] at back
  constructor
  · intro parsed
    obtain rfl : writer = element := Except.ok.inj (back.symm.trans parsed)
    exact wrote
  · exact plain.parseData

/-- Binding a value and NULL to a statement. -/
theorem parseData_serialize_bind
    : Class.bind.parseData
          [0, 115, 0, 0, 2, 0, 1, 0, 1, 0, 2, 0, 0, 0, 1, 7, 255, 255, 255, 255, 0, 1, 0, 1]
        = .ok (.bind [] [115] [[0, 1], [0, 1]] [some [7], none] [[0, 1]]) := by
  have plain : (Element.bind [] [115] [[0, 1], [0, 1]] [some [7], none] [[0, 1]]).Plain := by
    refine ⟨by decide, by decide, ⟨by decide, rfl, ?_⟩, by decide⟩
    simp [Sized]
  have wrote : (Element.bind [] [115] [[0, 1], [0, 1]] [some [7], none] [[0, 1]]).serialize
      = some
          [0, 115, 0, 0, 2, 0, 1, 0, 1, 0, 2, 0, 0, 0, 1, 7, 255, 255, 255, 255, 0, 1, 0, 1] := by
    decide
  exact (parseData_serialize plain rfl plain wrote).mpr wrote

-----------------------------------------------------------------------------------------
-- Elements on the wire
-----------------------------------------------------------------------------------------

/-- The bytes of most classes. Some have no type, their messages begin with the length. -/
def Element.message (element : Element) : Option Bytes := do
  let data ← element.serialize
  let size ← ulongPack (data.length + 4)
  some (element.cls.typ ++ (size ++ data))

/-- Void has no bytes at all. -/
def Element.bytes (element : Element) : Option Bytes :=
  if element = .void then some [] else element.message

theorem Element.bytes_of_ne {element : Element} (other : element ≠ .void)
    : element.bytes = element.message :=
  if_neg other

/-- What cat_messages is given: `bytes` for COPY data, a `tuple` for a row, or an element. -/
inductive Outgoing where
  | copy (data : Bytes)
  | tuple (atts : List (Option Bytes))
  | element (element : Element)

namespace Outgoing

/-- The element that is put on the wire. -/
def toElement : Outgoing → Element
  | .copy data => .copyData data
  | .tuple atts => .tuple atts
  | .element other => other

/-- One item of cat_messages. The sizes of data and rows are packed with a sign. -/
def bytes : Outgoing → Option Bytes
  | .copy data => do
      let size ← BigEndian.packInt 4 (data.length + 4 : Nat)
      some (char 'd' :: (size ++ data))
  | .tuple atts => do
      let parts ← atts.mapM packAttribute
      let size ← BigEndian.packInt 4 (parts.flatten.length + 6 : Nat)
      let count ← ushortPack atts.length
      some (char 'D' :: (size ++ count ++ parts.flatten))
  | .element other => other.bytes

/-- What is written is the message of the element. -/
theorem toElement_bytes {outgoing : Outgoing} {data : Bytes}
    (wrote : outgoing.bytes = some data)
    : outgoing.toElement.bytes = some data := by
  cases outgoing with
  | copy text =>
      simp only [bytes, Option.bind_eq_bind, Option.bind_eq_some_iff, Option.some.injEq]
        at wrote
      obtain ⟨size, packed, rfl⟩ := wrote
      have plain : ulongPack (text.length + 4) = some size := BigEndian.pack_of_packInt packed
      have typed : Element.copyData text ≠ .void := by simp
      rw [toElement, Element.bytes_of_ne typed]
      simp only [Element.message, Element.serialize, Option.bind_eq_bind, Option.bind_some,
        plain]
      rfl
  | tuple atts =>
      simp only [bytes, Option.bind_eq_bind, Option.bind_eq_some_iff, Option.some.injEq]
        at wrote
      obtain ⟨parts, each, size, packed, count, counted, rfl⟩ := wrote
      have plain := BigEndian.pack_of_packInt packed
      have serialized : Tuple.serialize atts = some (count ++ parts.flatten) := by
        simp only [Tuple.serialize, packTupleData, each, counted, Option.bind_eq_bind,
          Option.bind_some]
      have length : (count ++ parts.flatten).length + 4 = parts.flatten.length + 6 := by
        rw [List.length_append, BigEndian.length_of_pack counted]
        omega
      have sized : ulongPack ((count ++ parts.flatten).length + 4) = some size := by
        rw [length]
        exact plain
      have typed : Element.tuple atts ≠ .void := by simp
      rw [toElement, Element.bytes_of_ne typed]
      simp only [Element.message, Element.serialize, serialized, Option.bind_eq_bind,
        Option.bind_some, sized]
      rw [List.append_assoc]
      rfl
  | element other => exact wrote

end Outgoing

def catMessages (messages : List Outgoing) : Option Bytes := do
  let parts ← messages.mapM Outgoing.bytes
  some parts.flatten

/-- A message that the given element parses from. -/
def Carries (message : Message) (element : Element) : Prop :=
  element.cls.typ = [message.typ] ∧ element.cls.parseData message.body = .ok element

/-- A typed element is one message of the stream. -/
theorem exists_message {element : Element} (plain : element.Plain)
    (typed : element.cls.typ ≠ []) {data : Bytes} (wrote : element.bytes = some data)
    : ∃ message, Carries message element ∧ message.Fits ∧ message.bytes = data := by
  have other : element ≠ .void := by
    rintro rfl
    exact typed rfl
  rw [Element.bytes_of_ne other] at wrote
  simp only [Element.message, Option.bind_eq_bind, Option.bind_eq_some_iff,
    Option.some.injEq] at wrote
  obtain ⟨body, serialized, size, packed, rfl⟩ := wrote
  obtain ⟨letter, typ⟩ : ∃ letter, element.cls.typ = [letter] := by
    cases class_ : element.cls with
    | empty kind => cases kind <;> exact ⟨_, rfl⟩
    | string kind => cases kind <;> exact ⟨_, rfl⟩
    | notice kind => cases kind <;> exact ⟨_, rfl⟩
    | copyBegin direction => cases direction <;> exact ⟨_, rfl⟩
    | cancelRequest => rw [class_] at typed; exact absurd rfl typed
    | negotiateSSL => rw [class_] at typed; exact absurd rfl typed
    | startup => rw [class_] at typed; exact absurd rfl typed
    | void => rw [class_] at typed; exact absurd rfl typed
    | _ => exact ⟨_, rfl⟩
  obtain ⟨fits, rfl⟩ := BigEndian.pack_eq_some packed
  refine ⟨⟨letter, body⟩, ⟨typ, plain.parseData serialized⟩, fits, ?_⟩
  rw [typ]
  rfl

/-- The messages of what cat_messages writes, by induction on what it is given. -/
theorem exists_messages {outgoing : List Outgoing}
    (plain : ∀ item ∈ outgoing, item.toElement.Plain)
    (typed : ∀ item ∈ outgoing, item.toElement.cls.typ ≠ []) {data : Bytes}
    (wrote : catMessages outgoing = some data)
    : ∃ messages : List Message,
        List.Forall₂ Carries messages (outgoing.map Outgoing.toElement)
          ∧ (∀ message ∈ messages, message.Fits)
          ∧ data = messages.flatMap Message.bytes := by
  simp only [catMessages, Option.bind_eq_bind, Option.bind_eq_some_iff, Option.some.injEq]
    at wrote
  obtain ⟨parts, each, rfl⟩ := wrote
  induction outgoing generalizing parts with
  | nil =>
      obtain rfl : parts = [] := by simpa using each.symm
      exact ⟨[], List.Forall₂.nil, by simp, rfl⟩
  | cons item rest ih =>
      simp only [List.mapM_cons, Option.bind_eq_bind, Option.bind_eq_some_iff,
        Option.pure_def, Option.some.injEq] at each
      obtain ⟨first, wrote, others, later, rfl⟩ := each
      obtain ⟨message, carries, fits, rfl⟩ := exists_message
        (plain item List.mem_cons_self) (typed item List.mem_cons_self)
        (Outgoing.toElement_bytes wrote)
      obtain ⟨messages, carry, fit, same⟩ := ih
        (fun other member => plain other (List.mem_cons_of_mem _ member))
        (fun other member => typed other (List.mem_cons_of_mem _ member)) others later
      refine ⟨message :: messages, List.Forall₂.cons carries carry, ?_, ?_⟩
      · intro other member
        rcases List.mem_cons.mp member with rfl | member
        · exact fits
        · exact fit other member
      · rw [List.flatten_cons, List.flatMap_cons, same]

/-- No message is without bytes, by induction on them. -/
theorem length_le_flatMap_bytes (messages : List Message)
    : messages.length ≤ (messages.flatMap Message.bytes).length := by
  induction messages with
  | nil => exact Nat.le_refl _
  | cons message rest ih =>
      rw [List.flatMap_cons, List.length_append, List.length_cons, Message.bytes,
        List.cons_append, List.length_cons]
      omega

theorem drain_flatMap_bytes {messages : List Message}
    (fits : ∀ message ∈ messages, message.Fits)
    : framing.drain (messages.flatMap Message.bytes) = ⟨messages, [], none⟩ := by
  have reads : ∀ message ∈ messages, ∀ more,
      framing.read (Message.bytes message ++ more) = .message message more :=
    fun message member more => readMessage_bytes (fits message member) more
  have encoded := Framing.drain_encoded framing reads []
  rw [List.append_nil] at encoded
  rw [encoded, drain_nil, List.append_nil]

/-- Whatever the pieces in which the written bytes arrive, and whatever is asked of the
buffer in between, it hands out the elements that were sent, each once and in order: no
others so far, and all of them when everything has arrived and is read.
-/
theorem delivered_catMessages {outgoing : List Outgoing}
    (plain : ∀ item ∈ outgoing, item.toElement.Plain)
    (typed : ∀ item ∈ outgoing, item.toElement.cls.typ ≠ []) {data : Bytes}
    (wrote : catMessages outgoing = some data) {calls : List (StreamCall UInt8)}
    (keep : .truncate ∉ calls) (received : calls.flatMap StreamCall.written <+: data)
    : (∃ expected,
          List.Forall₂ Carries
            ((pqMessageStream.replies pqMessageStream.start calls).flatMap
                StreamReply.delivered
              ++ expected)
            (outgoing.map Outgoing.toElement))
        ∧ (calls.flatMap StreamCall.written = data
          → data.length < PqMessageStream.numDefault
          → List.Forall₂ Carries
              ((pqMessageStream.replies pqMessageStream.start (calls ++ [.read none])).flatMap
                StreamReply.delivered)
              (outgoing.map Outgoing.toElement)) := by
  obtain ⟨messages, carry, fits, rfl⟩ := exists_messages plain typed wrote
  have all := drain_flatMap_bytes fits
  have held := Framing.drain_written framing PqMessageStream.numDefault keep []
  rw [List.nil_append] at held
  rw [start_holds.replies, start_holds.replies]
  constructor
  · obtain ⟨more, whole⟩ := received
    rw [← whole, Framing.drain_append, held] at all
    have parts := congrArg Taken.messages all
    dsimp only at parts
    rw [List.append_assoc] at parts
    rw [← parts] at carry
    exact ⟨_, carry⟩
  · intro whole small
    rw [whole, all] at held
    have delivered := congrArg Taken.messages held
    have valid := congrArg Taken.error held
    dsimp only at delivered valid
    have count := length_le_flatMap_bytes messages
    have enough
        : (framing.drain
            ((framing.stream PqMessageStream.numDefault).after [] calls)).messages.length
          ≤ PqMessageStream.numDefault := by
      have counted := congrArg List.length delivered
      rw [List.length_append] at counted
      omega
    have last
        : ((framing.stream PqMessageStream.numDefault).answer
              ((framing.stream PqMessageStream.numDefault).after [] calls)
              (.read none)).2
          = .messages (framing.drain
              ((framing.stream PqMessageStream.numDefault).after [] calls)).messages := by
      rw [Framing.stream_read, Option.getD_none, Framing.take_of_count valid.symm enough,
        Framing.popAll, ← valid]
    rw [Object.replies_append, List.flatMap_append, Object.replies_cons, last]
    simp only [Object.replies_nil, List.flatMap_cons, List.flatMap_nil, List.append_nil,
      StreamReply.delivered]
    rw [← delivered]
    exact carry

/-- COPY data and a row that arrive in two pieces, cut inside the first header. -/
theorem delivered_catMessages_pieces
    : List.Forall₂ Carries
        ((pqMessageStream.replies pqMessageStream.start
            ([.write [100, 0, 0], .hasMessage,
              .write [0, 5, 7, 68, 0, 0, 0, 10, 0, 1, 255, 255, 255, 255], .nextMessage]
              ++ [.read none])).flatMap StreamReply.delivered)
        [.copyData [7], .tuple [none]] := by
  have plain : ∀ item ∈ [Outgoing.copy [7], Outgoing.tuple [none]], item.toElement.Plain := by
    simp [Outgoing.toElement, Element.Plain, Sized]
  have typed : ∀ item ∈ [Outgoing.copy [7], Outgoing.tuple [none]],
      item.toElement.cls.typ ≠ [] := by
    simp [Outgoing.toElement, Element.cls, Class.typ]
  have wrote : catMessages [.copy [7], .tuple [none]]
      = some [100, 0, 0, 0, 5, 7, 68, 0, 0, 0, 10, 0, 1, 255, 255, 255, 255] := by
    decide
  exact (delivered_catMessages plain typed wrote (by simp) (List.prefix_refl _)).2 rfl
    (by decide)

end PgCluster.Postgresql
