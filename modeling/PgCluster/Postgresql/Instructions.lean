import PgCluster.Postgresql.OptimizedElements

/-! The state machine of request messages and their responses, and the client that drives
it: batches of received messages, the fast paths for rows and COPY data, and both builds of
the extension.
-/

namespace PgCluster.Postgresql

open Foundation

-----------------------------------------------------------------------------------------
-- Paths
-----------------------------------------------------------------------------------------

/-- With or without the C functions of `port.optimized`. -/
inductive Build where
  | plain
  | optimized
deriving DecidableEq

/-- What a processed message becomes. -/
inductive Parsed where
  | element (element : Element)
  | data (data : Bytes)
  | tuple (atts : List (Option Bytes))
deriving DecidableEq

inductive PutError where
  | element (error : ElementError)
  | tuple (error : TupleError)
  | keyError
  | indexError
  | typeError

/-- The callable of a path. -/
inductive Parser where
  | parse (cls : Class)
  | returnArg
  | tuple
deriving DecidableEq

/-- `Tuple.parse`, which is replaced by the one of the extension. -/
def Build.parseTuple : Build → Bytes → Except PutError (List (Option Bytes))
  | .plain, data => (Tuple.parse data).mapError .element
  | .optimized, data => (parseTupleMessage data).mapError .tuple

def Parser.call (build : Build) : Parser → Bytes → Except PutError Parsed
  | .parse cls, data => ((cls.parseData data).map .element).mapError .element
  | .returnArg, data => .ok (.data data)
  | .tuple, data => (build.parseTuple data).map .tuple

/-- The entry of a message type: the callable and the next step, `none` where the message
completes the command.
-/
structure Path where
  typ : UInt8
  call : Parser
  next : Option Nat
deriving DecidableEq

/-- The path of a class. -/
def Class.path (cls : Class) (next : Option Nat) : Path := ⟨cls.typ.headD 0, .parse cls, next⟩

def tuplePath (next : Nat) : Path := ⟨char 'D', .tuple, some next⟩

def copyDataPath (next : Nat) : Path := ⟨char 'd', .returnArg, some next⟩

/-- The types of the messages that are sent. -/
inductive Request where
  | query
  | function
  | parse
  | bind
  | describe
  | close
  | execute
  | synchronize
  | flush
deriving DecidableEq

namespace Request

def all : List Request :=
  [.query, .function, .parse, .bind, .describe, .close, .execute, .synchronize, .flush]

def typ : Request → UInt8
  | .query => char 'Q'
  | .function => char 'F'
  | .parse => char 'P'
  | .bind => char 'B'
  | .describe => char 'D'
  | .close => char 'C'
  | .execute => char 'E'
  | .synchronize => char 'S'
  | .flush => char 'H'

/-- The steps of a command. Nothing answers Flush. -/
def hook : Request → Option (List (List Path))
  | .query =>
      some
        [[Class.tupleDescriptor.path (some 3),
          (Class.empty .null).path (some 0),
          Class.complete.path (some 0),
          (Class.copyBegin .to).path (some 2),
          (Class.copyBegin .from).path (some 1),
          Class.ready.path none],
         [Class.complete.path (some 0)],
         [copyDataPath 2,
          (Class.empty .copyDone).path (some 1)],
         [tuplePath 3,
          Class.complete.path (some 0),
          Class.ready.path none]]
  | .function =>
      some
        [[Class.functionResult.path (some 1)],
         [Class.ready.path none]]
  | .parse => some [[(Class.empty .parseComplete).path none]]
  | .bind => some [[(Class.empty .bindComplete).path none]]
  | .describe =>
      some
        [[Class.attributeTypes.path (some 1),
          Class.tupleDescriptor.path none],
         [(Class.empty .noData).path none,
          Class.tupleDescriptor.path none]]
  | .close => some [[(Class.empty .closeComplete).path none]]
  | .execute =>
      some
        [[tuplePath 1,
          (Class.copyBegin .to).path (some 2),
          (Class.copyBegin .from).path (some 3),
          (Class.empty .null).path none,
          Class.complete.path none],
         [tuplePath 1,
          (Class.empty .suspension).path none,
          Class.complete.path none],
         [copyDataPath 2,
          (Class.empty .copyDone).path (some 3)],
         [Class.complete.path none]]
  | .synchronize => some [[Class.ready.path none]]
  | .flush => none

end Request

/-- `SWITCH_TYPES`. -/
def switchTypes : List Request := [.execute, .query]

/-- A message with a type that `hook` knows. -/
structure Command where
  element : Element
  request : Request
  typed : element.cls.typ = [request.typ]

namespace Command

/-- None where `__init__` raises a `TypeError`. -/
def of (element : Element) : Option Command :=
  match found : Request.all.find? (fun request => element.cls.typ = [request.typ]) with
  | none => none
  | some request => some ⟨element, request, by simpa using List.find?_some found⟩

/-- The message is the one object `SynchronizeMessage`. -/
def IsSynchronize (command : Command) : Prop := command.element = .empty .synchronize

instance (command : Command) : Decidable command.IsSynchronize :=
  inferInstanceAs (Decidable (_ = _))

end Command

/-- `AsynchronousMap`. -/
def asynchronousMap (typ : UInt8) : Option Class :=
  [Class.notice .notice, Class.notify, Class.showOption].find?
    (fun cls => cls.typ = [typ])

-----------------------------------------------------------------------------------------
-- The transaction
-----------------------------------------------------------------------------------------

/-- Where a transaction stands: the command and its step. -/
structure Position where
  offset : Nat
  step : Nat
deriving DecidableEq

inductive PutMethod where
  | standardPut
  | putCopydata
  | putTupledata
deriving DecidableEq

inductive SentMethod where
  | standardSent
  | sentFromStdin
deriving DecidableEq

inductive State where
  | sending (op : SentMethod)
  | receiving (op : PutMethod)
  | complete
deriving DecidableEq

inductive ErrorMessage where
  /-- An Error of the server. -/
  | server (fields : Fields)
  /-- The `ClientError` about a message without a path. -/
  | unexpected (expected : List UInt8) (received : UInt8)
  /-- `client_detected_protocol_error`. -/
  | protocolError

/-- The `messages` attribute. The two sequences of COPY are compared by identity. -/
inductive Messages where
  | none
  | commands (commands : List Command)
  | copyFailSequence
  | copyDoneSequence
  | lines (data : List Bytes)

/-- What messages of any kind leave behind: the record of asynchronous messages, those
given to `asynchook`, and the attributes that the other transactions have as well.
-/
structure Notes where
  asyncs : List Message := []
  notified : List Element := []
  fatal : Option Bool := none
  errorMessage : Option ErrorMessage := none
  lastReady : Option XactState := none

/-- A list object of received messages. -/
structure Batch where
  id : Nat
  messages : List Message

structure Instruction where
  commands : List Command
  /-- By the identity of the batch. -/
  completed : List (Nat × List Parsed)
  /-- The first component of `last`: the identity of the last batch. -/
  lastBatch : Option Nat
  /-- The other two: the position before that batch and behind it. -/
  before : Position
  after : Position
  state : State
  messages : Messages
  /-- The commands behind the one that started a COPY from the client. -/
  copySequence : List Command
  notes : Notes
  /-- The exception that the client has caught. -/
  exception : Option PutError

namespace Instruction

def init (commands : List Command) : Instruction where
  commands := commands
  completed := []
  lastBatch := none
  before := ⟨0, 0⟩
  after := ⟨0, 0⟩
  state := .sending .standardSent
  messages := .commands commands
  copySequence := []
  notes := {}
  exception := none

def messagesReceived (x : Instruction) : List Parsed := x.completed.flatMap Prod.snd

end Instruction

-----------------------------------------------------------------------------------------
-- One message
-----------------------------------------------------------------------------------------

/-- The variables of the loop in `standard_put`. -/
structure Walk where
  position : Position
  processed : List Parsed
  notes : Notes

/-- How one message ends: the loop goes on, the last command is completed, the transaction
is ended early, or an exception is raised.
-/
inductive Turn where
  | next (walk : Walk)
  | finished (walk : Walk)
  | closed (walk : Walk)
  | raised (error : PutError)

/-- Past the commands whose hook is None. -/
def nextOffset (commands : List Command) (offset : Nat) : Nat :=
  offset + 1
    + ((commands.drop (offset + 1)).takeWhile
        (fun command => command.request.hook.isNone)).length

/-- The offset of the synchronization from the given one on. -/
def syncOffset (commands : List Command) (offset : Nat) : Option Nat :=
  ((commands.drop offset).findIdx? (fun command => decide command.IsSynchronize)).map
    (offset + ·)

/-- `em[b'S'].upper() != b'ERROR'`, None for the `KeyError`. -/
def isFatal (fields : Fields) : Option Bool :=
  (fields.lookup [char 'S']).map
    (fun severity =>
      severity.map (fun byte => if char 'a' ≤ byte ∧ byte ≤ char 'z' then byte - 32 else byte)
        ≠ [char 'E', char 'R', char 'R', char 'O', char 'R'])

/-- An Error without a path. -/
def errorTurn (commands : List Command) (command : Command) (walk : Walk) (body : Bytes)
    : Turn :=
  let em := Notice.parse body
  match isFatal em with
  | none => .raised .keyError
  | some fatal =>
      let walk :=
        { walk with notes :=
            { walk.notes with fatal := some fatal, errorMessage := some (.server em) } }
      if fatal then .closed walk
      else if command.request = .function ∨ command.request = .query then
        .next { walk with position := ⟨walk.position.offset, 0⟩ }
      else
        match syncOffset commands walk.position.offset with
        | none => .closed walk
        | some offset => .next { walk with position := ⟨offset, 0⟩ }

/-- An asynchronous message, which is given to `asynchook` once. -/
def asyncTurn (walk : Walk) (cls : Class) (x : Message) : Turn :=
  if x ∈ walk.notes.asyncs then .next walk
  else
    match cls.parseData x.body with
    | .error error => .raised (.element error)
    | .ok msg =>
        .next { walk with notes :=
          { walk.notes with
            asyncs := walk.notes.asyncs ++ [x]
            notified := walk.notes.notified ++ [msg] } }

/-- The `last_ready` that a completing message leaves. -/
def readyOf (r : Parsed) (before : Option XactState) : Option XactState :=
  match r with
  | .element (.ready xactState) => some xactState
  | _ => before

/-- A message with a path has been parsed. -/
def pathTurn (commands : List Command) (walk : Walk) (r : Parsed) : Option Nat → Turn
  | some step =>
      .next { walk with
        position := ⟨walk.position.offset, step⟩
        processed := walk.processed ++ [r] }
  | none =>
      let offset := nextOffset commands walk.position.offset
      let walk : Walk :=
        { position := ⟨offset, 0⟩
          processed := walk.processed ++ [r]
          notes := { walk.notes with lastReady := readyOf r walk.notes.lastReady } }
      if offset = commands.length then .finished walk else .next walk

/-- The body of the loop in `standard_put`. -/
def turn (build : Build) (commands : List Command) (walk : Walk) (x : Message) : Turn :=
  match commands[walk.position.offset]? with
  | none => .raised .indexError
  | some command =>
      match command.request.hook with
      | none => .raised .typeError
      | some steps =>
          match steps[walk.position.step]? with
          | none => .raised .indexError
          | some paths =>
              match paths.find? (fun path => path.typ = x.typ) with
              | some path =>
                  match path.call.call build x.body with
                  | .error error => .raised error
                  | .ok r => pathTurn commands walk r path.next
              | none =>
                  if x.typ = char 'E' then errorTurn commands command walk x.body
                  else
                    match asynchronousMap x.typ with
                    | some cls => asyncTurn walk cls x
                    | none =>
                        .closed { walk with notes :=
                          { walk.notes with
                            fatal := some true
                            errorMessage := some (.unexpected (paths.map Path.typ) x.typ) } }

inductive Ending where
  | through
  | finished
  | closed
  | raised (error : PutError)

/-- The loop of `standard_put`: how it ends, its variables and `count`. -/
structure Looped where
  ending : Ending
  walk : Walk
  count : Nat

def loop (build : Build) (commands : List Command) (walk : Walk) : List Message → Looped
  | [] => ⟨.through, walk, 0⟩
  | x :: rest =>
      match turn build commands walk x with
      | .next walk =>
          let later := loop build commands walk rest
          { later with count := later.count + 1 }
      | .finished walk => ⟨.finished, walk, 1⟩
      | .closed walk => ⟨.closed, walk, 1⟩
      | .raised error => ⟨.raised error, walk, 1⟩

-----------------------------------------------------------------------------------------
-- Batches
-----------------------------------------------------------------------------------------

abbrev PutResult := Instruction × Except PutError Nat

namespace Instruction

/-- `self.completed.append` unless the batch is there already. -/
def complete (x : Instruction) (batch : Batch) (processed : List Parsed)
    : List (Nat × List Parsed) :=
  if x.completed.getLast?.map Prod.fst = some batch.id then x.completed
  else x.completed ++ [(batch.id, processed)]

/-- The state that the last processed message asks for. -/
def switched (x : Instruction) (command : Command) (offset : Nat) (last : Parsed)
    : Instruction :=
  if command.request ∈ switchTypes then
    match last with
    | .data _ => { x with state := .receiving .putCopydata }
    | .tuple _ => { x with state := .receiving .putTupledata }
    | .element (.copyBegin .from _ _) =>
        { x with
          copySequence := x.commands.drop (offset + 1)
          state := .sending .sentFromStdin }
    | .element (.copyBegin .to _ _) => { x with state := .receiving .putCopydata }
    | .element _ => x
  else x

/-- What follows the loop of `standard_put`. -/
def settle (x : Instruction) (batch : Batch) (walk : Walk) : Instruction :=
  let x :=
    { x with
      completed := x.complete batch walk.processed
      lastBatch := some batch.id
      before := x.after
      after := walk.position
      notes := walk.notes }
  if walk.position.offset = x.commands.length then { x with state := .complete }
  else
    match x.commands[walk.position.offset]?, walk.processed.getLast? with
    | some command, some last => x.switched command walk.position.offset last
    | _, _ => x

/-- The position from which the batch is put, once more if it is the last one. -/
def startOf (x : Instruction) (batch : Batch) : Position :=
  if x.lastBatch = some batch.id then x.before else x.after

/-- The record of asynchronous messages is cleared for another batch. -/
def notesOf (x : Instruction) (batch : Batch) : Notes :=
  if x.lastBatch = some batch.id then x.notes else { x.notes with asyncs := [] }

def standardPut (build : Build) (x : Instruction) (batch : Batch) : PutResult :=
  let walk : Walk := ⟨x.startOf batch, [], x.notesOf batch⟩
  if x.commands[walk.position.offset]?.isNone then
    ({ x with notes := walk.notes }, .error .indexError)
  else
    let looped := loop build x.commands walk batch.messages
    match looped.ending with
    | .through | .finished => (x.settle batch looped.walk, .ok looped.count)
    | .closed => ({ x with notes := looped.walk.notes, state := .complete }, .ok looped.count)
    | .raised error => ({ x with notes := looped.walk.notes }, .error error)

/-- A fast path hands the batch back. -/
def fallBack (build : Build) (x : Instruction) (batch : Batch) : PutResult :=
  standardPut build { x with state := .receiving .standardPut } batch

/-- A fast path has taken the messages, without a new step. -/
def record (x : Instruction) (batch : Batch) (processed : List Parsed) : PutResult :=
  ({ x with
      completed := x.complete batch processed
      lastBatch := some batch.id
      before := x.after },
    .ok processed.length)

def putCopydata (build : Build) (x : Instruction) (batch : Batch) : PutResult :=
  match batch.messages.getLast? with
  | none => (x, .error .indexError)
  | some last =>
      let lines := batch.messages.filter (fun message => message.typ = char 'd')
      if last.typ ≠ char 'd' ∨ lines.length ≠ batch.messages.length then x.fallBack build batch
      else x.record batch (lines.map (fun message => .data message.body))

/-- `consume_tuple_messages`. -/
def consumeTupleMessages (messages : List Message) : Except PutError (List Parsed) :=
  (messages.takeWhile (fun message => message.typ = char 'D')).mapM
    (fun message => (Build.optimized.parseTuple message.body).map .tuple)

def putTupledata (build : Build) (x : Instruction) (batch : Batch) : PutResult :=
  match build with
  | .optimized =>
      match consumeTupleMessages batch.messages with
      | .error error => (x, .error error)
      | .ok [] => x.fallBack build batch
      | .ok tuplemessages => x.record batch tuplemessages
  | .plain =>
      match batch.messages.getLast? with
      | none => (x, .error .indexError)
      | some last =>
          if last.typ ≠ char 'D' then x.fallBack build batch
          else
            match (batch.messages.filter (fun message => message.typ = char 'D')).mapM
              (fun message => (build.parseTuple message.body).map Parsed.tuple) with
            | .error error => (x, .error error)
            | .ok tuplemessages =>
                if tuplemessages.length ≠ batch.messages.length then x.fallBack build batch
                else x.record batch tuplemessages

/-- The operation of a receiving state. -/
def put (build : Build) (op : PutMethod) (x : Instruction) (batch : Batch) : PutResult :=
  match op with
  | .standardPut => x.standardPut build batch
  | .putCopydata => x.putCopydata build batch
  | .putTupledata => x.putTupledata build batch

/-- The operation of a sending state. -/
def sent (op : SentMethod) (x : Instruction) : Instruction :=
  let received := { x with messages := .none, state := .receiving .standardPut }
  match op, x.messages with
  | .standardSent, _ => received
  | .sentFromStdin, .copyDoneSequence | .sentFromStdin, .copyFailSequence => received
  | .sentFromStdin, _ => { x with messages := .copyFailSequence }

/-- What the `messages` attribute puts on the wire. -/
def outgoing (x : Instruction) : List Outgoing :=
  let elements := fun commands => (commands : List Command).map (Outgoing.element ·.element)
  match x.messages with
  | .none => []
  | .commands commands => elements commands
  | .copyFailSequence =>
      .element (.string .copyFail "invalid termination".toUTF8.toList)
        :: elements x.copySequence
  | .copyDoneSequence => .element (.empty .copyDone) :: elements x.copySequence
  | .lines data => data.map .copy

end Instruction

-----------------------------------------------------------------------------------------
-- The client
-----------------------------------------------------------------------------------------

/-- The client with its current transaction: the received messages that wait in `read`, and
what was written. List objects get new identities.
-/
structure Client where
  xact : Instruction
  read : List Message
  written : List Outgoing
  fresh : Nat

/-- The inputs of a client: the lists that the buffer hands out. -/
abbrev Arrivals := List (List Message)

namespace Client

def start (xact : Instruction) : Client := ⟨xact, [], [], 0⟩

/-- An exception in the transaction. -/
def failed (client : Client) (xact : Instruction) (error : PutError) : Client :=
  { client with
    xact :=
      { xact with
        state := .complete
        exception := some error
        notes :=
          { xact.notes with fatal := some true, errorMessage := some .protocolError } } }

/-- `self.read = self.read[x.state[1](self.read):]`. -/
def receive (build : Build) (client : Client) (op : PutMethod) : Client :=
  match client.xact.put build op ⟨client.fresh, client.read⟩ with
  | (xact, .ok count) =>
      { client with xact := xact, read := client.read.drop count, fresh := client.fresh + 1 }
  | (xact, .error error) => client.failed xact error

def send (client : Client) (op : SentMethod) : Client :=
  { client with
    xact := client.xact.sent op
    written := client.written ++ client.xact.outgoing }

/-- `complete`: transitions until the transaction is complete, or until nothing more has
arrived. Messages are only read when `read` is empty.
-/
def complete (build : Build) : Nat → Client → Arrivals → Client × Arrivals
  | 0, client, arrivals => (client, arrivals)
  | fuel + 1, client, arrivals =>
      match client.xact.state, client.read, arrivals with
      | .complete, _, _ => (client, arrivals)
      | .sending op, _, _ => complete build fuel (client.send op) arrivals
      | .receiving _, [], [] => (client, [])
      | .receiving _, [], chunk :: rest =>
          complete build fuel { client with read := chunk } rest
      | .receiving op, _ :: _, _ => complete build fuel (client.receive build op) arrivals

end Client

end PgCluster.Postgresql
