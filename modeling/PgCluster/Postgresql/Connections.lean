import PgCluster.Postgresql.OptimizedBuffer
import PgCluster.Postgresql.OptimizedElements
import PgCluster.Postgresql.Transactions

/-! The connection that drives a transaction over a socket, which takes and gives the bytes
in pieces and may fail or ask to be tried again at any time.
-/

namespace PgCluster.Postgresql

open Foundation

-----------------------------------------------------------------------------------------
-- Sockets
-----------------------------------------------------------------------------------------

inductive Errno where
  | eagain
  | eintr
  | ewouldblock
  | etimedout
  | other (code : Nat)
deriving DecidableEq

/-- A `socket.error` with its attributes. -/
structure SocketError where
  errno : Option Errno
  strerror : Option String
deriving DecidableEq

namespace SocketFactory

def tryAgain (err : SocketError) : Bool :=
  match err.errno with
  | none => false
  | some errno => errno ∈ [Errno.eagain, .eintr, .ewouldblock, .etimedout]

def fatalExceptionMessage (err : SocketError) : Option String :=
  if tryAgain err then none else err.strerror

end SocketFactory

/-- What a call of the socket raises. No handler takes an interrupt. -/
inductive Raised where
  | error (error : SocketError)
  | interrupt
deriving DecidableEq

/-- What `recv` does; without bytes it has met the end of the stream. -/
inductive Recv where
  | data (data : Bytes)
  | raises (raised : Raised)

/-- What `send` does with what it is given: it takes at most so many bytes. -/
inductive Send where
  | took (count : Nat)
  | raises (raised : Raised)

/-- A socket by what it is going to do, and the bytes that it has taken. -/
structure Socket where
  recvs : List Recv
  sends : List Send
  sent : Bytes

-----------------------------------------------------------------------------------------
-- The connection
-----------------------------------------------------------------------------------------

/-- What the connection uses of the Python modules or of the extension. -/
structure Port (Buffer : Type) where
  buffer : Object Buffer (StreamCall UInt8) (StreamReply UInt8 Message BufferError)
  catMessages : List Outgoing → Option Bytes

/-- A `messages` object with its identity. -/
structure Sequence where
  id : Nat
  messages : List Outgoing

/-- The failures that the connection notes on its transaction, which it ends. -/
inductive Failure (Error : Type) where
  /-- `eof_error`. -/
  | eof
  /-- The error of a call of the socket, with its message. -/
  | socket (error : SocketError) (message : String)
  /-- `client_detected_protocol_error`, with the exception of the transaction, of the buffer
  or of `cat_messages`.
  -/
  | put (error : Error)
  | buffer (error : BufferError)
  | catMessages

/-- The attributes of a connection and its transaction `x`. -/
structure Connection (Buffer Xact Error : Type) where
  x : Xact
  /-- What the connection has set on `x`: `state`, `fatal`, `error_message`, `exception`. -/
  failure : Option (Failure Error)
  /-- The identity of `x.messages`. Each operation of a sending state sets another object;
  two empty tuples are one object, but nothing is sent for them.
  -/
  object : Nat
  /-- The identity of the next list of received messages. -/
  fresh : Nat
  /-- `xact` is not None. -/
  busy : Bool
  messageBuffer : Buffer
  read : List Message
  readData : Option Bytes
  messageData : Bytes
  writing : Option Sequence
  written : Option Sequence
  state : SessionState

/-- How a part of a loop ends. -/
inductive Progress (Error : Type) where
  | going
  | returned (result : Bool)
  | failed (failure : Failure Error)
  | raised (raised : Raised)
  | blocked

/-- How `complete` ends. -/
inductive Stop where
  | running
  | completed
  | failed
  | raised (raised : Raised)
  /-- A call of the socket does not come back. -/
  | blocked
deriving DecidableEq

section Operations

variable {Buffer Xact Error : Type} (port : Port Buffer)
  (transaction : Transaction Xact Error)

/-- What a part of a loop leaves. -/
abbrev Passed (Buffer Xact Error : Type) :=
  Connection Buffer Xact Error × Socket × Progress Error

namespace Connection

/-- A new connection, which is about to complete its first transaction. -/
def init (x : Xact) : Connection Buffer Xact Error where
  x := x
  failure := none
  object := 0
  fresh := 0
  busy := true
  messageBuffer := port.buffer.start
  read := []
  readData := none
  messageData := []
  writing := none
  written := none
  state := .initialized

def phase (conn : Connection Buffer Xact Error) : Phase :=
  if conn.failure.isSome then .complete else transaction.phase conn.x

/-- The `messages` object of the transaction. -/
def messages (conn : Connection Buffer Xact Error) : Sequence :=
  ⟨conn.object, transaction.messages conn.x⟩

/-- An exception of `recv` or `send`: it ends the transaction if it has a message, else it
is tried again or leaves `complete`.
-/
def excepted (conn : Connection Buffer Xact Error) (socket : Socket)
    : Raised → Passed Buffer Xact Error
  | .interrupt => (conn, socket, .raised .interrupt)
  | .error error =>
      match SocketFactory.fatalExceptionMessage error with
      | some message =>
          ({ conn with failure := some (.socket error message) }, socket, .returned false)
      | none =>
          if SocketFactory.tryAgain error then (conn, socket, .going)
          else (conn, socket, .raised (.error error))

/-- One pass of the loop in `read_into`. -/
def readInto (conn : Connection Buffer Xact Error) (socket : Socket)
    : Passed Buffer Xact Error :=
  let bufferHasMsg := port.buffer.answer conn.messageBuffer .hasMessage
  let conn := { conn with messageBuffer := bufferHasMsg.1 }
  let bufferWriteMsg := fun data =>
    { conn with
      messageBuffer := (port.buffer.answer conn.messageBuffer (.write data)).1
      readData := none }
  match bufferHasMsg.2 with
  | .raises error => (conn, socket, .failed (.buffer error))
  | .flag false =>
      match conn.readData, socket.recvs with
      | some data, _ => (bufferWriteMsg data, socket, .going)
      | none, [] => (conn, socket, .blocked)
      | none, .raises raised :: recvs => conn.excepted { socket with recvs := recvs } raised
      | none, .data [] :: recvs =>
          ({ conn with readData := some [], failure := some .eof },
            { socket with recvs := recvs }, .returned false)
      | none, .data data :: recvs =>
          (bufferWriteMsg data, { socket with recvs := recvs }, .going)
  | _ => (conn, socket, .returned true)

/-- `self.read = self.message_buffer.read()` and the result of `read_into`. -/
def refill (conn : Connection Buffer Xact Error) (socket : Socket) (r : Bool)
    : Passed Buffer Xact Error :=
  let bufferRead := port.buffer.answer conn.messageBuffer (.read none)
  let conn := { conn with messageBuffer := bufferRead.1 }
  match bufferRead.2 with
  | .raises error => (conn, socket, .failed (.buffer error))
  | reply => ({ conn with read := reply.delivered }, socket, .returned r)

/-- `standard_read_messages`, with one pass of the loop. -/
def readMessages (conn : Connection Buffer Xact Error) (socket : Socket)
    : Passed Buffer Xact Error :=
  if conn.read ≠ [] then (conn, socket, .returned true)
  else
    match conn.readInto port socket with
    | (conn, socket, .returned r) => conn.refill port socket r
    | other => other

/-- One pass of the loop in `send_message_data`. -/
def sendMessageData (conn : Connection Buffer Xact Error) (socket : Socket)
    : Passed Buffer Xact Error :=
  if conn.messageData = [] then (conn, socket, .returned true)
  else
    match socket.sends with
    | [] => (conn, socket, .blocked)
    | .raises raised :: sends => conn.excepted { socket with sends := sends } raised
    | .took count :: sends =>
        ({ conn with messageData := conn.messageData.drop count },
          { socket with
            sends := sends
            sent := socket.sent ++ conn.messageData.take count }, .going)

/-- `self.message_data += cat_messages(self.writing)`; None for the exception. -/
def transform (conn : Connection Buffer Xact Error)
    : Option (Connection Buffer Xact Error) := do
  let writing ← conn.writing
  let data ← port.catMessages writing.messages
  some { conn with messageData := conn.messageData ++ data, written := conn.writing }

/-- The front of `standard_write_messages`. -/
def prepare (conn : Connection Buffer Xact Error) (messages : Sequence)
    : Option (Connection Buffer Xact Error) := do
  let conn ←
    if conn.writing.map Sequence.id ≠ conn.written.map Sequence.id then conn.transform port
    else some conn
  if some messages.id ≠ conn.writing.map Sequence.id then
    transform port { conn with writing := some messages }
  else some conn

/-- `standard_write_messages`, with one pass of the loop. -/
def writeMessages (conn : Connection Buffer Xact Error) (socket : Socket)
    : Passed Buffer Xact Error :=
  match conn.prepare port (conn.messages transaction) with
  | none => (conn, socket, .failed .catMessages)
  | some conn => conn.sendMessageData socket

/-- `self.read = self.read[x.state[1](self.read):]`. -/
def receive (conn : Connection Buffer Xact Error) (socket : Socket)
    : Passed Buffer Xact Error :=
  match transaction.put conn.x ⟨conn.fresh, conn.read⟩ with
  | (x, .ok count) =>
      ({ conn with x := x, read := conn.read.drop count, fresh := conn.fresh + 1 }, socket,
        .going)
  | (x, .error error) => ({ conn with x := x }, socket, .failed (.put error))

/-- `x.state[1]()` of a sending state. -/
def sent (conn : Connection Buffer Xact Error) : Connection Buffer Xact Error :=
  { conn with x := transaction.sent conn.x, object := conn.object + 1 }

/-- One pass of the loops in `complete`. -/
def pass (conn : Connection Buffer Xact Error) (socket : Socket)
    : Passed Buffer Xact Error :=
  match conn.phase transaction with
  | .complete => (conn, socket, .returned true)
  | .receiving =>
      match conn.readMessages port socket with
      | (conn, socket, .returned true) => conn.receive transaction socket
      | (conn, socket, .returned false) => (conn, socket, .going)
      | other => other
  | .sending =>
      match conn.writeMessages port transaction socket with
      | (conn, socket, .returned true) => (conn.sent transaction, socket, .going)
      | (conn, socket, .returned false) => (conn, socket, .going)
      | other => other

/-- `getattr(x, 'fatal', None) is True`. -/
def fatal (conn : Connection Buffer Xact Error) : Bool :=
  conn.failure.isSome || transaction.fatal conn.x

/-- Behind the loops of `complete`. -/
def finish (conn : Connection Buffer Xact Error) : Connection Buffer Xact Error :=
  { conn with
    state := (transaction.lastReady conn.x).getD conn.state
    busy := conn.busy && conn.fatal transaction }

/-- `complete`, with at most the given number of passes. -/
def complete
    : Nat → Connection Buffer Xact Error → Socket
      → Connection Buffer Xact Error × Socket × Stop
  | 0, conn, socket => (conn, socket, .running)
  | fuel + 1, conn, socket =>
      match conn.pass port transaction socket with
      | (conn, socket, .going) => complete fuel conn socket
      | (conn, socket, .returned _) => (conn.finish transaction, socket, .completed)
      | (conn, socket, .failed failure) =>
          ({ conn with failure := some failure, state := .unknown }, socket, .failed)
      | (conn, socket, .raised raised) => (conn, socket, .raised raised)
      | (conn, socket, .blocked) => (conn, socket, .blocked)

/-- A user who calls `complete` again when an exception of the socket has left it. -/
def persist (fuel : Nat)
    : Nat → Connection Buffer Xact Error → Socket
      → Connection Buffer Xact Error × Socket × Stop
  | 0, conn, socket => complete port transaction fuel conn socket
  | again + 1, conn, socket =>
      match complete port transaction fuel conn socket with
      | (conn, socket, .raised _) => persist fuel again conn socket
      | ended => ended

end Connection

end Operations

-----------------------------------------------------------------------------------------
-- Ports
-----------------------------------------------------------------------------------------

/-- The reply is the answer, or what the extension replies there. -/
def Agrees (call : StreamCall UInt8) (reply answer : StreamReply UInt8 Message BufferError)
    : Prop :=
  reply = answer ∨ reply = replyOptimized call answer

theorem Agrees.eq {call : StreamCall UInt8}
    {reply answer : StreamReply UInt8 Message BufferError} (agrees : Agrees call reply answer)
    (same : replyOptimized call answer = answer)
    : reply = answer :=
  agrees.elim id (fun other => other.trans same)

/-- A port that stands for the Python modules, on the streams that it is fine with. -/
structure Port.Serves {Buffer : Type} (port : Port Buffer) where
  Holds : Buffer → Bytes → Prop
  Fine : Bytes → Prop
  start
    : Holds port.buffer.start []
  part
    : ∀ {whole pending}, Fine whole → pending.length ≤ whole.length
      → (framing.drain pending).messages ⊆ (framing.drain whole).messages → Fine pending
  follows
    : ∀ {buffer pending}, Holds buffer pending → Fine pending
      → ∀ {call}, (∀ limit, call ≠ .read (some limit))
        → Holds (port.buffer.answer buffer call).1
            ((framing.stream PqMessageStream.numDefault).answer pending call).1
          ∧ Agrees call (port.buffer.answer buffer call).2
              ((framing.stream PqMessageStream.numDefault).answer pending call).2
  catMessages
    : ∀ {messages data}, Outgoing.element .void ∉ messages
      → Postgresql.catMessages messages = some data
      → port.catMessages messages = some data

def Port.python : Port PqMessageStream := ⟨pqMessageStream, Postgresql.catMessages⟩

def Port.optimized : Port PBuffer := ⟨pBuffer, catMessagesOptimized⟩

def Port.Serves.python : Port.python.Serves where
  Holds := PqMessageStream.Holds
  Fine _ := True
  start := start_holds
  part _ _ _ := trivial
  follows holds _ call _ :=
    ⟨(pqMessageStream_follows holds call).holds, .inl (pqMessageStream_follows holds call).reply⟩
  catMessages _ wrote := wrote

/-- The extension serves streams below the size of its integers, with ASCII types. -/
def Port.Serves.optimized : Port.optimized.Serves where
  Holds := PBuffer.Holds
  Fine pending :=
    pending.length < PqMessageStream.numDefault
      ∧ ∀ message ∈ (framing.drain pending).messages, message.typ.toNat < 128
  start := ⟨rfl, by simp [Port.optimized, pBuffer, PBuffer.empty, ChunkPlace.empty]⟩
  part fine shorter messages :=
    ⟨Nat.lt_of_le_of_lt shorter fine.1, fun message member => fine.2 message (messages member)⟩
  follows holds fine call unlimited :=
    have usable := ⟨fine.1, fine.2, fun limit same => absurd same (unlimited limit)⟩
    ⟨(pBuffer_follows holds usable).holds, .inr (pBuffer_follows holds usable).reply⟩
  catMessages absent wrote := (catMessagesOptimized_eq_iff wrote).mpr absent

namespace Port.Serves

variable {Buffer : Type} {port : Port Buffer} (serves : port.Serves) {buffer : Buffer}
  {pending : Bytes}

theorem write (holds : serves.Holds buffer pending) (fine : serves.Fine pending) (data : Bytes)
    : serves.Holds (port.buffer.answer buffer (.write data)).1 (pending ++ data) :=
  (@follows _ _ serves _ _ holds fine (.write data) (by simp)).1

/-- `has_message` reads the front of the stream and leaves it. -/
theorem hasMessage (holds : serves.Holds buffer pending) (fine : serves.Fine pending)
    : serves.Holds (port.buffer.answer buffer .hasMessage).1 pending
      ∧ match framing.read pending with
        | .incomplete => (port.buffer.answer buffer .hasMessage).2 = .flag false
        | .invalid _ => ∃ error, (port.buffer.answer buffer .hasMessage).2 = .raises error
        | .message _ _ => (port.buffer.answer buffer .hasMessage).2 = .flag true := by
  have answers := @follows _ _ serves _ _ holds fine .hasMessage (by simp)
  cases read : framing.read pending with
  | incomplete =>
      simp only [Framing.stream, read] at answers
      exact ⟨answers.1, answers.2.eq rfl⟩
  | invalid error =>
      simp only [Framing.stream, read] at answers
      exact ⟨answers.1, _, answers.2.eq rfl⟩
  | message message rest =>
      simp only [Framing.stream, read] at answers
      exact ⟨answers.1, answers.2.eq rfl⟩

/-- What `read` hands out stands in front of the stream, and is all that it takes off: at
least one message, or it raises in front of an invalid header.
-/
theorem read (holds : serves.Holds buffer pending) (fine : serves.Fine pending)
    : ∃ rest, serves.Holds (port.buffer.answer buffer (.read none)).1 rest
      ∧ rest.length ≤ pending.length
      ∧ (∀ more, framing.drain (pending ++ more)
          = ⟨(port.buffer.answer buffer (.read none)).2.delivered
                ++ (framing.drain (rest ++ more)).messages,
              (framing.drain (rest ++ more)).rest, (framing.drain (rest ++ more)).error⟩)
      ∧ ((∃ messages, (port.buffer.answer buffer (.read none)).2 = .messages messages
            ∧ (framing.read pending = .incomplete → messages = [])
            ∧ ∀ message back, framing.read pending = .message message back → messages ≠ [])
        ∨ ∃ error, (port.buffer.answer buffer (.read none)).2 = .raises error
            ∧ ∀ more, (framing.drain (pending ++ more)).error ≠ none) := by
  have answers := @follows _ _ serves _ _ holds fine (.read none) (by simp)
  rw [Framing.stream_read, Option.getD_none] at answers
  have drained := fun more =>
    @Framing.drain_popAll _ _ _ framing PqMessageStream.numDefault pending more
  have shorter := @Framing.take_rest_length _ _ _ framing PqMessageStream.numDefault pending
  cases stopped : (framing.take PqMessageStream.numDefault pending).error with
  | some error =>
      simp only [Framing.popAll, stopped] at answers drained
      have raises : ∃ error, (port.buffer.answer buffer (.read none)).2 = .raises error := by
        rcases answers.2 with same | same
        · exact ⟨_, same⟩
        · exact ⟨_, same⟩
      obtain ⟨error', same⟩ := raises
      refine ⟨pending, answers.1, Nat.le_refl _, ?_, .inr ⟨error', same, ?_⟩⟩
      · intro more
        simp [same, StreamReply.delivered]
      · intro more
        have invalid := framing.invalid_append (Framing.read_of_take_error stopped) more
        rw [Framing.drain_append_take PqMessageStream.numDefault, Framing.drain_invalid invalid]
        simp
  | none =>
      simp only [Framing.popAll, stopped] at answers drained
      have reply := answers.2.eq rfl
      refine ⟨_, answers.1, shorter, ?_, .inl ⟨_, reply, ?_, ?_⟩⟩
      · intro more
        rw [reply]
        exact drained more
      · intro incomplete
        rw [Framing.take_incomplete incomplete]
      · intro message back here
        have positive : PqMessageStream.numDefault = 0xFFFFFFFE + 1 := rfl
        rw [positive, Framing.take_message here]
        simp

end Port.Serves

-----------------------------------------------------------------------------------------
-- What a pass does
-----------------------------------------------------------------------------------------

/-- The exception ends the transaction. -/
def Raised.Fatal : Raised → Prop
  | .interrupt => False
  | .error err => SocketFactory.fatalExceptionMessage err ≠ none

namespace Socket

def coming (socket : Socket) : Bytes :=
  socket.recvs.flatMap (fun recv => match recv with | .data data => data | .raises _ => [])

/-- The calls that the socket still answers. -/
def size (socket : Socket) : Nat := socket.recvs.length + socket.sends.length

/-- The stream does not end and no call fails for good. -/
structure Sound (socket : Socket) : Prop where
  recvs
    : ∀ recv ∈ socket.recvs,
        recv ≠ .data [] ∧ ∀ raised, recv = .raises raised → ¬ raised.Fatal
  sends
    : ∀ send ∈ socket.sends, ∀ raised, send = .raises raised → ¬ raised.Fatal

end Socket

section Tracking

variable {Buffer Xact Error : Type} {port : Port Buffer} (serves : port.Serves)
  (transaction : Transaction Xact Error)

theorem Connection.phase_of_failure {transaction : Transaction Xact Error}
    {conn : Connection Buffer Xact Error} (dead : conn.failure ≠ none)
    : conn.phase transaction = .complete :=
  if_pos (Option.isSome_iff_ne_none.mpr dead)

/-- The messages that are being written. -/
def Connection.current (conn : Connection Buffer Xact Error) : List (List Outgoing) :=
  if conn.writing.map Sequence.id = some conn.object then [transaction.messages conn.x] else []

theorem Connection.current_begun {transaction : Transaction Xact Error}
    {conn : Connection Buffer Xact Error}
    (begun : conn.writing.map Sequence.id = some conn.object)
    : conn.current transaction = [transaction.messages conn.x] :=
  if_pos begun

theorem Connection.current_idle {transaction : Transaction Xact Error}
    {conn : Connection Buffer Xact Error}
    (idle : conn.writing.map Sequence.id ≠ some conn.object)
    : conn.current transaction = [] :=
  if_neg idle

/-- The connection is where the party is, with the given bytes in its buffer. What it has
written and has left to write is what the party has written and what has been begun.
-/
structure Tracks (conn : Connection Buffer Xact Error) (socket : Socket)
    (party : Party Xact Error) (pending : Bytes)
    : Prop where
  x
    : conn.x = party.xact
  read
    : conn.read = party.read
  fresh
    : conn.fresh = party.fresh
  raised
    : party.raised ≠ none → conn.failure ≠ none
  unread
    : conn.failure = none → conn.readData = none
  busy
    : conn.busy = true
  holds
    : serves.Holds conn.messageBuffer pending
  same
    : conn.writing.map Sequence.id = conn.written.map Sequence.id
  older
    : ∀ id, conn.writing.map Sequence.id = some id → id ≤ conn.object
  begun
    : conn.writing.map Sequence.id = some conn.object
      → transaction.phase conn.x = .sending
  idle
    : conn.writing.map Sequence.id ≠ some conn.object → conn.messageData = []
  parts
    : ∃ parts,
        List.Forall₂ (fun messages part => port.catMessages messages = some part)
          (party.written ++ conn.current transaction) parts
        ∧ socket.sent ++ conn.messageData = parts.flatten

/-- What has been reached from a party and a stream of bytes. -/
structure Reached (party : Party Xact Error) (pending : Bytes) (socket : Socket)
    (count : Nat) (arrivals : Arrivals) (last : Party Xact Error) (rest : Bytes)
    (conn' : Connection Buffer Xact Error) (socket' : Socket)
    : Prop where
  steps
    : Party.Steps transaction count party arrivals last
  tracks
    : Tracks serves transaction conn' socket' last rest
  drained
    : framing.drain (pending ++ socket.coming)
      = ⟨arrivals.flatten ++ (framing.drain (rest ++ socket'.coming)).messages,
          (framing.drain (rest ++ socket'.coming)).rest,
          (framing.drain (rest ++ socket'.coming)).error⟩
  shorter
    : (rest ++ socket'.coming).length ≤ (pending ++ socket.coming).length
  size
    : socket'.size ≤ socket.size
  sound
    : socket.Sound → socket'.Sound

variable {serves transaction} {conn conn' : Connection Buffer Xact Error}
  {socket socket' : Socket} {party last : Party Xact Error} {pending rest : Bytes}

namespace Tracks

theorem unraised (tracks : Tracks serves transaction conn socket party pending)
    (alive : conn.failure = none)
    : party.raised = none := by
  by_contra raised
  exact tracks.raised raised alive

theorem phase_eq (tracks : Tracks serves transaction conn socket party pending)
    (alive : conn.failure = none)
    : conn.phase transaction = party.phase transaction := by
  rw [Connection.phase, Party.phase, alive, tracks.unraised alive, tracks.x]
  rfl

theorem fail (tracks : Tracks serves transaction conn socket party pending)
    (failure : Failure Error) (state : SessionState)
    : Tracks serves transaction { conn with failure := some failure, state := state } socket
        party pending := by
  obtain ⟨x, read, fresh, _, _, busy, holds, same, older, begun, idle, parts⟩ := tracks
  exact ⟨x, read, fresh, by simp, by simp, busy, holds, same, older, begun, idle, parts⟩

/-- Nothing has been begun where the transaction receives. -/
theorem not_begun (tracks : Tracks serves transaction conn socket party pending)
    (alive : conn.failure = none) (receiving : conn.phase transaction = .receiving)
    : conn.writing.map Sequence.id ≠ some conn.object := by
  intro begun
  have sending := tracks.begun begun
  rw [Connection.phase, alive] at receiving
  simp [sending] at receiving

/-- Nothing happens to the party. -/
theorem reached (tracks : Tracks serves transaction conn' socket' party rest)
    (stream : rest ++ socket'.coming = pending ++ socket.coming)
    (size : socket'.size ≤ socket.size) (sound : socket.Sound → socket'.Sound)
    : Reached serves transaction party pending socket 0 [] party rest conn' socket' := by
  refine ⟨.nil, tracks, ?_, by rw [stream], size, sound⟩
  rw [stream]
  rfl

end Tracks

theorem Reached.trans {first second : Nat} {front back : Arrivals}
    {middle : Party Xact Error} {rest' : Bytes} {conn'' : Connection Buffer Xact Error}
    {socket'' : Socket}
    (before
      : Reached serves transaction party pending socket first front middle rest conn' socket')
    (behind
      : Reached serves transaction middle rest socket' second back last rest' conn'' socket'')
    : Reached serves transaction party pending socket (first + second) (front ++ back) last
        rest' conn'' socket'' := by
  refine ⟨before.steps.trans behind.steps, behind.tracks, ?_,
    Nat.le_trans behind.shorter before.shorter, Nat.le_trans behind.size before.size,
    fun sound => behind.sound (before.sound sound)⟩
  rw [before.drained, behind.drained]
  simp

/-- Why a call of the socket does not come back. -/
inductive Waiting (transaction : Transaction Xact Error) (conn : Connection Buffer Xact Error)
    (socket : Socket) (party : Party Xact Error) (pending : Bytes)
    : Prop where
  | recv (receiving : party.phase transaction = .receiving) (empty : party.read = [])
      (incomplete : framing.read pending = .incomplete) (nothing : socket.recvs = [])
  | send (some : conn.messageData ≠ []) (nothing : socket.sends = [])

/-- Why a transaction is ended with a protocol error. -/
inductive Violated (port : Port Buffer) (transaction : Transaction Xact Error)
    (party : Party Xact Error) (pending : Bytes) (socket : Socket) : Failure Error → Prop where
  | put (error : Error) (raised : party.raised = some error)
    : Violated port transaction party pending socket (.put error)
  | buffer (error : BufferError)
      (invalid : (framing.drain (pending ++ socket.coming)).error ≠ none)
    : Violated port transaction party pending socket (.buffer error)
  | catMessages (sending : party.phase transaction = .sending)
      (unwritten : port.catMessages (transaction.messages party.xact) = none)
    : Violated port transaction party pending socket .catMessages

/-- What a part of the loops does, from where the party is. `Done` holds where it returns
true, `Lost` where the session is lost.
-/
inductive Passes (serves : port.Serves) (transaction : Transaction Xact Error)
    (party : Party Xact Error) (pending : Bytes) (socket : Socket)
    (Done : Connection Buffer Xact Error → Socket → Party Xact Error → Bytes → Prop)
    (Lost : Progress Error → Party Xact Error → Bytes → Prop)
    : Passed Buffer Xact Error → Prop where
  | going {conn' : Connection Buffer Xact Error} {socket' : Socket} {count : Nat}
      {arrivals : Arrivals} {last : Party Xact Error} {rest : Bytes}
      (reached : Reached serves transaction party pending socket count arrivals last rest conn'
        socket')
      (alive : conn'.failure = none) (less : socket'.size < count + socket.size)
    : Passes serves transaction party pending socket Done Lost (conn', socket', .going)
  | returned {conn' : Connection Buffer Xact Error} {socket' : Socket} {count : Nat}
      {arrivals : Arrivals} {last : Party Xact Error} {rest : Bytes}
      (reached : Reached serves transaction party pending socket count arrivals last rest conn'
        socket')
      (alive : conn'.failure = none) (done : Done conn' socket' last rest)
    : Passes serves transaction party pending socket Done Lost (conn', socket', .returned true)
  | lost {conn' : Connection Buffer Xact Error} {socket' : Socket} {count : Nat}
      {arrivals : Arrivals} {last : Party Xact Error} {rest : Bytes} {progress : Progress Error}
      (reached : Reached serves transaction party pending socket count arrivals last rest conn'
        socket')
      (dead : conn'.failure ≠ none) (unsound : ¬ socket.Sound)
      (less : socket'.size < count + socket.size) (lost : Lost progress last rest)
    : Passes serves transaction party pending socket Done Lost (conn', socket', progress)
  | failed {conn' : Connection Buffer Xact Error} {socket' : Socket} {count : Nat}
      {arrivals : Arrivals} {last : Party Xact Error} {rest : Bytes} {failure : Failure Error}
      (reached : Reached serves transaction party pending socket count arrivals last rest
        { conn' with failure := some failure, state := .unknown } socket')
      (why : Violated port transaction last rest socket' failure)
    : Passes serves transaction party pending socket Done Lost (conn', socket', .failed failure)
  | raised {conn' : Connection Buffer Xact Error} {socket' : Socket} {count : Nat}
      {arrivals : Arrivals} {last : Party Xact Error} {rest : Bytes} {raised : Raised}
      (reached : Reached serves transaction party pending socket count arrivals last rest conn'
        socket')
      (alive : conn'.failure = none) (less : socket'.size < count + socket.size)
    : Passes serves transaction party pending socket Done Lost (conn', socket', .raised raised)
  | blocked {conn' : Connection Buffer Xact Error} {socket' : Socket} {count : Nat}
      {arrivals : Arrivals} {last : Party Xact Error} {rest : Bytes}
      (reached : Reached serves transaction party pending socket count arrivals last rest conn'
        socket')
      (alive : conn'.failure = none) (waiting : Waiting transaction conn' socket' last rest)
    : Passes serves transaction party pending socket Done Lost (conn', socket', .blocked)

section Parts

variable {Done : Connection Buffer Xact Error → Socket → Party Xact Error → Bytes → Prop}
  {Lost : Progress Error → Party Xact Error → Bytes → Prop}

/-- An exception of the socket, whose event is used up. -/
theorem excepted_passes (tracks : Tracks serves transaction conn socket' party pending)
    (alive : conn.failure = none) (stream : socket'.coming = socket.coming)
    (less : socket'.size < socket.size) (sound : socket.Sound → socket'.Sound)
    (lost : Lost (.returned false) party pending) {raised : Raised}
    (fatal : socket.Sound → ¬ raised.Fatal)
    : Passes serves transaction party pending socket Done Lost
        (conn.excepted socket' raised) := by
  have same : pending ++ socket'.coming = pending ++ socket.coming := by rw [stream]
  have kept := tracks.reached same (Nat.le_of_lt less) sound
  cases raised with
  | interrupt => exact .raised kept alive (by omega)
  | error err =>
      simp only [Connection.excepted]
      split
      next message known =>
        have dead := (tracks.fail (.socket err message) conn.state).reached same
          (Nat.le_of_lt less) sound
        refine .lost dead (by simp) (fun sound => fatal sound ?_) (by omega) lost
        simp [Raised.Fatal, known]
      next =>
        split
        · exact .going kept alive (by omega)
        · exact .raised kept alive (by omega)

/-- Another state of the buffer with the given bytes. -/
theorem Tracks.buffered (tracks : Tracks serves transaction conn socket party pending)
    {messageBuffer : Buffer} (holds : serves.Holds messageBuffer rest)
    {readData : Option Bytes} (unread : conn.failure = none → readData = none)
    (recvs : List Recv)
    : Tracks serves transaction
        { conn with messageBuffer := messageBuffer, readData := readData }
        { socket with recvs := recvs } party rest := by
  obtain ⟨x, read, fresh, raised, _, busy, _, same, older, begun, idle, parts⟩ := tracks
  exact ⟨x, read, fresh, raised, unread, busy, holds, same, older, begun, idle, parts⟩

theorem Socket.Sound.recv {recv : Recv} {recvs : List Recv} (sound : socket.Sound)
    (here : socket.recvs = recv :: recvs)
    : { socket with recvs := recvs }.Sound :=
  ⟨fun other member => sound.recvs other (here ▸ List.mem_cons_of_mem recv member), sound.sends⟩

theorem Socket.Sound.send {send : Send} {sends : List Send} (sound : socket.Sound)
    (here : socket.sends = send :: sends) (sent : Bytes)
    : (⟨socket.recvs, sends, sent⟩ : Socket).Sound :=
  ⟨sound.recvs, fun other member => sound.sends other (here ▸ List.mem_cons_of_mem send member)⟩

/-- One pass of `read_into`: where it returns, a message can be read. -/
theorem readInto_passes (tracks : Tracks serves transaction conn socket party pending)
    (alive : conn.failure = none) (fine : serves.Fine pending)
    (receiving : conn.phase transaction = .receiving) (empty : conn.read = [])
    : Passes serves transaction party pending socket
        (fun _ socket' last rest => socket' = socket ∧ last = party ∧ rest = pending
          ∧ ∃ message back, framing.read rest = .message message back)
        (fun progress last rest => progress = .returned false ∧ last = party ∧ rest = pending
          ∧ framing.read rest = .incomplete)
        (conn.readInto port socket) := by
  obtain ⟨holds, answers⟩ := serves.hasMessage tracks.holds fine
  have receiving_ := (tracks.phase_eq alive).symm.trans receiving
  have empty_ := tracks.read.symm.trans empty
  cases read : framing.read pending with
  | invalid error =>
      simp only [read] at answers
      obtain ⟨error', raises⟩ := answers
      have buffered := tracks.buffered holds tracks.unread socket.recvs
      have failed := (buffered.fail (.buffer error') .unknown).reached rfl (Nat.le_refl _) id
      simp only [Connection.readInto, raises]
      refine .failed failed (.buffer _ ?_)
      rw [Framing.drain_invalid (framing.invalid_append read _)]
      simp
  | message message back =>
      simp only [read] at answers
      have buffered := tracks.buffered holds tracks.unread socket.recvs
      simp only [Connection.readInto, answers]
      exact .returned (buffered.reached rfl (Nat.le_refl _) id) alive
        ⟨rfl, rfl, rfl, message, back, read⟩
  | incomplete =>
      simp only [read] at answers
      simp only [Connection.readInto, answers, tracks.unread alive]
      cases recvs : socket.recvs with
      | nil =>
          have buffered := tracks.buffered holds (fun _ => rfl) socket.recvs
          exact .blocked (buffered.reached rfl (Nat.le_refl _) id) alive
            (.recv receiving_ empty_ read recvs)
      | cons recv later =>
          have sound := fun sound : socket.Sound => sound.recv recvs
          have less : { socket with recvs := later }.size < socket.size := by
            simp only [Socket.size, recvs, List.length_cons]
            omega
          have here : recv ∈ socket.recvs := by rw [recvs]; exact List.mem_cons_self
          have buffered := tracks.buffered holds (fun _ => rfl) later
          cases recv with
          | raises raised =>
              refine excepted_passes buffered alive ?_ less sound ⟨rfl, rfl, rfl, read⟩ ?_
              · simp [Socket.coming, recvs]
              · exact fun sound => (sound.recvs _ here).2 _ rfl
          | data data =>
              cases data with
              | nil =>
                  have dead := @Tracks.buffered _ _ _ _ serves transaction _ _ _ _ _
                    (tracks.fail .eof conn.state) _ holds (some []) (by simp) later
                  refine .lost (dead.reached ?_ (Nat.le_of_lt less) sound) (by simp) ?_
                    (by omega) ⟨rfl, rfl, rfl, read⟩
                  · simp [Socket.coming, recvs]
                  · exact fun sound => (sound.recvs _ here).1 rfl
              | cons first others =>
                  have written := serves.write holds fine (first :: others)
                  have buffered := tracks.buffered written (fun _ => rfl) later
                  refine .going (buffered.reached ?_ (Nat.le_of_lt less) sound) alive (by omega)
                  simp [Socket.coming, recvs]

/-- The list that `read` hands out, in the place of an empty one. -/
theorem Tracks.refilled (tracks : Tracks serves transaction conn socket party pending)
    {messageBuffer : Buffer} (holds : serves.Holds messageBuffer rest) (read : List Message)
    : Tracks serves transaction { conn with messageBuffer := messageBuffer, read := read }
        socket { party with read := read } rest := by
  obtain ⟨x, _, fresh, raised, unread, busy, _, same, older, begun, idle, parts⟩ := tracks
  exact ⟨x, rfl, fresh, raised, unread, busy, holds, same, older, begun, idle, parts⟩

/-- Behind `read_into` with a message the party takes what is handed out. -/
theorem refill_passes (tracks : Tracks serves transaction conn socket party pending)
    (alive : conn.failure = none) (fine : serves.Fine pending)
    (receiving : party.phase transaction = .receiving) (empty : party.read = [])
    {message : Message} {back : Bytes} (here : framing.read pending = .message message back)
    : Passes serves transaction party pending socket
        (fun conn' _ last _ => conn'.phase transaction = .receiving ∧ last.read ≠ []) Lost
        (conn.refill port socket true) := by
  obtain ⟨rest, holds, shorter, drained, result⟩ := serves.read tracks.holds fine
  rcases result with ⟨messages, reply, _, some⟩ | ⟨error, reply, invalid⟩
  · have taken := tracks.refilled holds messages
    have steps := @Party.Steps.take _ _ transaction _ _ _ _ _ receiving empty (some _ _ here) .nil
    have drained := drained socket.coming
    rw [reply] at drained
    simp only [Connection.refill, reply, StreamReply.delivered]
    refine .returned ⟨steps, taken, ?_, ?_, Nat.le_refl _, id⟩ alive
      ⟨(taken.phase_eq alive).trans receiving, some _ _ here⟩
    · simpa [StreamReply.delivered] using drained
    · simpa using shorter
  · have failed := (tracks.refilled holds conn.read).fail (.buffer error) .unknown
    have same : { party with read := conn.read } = party := by rw [tracks.read]
    rw [same] at failed
    have invalid := invalid socket.coming
    have drained := drained socket.coming
    rw [drained] at invalid
    rw [reply] at drained
    simp only [Connection.refill, reply]
    refine .failed ⟨.nil, failed, ?_, ?_, Nat.le_refl _, id⟩ (.buffer _ invalid)
    · simpa [StreamReply.delivered] using drained
    · simpa using shorter

/-- Behind `read_into` without a message nothing is handed out. -/
theorem refill_lost {count : Nat} {arrivals : Arrivals}
    (reached
      : Reached serves transaction party pending socket count arrivals party pending conn'
          socket')
    (dead : conn'.failure ≠ none) (unsound : ¬ socket.Sound) (fine : serves.Fine pending)
    (empty : party.read = []) (silent : framing.read pending = .incomplete)
    (less : socket'.size < count + socket.size)
    : Passes serves transaction party pending socket Done
        (fun progress _ _ => progress = .returned false)
        (conn'.refill port socket' false) := by
  obtain ⟨later, holds, shorter, drained, result⟩ := serves.read reached.tracks.holds fine
  have drained := drained socket'.coming
  rcases result with ⟨messages, reply, nothing, _⟩ | ⟨error, _, invalid⟩
  · obtain rfl := nothing silent
    have kept := reached.tracks.refilled holds []
    have same : { party with read := [] } = party := by rw [← empty]
    rw [same] at kept
    rw [reply] at drained
    have quiet : Reached serves transaction party pending socket' 0 [] party later
        { conn' with
          messageBuffer := (port.buffer.answer conn'.messageBuffer (.read none)).1
          read := [] } socket' := by
      refine ⟨.nil, kept, ?_, ?_, Nat.le_refl _, id⟩
      · simpa [StreamReply.delivered] using drained
      · simpa using shorter
    simp only [Connection.refill, reply, StreamReply.delivered]
    exact .lost (reached.trans quiet) dead unsound less rfl
  · have error := invalid []
    rw [List.append_nil, Framing.drain_incomplete silent] at error
    exact absurd rfl error

/-- `standard_read_messages`: where it returns, the party has messages to take. -/
theorem readMessages_passes (tracks : Tracks serves transaction conn socket party pending)
    (alive : conn.failure = none) (fine : serves.Fine pending)
    (receiving : conn.phase transaction = .receiving)
    : Passes serves transaction party pending socket
        (fun conn' _ last _ => conn'.phase transaction = .receiving ∧ last.read ≠ [])
        (fun progress _ _ => progress = .returned false) (conn.readMessages port socket) := by
  have receiving_ := (tracks.phase_eq alive).symm.trans receiving
  unfold Connection.readMessages
  split
  next some =>
    rw [tracks.read] at some
    exact .returned (tracks.reached rfl (Nat.le_refl _) id) alive ⟨receiving, some⟩
  next empty =>
    have empty : conn.read = [] := by simpa using empty
    have empty_ := tracks.read.symm.trans empty
    have passes := readInto_passes tracks alive fine receiving empty
    generalize conn.readInto port socket = passed at passes ⊢
    cases passes with
    | going reached alive less => exact .going reached alive less
    | failed reached why => exact .failed reached why
    | raised reached alive less => exact .raised reached alive less
    | blocked reached alive waiting => exact .blocked reached alive waiting
    | returned reached alive done =>
        obtain ⟨rfl, rfl, rfl, message, back, here⟩ := done
        exact refill_passes reached.tracks alive fine receiving_ empty_ here
    | lost reached dead unsound less lost =>
        obtain ⟨rfl, rfl, rfl, silent⟩ := lost
        exact refill_lost reached dead unsound fine empty_ silent less

/-- The front of `standard_write_messages`: the messages of the transaction are begun, each
object once.
-/
theorem prepare_spec (tracks : Tracks serves transaction conn socket party pending)
    (alive : conn.failure = none) (sending : conn.phase transaction = .sending)
    : (∃ conn', conn.prepare port (conn.messages transaction) = some conn'
        ∧ Tracks serves transaction conn' socket party pending ∧ conn'.failure = none
        ∧ conn'.writing.map Sequence.id = some conn'.object)
      ∨ conn.prepare port (conn.messages transaction) = none
        ∧ port.catMessages (transaction.messages party.xact) = none := by
  have sending_ : transaction.phase conn.x = .sending := by
    simpa [Connection.phase, alive] using sending
  simp only [Connection.prepare, tracks.same, ne_eq, not_true_eq_false, if_false,
    Option.bind_eq_bind, Option.bind_some]
  by_cases begun : conn.writing.map Sequence.id = some conn.object
  · left
    rw [← tracks.same, begun]
    simp only [Connection.messages, not_true_eq_false, if_false]
    exact ⟨conn, rfl, tracks, alive, begun⟩
  · rw [← tracks.same, if_pos (fun same => begun same.symm)]
    simp only [Connection.transform, Connection.messages, Option.bind_eq_bind, Option.bind_some,
      tracks.idle begun, List.nil_append, tracks.x]
    cases wrote : port.catMessages (transaction.messages party.xact) with
    | none => exact .inr ⟨rfl, rfl⟩
    | some data =>
        left
        refine ⟨_, rfl, ?_, alive, rfl⟩
        obtain ⟨parts, each, sent⟩ := tracks.parts
        rw [tracks.idle begun, List.append_nil] at sent
        rw [Connection.current_idle begun, List.append_nil] at each
        refine ⟨rfl, tracks.read, tracks.fresh, tracks.raised, tracks.unread, tracks.busy,
          tracks.holds, rfl,
          ?_, fun _ => ?_, fun other => absurd rfl other, parts ++ [data], ?_, ?_⟩
        · intro id same
          exact Nat.le_of_eq (Option.some.inj same).symm
        · rw [← tracks.x]
          exact sending_
        · rw [Connection.current_begun rfl]
          exact List.rel_append each (.cons wrote .nil)
        · simp [sent]

/-- `send_message_data`: where it returns, everything that was begun is sent. -/
theorem sendMessageData_passes (tracks : Tracks serves transaction conn socket party pending)
    (alive : conn.failure = none)
    (begun : conn.writing.map Sequence.id = some conn.object)
    : Passes serves transaction party pending socket
        (fun conn' _ last rest => last = party ∧ rest = pending ∧ conn'.messageData = []
          ∧ conn'.writing.map Sequence.id = some conn'.object)
        (fun progress _ _ => progress = .returned false) (conn.sendMessageData socket) := by
  unfold Connection.sendMessageData
  split
  next empty =>
    exact .returned (tracks.reached rfl (Nat.le_refl _) id) alive ⟨rfl, rfl, empty, begun⟩
  next some =>
    cases sends : socket.sends with
    | nil =>
        exact .blocked (tracks.reached rfl (Nat.le_refl _) id) alive (.send some sends)
    | cons send later =>
        have less : ∀ sent, (⟨socket.recvs, later, sent⟩ : Socket).size < socket.size := by
          intro sent
          simp only [Socket.size, sends, List.length_cons]
          omega
        have sound := fun sound : socket.Sound => sound.send sends
        cases send with
        | raises raised =>
            have kept : Tracks serves transaction conn { socket with sends := later } party
                pending :=
              ⟨tracks.x, tracks.read, tracks.fresh, tracks.raised, tracks.unread, tracks.busy,
                tracks.holds, tracks.same, tracks.older, tracks.begun, tracks.idle, tracks.parts⟩
            have stream : { socket with sends := later }.coming = socket.coming := rfl
            refine excepted_passes kept alive stream (less _) (fun is => sound is _) ?_ ?_
            · rfl
            · exact fun is => is.sends _ (by rw [sends]; exact List.mem_cons_self) _ rfl
        | took count =>
            obtain ⟨parts, each, sent⟩ := tracks.parts
            have kept : Tracks serves transaction
                { conn with messageData := conn.messageData.drop count }
                { socket with
                  sends := later
                  sent := socket.sent ++ conn.messageData.take count } party pending := by
              refine ⟨tracks.x, tracks.read, tracks.fresh, tracks.raised, tracks.unread,
                tracks.busy, tracks.holds, tracks.same, tracks.older, tracks.begun, ?_, parts,
                each, ?_⟩
              · exact fun other => absurd begun other
              · rw [List.append_assoc, List.take_append_drop]
                exact sent
            have less := less (socket.sent ++ conn.messageData.take count)
            refine .going (kept.reached rfl (Nat.le_of_lt less) ?_) alive (by omega)
            exact fun is => sound is _

/-- `standard_write_messages`. -/
theorem writeMessages_passes (tracks : Tracks serves transaction conn socket party pending)
    (alive : conn.failure = none) (sending : conn.phase transaction = .sending)
    : Passes serves transaction party pending socket
        (fun conn' _ last rest => last = party ∧ rest = pending ∧ conn'.messageData = []
          ∧ conn'.writing.map Sequence.id = some conn'.object)
        (fun progress _ _ => progress = .returned false)
        (conn.writeMessages port transaction socket) := by
  unfold Connection.writeMessages
  rcases prepare_spec tracks alive sending with ⟨conn', same, kept, alive, begun⟩ | ⟨none, why⟩
  · rw [same]
    exact sendMessageData_passes kept alive begun
  · rw [none]
    refine .failed ((tracks.fail .catMessages .unknown).reached rfl (Nat.le_refl _) id) ?_
    exact .catMessages ((tracks.phase_eq alive).symm.trans sending) why

/-- The operation of a receiving state. -/
theorem receive_passes (tracks : Tracks serves transaction conn socket party pending)
    (alive : conn.failure = none) (receiving : conn.phase transaction = .receiving)
    (some : party.read ≠ [])
    : Passes serves transaction party pending socket Done Lost
        (conn.receive transaction socket) := by
  have receiving_ := (tracks.phase_eq alive).symm.trans receiving
  have begun := tracks.not_begun alive receiving
  have steps := @Party.Steps.receive _ _ transaction _ _ _ _ receiving_ some .nil
  unfold Connection.receive
  rw [tracks.x, tracks.fresh, tracks.read]
  unfold Party.receive at steps
  obtain ⟨parts, each, sent⟩ := tracks.parts
  rw [Connection.current_idle begun] at each
  cases put : transaction.put party.xact ⟨party.fresh, party.read⟩ with
  | mk x result =>
      rw [put] at steps
      cases result with
      | ok count =>
          refine .going ⟨steps, ?_, by simp, Nat.le_refl _, Nat.le_refl _, id⟩ alive (by omega)
          refine ⟨rfl, rfl, rfl, tracks.raised, tracks.unread, tracks.busy, tracks.holds,
            tracks.same, tracks.older, fun same => absurd same begun, tracks.idle, parts, ?_, sent⟩
          rw [Connection.current_idle]
          · exact each
          · exact begun
      | error error =>
          refine .failed ⟨steps, ?_, by simp, Nat.le_refl _, Nat.le_refl _, id⟩ (.put _ rfl)
          refine ⟨rfl, rfl, rfl, by simp, by simp, tracks.busy, tracks.holds, tracks.same,
            tracks.older, fun same => absurd same begun, tracks.idle, parts, ?_, sent⟩
          rw [Connection.current_idle]
          · exact each
          · exact begun

/-- The operation of a sending state. -/
theorem sent_tracks (tracks : Tracks serves transaction conn socket party pending)
    (empty : conn.messageData = [])
    (begun : conn.writing.map Sequence.id = some conn.object)
    : Tracks serves transaction (conn.sent transaction) socket (party.send transaction)
        pending := by
  obtain ⟨parts, each, sent⟩ := tracks.parts
  rw [Connection.current_begun begun, tracks.x] at each
  have other : conn.writing.map Sequence.id ≠ some (conn.object + 1) := by
    rw [begun]
    simp
  refine ⟨congrArg transaction.sent tracks.x, tracks.read, tracks.fresh, tracks.raised,
    tracks.unread, tracks.busy, tracks.holds, tracks.same, ?_, fun same => absurd same other,
    fun _ => empty, parts, ?_, sent⟩
  · exact fun id same => Nat.le_succ_of_le (tracks.older id same)
  · rw [Connection.current_idle other, List.append_nil]
    exact each

theorem Passes.after {count : Nat} {arrivals : Arrivals} {middle : Party Xact Error}
    {passed : Passed Buffer Xact Error}
    (before
      : Reached serves transaction party pending socket count arrivals middle rest conn'
          socket')
    (passes : Passes serves transaction middle rest socket' Done Lost passed)
    : Passes serves transaction party pending socket Done Lost passed := by
  have size := before.size
  cases passes with
  | going reached alive less => exact .going (before.trans reached) alive (by omega)
  | returned reached alive done => exact .returned (before.trans reached) alive done
  | lost reached dead unsound less lost =>
      exact .lost (before.trans reached) dead (fun sound => unsound (before.sound sound))
        (by omega) lost
  | failed reached why => exact .failed (before.trans reached) why
  | raised reached alive less => exact .raised (before.trans reached) alive (by omega)
  | blocked reached alive waiting => exact .blocked (before.trans reached) alive waiting

theorem Port.Serves.fine_pending (serves : port.Serves) {more : Bytes}
    (fine : serves.Fine (pending ++ more))
    : serves.Fine pending := by
  refine serves.part fine (by simp) ?_
  rw [Framing.drain_append]
  exact List.subset_append_left _ _

theorem Reached.fine {count : Nat} {arrivals : Arrivals}
    (reached
      : Reached serves transaction party pending socket count arrivals last rest conn' socket')
    (fine : serves.Fine (pending ++ socket.coming))
    : serves.Fine (rest ++ socket'.coming) := by
  refine serves.part fine reached.shorter ?_
  rw [reached.drained]
  exact List.subset_append_right _ _

/-- One pass of `complete`. -/
theorem pass_passes (tracks : Tracks serves transaction conn socket party pending)
    (alive : conn.failure = none) (fine : serves.Fine (pending ++ socket.coming))
    : Passes serves transaction party pending socket
        (fun _ _ last _ => last.phase transaction = .complete)
        (fun progress _ _ => progress = .going) (conn.pass port transaction socket) := by
  have fine := serves.fine_pending fine
  unfold Connection.pass
  cases phase : conn.phase transaction with
  | complete =>
      exact .returned (tracks.reached rfl (Nat.le_refl _) id) alive
        ((tracks.phase_eq alive).symm.trans phase)
  | receiving =>
      have passes := readMessages_passes tracks alive fine phase
      generalize conn.readMessages port socket = passed at passes ⊢
      cases passes with
      | going reached alive less => exact .going reached alive less
      | failed reached why => exact .failed reached why
      | raised reached alive less => exact .raised reached alive less
      | blocked reached alive waiting => exact .blocked reached alive waiting
      | returned reached alive done =>
          exact .after reached (receive_passes reached.tracks alive done.1 done.2)
      | lost reached dead unsound less lost =>
          obtain rfl := lost
          exact .lost reached dead unsound less rfl
  | sending =>
      have passes := writeMessages_passes tracks alive phase
      generalize conn.writeMessages port transaction socket = passed at passes ⊢
      cases passes with
      | going reached alive less => exact .going reached alive less
      | failed reached why => exact .failed reached why
      | raised reached alive less => exact .raised reached alive less
      | blocked reached alive waiting => exact .blocked reached alive waiting
      | returned reached alive' done =>
          obtain ⟨rfl, rfl, empty, begun⟩ := done
          have sending := (tracks.phase_eq alive).symm.trans phase
          have kept := sent_tracks reached.tracks empty begun
          exact .after reached (.going ⟨.send sending .nil, kept, by simp, Nat.le_refl _,
            Nat.le_refl _, id⟩ alive' (by omega))
      | lost reached dead unsound less lost =>
          obtain rfl := lost
          exact .lost reached dead unsound less rfl

/-- How `complete` stops when it is called so often at most. Every pass and every exception
is a transition of the party or uses up a call of the socket.
-/
inductive Stops (serves : port.Serves) (transaction : Transaction Xact Error)
    (party : Party Xact Error) (pending : Bytes) (socket : Socket) (fuel calls : Nat)
    : Connection Buffer Xact Error × Socket × Stop → Prop where
  | running {conn' : Connection Buffer Xact Error} {socket' : Socket} {count : Nat}
      {arrivals : Arrivals} {last : Party Xact Error} {rest : Bytes}
      (reached : Reached serves transaction party pending socket count arrivals last rest conn'
        socket')
      (spent : fuel + socket'.size ≤ count + socket.size)
    : Stops serves transaction party pending socket fuel calls (conn', socket', .running)
  | completed {conn' : Connection Buffer Xact Error} {socket' : Socket} {count : Nat}
      {arrivals : Arrivals} {last : Party Xact Error} {rest : Bytes}
      (reached : Reached serves transaction party pending socket count arrivals last rest conn'
        socket')
      (alive : conn'.failure = none) (done : last.phase transaction = .complete)
    : Stops serves transaction party pending socket fuel calls
        (conn'.finish transaction, socket', .completed)
  | lost {conn' : Connection Buffer Xact Error} {socket' : Socket} {count : Nat}
      {arrivals : Arrivals} {last : Party Xact Error} {rest : Bytes}
      (reached : Reached serves transaction party pending socket count arrivals last rest conn'
        socket')
      (dead : conn'.failure ≠ none) (unsound : ¬ socket.Sound)
    : Stops serves transaction party pending socket fuel calls
        (conn'.finish transaction, socket', .completed)
  | failed {conn' : Connection Buffer Xact Error} {socket' : Socket} {count : Nat}
      {arrivals : Arrivals} {last : Party Xact Error} {rest : Bytes} {failure : Failure Error}
      (reached : Reached serves transaction party pending socket count arrivals last rest
        { conn' with failure := some failure, state := .unknown } socket')
      (why : Violated port transaction last rest socket' failure)
    : Stops serves transaction party pending socket fuel calls
        ({ conn' with failure := some failure, state := .unknown }, socket', .failed)
  | raised {conn' : Connection Buffer Xact Error} {socket' : Socket} {count : Nat}
      {arrivals : Arrivals} {last : Party Xact Error} {rest : Bytes} {raised : Raised}
      (reached : Reached serves transaction party pending socket count arrivals last rest conn'
        socket')
      (alive : conn'.failure = none) (spent : calls + socket'.size ≤ count + socket.size)
    : Stops serves transaction party pending socket fuel calls (conn', socket', .raised raised)
  | blocked {conn' : Connection Buffer Xact Error} {socket' : Socket} {count : Nat}
      {arrivals : Arrivals} {last : Party Xact Error} {rest : Bytes}
      (reached : Reached serves transaction party pending socket count arrivals last rest conn'
        socket')
      (alive : conn'.failure = none) (waiting : Waiting transaction conn' socket' last rest)
    : Stops serves transaction party pending socket fuel calls (conn', socket', .blocked)

theorem Stops.after {count fuel calls more again : Nat} {arrivals : Arrivals}
    {middle : Party Xact Error} {stopped : Connection Buffer Xact Error × Socket × Stop}
    (before
      : Reached serves transaction party pending socket count arrivals middle rest conn'
          socket')
    (passed : more + socket'.size ≤ count + socket.size)
    (called : again + socket'.size ≤ count + socket.size)
    (stops : Stops serves transaction middle rest socket' fuel calls stopped)
    : Stops serves transaction party pending socket (fuel + more) (calls + again) stopped := by
  cases stops with
  | running reached spent => exact .running (before.trans reached) (by omega)
  | completed reached alive done => exact .completed (before.trans reached) alive done
  | lost reached dead unsound =>
      exact .lost (before.trans reached) dead (fun sound => unsound (before.sound sound))
  | failed reached why => exact .failed (before.trans reached) why
  | raised reached alive spent => exact .raised (before.trans reached) alive (by omega)
  | blocked reached alive waiting => exact .blocked (before.trans reached) alive waiting

/-- By induction on the passes. -/
theorem complete_stops (fuel : Nat)
    (tracks : Tracks serves transaction conn socket party pending)
    (alive : conn.failure = none) (fine : serves.Fine (pending ++ socket.coming))
    : Stops serves transaction party pending socket fuel 1
        (conn.complete port transaction fuel socket) := by
  induction fuel generalizing conn socket party pending with
  | zero => exact .running (tracks.reached rfl (Nat.le_refl _) id) (by omega)
  | succ fuel ih =>
      have passes := pass_passes tracks alive fine
      unfold Connection.complete
      generalize conn.pass port transaction socket = passed at passes ⊢
      cases passes with
      | going reached alive less =>
          have size := reached.size
          exact @Stops.after _ _ _ _ _ _ _ _ _ _ _ _ _ _ 1 1 0 _ _ _ reached (by omega)
            (by omega) (ih reached.tracks alive (reached.fine fine))
      | returned reached alive done => exact .completed reached alive done
      | failed reached why => exact .failed reached why
      | raised reached alive less => exact .raised reached alive (by omega)
      | blocked reached alive waiting => exact .blocked reached alive waiting
      | lost reached dead unsound less lost =>
          obtain rfl := lost
          cases fuel with
          | zero => exact .running reached (by omega)
          | succ fuel =>
              simp only [Connection.complete, Connection.pass, Connection.phase_of_failure dead]
              exact .lost reached dead unsound

theorem init_tracks (serves : port.Serves) (transaction : Transaction Xact Error) (x : Xact)
    (socket : Socket) (nothing : socket.sent = [])
    : Tracks serves transaction (Connection.init port x) socket (Party.start x) [] := by
  refine ⟨rfl, rfl, rfl, fun raised => absurd rfl raised, fun _ => rfl, rfl, serves.start, rfl,
    by simp [Connection.init], by simp [Connection.init], fun _ => rfl, [], ?_, ?_⟩
  · simp [Party.start, Connection.current, Connection.init]
  · simp [nothing, Connection.init]

/-- However often exceptions of the socket leave `complete`: by induction on the calls. -/
theorem persist_stops {fuel : Nat} (again : Nat)
    (tracks : Tracks serves transaction conn socket party pending)
    (alive : conn.failure = none) (fine : serves.Fine (pending ++ socket.coming))
    : Stops serves transaction party pending socket fuel (again + 1)
        (conn.persist port transaction fuel again socket) := by
  induction again generalizing conn socket party pending with
  | zero => exact complete_stops fuel tracks alive fine
  | succ again ih =>
      have stops := complete_stops fuel tracks alive fine
      unfold Connection.persist
      generalize conn.complete port transaction fuel socket = stopped at stops ⊢
      cases stops with
      | raised reached alive spent =>
          exact @Stops.after _ _ _ _ _ _ _ _ _ _ _ _ _ fuel _ 0 1 _ _ _ reached
            (by have := reached.size; omega) (by omega)
            (ih reached.tracks alive (reached.fine fine))
      | running reached spent => exact .running reached spent
      | completed reached alive done => exact .completed reached alive done
      | lost reached dead unsound => exact .lost reached dead unsound
      | failed reached why => exact .failed reached why
      | blocked reached alive waiting => exact .blocked reached alive waiting

end Parts

end Tracking

end PgCluster.Postgresql
