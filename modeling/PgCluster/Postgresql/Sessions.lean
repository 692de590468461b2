import PgCluster.Postgresql.Connections

/-! Request messages over a socket: what a connection has sent, and how it stops, when the
bytes that arrive are a conversation about the commands.
-/

namespace PgCluster.Postgresql

open Foundation

-----------------------------------------------------------------------------------------
-- What a transaction offers to write
-----------------------------------------------------------------------------------------

/-- The server has asked for the data of a COPY. -/
def CopiesFrom (processed : List Parsed) : Prop :=
  ∃ format formats, Parsed.element (.copyBegin .from format formats) ∈ processed

theorem CopiesFrom.mono {processed more : List Parsed} (copies : CopiesFrom processed)
    (subset : processed ⊆ more)
    : CopiesFrom more := by
  obtain ⟨format, formats, member⟩ := copies
  exact ⟨format, formats, subset member⟩

/-- The request messages of some commands. -/
def requests (commands : List Command) : List Outgoing :=
  commands.map (fun command => .element command.element)

/-- What answers a COPY that no data are given for: CopyFail, and once more the commands
behind the one that started it.
-/
def refusal (behind : List Command) : List Outgoing :=
  .element (.string .copyFail "invalid termination".toUTF8.toList) :: requests behind

namespace Instruction

/-- What a put of a batch leaves of the attributes that decide what is written. -/
structure Keeps (x : Instruction) (batch : Batch) (later : Instruction) : Prop where
  commands
    : later.commands = x.commands
  messages
    : later.messages = x.messages
  copySequence
    : later.copySequence = x.copySequence ∨ later.copySequence <:+ x.commands
  completed
    : later.completed = x.completed
      ∨ ∃ processed, later.completed = x.completed ++ [(batch.id, processed)]
  sends
    : ∀ op, later.state = .sending op
      → op = .sentFromStdin
        ∧ (x.completed.getLast?.map Prod.fst ≠ some batch.id → CopiesFrom later.messagesReceived)

variable {build : Build} {x : Instruction} {batch : Batch}

/-- A state that does not send, and at most one more entry for the batch. -/
theorem keeps_of_state {later : Instruction} (unsent : ∀ op, later.state ≠ .sending op)
    (commands : later.commands = x.commands) (messages : later.messages = x.messages)
    (copySequence : later.copySequence = x.copySequence)
    (completed
      : later.completed = x.completed
        ∨ ∃ processed, later.completed = x.completed ++ [(batch.id, processed)])
    : x.Keeps batch later :=
  ⟨commands, messages, .inl copySequence, completed, fun op sends => absurd sends (unsent op)⟩

theorem complete_cases (x : Instruction) (batch : Batch) (processed : List Parsed)
    : x.complete batch processed = x.completed
      ∨ ∃ others, x.complete batch processed = x.completed ++ [(batch.id, others)] := by
  unfold complete
  split
  · exact .inl rfl
  · exact .inr ⟨processed, rfl⟩

/-- The message that starts a COPY from the client is among those received. -/
theorem copies_of_complete {processed : List Parsed} {format : Nat} {formats : List Nat}
    (last : processed.getLast? = some (.element (.copyBegin .from format formats)))
    (new : x.completed.getLast?.map Prod.fst ≠ some batch.id)
    : CopiesFrom ((x.complete batch processed).flatMap Prod.snd) := by
  refine ⟨format, formats, ?_⟩
  rw [complete, if_neg new, List.flatMap_append]
  refine List.mem_append_right _ ?_
  simpa using List.mem_of_getLast? last

/-- Behind the loop only the end of the commands or the last message gives another state. -/
theorem settle_keeps (receiving : ∀ op, x.state ≠ .sending op) (walk : Walk)
    : x.Keeps batch (x.settle batch walk) := by
  have completed := x.complete_cases batch walk.processed
  unfold settle
  dsimp only
  split
  next ended => exact keeps_of_state (by simp) rfl rfl rfl completed
  next going =>
    split
    next command last here final =>
      unfold switched
      split
      next switches =>
        split
        · exact keeps_of_state (by simp) rfl rfl rfl completed
        · exact keeps_of_state (by simp) rfl rfl rfl completed
        next format formats =>
          refine ⟨rfl, rfl, .inr (List.drop_suffix _ _), completed, ?_⟩
          intro op sends
          cases sends
          exact ⟨rfl, copies_of_complete final⟩
        · exact keeps_of_state (by simp) rfl rfl rfl completed
        · exact keeps_of_state receiving rfl rfl rfl completed
      next stays => exact keeps_of_state receiving rfl rfl rfl completed
    next none_ => exact keeps_of_state receiving rfl rfl rfl completed

theorem standardPut_keeps (receiving : ∀ op, x.state ≠ .sending op)
    : x.Keeps batch (x.standardPut build batch).1 := by
  unfold standardPut
  dsimp only
  split
  next none_ => exact keeps_of_state receiving rfl rfl rfl (.inl rfl)
  next known =>
    split
    · exact settle_keeps receiving _
    · exact settle_keeps receiving _
    · exact keeps_of_state (by simp) rfl rfl rfl (.inl rfl)
    · exact keeps_of_state receiving rfl rfl rfl (.inl rfl)

theorem fallBack_keeps : x.Keeps batch (x.fallBack build batch).1 := by
  have unsent : ∀ op, { x with state := State.receiving .standardPut }.state ≠ .sending op := by
    simp
  have keeps := @standardPut_keeps build { x with state := .receiving .standardPut } batch unsent
  exact ⟨keeps.commands, keeps.messages, keeps.copySequence, keeps.completed, keeps.sends⟩

theorem record_keeps (receiving : ∀ op, x.state ≠ .sending op) (processed : List Parsed)
    : x.Keeps batch (x.record batch processed).1 :=
  keeps_of_state receiving rfl rfl rfl (x.complete_cases batch processed)

/-- Every operation of a receiving state. -/
theorem put_keeps (receiving : ∀ op, x.state ≠ .sending op) (op : PutMethod)
    : x.Keeps batch (x.put build op batch).1 := by
  have same : x.Keeps batch x := keeps_of_state receiving rfl rfl rfl (.inl rfl)
  cases op with
  | standardPut => exact standardPut_keeps receiving
  | putCopydata =>
      unfold put putCopydata
      dsimp only
      split
      · exact same
      · split
        · exact fallBack_keeps
        · exact record_keeps receiving _
  | putTupledata =>
      unfold put putTupledata
      dsimp only
      split
      · split
        · exact same
        · exact fallBack_keeps
        · exact record_keeps receiving _
      · split
        · exact same
        · split
          · exact fallBack_keeps
          · split
            · exact same
            · split
              · exact fallBack_keeps
              · exact record_keeps receiving _

/-- What was received stays. -/
theorem Keeps.received {later : Instruction} (keeps : x.Keeps batch later)
    : x.messagesReceived ⊆ later.messagesReceived := by
  unfold messagesReceived
  rcases keeps.completed with same | ⟨processed, more⟩
  · rw [same]
    exact List.Subset.refl _
  · rw [more, List.flatMap_append]
    exact List.subset_append_left _ _

end Instruction

-----------------------------------------------------------------------------------------
-- What a party has written
-----------------------------------------------------------------------------------------

/-- Nothing yet; or the commands, and a refusal for COPYs that the server has started. -/
inductive Wrote (commands : List Command) (x : Instruction) (written : List (List Outgoing))
    : Prop where
  | nothing (empty : written = []) (messages : x.messages = .commands commands)
      (starts : x.state = .sending .standardSent)
  | begun (refused : List (List Command)) (suffixes : ∀ behind ∈ refused, behind <:+ commands)
      (written_eq : written.flatten = requests commands ++ refused.flatMap refusal)
      (copies : refused ≠ [] → CopiesFrom x.messagesReceived)
      (messages : x.messages = .none ∨ x.messages = .copyFailSequence)
      (sends : ∀ op, x.state = .sending op → op = .sentFromStdin)

/-- What the party has written and is going to write is of the commands. -/
structure Offers (commands : List Command) (party : Party Instruction PutError) : Prop where
  given
    : party.xact.commands = commands
  copySequence
    : party.xact.copySequence <:+ commands
  older
    : party.raised = none
      → ∀ id, party.xact.completed.getLast?.map Prod.fst = some id → id < party.fresh
  copies
    : party.xact.state = .sending .sentFromStdin → CopiesFrom party.xact.messagesReceived
  wrote
    : Wrote commands party.xact party.written

section Offering

variable {build : Build} {commands : List Command} {party : Party Instruction PutError}

theorem offers_start (commands : List Command)
    : Offers commands (Party.start (Instruction.init commands)) :=
  ⟨rfl, List.nil_suffix, by simp [Party.start, Instruction.init],
    by simp [Party.start, Instruction.init], .nothing rfl rfl rfl⟩

/-- The operation of a sending state, by cases on the `messages` attribute. -/
theorem Offers.send (offers : Offers commands party)
    (sending : party.phase (Instruction.transaction build) = .sending)
    : Offers commands (party.send (Instruction.transaction build)) := by
  obtain ⟨op, at_⟩ := Party.exists_sending sending
  obtain ⟨same, copySequence, older, copies, wrote⟩ := offers
  have sent : party.send (Instruction.transaction build)
      = { party with
          xact := party.xact.sent op
          written := party.written ++ [party.xact.outgoing] } := by
    simp only [Party.send, Instruction.transaction, at_]
  rw [sent]
  cases wrote with
  | nothing written messages starts =>
      obtain rfl : op = .standardSent := State.sending.inj (at_.symm.trans starts)
      refine ⟨same, copySequence, older, by simp [Instruction.sent],
        .begun [] (by simp) ?_ (by simp) (.inl rfl) (by simp [Instruction.sent])⟩
      simp [written, Instruction.outgoing, messages, requests]
  | begun refused suffixes written refuses messages sends =>
      obtain rfl := sends op at_
      have started := copies at_
      rcases messages with none_ | fails
      · simp only [Instruction.sent, none_]
        refine ⟨same, copySequence, older, fun _ => started,
          .begun refused suffixes ?_ refuses (.inr rfl) sends⟩
        simp [written, Instruction.outgoing, none_]
      · simp only [Instruction.sent, fails]
        refine ⟨same, copySequence, older, by simp,
          .begun (refused ++ [party.xact.copySequence]) ?_ ?_ (fun _ => started) (.inl rfl)
            (by simp)⟩
        · intro behind member
          rcases List.mem_append.mp member with earlier | last
          · exact suffixes behind earlier
          · obtain rfl := List.mem_singleton.mp last
            exact copySequence
        · simp [written, Instruction.outgoing, fails, refusal, requests]

/-- The operation of a receiving state gives the party no other messages. -/
theorem Offers.receive (offers : Offers commands party)
    (receiving : party.phase (Instruction.transaction build) = .receiving)
    : Offers commands (party.receive (Instruction.transaction build)) := by
  obtain ⟨op, at_⟩ := Party.exists_receiving receiving
  have raised := Party.unraised (by rw [receiving]; decide)
  obtain ⟨same, copySequence, older, -, wrote⟩ := offers
  have unsent : ∀ op, party.xact.state ≠ .sending op := by
    intro op sends
    rw [at_] at sends
    cases sends
  have keeps := @Instruction.put_keeps build _ ⟨party.fresh, party.read⟩ unsent op
  have new : party.xact.completed.getLast?.map Prod.fst ≠ some party.fresh :=
    fun last => Nat.lt_irrefl _ (older raised _ last)
  simp only [Party.receive, Instruction.transaction, at_]
  generalize party.xact.put build op ⟨party.fresh, party.read⟩ = result at keeps ⊢
  obtain ⟨x, counted⟩ := result
  have copySequence_ : x.copySequence <:+ commands := by
    rcases keeps.copySequence with equal | suffix
    · rwa [equal]
    · rwa [same] at suffix
  have copies : x.state = .sending .sentFromStdin → CopiesFrom x.messagesReceived :=
    fun sends => (keeps.sends _ sends).2 new
  have wrote : Wrote commands x party.written := by
    cases wrote with
    | nothing _ _ starts => exact absurd starts (unsent _)
    | begun refused suffixes written refuses messages sends =>
        refine .begun refused suffixes written ?_ ?_ (fun op sends => (keeps.sends op sends).1)
        · exact fun some_ => (refuses some_).mono keeps.received
        · rwa [keeps.messages]
  cases counted with
  | error error =>
      exact ⟨keeps.commands.trans same, copySequence_, by simp, copies, wrote⟩
  | ok count =>
      refine ⟨keeps.commands.trans same, copySequence_, ?_, copies, wrote⟩
      intro _ id last
      rcases keeps.completed with equal | ⟨processed, more⟩
      · rw [equal] at last
        exact Nat.lt_succ_of_lt (older raised id last)
      · rw [more, List.getLast?_concat] at last
        exact Nat.lt_succ_of_le (Nat.le_of_eq (Option.some.inj last).symm)

/-- Every run of a party over its commands. -/
theorem Party.Steps.offers {count : Nat} {arrivals : Arrivals}
    {last : Party Instruction PutError}
    (steps : Party.Steps (Instruction.transaction build) count party arrivals last)
    (offers : Offers commands party)
    : Offers commands last :=
  steps.invariant (fun _ before sending => before.send sending)
    (fun _ _ before _ _ =>
      ⟨before.given, before.copySequence, before.older, before.copies, before.wrote⟩)
    (fun _ before receiving _ => before.receive receiving) offers

end Offering

-----------------------------------------------------------------------------------------
-- The bytes of what is written
-----------------------------------------------------------------------------------------

/-- Both builds write the message. -/
structure Outgoing.Writable (item : Outgoing) : Prop where
  typed
    : item ≠ .element .void
  wrote
    : ∃ data, item.bytes = some data

theorem catMessages_cons (item : Outgoing) (rest : List Outgoing)
    : catMessages (item :: rest)
      = item.bytes.bind (fun first => (catMessages rest).map (first ++ ·)) := by
  cases first : item.bytes <;> cases others : rest.mapM Outgoing.bytes
    <;> simp [catMessages, first, others]

theorem catMessages_append {front back : List Outgoing} {first second : Bytes}
    (one : catMessages front = some first) (other : catMessages back = some second)
    : catMessages (front ++ back) = some (first ++ second) := by
  induction front generalizing first with
  | nil =>
      obtain rfl : [] = first := Option.some.inj one
      exact other
  | cons item rest ih =>
      simp only [catMessages_cons, List.cons_append, Option.bind_eq_some_iff,
        Option.map_eq_some_iff] at one ⊢
      obtain ⟨bytes, wrote, more, later, rfl⟩ := one
      exact ⟨bytes, wrote, more ++ second, ih later, by rw [List.append_assoc]⟩

/-- By induction on the messages. -/
theorem exists_catMessages_iff {messages : List Outgoing}
    : (∃ data, catMessages messages = some data)
      ↔ ∀ item ∈ messages, ∃ data, item.bytes = some data := by
  induction messages with
  | nil => exact ⟨fun _ => by simp, fun _ => ⟨[], rfl⟩⟩
  | cons item rest ih =>
      rw [List.forall_mem_cons, ← ih]
      simp only [catMessages_cons, Option.bind_eq_some_iff, Option.map_eq_some_iff]
      constructor
      · rintro ⟨data, first, wrote, others, later, rfl⟩
        exact ⟨⟨first, wrote⟩, others, later⟩
      · rintro ⟨⟨first, wrote⟩, others, later⟩
        exact ⟨first ++ others, first, wrote, others, later, rfl⟩

theorem Command.ne_void (command : Command) : command.element ≠ .void := by
  intro same
  have typed := command.typed
  rw [same] at typed
  cases typed

theorem copyFail_writable
    : (Outgoing.element (.string .copyFail "invalid termination".toUTF8.toList)).Writable :=
  ⟨by simp, Option.isSome_iff_exists.mp (by decide +kernel)⟩

section Writing

variable {commands : List Command} {data : Bytes}

/-- Where the commands can be written, everything that they lead to can be. -/
theorem writable_of_wrote (wrote : catMessages (requests commands) = some data)
    {refused : List (List Command)} (suffixes : ∀ behind ∈ refused, behind <:+ commands)
    : ∀ item ∈ requests commands ++ refused.flatMap refusal, item.Writable := by
  have each : ∀ behind, behind <:+ commands → ∀ item ∈ requests behind, item.Writable := by
    intro behind suffix item member
    obtain ⟨command, listed, rfl⟩ := List.mem_map.mp member
    refine ⟨fun same => command.ne_void (Outgoing.element.inj same), ?_⟩
    exact exists_catMessages_iff.mp ⟨data, wrote⟩ _ (List.mem_map_of_mem (suffix.subset listed))
  intro item member
  rcases List.mem_append.mp member with first | later
  · exact each commands (List.suffix_refl _) item first
  · obtain ⟨behind, listed, inside⟩ := List.mem_flatMap.mp later
    rcases List.mem_cons.mp inside with rfl | again
    · exact copyFail_writable
    · exact each behind (suffixes behind listed) item again

variable {Buffer : Type} {port : Port Buffer}

theorem catMessages_of_writable (serves : port.Serves) {messages : List Outgoing}
    (writable : ∀ item ∈ messages, item.Writable)
    : ∃ data, catMessages messages = some data ∧ port.catMessages messages = some data := by
  obtain ⟨data, wrote⟩ :=
    exists_catMessages_iff.mpr (fun item member => (writable item member).wrote)
  exact ⟨data, wrote, serves.catMessages (fun member => (writable _ member).typed rfl) wrote⟩

/-- The objects one by one are the bytes of all their messages: by induction on them. -/
theorem catMessages_flatten (serves : port.Serves) {objects : List (List Outgoing)}
    {parts : List Bytes}
    (each
      : List.Forall₂ (fun messages part => port.catMessages messages = some part) objects parts)
    (writable : ∀ item ∈ objects.flatten, item.Writable)
    : catMessages objects.flatten = some parts.flatten := by
  induction each with
  | nil => rfl
  | cons wrote _ ih =>
      rw [List.flatten_cons] at writable
      obtain ⟨data, one, same⟩ := catMessages_of_writable serves
        (fun item member => writable item (List.mem_append_left _ member))
      obtain rfl := Option.some.inj (wrote.symm.trans same)
      have others := ih (fun item member => writable item (List.mem_append_right _ member))
      exact catMessages_append one others

end Writing

-----------------------------------------------------------------------------------------
-- A conversation over a socket
-----------------------------------------------------------------------------------------

/-- What the socket brings is a conversation about the commands, with asynchronous messages
anywhere, and no invalid header.
-/
structure Brings (commands : List Command) (items : List Item) (socket : Socket) : Prop where
  conversation
    : Conversation commands items
  asked
    : commands ≠ []
  answered
    : ∀ command ∈ commands.head?, command.request ≠ .flush
  valid
    : (framing.drain socket.coming).error = none
  said
    : List.Forall₂ Says
        ((framing.drain socket.coming).messages.filter (fun message => ¬ Silent message)) items
  parses
    : ∀ message ∈ (framing.drain socket.coming).messages, ∀ cls,
        asynchronousMap message.typ = some cls
        → ∃ element, cls.parseData message.body = .ok element

/-- More than the transitions for the messages and the calls of the socket. -/
def Socket.passes (socket : Socket) : Nat :=
  4 * (framing.drain socket.coming).messages.length + socket.size + 3

/-- No item is a fatal error or one that the client has detected: by induction on them. -/
theorem foldl_note_outcome (items : List Item) {notes : Notes}
    (first : notes.fatal ≠ some true ∧ notes.errorMessage ≠ some .protocolError)
    : (items.foldl Item.note notes).fatal ≠ some true
      ∧ (items.foldl Item.note notes).errorMessage ≠ some .protocolError := by
  induction items generalizing notes with
  | nil => exact first
  | cons item rest ih =>
      cases item with
      | parsed r => exact ih first
      | error fields => exact ih ⟨by simp [Item.note], by simp [Item.note]⟩

section Conversing

variable {build : Build} {commands : List Command} {items : List Item} {socket : Socket}
  {count : Nat} {arrivals : Arrivals} {last : Party Instruction PutError}
  {left : List Message}

/-- However the messages are cut, a client that takes all of them completes. -/
theorem Brings.concludes (brings : Brings commands items socket)
    (whole : arrivals.flatten = (framing.drain socket.coming).messages) {fuel : Nat}
    (enough
      : 3 * (framing.drain socket.coming).messages.length + arrivals.length + 1 ≤ fuel)
    {client : Client} {unread : Arrivals}
    (ended
      : Client.complete build fuel (Client.start (Instruction.init commands)) arrivals
        = (client, unread))
    : client.xact.state = .complete ∧ client.xact.messagesReceived = received items
        ∧ client.xact.notes.outcome = (items.foldl Item.note {}).outcome
        ∧ ∀ message ∈ client.read ++ unread.flatten, Silent message := by
  have said := brings.said
  have parses := brings.parses
  rw [← whole] at said parses enough
  exact complete_conversation brings.conversation brings.asked brings.answered said parses
    enough ended

/-- No run of the party is longer than the client needs. -/
theorem Brings.count_le (brings : Brings commands items socket)
    (steps
      : Party.Steps (Instruction.transaction build) count
          (Party.start (Instruction.init commands)) arrivals last)
    (same : arrivals.flatten ++ left = (framing.drain socket.coming).messages)
    : count ≤ 4 * (framing.drain socket.coming).messages.length + 2 := by
  have shorter := steps.length_le
  have length := congrArg List.length same
  rw [List.length_append] at length
  have whole : (arrivals ++ [left]).flatten = (framing.drain socket.coming).messages :=
    List.flatten_concat.trans same
  have enough
      : 3 * (framing.drain socket.coming).messages.length + (arrivals ++ [left]).length + 1
        ≤ 4 * (framing.drain socket.coming).messages.length + 2 := by
    rw [List.length_append, List.length_singleton]
    omega
  exact steps.count_le (brings.concludes whole enough rfl).1

/-- A complete party is a client that has completed, with the rest unread. -/
theorem Brings.completes (brings : Brings commands items socket)
    (steps
      : Party.Steps (Instruction.transaction build) count
          (Party.start (Instruction.init commands)) arrivals last)
    (same : arrivals.flatten ++ left = (framing.drain socket.coming).messages)
    (completed : last.phase (Instruction.transaction build) = .complete)
    : last.client.xact.messagesReceived = received items
        ∧ last.client.xact.notes.outcome = (items.foldl Item.note {}).outcome
        ∧ ∀ message ∈ last.client.read ++ left, Silent message := by
  have whole : (arrivals ++ [left]).flatten = (framing.drain socket.coming).messages :=
    List.flatten_concat.trans same
  have stays : ∀ fuel, Client.complete build fuel last.client [left] = (last.client, [left]) := by
    intro fuel
    cases fuel with
    | zero => rfl
    | succ fuel => simp only [Client.complete, Party.client_complete.mpr completed]
  have run := steps.complete
    (3 * (framing.drain socket.coming).messages.length + (arrivals ++ [left]).length + 1) [left]
  rw [stays] at run
  obtain ⟨-, received, outcome, silent⟩ := brings.concludes whole (Nat.le_add_left _ _) run
  rw [List.flatten_singleton] at silent
  exact ⟨received, outcome, silent⟩

/-- A party that has taken everything does not wait for more. -/
theorem Brings.not_waiting (brings : Brings commands items socket)
    (steps
      : Party.Steps (Instruction.transaction build) count
          (Party.start (Instruction.init commands)) arrivals last)
    (same : arrivals.flatten = (framing.drain socket.coming).messages)
    (receiving : last.phase (Instruction.transaction build) = .receiving)
    : last.read ≠ [] := by
  intro empty
  obtain ⟨op, at_⟩ := Party.exists_receiving receiving
  have raised := Party.unraised (by rw [receiving]; decide)
  have run := steps.complete
    (3 * (framing.drain socket.coming).messages.length + arrivals.length + 1) []
  simp only [List.append_nil, Party.client_eq raised, empty, Client.complete, at_] at run
  have completed := (brings.concludes same (Nat.le_add_left _ _) run).1
  rw [at_] at completed
  cases completed

end Conversing

section Connecting

variable {Buffer : Type} {port : Port Buffer} {serves : port.Serves} {build : Build}
  {commands : List Command} {items : List Item} {conn : Connection Buffer Instruction PutError}
  {socket socket' : Socket} {party last : Party Instruction PutError} {pending rest : Bytes}

/-- What has been sent, with what is left of it to send: each command once, and refusals for
COPYs that the server has started.
-/
def Sends (commands : List Command) (conn : Connection Buffer Instruction PutError)
    (socket : Socket)
    : Prop :=
  ∃ refused : List (List Command),
    (∀ behind ∈ refused, behind <:+ commands)
    ∧ (refused ≠ [] → CopiesFrom conn.x.messagesReceived)
    ∧ catMessages (requests commands ++ refused.flatMap refusal)
      = some (socket.sent ++ conn.messageData)

/-- The transaction has ended with the conversation, and the connection is free for another
one: nothing is left to send, and only asynchronous messages are left to read.
-/
structure Concludes (serves : port.Serves) (items : List Item)
    (conn : Connection Buffer Instruction PutError) (socket : Socket)
    : Prop where
  alive
    : conn.failure = none
  complete
    : conn.x.state = .complete
  received
    : conn.x.messagesReceived = received items
  outcome
    : conn.x.notes.outcome = (items.foldl Item.note {}).outcome
  free
    : conn.busy = false
  session
    : ∀ xactState, conn.x.notes.lastReady = some xactState → conn.state = .xactState xactState
  written
    : conn.messageData = []
  unread
    : ∃ pending, serves.Holds conn.messageBuffer pending
      ∧ ∀ message ∈ conn.read ++ (framing.drain (pending ++ socket.coming)).messages,
          Silent message

theorem Wrote.exists_refused {x : Instruction} {written : List (List Outgoing)}
    (wrote : Wrote commands x written)
    (begun : written ≠ [] ∨ ∀ op, x.state ≠ .sending op)
    : ∃ refused : List (List Command),
        (∀ behind ∈ refused, behind <:+ commands)
        ∧ (refused ≠ [] → CopiesFrom x.messagesReceived)
        ∧ written.flatten = requests commands ++ refused.flatMap refusal := by
  cases wrote with
  | nothing empty _ starts =>
      rcases begun with some_ | unsent
      · exact absurd empty some_
      · exact absurd starts (unsent _)
  | begun refused suffixes same copies _ _ => exact ⟨refused, suffixes, copies, same⟩

theorem Instruction.sent_received (x : Instruction) (op : SentMethod)
    : (x.sent op).messagesReceived = x.messagesReceived := by
  cases op with
  | standardSent => rfl
  | sentFromStdin =>
      unfold Instruction.sent
      cases x.messages <;> rfl

/-- The bytes of a connection that writes, or has come to the end. -/
theorem Tracks.sends
    (tracks : Tracks serves (Instruction.transaction build) conn socket party pending)
    (alive : conn.failure = none) (offers : Offers commands party) {data : Bytes}
    (wrote : catMessages (requests commands) = some data)
    (begun
      : conn.writing.map Sequence.id = some conn.object
        ∨ party.phase (Instruction.transaction build) = .complete)
    : Sends commands conn socket := by
  obtain ⟨parts, each, sent⟩ := tracks.parts
  have phase := tracks.phase_eq alive
  have known : ∃ refused : List (List Command),
      (∀ behind ∈ refused, behind <:+ commands)
      ∧ (refused ≠ [] → CopiesFrom conn.x.messagesReceived)
      ∧ (party.written ++ conn.current (Instruction.transaction build)).flatten
        = requests commands ++ refused.flatMap refusal := by
    by_cases writes : conn.writing.map Sequence.id = some conn.object
    · have sending : conn.phase (Instruction.transaction build) = .sending := by
        rw [Connection.phase, alive]
        exact tracks.begun writes
      rw [phase] at sending
      obtain ⟨op, at_⟩ := Party.exists_sending sending
      have later := (offers.send sending).wrote.exists_refused (.inl (by simp [Party.send]))
      rw [Connection.current_begun writes, tracks.x]
      simpa only [Party.send, Instruction.transaction, at_, Instruction.sent_received] using later
    · have complete := begun.resolve_left writes
      have unsent : ∀ op, party.xact.state ≠ .sending op := by
        intro op at_
        simp [Party.phase, tracks.unraised alive, Instruction.transaction, Instruction.phase, at_] at complete
      rw [Connection.current_idle writes, List.append_nil, tracks.x]
      exact offers.wrote.exists_refused (.inr unsent)
  obtain ⟨refused, suffixes, copies, same⟩ := known
  refine ⟨refused, suffixes, copies, ?_⟩
  rw [← same, sent]
  refine catMessages_flatten serves each ?_
  rw [same]
  exact writable_of_wrote wrote suffixes

/-- The transaction never asks to write what cannot be written. -/
theorem Offers.writes (offers : Offers commands party) {data : Bytes}
    (wrote : catMessages (requests commands) = some data) (serves : port.Serves)
    (sending : party.phase (Instruction.transaction build) = .sending)
    : port.catMessages ((Instruction.transaction build).messages party.xact) ≠ none := by
  obtain ⟨refused, suffixes, -, same⟩ :=
    (offers.send sending).wrote.exists_refused (.inl (by simp [Party.send]))
  have writable := writable_of_wrote wrote suffixes
  rw [← same] at writable
  have last : ∀ item ∈ (Instruction.transaction build).messages party.xact, item.Writable :=
    fun item member => writable item (by simp [Party.send, member])
  obtain ⟨part, -, wrote⟩ := catMessages_of_writable serves last
  simp [wrote]

theorem Party.phase_of_raised {error : PutError} (raised : party.raised = some error)
    : party.phase (Instruction.transaction build) = .complete := by
  simp [Party.phase, raised]

theorem Reached.same {count : Nat} {arrivals : Arrivals} {start : Party Instruction PutError}
    (reached
      : Reached serves (Instruction.transaction build) start [] socket count arrivals last rest
          conn socket')
    : arrivals.flatten ++ (framing.drain (rest ++ socket'.coming)).messages
      = (framing.drain socket.coming).messages :=
  (congrArg Taken.messages reached.drained).symm

/-- The connection that has come to the end with its transaction. -/
theorem Brings.finishes (brings : Brings commands items socket) {count : Nat}
    {arrivals : Arrivals}
    (reached
      : Reached serves (Instruction.transaction build)
          (Party.start (Instruction.init commands)) [] socket count arrivals last rest conn
          socket')
    (alive : conn.failure = none)
    (done : last.phase (Instruction.transaction build) = .complete)
    : Concludes serves items (conn.finish (Instruction.transaction build)) socket' := by
  have tracks := reached.tracks
  have raised := tracks.unraised alive
  obtain ⟨received, outcome, silent⟩ := brings.completes reached.steps reached.same done
  have complete := Party.client_complete.mpr done
  rw [Party.client_eq raised] at received outcome silent complete
  have idle : conn.writing.map Sequence.id ≠ some conn.object := by
    intro begun
    have sending := tracks.begun begun
    rw [tracks.x] at sending
    simp [Party.phase, raised, sending] at done
  have notFatal : (items.foldl Item.note {}).fatal ≠ some true :=
    (foldl_note_outcome items (by simp)).1
  have fatal : conn.x.notes.fatal ≠ some true := by
    rw [tracks.x]
    exact fun same => notFatal ((congrArg Prod.fst outcome).symm.trans same)
  refine ⟨alive, ?_, ?_, ?_, ?_, ?_, tracks.idle idle, rest, tracks.holds, ?_⟩
  · exact (congrArg Instruction.state tracks.x).trans complete
  · exact (congrArg Instruction.messagesReceived tracks.x).trans received
  · exact (congrArg (fun x : Instruction => x.notes.outcome) tracks.x).trans outcome
  · simp [Connection.finish, Connection.fatal, Instruction.transaction, alive, fatal]
  · intro xactState ready
    have known : conn.x.notes.lastReady = some xactState := ready
    simp [Connection.finish, Instruction.transaction, known]
  · have read : (conn.finish (Instruction.transaction build)).read = last.read := tracks.read
    rw [read]
    exact silent

end Connecting

/-- A query that starts a COPY from the client, which the client refuses. -/
def refusedCopy : List Item :=
  [
    .parsed (.element (.copyBegin .from 0 [])),
    .error [([char 'S'], [69, 82, 82, 79, 82])],
    .parsed (.element (.ready .idle))
  ]

/-- The answers in pieces, and sends that are cut; both sides are interrupted. -/
def refusedSocket : Socket where
  recvs :=
    [
      .data [71, 0, 0],
      .raises (.error ⟨some .eagain, none⟩),
      .data [0, 7, 0, 0, 0, 69, 0, 0, 0],
      .raises .interrupt,
      .data [12, 83, 69, 82, 82, 79, 82, 0, 0, 90, 0, 0, 0, 5, 73]
    ]
  sends := [.took 2, .raises (.error ⟨some .eintr, none⟩), .took 9, .raises .interrupt, .took 30]
  sent := []

end PgCluster.Postgresql
