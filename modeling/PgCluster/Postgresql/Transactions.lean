import PgCluster.Postgresql.Conversations

/-! What a connection asks of its transaction, and the runs of a transaction over the lists
of messages that arrive: a request is such a transaction, and its runs are the client's.
-/

namespace PgCluster.Postgresql

open Foundation

-----------------------------------------------------------------------------------------
-- Transactions and their parties
-----------------------------------------------------------------------------------------

inductive Phase where
  | sending
  | receiving
  | complete
deriving DecidableEq

/-- What `last_ready` is read into: the `state` of a connection. -/
inductive SessionState where
  /-- `'INITIALIZED'`. -/
  | initialized
  /-- `b''`, behind a protocol error. -/
  | unknown
  | null
  | xactState (state : XactState)
  /-- The Ready message itself. -/
  | ready (element : Element)
deriving DecidableEq

/-- `state`, `messages`, the operations of the state, and the attributes that are read when
it is complete. `put` takes a list object and tells how many messages were taken.
-/
structure Transaction (Xact Error : Type) where
  phase : Xact → Phase
  messages : Xact → List Outgoing
  sent : Xact → Xact
  put : Xact → Batch → Xact × Except Error Nat
  /-- None where the attribute is missing. -/
  lastReady : Xact → Option SessionState
  fatal : Xact → Bool

/-- A transaction, the messages it has not taken, the `messages` objects that were written,
and the exception that has ended it.
-/
structure Party (Xact Error : Type) where
  xact : Xact
  read : List Message
  written : List (List Outgoing)
  fresh : Nat
  raised : Option Error

section Parties

variable {Xact Error : Type} (transaction : Transaction Xact Error)

namespace Party

def start (xact : Xact) : Party Xact Error := ⟨xact, [], [], 0, none⟩

def phase (party : Party Xact Error) : Phase :=
  if party.raised.isSome then .complete else transaction.phase party.xact

def send (party : Party Xact Error) : Party Xact Error :=
  { party with
    xact := transaction.sent party.xact
    written := party.written ++ [transaction.messages party.xact] }

def receive (party : Party Xact Error) : Party Xact Error :=
  match transaction.put party.xact ⟨party.fresh, party.read⟩ with
  | (xact, .ok count) =>
      { party with xact := xact, read := party.read.drop count, fresh := party.fresh + 1 }
  | (xact, .error error) => { party with xact := xact, raised := some error }

/-- Transitions of a party, with the lists that arrive along them. Messages are asked for
when none are left.
-/
inductive Steps : Nat → Party Xact Error → Arrivals → Party Xact Error → Prop where
  | nil {party : Party Xact Error} : Steps 0 party [] party
  | send {party last : Party Xact Error} {arrivals : Arrivals} {count : Nat}
      (sending : party.phase transaction = .sending)
      (later : Steps count (party.send transaction) arrivals last)
    : Steps (count + 1) party arrivals last
  | take {party last : Party Xact Error} {chunk : List Message} {arrivals : Arrivals}
      {count : Nat} (receiving : party.phase transaction = .receiving)
      (empty : party.read = []) (some : chunk ≠ [])
      (later : Steps count { party with read := chunk } arrivals last)
    : Steps (count + 1) party (chunk :: arrivals) last
  | receive {party last : Party Xact Error} {arrivals : Arrivals} {count : Nat}
      (receiving : party.phase transaction = .receiving) (some : party.read ≠ [])
      (later : Steps count (party.receive transaction) arrivals last)
    : Steps (count + 1) party arrivals last

variable {transaction}

theorem Steps.trans {first second : Nat} {party middle last : Party Xact Error}
    {front back : Arrivals} (before : Steps transaction first party front middle)
    (behind : Steps transaction second middle back last)
    : Steps transaction (first + second) party (front ++ back) last := by
  induction before with
  | nil => simpa using behind
  | send sending _ ih => rw [Nat.add_right_comm]; exact .send sending (ih behind)
  | take receiving empty some _ ih =>
      rw [Nat.add_right_comm]
      exact .take receiving empty some (ih behind)
  | receive receiving some _ ih =>
      rw [Nat.add_right_comm]
      exact .receive receiving some (ih behind)

/-- No list that arrives is empty. -/
theorem Steps.length_le {count : Nat} {party last : Party Xact Error} {arrivals : Arrivals}
    (steps : Steps transaction count party arrivals last)
    : arrivals.length ≤ arrivals.flatten.length := by
  induction steps with
  | nil => exact Nat.le_refl _
  | send _ _ ih => exact ih
  | take _ _ some _ ih =>
      have positive := List.length_pos_iff.mpr some
      simp only [List.length_cons, List.flatten_cons, List.length_append]
      omega
  | receive _ _ _ ih => exact ih

/-- What every transition keeps holds behind the run: by induction on the transitions. -/
theorem Steps.invariant {property : Party Xact Error → Prop}
    (sends
      : ∀ party, property party → party.phase transaction = .sending
        → property (party.send transaction))
    (takes
      : ∀ party chunk, property party → party.phase transaction = .receiving
        → party.read = [] → property { party with read := chunk })
    (receives
      : ∀ party, property party → party.phase transaction = .receiving → party.read ≠ []
        → property (party.receive transaction))
    {count : Nat} {party last : Party Xact Error} {arrivals : Arrivals}
    (steps : Steps transaction count party arrivals last) (holds : property party)
    : property last := by
  induction steps with
  | nil => exact holds
  | send sending _ ih => exact ih (sends _ holds sending)
  | take receiving empty _ _ ih => exact ih (takes _ _ holds receiving empty)
  | receive receiving some _ ih => exact ih (receives _ holds receiving some)

end Party

end Parties

-----------------------------------------------------------------------------------------
-- Requests
-----------------------------------------------------------------------------------------

def Instruction.phase (x : Instruction) : Phase :=
  match x.state with
  | .sending _ => .sending
  | .receiving _ => .receiving
  | .complete => .complete

/-- The request messages with their responses. -/
def Instruction.transaction (build : Build) : Transaction Instruction PutError where
  phase := Instruction.phase
  messages := Instruction.outgoing
  sent x :=
    match x.state with
    | .sending op => x.sent op
    | _ => x
  put x batch :=
    match x.state with
    | .receiving op => x.put build op batch
    | _ => (x, .error .typeError)
  lastReady x := x.notes.lastReady.map SessionState.xactState
  fatal x := x.notes.fatal = some true

/-- The client of the party. -/
def Party.client (party : Party Instruction PutError) : Client :=
  let client := ⟨party.xact, party.read, party.written.flatten, party.fresh⟩
  match party.raised with
  | none => client
  | some error => client.failed party.xact error

section Clients

variable {build : Build} {party last : Party Instruction PutError}

theorem Party.unraised (phase : party.phase (Instruction.transaction build) ≠ .complete)
    : party.raised = none := by
  cases raised : party.raised with
  | none => rfl
  | some error => exact absurd (by simp [Party.phase, raised]) phase

/-- Outside of its end the party is its client. -/
theorem Party.client_eq (raised : party.raised = none)
    : party.client = ⟨party.xact, party.read, party.written.flatten, party.fresh⟩ := by
  simp only [Party.client, raised]

theorem Party.exists_sending
    (sending : party.phase (Instruction.transaction build) = .sending)
    : ∃ op, party.xact.state = .sending op := by
  have raised := Party.unraised (by rw [sending]; decide)
  simp only [Party.phase, raised, Instruction.transaction, Instruction.phase] at sending
  cases at_ : party.xact.state with
  | sending op => exact ⟨op, rfl⟩
  | receiving op => simp [at_] at sending
  | complete => simp [at_] at sending

theorem Party.exists_receiving
    (receiving : party.phase (Instruction.transaction build) = .receiving)
    : ∃ op, party.xact.state = .receiving op := by
  have raised := Party.unraised (by rw [receiving]; decide)
  simp only [Party.phase, raised, Instruction.transaction, Instruction.phase] at receiving
  cases at_ : party.xact.state with
  | receiving op => exact ⟨op, rfl⟩
  | sending op => simp [at_] at receiving
  | complete => simp [at_] at receiving

theorem Party.client_complete
    : party.client.xact.state = .complete
      ↔ party.phase (Instruction.transaction build) = .complete := by
  cases raised : party.raised with
  | some error => simp [Party.client, raised, Party.phase, Client.failed]
  | none =>
      simp only [Party.client, raised, Party.phase, Instruction.transaction, Instruction.phase]
      cases at_ : party.xact.state <;> simp

theorem Party.client_send {op : SentMethod} (raised : party.raised = none)
    (at_ : party.xact.state = .sending op)
    : (party.send (Instruction.transaction build)).client = party.client.send op := by
  simp only [Party.client, Party.send, raised, Client.send, Instruction.transaction, at_,
    List.flatten_append, List.flatten_singleton]

theorem Party.client_receive {op : PutMethod} (raised : party.raised = none)
    (at_ : party.xact.state = .receiving op)
    : (party.receive (Instruction.transaction build)).client
      = party.client.receive build op := by
  rw [Party.client_eq raised]
  simp only [Party.receive, Client.receive, Instruction.transaction, at_]
  split
  next put => simp only [put, Party.client, raised]
  next put => simp only [put, Party.client]; rfl

theorem Party.complete_send
    (sending : party.phase (Instruction.transaction build) = .sending) (fuel : Nat)
    (arrivals : Arrivals)
    : Client.complete build (fuel + 1) party.client arrivals
      = Client.complete build fuel (party.send (Instruction.transaction build)).client
          arrivals := by
  obtain ⟨op, at_⟩ := Party.exists_sending sending
  have raised := Party.unraised (by rw [sending]; decide)
  rw [Party.client_send raised at_]
  simp only [Party.client_eq raised, Client.complete, at_]

theorem Party.complete_take
    (receiving : party.phase (Instruction.transaction build) = .receiving)
    (empty : party.read = []) (fuel : Nat) (chunk : List Message) (arrivals : Arrivals)
    : Client.complete build (fuel + 1) party.client (chunk :: arrivals)
      = Client.complete build fuel { party with read := chunk }.client arrivals := by
  obtain ⟨op, at_⟩ := Party.exists_receiving receiving
  have raised := Party.unraised (by rw [receiving]; decide)
  have taken : { party with read := chunk }.client
      = ⟨party.xact, chunk, party.written.flatten, party.fresh⟩ :=
    Party.client_eq raised
  rw [taken]
  simp only [Party.client_eq raised, empty, Client.complete, at_]

theorem Party.complete_receive
    (receiving : party.phase (Instruction.transaction build) = .receiving)
    (some : party.read ≠ []) (fuel : Nat) (arrivals : Arrivals)
    : Client.complete build (fuel + 1) party.client arrivals
      = Client.complete build fuel (party.receive (Instruction.transaction build)).client
          arrivals := by
  obtain ⟨op, at_⟩ := Party.exists_receiving receiving
  have raised := Party.unraised (by rw [receiving]; decide)
  obtain ⟨message, others, read⟩ := List.exists_cons_of_ne_nil some
  rw [Party.client_receive raised at_]
  simp only [Party.client_eq raised, read, Client.complete, at_]

/-- The transitions of a party are those of its client, by induction on them. -/
theorem Party.Steps.complete {count : Nat} {arrivals : Arrivals}
    (steps : Party.Steps (Instruction.transaction build) count party arrivals last)
    (fuel : Nat) (rest : Arrivals)
    : Client.complete build (count + fuel) party.client (arrivals ++ rest)
      = Client.complete build fuel last.client rest := by
  induction steps with
  | nil => rw [Nat.zero_add, List.nil_append]
  | send sending _ ih => rw [Nat.add_right_comm, Party.complete_send sending, ih]
  | take receiving empty _ _ ih =>
      rw [Nat.add_right_comm, List.cons_append, Party.complete_take receiving empty, ih]
  | receive receiving some _ ih =>
      rw [Nat.add_right_comm, Party.complete_receive receiving some, ih]

/-- A run is not longer than the client needs for what arrives: by induction on it. -/
theorem Party.Steps.count_le {count : Nat} {arrivals : Arrivals}
    (steps : Party.Steps (Instruction.transaction build) count party arrivals last)
    {fuel : Nat} {rest : Arrivals}
    (completed
      : (Client.complete build fuel party.client (arrivals ++ rest)).1.xact.state = .complete)
    : count ≤ fuel := by
  induction steps generalizing fuel with
  | nil => exact Nat.zero_le _
  | send sending _ ih =>
      cases fuel with
      | zero => exact absurd ((Party.client_complete).mp completed) (by rw [sending]; decide)
      | succ fuel =>
          rw [Party.complete_send sending] at completed
          exact Nat.succ_le_succ (ih completed)
  | take receiving empty _ _ ih =>
      cases fuel with
      | zero => exact absurd ((Party.client_complete).mp completed) (by rw [receiving]; decide)
      | succ fuel =>
          rw [List.cons_append, Party.complete_take receiving empty] at completed
          exact Nat.succ_le_succ (ih completed)
  | receive receiving some _ ih =>
      cases fuel with
      | zero => exact absurd ((Party.client_complete).mp completed) (by rw [receiving]; decide)
      | succ fuel =>
          rw [Party.complete_receive receiving some] at completed
          exact Nat.succ_le_succ (ih completed)

end Clients

end PgCluster.Postgresql
