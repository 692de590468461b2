import PgCluster.Foundation.Objects

/-! Messages cut out of a stream that arrives in pieces: the reading rule of a format, and
the object that buffers what was written and hands out the complete messages.
-/

namespace Foundation

/-- What the front of a stream is found to be. -/
inductive Reading (Item Message Error : Type*) where
  | incomplete
  | invalid (error : Error)
  | message (message : Message) (rest : List Item)

/-- A format of messages. What is recognized stays recognized when more items arrive. -/
structure Framing (Item Message Error : Type*) where
  read : List Item → Reading Item Message Error
  shrinks
    : ∀ {pending message rest},
        read pending = .message message rest → rest.length < pending.length
  message_append
    : ∀ {pending message rest},
        read pending = .message message rest
        → ∀ more, read (pending ++ more) = .message message (rest ++ more)
  invalid_append
    : ∀ {pending error},
        read pending = .invalid error → ∀ more, read (pending ++ more) = .invalid error

/-- Messages from the front of a stream, what is left, and the error that stands first
there.
-/
structure Taken (Item Message Error : Type*) where
  messages : List Message
  rest : List Item
  error : Option Error

namespace Framing

variable {Item Message Error : Type*} (framing : Framing Item Message Error)

/-- At most the given number of messages. -/
def take : Nat → List Item → Taken Item Message Error
  | 0, pending => ⟨[], pending, none⟩
  | limit + 1, pending =>
      match framing.read pending with
      | .incomplete => ⟨[], pending, none⟩
      | .invalid error => ⟨[], pending, some error⟩
      | .message message rest =>
          let later := take limit rest
          ⟨message :: later.messages, later.rest, later.error⟩

/-- All complete messages of the stream. -/
def drain (pending : List Item) : Taken Item Message Error :=
  framing.take (pending.length + 1) pending

variable {framing}

theorem take_incomplete {pending : List Item} (read : framing.read pending = .incomplete)
    (limit : Nat)
    : framing.take limit pending = ⟨[], pending, none⟩ := by
  cases limit with
  | zero => rfl
  | succ limit => simp [take, read]

theorem take_invalid {pending : List Item} {error : Error}
    (read : framing.read pending = .invalid error) (limit : Nat)
    : framing.take (limit + 1) pending = ⟨[], pending, some error⟩ := by
  simp [take, read]

theorem take_message {pending rest : List Item} {message : Message}
    (read : framing.read pending = .message message rest) (limit : Nat)
    : framing.take (limit + 1) pending
      = ⟨message :: (framing.take limit rest).messages, (framing.take limit rest).rest,
          (framing.take limit rest).error⟩ := by
  simp [take, read]

/-- No limit beyond the length of the stream matters, by induction on the limit. -/
theorem take_of_lt {limit : Nat} {pending : List Item} (enough : pending.length < limit)
    (other : Nat) (also : pending.length < other)
    : framing.take limit pending = framing.take other pending := by
  induction limit generalizing pending other with
  | zero => omega
  | succ limit ih =>
      obtain ⟨other, rfl⟩ : ∃ less, other = less + 1 := ⟨other - 1, by omega⟩
      cases read : framing.read pending with
      | incomplete => rw [take_incomplete read, take_incomplete read]
      | invalid error => rw [take_invalid read, take_invalid read]
      | message message rest =>
          have less := framing.shrinks read
          rw [take_message read, take_message read, ih (by omega) other (by omega)]

theorem take_eq_drain {limit : Nat} {pending : List Item} (enough : pending.length < limit)
    : framing.take limit pending = framing.drain pending :=
  take_of_lt enough _ (Nat.lt_succ_self _)

theorem drain_incomplete {pending : List Item} (read : framing.read pending = .incomplete)
    : framing.drain pending = ⟨[], pending, none⟩ :=
  take_incomplete read _

theorem drain_invalid {pending : List Item} {error : Error}
    (read : framing.read pending = .invalid error)
    : framing.drain pending = ⟨[], pending, some error⟩ :=
  take_invalid read _

theorem drain_message {pending rest : List Item} {message : Message}
    (read : framing.read pending = .message message rest)
    : framing.drain pending
      = ⟨message :: (framing.drain rest).messages, (framing.drain rest).rest,
          (framing.drain rest).error⟩ := by
  have less := framing.shrinks read
  rw [drain, take_message read, take_eq_drain less]

/-- An error stops in front of what cannot be read, by induction on the limit. -/
theorem read_of_take_error {limit : Nat} {pending : List Item} {error : Error}
    (stopped : (framing.take limit pending).error = some error)
    : framing.read (framing.take limit pending).rest = .invalid error := by
  induction limit generalizing pending with
  | zero => simp [take] at stopped
  | succ limit ih =>
      cases read : framing.read pending with
      | incomplete => simp [take_incomplete read] at stopped
      | invalid other =>
          rw [take_invalid read] at stopped ⊢
          rw [read, Option.some.inj stopped]
      | message message rest =>
          rw [take_message read] at stopped ⊢
          exact ih stopped

theorem take_rest_length (limit : Nat) (pending : List Item)
    : (framing.take limit pending).rest.length ≤ pending.length := by
  induction limit generalizing pending with
  | zero => exact Nat.le_refl _
  | succ limit ih =>
      cases read : framing.read pending with
      | incomplete => simp [take_incomplete read]
      | invalid error => simp [take_invalid read]
      | message message rest =>
          rw [take_message read]
          exact Nat.le_trans (ih rest) (Nat.le_of_lt (framing.shrinks read))

/-- Without an error, no limit beyond the number of messages matters: by induction on the
limit.
-/
theorem take_of_count {limit : Nat} {pending : List Item}
    (valid : (framing.drain pending).error = none)
    (enough : (framing.drain pending).messages.length ≤ limit)
    : framing.take limit pending = framing.drain pending := by
  induction limit generalizing pending with
  | zero =>
      cases read : framing.read pending with
      | incomplete => rw [take_incomplete read, drain_incomplete read]
      | invalid error => simp [drain_invalid read] at valid
      | message message rest => simp [drain_message read] at enough
  | succ limit ih =>
      cases read : framing.read pending with
      | incomplete => rw [take_incomplete read, drain_incomplete read]
      | invalid error => rw [take_invalid read, drain_invalid read]
      | message message rest =>
          rw [drain_message read] at valid enough
          rw [take_message read, drain_message read,
            ih valid (Nat.le_of_succ_le_succ enough)]

/-- What was taken does not change when more arrives, by induction on the limit. -/
theorem drain_append_take (limit : Nat) (pending more : List Item)
    : framing.drain (pending ++ more)
      = ⟨(framing.take limit pending).messages
            ++ (framing.drain ((framing.take limit pending).rest ++ more)).messages,
          (framing.drain ((framing.take limit pending).rest ++ more)).rest,
          (framing.drain ((framing.take limit pending).rest ++ more)).error⟩ := by
  induction limit generalizing pending with
  | zero => simp [take]
  | succ limit ih =>
      cases read : framing.read pending with
      | incomplete => simp [take_incomplete read]
      | invalid error => simp [take_invalid read]
      | message message rest =>
          rw [drain_message (framing.message_append read more), take_message read, ih rest]
          simp

theorem drain_append (pending more : List Item)
    : framing.drain (pending ++ more)
      = ⟨(framing.drain pending).messages
            ++ (framing.drain ((framing.drain pending).rest ++ more)).messages,
          (framing.drain ((framing.drain pending).rest ++ more)).rest,
          (framing.drain ((framing.drain pending).rest ++ more)).error⟩ :=
  drain_append_take _ pending more

/-- Encoded messages at the front are read back, by induction on them. -/
theorem drain_encoded (framing : Framing Item Message Error)
    {encode : Message → List Item} {messages : List Message}
    (reads
      : ∀ message ∈ messages, ∀ more,
          framing.read (encode message ++ more) = .message message more)
    (more : List Item)
    : framing.drain (messages.flatMap encode ++ more)
      = ⟨messages ++ (framing.drain more).messages, (framing.drain more).rest,
          (framing.drain more).error⟩ := by
  induction messages with
  | nil => simp
  | cons message rest ih =>
      have first := reads message List.mem_cons_self (rest.flatMap encode ++ more)
      rw [List.flatMap_cons, List.append_assoc, drain_message first,
        ih (fun other member => reads other (List.mem_cons_of_mem _ member))]
      rfl

end Framing

-----------------------------------------------------------------------------------------
-- The buffer
-----------------------------------------------------------------------------------------

inductive StreamCall (Item : Type*) where
  | write (data : List Item)
  | truncate
  | hasMessage
  | len
  | nextMessage
  | next
  | read (limit : Option Nat)
  | getvalue

inductive StreamReply (Item Message Error : Type*) where
  | nothing
  | flag (value : Bool)
  | count (value : Nat)
  | message (message : Message)
  | stop
  | messages (messages : List Message)
  | data (data : List Item)
  | raises (error : Error)
deriving DecidableEq

/-- The messages that a reply hands out. -/
def StreamReply.delivered {Item Message Error : Type*}
    : StreamReply Item Message Error → List Message
  | .message one => [one]
  | .messages all => all
  | _ => []

/-- What a call adds to the stream. -/
def StreamCall.written {Item : Type*} : StreamCall Item → List Item
  | .write data => data
  | _ => []

namespace Framing

variable {Item Message Error : Type*} (framing : Framing Item Message Error)

/-- The message at the front, taken off; `none` is the reply when there is none. -/
def pop (pending : List Item) (absent : StreamReply Item Message Error)
    : List Item × StreamReply Item Message Error :=
  match framing.read pending with
  | .incomplete => (pending, absent)
  | .invalid error => (pending, .raises error)
  | .message message rest => (rest, .message message)

/-- Messages taken off, unless an error stands among them: then everything stays. -/
def popAll (pending : List Item) (taken : Taken Item Message Error)
    : List Item × StreamReply Item Message Error :=
  match taken.error with
  | some error => (pending, .raises error)
  | none => (taken.rest, .messages taken.messages)

/-- The buffer by its purpose: the items written and not yet handed out. A read without a
limit takes at most the given number of messages.
-/
def stream (most : Nat)
    : Object (List Item) (StreamCall Item) (StreamReply Item Message Error) where
  start := []
  answer pending
    | .write data => (pending ++ data, .nothing)
    | .truncate => ([], .nothing)
    | .hasMessage =>
        match framing.read pending with
        | .incomplete => (pending, .flag false)
        | .invalid error => (pending, .raises error)
        | .message _ _ => (pending, .flag true)
    | .len =>
        match (framing.drain pending).error with
        | some error => (pending, .raises error)
        | none => (pending, .count (framing.drain pending).messages.length)
    | .nextMessage => framing.pop pending .nothing
    | .next => framing.pop pending .stop
    | .read limit => popAll pending (framing.take (limit.getD most) pending)
    | .getvalue => (pending, .data pending)

variable {framing}

theorem stream_read (framing : Framing Item Message Error) (most : Nat)
    (pending : List Item) (limit : Option Nat)
    : (framing.stream most).answer pending (.read limit)
      = popAll pending (framing.take (limit.getD most) pending) :=
  rfl

/-- What is popped is the first message of the stream as it will be. -/
theorem drain_pop (pending more : List Item) {absent : StreamReply Item Message Error}
    (none : absent.delivered = [])
    : framing.drain (pending ++ more)
      = ⟨(framing.pop pending absent).2.delivered
            ++ (framing.drain ((framing.pop pending absent).1 ++ more)).messages,
          (framing.drain ((framing.pop pending absent).1 ++ more)).rest,
          (framing.drain ((framing.pop pending absent).1 ++ more)).error⟩ := by
  unfold pop
  cases read : framing.read pending with
  | incomplete => simp [none]
  | invalid error => simp [StreamReply.delivered]
  | message message rest =>
      simp [drain_message (framing.message_append read more), StreamReply.delivered]

theorem drain_popAll (limit : Nat) (pending more : List Item)
    : framing.drain (pending ++ more)
      = ⟨(popAll pending (framing.take limit pending)).2.delivered
            ++ (framing.drain
                ((popAll pending (framing.take limit pending)).1 ++ more)).messages,
          (framing.drain ((popAll pending (framing.take limit pending)).1 ++ more)).rest,
          (framing.drain ((popAll pending (framing.take limit pending)).1 ++ more)).error⟩ := by
  cases error : (framing.take limit pending).error with
  | some error => simp [popAll, error, StreamReply.delivered]
  | none =>
      simp only [popAll, error, StreamReply.delivered]
      exact drain_append_take limit pending more

/-- No call but truncate loses or repeats a message of the stream as it will be. -/
theorem drain_answer (most : Nat) {pending : List Item} {call : StreamCall Item}
    (keeps : call ≠ .truncate) (more : List Item)
    : framing.drain (pending ++ (call.written ++ more))
      = ⟨((framing.stream most).answer pending call).2.delivered
            ++ (framing.drain (((framing.stream most).answer pending call).1 ++ more)).messages,
          (framing.drain (((framing.stream most).answer pending call).1 ++ more)).rest,
          (framing.drain (((framing.stream most).answer pending call).1 ++ more)).error⟩ := by
  cases call with
  | write data => simp [stream, StreamCall.written, StreamReply.delivered]
  | truncate => exact absurd rfl keeps
  | hasMessage =>
      cases read : framing.read pending
        <;> simp [stream, StreamCall.written, read, StreamReply.delivered]
  | len =>
      cases error : (framing.drain pending).error
        <;> simp [stream, StreamCall.written, error, StreamReply.delivered]
  | nextMessage => exact drain_pop pending more rfl
  | next => exact drain_pop pending more rfl
  | read limit => exact drain_popAll (limit.getD most) pending more
  | getvalue => simp [stream, StreamCall.written, StreamReply.delivered]

/-- Along a run the messages handed out, followed by those still held, are the messages of
everything that was written: by induction on the calls.
-/
theorem drain_written (framing : Framing Item Message Error) (most : Nat)
    {calls : List (StreamCall Item)} (keep : .truncate ∉ calls) (pending : List Item)
    : framing.drain (pending ++ calls.flatMap StreamCall.written)
      = ⟨((framing.stream most).replies pending calls).flatMap StreamReply.delivered
            ++ (framing.drain ((framing.stream most).after pending calls)).messages,
          (framing.drain ((framing.stream most).after pending calls)).rest,
          (framing.drain ((framing.stream most).after pending calls)).error⟩ := by
  induction calls generalizing pending with
  | nil => simp
  | cons call rest ih =>
      have here : call ≠ .truncate := fun same => keep (same ▸ List.mem_cons_self)
      have later : .truncate ∉ rest := fun member => keep (List.mem_cons_of_mem _ member)
      rw [List.flatMap_cons, drain_answer most here, ih later, Object.replies_cons,
        Object.after_cons, List.flatMap_cons, List.append_assoc]

end Framing

end Foundation
