import PgCluster.Foundation.BigEndian

/-! Where a stream of messages stands, byte by byte: between messages, inside a header of a
type and a size of four bytes, or inside a body. The size counts itself.
-/

namespace Foundation

/-- Which types and sizes belong to the stream. -/
structure SizedStream where
  belongs : UInt8 → Bool
  valid : Nat → Bool
  valid_ge
    : ∀ {size}, valid size = true → 4 ≤ size

/-- The place in a stream. -/
inductive StreamPlace where
  | between
  /-- Behind the type, with the first bytes of the size. -/
  | header (fragment : Bytes)
  /-- With so many bytes of the body to come. -/
  | body (remaining : Nat)
  /-- From a type that does not belong to the stream on. -/
  | ended (view : Bytes)
  /-- Behind a size that is not valid. -/
  | invalid
deriving DecidableEq

namespace StreamPlace

/-- A header is not complete, and a body has an end. -/
def Reached : StreamPlace → Prop
  | .header fragment => fragment.length < 4
  | .body remaining => 0 < remaining
  | .invalid => False
  | _ => True

/-- A body has less than so many bytes to come. -/
def Within (bound : Nat) : StreamPlace → Prop
  | .body remaining => remaining < bound
  | _ => True

def isEnded : StreamPlace → Bool
  | .ended _ => true
  | _ => false

theorem between_reached : Reached .between := trivial

theorem between_within (bound : Nat) : Within bound .between := trivial

end StreamPlace

namespace SizedStream

variable (stream : SizedStream)

/-- The place behind a size with so many bytes of it already read. -/
def placed (remaining : Nat) : StreamPlace × Nat :=
  if remaining = 0 then (.between, 1) else (.body remaining, 0)

/-- One byte: the next place, and the number of completed messages. -/
def next : StreamPlace → UInt8 → StreamPlace × Nat
  | .between, byte => if stream.belongs byte then (.header [], 0) else (.ended [byte], 0)
  | .header fragment, byte =>
      if (fragment ++ [byte]).length < 4 then (.header (fragment ++ [byte]), 0)
      else
        let size := BigEndian.ofBytes (fragment ++ [byte])
        if stream.valid size then placed (size - 4) else (.invalid, 0)
  | .body remaining, _ => placed (remaining - 1)
  | .ended view, byte => (.ended (view ++ [byte]), 0)
  | .invalid, _ => (.invalid, 0)

/-- Any number of bytes. -/
def run (place : StreamPlace) : Bytes → StreamPlace × Nat
  | [] => (place, 0)
  | byte :: rest =>
      let later := run (stream.next place byte).1 rest
      (later.1, (stream.next place byte).2 + later.2)

/-- From a message of which so many bytes are to come. -/
def skip (remaining : Nat) (bytes : Bytes) : StreamPlace × Nat :=
  if remaining ≤ bytes.length then
    let later := stream.run .between (bytes.drop remaining)
    (later.1, later.2 + 1)
  else (.body (remaining - bytes.length), 0)

variable {stream}

@[simp] theorem run_nil (place : StreamPlace) : stream.run place [] = (place, 0) := rfl

theorem run_cons (place : StreamPlace) (byte : UInt8) (rest : Bytes)
    : stream.run place (byte :: rest)
      = ((stream.run (stream.next place byte).1 rest).1,
          (stream.next place byte).2 + (stream.run (stream.next place byte).1 rest).2) :=
  rfl

/-- The pieces of a stream do not matter, by induction on the first one. -/
theorem run_append (place : StreamPlace) (first second : Bytes)
    : stream.run place (first ++ second)
      = ((stream.run (stream.run place first).1 second).1,
          (stream.run place first).2 + (stream.run (stream.run place first).1 second).2) := by
  induction first generalizing place with
  | nil => simp
  | cons byte rest ih =>
      rw [List.cons_append, run_cons, ih, run_cons]
      simp [Nat.add_assoc]

theorem placed_reached (remaining : Nat) : (placed remaining).1.Reached := by
  unfold placed
  split
  next => trivial
  next some => exact Nat.pos_of_ne_zero some

theorem run_ended (view bytes : Bytes)
    : stream.run (.ended view) bytes = (.ended (view ++ bytes), 0) := by
  induction bytes generalizing view with
  | nil => simp
  | cons byte rest ih => simp [run_cons, next, ih]

theorem run_invalid (bytes : Bytes) : stream.run .invalid bytes = (.invalid, 0) := by
  induction bytes with
  | nil => rfl
  | cons byte rest ih => simp [run_cons, next, ih]

theorem next_reached {place : StreamPlace} (reached : place.Reached) {byte : UInt8}
    (valid : (stream.next place byte).1 ≠ .invalid)
    : (stream.next place byte).1.Reached := by
  cases place with
  | between =>
      rw [next]
      split
      · exact Nat.zero_lt_succ 3
      · trivial
  | header fragment =>
      dsimp only [next] at valid ⊢
      split
      next more => exact more
      next whole =>
          rw [if_neg whole] at valid
          split
          next => exact placed_reached _
          next unfit => exact absurd (by rw [if_neg unfit]) valid
  | body remaining => exact placed_reached _
  | ended view => trivial
  | invalid => exact absurd reached not_false

/-- What every byte keeps, unless it completes a size that is not valid: by induction on the
bytes.
-/
theorem run_keeps {property : StreamPlace → Prop}
    (kept
      : ∀ {place byte},
          property place → (stream.next place byte).1 ≠ .invalid
          → property (stream.next place byte).1)
    {place : StreamPlace} (holds : property place) {bytes : Bytes}
    (valid : (stream.run place bytes).1 ≠ .invalid)
    : property (stream.run place bytes).1 := by
  induction bytes generalizing place with
  | nil => exact holds
  | cons byte rest ih =>
      rw [run_cons] at valid ⊢
      refine ih (kept holds (fun lost => valid ?_)) valid
      rw [lost, run_invalid]

theorem run_reached {place : StreamPlace} (reached : place.Reached) {bytes : Bytes}
    (valid : (stream.run place bytes).1 ≠ .invalid)
    : (stream.run place bytes).1.Reached :=
  run_keeps (fun kept lost => next_reached kept lost) reached valid

/-- A body is not longer than the sizes allow. -/
theorem run_within {bound : Nat} (within : ∀ {size}, stream.valid size = true → size < bound)
    {place : StreamPlace} (inside : place.Within bound) {bytes : Bytes}
    (valid : (stream.run place bytes).1 ≠ .invalid)
    : (stream.run place bytes).1.Within bound := by
  have small {size less : Nat} (fits : size < bound) : (placed (size - less)).1.Within bound := by
    unfold placed
    split
    next => trivial
    next => exact Nat.lt_of_le_of_lt (Nat.sub_le _ _) fits
  refine run_keeps (fun {place byte} inside valid => ?_) inside valid
  cases place with
  | between =>
      rw [next]
      split <;> trivial
  | header fragment =>
      dsimp only [next] at valid ⊢
      split
      next => trivial
      next whole =>
          split
          next fits => exact small (within fits)
          next => trivial
  | body remaining => exact small inside
  | ended view => trivial
  | invalid => trivial

/-- Every completed message takes a byte, by induction on the bytes. -/
theorem run_count_le (place : StreamPlace) (bytes : Bytes)
    : (stream.run place bytes).2 ≤ bytes.length := by
  have one (place : StreamPlace) (byte : UInt8) : (stream.next place byte).2 ≤ 1 := by
    have last (remaining : Nat) : (placed remaining).2 ≤ 1 := by
      unfold placed
      split
      · exact Nat.le_refl 1
      · exact Nat.zero_le 1
    cases place with
    | between =>
        rw [next]
        split <;> exact Nat.zero_le 1
    | header fragment =>
        dsimp only [next]
        split
        next => exact Nat.zero_le 1
        next =>
            split
            next => exact last _
            next => exact Nat.zero_le 1
    | body remaining => exact last _
    | ended view => exact Nat.zero_le 1
    | invalid => exact Nat.zero_le 1
  induction bytes generalizing place with
  | nil => exact Nat.le_refl 0
  | cons byte rest ih =>
      rw [run_cons, List.length_cons, Nat.add_comm]
      exact Nat.add_le_add (ih _) (one place byte)

/-- A type that does not belong ends the stream. -/
theorem run_stranger {byte : UInt8} (stranger : stream.belongs byte = false) (rest : Bytes)
    : stream.run .between (byte :: rest) = (.ended (byte :: rest), 0) := by
  simp [run_cons, next, stranger, run_ended]

/-- The body of a message, by induction on the bytes. -/
theorem run_body {remaining : Nat} (some : 0 < remaining) (bytes : Bytes)
    : stream.run (.body remaining) bytes = stream.skip remaining bytes := by
  induction bytes generalizing remaining with
  | nil => simp [skip, Nat.ne_of_gt some]
  | cons byte rest ih =>
      rw [run_cons, next, placed]
      split
      next last =>
          obtain rfl : remaining = 1 := by omega
          simp [skip, Nat.add_comm]
      next more =>
          rw [ih (Nat.pos_of_ne_zero more)]
          simp only [skip, List.length_cons]
          obtain ⟨less, rfl⟩ : ∃ less, remaining = less + 1 := ⟨remaining - 1, by omega⟩
          simp only [Nat.add_sub_cancel, Nat.add_le_add_iff_right, List.drop_succ_cons,
            Nat.add_sub_add_right]
          split <;> simp

/-- Behind a valid size the rest of the message is skipped. -/
theorem run_placed (remaining : Nat) (bytes : Bytes)
    : ((stream.run (placed remaining).1 bytes).1,
        (placed remaining).2 + (stream.run (placed remaining).1 bytes).2)
      = stream.skip remaining bytes := by
  unfold placed
  split
  next none => simp [none, skip, Nat.add_comm]
  next some => simp [run_body (Nat.pos_of_ne_zero some)]

/-- A header that is not completed. -/
theorem run_header_short {fragment bytes : Bytes} (short : fragment.length + bytes.length < 4)
    : stream.run (.header fragment) bytes = (.header (fragment ++ bytes), 0) := by
  induction bytes generalizing fragment with
  | nil => simp
  | cons byte rest ih =>
      rw [List.length_cons] at short
      have more : (fragment ++ [byte]).length < 4 := by
        rw [List.length_append, List.length_singleton]
        omega
      have later := @ih (fragment ++ [byte])
        (by rw [List.length_append, List.length_singleton]; omega)
      rw [run_cons, next, if_pos more, later]
      simp

/-- A header that is completed, by induction on the bytes: what is left of the message
counts from the first of them.
-/
theorem run_header {fragment bytes : Bytes} (open_ : fragment.length < 4)
    (enough : 4 ≤ fragment.length + bytes.length)
    : stream.run (.header fragment) bytes
      = if stream.valid (BigEndian.ofBytes (fragment ++ bytes.take (4 - fragment.length))) then
          stream.skip
            (BigEndian.ofBytes (fragment ++ bytes.take (4 - fragment.length)) - fragment.length)
            bytes
        else (.invalid, 0) := by
  induction bytes generalizing fragment with
  | nil => simp at enough; omega
  | cons byte rest ih =>
      rw [List.length_cons] at enough
      have grown : (fragment ++ [byte]).length = fragment.length + 1 := by simp
      have taken : fragment ++ (byte :: rest).take (4 - fragment.length)
          = (fragment ++ [byte]) ++ rest.take (4 - (fragment ++ [byte]).length) := by
        obtain ⟨less, more⟩ : ∃ less, 4 - fragment.length = less + 1 :=
          ⟨3 - fragment.length, by omega⟩
        rw [grown, more, List.take_succ_cons, List.append_assoc, List.singleton_append]
        congr 3
        omega
      rw [taken, run_cons, next]
      split
      next more =>
          rw [ih more (by rw [grown]; omega)]
          split
          next valid =>
              have least := stream.valid_ge valid
              simp only [Nat.zero_add]
              generalize BigEndian.ofBytes _ = size at least
              obtain ⟨left, same⟩ : ∃ left, size - fragment.length = left + 1 :=
                ⟨size - fragment.length - 1, by omega⟩
              rw [grown, same, show size - (fragment.length + 1) = left by omega]
              simp only [skip, List.length_cons, Nat.add_le_add_iff_right, List.drop_succ_cons,
                Nat.add_sub_add_right]
          next => simp
      next whole =>
          have last : fragment.length = 3 := by omega
          rw [grown, last]
          simp only [Nat.sub_self, List.take_zero, List.append_nil]
          split
          next valid =>
              have least := stream.valid_ge valid
              rw [run_placed]
              generalize BigEndian.ofBytes _ = size at least
              obtain ⟨left, rfl⟩ : ∃ left, size = left + 4 := ⟨size - 4, by omega⟩
              simp only [skip, Nat.add_sub_cancel, List.length_cons,
                show left + 4 - 3 = left + 1 by omega, Nat.add_le_add_iff_right,
                List.drop_succ_cons, Nat.add_sub_add_right]
          next => simp [run_invalid]

/-- A whole message from its type on. -/
theorem run_message {byte : UInt8} (belongs : stream.belongs byte = true) {rest : Bytes}
    (enough : 4 ≤ rest.length)
    : stream.run .between (byte :: rest)
      = if stream.valid (BigEndian.ofBytes (rest.take 4)) then
          stream.skip (BigEndian.ofBytes (rest.take 4) + 1) (byte :: rest)
        else (.invalid, 0) := by
  rw [run_cons, next, if_pos belongs]
  simp only
  rw [run_header (by simp) (by simpa using enough)]
  simp only [List.nil_append, List.length_nil, Nat.sub_zero]
  split
  · simp only [skip, List.length_cons, Nat.add_le_add_iff_right, List.drop_succ_cons,
      Nat.add_sub_add_right, Nat.zero_add]
  · rfl

/-- The beginning of a message whose header is not complete. -/
theorem run_message_short {byte : UInt8} (belongs : stream.belongs byte = true) {rest : Bytes}
    (short : rest.length < 4)
    : stream.run .between (byte :: rest) = (.header rest, 0) := by
  rw [run_cons, next, if_pos belongs]
  simp only
  rw [run_header_short (by simpa using short)]
  simp

theorem placed_isEnded (remaining : Nat) : (placed remaining).1.isEnded = false := by
  unfold placed
  split <;> rfl

/-- Only a type between messages ends a stream. -/
theorem next_isEnded {place : StreamPlace} (going : place.isEnded = false) {byte : UInt8}
    (ended : (stream.next place byte).1.isEnded = true)
    : place = .between ∧ stream.next place byte = (.ended [byte], 0) := by
  cases place with
  | between =>
      rw [next] at ended ⊢
      split at ended
      next => exact absurd ended Bool.noConfusion
      next stranger => exact ⟨rfl, by rw [if_neg stranger]⟩
  | header fragment =>
      dsimp only [next] at ended
      split at ended
      next => exact absurd ended Bool.noConfusion
      next =>
          split at ended
          next => exact absurd (placed_isEnded _ ▸ ended) Bool.noConfusion
          next => exact absurd ended Bool.noConfusion
  | body remaining => exact absurd (placed_isEnded _ ▸ ended) Bool.noConfusion
  | ended view => exact absurd going Bool.noConfusion
  | invalid => exact absurd ended Bool.noConfusion

/-- A stream ends between messages, by induction on the bytes. -/
theorem exists_run_ended {place : StreamPlace} (going : place.isEnded = false)
    {bytes view : Bytes} (ended : (stream.run place bytes).1 = .ended view)
    : ∃ before,
        bytes = before ++ view
        ∧ stream.run place before = (.between, (stream.run place bytes).2) := by
  induction bytes generalizing place with
  | nil =>
      obtain rfl : place = .ended view := ended
      exact absurd going Bool.noConfusion
  | cons byte rest ih =>
      rw [run_cons] at ended ⊢
      cases after : (stream.next place byte).1.isEnded with
      | false =>
          obtain ⟨before, same, run⟩ := ih after ended
          refine ⟨byte :: before, by rw [same]; rfl, ?_⟩
          rw [run_cons, run]
      | true =>
          obtain ⟨rfl, here⟩ := next_isEnded going after
          rw [here] at ended ⊢
          rw [run_ended] at ended ⊢
          obtain rfl : byte :: rest = view := StreamPlace.ended.inj ended
          exact ⟨[], rfl, rfl⟩

theorem run_concat (place : StreamPlace) (bytes : Bytes) (byte : UInt8)
    : stream.run place (bytes ++ [byte])
      = ((stream.next (stream.run place bytes).1 byte).1,
          (stream.run place bytes).2 + (stream.next (stream.run place bytes).1 byte).2) := by
  rw [run_append, run_cons]
  simp

-----------------------------------------------------------------------------------------
-- The messages of a stream
-----------------------------------------------------------------------------------------

/-- A message by its type and body. -/
def frame (message : UInt8 × Bytes) : Bytes :=
  message.1 :: BigEndian.toBytes 4 (message.2.length + 4) ++ message.2

def IsMessage (stream : SizedStream) (message : UInt8 × Bytes) : Prop :=
  stream.belongs message.1 = true ∧ stream.valid (message.2.length + 4) = true
  ∧ message.2.length + 4 < 256 ^ 4

/-- The bytes since the last whole message, by the place they lead to. -/
def Begun (stream : SizedStream) (bytes : Bytes) : StreamPlace → Prop
  | .between => bytes = []
  | .header fragment => ∃ typ, stream.belongs typ = true ∧ bytes = typ :: fragment
  | .body remaining =>
      ∃ typ head,
        stream.belongs typ = true ∧ stream.valid (head.length + remaining + 4) = true
        ∧ head.length + remaining + 4 < 256 ^ 4
        ∧ bytes = typ :: BigEndian.toBytes 4 (head.length + remaining + 4) ++ head
  | .ended view => bytes = view
  | .invalid => False

/-- Whole messages, and what is begun behind them. -/
def Spelled (stream : SizedStream) (bytes : Bytes) (place : StreamPlace × Nat) : Prop :=
  ∃ (messages : List (UInt8 × Bytes)) (begun : Bytes),
    (∀ message ∈ messages, stream.IsMessage message) ∧ messages.length = place.2
    ∧ stream.Begun begun place.1 ∧ bytes = messages.flatMap frame ++ begun

/-- With its last byte a begun message is whole. -/
theorem begun_placed {typ : UInt8} {head : Bytes} {remaining : Nat}
    (belongs : stream.belongs typ = true)
    (valid : stream.valid (head.length + remaining + 4) = true)
    (fits : head.length + remaining + 4 < 256 ^ 4)
    : stream.Spelled (typ :: BigEndian.toBytes 4 (head.length + remaining + 4) ++ head)
        (placed remaining) := by
  unfold placed
  split
  next none =>
      subst none
      refine ⟨[(typ, head)], [], ?_, rfl, rfl, by simp [frame]⟩
      intro message member
      rw [List.mem_singleton] at member
      subst member
      exact ⟨belongs, valid, fits⟩
  next some => exact ⟨[], _, by simp, rfl, ⟨typ, head, belongs, valid, fits, rfl⟩, by simp⟩

/-- What one byte adds to the begun message. -/
theorem begun_next {place : StreamPlace} {bytes : Bytes} (reached : place.Reached)
    (begun : stream.Begun bytes place) {byte : UInt8}
    (valid : (stream.next place byte).1 ≠ .invalid)
    : stream.Spelled (bytes ++ [byte]) (stream.next place byte) := by
  cases place with
  | between =>
      obtain rfl : bytes = [] := begun
      rw [next]
      split
      next belongs => exact ⟨[], [byte], by simp, rfl, ⟨byte, belongs, rfl⟩, rfl⟩
      next => exact ⟨[], [byte], by simp, rfl, rfl, rfl⟩
  | header fragment =>
      obtain ⟨typ, belongs, rfl⟩ := begun
      have few : fragment.length < 4 := reached
      dsimp only [next] at valid ⊢
      split
      next => exact ⟨[], typ :: (fragment ++ [byte]), by simp, rfl, ⟨typ, belongs, rfl⟩, rfl⟩
      next whole =>
          rw [if_neg whole] at valid
          have four : (fragment ++ [byte]).length = 4 := by
            simp only [List.length_append, List.length_singleton] at whole ⊢
            omega
          split
          next fits =>
              have least := stream.valid_ge fits
              have most := BigEndian.ofBytes_lt (fragment ++ [byte])
              have spelled := BigEndian.toBytes_ofBytes (fragment ++ [byte])
              rw [four] at most spelled
              generalize BigEndian.ofBytes (fragment ++ [byte]) = size at *
              obtain ⟨left, rfl⟩ : ∃ left, size = left + 4 := ⟨size - 4, by omega⟩
              obtain ⟨messages, begun, whole, count, open_, same⟩ :=
                @begun_placed stream typ [] left belongs (by simpa using fits)
                  (by simpa using most)
              refine ⟨messages, begun, whole, ?_, ?_, ?_⟩
              · rw [count, Nat.add_sub_cancel]
              · rwa [Nat.add_sub_cancel]
              · rw [← same, List.length_nil, Nat.zero_add, spelled]
                simp
          next unfit => exact absurd (by rw [if_neg unfit]) valid
  | body remaining =>
      obtain ⟨typ, head, belongs, fits, small, rfl⟩ := begun
      have some : 0 < remaining := reached
      obtain ⟨less, rfl⟩ : ∃ less, remaining = less + 1 := ⟨remaining - 1, by omega⟩
      have length : (head ++ [byte]).length + less = head.length + (less + 1) := by
        rw [List.length_append, List.length_singleton]
        omega
      obtain ⟨messages, begun, whole, count, open_, same⟩ :=
        @begun_placed stream typ (head ++ [byte]) less belongs (by rwa [length])
          (by rwa [length])
      refine ⟨messages, begun, whole, count, open_, ?_⟩
      rw [← same, length]
      simp
  | ended view =>
      obtain rfl : bytes = view := begun
      exact ⟨[], bytes ++ [byte], by simp, rfl, rfl, rfl⟩
  | invalid => exact absurd reached not_false

/-- A stream is whole messages and a begun one, by induction from its end. -/
theorem run_spelled {bytes : Bytes} (valid : (stream.run .between bytes).1 ≠ .invalid)
    : stream.Spelled bytes (stream.run .between bytes) := by
  induction bytes using List.reverseRecOn with
  | nil => exact ⟨[], [], by simp, rfl, rfl, rfl⟩
  | append_singleton bytes byte ih =>
      rw [run_concat] at valid ⊢
      have before : (stream.run .between bytes).1 ≠ .invalid := by
        intro lost
        rw [lost] at valid
        exact valid rfl
      obtain ⟨messages, begun, whole, count, open_, rfl⟩ := ih before
      obtain ⟨more, rest, also, many, last, same⟩ :=
        begun_next (run_reached StreamPlace.between_reached before) open_ valid
      refine ⟨messages ++ more, rest, ?_, ?_, last, ?_⟩
      · intro message member
        exact (List.mem_append.mp member).elim (whole message) (also message)
      · rw [List.length_append, count, many]
      · rw [List.append_assoc, same, List.flatMap_append, List.append_assoc]

-----------------------------------------------------------------------------------------
-- Loops over views
-----------------------------------------------------------------------------------------

/-- A loop that skips whole messages, from within a message of which so many bytes are to
come, behind so many messages.
-/
structure Scanner (stream : SizedStream) (Result : Type*) where
  loop : Nat → Bytes → Nat → Result
  result : StreamPlace → Nat → Result
  finished
    : ∀ {remaining view count},
        0 < remaining → remaining ≤ view.length
        → loop remaining view count = loop 0 (view.drop remaining) (count + 1)
  unfinished
    : ∀ {remaining view count},
        view.length < remaining
        → loop remaining view count = result (.body (remaining - view.length)) count
  nothing
    : ∀ {count}, loop 0 [] count = result .between count
  stranger
    : ∀ {byte rest count},
        stream.belongs byte = false
        → loop 0 (byte :: rest) count = result (.ended (byte :: rest)) count
  header_short
    : ∀ {byte rest count},
        stream.belongs byte = true → rest.length < 4
        → loop 0 (byte :: rest) count = result (.header rest) count
  header
    : ∀ {byte rest count},
        stream.belongs byte = true → 4 ≤ rest.length
        → stream.valid (BigEndian.ofBytes (rest.take 4)) = true
        → loop 0 (byte :: rest) count
          = loop (BigEndian.ofBytes (rest.take 4) + 1) (byte :: rest) count

namespace Scanner

variable {Result : Type*} (scanner : Scanner stream Result)

theorem loop_skip {remaining : Nat} (some : 0 < remaining) {view : Bytes} {count : Nat}
    (valid : (stream.skip remaining view).1 ≠ .invalid)
    (behind
      : (stream.run .between (view.drop remaining)).1 ≠ .invalid
        → scanner.loop 0 (view.drop remaining) (count + 1)
          = scanner.result (stream.run .between (view.drop remaining)).1
              (count + 1 + (stream.run .between (view.drop remaining)).2))
    : scanner.loop remaining view count
      = scanner.result (stream.skip remaining view).1
          (count + (stream.skip remaining view).2) := by
  unfold skip at valid ⊢
  split
  next enough =>
      rw [if_pos enough] at valid
      rw [scanner.finished some enough, behind valid, Nat.add_assoc, Nat.add_comm 1]
  next more => rw [scanner.unfinished (Nat.lt_of_not_le more), Nat.add_zero]

/-- The loop from between the messages, by strong induction on the view: it stops at the end
of the stream, within a header or within a body, or a whole message is behind it.
-/
theorem loop_between {view : Bytes} (valid : (stream.run .between view).1 ≠ .invalid)
    (count : Nat)
    : scanner.loop 0 view count
      = scanner.result (stream.run .between view).1
          (count + (stream.run .between view).2) := by
  induction length : view.length using Nat.strong_induction_on generalizing view count with
  | _ total ih =>
      subst length
      cases view with
      | nil => exact scanner.nothing
      | cons byte rest =>
          cases belongs : stream.belongs byte with
          | false =>
              rw [run_stranger belongs]
              exact scanner.stranger belongs
          | true =>
              rcases Nat.lt_or_ge rest.length 4 with short | enough
              · rw [run_message_short belongs short]
                exact scanner.header_short belongs short
              · rw [run_message belongs enough] at valid ⊢
                split at valid
                next fits =>
                    rw [if_pos fits, scanner.header belongs enough fits]
                    refine scanner.loop_skip (Nat.succ_pos _) valid (fun valid => ?_)
                    refine ih _ ?_ valid _ rfl
                    rw [List.length_drop, List.length_cons]
                    omega
                next => exact absurd rfl valid

theorem loop_inside {remaining : Nat} (some : 0 < remaining) {view : Bytes}
    (valid : (stream.skip remaining view).1 ≠ .invalid) (count : Nat)
    : scanner.loop remaining view count
      = scanner.result (stream.skip remaining view).1
          (count + (stream.skip remaining view).2) :=
  scanner.loop_skip some valid (fun behind => scanner.loop_between behind _)

end Scanner

end SizedStream

end Foundation
