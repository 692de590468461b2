import PgCluster.Foundation.Objects
import PgCluster.Foundation.SizedStream
import PgCluster.Postgresql.OptimizedBuffer

/-! The state of the wire during COPY, in Python and in the extension: both tell of every view
how many messages it completes, and where the wire stands behind it.
-/

namespace PgCluster.Postgresql

open Foundation

/-- `CopyData.type`. -/
def copyDataType : UInt8 := 100

/-- The default condition in Python, and the only one in C: the type of no COPY data. -/
def notCopyData (typ : UInt8) : Bool := typ != copyDataType

inductive WireError where
  | runtimeError (text : String)
  | valueError (text : String)
  | attributeError (text : String)
deriving DecidableEq

/-- What update returns, and the attributes behind it. -/
structure WireReply where
  nmessages : Nat
  remainingBytes : Int
  sizeFragment : Bytes
  finalView : Option Bytes
deriving DecidableEq

/-- COPY data whose messages have a size that fits uint32_t with the type. -/
def copyStream : SizedStream where
  belongs typ := !notCopyData typ
  valid size := decide (4 ≤ size ∧ size + 1 < 2 ^ 32)
  valid_ge valid := (of_decide_eq_true valid).1

theorem copyStream_bound {size : Nat} (valid : copyStream.valid size = true)
    : size < 2 ^ 32 :=
  Nat.lt_of_succ_lt (of_decide_eq_true valid).2

-----------------------------------------------------------------------------------------
-- WireState in Python
-----------------------------------------------------------------------------------------

structure WireState where
  remainingBytes : Int
  sizeFragment : Bytes
  finalView : Option Bytes
deriving DecidableEq

namespace WireState

def init : WireState := ⟨0, [], none⟩

/-- The variables of a round of update. -/
structure Round where
  remainingBytes : Nat
  vlen : Nat
  view : Bytes
  nmessages : Nat

/-- Inside a message body. -/
def Round.body (round : Round) : Round :=
  if round.remainingBytes ≠ 0 then
    let view := round.view.drop round.remainingBytes
    if round.remainingBytes ≤ round.vlen then
      ⟨0, round.vlen - round.remainingBytes, view, round.nmessages + 1⟩
    else ⟨round.remainingBytes - round.vlen, 0, view, round.nmessages⟩
  else round

theorem Round.body_zero {vlen : Nat} {view : Bytes} {nmessages : Nat}
    : Round.body ⟨0, vlen, view, nmessages⟩ = ⟨0, vlen, view, nmessages⟩ :=
  rfl

/-- A round that leaves bytes has consumed some, unless it began between messages. -/
theorem Round.body_lt {round : Round} {typ : UInt8} {rest : Bytes}
    (left : round.body.view = typ :: rest)
    : 2 * (typ :: rest).length
      < 2 * round.view.length + if round.remainingBytes = 0 then 1 else 0 := by
  unfold body at left
  split at left
  next some =>
      have shorter : (round.view.drop round.remainingBytes).length = (typ :: rest).length := by
        split at left <;> exact congrArg List.length left
      rw [List.length_drop, List.length_cons] at shorter
      rw [if_neg some, List.length_cons]
      omega
  next none => rw [left, if_pos (not_not.mp none)]; omega

/-- The loop of update: the new state and the number of messages. -/
def updateLoop (condition : UInt8 → Bool) (sizeFragment : Bytes) (round : Round)
    : WireState × Nat :=
  match left : round.body.view with
  | [] => (⟨round.body.remainingBytes, sizeFragment, none⟩, round.body.nmessages)
  | typ :: rest =>
      if condition typ then
        (⟨round.body.remainingBytes, sizeFragment, some (typ :: rest)⟩, round.body.nmessages)
      else if round.body.vlen < 5 then
        (⟨-1, sizeFragment ++ rest, none⟩, round.body.nmessages)
      else
        updateLoop condition sizeFragment
          ⟨BigEndian.ofBytes (rest.take 4) + 1, round.body.vlen, typ :: rest,
            round.body.nmessages⟩
termination_by 2 * round.view.length + if round.remainingBytes = 0 then 1 else 0
decreasing_by
  simpa only [Nat.succ_ne_zero, if_false, Nat.add_zero] using Round.body_lt left

/-- A header that is continued, as far as the view reaches: the remaining bytes, the size
fragment.
-/
def continueHeader (state : WireState) (view : Bytes) : Int × Bytes :=
  if state.remainingBytes = -1 then
    let o := state.sizeFragment.length
    let sizeFragment := state.sizeFragment ++ view.take (4 - o)
    if sizeFragment.length = 4 then ((BigEndian.ofBytes sizeFragment : Int) - o, [])
    else (state.remainingBytes, sizeFragment)
  else (state.remainingBytes, state.sizeFragment)

def update (condition : UInt8 → Bool) (state : WireState) (view : Bytes)
    : WireState × Except WireError WireReply :=
  if state.finalView.isSome then
    (state, .error (.runtimeError "wire state encountered exceptional condition"))
  else
    let header := state.continueHeader view
    let updated :=
      if 0 ≤ header.1 then
        updateLoop condition header.2 ⟨header.1.toNat, view.length, view, 0⟩
      else (⟨header.1, header.2, none⟩, 0)
    (updated.1, .ok ⟨updated.2, updated.1.remainingBytes, updated.1.sizeFragment,
      updated.1.finalView⟩)

-----------------------------------------------------------------------------------------
-- The place of the wire
-----------------------------------------------------------------------------------------

/-- The state at a place of the stream. -/
def ofPlace : StreamPlace → WireState
  | .between => ⟨0, [], none⟩
  | .header fragment => ⟨-1, fragment, none⟩
  | .body remaining => ⟨remaining, [], none⟩
  | .ended view => ⟨0, [], some view⟩
  | .invalid => ⟨0, [], none⟩

/-- What is seen behind a part of the stream. -/
def reply (place : StreamPlace × Nat) : WireReply :=
  let state := ofPlace place.1
  ⟨place.2, state.remainingBytes, state.sizeFragment, state.finalView⟩

section Loop

variable {stream : SizedStream} {condition : UInt8 → Bool}

/-- A round by what its first part leaves. -/
theorem updateLoop_round {round left : Round} (body : round.body = left)
    : updateLoop condition [] round
      = match left.view with
        | [] => (⟨left.remainingBytes, [], none⟩, left.nmessages)
        | typ :: rest =>
            if condition typ then
              (⟨left.remainingBytes, [], some (typ :: rest)⟩, left.nmessages)
            else if left.vlen < 5 then (⟨-1, rest, none⟩, left.nmessages)
            else
              updateLoop condition []
                ⟨BigEndian.ofBytes (rest.take 4) + 1, left.vlen, typ :: rest,
                  left.nmessages⟩ := by
  subst body
  rw [updateLoop]
  split <;> simp_all

/-- The loop skips whole messages. -/
def scanner (stream : SizedStream) : stream.Scanner (WireState × Nat) where
  loop remaining view nmessages :=
    updateLoop (fun typ => !stream.belongs typ) [] ⟨remaining, view.length, view, nmessages⟩
  result place nmessages := (ofPlace place, nmessages)
  finished {remaining view nmessages} some enough := by
    have body : Round.body ⟨remaining, view.length, view, nmessages⟩
        = Round.body ⟨0, (view.drop remaining).length, view.drop remaining, nmessages + 1⟩ := by
      simp [Round.body, Nat.ne_of_gt some, enough]
    rw [updateLoop_round body, updateLoop_round rfl]
  unfinished {remaining view nmessages} short := by
    have body : Round.body ⟨remaining, view.length, view, nmessages⟩
        = ⟨remaining - view.length, 0, [], nmessages⟩ := by
      simp [Round.body, Nat.ne_of_gt (Nat.zero_lt_of_lt short), Nat.not_le_of_lt short,
        List.drop_of_length_le (Nat.le_of_lt short)]
    rw [updateLoop_round body]
    rfl
  nothing := updateLoop_round Round.body_zero
  stranger {typ rest nmessages} stranger := by
    rw [updateLoop_round Round.body_zero]
    simp only [stranger]
    rfl
  header_short {typ rest nmessages} belongs short := by
    have few : (typ :: rest).length < 5 := Nat.succ_lt_succ short
    rw [updateLoop_round Round.body_zero]
    simp only [belongs, if_pos few]
    rfl
  header {typ rest nmessages} belongs enough fits := by
    have many : ¬ (typ :: rest).length < 5 := Nat.not_lt_of_le (Nat.succ_le_succ enough)
    rw [updateLoop_round Round.body_zero]
    simp only [belongs, if_neg many, Bool.not_true, if_neg Bool.false_ne_true]

theorem continueHeader_header (fragment view : Bytes)
    : continueHeader (ofPlace (.header fragment)) view
      = if (fragment ++ view.take (4 - fragment.length)).length = 4 then
          ((BigEndian.ofBytes (fragment ++ view.take (4 - fragment.length)) : Int)
            - fragment.length, [])
        else (-1, fragment ++ view.take (4 - fragment.length)) :=
  rfl

theorem continueHeader_short {fragment view : Bytes}
    (short : fragment.length + view.length < 4)
    : continueHeader (ofPlace (.header fragment)) view = (-1, fragment ++ view) := by
  have all : view.take (4 - fragment.length) = view := List.take_of_length_le (by omega)
  have incomplete : (fragment ++ view).length ≠ 4 := by
    rw [List.length_append]
    omega
  rw [continueHeader_header, all, if_neg incomplete]

theorem continueHeader_whole {fragment view : Bytes} (few : fragment.length < 4)
    (enough : 4 ≤ fragment.length + view.length)
    (least : 4 ≤ BigEndian.ofBytes (fragment ++ view.take (4 - fragment.length)))
    : continueHeader (ofPlace (.header fragment)) view
      = (Int.ofNat
            (BigEndian.ofBytes (fragment ++ view.take (4 - fragment.length)) - fragment.length),
          []) := by
  have whole : (fragment ++ view.take (4 - fragment.length)).length = 4 := by
    rw [List.length_append, List.length_take]
    omega
  rw [continueHeader_header, if_pos whole, Int.ofNat_eq_natCast, Int.ofNat_sub (by omega)]

/-- What update replies behind the header. -/
theorem update_of_loop {state : WireState} {view : Bytes} {remaining : Nat}
    {place : StreamPlace × Nat} (going : state.finalView = none)
    (header : state.continueHeader view = (Int.ofNat remaining, []))
    (looped
      : updateLoop condition [] ⟨remaining, view.length, view, 0⟩
        = (ofPlace place.1, 0 + place.2))
    : update condition state view = (ofPlace place.1, .ok (reply place)) := by
  rw [Nat.zero_add] at looped
  simp [update, going, header, looped, reply]

/-- Every view moves the state to its new place in the stream. -/
theorem update_ofPlace {place : StreamPlace} (reached : place.Reached)
    (going : place.isEnded = false) {view : Bytes}
    (valid : (stream.run place view).1 ≠ .invalid)
    : update (fun typ => !stream.belongs typ) (ofPlace place) view
      = (ofPlace (stream.run place view).1, .ok (reply (stream.run place view))) := by
  cases place with
  | between => exact update_of_loop rfl rfl ((scanner stream).loop_between valid 0)
  | header fragment =>
      rcases Nat.lt_or_ge (fragment.length + view.length) 4 with short | enough
      · rw [SizedStream.run_header_short short]
        rw [update, continueHeader_short short]
        rfl
      · rw [SizedStream.run_header reached enough] at valid ⊢
        split at valid
        next fits =>
            have least := stream.valid_ge fits
            rw [if_pos fits]
            exact update_of_loop rfl (continueHeader_whole reached enough least)
              ((scanner stream).loop_inside
                (Nat.sub_pos_of_lt (Nat.lt_of_lt_of_le reached least)) valid 0)
        next => exact absurd rfl valid
  | body remaining =>
      rw [SizedStream.run_body reached] at valid ⊢
      have positive : (remaining : Int) ≠ -1 := by omega
      have header : continueHeader (ofPlace (.body remaining)) view
          = (Int.ofNat remaining, []) :=
        if_neg positive
      exact update_of_loop rfl header ((scanner stream).loop_inside reached valid 0)
  | ended ended => exact absurd going Bool.noConfusion
  | invalid => exact absurd reached not_false

end Loop

end WireState

-----------------------------------------------------------------------------------------
-- WireState of the extension
-----------------------------------------------------------------------------------------

/-- The continuation is negative outside of a header. -/
structure Wirestate where
  /-- The bytes of the header fragment that were read. -/
  sizeFragment : Bytes
  finalView : Option Bytes
  remainingBytes : Nat
  continuation : Int
deriving DecidableEq

namespace Wirestate

def wsNew : Wirestate := ⟨[], none, 0, -1⟩

def wsSizeFragment (ws : Wirestate) : Bytes :=
  ws.sizeFragment.take (if ws.continuation ≤ 0 then 0 else ws.continuation.toNat)

def wsRemainingBytes (ws : Wirestate) : Int :=
  if ws.continuation = -1 then ws.remainingBytes else -1

def wsFinalView (ws : Wirestate) : Option Bytes := ws.finalView

/-- The variables of a round of ws_update. -/
structure Scan where
  remainingBytes : Nat
  position : Nat
  nmessages : Nat

def Scan.body (len : Nat) (scan : Scan) : Scan :=
  if scan.remainingBytes > 0 then
    let position := scan.position + scan.remainingBytes
    if position > len then ⟨uint32 (position - len), len, scan.nmessages⟩
    else ⟨0, position, uint32 (scan.nmessages + 1)⟩
  else scan

def invalidMessageHeader : WireError :=
  .valueError "message header contained an invalid size"

/-- A round that leaves bytes has consumed some, unless it began between messages. -/
theorem Scan.body_lt {len : Nat} {scan : Scan} (left : (scan.body len).position < len)
    : 2 * (len - (scan.body len).position)
      < 2 * (len - scan.position) + if scan.remainingBytes = 0 then 1 else 0 := by
  unfold body at left ⊢
  split at left
  next some =>
      rw [if_pos some, if_neg (Nat.ne_of_gt some)]
      dsimp only at left ⊢
      split at left
      next => exact absurd left (Nat.lt_irrefl _)
      next inside =>
          rw [if_neg inside]
          dsimp only
          omega
  next none =>
      rw [if_neg none, if_pos (Nat.eq_zero_of_not_pos none)]
      exact Nat.lt_succ_self _

/-- The loop of ws_update: the new state and the number of messages. -/
def wsLoop (buf : Bytes) (scan : Scan) : Except WireError (Wirestate × Nat) :=
  let body := scan.body buf.length
  match left : buf.drop body.position with
  | [] => .ok (⟨[], none, body.remainingBytes, -1⟩, body.nmessages)
  | msgtype :: rest =>
      if notCopyData msgtype then
        .ok (⟨[], some (msgtype :: rest), body.remainingBytes, -1⟩, body.nmessages)
      else if buf.length - body.position < 5 then
        .ok (⟨rest, none, body.remainingBytes, (buf.length - body.position : Nat) - 1⟩,
          body.nmessages)
      else
        let remainingBytes := uint32 (BigEndian.ofBytes (rest.take 4) + 1)
        if remainingBytes < 5 then .error invalidMessageHeader
        else wsLoop buf ⟨remainingBytes, body.position, body.nmessages⟩
termination_by 2 * (buf.length - scan.position) + if scan.remainingBytes = 0 then 1 else 0
decreasing_by
  have inside := congrArg List.length left
  rw [List.length_drop, List.length_cons] at inside
  have some : remainingBytes ≠ 0 := by omega
  change 2 * (buf.length - body.position) + (if remainingBytes = 0 then 1 else 0) < _
  rw [if_neg some]
  exact Scan.body_lt (Nat.lt_of_sub_pos (by rw [inside]; exact Nat.succ_pos _))

/-- The continuation of a message header: the new fragment, and the remaining bytes when it
is complete.
-/
def continueHeader (ws : Wirestate) (view : Bytes) : Except WireError (Bytes × Option Nat) :=
  let sfLen := ws.continuation.toNat
  let added := min (4 - sfLen) view.length
  let sizeFragment := ws.sizeFragment.take sfLen ++ view.take added
  if ws.continuation + added = 4 then
    let remainingBytes := BigEndian.ofBytes sizeFragment
    if remainingBytes < 4 then .error invalidMessageHeader
    else .ok (sizeFragment, some (uint32 (remainingBytes - sfLen)))
  else .ok (sizeFragment, none)

/-- The new state and the number of messages. -/
def scanned (ws : Wirestate) (view : Bytes) : Except WireError (Wirestate × Nat) :=
  if 0 ≤ ws.continuation then
    match ws.continueHeader view with
    | .error error => .error error
    | .ok (_, some remainingBytes) =>
        wsLoop view ⟨remainingBytes, 0, if remainingBytes = 0 then 1 else 0⟩
    | .ok (sizeFragment, none) =>
        .ok (⟨sizeFragment, none, uint32 ws.remainingBytes,
          ws.continuation + min (4 - ws.continuation.toNat) view.length⟩, 0)
  else wsLoop view ⟨uint32 ws.remainingBytes, 0, 0⟩

def reply (ws : Wirestate) (nmessages : Nat) : WireReply :=
  ⟨nmessages, ws.wsRemainingBytes, ws.wsSizeFragment, ws.wsFinalView⟩

def wsUpdate (ws : Wirestate) (view : Bytes) : Wirestate × Except WireError WireReply :=
  if view.length = 0 then (ws, .ok (reply ws 0))
  else if ws.finalView.isSome then
    (ws, .error (.runtimeError "wire state has been terminated"))
  else
    match ws.scanned view with
    | .error error => (ws, .error error)
    | .ok (next, nmessages) => (next, .ok (reply next nmessages))

-----------------------------------------------------------------------------------------
-- The same place
-----------------------------------------------------------------------------------------

/-- The state at a place of the stream. -/
def ofPlace : StreamPlace → Wirestate
  | .between => ⟨[], none, 0, -1⟩
  | .header fragment => ⟨fragment, none, 0, fragment.length⟩
  | .body remaining => ⟨[], none, uint32 remaining, -1⟩
  | .ended view => ⟨[], some view, 0, -1⟩
  | .invalid => ⟨[], none, 0, -1⟩

/-- A round by what its first part leaves. -/
theorem wsLoop_round {buf : Bytes} {scan left : Scan} (body : scan.body buf.length = left)
    : wsLoop buf scan
      = match buf.drop left.position with
        | [] => .ok (⟨[], none, left.remainingBytes, -1⟩, left.nmessages)
        | msgtype :: rest =>
            if notCopyData msgtype then
              .ok (⟨[], some (msgtype :: rest), left.remainingBytes, -1⟩, left.nmessages)
            else if buf.length - left.position < 5 then
              .ok (⟨rest, none, left.remainingBytes, (buf.length - left.position : Nat) - 1⟩,
                left.nmessages)
            else if uint32 (BigEndian.ofBytes (rest.take 4) + 1) < 5 then
              .error invalidMessageHeader
            else
              wsLoop buf ⟨uint32 (BigEndian.ofBytes (rest.take 4) + 1), left.position,
                left.nmessages⟩ := by
  subst body
  rw [wsLoop]
  split <;> simp_all only

theorem Scan.body_zero {len position nmessages : Nat}
    : Scan.body len ⟨0, position, nmessages⟩ = ⟨0, position, nmessages⟩ :=
  rfl

/-- The position moves forward within the view, and only what lies behind it matters. -/
theorem Scan.body_drop {len remaining position nmessages : Nat} (inside : position ≤ len)
    : position ≤ (Scan.body len ⟨remaining, position, nmessages⟩).position
      ∧ (Scan.body len ⟨remaining, position, nmessages⟩).position ≤ len
      ∧ Scan.body (len - position) ⟨remaining, 0, nmessages⟩
        = ⟨(Scan.body len ⟨remaining, position, nmessages⟩).remainingBytes,
            (Scan.body len ⟨remaining, position, nmessages⟩).position - position,
            (Scan.body len ⟨remaining, position, nmessages⟩).nmessages⟩ := by
  unfold body
  dsimp only
  split
  next some =>
      rw [Nat.zero_add]
      split
      next more =>
          rw [if_pos (by omega)]
          refine ⟨inside, Nat.le_refl _, ?_⟩
          rw [show remaining - (len - position) = position + remaining - len by omega]
      next enough =>
          rw [if_neg (by omega)]
          refine ⟨Nat.le_add_right _ _, Nat.le_of_not_lt enough, ?_⟩
          rw [Nat.add_sub_cancel_left]
  next none => exact ⟨Nat.le_refl _, inside, by rw [Nat.sub_self]⟩

/-- Only the view from the position on matters, by induction on the rounds. -/
theorem wsLoop_drop {buf : Bytes} {remaining position nmessages : Nat}
    (inside : position ≤ buf.length)
    : wsLoop buf ⟨remaining, position, nmessages⟩
      = wsLoop (buf.drop position) ⟨remaining, 0, nmessages⟩ := by
  induction measure : 2 * (buf.length - position) + (if remaining = 0 then 1 else 0)
    using Nat.strong_induction_on generalizing buf remaining position nmessages with
  | _ total ih =>
      subst measure
      obtain ⟨forward, within, body⟩ := @Scan.body_drop _ remaining _ nmessages inside
      have shorter := @Scan.body_lt buf.length ⟨remaining, position, nmessages⟩
      generalize left : Scan.body buf.length ⟨remaining, position, nmessages⟩ = scan at *
      obtain ⟨remaining', position', nmessages'⟩ := scan
      dsimp only at *
      rw [← List.length_drop] at body
      rw [wsLoop_round left, wsLoop_round body]
      dsimp only
      rw [List.drop_drop, List.length_drop, Nat.add_sub_cancel' forward,
        show buf.length - position - (position' - position) = buf.length - position' by omega]
      split
      next => rfl
      next msgtype rest same =>
          have some : position' < buf.length := by
            have long := congrArg List.length same
            rw [List.length_drop, List.length_cons] at long
            omega
          split
          next => rfl
          next =>
              split
              next => rfl
              next =>
                  split
                  next => rfl
                  next large =>
                      generalize uint32 _ = size at large
                      have positive : size ≠ 0 := by omega
                      have less := shorter some
                      have first : wsLoop buf ⟨size, position', nmessages'⟩
                          = wsLoop (buf.drop position') ⟨size, 0, nmessages'⟩ :=
                        ih _ (by rw [if_neg positive]; exact less) within rfl
                      have second
                          : wsLoop (buf.drop position) ⟨size, position' - position, nmessages'⟩
                            = wsLoop ((buf.drop position).drop (position' - position))
                                ⟨size, 0, nmessages'⟩ :=
                        ih _ (by rw [if_neg positive, List.length_drop]; omega)
                          (by rw [List.length_drop]; omega) rfl
                      rw [first, second, List.drop_drop, Nat.add_sub_cancel' forward]

/-- The loop skips whole messages. -/
def scanner : copyStream.Scanner (Except WireError (Wirestate × Nat)) where
  loop remaining view nmessages := wsLoop view ⟨remaining, 0, uint32 nmessages⟩
  result place nmessages := .ok (ofPlace place, uint32 nmessages)
  finished {remaining view nmessages} some enough := by
    have body : Scan.body view.length ⟨remaining, 0, uint32 nmessages⟩
        = Scan.body view.length ⟨0, remaining, uint32 (nmessages + 1)⟩ := by
      simp only [Scan.body, if_pos some, Nat.zero_add, if_neg (Nat.not_lt_of_le enough)]
      simp [uint32]
    rw [wsLoop_round body, ← wsLoop_round rfl, wsLoop_drop enough]
  unfinished {remaining view nmessages} short := by
    have body : Scan.body view.length ⟨remaining, 0, uint32 nmessages⟩
        = ⟨uint32 (remaining - view.length), view.length, uint32 nmessages⟩ := by
      simp only [Scan.body, if_pos (Nat.zero_lt_of_lt short), Nat.zero_add, if_pos short]
    rw [wsLoop_round body, List.drop_length]
    rfl
  nothing := wsLoop_round Scan.body_zero
  stranger {typ rest nmessages} stranger := by
    have condition : notCopyData typ = true := by simpa [copyStream] using stranger
    rw [wsLoop_round Scan.body_zero]
    simp only [List.drop_zero, if_pos condition]
    rfl
  header_short {typ rest nmessages} belongs short := by
    have condition : notCopyData typ = false := by simpa [copyStream] using belongs
    have few : (typ :: rest).length - 0 < 5 := Nat.succ_lt_succ short
    rw [wsLoop_round Scan.body_zero]
    simp only [List.drop_zero, condition, if_neg Bool.false_ne_true, if_pos few]
    simp [ofPlace]
  header {typ rest nmessages} belongs enough fits := by
    have condition : notCopyData typ = false := by simpa [copyStream] using belongs
    have many : ¬ (typ :: rest).length - 0 < 5 := Nat.not_lt_of_le (Nat.succ_le_succ enough)
    obtain ⟨least, most⟩ : 4 ≤ BigEndian.ofBytes (rest.take 4)
        ∧ BigEndian.ofBytes (rest.take 4) + 1 < 2 ^ 32 :=
      of_decide_eq_true fits
    have size : uint32 (BigEndian.ofBytes (rest.take 4) + 1)
        = BigEndian.ofBytes (rest.take 4) + 1 :=
      Nat.mod_eq_of_lt most
    have large : ¬ BigEndian.ofBytes (rest.take 4) + 1 < 5 := by omega
    rw [wsLoop_round Scan.body_zero]
    simp only [List.drop_zero, condition, if_neg Bool.false_ne_true, if_neg many, size,
      if_neg large]

theorem continueHeader_eq (fragment view : Bytes)
    : continueHeader ⟨fragment, none, 0, fragment.length⟩ view
      = if (fragment.length : Int) + (min (4 - fragment.length) view.length : Nat) = 4 then
          if BigEndian.ofBytes (fragment ++ view.take (4 - fragment.length)) < 4 then
            .error invalidMessageHeader
          else
            .ok (fragment ++ view.take (4 - fragment.length),
              some
                (uint32
                  (BigEndian.ofBytes (fragment ++ view.take (4 - fragment.length))
                    - fragment.length)))
        else .ok (fragment ++ view.take (4 - fragment.length), none) := by
  have added : view.take (min (4 - fragment.length) view.length)
      = view.take (4 - fragment.length) := by
    rw [List.take_eq_take_iff]
    omega
  simp only [continueHeader, Int.toNat_natCast, List.take_length, added]

theorem scanned_header_short {fragment view : Bytes}
    (short : fragment.length + view.length < 4)
    : scanned (ofPlace (.header fragment)) view
      = .ok (ofPlace (.header (fragment ++ view)), 0) := by
  have all : view.take (4 - fragment.length) = view := List.take_of_length_le (by omega)
  have added : min (4 - fragment.length) view.length = view.length := by omega
  have incomplete : ¬ (fragment.length : Int) + (view.length : Nat) = 4 := by omega
  have header := continueHeader_eq fragment view
  rw [added, if_neg incomplete, all] at header
  simp only [scanned, ofPlace, if_pos (Int.natCast_nonneg _), header, Int.toNat_natCast, added,
    List.length_append, Int.natCast_add]
  rfl

theorem scanned_header_whole {fragment view : Bytes} (few : fragment.length < 4)
    (enough : 4 ≤ fragment.length + view.length)
    (fits
      : copyStream.valid
          (BigEndian.ofBytes (fragment ++ view.take (4 - fragment.length))) = true)
    : scanned (ofPlace (.header fragment)) view
      = wsLoop view
          ⟨BigEndian.ofBytes (fragment ++ view.take (4 - fragment.length)) - fragment.length,
            0, 0⟩ := by
  have added : min (4 - fragment.length) view.length = 4 - fragment.length := by omega
  have complete : (fragment.length : Int) + (4 - fragment.length : Nat) = 4 := by omega
  obtain ⟨least, most⟩ : 4 ≤ BigEndian.ofBytes (fragment ++ view.take (4 - fragment.length))
      ∧ BigEndian.ofBytes (fragment ++ view.take (4 - fragment.length)) + 1 < 2 ^ 32 :=
    of_decide_eq_true fits
  have header := continueHeader_eq fragment view
  rw [added, if_pos complete, if_neg (Nat.not_lt_of_le least)] at header
  have small : uint32 (BigEndian.ofBytes (fragment ++ view.take (4 - fragment.length))
        - fragment.length)
      = BigEndian.ofBytes (fragment ++ view.take (4 - fragment.length)) - fragment.length :=
    Nat.mod_eq_of_lt (by omega)
  have some : BigEndian.ofBytes (fragment ++ view.take (4 - fragment.length)) - fragment.length
      ≠ 0 := by
    omega
  rw [small] at header
  simp only [scanned, ofPlace, if_pos (Int.natCast_nonneg _), header, if_neg some]

/-- Every view moves the state to its new place in the stream. -/
theorem scanned_ofPlace {place : StreamPlace} (reached : place.Reached)
    (within : place.Within (2 ^ 32)) (going : place.isEnded = false) {view : Bytes}
    (valid : (copyStream.run place view).1 ≠ .invalid)
    : scanned (ofPlace place) view
      = .ok (ofPlace (copyStream.run place view).1, uint32 (copyStream.run place view).2) := by
  cases place with
  | between =>
      have looped := scanner.loop_between valid 0
      rw [Nat.zero_add] at looped
      exact looped
  | header fragment =>
      rcases Nat.lt_or_ge (fragment.length + view.length) 4 with short | enough
      · rw [SizedStream.run_header_short short, scanned_header_short short]
        rfl
      · rw [SizedStream.run_header reached enough] at valid ⊢
        split at valid
        next fits =>
            have least := copyStream.valid_ge fits
            have looped := scanner.loop_inside
              (Nat.sub_pos_of_lt (Nat.lt_of_lt_of_le reached least)) valid 0
            rw [Nat.zero_add] at looped
            rw [if_pos fits, scanned_header_whole reached enough fits]
            exact looped
        next => exact absurd rfl valid
  | body remaining =>
      have small : uint32 (uint32 remaining) = remaining :=
        (Nat.mod_mod _ _).trans (Nat.mod_eq_of_lt within)
      rw [SizedStream.run_body reached] at valid ⊢
      have looped := scanner.loop_inside reached valid 0
      rw [Nat.zero_add] at looped
      change wsLoop view ⟨uint32 (uint32 remaining), 0, 0⟩ = _
      rw [small]
      exact looped
  | ended ended => exact absurd going Bool.noConfusion
  | invalid => exact absurd reached not_false

theorem reply_ofPlace {place : StreamPlace} (within : place.Within (2 ^ 32)) {nmessages : Nat}
    (few : nmessages < 2 ^ 32)
    : reply (ofPlace place) (uint32 nmessages) = WireState.reply (place, nmessages) := by
  have small : uint32 nmessages = nmessages := Nat.mod_eq_of_lt few
  rw [small]
  cases place with
  | body remaining =>
      have fits : uint32 remaining = remaining := Nat.mod_eq_of_lt within
      simp [reply, WireState.reply, ofPlace, WireState.ofPlace, wsRemainingBytes,
        wsSizeFragment, wsFinalView, fits]
  | header fragment =>
      have bytes : wsSizeFragment (ofPlace (.header fragment)) = fragment := by
        cases fragment with
        | nil => rfl
        | cons first rest =>
            have some : ¬ ((first :: rest).length : Int) ≤ 0 := by
              rw [List.length_cons]
              omega
            have taken : wsSizeFragment (ofPlace (.header (first :: rest)))
                = (first :: rest).take
                    (if ((first :: rest).length : Int) ≤ 0 then 0
                      else ((first :: rest).length : Int).toNat) :=
              rfl
            rw [taken, if_neg some, Int.toNat_natCast, List.take_length]
      have inside : ¬ (fragment.length : Int) = -1 := by omega
      simp only [reply, bytes]
      simp [WireState.reply, ofPlace, WireState.ofPlace, wsRemainingBytes, wsFinalView, inside]
  | _ => rfl

theorem wsUpdate_ofPlace {place : StreamPlace} (reached : place.Reached)
    (within : place.Within (2 ^ 32)) (going : place.isEnded = false) {view : Bytes}
    (valid : (copyStream.run place view).1 ≠ .invalid)
    (few : (copyStream.run place view).2 < 2 ^ 32)
    : wsUpdate (ofPlace place) view
      = (ofPlace (copyStream.run place view).1,
          .ok (WireState.reply (copyStream.run place view))) := by
  have inside := SizedStream.run_within copyStream_bound within valid
  have open_ : (ofPlace place).finalView.isSome = false := by
    cases place <;> first | rfl | exact absurd going Bool.noConfusion
  rw [wsUpdate]
  split
  next empty =>
      obtain rfl := List.length_eq_zero_iff.mp empty
      exact Prod.ext rfl (congrArg Except.ok (reply_ofPlace within few))
  next =>
      rw [open_, scanned_ofPlace reached within going valid]
      exact Prod.ext rfl (congrArg Except.ok (reply_ofPlace inside few))

end Wirestate

-----------------------------------------------------------------------------------------
-- Runs of views
-----------------------------------------------------------------------------------------

/-- The object in Python, with its default condition. -/
def wireState : Object WireState Bytes (Except WireError WireReply) where
  start := .init
  answer := WireState.update notCopyData

/-- The object of the extension. -/
def wirestate : Object Wirestate Bytes (Except WireError WireReply) where
  start := .wsNew
  answer := Wirestate.wsUpdate

/-- The stream of COPY data as an object. -/
def copyWire : Object StreamPlace Bytes (Except WireError WireReply) where
  start := .between
  answer place view :=
    ((copyStream.run place view).1, .ok (WireState.reply (copyStream.run place view)))

/-- The messages that a view completes can be counted in a uint32_t. -/
def Countable (place : StreamPlace) (view : Bytes) : Prop :=
  (copyStream.run place view).2 < 2 ^ 32

instance (place : StreamPlace) (view : Bytes) : Decidable (Countable place view) :=
  inferInstanceAs (Decidable (_ < _))

/-- COPY goes on, no size is invalid, and the messages of the view can be counted. -/
def Going (place : StreamPlace) (view : Bytes) : Prop :=
  place.isEnded = false ∧ (copyStream.run place view).1 ≠ .invalid ∧ Countable place view

/-- COPY goes on at every view when it does before the last one, by induction on the views. -/
theorem each_going {place : StreamPlace} {views : List Bytes}
    (going : (copyStream.run place views.dropLast.flatten).1.isEnded = false)
    (valid : (copyStream.run place views.flatten).1 ≠ .invalid)
    (few : copyWire.Each Countable place views)
    : copyWire.Each Going place views := by
  induction views generalizing place with
  | nil => trivial
  | cons view rest ih =>
      rw [List.flatten_cons, SizedStream.run_append] at valid
      have inside : (copyStream.run place view).1 ≠ .invalid := by
        intro lost
        rw [lost, SizedStream.run_invalid] at valid
        exact valid rfl
      have open_ : place.isEnded = false := by
        cases place with
        | ended view =>
            rw [SizedStream.run_ended] at going
            exact going
        | _ => rfl
      refine ⟨⟨open_, inside, few.1⟩, ?_⟩
      cases rest with
      | nil => trivial
      | cons next rest =>
          rw [List.dropLast_cons_of_ne_nil (List.cons_ne_nil _ _), List.flatten_cons,
            SizedStream.run_append] at going
          exact ih going valid few.2

/-- The object in Python follows the stream. -/
theorem wireState_follows {views : List Bytes} (met : copyWire.Each Going .between views)
    : wireState.replies .init views = copyWire.replies .between views := by
  have condition : notCopyData = fun typ => !copyStream.belongs typ := by
    funext typ
    exact (Bool.not_not _).symm
  have agree : List.Forall₂ Eq (wireState.replies .init views)
      (copyWire.replies .between views) := by
    refine (Object.replies_simulation
      (fun state place => state = WireState.ofPlace place ∧ place.Reached) Eq ?_
      ⟨rfl, StreamPlace.between_reached⟩ met).2
    intro state place view ⟨same, reached⟩ ⟨going, valid, _⟩
    subst same
    have answer := WireState.update_ofPlace reached going valid
    rw [← condition] at answer
    exact ⟨⟨congrArg Prod.fst answer, SizedStream.run_reached reached valid⟩,
      congrArg Prod.snd answer⟩
  rwa [List.forall₂_eq_eq_eq] at agree

/-- The object of the extension follows the stream. -/
theorem wirestate_follows {views : List Bytes} (met : copyWire.Each Going .between views)
    : wirestate.replies .wsNew views = copyWire.replies .between views := by
  have agree : List.Forall₂ Eq (wirestate.replies .wsNew views)
      (copyWire.replies .between views) := by
    refine (Object.replies_simulation
      (fun ws place => ws = Wirestate.ofPlace place ∧ place.Reached ∧ place.Within (2 ^ 32)) Eq
      ?_ ⟨rfl, StreamPlace.between_reached, StreamPlace.between_within _⟩ met).2
    intro ws place view ⟨same, reached, within⟩ ⟨going, valid, few⟩
    subst same
    have answer := Wirestate.wsUpdate_ofPlace reached within going valid few
    exact ⟨⟨congrArg Prod.fst answer, SizedStream.run_reached reached valid,
        SizedStream.run_within copyStream_bound within valid⟩,
      congrArg Prod.snd answer⟩
  rwa [List.forall₂_eq_eq_eq] at agree

/-- The messages that a reply counts. -/
def counted : Except WireError WireReply → Nat
  | .ok reply => reply.nmessages
  | .error _ => 0

theorem counted_copyWire (place : StreamPlace) (views : List Bytes)
    : ((copyWire.replies place views).map counted).sum
      = (copyStream.run place views.flatten).2 := by
  induction views generalizing place with
  | nil => rfl
  | cons view rest ih =>
      rw [Object.replies_cons, List.map_cons, List.sum_cons, ih, List.flatten_cons,
        SizedStream.run_append]
      rfl

/-- However COPY data is cut into views, both objects say the same of every view, and
together they count the messages of the whole.
-/
theorem replies_wirestate {views : List Bytes}
    (going : (copyStream.run .between views.dropLast.flatten).1.isEnded = false)
    (valid : (copyStream.run .between views.flatten).1 ≠ .invalid)
    (few : copyWire.Each Countable .between views)
    : wirestate.replies .wsNew views = wireState.replies .init views
      ∧ ((wireState.replies .init views).map counted).sum
        = (copyStream.run .between views.flatten).2 := by
  have met := each_going going valid few
  rw [wirestate_follows met, wireState_follows met]
  exact ⟨rfl, counted_copyWire _ _⟩

/-- A header in three pieces, and the end of COPY within a view. -/
theorem replies_wirestate_pieces
    : wirestate.replies .wsNew [[100, 0], [0, 0], [5, 65, 100, 0, 0, 0, 4, 99, 0]]
      = wireState.replies .init [[100, 0], [0, 0], [5, 65, 100, 0, 0, 0, 4, 99, 0]]
      ∧ ((wireState.replies .init
            [[100, 0], [0, 0], [5, 65, 100, 0, 0, 0, 4, 99, 0]]).map counted).sum
        = 2 :=
  replies_wirestate (by decide) (by decide) ⟨by decide, by decide, by decide, trivial⟩

end PgCluster.Postgresql
