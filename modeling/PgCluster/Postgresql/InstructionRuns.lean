import PgCluster.Postgresql.Instructions

/-! However the responses are cut into batches, and whichever fast paths they take, the
client ends where the loop over single messages ends.
-/

namespace PgCluster.Postgresql

open Foundation

-----------------------------------------------------------------------------------------
-- One message at a time
-----------------------------------------------------------------------------------------

/-- Every message is of a new batch, so no asynchronous message is on record. -/
def Walk.cleared (walk : Walk) : Walk := { walk with notes := { walk.notes with asyncs := [] } }

/-- The messages one by one, and those behind the transaction. None where the transaction is
ended early or an exception is raised.
-/
def follow (build : Build) (commands : List Command) (walk : Walk)
    : List Message → Option (Walk × List Message)
  | [] => some (walk, [])
  | x :: rest =>
      match turn build commands walk x with
      | .next walk => follow build commands walk.cleared rest
      | .finished walk => some (walk.cleared, rest)
      | .closed _ => none
      | .raised _ => none

theorem follow_next {build : Build} {commands : List Command} {walk later : Walk} {x : Message}
    (next : turn build commands walk x = .next later) (rest : List Message)
    : follow build commands walk (x :: rest) = follow build commands later.cleared rest := by
  rw [follow, next]

theorem follow_finished {build : Build} {commands : List Command} {walk later : Walk}
    {x : Message} (finished : turn build commands walk x = .finished later)
    (rest : List Message)
    : follow build commands walk (x :: rest) = some (later.cleared, rest) := by
  rw [follow, finished]

/-- The first message of a run that goes through. -/
theorem follow_cons {build : Build} {commands : List Command} {walk final : Walk} {x : Message}
    {rest left : List Message}
    (followed : follow build commands walk (x :: rest) = some (final, left))
    : (∃ later, turn build commands walk x = .next later
          ∧ follow build commands later.cleared rest = some (final, left))
        ∨ ∃ later, turn build commands walk x = .finished later
          ∧ later.cleared = final ∧ left = rest := by
  rw [follow] at followed
  cases here : turn build commands walk x with
  | next later =>
      rw [here] at followed
      exact .inl ⟨later, rfl, followed⟩
  | finished later =>
      rw [here] at followed
      obtain ⟨rfl, rfl⟩ : later.cleared = final ∧ rest = left := by simpa using followed
      exact .inr ⟨later, rfl, rfl, rfl⟩
  | closed _ => simp [here] at followed
  | raised _ => simp [here] at followed

/-- The attributes that do not depend on the batches. -/
def Notes.outcome (notes : Notes) : Option Bool × Option ErrorMessage × Option XactState :=
  (notes.fatal, notes.errorMessage, notes.lastReady)

/-- The loop over a batch stands where the loop over single messages does, when the earlier
batches gave the given messages.
-/
structure Alike (earlier : List Parsed) (walk single : Walk) : Prop where
  position
    : walk.position = single.position
  processed
    : earlier ++ walk.processed = single.processed
  outcome
    : walk.notes.outcome = single.notes.outcome
  cleared
    : single.notes.asyncs = []

theorem Alike.clear {earlier : List Parsed} {walk single : Walk}
    (position : walk.position = single.position)
    (processed : earlier ++ walk.processed = single.processed)
    (outcome : walk.notes.outcome = single.notes.outcome)
    : Alike earlier walk single.cleared :=
  ⟨position, processed, outcome, rfl⟩

/-- What a message does, in related loops. -/
def Turn.Alike (earlier : List Parsed) : Turn → Turn → Prop
  | .next walk, .next single => PgCluster.Postgresql.Alike earlier walk single.cleared
  | .finished walk, .finished single => PgCluster.Postgresql.Alike earlier walk single.cleared
  | _, .closed _ => True
  | _, .raised _ => True
  | _, _ => False

section Turns

variable {build : Build} {commands : List Command} {earlier : List Parsed} {walk single : Walk}

theorem outcome_eq {notes other : Notes} (same : notes.outcome = other.outcome)
    : notes.fatal = other.fatal ∧ notes.errorMessage = other.errorMessage
        ∧ notes.lastReady = other.lastReady := by
  simpa [Notes.outcome] using same

theorem pathTurn_alike (alike : Alike earlier walk single) (r : Parsed) (next : Option Nat)
    : Turn.Alike earlier (pathTurn commands walk r next) (pathTurn commands single r next) := by
  have processed : earlier ++ (walk.processed ++ [r]) = single.processed ++ [r] := by
    rw [← List.append_assoc, alike.processed]
  obtain ⟨fatal, message, ready⟩ := outcome_eq alike.outcome
  cases next with
  | some step =>
      exact Alike.clear (congrArg (Position.mk · step) (congrArg Position.offset alike.position))
        processed alike.outcome
  | none =>
      simp only [pathTurn, alike.position]
      split
      · exact Alike.clear rfl processed (by simp [Notes.outcome, fatal, message, ready])
      · exact Alike.clear rfl processed (by simp [Notes.outcome, fatal, message, ready])

theorem errorTurn_alike (alike : Alike earlier walk single) (command : Command) (body : Bytes)
    : Turn.Alike earlier (errorTurn commands command walk body)
        (errorTurn commands command single body) := by
  obtain ⟨_, _, ready⟩ := outcome_eq alike.outcome
  simp only [errorTurn]
  cases isFatal (Notice.parse body) with
  | none => trivial
  | some fatal =>
      cases fatal with
      | true => trivial
      | false =>
          simp only [Bool.false_eq_true, if_false, alike.position]
          split
          · exact Alike.clear rfl alike.processed (by simp [Notes.outcome, ready])
          · cases syncOffset commands single.position.offset with
            | none => trivial
            | some offset =>
                exact Alike.clear rfl alike.processed (by simp [Notes.outcome, ready])

/-- A message on record has been parsed before, so single messages parse it as well. -/
theorem asyncTurn_alike (alike : Alike earlier walk single) (cls : Class) (x : Message)
    : Turn.Alike earlier (asyncTurn walk cls x) (asyncTurn single cls x) := by
  simp only [asyncTurn, alike.cleared, List.not_mem_nil, if_false]
  cases cls.parseData x.body with
  | error error =>
      dsimp only
      split <;> trivial
  | ok msg =>
      dsimp only
      split
      · exact Alike.clear alike.position alike.processed alike.outcome
      · exact Alike.clear alike.position alike.processed alike.outcome

theorem turn_alike (alike : Alike earlier walk single) (x : Message)
    : Turn.Alike earlier (turn build commands walk x) (turn build commands single x) := by
  simp only [turn, alike.position]
  cases commands[single.position.offset]? with
  | none => trivial
  | some command =>
      dsimp only
      cases command.request.hook with
      | none => trivial
      | some steps =>
          dsimp only
          cases steps[single.position.step]? with
          | none => trivial
          | some paths =>
              dsimp only
              cases paths.find? (fun path => path.typ = x.typ) with
              | some path =>
                  dsimp only
                  cases path.call.call build x.body with
                  | error error => trivial
                  | ok r => exact pathTurn_alike alike r path.next
              | none =>
                  dsimp only
                  split
                  · exact errorTurn_alike alike command x.body
                  · cases asynchronousMap x.typ with
                    | none => trivial
                    | some cls => exact asyncTurn_alike alike cls x

/-- The loop over a batch, where the single messages go through: it takes all messages, or
those up to the end of the transaction. By induction on the batch.
-/
theorem loop_alike {final : Walk} {left more : List Message} (alike : Alike earlier walk single)
    {messages : List Message}
    (followed : follow build commands single (messages ++ more) = some (final, left))
    : ((loop build commands walk messages).ending = .through
          ∧ (loop build commands walk messages).count = messages.length
          ∧ ∃ later, Alike earlier (loop build commands walk messages).walk later
            ∧ follow build commands later more = some (final, left))
        ∨ (loop build commands walk messages).ending = .finished
          ∧ (loop build commands walk messages).count ≤ messages.length
          ∧ Alike earlier (loop build commands walk messages).walk final
          ∧ left = messages.drop (loop build commands walk messages).count ++ more := by
  induction messages generalizing walk single with
  | nil => exact .inl ⟨rfl, rfl, single, alike, followed⟩
  | cons x rest ih =>
      have same : Turn.Alike earlier (turn build commands walk x) (turn build commands single x) :=
        turn_alike alike x
      rcases follow_cons followed with ⟨later, next, followed⟩ | ⟨later, finished, rfl, rfl⟩
      · cases here : turn build commands walk x with
        | next walk' =>
            rw [here, next] at same
            simp only [loop, here]
            rcases ih same followed with ⟨ending, count, last⟩ | ⟨ending, count, last, left_eq⟩
            · exact .inl ⟨ending, congrArg (· + 1) count, last⟩
            · exact .inr ⟨ending, Nat.succ_le_succ count, last, left_eq⟩
        | finished _ => rw [here, next] at same; exact same.elim
        | closed _ => rw [here, next] at same; exact same.elim
        | raised _ => rw [here, next] at same; exact same.elim
      · cases here : turn build commands walk x with
        | finished walk' =>
            rw [here, finished] at same
            have ended : loop build commands walk (x :: rest) = ⟨.finished, walk', 1⟩ := by
              rw [loop, here]
            rw [ended]
            exact .inr ⟨rfl, Nat.succ_le_succ (Nat.zero_le _), same, rfl⟩
        | next _ => rw [here, finished] at same; exact same.elim
        | closed _ => rw [here, finished] at same; exact same.elim
        | raised _ => rw [here, finished] at same; exact same.elim

end Turns

-----------------------------------------------------------------------------------------
-- Positions
-----------------------------------------------------------------------------------------

theorem Request.mem_all (request : Request) : request ∈ Request.all := by
  cases request <;> decide

/-- Rows that come in this step leave it as it is. -/
def RowsStay (steps : List (List Path)) (step : Nat) : Prop :=
  ∀ paths ∈ steps[step]?, ∀ path ∈ paths, path.typ = char 'D' → path = tuplePath step

instance (steps : List (List Path)) (step : Nat) : Decidable (RowsStay steps step) :=
  inferInstanceAs (Decidable (∀ paths ∈ steps[step]?, ∀ path ∈ paths,
    path.typ = char 'D' → path = tuplePath step))

/-- COPY data stays in its step. -/
theorem path_copyData
    : ∀ request ∈ Request.all, ∀ steps ∈ request.hook, ∀ entry ∈ steps.zipIdx,
        ∀ path ∈ entry.1, path.typ = char 'd' → path = copyDataPath entry.2 := by
  decide

/-- Rows lead to a step in which they stay. -/
theorem path_row
    : ∀ request ∈ Request.all, ∀ steps ∈ request.hook, ∀ paths ∈ steps, ∀ path ∈ paths,
        path.typ = char 'D' ∨ path.call = .tuple
          → path.call = .tuple ∧ path.next.isSome ∧ ∀ next ∈ path.next, RowsStay steps next := by
  decide

theorem path_next
    : ∀ request ∈ Request.all, ∀ steps ∈ request.hook,
        0 < steps.length ∧ ∀ paths ∈ steps, ∀ path ∈ paths, ∀ next ∈ path.next,
          next < steps.length := by
  decide

/-- No row is expected where an error leads. -/
theorem path_restart
    : ∀ request ∈ [Request.function, .query, .synchronize], ∀ steps ∈ request.hook,
        RowsStay steps 0 := by
  decide

theorem Command.request_of_isSynchronize {command : Command} (sync : command.IsSynchronize)
    : command.request = .synchronize := by
  have typed := command.typed
  rw [sync] at typed
  revert typed
  cases command.request <;> decide

/-- What `hook` has at a position. -/
structure At (commands : List Command) (position : Position) (command : Command)
    (steps : List (List Path)) (paths : List Path)
    : Prop where
  known
    : commands[position.offset]? = some command
  hooked
    : command.request.hook = some steps
  reached
    : steps[position.step]? = some paths

/-- A command waits for messages at the position. -/
def Placed (commands : List Command) (position : Position) : Prop :=
  ∃ command steps paths, At commands position command steps paths

/-- Where a row was the last processed message, rows leave the position as it is. -/
def RowsKept (commands : List Command) (position : Position) (last : Option Parsed) : Prop :=
  ∀ atts, last = some (.tuple atts)
    → ∀ command steps paths, At commands position command steps paths
      → RowsStay steps position.step

section Positions

variable {build : Build} {commands : List Command} {walk later : Walk} {x : Message}
  {command : Command} {steps : List (List Path)} {paths : List Path}

theorem Placed.lt {position : Position} (placed : Placed commands position)
    : position.offset < commands.length := by
  obtain ⟨_, _, _, here⟩ := placed
  exact (List.getElem?_eq_some_iff.mp here.known).1

theorem At.unique {position : Position} (here : At commands position command steps paths)
    {other : Command} {otherSteps : List (List Path)} {otherPaths : List Path}
    (also : At commands position other otherSteps otherPaths)
    : otherSteps = steps ∧ otherPaths = paths := by
  obtain rfl : other = command := Option.some.inj (also.known.symm.trans here.known)
  obtain rfl : otherSteps = steps := Option.some.inj (also.hooked.symm.trans here.hooked)
  exact ⟨rfl, Option.some.inj (also.reached.symm.trans here.reached)⟩

theorem turn_of_parsed (here : At commands walk.position command steps paths) {path : Path}
    (found : paths.find? (fun path => path.typ = x.typ) = some path) {r : Parsed}
    (parsed : path.call.call build x.body = .ok r)
    : turn build commands walk x = pathTurn commands walk r path.next := by
  simp only [turn, here.known, here.hooked, here.reached, found, parsed]

theorem turn_of_unparsed (here : At commands walk.position command steps paths) {path : Path}
    (found : paths.find? (fun path => path.typ = x.typ) = some path) {error : PutError}
    (unparsed : path.call.call build x.body = .error error)
    : turn build commands walk x = .raised error := by
  simp only [turn, here.known, here.hooked, here.reached, found, unparsed]

theorem turn_of_error (here : At commands walk.position command steps paths)
    (absent : paths.find? (fun path => path.typ = x.typ) = none) (typ : x.typ = char 'E')
    : turn build commands walk x = errorTurn commands command walk x.body := by
  simp only [turn, here.known, here.hooked, here.reached, absent]
  rw [if_pos typ]

theorem turn_of_async (here : At commands walk.position command steps paths)
    (absent : paths.find? (fun path => path.typ = x.typ) = none) (typ : x.typ ≠ char 'E')
    {cls : Class} (known : asynchronousMap x.typ = some cls)
    : turn build commands walk x = asyncTurn walk cls x := by
  simp only [turn, here.known, here.hooked, here.reached, absent, known]
  rw [if_neg typ]

theorem turn_of_unexpected (here : At commands walk.position command steps paths)
    (absent : paths.find? (fun path => path.typ = x.typ) = none) (typ : x.typ ≠ char 'E')
    (unknown : asynchronousMap x.typ = none)
    : turn build commands walk x
      = .closed { walk with notes :=
          { walk.notes with
            fatal := some true
            errorMessage := some (.unexpected (paths.map Path.typ) x.typ) } } := by
  simp only [turn, here.known, here.hooked, here.reached, absent, unknown]
  rw [if_neg typ]

/-- Without a command at the position there is an exception. -/
theorem placed_of_turn (turned : ∀ error, turn build commands walk x ≠ .raised error)
    : Placed commands walk.position := by
  by_contra absent
  cases first : commands[walk.position.offset]? with
  | none => exact turned .indexError (by simp only [turn, first])
  | some command =>
      cases second : command.request.hook with
      | none => exact turned .typeError (by simp only [turn, first, second])
      | some steps =>
          cases third : steps[walk.position.step]? with
          | none => exact turned .indexError (by simp only [turn, first, second, third])
          | some paths => exact absent ⟨command, steps, paths, first, second, third⟩

theorem placed_start {offset : Nat} (at_ : commands[offset]? = some command)
    (hooked : command.request.hook ≠ none)
    : Placed commands ⟨offset, 0⟩ := by
  obtain ⟨steps, hook⟩ := Option.ne_none_iff_exists'.mp hooked
  have some := (path_next command.request command.request.mem_all steps hook).1
  exact ⟨command, steps, steps[0], at_, hook, List.getElem?_eq_getElem some⟩

theorem drop_length_takeWhile {Item : Type} (keep : Item → Bool) (items : List Item)
    : items.drop (items.takeWhile keep).length = items.dropWhile keep := by
  have parts := congrArg (List.drop (items.takeWhile keep).length)
    (List.takeWhile_append_dropWhile (p := keep) (l := items))
  rw [List.drop_left] at parts
  exact parts.symm

theorem drop_nextOffset (commands : List Command) (offset : Nat)
    : commands.drop (nextOffset commands offset)
      = (commands.drop (offset + 1)).dropWhile (fun command => command.request.hook.isNone) := by
  rw [nextOffset, ← List.drop_drop, drop_length_takeWhile]

theorem nextOffset_le {offset : Nat} (inside : offset < commands.length)
    : nextOffset commands offset ≤ commands.length := by
  have less := (List.takeWhile_sublist (l := commands.drop (offset + 1))
    (fun command : Command => command.request.hook.isNone)).length_le
  rw [List.length_drop] at less
  rw [nextOffset]
  omega

/-- The next offset is the end or the one of a command that is answered. -/
theorem nextOffset_spec {offset : Nat} (inside : offset < commands.length)
    : nextOffset commands offset = commands.length
        ∨ Placed commands ⟨nextOffset commands offset, 0⟩ := by
  have remaining := drop_nextOffset commands offset
  have first := List.head?_dropWhile_not
    (fun command : Command => command.request.hook.isNone) (commands.drop (offset + 1))
  cases answered : commands.drop (nextOffset commands offset) with
  | nil =>
      left
      exact Nat.le_antisymm (nextOffset_le inside) (List.drop_eq_nil_iff.mp answered)
  | cons command after =>
      right
      rw [← remaining, answered] at first
      have hooked : command.request.hook ≠ none := by
        intro none
        simp [none] at first
      refine @placed_start commands command _ ?_ hooked
      rw [← List.head?_drop, answered, List.head?_cons]

/-- What a path does to the loop, where the command goes on. -/
theorem placed_pathTurn (here : At commands walk.position command steps paths) {path : Path}
    (mem : path ∈ paths) {r : Parsed}
    (next : pathTurn commands walk r path.next = .next later)
    : Placed commands later.position := by
  cases step : path.next with
  | some step' =>
      rw [step] at next
      obtain rfl := Turn.next.inj next
      have inside := (path_next command.request command.request.mem_all steps here.hooked).2
        paths (List.mem_of_getElem? here.reached) path mem step' step
      exact ⟨command, steps, steps[step'], here.known, here.hooked,
        List.getElem?_eq_getElem inside⟩
  | none =>
      rw [step] at next
      simp only [pathTurn] at next
      split at next
      · contradiction
      · rename_i more
        obtain rfl := Turn.next.inj next
        exact (nextOffset_spec (Placed.lt ⟨command, steps, paths, here⟩)).resolve_left more

theorem isSome_of_syncOffset {offset sync : Nat} (found : syncOffset commands offset = some sync)
    : ∃ command, commands[sync]? = some command ∧ command.IsSynchronize := by
  rw [syncOffset] at found
  obtain ⟨index, first, rfl⟩ := Option.map_eq_some_iff.mp found
  obtain ⟨inside, is, _⟩ := List.findIdx?_eq_some_iff_getElem.mp first
  refine ⟨_, (List.getElem?_drop ▸ List.getElem?_eq_getElem inside), by simpa using is⟩

/-- An error leads to the start of a command, where no row is expected. -/
theorem errorTurn_next (here : At commands walk.position command steps paths) {body : Bytes}
    (next : errorTurn commands command walk body = .next later)
    : Placed commands later.position
        ∧ ∀ last, RowsKept commands later.position last := by
  have restart : ∀ {offset : Nat} {restarted : Command},
      commands[offset]? = some restarted
      → restarted.request ∈ [Request.function, .query, .synchronize]
      → Placed commands ⟨offset, 0⟩ ∧ ∀ last, RowsKept commands ⟨offset, 0⟩ last := by
    intro offset restarted known among
    have hooked : restarted.request.hook ≠ none := by
      revert among
      cases restarted.request <;> decide
    refine ⟨placed_start known hooked, fun last atts _ command steps paths here => ?_⟩
    obtain rfl : command = restarted := Option.some.inj (here.known.symm.trans known)
    exact path_restart command.request among steps here.hooked
  simp only [errorTurn] at next
  cases fatal : isFatal (Notice.parse body) with
  | none => simp [fatal] at next
  | some value =>
      simp only [fatal] at next
      split at next
      · contradiction
      · split at next
        · rename_i _ either
          obtain rfl := Turn.next.inj next
          exact restart here.known (by rcases either with is | is <;> rw [is] <;> decide)
        · cases sync : syncOffset commands walk.position.offset with
          | none => simp [sync] at next
          | some offset =>
              simp only [sync] at next
              obtain rfl := Turn.next.inj next
              obtain ⟨synchronize, known, is⟩ := isSome_of_syncOffset sync
              exact restart known (by rw [Command.request_of_isSynchronize is]; decide)

theorem asyncTurn_next {cls : Class} (next : asyncTurn walk cls x = .next later)
    : later.position = walk.position ∧ later.processed = walk.processed := by
  simp only [asyncTurn] at next
  split at next
  · obtain rfl := Turn.next.inj next
    exact ⟨rfl, rfl⟩
  · split at next
    · contradiction
    · obtain rfl := Turn.next.inj next
      exact ⟨rfl, rfl⟩

theorem isTuple_of_call {call : Parser} {data : Bytes} {atts : List (Option Bytes)}
    (parsed : call.call build data = .ok (.tuple atts))
    : call = .tuple := by
  cases call with
  | tuple => rfl
  | returnArg => simp [Parser.call] at parsed
  | parse cls =>
      simp only [Parser.call] at parsed
      cases result : cls.parseData data <;> simp [result, Except.map, Except.mapError] at parsed

/-- A message that does not end the loop leaves it at a command that waits, and rows in
their step.
-/
theorem turn_next (next : turn build commands walk x = .next later)
    : Placed commands later.position
        ∧ (RowsKept commands walk.position walk.processed.getLast?
          → RowsKept commands later.position later.processed.getLast?) := by
  have turned : ∀ error, turn build commands walk x ≠ .raised error := by simp [next]
  obtain ⟨command, steps, paths, here⟩ := placed_of_turn turned
  cases found : paths.find? (fun path => path.typ = x.typ) with
  | some path =>
      have mem := List.mem_of_find?_eq_some found
      cases parsed : path.call.call build x.body with
      | error error => exact absurd (turn_of_unparsed here found parsed) (turned error)
      | ok r =>
          rw [turn_of_parsed here found parsed] at next
          refine ⟨placed_pathTurn here mem next, ?_⟩
          intro _ atts last other otherSteps otherPaths after
          cases step : path.next with
          | none =>
              -- Only rows become tuples, and no row completes a command.
              rw [step] at next
              simp only [pathTurn] at next
              split at next
              · contradiction
              · obtain rfl := Turn.next.inj next
                obtain rfl : r = .tuple atts := by simpa using last
                have row := path_row command.request command.request.mem_all steps here.hooked
                  paths (List.mem_of_getElem? here.reached) path mem
                  (.inr (isTuple_of_call parsed))
                simp [step] at row
          | some step' =>
              rw [step] at next
              obtain rfl := Turn.next.inj next
              obtain rfl : r = .tuple atts := by simpa using last
              have row := path_row command.request command.request.mem_all steps here.hooked
                paths (List.mem_of_getElem? here.reached) path mem
                (.inr (isTuple_of_call parsed))
              obtain rfl : other = command := Option.some.inj (after.known.symm.trans here.known)
              obtain rfl : otherSteps = steps :=
                Option.some.inj (after.hooked.symm.trans here.hooked)
              exact row.2.2 step' step
  | none =>
      by_cases typ : x.typ = char 'E'
      · rw [turn_of_error here found typ] at next
        obtain ⟨placed, rows⟩ := errorTurn_next here next
        exact ⟨placed, fun _ => rows _⟩
      · cases known : asynchronousMap x.typ with
        | none => rw [turn_of_unexpected here found typ known] at next; contradiction
        | some cls =>
            rw [turn_of_async here found typ known] at next
            obtain ⟨position, processed⟩ := asyncTurn_next next
            rw [position, processed]
            exact ⟨⟨command, steps, paths, here⟩, id⟩

/-- A transaction is finished behind its last command. -/
theorem turn_finished (finished : turn build commands walk x = .finished later)
    : later.position.offset = commands.length := by
  have turned : ∀ error, turn build commands walk x ≠ .raised error := by simp [finished]
  obtain ⟨command, steps, paths, here⟩ := placed_of_turn turned
  cases found : paths.find? (fun path => path.typ = x.typ) with
  | some path =>
      cases parsed : path.call.call build x.body with
      | error error => exact absurd (turn_of_unparsed here found parsed) (turned error)
      | ok r =>
          rw [turn_of_parsed here found parsed] at finished
          cases step : path.next with
          | some step' => rw [step] at finished; contradiction
          | none =>
              rw [step] at finished
              simp only [pathTurn] at finished
              split at finished
              · rename_i last
                obtain rfl := Turn.finished.inj finished
                exact last
              · contradiction
  | none =>
      by_cases typ : x.typ = char 'E'
      · rw [turn_of_error here found typ] at finished
        simp only [errorTurn] at finished
        repeat' split at finished
        all_goals contradiction
      · cases known : asynchronousMap x.typ with
        | none => rw [turn_of_unexpected here found typ known] at finished; contradiction
        | some cls =>
            rw [turn_of_async here found typ known] at finished
            simp only [asyncTurn] at finished
            repeat' split at finished
            all_goals contradiction

end Positions

-----------------------------------------------------------------------------------------
-- Batches
-----------------------------------------------------------------------------------------

section Loops

variable {build : Build} {commands : List Command} {walk final : Walk}
  {messages more left : List Message}

/-- How a loop that goes through leaves its variables, by induction on the messages. -/
theorem loop_through (through : (loop build commands walk messages).ending = .through)
    (placed : Placed commands walk.position)
    (kept : RowsKept commands walk.position walk.processed.getLast?)
    : Placed commands (loop build commands walk messages).walk.position
        ∧ RowsKept commands (loop build commands walk messages).walk.position
            (loop build commands walk messages).walk.processed.getLast? := by
  induction messages generalizing walk with
  | nil => exact ⟨placed, kept⟩
  | cons x rest ih =>
      cases here : turn build commands walk x with
      | next later =>
          obtain ⟨placed, keeps⟩ := turn_next here
          simp only [loop, here] at through ⊢
          exact ih through placed (keeps kept)
      | finished _ => simp [loop, here] at through
      | closed _ => simp [loop, here] at through
      | raised _ => simp [loop, here] at through

theorem loop_finished (finished : (loop build commands walk messages).ending = .finished)
    : (loop build commands walk messages).walk.position.offset = commands.length
        ∧ 0 < (loop build commands walk messages).count := by
  induction messages generalizing walk with
  | nil => simp [loop] at finished
  | cons x rest ih =>
      cases here : turn build commands walk x with
      | next later =>
          simp only [loop, here] at finished ⊢
          exact ⟨(ih finished).1, Nat.succ_pos _⟩
      | finished later =>
          have ended : loop build commands walk (x :: rest) = ⟨.finished, later, 1⟩ := by
            rw [loop, here]
          rw [ended]
          exact ⟨turn_finished here, Nat.one_pos⟩
      | closed _ => simp [loop, here] at finished
      | raised _ => simp [loop, here] at finished

theorem cleared_mk {notes : Notes} (clear : notes.asyncs = []) (position : Position)
    (processed : List Parsed)
    : Walk.cleared ⟨position, processed, notes⟩ = ⟨position, processed, notes⟩ := by
  obtain ⟨asyncs, notified, fatal, message, ready⟩ := notes
  obtain rfl : asyncs = [] := clear
  rfl

/-- A message of the given type that goes through has a path of this type. -/
theorem exists_path {x : Message}
    (followed : follow build commands walk (x :: messages) = some (final, left))
    (plain : x.typ ≠ char 'E') (silent : asynchronousMap x.typ = none)
    : ∃ command steps paths, At commands walk.position command steps paths
        ∧ ∃ path ∈ paths, path.typ = x.typ ∧ ∃ r, path.call.call build x.body = .ok r
          ∧ turn build commands walk x = pathTurn commands walk r path.next := by
  have turned : ∀ error, turn build commands walk x ≠ .raised error := by
    intro error raised
    rcases follow_cons followed with ⟨_, next, _⟩ | ⟨_, finished, _⟩
    · simp [raised] at next
    · simp [raised] at finished
  obtain ⟨command, steps, paths, here⟩ := placed_of_turn turned
  cases found : paths.find? (fun path => path.typ = x.typ) with
  | none =>
      have closed := @turn_of_unexpected build _ _ _ _ _ _ here found plain silent
      rcases follow_cons followed with ⟨_, next, _⟩ | ⟨_, finished, _⟩
      · simp [closed] at next
      · simp [closed] at finished
  | some path =>
      cases parsed : path.call.call build x.body with
      | error error => exact absurd (turn_of_unparsed here found parsed) (turned error)
      | ok r =>
          exact ⟨command, steps, paths, here, path, List.mem_of_find?_eq_some found,
            by simpa using List.find?_some found, r, parsed, turn_of_parsed here found parsed⟩

/-- COPY data leaves the position as it is, by induction on the messages. -/
theorem follow_copyData (data : ∀ x ∈ messages, x.typ = char 'd')
    (clear : walk.notes.asyncs = [])
    (followed : follow build commands walk (messages ++ more) = some (final, left))
    : follow build commands
        { walk with
          processed := walk.processed ++ messages.map (fun x => Parsed.data x.body) } more
      = some (final, left) := by
  induction messages generalizing walk with
  | nil => simpa using followed
  | cons x rest ih =>
      have typ := data x List.mem_cons_self
      obtain ⟨command, steps, paths, here, path, mem, same, r, parsed, turned⟩ :=
        exists_path followed (by rw [typ]; decide) (by rw [typ]; decide)
      have entry : (paths, walk.position.step) ∈ steps.zipIdx :=
        List.mem_zipIdx_iff_getElem?.mpr here.reached
      obtain rfl := path_copyData command.request command.request.mem_all steps here.hooked
        _ entry path mem (same.trans typ)
      obtain rfl : Parsed.data x.body = r := by simpa [Parser.call, copyDataPath] using parsed
      rw [List.cons_append, follow_next turned, cleared_mk clear] at followed
      have later := @ih { walk with processed := walk.processed ++ [.data x.body] }
        (fun y member => data y (List.mem_cons_of_mem _ member)) clear followed
      simpa using later

/-- So do rows, where they stay in their step. -/
theorem follow_tuples (rows : ∀ x ∈ messages, x.typ = char 'D')
    (kept
      : ∀ command steps paths, At commands walk.position command steps paths
        → RowsStay steps walk.position.step)
    (clear : walk.notes.asyncs = [])
    (followed : follow build commands walk (messages ++ more) = some (final, left))
    : ∃ tuples,
        messages.mapM (fun x => (build.parseTuple x.body).map Parsed.tuple) = .ok tuples
          ∧ tuples.length = messages.length
          ∧ follow build commands { walk with processed := walk.processed ++ tuples } more
            = some (final, left) := by
  induction messages generalizing walk with
  | nil => exact ⟨[], rfl, rfl, by simpa using followed⟩
  | cons x rest ih =>
      have typ := rows x List.mem_cons_self
      obtain ⟨command, steps, paths, here, path, mem, same, r, parsed, turned⟩ :=
        exists_path followed (by rw [typ]; decide) (by rw [typ]; decide)
      obtain rfl := kept command steps paths here paths here.reached path mem (same.trans typ)
      rw [List.cons_append, follow_next turned, cleared_mk clear] at followed
      obtain ⟨tuples, each, length, later⟩ := @ih { walk with processed := walk.processed ++ [r] }
        (fun y member => rows y (List.mem_cons_of_mem _ member)) kept clear followed
      refine ⟨r :: tuples, ?_, congrArg (· + 1) length, by simpa using later⟩
      have first : (build.parseTuple x.body).map Parsed.tuple = .ok r := parsed
      rw [List.mapM_cons, first, each]
      rfl

/-- Every row that goes through is parsed, by induction on the messages. -/
theorem exists_tuple_of_follow (clear : walk.notes.asyncs = [])
    (followed : follow build commands walk messages = some (final, left)) {x : Message}
    (mem : x ∈ messages) (row : x.typ = char 'D') (behind : x ∉ left)
    : ∃ tuple, (build.parseTuple x.body).map Parsed.tuple = .ok tuple := by
  induction messages generalizing walk with
  | nil => simp at mem
  | cons y rest ih =>
      rcases List.mem_cons.mp mem with rfl | mem
      · obtain ⟨command, steps, paths, here, path, inside, same, r, parsed, turned⟩ :=
          exists_path followed (by rw [row]; decide) (by rw [row]; decide)
        have call := (path_row command.request command.request.mem_all steps here.hooked
          paths (List.mem_of_getElem? here.reached) path inside (.inl (same.trans row))).1
        rw [call] at parsed
        exact ⟨r, parsed⟩
      · rcases follow_cons followed with ⟨later, _, followed⟩ | ⟨_, _, _, rfl⟩
        · exact ih rfl followed mem
        · exact absurd mem behind

end Loops

/-- The transaction has got from its batches what the loop over single messages has. -/
structure Stands (x : Instruction) (single : Walk) : Prop where
  position
    : x.after = single.position
  processed
    : x.messagesReceived = single.processed
  outcome
    : x.notes.outcome = single.notes.outcome
  cleared
    : single.notes.asyncs = []

/-- So stands a transaction that is not complete, when new batches get the given identity. -/
structure Waits (x : Instruction) (single : Walk) (fresh : Nat) : Prop where
  stands
    : Stands x single
  unfinished
    : x.state ≠ .complete
  more
    : x.after.offset ≠ x.commands.length
  rows
    : x.state = .receiving .putTupledata
      → ∀ command steps paths, At x.commands x.after command steps paths
        → RowsStay steps x.after.step
  older
    : ∀ entry ∈ x.completed, entry.1 < fresh
  last
    : ∀ id, x.lastBatch = some id → id < fresh

/-- What is left to follow behind a batch of which some messages were taken. -/
structure Advanced (build : Build) (x : Instruction) (count fresh : Nat)
    (messages more : List Message) (final : Walk) (left : List Message)
    : Prop where
  positive
    : 0 < count
  within
    : count ≤ messages.length
  reached
    : (∃ single, Waits x single fresh
        ∧ follow build x.commands single (messages.drop count ++ more) = some (final, left))
      ∨ x.state = .complete ∧ Stands x final ∧ messages.drop count ++ more = left
        ∧ final.position.offset = x.commands.length

namespace Instruction

section Settling

variable {x : Instruction} {batch : Batch} {walk : Walk} {command : Command} {offset : Nat}
  {last : Parsed}

theorem switched_eq (x : Instruction) (command : Command) (offset : Nat) (last : Parsed)
    : ∃ state tail, x.switched command offset last
        = { x with state := state, copySequence := tail }
      ∧ (x.state ≠ .complete → state ≠ .complete)
      ∧ (state = .receiving .putTupledata
        → state = x.state ∨ ∃ atts, last = .tuple atts) := by
  have same : x = { x with state := x.state, copySequence := x.copySequence } := rfl
  unfold switched
  split
  · split
    · exact ⟨_, _, rfl, by simp, by simp⟩
    · exact ⟨_, _, rfl, by simp, fun _ => .inr ⟨_, rfl⟩⟩
    · exact ⟨_, _, rfl, by simp, by simp⟩
    · exact ⟨_, _, rfl, by simp, by simp⟩
    · exact ⟨_, _, same, id, fun _ => .inl rfl⟩
  · exact ⟨_, _, same, id, fun _ => .inl rfl⟩

theorem complete_new (older : ∀ entry ∈ x.completed, entry.1 < batch.id)
    (processed : List Parsed)
    : x.complete batch processed = x.completed ++ [(batch.id, processed)] := by
  refine if_neg (fun same => ?_)
  obtain ⟨entry, last, id⟩ := Option.map_eq_some_iff.mp same
  have less := older entry (List.mem_of_getLast? last)
  omega

/-- What the transaction is behind the loop. -/
theorem settle_eq (x : Instruction) (batch : Batch) (walk : Walk)
    : ∃ state tail, x.settle batch walk
        = { x with
            completed := x.complete batch walk.processed
            lastBatch := some batch.id
            before := x.after
            after := walk.position
            notes := walk.notes
            state := state
            copySequence := tail }
      ∧ (walk.position.offset = x.commands.length → state = .complete)
      ∧ (walk.position.offset ≠ x.commands.length → x.state ≠ .complete → state ≠ .complete)
      ∧ (walk.position.offset ≠ x.commands.length → state = .receiving .putTupledata
        → state = x.state ∨ ∃ atts, walk.processed.getLast? = some (.tuple atts)) := by
  unfold settle
  dsimp only
  split
  · rename_i done
    exact ⟨.complete, x.copySequence, rfl, fun _ => rfl, fun more => absurd done more,
      fun more => absurd done more⟩
  · rename_i more
    split
    · rename_i command last _ tail
      obtain ⟨state, sequence, same, unfinished, rows⟩ := switched_eq
        { x with
          completed := x.complete batch walk.processed
          lastBatch := some batch.id
          before := x.after
          after := walk.position
          notes := walk.notes } command walk.position.offset last
      refine ⟨state, sequence, same, fun done => absurd done more, fun _ => unfinished,
        fun _ is => ?_⟩
      rcases rows is with old | ⟨atts, rfl⟩
      · exact .inl old
      · exact .inr ⟨atts, tail⟩
    · exact ⟨x.state, x.copySequence, rfl, fun done => absurd done more, fun _ => id,
        fun _ _ => .inl rfl⟩

end Settling

section Puts

variable {build : Build} {x : Instruction} {single final : Walk} {fresh : Nat}
  {messages more left : List Message}

theorem messagesReceived_append (x : Instruction) (id : Nat) (processed : List Parsed)
    : { x with completed := x.completed ++ [(id, processed)] }.messagesReceived
      = x.messagesReceived ++ processed := by
  simp [messagesReceived]

theorem older_append (older : ∀ entry ∈ x.completed, entry.1 < fresh) (processed : List Parsed)
    : ∀ entry ∈ x.completed ++ [(fresh, processed)], entry.1 < fresh + 1 := by
  intro entry member
  rcases List.mem_append.mp member with member | member
  · exact Nat.lt_succ_of_lt (older entry member)
  · rw [List.mem_singleton.mp member]
    exact Nat.lt_succ_self fresh

/-- The loop over a batch takes at least one message. -/
theorem standardPut_advanced (waits : Waits x single fresh)
    (at_ : x.state = .receiving .standardPut) (some : messages ≠ [])
    (followed : follow build x.commands single (messages ++ more) = .some (final, left))
    : ∃ later count, x.standardPut build ⟨fresh, messages⟩ = (later, .ok count)
        ∧ later.commands = x.commands
        ∧ Advanced build later count (fresh + 1) messages more final left := by
  have new : x.lastBatch ≠ .some fresh := fun same => absurd (waits.last fresh same) (by simp)
  have start : x.startOf ⟨fresh, messages⟩ = single.position :=
    (if_neg new).trans waits.stands.position
  have alike : Alike x.messagesReceived
      ⟨x.startOf ⟨fresh, messages⟩, [], x.notesOf ⟨fresh, messages⟩⟩ single := by
    refine ⟨start, ?_, ?_, waits.stands.cleared⟩
    · exact (List.append_nil _).trans waits.stands.processed
    · have notes : x.notesOf ⟨fresh, messages⟩ = { x.notes with asyncs := [] } := if_neg new
      exact (congrArg Notes.outcome notes).trans waits.stands.outcome
  have placed : Placed x.commands single.position := by
    obtain ⟨first, rest, rfl⟩ := List.exists_cons_of_ne_nil some
    have turned : ∀ error, turn build x.commands single first ≠ .raised error := by
      intro error raised
      rcases follow_cons followed with ⟨_, next, _⟩ | ⟨_, finished, _⟩
      · simp [raised] at next
      · simp [raised] at finished
    exact placed_of_turn turned
  have known : (x.commands[(x.startOf ⟨fresh, messages⟩).offset]?).isNone = false := by
    rw [start]
    obtain ⟨command, _, _, here⟩ := placed
    rw [here.known]
    rfl
  have looped := loop_alike alike followed
  unfold standardPut
  dsimp only
  rw [known]
  simp only [Bool.false_eq_true, if_false]
  generalize result : loop build x.commands
    ⟨x.startOf ⟨fresh, messages⟩, [], x.notesOf ⟨fresh, messages⟩⟩ messages = outcome at looped ⊢
  obtain ⟨state, tail, settled, done, unfinished, rows⟩ :=
    settle_eq x ⟨fresh, messages⟩ outcome.walk
  rw [complete_new waits.older] at settled
  have received := messagesReceived_append x fresh outcome.walk.processed
  rcases looped with ⟨ending, count, later, alike', followed'⟩
    | ⟨ending, count, alike', rfl⟩
  · have through := loop_through ((congrArg Looped.ending result).trans ending)
      (by rw [start]; exact placed) (by simp [RowsKept])
    rw [result] at through
    have more_ : outcome.walk.position.offset ≠ x.commands.length :=
      Nat.ne_of_lt (Placed.lt through.1)
    rw [ending]
    refine ⟨_, _, rfl, by rw [settled], ?_⟩
    rw [settled, count]
    refine ⟨List.length_pos_of_ne_nil some, Nat.le_refl _, .inl ⟨later, ?_, ?_⟩⟩
    · refine ⟨⟨alike'.position, ?_, alike'.outcome, alike'.cleared⟩,
        unfinished more_ waits.unfinished, more_, ?_, older_append waits.older _, ?_⟩
      · exact received.trans alike'.processed
      · intro is command steps paths here
        rcases rows more_ is with old | ⟨atts, last⟩
        · rw [old, at_] at is
          contradiction
        · exact through.2 atts last command steps paths here
      · rintro id ⟨⟩
        exact Nat.lt_succ_self fresh
    · rw [List.drop_length, List.nil_append]
      exact followed'
  · have finished := loop_finished ((congrArg Looped.ending result).trans ending)
    rw [result] at finished
    rw [ending]
    refine ⟨_, _, rfl, by rw [settled], ?_⟩
    rw [settled]
    refine ⟨finished.2, count, .inr ⟨done finished.1, ?_, rfl, ?_⟩⟩
    · exact ⟨alike'.position, received.trans alike'.processed, alike'.outcome, alike'.cleared⟩
    · exact (congrArg Position.offset alike'.position).symm.trans finished.1

theorem fallBack_advanced (waits : Waits x single fresh) (some : messages ≠ [])
    (followed : follow build x.commands single (messages ++ more) = .some (final, left))
    : ∃ later count, x.fallBack build ⟨fresh, messages⟩ = (later, .ok count)
        ∧ later.commands = x.commands
        ∧ Advanced build later count (fresh + 1) messages more final left := by
  obtain ⟨⟨position, processed, outcome, cleared⟩, _, more_, _, older, last⟩ := waits
  have same : Waits { x with state := .receiving .standardPut } single fresh :=
    ⟨⟨position, processed, outcome, cleared⟩, by simp, more_, by simp, older, last⟩
  exact standardPut_advanced same rfl some followed

/-- A fast path takes messages from the front and leaves the position. -/
theorem record_advanced (waits : Waits x single fresh) {front : List Message}
    (some : front ≠ []) (front_ : front = messages.take front.length) {parsed : List Parsed}
    (length : parsed.length = front.length)
    (followed
      : follow build x.commands { single with processed := single.processed ++ parsed }
          (messages.drop front.length ++ more)
        = .some (final, left))
    : ∃ later count, x.record ⟨fresh, messages⟩ parsed = (later, .ok count)
        ∧ later.commands = x.commands
        ∧ Advanced build later count (fresh + 1) messages more final left := by
  have received := messagesReceived_append x fresh parsed
  have within : front.length ≤ messages.length := by
    have size := congrArg List.length front_
    rw [List.length_take] at size
    omega
  refine ⟨_, _, rfl, rfl, ?_⟩
  rw [length, complete_new waits.older]
  refine ⟨List.length_pos_of_ne_nil some, within, .inl ⟨_, ?_, followed⟩⟩
  refine ⟨⟨waits.stands.position, ?_, waits.stands.outcome, waits.stands.cleared⟩,
    waits.unfinished, waits.more, waits.rows, older_append waits.older _, ?_⟩
  · exact received.trans (congrArg (· ++ parsed) waits.stands.processed)
  · rintro id ⟨⟩
    exact Nat.lt_succ_self fresh

theorem putCopydata_advanced (waits : Waits x single fresh) (some : messages ≠ [])
    (followed : follow build x.commands single (messages ++ more) = .some (final, left))
    : ∃ later count, x.putCopydata build ⟨fresh, messages⟩ = (later, .ok count)
        ∧ later.commands = x.commands
        ∧ Advanced build later count (fresh + 1) messages more final left := by
  obtain ⟨last, is⟩ := Option.ne_none_iff_exists'.mp (mt List.getLast?_eq_none_iff.mp some)
  simp only [putCopydata, is]
  split
  · exact fallBack_advanced waits some followed
  · rename_i all
    have lines := List.length_filter_eq_length_iff.mp (not_not.mp (not_or.mp all).2)
    have data : ∀ x ∈ messages, x.typ = char 'd' := fun x member => by simpa using lines x member
    rw [List.filter_eq_self.mpr lines]
    have plain := follow_copyData data waits.stands.cleared followed
    refine record_advanced waits some (List.take_length).symm (List.length_map _) ?_
    rw [List.drop_length, List.nil_append]
    exact plain

theorem exists_mapM {Item Value Error : Type} (read : Item → Except Error Value)
    {items : List Item} (each : ∀ item ∈ items, ∃ value, read item = .ok value)
    : ∃ values, items.mapM read = .ok values ∧ values.length = items.length := by
  induction items with
  | nil => exact ⟨[], rfl, rfl⟩
  | cons item rest ih =>
      obtain ⟨value, first⟩ := each item List.mem_cons_self
      obtain ⟨values, later, length⟩ := ih (fun other member =>
        each other (List.mem_cons_of_mem _ member))
      refine ⟨value :: values, ?_, congrArg (· + 1) length⟩
      rw [List.mapM_cons, first, later]
      rfl

theorem putTupledata_advanced (waits : Waits x single fresh)
    (at_ : x.state = .receiving .putTupledata) (some : messages ≠ [])
    (followed : follow build x.commands single (messages ++ more) = .some (final, left))
    (behind : ∀ message ∈ left, message.typ ≠ char 'D')
    : ∃ later count, x.putTupledata build ⟨fresh, messages⟩ = (later, .ok count)
        ∧ later.commands = x.commands
        ∧ Advanced build later count (fresh + 1) messages more final left := by
  have kept := waits.rows at_
  rw [waits.stands.position] at kept
  cases build with
  | optimized =>
      have parts := List.takeWhile_append_dropWhile
        (p := fun message : Message => message.typ = char 'D') (l := messages)
      have rows : ∀ y ∈ messages.takeWhile (fun message => message.typ = char 'D'),
          y.typ = char 'D' :=
        fun y member => by simpa using List.mem_takeWhile_imp member
      rw [← parts, List.append_assoc] at followed
      obtain ⟨tuples, each, length, plain⟩ :=
        follow_tuples rows kept waits.stands.cleared followed
      simp only [putTupledata, consumeTupleMessages, each]
      cases tuples with
      | nil =>
          rw [← List.append_assoc, parts] at followed
          exact fallBack_advanced waits some followed
      | cons first others =>
          have front := List.takeWhile_prefix (fun message : Message => message.typ = char 'D')
            (l := messages)
          refine record_advanced waits (List.ne_nil_of_length_pos (by rw [← length]; simp))
            (List.prefix_iff_eq_take.mp front) length ?_
          rw [drop_length_takeWhile]
          exact plain
  | plain =>
      obtain ⟨last, is⟩ := Option.ne_none_iff_exists'.mp (mt List.getLast?_eq_none_iff.mp some)
      simp only [putTupledata, is]
      split
      · exact fallBack_advanced waits some followed
      · have parsed : ∀ message ∈ messages.filter (fun message => message.typ = char 'D'),
            ∃ tuple, (Build.plain.parseTuple message.body).map Parsed.tuple = .ok tuple := by
          intro message member
          obtain ⟨listed, row⟩ := List.mem_filter.mp member
          have row : message.typ = char 'D' := by simpa using row
          exact exists_tuple_of_follow waits.stands.cleared followed
            (List.mem_append_left _ listed) row (fun late => behind message late row)
        obtain ⟨tuples, each, length⟩ := exists_mapM
          (fun message : Message => (Build.plain.parseTuple message.body).map Parsed.tuple)
          parsed
        rw [each]
        dsimp only
        split
        · exact fallBack_advanced waits some followed
        · rename_i all
          have size := length.symm.trans (not_not.mp all)
          have lines := List.length_filter_eq_length_iff.mp size
          have rows : ∀ y ∈ messages, y.typ = char 'D' :=
            fun y member => by simpa using lines y member
          obtain ⟨others, also, length', plain⟩ :=
            follow_tuples rows kept waits.stands.cleared followed
          rw [List.filter_eq_self.mpr lines, also] at each
          obtain rfl := Except.ok.inj each
          refine record_advanced waits some (List.take_length).symm length' ?_
          rw [List.drop_length, List.nil_append]
          exact plain

/-- Whatever the operation, it takes messages as the loop over single messages does. -/
theorem put_advanced {op : PutMethod} (waits : Waits x single fresh)
    (at_ : x.state = .receiving op) (some : messages ≠ [])
    (followed : follow build x.commands single (messages ++ more) = .some (final, left))
    (behind : ∀ message ∈ left, message.typ ≠ char 'D')
    : ∃ later count, x.put build op ⟨fresh, messages⟩ = (later, .ok count)
        ∧ later.commands = x.commands
        ∧ Advanced build later count (fresh + 1) messages more final left := by
  cases op with
  | standardPut => exact standardPut_advanced waits at_ some followed
  | putCopydata => exact putCopydata_advanced waits some followed
  | putTupledata => exact putTupledata_advanced waits at_ some followed behind

end Puts

end Instruction

-----------------------------------------------------------------------------------------
-- The client
-----------------------------------------------------------------------------------------

/-- How often the operation is still called until the transaction receives. -/
def Instruction.sends (x : Instruction) : Nat :=
  match x.state, x.messages with
  | .sending .standardSent, _ => 1
  | .sending .sentFromStdin, .copyFailSequence => 1
  | .sending .sentFromStdin, .copyDoneSequence => 1
  | .sending .sentFromStdin, _ => 2
  | _, _ => 0

theorem Instruction.sends_le (x : Instruction) : x.sends ≤ 2 := by
  unfold sends
  split <;> decide

/-- Transitions that the client still makes at most. -/
def Client.due (client : Client) (arrivals : Arrivals) : Nat :=
  3 * (client.read.length + arrivals.flatten.length) + arrivals.length + client.xact.sends

/-- Sending leaves everything but the state and what is to be sent. -/
theorem sent_eq {x : Instruction} {op : SentMethod} (at_ : x.state = .sending op)
    : ∃ messages state, x.sent op = { x with messages := messages, state := state }
        ∧ state ≠ .complete ∧ state ≠ .receiving .putTupledata
        ∧ (x.sent op).sends + 1 = x.sends := by
  have same : x = { x with messages := x.messages, state := x.state } := rfl
  cases op with
  | standardSent =>
      exact ⟨_, _, rfl, by simp, by simp, by simp [Instruction.sent, Instruction.sends, at_]⟩
  | sentFromStdin =>
      cases attached : x.messages with
      | copyFailSequence | copyDoneSequence =>
          simp only [Instruction.sent, attached]
          exact ⟨_, _, rfl, by simp, by simp, by simp [Instruction.sends, at_, attached]⟩
      | none | commands _ | lines _ =>
          simp only [Instruction.sent, attached]
          exact ⟨.copyFailSequence, x.state, rfl, by simp [at_], by simp [at_],
            by simp [Instruction.sends, at_, attached]⟩

theorem sent_waits {x : Instruction} {single : Walk} {fresh : Nat} (waits : Waits x single fresh)
    {op : SentMethod} (at_ : x.state = .sending op)
    : (x.sent op).commands = x.commands ∧ Waits (x.sent op) single fresh
        ∧ (x.sent op).sends + 1 = x.sends := by
  obtain ⟨⟨position, processed, outcome, cleared⟩, _, more, _, older, last⟩ := waits
  obtain ⟨messages, state, same, unfinished, fast, sends⟩ := sent_eq at_
  refine ⟨by rw [same], ?_, sends⟩
  rw [same]
  exact ⟨⟨position, processed, outcome, cleared⟩, unfinished, more,
    fun is => absurd is fast, older, last⟩

/-- The client has taken all messages that the loop over single messages takes. -/
structure Ended (commands : List Command) (client : Client) (arrivals : Arrivals) (final : Walk)
    (left : List Message)
    : Prop where
  stands
    : Stands client.xact final
  left
    : client.read ++ arrivals.flatten = left
  completed
    : client.xact.state = .complete ↔ final.position.offset = commands.length

theorem complete_of_complete {build : Build} {client : Client}
    (completed : client.xact.state = .complete) (fuel : Nat) (arrivals : Arrivals)
    : Client.complete build fuel client arrivals = (client, arrivals) := by
  cases fuel with
  | zero => rfl
  | succ fuel => simp only [Client.complete, completed]

theorem exhausted_ended {build : Build} {client : Client} {single final : Walk}
    {left : List Message} (waits : Waits client.xact single client.fresh)
    (followed : follow build client.xact.commands single [] = some (final, left))
    (empty : client.read = [])
    : Ended client.xact.commands client [] final left := by
  obtain ⟨rfl, rfl⟩ : single = final ∧ [] = left := by simpa [follow] using followed
  refine ⟨waits.stands, by simp [empty], iff_of_false waits.unfinished ?_⟩
  rw [← waits.stands.position]
  exact waits.more

/-- By induction on the transitions. -/
theorem complete_ended {build : Build} {final : Walk} {left : List Message}
    (behind : ∀ message ∈ left, message.typ ≠ char 'D') {fuel : Nat} {client : Client}
    {arrivals : Arrivals} {single : Walk} (waits : Waits client.xact single client.fresh)
    (followed
      : follow build client.xact.commands single (client.read ++ arrivals.flatten)
        = some (final, left))
    (enough : client.due arrivals ≤ fuel)
    : Ended client.xact.commands (Client.complete build fuel client arrivals).1
        (Client.complete build fuel client arrivals).2 final left := by
  induction fuel generalizing client arrivals single with
  | zero =>
      rw [Client.due] at enough
      have empty : client.read = [] := List.length_eq_zero_iff.mp (by omega)
      obtain rfl : arrivals = [] := List.length_eq_zero_iff.mp (by omega)
      rw [empty] at followed
      exact exhausted_ended waits followed empty
  | succ fuel ih =>
      cases at_ : client.xact.state with
      | complete => exact absurd at_ waits.unfinished
      | sending op =>
          obtain ⟨commands, later, less⟩ := sent_waits waits at_
          have step := @ih (client.send op) arrivals single later
            (by rw [← commands] at followed; exact followed)
            (by simp only [Client.due, Client.send] at enough ⊢; omega)
          simp only [Client.complete, at_]
          rw [← commands]
          exact step
      | receiving op =>
          cases read : client.read with
          | nil =>
              cases arrivals with
              | nil =>
                  rw [read] at followed
                  simp only [Client.complete, at_, read]
                  exact exhausted_ended waits followed read
              | cons chunk rest =>
                  have step := @ih { client with read := chunk } rest single waits
                    (by rw [read] at followed; exact followed)
                    (by
                      simp only [Client.due, read, List.flatten_cons, List.length_append,
                        List.length_cons, List.length_nil] at enough ⊢
                      omega)
                  simp only [Client.complete, at_, read]
                  exact step
          | cons first others =>
              rw [read] at followed
              obtain ⟨later, count, put, commands, positive, within, reached⟩ :=
                Instruction.put_advanced waits at_ (List.cons_ne_nil first others) followed behind
              have received : client.receive build op
                  = { client with
                      xact := later
                      read := client.read.drop count
                      fresh := client.fresh + 1 } := by
                simp only [Client.receive, read, put]
              simp only [Client.complete, at_, read]
              rw [received, ← commands]
              rcases reached with ⟨single, waits, followed⟩ | ⟨state, stands, rest, finished⟩
              · refine @ih
                  { client with
                    xact := later
                    read := client.read.drop count
                    fresh := client.fresh + 1 }
                  arrivals single waits (by rw [read]; exact followed) ?_
                have sends := later.sends_le
                simp only [Client.due, read, List.length_drop, List.length_cons] at enough within ⊢
                omega
              · rw [complete_of_complete state]
                exact ⟨stands, by rw [read]; exact rest, iff_of_true state finished⟩

theorem complete_ended_start {build : Build} {commands : List Command} {arrivals : Arrivals}
    {final : Walk} {left : List Message} (some : commands ≠ [])
    (followed
      : follow build commands ⟨⟨0, 0⟩, [], {}⟩ arrivals.flatten = .some (final, left))
    (behind : ∀ message ∈ left, message.typ ≠ char 'D') {fuel : Nat}
    (enough : 3 * arrivals.flatten.length + arrivals.length + 1 ≤ fuel)
    : Ended commands
        (Client.complete build fuel (Client.start (Instruction.init commands)) arrivals).1
        (Client.complete build fuel (Client.start (Instruction.init commands)) arrivals).2
        final left := by
  refine @complete_ended build final left behind fuel
    (Client.start (Instruction.init commands)) arrivals ⟨⟨0, 0⟩, [], {}⟩ ?_ followed ?_
  · refine ⟨⟨rfl, rfl, rfl, rfl⟩, by simp [Client.start, Instruction.init], ?_,
      by simp [Client.start, Instruction.init], by simp [Client.start, Instruction.init],
      by simp [Client.start, Instruction.init]⟩
    exact fun same => some (List.length_eq_zero_iff.mp same.symm)
  · simp only [Client.due, Client.start, Instruction.init, Instruction.sends, List.length_nil]
    omega

/-- However the responses arrive and whatever fast paths they take, in both builds where the
strict one parses the rows, the client has received what the loop over single messages
parses, with the same errors and the same state of the session, stands at the same position,
and leaves the messages behind the transaction unread.
-/
theorem complete_follow {build : Build} {commands : List Command} {arrivals : Arrivals}
    {final : Walk} {left : List Message} (some : commands ≠ [])
    (followed
      : follow build commands ⟨⟨0, 0⟩, [], {}⟩ arrivals.flatten = .some (final, left))
    (behind : ∀ message ∈ left, message.typ ≠ char 'D') {fuel : Nat}
    (enough : 3 * arrivals.flatten.length + arrivals.length + 1 ≤ fuel) {client : Client}
    {rest : Arrivals}
    (ended
      : Client.complete build fuel (Client.start (Instruction.init commands)) arrivals
        = (client, rest))
    : client.xact.messagesReceived = final.processed
        ∧ client.xact.notes.outcome = final.notes.outcome
        ∧ client.xact.after = final.position
        ∧ client.read ++ rest.flatten = left
        ∧ (client.xact.state = .complete ↔ final.position.offset = commands.length) := by
  have whole := complete_ended_start some followed behind enough
  rw [ended] at whole
  exact ⟨whole.stands.processed, whole.stands.outcome, whole.stands.position, whole.left,
    whole.completed⟩

/-- A query with two rows, cut behind the first one, and a notice behind its end. -/
theorem complete_follow_rows
    : let client := (Client.complete .optimized 25
          (Client.start (Instruction.init [⟨.string .query [], .query, rfl⟩]))
          [[⟨char 'T', [0, 0]⟩, ⟨char 'D', [0, 0]⟩],
            [⟨char 'D', [0, 0]⟩, ⟨char 'C', [0]⟩, ⟨char 'Z', [char 'I']⟩, ⟨char 'N', [0]⟩]]).1
      client.xact.messagesReceived
          = [.element (.tupleDescriptor []), .tuple [], .tuple [], .element (.complete []),
            .element (.ready .idle)]
        ∧ client.xact.after = ⟨1, 0⟩ := by
  have followed
      : follow .optimized [⟨.string .query [], .query, rfl⟩] ⟨⟨0, 0⟩, [], {}⟩
          [⟨char 'T', [0, 0]⟩, ⟨char 'D', [0, 0]⟩, ⟨char 'D', [0, 0]⟩, ⟨char 'C', [0]⟩,
            ⟨char 'Z', [char 'I']⟩, ⟨char 'N', [0]⟩]
        = some
            (⟨⟨1, 0⟩,
              [.element (.tupleDescriptor []), .tuple [], .tuple [], .element (.complete []),
                .element (.ready .idle)],
              { lastReady := some .idle }⟩, [⟨char 'N', [0]⟩]) :=
    rfl
  have whole := @complete_follow .optimized _
    [[⟨char 'T', [0, 0]⟩, ⟨char 'D', [0, 0]⟩],
      [⟨char 'D', [0, 0]⟩, ⟨char 'C', [0]⟩, ⟨char 'Z', [char 'I']⟩, ⟨char 'N', [0]⟩]]
    _ _ (List.cons_ne_nil _ _) followed (by decide) 25 (by decide) _ _ rfl
  exact ⟨whole.1, whole.2.2.1⟩

end PgCluster.Postgresql
