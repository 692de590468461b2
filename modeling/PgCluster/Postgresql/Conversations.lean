import PgCluster.Postgresql.InstructionRuns

/-! Conversations that a server may lead about a sequence of commands: answers, errors that
skip to the next synchronization, and asynchronous messages anywhere. The client completes
each of them with what was answered.
-/

namespace PgCluster.Postgresql

open Foundation

-----------------------------------------------------------------------------------------
-- What a server may say
-----------------------------------------------------------------------------------------

/-- The result of one statement of a simple query. -/
inductive Result : List Parsed → Prop where
  | complete (text : Bytes) : Result [.element (.complete text)]
  | null : Result [.element (.empty .null)]
  | rows (atts : List Attribute) (rows : List (List (Option Bytes))) (text : Bytes)
    : Result
        (.element (.tupleDescriptor atts) :: (rows.map Parsed.tuple ++ [.element (.complete text)]))
  | copyTo (format : Nat) (formats : List Nat) (lines : List Bytes) (text : Bytes)
    : Result
        (.element (.copyBegin .to format formats)
          :: (lines.map Parsed.data
            ++ [.element (.empty .copyDone), .element (.complete text)]))
  | copyFrom (format : Nat) (formats : List Nat) (text : Bytes)
    : Result [.element (.copyBegin .from format formats), .element (.complete text)]

/-- The answer to a message. A portal that returns no rows must not be described. -/
inductive Answer : Request → List Parsed → Prop where
  | query (results : List (List Parsed)) (each : ∀ result ∈ results, Result result)
      (state : XactState)
    : Answer .query (results.flatten ++ [.element (.ready state)])
  | function (result : Option Bytes) (state : XactState)
    : Answer .function [.element (.functionResult result), .element (.ready state)]
  | parse : Answer .parse [.element (.empty .parseComplete)]
  | bind : Answer .bind [.element (.empty .bindComplete)]
  | statement (types : List Nat) (atts : List Attribute)
    : Answer .describe [.element (.attributeTypes types), .element (.tupleDescriptor atts)]
  | statementNoData (types : List Nat)
    : Answer .describe [.element (.attributeTypes types), .element (.empty .noData)]
  | portal (atts : List Attribute) : Answer .describe [.element (.tupleDescriptor atts)]
  | close : Answer .close [.element (.empty .closeComplete)]
  | null : Answer .execute [.element (.empty .null)]
  | rows (rows : List (List (Option Bytes))) (text : Bytes)
    : Answer .execute (rows.map Parsed.tuple ++ [.element (.complete text)])
  | suspended (first : List (Option Bytes)) (rows : List (List (Option Bytes)))
    : Answer .execute
        (.tuple first :: (rows.map Parsed.tuple ++ [.element (.empty .suspension)]))
  | copyTo (format : Nat) (formats : List Nat) (lines : List Bytes) (text : Bytes)
    : Answer .execute
        (.element (.copyBegin .to format formats)
          :: (lines.map Parsed.data
            ++ [.element (.empty .copyDone), .element (.complete text)]))
  | copyFrom (format : Nat) (formats : List Nat) (text : Bytes)
    : Answer .execute
        [.element (.copyBegin .from format formats), .element (.complete text)]
  | synchronize (state : XactState) : Answer .synchronize [.element (.ready state)]
  | flush : Answer .flush []

/-- What the messages of a conversation say. -/
inductive Item where
  | parsed (r : Parsed)
  | error (fields : Fields)

/-- The conversation about the commands. An error cuts an answer short: a query still gets
its Ready, other commands up to the next synchronization are skipped.
-/
inductive Conversation : List Command → List Item → Prop where
  | nil : Conversation [] []
  | answered {command : Command} {rest : List Command} {answer : List Parsed} {items : List Item}
      (answers : Answer command.request answer) (later : Conversation rest items)
    : Conversation (command :: rest) (answer.map Item.parsed ++ items)
  | failedQuery {command : Command} {rest : List Command} {said unsaid : List Parsed}
      {items : List Item} (query : command.request = .query)
      (answers : Answer command.request (said ++ unsaid)) (cut : unsaid ≠ [])
      (fields : Fields) (state : XactState) (later : Conversation rest items)
    : Conversation (command :: rest)
        (said.map Item.parsed ++ .error fields :: .parsed (.element (.ready state)) :: items)
  | failed {command : Command} {rest skipped after : List Command} {said unsaid : List Parsed}
      {items : List Item} {sync : Command}
      (extended : command.request ≠ .query ∧ command.request ≠ .function)
      (answers : Answer command.request (said ++ unsaid)) (cut : unsaid ≠ [])
      (split : command :: rest = skipped ++ sync :: after)
      (skips : ∀ other ∈ skipped, ¬ other.IsSynchronize) (synchronizes : sync.IsSynchronize)
      (fields : Fields) (later : Conversation (sync :: after) items)
    : Conversation (command :: rest) (said.map Item.parsed ++ .error fields :: items)

/-- The received message is what a server sends for it. -/
def Delivers (message : Message) : Parsed → Prop
  | .element element => Carries message element
  | .data data => message = ⟨char 'd', data⟩
  | .tuple atts =>
      message.typ = char 'D' ∧ (∀ att ∈ atts, Sized att)
        ∧ Tuple.serialize atts = some message.body

def Says (message : Message) : Item → Prop
  | .parsed r => Delivers message r
  | .error fields =>
      message.typ = char 'E' ∧ Notice.parse message.body = fields ∧ isFatal fields = some false

/-- What the client gets to see. -/
def received (items : List Item) : List Parsed :=
  items.filterMap (fun item => match item with | .parsed r => some r | .error _ => none)

/-- What an item changes besides. -/
def Item.note (notes : Notes) : Item → Notes
  | .parsed r => { notes with lastReady := readyOf r notes.lastReady }
  | .error fields =>
      { notes with fatal := some false, errorMessage := some (.server fields) }

-----------------------------------------------------------------------------------------
-- Answers
-----------------------------------------------------------------------------------------

namespace Parsed

def typ : Parsed → UInt8
  | .element other => other.cls.typ.headD 0
  | .data _ => char 'd'
  | .tuple _ => char 'D'

def parser : Parsed → Parser
  | .element other => .parse other.cls
  | .data _ => .returnArg
  | .tuple _ => .tuple

end Parsed

theorem Delivers.typ {message : Message} {r : Parsed} (delivers : Delivers message r)
    : message.typ = r.typ := by
  cases r with
  | element element =>
      rw [Parsed.typ, delivers.1]
      rfl
  | data data => exact congrArg Message.typ delivers
  | tuple atts => exact delivers.1

/-- Both parsers of rows read what the server writes. -/
theorem Delivers.call {message : Message} {r : Parsed} (delivers : Delivers message r)
    (build : Build)
    : r.parser.call build message.body = .ok r := by
  cases r with
  | element element =>
      simp only [Parsed.parser, Parser.call, delivers.2, Except.map, Except.mapError]
  | data data =>
      obtain rfl := delivers
      rfl
  | tuple atts =>
      obtain ⟨_, sized, serialized⟩ := delivers
      cases build with
      | plain =>
          simp only [Parsed.parser, Parser.call, Build.parseTuple,
            Tuple.parse_serialize sized serialized, Except.map, Except.mapError]
      | optimized =>
          simp only [Parsed.parser, Parser.call, Build.parseTuple,
            parseTupleMessage_of_serialize sized serialized, Except.map, Except.mapError]

/-- The path of a message type in a step. -/
def Request.pathFor (request : Request) (step : Nat) (typ : UInt8) : Option Path := do
  let steps ← request.hook
  let paths ← steps[step]?
  paths.find? (fun path => path.typ = typ)

/-- In the step, such a message is expected. -/
def Advances (request : Request) (step : Nat) (r : Parsed) (next : Option Nat) : Prop :=
  request.pathFor step r.typ = some ⟨r.typ, r.parser, next⟩

/-- The messages lead from one step to another. -/
inductive Moves (request : Request) : Nat → List Parsed → Nat → Prop where
  | refl (step : Nat) : Moves request step [] step
  | cons {step next last : Nat} {r : Parsed} {rest : List Parsed}
      (advances : Advances request step r (some next)) (moves : Moves request next rest last)
    : Moves request step (r :: rest) last

namespace Moves

variable {request : Request}

theorem append {first middle last : Nat} {front back : List Parsed}
    (before : Moves request first front middle) (behind : Moves request middle back last)
    : Moves request first (front ++ back) last := by
  induction before with
  | refl => exact behind
  | cons advances _ ih => exact .cons advances (ih behind)

theorem of_append {first last : Nat} {front back : List Parsed}
    (moves : Moves request first (front ++ back) last)
    : ∃ middle, Moves request first front middle ∧ Moves request middle back last := by
  induction front generalizing first with
  | nil => exact ⟨first, .refl first, moves⟩
  | cons r rest ih =>
      cases moves with
      | cons advances moves =>
          obtain ⟨middle, before, behind⟩ := ih moves
          exact ⟨middle, .cons advances before, behind⟩

/-- Messages of one kind that stay in their step. -/
theorem stay {Value : Type} {step : Nat} {kind : Value → Parsed}
    (advances : ∀ value, Advances request step (kind value) (some step)) (values : List Value)
    : Moves request step (values.map kind) step := by
  induction values with
  | nil => exact .refl step
  | cons value rest ih => exact .cons (advances value) ih

end Moves

/-- COPY to the client, up to the Complete that follows. -/
theorem Moves.copyTo {request : Request} {step data done : Nat} {format : Nat}
    {formats : List Nat}
    (begins : Advances request step (.element (.copyBegin .to format formats)) (some data))
    (line : ∀ text, Advances request data (.data text) (some data))
    (ends : Advances request data (.element (.empty .copyDone)) (some done))
    (lines : List Bytes)
    : Moves request step
        (.element (.copyBegin .to format formats)
          :: (lines.map Parsed.data ++ [.element (.empty .copyDone)])) done :=
  .cons begins ((Moves.stay line lines).append (.cons ends (.refl done)))

theorem Result.moves {result : List Parsed} (is : Result result)
    : Moves .query 0 result 0 := by
  cases is with
  | complete text => exact .cons rfl (.refl 0)
  | null => exact .cons rfl (.refl 0)
  | rows atts rows text =>
      have begins : Advances .query 0 (.element (.tupleDescriptor atts)) (some 3) := rfl
      have row : ∀ row, Advances .query 3 (.tuple row) (some 3) := fun _ => rfl
      exact .cons begins ((Moves.stay row rows).append (.cons rfl (.refl 0)))
  | copyTo format formats lines text =>
      have begins : Advances .query 0 (.element (.copyBegin .to format formats)) (some 2) := rfl
      have line : ∀ text, Advances .query 2 (.data text) (some 2) := fun _ => rfl
      have ends : Advances .query 2 (.element (.empty .copyDone)) (some 1) := rfl
      have completes : Moves .query 1 [.element (.complete text)] 0 := .cons rfl (.refl 0)
      simpa using (Moves.copyTo begins line ends lines).append completes
  | copyFrom format formats text =>
      have begins : Advances .query 0 (.element (.copyBegin .from format formats)) (some 1) := rfl
      exact .cons begins (.cons rfl (.refl 0))

theorem Moves.results {results : List (List Parsed)} (each : ∀ result ∈ results, Result result)
    : Moves .query 0 results.flatten 0 := by
  induction results with
  | nil => exact .refl 0
  | cons result rest ih =>
      have later := ih (fun other member => each other (List.mem_cons_of_mem _ member))
      exact (each result List.mem_cons_self).moves.append later

/-- An answer goes step by step to the message that completes the command. -/
theorem Answer.moves {request : Request} {answer : List Parsed} (answers : Answer request answer)
    : (request = .flush ∧ answer = [])
        ∨ ∃ front last step, answer = front ++ [last] ∧ Moves request 0 front step
          ∧ Advances request step last none := by
  cases answers with
  | query results each state => exact .inr ⟨_, _, 0, rfl, Moves.results each, rfl⟩
  | function result state =>
      have begins : Advances .function 0 (.element (.functionResult result)) (some 1) := rfl
      exact .inr ⟨[_], _, 1, rfl, .cons begins (.refl 1), rfl⟩
  | parse => exact .inr ⟨[], _, 0, rfl, .refl 0, rfl⟩
  | bind => exact .inr ⟨[], _, 0, rfl, .refl 0, rfl⟩
  | statement types atts =>
      have begins : Advances .describe 0 (.element (.attributeTypes types)) (some 1) := rfl
      exact .inr ⟨[_], _, 1, rfl, .cons begins (.refl 1), rfl⟩
  | statementNoData types =>
      have begins : Advances .describe 0 (.element (.attributeTypes types)) (some 1) := rfl
      exact .inr ⟨[_], _, 1, rfl, .cons begins (.refl 1), rfl⟩
  | portal atts => exact .inr ⟨[], _, 0, rfl, .refl 0, rfl⟩
  | close => exact .inr ⟨[], _, 0, rfl, .refl 0, rfl⟩
  | null => exact .inr ⟨[], _, 0, rfl, .refl 0, rfl⟩
  | rows rows text =>
      cases rows with
      | nil => exact .inr ⟨[], _, 0, rfl, .refl 0, rfl⟩
      | cons first others =>
          have begins : Advances .execute 0 (.tuple first) (some 1) := rfl
          have row : ∀ row, Advances .execute 1 (.tuple row) (some 1) := fun _ => rfl
          exact .inr ⟨.tuple first :: others.map .tuple, _, 1, rfl,
            .cons begins (Moves.stay row others), rfl⟩
  | suspended first rows =>
      have begins : Advances .execute 0 (.tuple first) (some 1) := rfl
      have row : ∀ row, Advances .execute 1 (.tuple row) (some 1) := fun _ => rfl
      exact .inr ⟨.tuple first :: rows.map .tuple, _, 1, rfl,
        .cons begins (Moves.stay row rows), rfl⟩
  | copyTo format formats lines text =>
      have begins : Advances .execute 0 (.element (.copyBegin .to format formats)) (some 2) :=
        rfl
      have line : ∀ text, Advances .execute 2 (.data text) (some 2) := fun _ => rfl
      have ends : Advances .execute 2 (.element (.empty .copyDone)) (some 3) := rfl
      exact .inr ⟨_, .element (.complete text), 3, by simp,
        Moves.copyTo begins line ends lines, rfl⟩
  | copyFrom format formats text =>
      have begins : Advances .execute 0 (.element (.copyBegin .from format formats)) (some 3) :=
        rfl
      exact .inr ⟨[_], _, 3, rfl, .cons begins (.refl 3), rfl⟩
  | synchronize state => exact .inr ⟨[], _, 0, rfl, .refl 0, rfl⟩
  | flush => exact .inl ⟨rfl, rfl⟩

-----------------------------------------------------------------------------------------
-- The loop over an answer
-----------------------------------------------------------------------------------------

section Loops

variable {build : Build} {commands : List Command} {walk : Walk} {command : Command}
  {rest : List Command} {more : List Message}

/-- The loop stands at the start of the given commands, behind those that nothing answers. -/
structure Before (commands : List Command) (walk : Walk) (rest : List Command) : Prop where
  remaining
    : commands.drop walk.position.offset
      = rest.dropWhile (fun command => command.request.hook.isNone)
  inside
    : walk.position.offset ≤ commands.length
  step
    : walk.position.step = 0
  cleared
    : walk.notes.asyncs = []

/-- Behind the last command no message is taken. -/
def landing (build : Build) (commands : List Command) (walk : Walk) (messages : List Message)
    : Option (Walk × List Message) :=
  if walk.position.offset = commands.length then some (walk, messages)
  else follow build commands walk messages

theorem Before.known (before : Before commands walk (command :: rest))
    (answered : command.request.hook ≠ none)
    : commands[walk.position.offset]? = some command := by
  have first := congrArg List.head? before.remaining
  rw [List.head?_drop, List.dropWhile_cons_of_neg (by simpa using answered)] at first
  exact first

theorem Before.landing_eq (before : Before commands walk (command :: rest))
    (answered : command.request.hook ≠ none) (messages : List Message)
    : landing build commands walk messages = follow build commands walk messages := by
  have inside := (List.getElem?_eq_some_iff.mp (before.known answered)).1
  exact if_neg (Nat.ne_of_lt inside)

theorem turn_of_advances {message : Message} {r : Parsed} {next : Option Nat}
    (known : commands[walk.position.offset]? = some command)
    (advances : Advances command.request walk.position.step r next)
    (delivers : Delivers message r)
    : turn build commands walk message = pathTurn commands walk r next := by
  simp only [Advances, Request.pathFor, Option.bind_eq_bind, Option.bind_eq_some_iff] at advances
  obtain ⟨steps, hooked, paths, reached, found⟩ := advances
  rw [← delivers.typ] at found
  exact turn_of_parsed ⟨known, hooked, reached⟩ found (delivers.call build)

/-- Ready completes every command that it answers. -/
theorem path_ready
    : ∀ request ∈ Request.all, ∀ steps ∈ request.hook, ∀ paths ∈ steps, ∀ path ∈ paths,
        path.call = .parse .ready → path.next = none := by
  decide

/-- Errors and asynchronous messages have no path. -/
theorem path_silent
    : ∀ request ∈ Request.all, ∀ steps ∈ request.hook, ∀ paths ∈ steps, ∀ path ∈ paths,
        path.typ ≠ char 'E' ∧ asynchronousMap path.typ = none := by
  decide

theorem readyOf_of_advances {request : Request} {step next : Nat} {r : Parsed}
    (advances : Advances request step r (some next)) (before : Option XactState)
    : readyOf r before = before := by
  simp only [Advances, Request.pathFor, Option.bind_eq_bind, Option.bind_eq_some_iff] at advances
  obtain ⟨steps, hooked, paths, reached, found⟩ := advances
  unfold readyOf
  split
  · have none := path_ready request request.mem_all steps hooked paths
      (List.mem_of_getElem? reached) _ (List.mem_of_find?_eq_some found) rfl
    contradiction
  · rfl

/-- The loop over messages that lead from step to step, by induction on them. -/
theorem follow_moves {step last : Nat} {said : List Parsed} {messages : List Message}
    (known : commands[walk.position.offset]? = some command)
    (moves : Moves command.request step said last) (at_ : walk.position.step = step)
    (clear : walk.notes.asyncs = []) (delivered : List.Forall₂ Delivers messages said)
    : follow build commands walk (messages ++ more)
      = follow build commands
          { walk with
            position := ⟨walk.position.offset, last⟩
            processed := walk.processed ++ said } more := by
  induction moves generalizing walk messages with
  | refl step =>
      obtain rfl := List.forall₂_nil_right_iff.mp delivered
      obtain rfl := at_
      rw [List.nil_append, List.append_nil]
  | @cons step next last r rest advances moves ih =>
      obtain ⟨message, others, delivers, later, rfl⟩ := List.forall₂_cons_right_iff.mp delivered
      rw [← at_] at advances
      have turned := @turn_of_advances build _ _ _ _ _ _ known advances delivers
      have behind := @ih
        { walk with
          position := ⟨walk.position.offset, next⟩
          processed := walk.processed ++ [r] } others known rfl clear later
      rw [List.cons_append, follow_next turned, cleared_mk clear, behind]
      simp

theorem Moves.foldl_note {request : Request} {first last : Nat} {said : List Parsed}
    (moves : Moves request first said last) (notes : Notes)
    : (said.map Item.parsed).foldl Item.note notes = notes := by
  induction moves with
  | refl => rfl
  | cons advances _ ih =>
      rw [List.map_cons, List.foldl_cons, Item.note, readyOf_of_advances advances]
      exact ih

/-- The message that completes a command. -/
theorem follow_completes {message : Message} {r : Parsed}
    (known : commands[walk.position.offset]? = some command)
    (advances : Advances command.request walk.position.step r none)
    (clear : walk.notes.asyncs = []) (delivers : Delivers message r)
    : follow build commands walk (message :: more)
      = landing build commands
          { position := ⟨nextOffset commands walk.position.offset, 0⟩
            processed := walk.processed ++ [r]
            notes := Item.note walk.notes (.parsed r) } more := by
  have turned := @turn_of_advances build _ _ _ _ _ _ known advances delivers
  have noted : (Item.note walk.notes (.parsed r)).asyncs = [] := clear
  by_cases finished : nextOffset commands walk.position.offset = commands.length
  · rw [pathTurn, if_pos finished] at turned
    rw [follow_finished turned, landing, if_pos finished]
    exact congrArg (fun walk => some (walk, more)) (cleared_mk noted _ _)
  · rw [pathTurn, if_neg finished] at turned
    rw [follow_next turned, landing, if_neg finished]
    exact congrArg (fun walk => follow build commands walk more) (cleared_mk noted _ _)

/-- Behind a completed command. -/
theorem Before.next (before : Before commands walk (command :: rest))
    (answered : command.request.hook ≠ none) {processed : List Parsed} {notes : Notes}
    (clear : notes.asyncs = [])
    : Before commands ⟨⟨nextOffset commands walk.position.offset, 0⟩, processed, notes⟩ rest := by
  have known := before.known answered
  have inside := (List.getElem?_eq_some_iff.mp known).1
  refine ⟨?_, nextOffset_le inside, rfl, clear⟩
  have remaining := before.remaining
  rw [List.dropWhile_cons_of_neg (by simpa using answered)] at remaining
  rw [drop_nextOffset, ← List.tail_drop, remaining, List.tail_cons]

theorem Answer.hook_ne_none {request : Request} {answer : List Parsed}
    (answers : Answer request answer) (some : answer ≠ [])
    : request.hook ≠ none := by
  cases answers with
  | flush => exact absurd rfl some
  | _ => decide

/-- A whole answer completes its command. -/
theorem landing_answer (before : Before commands walk (command :: rest)) {answer : List Parsed}
    (answers : Answer command.request answer) {messages : List Message}
    (delivered : List.Forall₂ Delivers messages answer)
    : ∃ later, landing build commands walk (messages ++ more) = landing build commands later more
        ∧ Before commands later rest ∧ later.processed = walk.processed ++ answer
        ∧ later.notes = (answer.map Item.parsed).foldl Item.note walk.notes := by
  rcases answers.moves with ⟨flush, rfl⟩ | ⟨front, last, step, rfl, moves, advances⟩
  · obtain rfl := List.forall₂_nil_right_iff.mp delivered
    refine ⟨walk, rfl, ⟨?_, before.inside, before.step, before.cleared⟩,
      (List.append_nil _).symm, rfl⟩
    rw [before.remaining, List.dropWhile_cons_of_pos (by rw [flush]; rfl)]
  · have answered := answers.hook_ne_none (by simp)
    have known := before.known answered
    rw [← List.take_append_drop front.length messages, List.append_assoc,
      before.landing_eq answered]
    have first := List.forall₂_take_append messages front [last] delivered
    have second := List.forall₂_drop_append messages front [last] delivered
    obtain ⟨message, others, delivers, nothing, single⟩ := List.forall₂_cons_right_iff.mp second
    obtain rfl := List.forall₂_nil_right_iff.mp nothing
    have completes := @follow_completes build commands
      { walk with
        position := ⟨walk.position.offset, step⟩
        processed := walk.processed ++ front }
      command more message last known advances before.cleared delivers
    rw [single, follow_moves known moves before.step before.cleared first, List.singleton_append,
      completes]
    refine ⟨_, rfl, before.next answered before.cleared, by simp, ?_⟩
    rw [List.map_append, List.foldl_append, moves.foldl_note]
    rfl

/-- A message that is still to come has a step that waits for it. -/
theorem Answer.moves_cut {request : Request} {said unsaid : List Parsed}
    (answers : Answer request (said ++ unsaid)) (cut : unsaid ≠ [])
    : ∃ step r next, Moves request 0 said step ∧ Advances request step r next := by
  rcases answers.moves with ⟨_, nothing⟩ | ⟨front, last, step, whole, moves, advances⟩
  · exact absurd (List.append_eq_nil_iff.mp nothing).2 cut
  · obtain ⟨back, final, rfl⟩ := (List.eq_nil_or_concat unsaid).resolve_left cut
    rw [List.concat_eq_append, ← List.append_assoc] at whole
    obtain ⟨rfl, _⟩ := List.append_inj' whole rfl
    obtain ⟨middle, before, behind⟩ := moves.of_append
    cases behind with
    | refl => exact ⟨_, _, _, before, advances⟩
    | cons advances _ => exact ⟨_, _, _, before, advances⟩

/-- The first messages of an answer leave the loop in a step that waits for more. -/
theorem landing_cut (before : Before commands walk (command :: rest))
    {front unsaid : List Parsed} (answers : Answer command.request (front ++ unsaid))
    (cut : unsaid ≠ []) {messages : List Message}
    (delivered : List.Forall₂ Delivers messages front)
    : ∃ step r next, Advances command.request step r next
        ∧ landing build commands walk (messages ++ more)
          = follow build commands
              { walk with
                position := ⟨walk.position.offset, step⟩
                processed := walk.processed ++ front } more := by
  obtain ⟨step, r, next, moves, advances⟩ := answers.moves_cut cut
  have answered := answers.hook_ne_none (by simp [cut])
  refine ⟨step, r, next, advances, ?_⟩
  rw [before.landing_eq answered,
    follow_moves (before.known answered) moves before.step before.cleared delivered]

/-- An error in the middle of an answer. -/
theorem turn_of_failed {r : Parsed} {next : Option Nat}
    (known : commands[walk.position.offset]? = some command)
    (advances : Advances command.request walk.position.step r next) {message : Message}
    {fields : Fields} (told : Says message (.error fields)) {offset : Nat}
    (restarts
      : if command.request = .function ∨ command.request = .query then
          offset = walk.position.offset
        else syncOffset commands walk.position.offset = some offset)
    : turn build commands walk message
      = .next
          { walk with
            position := ⟨offset, 0⟩
            notes := Item.note walk.notes (.error fields) } := by
  simp only [Advances, Request.pathFor, Option.bind_eq_bind, Option.bind_eq_some_iff] at advances
  obtain ⟨steps, hooked, paths, reached, _⟩ := advances
  obtain ⟨typ, parsed, severity⟩ := told
  have absent : paths.find? (fun path => path.typ = message.typ) = none := by
    rw [List.find?_eq_none]
    intro path member same
    have silent := path_silent command.request command.request.mem_all steps hooked paths
      (List.mem_of_getElem? reached) path member
    exact silent.1 ((by simpa using same : path.typ = message.typ).trans typ)
  rw [turn_of_error ⟨known, hooked, reached⟩ absent typ]
  simp only [errorTurn, parsed, severity, Bool.false_eq_true, if_false]
  split at restarts
  · rename_i implied
    rw [if_pos implied, restarts]
    rfl
  · rename_i extended
    rw [if_neg extended, restarts]
    rfl

theorem Answer.foldl_note {request : Request} {front unsaid : List Parsed}
    (answers : Answer request (front ++ unsaid)) (cut : unsaid ≠ []) (notes : Notes)
    : (front.map Item.parsed).foldl Item.note notes = notes := by
  obtain ⟨_, _, _, moves, _⟩ := answers.moves_cut cut
  exact moves.foldl_note notes

/-- The messages of an answer that an error cuts short, and the error. -/
theorem landing_failed (before : Before commands walk (command :: rest))
    {front unsaid : List Parsed} (answers : Answer command.request (front ++ unsaid))
    (cut : unsaid ≠ []) {messages : List Message}
    (delivered : List.Forall₂ Delivers messages front) {message : Message} {fields : Fields}
    (told : Says message (.error fields)) {offset : Nat}
    (restarts
      : if command.request = .function ∨ command.request = .query then
          offset = walk.position.offset
        else syncOffset commands walk.position.offset = some offset)
    : landing build commands walk (messages ++ message :: more)
      = follow build commands
          { position := ⟨offset, 0⟩
            processed := walk.processed ++ front
            notes := Item.note walk.notes (.error fields) } more := by
  have known := before.known (answers.hook_ne_none (by simp [cut]))
  obtain ⟨step, r, next, advances, landed⟩ :=
    @landing_cut build _ _ _ _ (message :: more) before _ _ answers cut _ delivered
  have turned := @turn_of_failed build commands
    { walk with
      position := ⟨walk.position.offset, step⟩
      processed := walk.processed ++ front }
    command r next known advances message fields told offset restarts
  have clear : (Item.note walk.notes (.error fields)).asyncs = [] := before.cleared
  rw [landed, follow_next turned, cleared_mk clear]

/-- The first synchronization of the remaining commands. -/
theorem syncOffset_eq {offset : Nat} {skipped after : List Command} {sync : Command}
    (split : commands.drop offset = skipped ++ sync :: after)
    (skips : ∀ other ∈ skipped, ¬ other.IsSynchronize) (synchronizes : sync.IsSynchronize)
    : syncOffset commands offset = some (offset + skipped.length) := by
  rw [syncOffset, split, List.findIdx?_append, List.findIdx?_eq_none_iff.mpr (by simpa using skips),
    List.findIdx?_cons]
  simp [synchronizes]

/-- The loop over a conversation ends behind the last command, with what was received: by
induction on the conversation.
-/
theorem landing_conversation {items : List Item} (conversation : Conversation rest items)
    (before : Before commands walk rest) {messages : List Message}
    (said : List.Forall₂ Says messages items)
    : landing build commands walk messages
      = some
          (⟨⟨commands.length, 0⟩, walk.processed ++ received items,
            items.foldl Item.note walk.notes⟩, []) := by
  induction conversation generalizing walk messages with
  | nil =>
      obtain rfl := List.forall₂_nil_right_iff.mp said
      have done : walk.position.offset = commands.length :=
        Nat.le_antisymm before.inside (List.drop_eq_nil_iff.mp before.remaining)
      rw [landing, if_pos done, ← done, ← before.step]
      simp [received]
  | @answered command rest answer items answers later ih =>
      have first := List.forall₂_take_append messages _ _ said
      have second := List.forall₂_drop_append messages _ _ said
      rw [List.forall₂_map_right_iff] at first
      obtain ⟨walk', landed, next, processed, notes⟩ :=
        @landing_answer build _ _ _ _ _ before _ answers _ first
      rw [← List.take_append_drop (answer.map Item.parsed).length messages, landed,
        ih next second, processed, notes]
      simp [received, List.foldl_append]
  | @failedQuery command rest front unsaid items query answers cut fields state later ih =>
      have first := List.forall₂_take_append messages _ _ said
      have second := List.forall₂_drop_append messages _ _ said
      rw [List.forall₂_map_right_iff] at first
      obtain ⟨failure, others, told, last, tail⟩ := List.forall₂_cons_right_iff.mp second
      obtain ⟨ready, others, delivers, tailed, rfl⟩ := List.forall₂_cons_right_iff.mp last
      have answered := answers.hook_ne_none (by simp [cut])
      have stays : if command.request = .function ∨ command.request = .query then
            walk.position.offset = walk.position.offset
          else syncOffset commands walk.position.offset = some walk.position.offset := by
        rw [if_pos (.inr query)]
      have completes := @follow_completes build commands
        { walk with
          position := ⟨walk.position.offset, 0⟩
          processed := walk.processed ++ front
          notes := Item.note walk.notes (.error fields) }
        command others ready (.element (.ready state)) (before.known answered)
        (by rw [query]; rfl) before.cleared delivers
      have next := @Before.next commands walk command rest before answered
        (walk.processed ++ front ++ [.element (.ready state)])
        (Item.note (Item.note walk.notes (.error fields)) (.parsed (.element (.ready state))))
        before.cleared
      rw [← List.take_append_drop (front.map Item.parsed).length messages, tail,
        landing_failed before answers cut first told stays, completes]
      refine (ih next tailed).trans ?_
      simp [received, List.foldl_append, answers.foldl_note cut]
  | @failed command rest skipped after front unsaid items sync extended answers cut split skips
      synchronizes fields later ih =>
      have first := List.forall₂_take_append messages _ _ said
      have second := List.forall₂_drop_append messages _ _ said
      rw [List.forall₂_map_right_iff] at first
      obtain ⟨failure, others, told, last, tail⟩ := List.forall₂_cons_right_iff.mp second
      have answered := answers.hook_ne_none (by simp [cut])
      have remaining := before.remaining
      rw [List.dropWhile_cons_of_neg (by simpa using answered), split] at remaining
      have found := syncOffset_eq remaining skips synchronizes
      have skips_ : if command.request = .function ∨ command.request = .query then
            walk.position.offset + skipped.length = walk.position.offset
          else
            syncOffset commands walk.position.offset
              = some (walk.position.offset + skipped.length) := by
        rw [if_neg (by tauto)]
        exact found
      have hooked : sync.request.hook ≠ none := by
        rw [Command.request_of_isSynchronize synchronizes]
        decide
      have after_ : commands.drop (walk.position.offset + skipped.length) = sync :: after := by
        rw [← List.drop_drop, remaining, List.drop_left]
      have again : Before commands
          { position := ⟨walk.position.offset + skipped.length, 0⟩
            processed := walk.processed ++ front
            notes := Item.note walk.notes (.error fields) } (sync :: after) := by
        refine ⟨?_, ?_, rfl, before.cleared⟩
        · rw [after_, List.dropWhile_cons_of_neg (by simpa using hooked)]
        · have some := congrArg List.length after_
          rw [List.length_drop, List.length_cons] at some
          dsimp only
          omega
      rw [← List.take_append_drop (front.map Item.parsed).length messages, tail,
        landing_failed before answers cut first told skips_, ← again.landing_eq hooked, ih again last]
      simp [received, List.foldl_append, answers.foldl_note cut]

/-- A message is asynchronous. -/
def Silent (message : Message) : Prop := asynchronousMap message.typ ≠ none

instance (message : Message) : Decidable (Silent message) :=
  inferInstanceAs (Decidable (_ ≠ _))

/-- Where a command waits, an asynchronous message only gets noted. -/
theorem turn_silent {message : Message} (placed : Placed commands walk.position)
    (silent : Silent message)
    (parses
      : ∀ cls, asynchronousMap message.typ = some cls
        → ∃ element, cls.parseData message.body = .ok element)
    : ∃ notes : Notes, turn build commands walk message = .next { walk with notes := notes }
        ∧ notes.outcome = walk.notes.outcome := by
  obtain ⟨command, steps, paths, here⟩ := placed
  have absent : paths.find? (fun path => path.typ = message.typ) = none := by
    rw [List.find?_eq_none]
    intro path member same
    have none := (path_silent command.request command.request.mem_all steps here.hooked paths
      (List.mem_of_getElem? here.reached) path member).2
    exact silent ((congrArg asynchronousMap (by simpa using same)).symm.trans none)
  obtain ⟨cls, known⟩ := Option.ne_none_iff_exists'.mp silent
  have typ : message.typ ≠ char 'E' := fun same => silent (by rw [same]; decide)
  obtain ⟨element, parsed⟩ := parses cls known
  rw [turn_of_async here absent typ known, asyncTurn]
  split
  · exact ⟨walk.notes, rfl, rfl⟩
  · rw [parsed]
    exact ⟨_, rfl, rfl⟩

/-- Asynchronous messages change nothing that the conversation asks for, wherever they come.
By induction on the messages.
-/
theorem follow_silent {messages : List Message}
    (parses
      : ∀ message ∈ messages, ∀ cls, asynchronousMap message.typ = some cls
        → ∃ element, cls.parseData message.body = .ok element)
    {walk single : Walk} (alike : Alike [] walk single) (clear : walk.notes.asyncs = [])
    (placed : Placed commands walk.position) {final : Walk}
    (followed
      : follow build commands single (messages.filter (fun message => ¬ Silent message))
        = some (final, []))
    (done : final.position.offset = commands.length)
    : ∃ last left, follow build commands walk messages = some (last, left)
        ∧ Alike [] last final ∧ ∀ message ∈ left, Silent message := by
  induction messages generalizing walk single with
  | nil =>
      obtain rfl : single = final := by simpa [follow] using followed
      rw [alike.position] at placed
      exact absurd done (Nat.ne_of_lt placed.lt)
  | cons message rest ih =>
      have parses_ := fun other member => parses other (List.mem_cons_of_mem _ member)
      by_cases silent : Silent message
      · rw [List.filter_cons_of_neg (by simpa using silent)] at followed
        obtain ⟨notes, turned, outcome⟩ := @turn_silent build _ _ _ placed silent
          (parses message List.mem_cons_self)
        have again : Alike [] (Walk.cleared { walk with notes := notes }) single :=
          ⟨alike.position, alike.processed, outcome.trans alike.outcome, alike.cleared⟩
        rw [follow_next turned]
        exact ih parses_ again rfl placed followed
      · rw [List.filter_cons_of_pos (by simpa using silent)] at followed
        have same : Turn.Alike [] (turn build commands walk message)
            (turn build commands single message) :=
          turn_alike alike message
        rcases follow_cons followed with ⟨later, next, followed⟩ | ⟨later, finished, rfl, nothing⟩
        · cases here : turn build commands walk message with
          | next walk' =>
              rw [here, next] at same
              have again : Alike [] walk'.cleared later.cleared :=
                ⟨same.position, same.processed, same.outcome, same.cleared⟩
              rw [follow_next here]
              exact ih parses_ again rfl (turn_next here).1 followed
          | finished _ => rw [here, next] at same; exact same.elim
          | closed _ => rw [here, next] at same; exact same.elim
          | raised _ => rw [here, next] at same; exact same.elim
        · cases here : turn build commands walk message with
          | finished walk' =>
              rw [here, finished] at same
              refine ⟨_, _, follow_finished here rest,
                ⟨same.position, same.processed, same.outcome, same.cleared⟩, ?_⟩
              intro other member
              by_contra loud
              have kept : other ∈ rest.filter (fun message => ¬ Silent message) :=
                List.mem_filter.mpr ⟨member, by simpa using loud⟩
              rw [← nothing] at kept
              exact List.not_mem_nil kept
          | next _ => rw [here, finished] at same; exact same.elim
          | closed _ => rw [here, finished] at same; exact same.elim
          | raised _ => rw [here, finished] at same; exact same.elim


end Loops

-----------------------------------------------------------------------------------------
-- Whole conversations
-----------------------------------------------------------------------------------------

/-- Whatever a server answers, with or without errors, with asynchronous messages anywhere
and in whatever pieces it arrives: the client completes the transaction with the answers,
the last error and the last state of the session, and leaves at most asynchronous messages
unread.
-/
theorem complete_conversation {build : Build} {commands : List Command} {items : List Item}
    (conversation : Conversation commands items) (some : commands ≠ [])
    (answered : ∀ command ∈ commands.head?, command.request ≠ .flush) {arrivals : Arrivals}
    (said
      : List.Forall₂ Says (arrivals.flatten.filter (fun message => ¬ Silent message)) items)
    (parses
      : ∀ message ∈ arrivals.flatten, ∀ cls, asynchronousMap message.typ = .some cls
        → ∃ element, cls.parseData message.body = .ok element) {fuel : Nat}
    (enough : 3 * arrivals.flatten.length + arrivals.length + 1 ≤ fuel) {client : Client}
    {rest : Arrivals}
    (ended
      : Client.complete build fuel (Client.start (Instruction.init commands)) arrivals
        = (client, rest))
    : client.xact.state = .complete ∧ client.xact.messagesReceived = received items
        ∧ client.xact.notes.outcome = (items.foldl Item.note {}).outcome
        ∧ ∀ message ∈ client.read ++ rest.flatten, Silent message := by
  obtain ⟨first, others, rfl⟩ := List.exists_cons_of_ne_nil some
  have hooked : first.request.hook ≠ none := by
    have answers := answered first rfl
    revert answers
    cases first.request <;> decide
  have before : Before (first :: others) ⟨⟨0, 0⟩, [], {}⟩ (first :: others) := by
    refine ⟨?_, Nat.zero_le _, rfl, rfl⟩
    rw [List.dropWhile_cons_of_neg (by simpa using hooked)]
    rfl
  have placed : Placed (first :: others) ⟨0, 0⟩ := placed_start rfl hooked
  have landed := @landing_conversation build _ _ _ _ conversation before _ said
  rw [before.landing_eq hooked] at landed
  obtain ⟨last, left, followed, alike, silent⟩ := @follow_silent build _ _ parses _ _
    ⟨rfl, rfl, rfl, rfl⟩ rfl placed _ landed rfl
  have behind : ∀ message ∈ left, message.typ ≠ char 'D' :=
    fun message member same => silent message member (by rw [same]; decide)
  have whole := complete_ended_start some followed behind enough
  rw [ended] at whole
  obtain ⟨stands, unread, completed⟩ := whole
  refine ⟨completed.mpr (congrArg Position.offset alike.position), ?_, ?_, ?_⟩
  · exact stands.processed.trans (alike.processed.trans (List.nil_append _))
  · exact stands.outcome.trans alike.outcome
  · rw [unread]
    exact silent

/-- A statement that cannot be parsed, and a notice before the synchronization. -/
theorem complete_conversation_error
    : (Client.complete .plain 12
          (Client.start (Instruction.init
            [⟨.parse [] [] [], .parse, rfl⟩, ⟨.empty .synchronize, .synchronize, rfl⟩]))
          [[⟨char 'E', [char 'S', 69, 82, 82, 79, 82, 0, 0]⟩],
            [⟨char 'N', [0]⟩, ⟨char 'Z', [char 'I']⟩]]).1.xact.notes.outcome
      = (some false, some (.server [([char 'S'], [69, 82, 82, 79, 82])]), some .idle) := by
  have later : Conversation [⟨.empty .synchronize, .synchronize, rfl⟩]
      [.parsed (.element (.ready .idle))] :=
    @Conversation.answered _ _ [.element (.ready .idle)] _ (.synchronize .idle) .nil
  have conversation : Conversation
      [⟨.parse [] [] [], .parse, rfl⟩, ⟨.empty .synchronize, .synchronize, rfl⟩]
      [.error [([char 'S'], [69, 82, 82, 79, 82])], .parsed (.element (.ready .idle))] :=
    @Conversation.failed ⟨.parse [] [] [], .parse, rfl⟩ _ [⟨.parse [] [] [], .parse, rfl⟩] []
      [] [.element (.empty .parseComplete)] _ ⟨.empty .synchronize, .synchronize, rfl⟩
      (by decide) .parse (List.cons_ne_nil _ _) rfl (by simp [Command.IsSynchronize])
      (rfl : Element.empty .synchronize = _) _ later
  have said : List.Forall₂ Says
      [⟨char 'E', [char 'S', 69, 82, 82, 79, 82, 0, 0]⟩, ⟨char 'Z', [char 'I']⟩]
      [.error [([char 'S'], [69, 82, 82, 79, 82])], .parsed (.element (.ready .idle))] := by
    refine .cons ⟨rfl, ?_, by decide⟩ (.cons ⟨rfl, rfl⟩ .nil)
    decide
  have parses : ∀ message ∈ [(⟨char 'E', [char 'S', 69, 82, 82, 79, 82, 0, 0]⟩ : Message),
      ⟨char 'N', [0]⟩, ⟨char 'Z', [char 'I']⟩], ∀ cls, asynchronousMap message.typ = some cls
        → ∃ element, cls.parseData message.body = .ok element := by
    intro message member cls known
    simp only [List.mem_cons, List.not_mem_nil, or_false] at member
    rcases member with rfl | rfl | rfl
    · exact absurd known (by rw [show asynchronousMap (char 'E') = none by decide]; simp)
    · obtain rfl : Class.notice .notice = cls := Option.some.inj known
      exact ⟨_, rfl⟩
    · exact absurd known (by rw [show asynchronousMap (char 'Z') = none by decide]; simp)
  have whole := @complete_conversation .plain _ _ conversation (List.cons_ne_nil _ _) (by decide)
    [[⟨char 'E', [char 'S', 69, 82, 82, 79, 82, 0, 0]⟩],
      [⟨char 'N', [0]⟩, ⟨char 'Z', [char 'I']⟩]]
    said parses 12 (by decide) _ _ rfl
  exact whole.2.2.1

end PgCluster.Postgresql
