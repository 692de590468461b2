import PgCluster.Postgresql.InstructionRuns

/-! Whatever messages arrive, a transaction stays at a command that waits for messages: the
client takes some of every batch, and no access of the tables fails.
-/

namespace PgCluster.Postgresql

open Foundation

/-- An exception about the data of a message. -/
def PutError.OfData (error : PutError) : Prop := error ≠ .indexError ∧ error ≠ .typeError

section Turns

variable {build : Build} {commands : List Command} {walk : Walk} {x : Message}

theorem ofData_of_call {call : Parser} {data : Bytes} {error : PutError}
    (raised : call.call build data = .error error)
    : error.OfData := by
  cases call with
  | returnArg => simp [Parser.call] at raised
  | parse cls =>
      simp only [Parser.call] at raised
      cases result : cls.parseData data with
      | error cause =>
          rw [result] at raised
          obtain rfl := Except.error.inj raised
          simp [PutError.OfData]
      | ok _ => simp [result, Except.map, Except.mapError] at raised
  | tuple =>
      simp only [Parser.call] at raised
      cases result : build.parseTuple data with
      | ok _ => simp [result, Except.map] at raised
      | error cause =>
          rw [result] at raised
          obtain rfl := Except.error.inj raised
          cases build with
          | plain =>
              simp only [Build.parseTuple] at result
              cases parsed : Tuple.parse data with
              | ok _ => simp [parsed, Except.mapError] at result
              | error _ =>
                  rw [parsed] at result
                  obtain rfl := Except.error.inj result
                  simp [PutError.OfData]
          | optimized =>
              simp only [Build.parseTuple] at result
              cases parsed : parseTupleMessage data with
              | ok _ => simp [parsed, Except.mapError] at result
              | error _ =>
                  rw [parsed] at result
                  obtain rfl := Except.error.inj result
                  simp [PutError.OfData]

theorem ofData_of_errorTurn {command : Command} {body : Bytes} {error : PutError}
    (raised : errorTurn commands command walk body = .raised error)
    : error.OfData := by
  simp only [errorTurn] at raised
  cases fatal : isFatal (Notice.parse body) with
  | none =>
      rw [fatal] at raised
      obtain rfl := Turn.raised.inj raised
      simp [PutError.OfData]
  | some value =>
      simp only [fatal] at raised
      repeat' split at raised
      all_goals contradiction

theorem ofData_of_asyncTurn {cls : Class} {error : PutError}
    (raised : asyncTurn walk cls x = .raised error)
    : error.OfData := by
  simp only [asyncTurn] at raised
  split at raised
  · contradiction
  · split at raised
    · obtain rfl := Turn.raised.inj raised
      simp [PutError.OfData]
    · contradiction

/-- At a command that waits, only the data of a message raises. -/
theorem turn_raised (placed : Placed commands walk.position) {error : PutError}
    (raised : turn build commands walk x = .raised error)
    : error.OfData := by
  obtain ⟨command, steps, paths, here⟩ := placed
  cases found : paths.find? (fun path => path.typ = x.typ) with
  | some path =>
      cases parsed : path.call.call build x.body with
      | error cause =>
          rw [turn_of_unparsed here found parsed] at raised
          obtain rfl := Turn.raised.inj raised
          exact ofData_of_call parsed
      | ok r =>
          rw [turn_of_parsed here found parsed] at raised
          cases step : path.next with
          | some _ => rw [step] at raised; contradiction
          | none =>
              rw [step] at raised
              simp only [pathTurn] at raised
              split at raised <;> contradiction
  | none =>
      by_cases typ : x.typ = char 'E'
      · rw [turn_of_error here found typ] at raised
        exact ofData_of_errorTurn raised
      · cases known : asynchronousMap x.typ with
        | none => rw [turn_of_unexpected here found typ known] at raised; contradiction
        | some cls =>
            rw [turn_of_async here found typ known] at raised
            exact ofData_of_asyncTurn raised

/-- How a loop ends, by induction on the messages. -/
theorem loop_placed {messages : List Message} (placed : Placed commands walk.position)
    : (loop build commands walk messages).count ≤ messages.length
        ∧ (messages ≠ [] → 0 < (loop build commands walk messages).count)
        ∧ match (loop build commands walk messages).ending with
          | .through => Placed commands (loop build commands walk messages).walk.position
          | .finished =>
              (loop build commands walk messages).walk.position.offset = commands.length
          | .closed => True
          | .raised error => error.OfData := by
  induction messages generalizing walk with
  | nil => exact ⟨Nat.le_refl _, fun some => absurd rfl some, placed⟩
  | cons x rest ih =>
      cases here : turn build commands walk x with
      | next later =>
          obtain ⟨within, _, ending⟩ := ih (turn_next here).1
          simp only [loop, here]
          exact ⟨Nat.succ_le_succ within, fun _ => Nat.succ_pos _, ending⟩
      | finished later =>
          have ended : loop build commands walk (x :: rest) = ⟨.finished, later, 1⟩ := by
            rw [loop, here]
          rw [ended]
          exact ⟨Nat.succ_le_succ (Nat.zero_le _), fun _ => Nat.one_pos, turn_finished here⟩
      | closed later =>
          have ended : loop build commands walk (x :: rest) = ⟨.closed, later, 1⟩ := by
            rw [loop, here]
          rw [ended]
          exact ⟨Nat.succ_le_succ (Nat.zero_le _), fun _ => Nat.one_pos, trivial⟩
      | raised error =>
          have ended : loop build commands walk (x :: rest) = ⟨.raised error, walk, 1⟩ := by
            rw [loop, here]
          rw [ended]
          exact ⟨Nat.succ_le_succ (Nat.zero_le _), fun _ => Nat.one_pos, turn_raised placed here⟩

end Turns

-----------------------------------------------------------------------------------------
-- Batches
-----------------------------------------------------------------------------------------

/-- A transaction that waits for messages and has not failed, when new batches get the given
identity.
-/
structure Sound (x : Instruction) (fresh : Nat) : Prop where
  placed
    : Placed x.commands x.after
  last
    : ∀ id, x.lastBatch = some id → id < fresh
  silent
    : x.exception = none

/-- What a new batch does: some of its messages are taken, or its data raises. -/
def Handled (x : Instruction) (fresh : Nat) (messages : List Message) : PutResult → Prop
  | (later, .ok count) =>
      later.commands = x.commands ∧ later.exception = none ∧ 0 < count
        ∧ count ≤ messages.length ∧ (later.state = .complete ∨ Sound later fresh)
  | (later, .error error) => later.commands = x.commands ∧ error.OfData

namespace Instruction

variable {build : Build} {x : Instruction} {fresh : Nat} {messages : List Message}

theorem standardPut_handled (sound : Sound x fresh) (some : messages ≠ [])
    : Handled x (fresh + 1) messages (x.standardPut build ⟨fresh, messages⟩) := by
  have new : x.lastBatch ≠ .some fresh := fun same => absurd (sound.last fresh same) (by simp)
  have start : x.startOf ⟨fresh, messages⟩ = x.after := if_neg new
  have known : (x.commands[(x.startOf ⟨fresh, messages⟩).offset]?).isNone = false := by
    obtain ⟨command, _, _, here⟩ := sound.placed
    rw [start, here.known]
    rfl
  have placed : Placed x.commands (x.startOf ⟨fresh, messages⟩) := by
    rw [start]
    exact sound.placed
  obtain ⟨within, positive, ending⟩ := @loop_placed build x.commands
    ⟨x.startOf ⟨fresh, messages⟩, [], x.notesOf ⟨fresh, messages⟩⟩ messages placed
  unfold standardPut
  dsimp only
  rw [known]
  simp only [Bool.false_eq_true, if_false]
  generalize loop build x.commands
    ⟨x.startOf ⟨fresh, messages⟩, [], x.notesOf ⟨fresh, messages⟩⟩ messages = looped
    at within positive ending ⊢
  obtain ⟨state, tail, settled, done, _⟩ := settle_eq x ⟨fresh, messages⟩ looped.walk
  cases ended : looped.ending with
  | through =>
      rw [ended] at ending
      dsimp only
      rw [settled]
      refine ⟨rfl, sound.silent, positive some, within, .inr ⟨ending, ?_, sound.silent⟩⟩
      rintro id ⟨⟩
      exact Nat.lt_succ_self fresh
  | finished =>
      rw [ended] at ending
      dsimp only
      rw [settled]
      exact ⟨rfl, sound.silent, positive some, within, .inl (done ending)⟩
  | closed => exact ⟨rfl, sound.silent, positive some, within, .inl rfl⟩
  | raised error =>
      rw [ended] at ending
      exact ⟨rfl, ending⟩

theorem fallBack_handled (sound : Sound x fresh) (some : messages ≠ [])
    : Handled x (fresh + 1) messages (x.fallBack build ⟨fresh, messages⟩) := by
  obtain ⟨placed, last, silent⟩ := sound
  have same : Sound { x with state := .receiving .standardPut } fresh := ⟨placed, last, silent⟩
  exact standardPut_handled same some

theorem record_handled (sound : Sound x fresh) {processed : List Parsed}
    (positive : 0 < processed.length) (within : processed.length ≤ messages.length)
    : Handled x (fresh + 1) messages (x.record ⟨fresh, messages⟩ processed) := by
  refine ⟨rfl, sound.silent, positive, within, .inr ⟨sound.placed, ?_, sound.silent⟩⟩
  rintro id ⟨⟩
  exact Nat.lt_succ_self fresh

theorem mapM_spec {Item Value Error : Type} (read : Item → Except Error Value)
    (items : List Item)
    : match items.mapM read with
      | .ok values => values.length = items.length
      | .error error => ∃ item ∈ items, read item = .error error := by
  induction items with
  | nil => rfl
  | cons item rest ih =>
      rw [List.mapM_cons]
      cases first : read item with
      | error error => exact ⟨item, List.mem_cons_self, first⟩
      | ok value =>
          cases later : rest.mapM read with
          | error error =>
              rw [later] at ih
              obtain ⟨other, member, raised⟩ := ih
              exact ⟨other, List.mem_cons_of_mem _ member, raised⟩
          | ok values =>
              rw [later] at ih
              exact congrArg (· + 1) ih

theorem putCopydata_handled (sound : Sound x fresh) (some : messages ≠ [])
    : Handled x (fresh + 1) messages (x.putCopydata build ⟨fresh, messages⟩) := by
  obtain ⟨last, is⟩ := Option.ne_none_iff_exists'.mp (mt List.getLast?_eq_none_iff.mp some)
  simp only [putCopydata, is]
  split
  · exact fallBack_handled sound some
  · rename_i all
    have whole : (messages.filter (fun message => message.typ = char 'd')).length
        = messages.length :=
      not_not.mp (not_or.mp all).2
    refine record_handled sound ?_ ?_
    · rw [List.length_map, whole]
      exact List.length_pos_of_ne_nil some
    · rw [List.length_map, whole]

theorem putTupledata_handled (sound : Sound x fresh) (some : messages ≠ [])
    : Handled x (fresh + 1) messages (x.putTupledata build ⟨fresh, messages⟩) := by
  have parsing := fun rows : List Message =>
    mapM_spec (fun message => (build.parseTuple message.body).map Parsed.tuple) rows
  have raises : ∀ {message : Message} {error : PutError},
      (build.parseTuple message.body).map Parsed.tuple = .error error → error.OfData :=
    fun raised => @ofData_of_call build .tuple _ _ raised
  cases build with
  | optimized =>
      have read := parsing (messages.takeWhile (fun message => message.typ = char 'D'))
      simp only [putTupledata, consumeTupleMessages]
      split
      · rename_i error each
        rw [each] at read
        obtain ⟨_, _, raised⟩ := read
        exact ⟨rfl, raises raised⟩
      · exact fallBack_handled sound some
      · rename_i tuples more each
        rw [each] at read
        have within := (List.takeWhile_sublist (l := messages)
          (fun message : Message => message.typ = char 'D')).length_le
        refine record_handled sound (List.length_pos_of_ne_nil ?_) (by omega)
        exact more
  | plain =>
      obtain ⟨last, is⟩ := Option.ne_none_iff_exists'.mp (mt List.getLast?_eq_none_iff.mp some)
      have read := parsing (messages.filter (fun message => message.typ = char 'D'))
      simp only [putTupledata, is]
      split
      · exact fallBack_handled sound some
      · split
        · rename_i error each
          rw [each] at read
          obtain ⟨_, _, raised⟩ := read
          exact ⟨rfl, raises raised⟩
        · split
          · exact fallBack_handled sound some
          · rename_i tuples each all
            have whole := not_not.mp all
            exact record_handled sound (by rw [whole]; exact List.length_pos_of_ne_nil some)
              (Nat.le_of_eq whole)

theorem put_handled {op : PutMethod} (sound : Sound x fresh) (some : messages ≠ [])
    : Handled x (fresh + 1) messages (x.put build op ⟨fresh, messages⟩) := by
  cases op with
  | standardPut => exact standardPut_handled sound some
  | putCopydata => exact putCopydata_handled sound some
  | putTupledata => exact putTupledata_handled sound some

end Instruction

-----------------------------------------------------------------------------------------
-- The client
-----------------------------------------------------------------------------------------

/-- The client has completed the transaction, or has taken everything and waits for more
messages at a command.
-/
structure Settled (commands : List Command) (client : Client) (arrivals : Arrivals) : Prop where
  settled
    : client.xact.state = .complete
      ∨ ((∃ op, client.xact.state = .receiving op) ∧ client.read = [] ∧ arrivals = []
        ∧ Placed commands client.xact.after)
  ofData
    : ∀ error, client.xact.exception = some error → error.OfData

/-- By induction on the transitions. -/
theorem complete_settled {build : Build} {fuel : Nat} {client : Client} {arrivals : Arrivals}
    (sound : Sound client.xact client.fresh) (enough : client.due arrivals ≤ fuel)
    : Settled client.xact.commands (Client.complete build fuel client arrivals).1
        (Client.complete build fuel client arrivals).2 := by
  have ofData : ∀ {settled : Client}, settled.xact.exception = none
      → ∀ error, settled.xact.exception = some error → error.OfData := by
    intro settled silent error raised
    simp [silent] at raised
  induction fuel generalizing client arrivals with
  | zero =>
      rw [Client.due] at enough
      have empty : client.read = [] := List.length_eq_zero_iff.mp (by omega)
      obtain rfl : arrivals = [] := List.length_eq_zero_iff.mp (by omega)
      cases at_ : client.xact.state with
      | complete => exact ⟨.inl at_, ofData sound.silent⟩
      | receiving op =>
          exact ⟨.inr ⟨⟨op, at_⟩, empty, rfl, sound.placed⟩, ofData sound.silent⟩
      | sending op =>
          obtain ⟨_, _, _, _, _, sends⟩ := sent_eq at_
          omega
  | succ fuel ih =>
      cases at_ : client.xact.state with
      | complete =>
          rw [complete_of_complete at_]
          exact ⟨.inl at_, ofData sound.silent⟩
      | sending op =>
          obtain ⟨messages, state, same, _, _, sends⟩ := sent_eq at_
          have still : Sound (client.send op).xact (client.send op).fresh := by
            rw [Client.send, same]
            exact ⟨sound.placed, sound.last, sound.silent⟩
          have commands : (client.send op).xact.commands = client.xact.commands := by
            rw [Client.send, same]
          have step := @ih (client.send op) arrivals still
            (by simp only [Client.due, Client.send] at enough ⊢; omega)
          simp only [Client.complete, at_]
          rw [← commands]
          exact step
      | receiving op =>
          cases read : client.read with
          | nil =>
              cases arrivals with
              | nil =>
                  simp only [Client.complete, at_, read]
                  exact ⟨.inr ⟨⟨op, at_⟩, read, rfl, sound.placed⟩, ofData sound.silent⟩
              | cons chunk rest =>
                  have step := @ih { client with read := chunk } rest sound
                    (by
                      simp only [Client.due, read, List.flatten_cons, List.length_append,
                        List.length_cons, List.length_nil] at enough ⊢
                      omega)
                  simp only [Client.complete, at_, read]
                  exact step
          | cons first others =>
              have handled := @Instruction.put_handled build _ _ _ op sound
                (List.cons_ne_nil first others)
              simp only [Client.complete, at_, read]
              cases put : client.xact.put build op ⟨client.fresh, first :: others⟩ with
              | mk later result =>
                  rw [put] at handled
                  cases result with
                  | error error =>
                      have failed : client.receive build op = client.failed later error := by
                        simp only [Client.receive, read, put]
                      rw [failed, complete_of_complete rfl]
                      refine ⟨.inl rfl, fun other raised => ?_⟩
                      obtain rfl := Option.some.inj raised
                      exact handled.2
                  | ok count =>
                      obtain ⟨commands, silent, positive, within, next⟩ := handled
                      have received : client.receive build op
                          = { client with
                              xact := later
                              read := client.read.drop count
                              fresh := client.fresh + 1 } := by
                        simp only [Client.receive, read, put]
                      rw [received, ← commands]
                      rcases next with state | still
                      · rw [complete_of_complete state]
                        exact ⟨.inl state, ofData silent⟩
                      · refine @ih
                          { client with
                            xact := later
                            read := client.read.drop count
                            fresh := client.fresh + 1 } arrivals still ?_
                        have sends := later.sends_le
                        simp only [Client.due, read, List.length_drop, List.length_cons]
                          at enough within ⊢
                        omega

/-- Whatever messages arrive, well formed or not, in whatever pieces: the client completes
the transaction, or it has taken them all and waits at a command for more. What was raised
is about the data of a message, never about a command or a step that does not exist.
-/
theorem complete_settles {build : Build} {commands : List Command} {first : Command}
    (starts : commands.head? = some first) (answered : first.request ≠ .flush)
    {arrivals : Arrivals} {fuel : Nat}
    (enough : 3 * arrivals.flatten.length + arrivals.length + 1 ≤ fuel) {client : Client}
    {rest : Arrivals}
    (ended
      : Client.complete build fuel (Client.start (Instruction.init commands)) arrivals
        = (client, rest))
    : (client.xact.state = .complete
          ∨ client.read = [] ∧ rest = []
            ∧ ∃ command steps paths, At commands client.xact.after command steps paths)
        ∧ ∀ error, client.xact.exception = some error
          → error ≠ .indexError ∧ error ≠ .typeError := by
  have hooked : first.request.hook ≠ none := by
    revert answered
    cases first.request <;> decide
  have sound : Sound (Instruction.init commands) 0 :=
    ⟨placed_start (by rw [← List.head?_eq_getElem?]; exact starts) hooked,
      by simp [Instruction.init], rfl⟩
  have run := @complete_settled build fuel (Client.start (Instruction.init commands)) arrivals
    sound (by
      simp only [Client.due, Client.start, Instruction.init, Instruction.sends, List.length_nil]
      omega)
  rw [ended] at run
  refine ⟨?_, run.ofData⟩
  rcases run.settled with completed | ⟨_, read, none, placed⟩
  · exact .inl completed
  · exact .inr ⟨read, none, placed⟩

/-- A row that is cut short, which raises in the strict parser. -/
theorem complete_settles_row
    : (Client.complete .optimized 10
          (Client.start (Instruction.init [⟨.execute [] 0, .execute, rfl⟩]))
          [[⟨char 'D', [0, 1]⟩, ⟨char 'C', [0]⟩]]).1.xact.state = .complete
        ∨ (Client.complete .optimized 10
            (Client.start (Instruction.init [⟨.execute [] 0, .execute, rfl⟩]))
            [[⟨char 'D', [0, 1]⟩, ⟨char 'C', [0]⟩]]).1.read = []
          ∧ (Client.complete .optimized 10
            (Client.start (Instruction.init [⟨.execute [] 0, .execute, rfl⟩]))
            [[⟨char 'D', [0, 1]⟩, ⟨char 'C', [0]⟩]]).2 = []
          ∧ ∃ command steps paths, At [⟨.execute [] 0, .execute, rfl⟩]
            (Client.complete .optimized 10
              (Client.start (Instruction.init [⟨.execute [] 0, .execute, rfl⟩]))
              [[⟨char 'D', [0, 1]⟩, ⟨char 'C', [0]⟩]]).1.xact.after command steps paths :=
  (@complete_settles .optimized [⟨.execute [] 0, .execute, rfl⟩] _ rfl (by decide)
    [[⟨char 'D', [0, 1]⟩, ⟨char 'C', [0]⟩]] 10 (by decide) _ _ rfl).1

end PgCluster.Postgresql
