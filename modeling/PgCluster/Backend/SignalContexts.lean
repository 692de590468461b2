import PgCluster.Backend.SignalHandler
import PgCluster.Foundation.Machine

/-! Nested SignalHandler contexts, statement by statement, with signals between any two
statements: when the handlers found by the outermost context are back behind it.
-/

namespace PgCluster.Backend

open Foundation

-----------------------------------------------------------------------------------------
-- Contexts and signals
-----------------------------------------------------------------------------------------

/-- The statement of __enter__ to run next, with what it has saved. Nobody else knows the
object ahead of the first signal.signal.
-/
inductive EnterStage where
  | interruptedFalse
  | releasedFalse
  | getSigterm
  | getSigint (handlerSigterm : Disposition)
  | signalSigterm (handlerSigterm handlerSigint : Disposition)
  | signalSigint
deriving DecidableEq, Repr

/-- The statement of release to run next. -/
inductive ReleaseStage where
  | test
  | signalSigterm
  | signalSigint
  | releasedTrue
deriving DecidableEq, Repr

/-- A call in progress: release of an object, or the rest of its function behind that. -/
inductive SignalCall where
  | release (number : Nat) (stage : ReleaseStage)
  | interruptedTrue (number : Nat)
deriving DecidableEq, Repr

/-- A process. Each with statement has an object of its own; they are numbered as their
__enter__ returns.
-/
structure SignalRun where
  table : SignalTable
  entered : Nat
  /-- the objects whose blocks are open, innermost first -/
  contexts : List Nat
  /-- __enter__ of the next object -/
  entering : Option EnterStage
  /-- the calls on top of that or of the innermost block, innermost first -/
  calls : List SignalCall

inductive SignalEvent where
  /-- the next statement of the innermost call -/
  | proceed
  /-- the innermost block comes to a with statement -/
  | enter
  /-- the innermost block ends, or an exception leaves it -/
  | exit
  /-- a signal comes between two statements; a handler found by the outermost context returns
  and leaves the handlers alone -/
  | deliver (signal : Signal)
deriving DecidableEq, Repr

namespace SignalRun

def proceedEnter (run : SignalRun) : EnterStage → SignalRun
  | .interruptedFalse => { run with entering := some .releasedFalse }
  | .releasedFalse => { run with entering := some .getSigterm }
  | .getSigterm => { run with entering := some (.getSigint (run.table.installed .sigterm)) }
  | .getSigint handlerSigterm =>
      { run with
        entering := some (.signalSigterm handlerSigterm (run.table.installed .sigint)) }
  | .signalSigterm handlerSigterm handlerSigint =>
      { run with
        table :=
          run.table.setObject run.entered ⟨false, false, handlerSigterm, handlerSigint⟩
            |>.install .sigterm (.own run.entered)
        entering := some .signalSigint }
  | .signalSigint =>
      { run with
        table := run.table.install .sigint (.own run.entered)
        entered := run.entered + 1
        contexts := run.entered :: run.contexts
        entering := none }

/-- The next statement of the innermost call, with the calls it has interrupted. -/
def proceedCall (run : SignalRun) (call : SignalCall) (rest : List SignalCall) : SignalRun :=
  match call with
  | .release number .test =>
      if (run.table.objects number).released then
        { run with calls := rest }
      else
        { run with calls := .release number .signalSigterm :: rest }
  | .release number .signalSigterm =>
      { run with
        table := run.table.install .sigterm (run.table.objects number).handlerSigterm
        calls := .release number .signalSigint :: rest }
  | .release number .signalSigint =>
      { run with
        table := run.table.install .sigint (run.table.objects number).handlerSigint
        calls := .release number .releasedTrue :: rest }
  | .release number .releasedTrue =>
      { run with
        table := run.table.setObject number { run.table.objects number with released := true }
        calls := rest }
  | .interruptedTrue number =>
      { run with
        table :=
          run.table.setObject number { run.table.objects number with interrupted := true }
        calls := rest }

/-- The function that __enter__ has made for the object is called. -/
def handler (run : SignalRun) (number : Nat) : SignalRun :=
  { run with calls := .release number .test :: .interruptedTrue number :: run.calls }

def step (run : SignalRun) : SignalEvent → SignalRun
  | .proceed =>
      match run.calls, run.entering with
      | call :: rest, _ => run.proceedCall call rest
      | [], some stage => run.proceedEnter stage
      | [], none => run
  | .enter =>
      if run.calls = [] ∧ run.entering = none then
        { run with entering := some .interruptedFalse }
      else
        run
  | .exit =>
      match run.calls, run.entering, run.contexts with
      | [], none, number :: rest =>
          { run with contexts := rest, calls := [.release number .test] }
      | _, _, _ => run
  | .deliver signal =>
      match run.table.installed signal with
      | .found _ => run
      | .own number => run.handler number

end SignalRun

/-- A process ahead of its first context. -/
def signalContexts (objects : Nat → SignalHandler) : Machine SignalRun SignalEvent where
  start := ⟨⟨.found, objects⟩, 0, [], none, []⟩
  step := SignalRun.step

/-- Outside of all contexts the handlers are those found by the outermost one. -/
def SignalRun.Restored (run : SignalRun) : Prop :=
  run.contexts = [] ∧ run.entering = none ∧ run.calls = [] → run.table.Clean

-----------------------------------------------------------------------------------------
-- What the calls in progress still do
-----------------------------------------------------------------------------------------

def SignalTable.released (table : SignalTable) (number : Nat) : Bool :=
  (table.objects number).released

/-- The object whose function the signal runs. -/
def SignalTable.own? (table : SignalTable) (signal : Signal) : Option Nat :=
  match table.installed signal with
  | .found _ => none
  | .own number => some number

/-- The object of a release. -/
def SignalCall.releases? : SignalCall → Option Nat
  | .release number _ => some number
  | .interruptedTrue _ => none

/-- The objects for which these calls still come to signal.signal, if no signal comes; behind
a call of release its object is released.
-/
def restoring (released : Nat → Bool) : List SignalCall → List Nat
  | [] => []
  | .interruptedTrue _ :: rest => restoring released rest
  | .release number stage :: rest =>
      let following := restoring (Function.update released number true) rest
      if stage = .releasedTrue ∨ stage = .test ∧ released number = true then
        following
      else
        number :: following

namespace SignalRun

def pending (run : SignalRun) : List Nat := restoring run.table.released run.calls

/-- The object is released at the end of the calls in progress. -/
def ReleasedBehind (run : SignalRun) (number : Nat) : Prop :=
  run.table.released number = true ∨ some number ∈ run.calls.map SignalCall.releases?

/-- No __enter__ that has read a handler is in progress. -/
def Unread (run : SignalRun) : Prop :=
  run.entering ∈ [none, some .interruptedFalse, some .releasedFalse, some .getSigterm]

/-- The open contexts around that of the object. -/
def enclosing (run : SignalRun) (number : Nat) : List Nat :=
  if number ∈ run.contexts then
    (run.contexts.dropWhile fun other => other ≠ number).tail
  else
    run.contexts

/-- Around the object there is an open context that no call in progress releases. -/
def Enclosed (run : SignalRun) (number : Nat) : Prop :=
  ∃ other ∈ run.enclosing number, ¬ run.ReleasedBehind other

/-- The object is the last one with anything to restore. -/
structure Alone (run : SignalRun) (number : Nat) : Prop where
  unread : run.Unread
  pending : ∀ other ∈ run.pending, other = number
  contexts : ∀ other ∈ run.contexts, other = number ∨ run.ReleasedBehind other

/-- A delivered signal runs the function of an object that is released, that is enclosed by
a context still to be released, or that is the last one with anything to restore.
-/
def ArrivesWell (run : SignalRun) : SignalEvent → Prop
  | .deliver signal =>
      ∀ number ∈ run.table.own? signal,
        run.table.released number = true ∨ run.Enclosed number ∨ run.Alone number
  | _ => True

instance (run : SignalRun) (number : Nat) : Decidable (run.ReleasedBehind number) :=
  inferInstanceAs (Decidable (_ ∨ _))

instance (run : SignalRun) : Decidable run.Unread :=
  inferInstanceAs (Decidable (_ ∈ _))

instance (run : SignalRun) (number : Nat) : Decidable (run.Enclosed number) :=
  inferInstanceAs (Decidable (∃ _ ∈ _, _))

instance (run : SignalRun) (number : Nat) : Decidable (run.Alone number) :=
  decidable_of_iff
    (run.Unread ∧ (∀ other ∈ run.pending, other = number)
      ∧ ∀ other ∈ run.contexts, other = number ∨ run.ReleasedBehind other)
    ⟨fun ⟨unread, pending, contexts⟩ => ⟨unread, pending, contexts⟩,
      fun alone => ⟨alone.unread, alone.pending, alone.contexts⟩⟩

instance (run : SignalRun) : (event : SignalEvent) → Decidable (run.ArrivesWell event)
  | .deliver signal => inferInstanceAs (Decidable (∀ _ ∈ run.table.own? signal, _))
  | .proceed | .enter | .exit => isTrue trivial

end SignalRun

-----------------------------------------------------------------------------------------
-- One statement of a call
-----------------------------------------------------------------------------------------

@[simp] theorem SignalTable.released_install (table : SignalTable) (signal : Signal)
    (handler : Disposition)
    : (table.install signal handler).released = table.released := rfl

theorem SignalTable.released_setObject (table : SignalTable) (number : Nat)
    (object : SignalHandler)
    : (table.setObject number object).released
      = Function.update table.released number object.released := by
  funext other
  by_cases same : other = number <;> simp [released, same]

theorem SignalTable.own?_eq_some {table : SignalTable} {signal : Signal} {number : Nat}
    : table.own? signal = some number ↔ table.installed signal = .own number := by
  unfold own?
  cases table.installed signal <;> simp

/-- What is still restored shrinks with more objects released, by induction on the calls. -/
theorem restoring_mono {released more : Nat → Bool}
    (mono : ∀ number, released number = true → more number = true) (calls : List SignalCall)
    {number : Nat} (pending : number ∈ restoring more calls)
    : number ∈ restoring released calls := by
  induction calls generalizing released more with
  | nil => exact pending
  | cons call rest ih =>
      cases call with
      | interruptedTrue other => exact ih mono pending
      | release other stage =>
          have update : ∀ number, Function.update released other true number = true
              → Function.update more other true number = true := by
            intro number
            by_cases same : number = other
            · simp [same]
            · simpa [same] using mono number
          simp only [restoring] at pending ⊢
          split at pending <;> split
          · exact ih update pending
          · exact List.mem_cons_of_mem _ (ih update pending)
          · rename_i busy spent
            exact absurd (spent.imp id (fun test => ⟨test.1, mono _ test.2⟩)) busy
          · exact (List.mem_cons.mp pending).elim (fun same => List.mem_cons.mpr (.inl same))
              (fun later => List.mem_cons_of_mem _ (ih update later))

theorem update_of_released {released : Nat → Bool} {number : Nat}
    (already : released number = true)
    : Function.update released number true = released := by
  rw [← already, Function.update_eq_self]

/-- The function of a released object has nothing to restore. -/
theorem restoring_test_of_released {released : Nat → Bool} {number : Nat}
    (already : released number = true) (calls : List SignalCall)
    : restoring released (.release number .test :: calls) = restoring released calls := by
  simp [restoring, already, update_of_released already]

/-- What the next statement of a call does: it leaves the handlers alone, or it restores one
of them for an object.
-/
inductive SignalRun.Proceeds (run : SignalRun) (call : SignalCall) (rest : List SignalCall)
    (next : SignalRun) : Prop where
  | keeps (installed : next.table.installed = run.table.installed)
      (pending : next.pending = run.pending)
      (halves
        : ∀ number, .release number .signalSigint ∈ next.calls
            → .release number .signalSigint ∈ run.calls)
  | sigterm (number : Nat) (called : call = .release number .signalSigterm)
      (restored
        : next.table
          = run.table.install .sigterm (run.table.objects number).handlerSigterm)
      (pending : next.pending = run.pending)
      (there : number ∈ run.pending)
  | sigint (number : Nat) (called : call = .release number .signalSigint)
      (restored
        : next.table = run.table.install .sigint (run.table.objects number).handlerSigint)
      (pending : run.pending = number :: next.pending)
      (halves
        : ∀ number, .release number .signalSigint ∈ next.calls
            → .release number .signalSigint ∈ run.calls)

namespace SignalRun

variable {run : SignalRun} {call : SignalCall} {rest : List SignalCall}

theorem proceedCall_test_of_released {number : Nat} (already : run.table.released number = true)
    : run.proceedCall (.release number .test) rest = { run with calls := rest } := by
  simpa [proceedCall, SignalTable.released] using already

theorem proceedCall_test_of_not_released {number : Nat}
    (waits : ¬ run.table.released number = true)
    : run.proceedCall (.release number .test) rest
      = { run with calls := .release number .signalSigterm :: rest } := by
  simpa [proceedCall, SignalTable.released] using waits

/-- Every statement is one of these, by cases on the call and its stage. -/
theorem proceedCall_proceeds (calls : run.calls = call :: rest)
    : run.Proceeds call rest (run.proceedCall call rest) := by
  have later : ∀ number : Nat,
      SignalCall.release number .signalSigint ∈ rest
      → SignalCall.release number .signalSigint ∈ run.calls := by
    intro number there
    exact calls ▸ List.mem_cons_of_mem _ there
  cases call with
  | interruptedTrue number =>
      refine .keeps rfl ?_ later
      simp only [pending, proceedCall, calls, restoring, SignalTable.released_setObject]
      exact congrArg (restoring · rest) (Function.update_eq_self number run.table.released)
  | release number stage =>
      cases stage with
      | test =>
          by_cases released : run.table.released number = true
          · rw [proceedCall_test_of_released released]
            exact .keeps rfl (by simp [pending, calls, restoring_test_of_released released])
              later
          · rw [proceedCall_test_of_not_released released]
            refine .keeps rfl (by simp [pending, calls, restoring, released]) ?_
            intro other there
            exact later other (by simpa using there)
      | signalSigterm =>
          exact .sigterm number rfl rfl (by simp [pending, proceedCall, calls, restoring])
            (by simp [pending, calls, restoring])
      | signalSigint =>
          refine .sigint number rfl rfl (by simp [pending, proceedCall, calls, restoring]) ?_
          intro other there
          exact later other (by simpa [proceedCall] using there)
      | releasedTrue =>
          refine .keeps rfl ?_ later
          simp [pending, proceedCall, calls, restoring, SignalTable.released_setObject]

/-- A call leaves the contexts alone. -/
theorem proceedCall_frame (run : SignalRun) (call : SignalCall) (rest : List SignalCall)
    : (run.proceedCall call rest).contexts = run.contexts
      ∧ (run.proceedCall call rest).entering = run.entering
      ∧ (run.proceedCall call rest).entered = run.entered := by
  cases call with
  | interruptedTrue number => exact ⟨rfl, rfl, rfl⟩
  | release number stage =>
      cases stage with
      | test => simp only [proceedCall]; split <;> exact ⟨rfl, rfl, rfl⟩
      | signalSigterm | signalSigint | releasedTrue => exact ⟨rfl, rfl, rfl⟩

/-- A call leaves what the objects have saved. -/
theorem proceedCall_saved (number : Nat)
    : (run.proceedCall call rest).table.Saved number ↔ run.table.Saved number := by
  cases call with
  | interruptedTrue other =>
      by_cases same : number = other <;> simp [proceedCall, SignalTable.Saved, same]
  | release other stage =>
      cases stage with
      | test => simp only [proceedCall]; split <;> rfl
      | signalSigterm | signalSigint => rfl
      | releasedTrue =>
          by_cases same : number = other <;> simp [proceedCall, SignalTable.Saved, same]

/-- A call that releases an object does so to its end. -/
theorem proceedCall_releasedBehind (calls : run.calls = call :: rest) (number : Nat)
    : (run.proceedCall call rest).ReleasedBehind number ↔ run.ReleasedBehind number := by
  cases call with
  | interruptedTrue other =>
      by_cases same : number = other
        <;> simp [ReleasedBehind, proceedCall, SignalTable.released, calls, same,
          SignalCall.releases?]
  | release other stage =>
      cases stage with
      | test =>
          by_cases released : run.table.released other = true
          · rw [proceedCall_test_of_released released]
            by_cases same : number = other
            · simp [ReleasedBehind, same, released]
            · simp [ReleasedBehind, calls, SignalCall.releases?, same]
          · rw [proceedCall_test_of_not_released released]
            simp [ReleasedBehind, calls, SignalCall.releases?]
      | signalSigterm | signalSigint =>
          simp [ReleasedBehind, proceedCall, calls, SignalCall.releases?]
      | releasedTrue =>
          by_cases same : number = other
            <;> simp [ReleasedBehind, proceedCall, SignalTable.released, calls, same,
              SignalCall.releases?]

/-- All that an event can do, with what it has found. -/
inductive Steps (run : SignalRun) (event : SignalEvent) (next : SignalRun) : Prop where
  | proceeds (call : SignalCall) (rest : List SignalCall) (calls : run.calls = call :: rest)
      (lands : next = run.proceedCall call rest)
  | enters (stage : EnterStage) (calls : run.calls = []) (entering : run.entering = some stage)
      (lands : next = run.proceedEnter stage)
  | begins (calls : run.calls = []) (entering : run.entering = none)
      (lands : next = { run with entering := some .interruptedFalse })
  | ends (number : Nat) (rest : List Nat) (calls : run.calls = [])
      (entering : run.entering = none) (contexts : run.contexts = number :: rest)
      (lands : next = { run with contexts := rest, calls := [.release number .test] })
  | handles (signal : Signal) (number : Nat) (arrives : event = .deliver signal)
      (installed : run.table.installed signal = .own number)
      (lands : next = run.handler number)
  | rests (lands : next = run)

/-- Every event does one of these. -/
theorem step_cases (run : SignalRun) (event : SignalEvent)
    : run.Steps event (run.step event) := by
  cases event with
  | proceed =>
      simp only [step]
      split
      · rename_i calls
        exact .proceeds _ _ calls rfl
      · rename_i calls entering
        exact .enters _ calls entering rfl
      · exact .rests rfl
  | enter =>
      simp only [step]
      split
      · rename_i idle
        exact .begins idle.1 idle.2 rfl
      · exact .rests rfl
  | exit =>
      simp only [step]
      split
      · rename_i calls entering contexts
        exact .ends _ _ calls entering contexts rfl
      · exact .rests rfl
  | deliver signal =>
      simp only [step]
      split
      · exact .rests rfl
      · rename_i installed
        exact .handles signal _ rfl installed rfl

end SignalRun

-----------------------------------------------------------------------------------------
-- The invariant
-----------------------------------------------------------------------------------------

/-- An open context has the handlers saved and still to be restored, and those around it are
released: it is the one to come last.
-/
structure SignalRun.Covers (run : SignalRun) (number : Nat) : Prop where
  around
    : ∃ inner outer,
        run.contexts = inner ++ number :: outer ∧ number ∉ inner
        ∧ ∀ other ∈ outer, run.ReleasedBehind other
  waits : ¬ run.ReleasedBehind number
  saved : run.table.Saved number

/-- What __enter__ has saved is what was found. -/
def SignalRun.Reads (run : SignalRun) : EnterStage → Prop
  | .interruptedFalse | .releasedFalse | .getSigterm => True
  | .getSigint handlerSigterm => run.pending = [] ∧ handlerSigterm = .found .sigterm
  | .signalSigterm handlerSigterm handlerSigint =>
      run.pending = [] ∧ handlerSigterm = .found .sigterm ∧ handlerSigint = .found .sigint
  | .signalSigint => False

/-- All open contexts are released or being released, by calls that restore what was found. -/
structure SignalRun.Settling (run : SignalRun) : Prop where
  contexts : ∀ number ∈ run.contexts, run.ReleasedBehind number
  pending : ∀ number ∈ run.pending, run.table.Saved number
  halves
    : ∀ number,
        .release number .signalSigint ∈ run.calls
        → run.table.installed .sigterm = .found .sigterm
  clean : run.pending = [] → run.table.Clean
  entering : ∀ stage, run.entering = some stage → run.Reads stage

/-- __enter__ is between its two calls of signal.signal, and all open contexts are released. -/
structure SignalRun.Halfway (run : SignalRun) : Prop where
  entering : run.entering = some .signalSigint
  contexts : ∀ number ∈ run.contexts, run.ReleasedBehind number
  waits : ¬ run.ReleasedBehind run.entered
  saved : run.table.Saved run.entered
  pending : run.pending = []
  sigterm : run.table.installed .sigterm = .own run.entered
  sigint : run.table.installed .sigint = .found .sigint

/-- The objects of the open contexts are none of those to come. -/
def SignalRun.Numbered (run : SignalRun) : Prop :=
  ∀ number ∈ run.contexts, number < run.entered

namespace SignalRun

variable {run : SignalRun}

theorem Numbered.step (numbered : run.Numbered) (event : SignalEvent)
    : (run.step event).Numbered := by
  cases run.step_cases event with
  | proceeds call rest calls lands =>
      obtain ⟨contexts, -, entered⟩ := proceedCall_frame run call rest
      rw [lands, Numbered, contexts, entered]
      exact numbered
  | enters stage calls entering lands =>
      rw [lands]
      cases stage with
      | signalSigint =>
          intro number there
          rcases List.mem_cons.mp there with same | before
          · exact same ▸ Nat.lt_succ_self _
          · exact Nat.lt_succ_of_lt (numbered number before)
      | interruptedFalse | releasedFalse | getSigterm | getSigint _ | signalSigterm _ _ =>
          exact numbered
  | ends number rest calls entering contexts lands =>
      rw [lands]
      intro other there
      exact numbered other (contexts ▸ List.mem_cons_of_mem _ there)
  | begins _ _ lands | handles _ _ _ _ lands | rests lands =>
      rw [lands]
      exact numbered

-----------------------------------------------------------------------------------------
-- An open context that covers the others
-----------------------------------------------------------------------------------------

theorem Covers.mem {number : Nat} (covers : run.Covers number) : number ∈ run.contexts := by
  obtain ⟨inner, outer, split_, -⟩ := covers.around
  simp [split_]

/-- Releases of further objects do not uncover. -/
theorem Covers.of_released {next : SignalRun} {number : Nat} (covers : run.Covers number)
    (contexts : next.contexts = run.contexts)
    (released
      : ∀ other ∈ run.contexts, run.ReleasedBehind other → next.ReleasedBehind other)
    (waits : ¬ next.ReleasedBehind number) (saved : next.table.Saved number)
    : next.Covers number := by
  obtain ⟨inner, outer, split_, apart, around⟩ := covers.around
  refine ⟨⟨inner, outer, contexts.trans split_, apart, ?_⟩, waits, saved⟩
  intro other there
  exact released other (by simp [split_, there]) (around other there)

theorem enclosing_subset {number other : Nat} (there : other ∈ run.enclosing number)
    : other ∈ run.contexts := by
  unfold enclosing at there
  split at there
  · exact (List.dropWhile_sublist _).subset (List.mem_of_mem_tail there)
  · exact there

/-- Nothing encloses the object that is to come last. -/
theorem Covers.not_enclosed {number : Nat} (covers : run.Covers number)
    : ¬ run.Enclosed number := by
  rintro ⟨other, there, waits⟩
  obtain ⟨inner, outer, split_, apart, around⟩ := covers.around
  have passed : ∀ other ∈ inner, decide (other ≠ number) = true := by
    intro other inside
    simpa using fun same : other = number => apart (same ▸ inside)
  have enclosing : run.enclosing number = outer := by
    rw [SignalRun.enclosing, if_pos covers.mem, split_, List.dropWhile_append_of_pos passed,
      List.dropWhile_cons_of_neg (by simp), List.tail_cons]
  exact waits (around other (enclosing ▸ there))

/-- Where the open contexts are all released, nothing is enclosed. -/
theorem not_enclosed_of_released (contexts : ∀ number ∈ run.contexts, run.ReleasedBehind number)
    (number : Nat)
    : ¬ run.Enclosed number := by
  rintro ⟨other, there, waits⟩
  exact waits (contexts other (enclosing_subset there))

/-- A statement of __enter__ keeps the cover, by cases on the stage. -/
theorem Covers.proceedEnter {number : Nat} (covers : run.Covers number)
    (numbered : run.Numbered) (stage : EnterStage)
    : (run.proceedEnter stage).Covers number := by
  have old : ∀ other ∈ run.contexts, other ≠ run.entered :=
    fun other there => Nat.ne_of_lt (numbered other there)
  cases stage with
  | interruptedFalse | releasedFalse | getSigterm | getSigint _ =>
      exact covers.of_released rfl (fun _ _ released => released) covers.waits covers.saved
  | signalSigterm handlerSigterm handlerSigint =>
      have same : ∀ other ∈ run.contexts,
          ((run.proceedEnter (.signalSigterm handlerSigterm handlerSigint)).ReleasedBehind other
            ↔ run.ReleasedBehind other) := by
        intro other there
        simp [SignalRun.proceedEnter, ReleasedBehind, SignalTable.released, old other there]
      refine covers.of_released rfl (fun other there => (same other there).mpr) ?_ ?_
      · exact fun released => covers.waits ((same number covers.mem).mp released)
      · simpa [SignalRun.proceedEnter, SignalTable.Saved, old number covers.mem]
          using covers.saved
  | signalSigint =>
      obtain ⟨inner, outer, split_, apart, around⟩ := covers.around
      refine ⟨⟨run.entered :: inner, outer, ?_, ?_, around⟩, covers.waits, covers.saved⟩
      · simp [SignalRun.proceedEnter, split_]
      · simp [apart, old number covers.mem]

/-- With the function of an object on top, that object is released at the end too. -/
theorem handler_releasedBehind (number other : Nat)
    : (run.handler number).ReleasedBehind other
      ↔ other = number ∨ run.ReleasedBehind other := by
  simp only [ReleasedBehind, handler, List.map_cons, SignalCall.releases?, List.mem_cons,
    Option.some.injEq, reduceCtorEq, false_or]
  tauto

/-- The last object's function, which a signal runs, restores what was found. -/
theorem Alone.settling {number : Nat} (alone : run.Alone number)
    (unreleased : ¬ run.table.released number = true) (saved : run.table.Saved number)
    (halves : ∀ other, .release other .signalSigint ∈ run.calls
      → run.table.installed .sigterm = .found .sigterm)
    : (run.handler number).Settling := by
  have pending
      : (run.handler number).pending
        = number :: restoring (Function.update run.table.released number true) run.calls := by
    simp [SignalRun.pending, handler, restoring, unreleased]
  have more : ∀ other, run.table.released other = true
      → Function.update run.table.released number true other = true := by
    intro other released
    by_cases same : other = number <;> simp [same, released]
  constructor
  · intro other there
    exact (handler_releasedBehind number other).mpr (alone.contexts other there)
  · intro other there
    rw [pending] at there
    rcases List.mem_cons.mp there with same | before
    · exact same ▸ saved
    · have same := alone.pending other (restoring_mono more run.calls before)
      exact same ▸ saved
  · intro other there
    exact halves other (by simpa [handler] using there)
  · intro none_
    simp [pending] at none_
  · intro stage entering
    have unread := alone.unread
    simp only [Unread, show run.entering = some stage from entering, List.mem_cons,
      Option.some.injEq, reduceCtorEq, List.not_mem_nil, or_false, false_or] at unread
    rcases unread with rfl | rfl | rfl <;> trivial

/-- A release between its two calls still restores, by induction on the calls. -/
theorem mem_restoring_of_half {number : Nat} {calls : List SignalCall}
    (half : .release number .signalSigint ∈ calls) (released : Nat → Bool)
    : number ∈ restoring released calls := by
  induction calls generalizing released with
  | nil => simp at half
  | cons call rest ih =>
      rcases List.mem_cons.mp half with same | later
      · simp [← same, restoring]
      · cases call with
        | interruptedTrue other => exact ih later released
        | release other stage =>
            simp only [restoring]
            split
            · exact ih later _
            · exact List.mem_cons_of_mem _ (ih later _)

theorem releasedBehind_of_half {number : Nat} {stage : ReleaseStage}
    (called : .release number stage ∈ run.calls)
    : run.ReleasedBehind number :=
  .inr (List.mem_map.mpr ⟨_, called, rfl⟩)

theorem Covers.waits_released {number : Nat} (covers : run.Covers number)
    : ¬ run.table.released number = true :=
  fun released => covers.waits (.inl released)

/-- The end of the innermost block keeps the cover, or begins the release of the covering
context.
-/
theorem Covers.ends {number top : Nat} {rest : List Nat} (covers : run.Covers number)
    (calls : run.calls = []) (entering : run.entering = none)
    (contexts : run.contexts = top :: rest) {next : SignalRun}
    (lands : next = { run with contexts := rest, calls := [.release top .test] })
    : next.Covers number ∨ next.Settling := by
  obtain ⟨inner, outer, split_, apart, around⟩ := covers.around
  rw [contexts] at split_
  have grows : ∀ other, run.ReleasedBehind other → next.ReleasedBehind other := by
    intro other released
    rw [lands]
    exact released.imp id (fun called => by simp [calls] at called)
  subst lands
  cases inner with
  | nil =>
      obtain ⟨rfl, rfl⟩ := List.cons.inj split_
      have waits := covers.waits_released
      refine .inr ⟨fun other there => grows other (around other there), ?_, ?_, ?_, ?_⟩
      · simpa [pending, restoring, waits] using covers.saved
      · simp
      · simp [pending, restoring, waits]
      · simp [entering]
  | cons first inner =>
      obtain ⟨rfl, rfl⟩ := List.cons.inj split_
      obtain ⟨other_, apart⟩ := List.ne_and_not_mem_of_not_mem_cons apart
      refine .inl ⟨⟨inner, outer, rfl, apart, fun other there =>
        grows other (around other there)⟩, ?_, covers.saved⟩
      intro released
      rcases released with before | called
      · exact covers.waits (.inl before)
      · simp [SignalCall.releases?, other_] at called

/-- A signal for another object keeps the cover; the covering one has to be the last. -/
theorem Covers.handles {number target : Nat} (covers : run.Covers number)
    (well
      : run.table.released target = true ∨ run.Enclosed target ∨ run.Alone target)
    : (run.handler target).Covers number ∨ (run.handler target).Settling := by
  by_cases same : target = number
  · subst same
    have alone := (well.resolve_left covers.waits_released).resolve_left covers.not_enclosed
    refine .inr (alone.settling covers.waits_released covers.saved ?_)
    intro other half
    have target_ := alone.pending other (mem_restoring_of_half half _)
    exact absurd (releasedBehind_of_half (target_ ▸ half)) covers.waits
  · refine .inl (covers.of_released rfl ?_ ?_ covers.saved)
    · exact fun other _ released => (handler_releasedBehind target other).mpr (.inr released)
    · intro released
      rcases (handler_releasedBehind target number).mp released with rfl | before
      · exact same rfl
      · exact covers.waits before

theorem ArrivesWell.deliver {event : SignalEvent} (well : run.ArrivesWell event)
    {signal : Signal} {number : Nat} (arrives : event = .deliver signal)
    (installed : run.table.installed signal = .own number)
    : run.table.released number = true ∨ run.Enclosed number ∨ run.Alone number := by
  subst arrives
  exact well number (SignalTable.own?_eq_some.mpr installed)

/-- Each event either keeps the cover or lets the calls of release settle. -/
theorem Covers.step {number : Nat} (covers : run.Covers number) (numbered : run.Numbered)
    (event : SignalEvent) (well : run.ArrivesWell event)
    : (run.step event).Covers number ∨ (run.step event).Settling := by
  cases run.step_cases event with
  | proceeds call rest calls lands =>
      have same := proceedCall_releasedBehind calls
      rw [lands]
      exact .inl (covers.of_released (proceedCall_frame run call rest).1
        (fun other _ => (same other).mpr)
        (fun released => covers.waits ((same number).mp released))
        ((proceedCall_saved number).mpr covers.saved))
  | enters stage calls entering lands =>
      rw [lands]
      exact .inl (covers.proceedEnter numbered stage)
  | begins calls entering lands =>
      rw [lands]
      exact .inl (covers.of_released rfl (fun _ _ released => released) covers.waits
        covers.saved)
  | ends top rest calls entering contexts lands =>
      exact covers.ends calls entering contexts lands
  | handles signal target arrives installed lands =>
      rw [lands]
      exact covers.handles (well.deliver arrives installed)
  | rests lands =>
      rw [lands]
      exact .inl covers

-----------------------------------------------------------------------------------------
-- Calls that settle
-----------------------------------------------------------------------------------------

/-- What has been read stays right as long as nothing more is restored. -/
theorem Reads.of_pending {next : SignalRun} {stage : EnterStage} (reads : run.Reads stage)
    (pending : run.pending = [] → next.pending = [])
    : next.Reads stage := by
  cases stage with
  | interruptedFalse | releasedFalse | getSigterm => trivial
  | getSigint _ | signalSigterm _ _ => exact ⟨pending reads.1, reads.2⟩
  | signalSigint => exact reads

/-- A statement of a settling call, by cases on what it does to the handlers. -/
theorem Settling.proceedCall (settling : run.Settling) {call : SignalCall}
    {rest : List SignalCall} (calls : run.calls = call :: rest)
    : (run.proceedCall call rest).Settling := by
  obtain ⟨contexts, entering, -⟩ := proceedCall_frame run call rest
  have released : ∀ number ∈ (run.proceedCall call rest).contexts,
      (run.proceedCall call rest).ReleasedBehind number := by
    intro number there
    exact (proceedCall_releasedBehind calls number).mpr
      (settling.contexts number (contexts ▸ there))
  have saved : ∀ number ∈ run.pending, (run.proceedCall call rest).table.Saved number :=
    fun number there => (proceedCall_saved number).mpr (settling.pending number there)
  have reads : (run.pending = [] → (run.proceedCall call rest).pending = [])
      → ∀ stage, (run.proceedCall call rest).entering = some stage
        → (run.proceedCall call rest).Reads stage :=
    fun less stage stands => (settling.entering stage (entering ▸ stands)).of_pending less
  cases proceedCall_proceeds calls with
  | keeps installed pending halves =>
      refine ⟨released, fun number there => saved number (pending ▸ there), ?_, ?_,
        reads (fun none_ => pending.trans none_)⟩
      · intro number half
        rw [installed]
        exact settling.halves number (halves number half)
      · intro none_ signal
        rw [installed]
        exact settling.clean (pending ▸ none_) signal
  | sigterm number called restored pending there =>
      refine ⟨released, fun number there => saved number (pending ▸ there), ?_, ?_,
        reads (fun none_ => pending.trans none_)⟩
      · intro other half
        simp [restored, (settling.pending number there).1]
      · intro none_
        rw [← pending, none_] at there
        simp at there
  | sigint number called restored pending halves =>
      have there : number ∈ run.pending := by simp [pending]
      have sigterm := settling.halves number (by simp [calls, called])
      refine ⟨released, ?_, ?_, ?_, reads (fun none_ => by simp [pending] at none_)⟩
      · exact fun other later => saved other (pending ▸ List.mem_cons_of_mem _ later)
      · intro other half
        simp [restored, sigterm]
      · intro none_ signal
        cases signal with
        | sigterm => simp [restored, sigterm]
        | sigint => simp [restored, (settling.pending number there).2]

/-- A statement of __enter__ where no call is in progress, by cases on the stage. -/
theorem Settling.proceedEnter (settling : run.Settling) (numbered : run.Numbered)
    (calls : run.calls = []) {stage : EnterStage} (entering : run.entering = some stage)
    : (run.proceedEnter stage).Settling ∨ (run.proceedEnter stage).Halfway := by
  have pending : run.pending = [] := by simp [SignalRun.pending, calls, restoring]
  have clean := settling.clean pending
  have reads := settling.entering stage entering
  have next : ∀ later, run.Reads later
      → ({ run with entering := some later } : SignalRun).Settling := by
    intro later right
    refine ⟨settling.contexts, settling.pending, settling.halves, settling.clean, ?_⟩
    intro stage stands
    exact Option.some.inj stands ▸ right.of_pending id
  cases stage with
  | interruptedFalse => exact .inl (next .releasedFalse trivial)
  | releasedFalse => exact .inl (next .getSigterm trivial)
  | getSigterm => exact .inl (next _ ⟨pending, clean .sigterm⟩)
  | getSigint handlerSigterm =>
      exact .inl (next _ ⟨pending, reads.2, clean .sigint⟩)
  | signalSigterm handlerSigterm handlerSigint =>
      obtain ⟨-, rfl, rfl⟩ := reads
      have old : ∀ other ∈ run.contexts, other ≠ run.entered :=
        fun other there => Nat.ne_of_lt (numbered other there)
      refine .inr ⟨rfl, ?_, ?_, ?_, ?_, ?_, ?_⟩
      · intro other there
        have released := settling.contexts other there
        simpa [SignalRun.proceedEnter, ReleasedBehind, SignalTable.released, calls,
          old other there] using released
      · simp [SignalRun.proceedEnter, ReleasedBehind, SignalTable.released, calls]
      · simp [SignalRun.proceedEnter, SignalTable.Saved]
      · simp [SignalRun.proceedEnter, SignalRun.pending, calls, restoring]
      · simp [SignalRun.proceedEnter]
      · simp [SignalRun.proceedEnter, clean .sigint]
  | signalSigint => exact reads.elim

/-- The end of the innermost block releases an object that is released already. -/
theorem Settling.ends {top : Nat} {rest : List Nat} (settling : run.Settling)
    (calls : run.calls = []) (entering : run.entering = none)
    (contexts : run.contexts = top :: rest)
    : ({ run with contexts := rest, calls := [.release top .test] } : SignalRun).Settling := by
  have released : ∀ other ∈ run.contexts, run.table.released other = true := by
    intro other there
    exact (settling.contexts other there).resolve_right (by simp [calls])
  have top_ := released top (by simp [contexts])
  have clean := settling.clean (by simp [SignalRun.pending, calls, restoring])
  refine ⟨?_, ?_, ?_, fun _ => clean, ?_⟩
  · exact fun other there => .inl (released other (by simp [contexts, there]))
  · simp [SignalRun.pending, restoring, top_]
  · simp
  · simp [entering]

/-- A signal meets a released object, whose function does nothing, or the last one. -/
theorem Settling.handles {signal : Signal} {target : Nat} (settling : run.Settling)
    (installed : run.table.installed signal = .own target)
    (well
      : run.table.released target = true ∨ run.Enclosed target ∨ run.Alone target)
    : (run.handler target).Settling := by
  have busy : run.pending ≠ [] := by
    intro none_
    simp [settling.clean none_ signal] at installed
  by_cases already : run.table.released target = true
  · have pending : (run.handler target).pending = run.pending :=
      restoring_test_of_released already _
    refine ⟨?_, ?_, ?_, ?_, ?_⟩
    · exact fun other there => (handler_releasedBehind target other).mpr
        (.inr (settling.contexts other there))
    · exact fun other there => settling.pending other (pending ▸ there)
    · exact fun other half => settling.halves other (by simpa [handler] using half)
    · exact fun none_ => (busy (pending ▸ none_)).elim
    · exact fun stage stands =>
        (settling.entering stage stands).of_pending (fun none_ => pending.trans none_)
  · have alone := (well.resolve_left already).resolve_left
      (not_enclosed_of_released settling.contexts target)
    obtain ⟨first, there⟩ := List.exists_mem_of_ne_nil _ busy
    have saved := alone.pending first there ▸ settling.pending first there
    exact alone.settling already saved settling.halves

/-- Each event lets the calls settle further, or __enter__ comes between its two calls. -/
theorem Settling.step (settling : run.Settling) (numbered : run.Numbered)
    (event : SignalEvent) (well : run.ArrivesWell event)
    : (run.step event).Settling ∨ (run.step event).Halfway := by
  cases run.step_cases event with
  | proceeds call rest calls lands =>
      rw [lands]
      exact .inl (settling.proceedCall calls)
  | enters stage calls entering lands =>
      rw [lands]
      exact settling.proceedEnter numbered calls entering
  | begins calls entering lands =>
      rw [lands]
      refine .inl ⟨settling.contexts, settling.pending, settling.halves, settling.clean, ?_⟩
      intro stage stands
      exact Option.some.inj stands ▸ trivial
  | ends top rest calls entering contexts lands =>
      rw [lands]
      exact .inl (settling.ends calls entering contexts)
  | handles signal target arrives installed lands =>
      rw [lands]
      exact .inl (settling.handles installed (well.deliver arrives installed))
  | rests lands =>
      rw [lands]
      exact .inl settling

-----------------------------------------------------------------------------------------
-- Between the two calls of __enter__
-----------------------------------------------------------------------------------------

/-- The calls restore nothing any more, so the handlers stay. -/
theorem Halfway.proceedCall (halfway : run.Halfway) {call : SignalCall}
    {rest : List SignalCall} (calls : run.calls = call :: rest)
    : (run.proceedCall call rest).Halfway := by
  obtain ⟨contexts, entering, entered⟩ := proceedCall_frame run call rest
  have same := proceedCall_releasedBehind calls
  have stays : (run.proceedCall call rest).table.installed = run.table.installed
      ∧ (run.proceedCall call rest).pending = [] := by
    cases proceedCall_proceeds calls with
    | keeps installed pending halves => exact ⟨installed, pending.trans halfway.pending⟩
    | sigterm number called restored pending there => simp [halfway.pending] at there
    | sigint number called restored pending halves => simp [halfway.pending] at pending
  refine ⟨entering.trans halfway.entering, ?_, ?_, ?_, stays.2, ?_, ?_⟩
  · rw [contexts]
    exact fun number there => (same number).mpr (halfway.contexts number there)
  · rw [entered, same]
    exact halfway.waits
  · rw [entered, proceedCall_saved]
    exact halfway.saved
  · rw [stays.1, entered]
    exact halfway.sigterm
  · rw [stays.1]
    exact halfway.sigint

/-- No signal arrives well between the two calls, for the function of the object runs. -/
theorem Halfway.not_handles {signal : Signal} {target : Nat} (halfway : run.Halfway)
    (installed : run.table.installed signal = .own target)
    : ¬ (run.table.released target = true ∨ run.Enclosed target ∨ run.Alone target) := by
  have target_ : target = run.entered := by
    cases signal with
    | sigterm => simpa [halfway.sigterm] using installed.symm
    | sigint => simp [halfway.sigint] at installed
  subst target_
  rintro (released | enclosed | alone)
  · exact halfway.waits (.inl released)
  · exact not_enclosed_of_released halfway.contexts _ enclosed
  · have unread := alone.unread
    simp [Unread, halfway.entering] at unread

/-- Each event leaves __enter__ where it is, or the new context covers the released ones. -/
theorem Halfway.step (halfway : run.Halfway) (event : SignalEvent)
    (well : run.ArrivesWell event)
    : (run.step event).Halfway ∨ (run.step event).Covers run.entered := by
  cases run.step_cases event with
  | proceeds call rest calls lands =>
      rw [lands]
      exact .inl (halfway.proceedCall calls)
  | enters stage calls entering lands =>
      obtain rfl : stage = .signalSigint := by simpa [halfway.entering] using entering.symm
      rw [lands]
      exact .inr ⟨⟨[], run.contexts, rfl, by simp, halfway.contexts⟩, halfway.waits,
        halfway.saved⟩
  | begins calls entering lands => simp [halfway.entering] at entering
  | ends top rest calls entering contexts lands => simp [halfway.entering] at entering
  | handles signal target arrives installed lands =>
      exact absurd (well.deliver arrives installed) (halfway.not_handles installed)
  | rests lands =>
      rw [lands]
      exact .inl halfway

-----------------------------------------------------------------------------------------
-- Whole runs
-----------------------------------------------------------------------------------------

/-- The invariant: an open context covers the others, or what was found is being restored, or
__enter__ is between its two calls.
-/
structure Secure (run : SignalRun) : Prop where
  numbered : run.Numbered
  phase : (∃ number, run.Covers number) ∨ run.Settling ∨ run.Halfway

theorem Secure.step (secure : run.Secure) (event : SignalEvent)
    (well : run.ArrivesWell event)
    : (run.step event).Secure := by
  refine ⟨secure.numbered.step event, ?_⟩
  rcases secure.phase with ⟨number, covers⟩ | settling | halfway
  · rcases covers.step secure.numbered event well with stays | settles
    · exact .inl ⟨number, stays⟩
    · exact .inr (.inl settles)
  · exact .inr (settling.step secure.numbered event well)
  · rcases halfway.step event well with stays | opens
    · exact .inr (.inr stays)
    · exact .inl ⟨run.entered, opens⟩

theorem Secure.restored (secure : run.Secure) : run.Restored := by
  rintro ⟨contexts, entering, calls⟩
  rcases secure.phase with ⟨number, covers⟩ | settling | halfway
  · have there := covers.mem
    simp [contexts] at there
  · exact settling.clean (by simp [pending, calls, restoring])
  · simp [halfway.entering] at entering

end SignalRun

/-- Behind every outermost context the handlers found are back, whatever the objects have
been, if every signal arrives well.
-/
theorem restored_of_arrivesWell (objects : Nat → SignalHandler) (labels : List SignalEvent)
    (well
      : (signalContexts objects).Each SignalRun.ArrivesWell (signalContexts objects).start
          labels)
    : (signalContexts objects).Always SignalRun.Restored (signalContexts objects).start
        labels := by
  refine well.always SignalRun.Secure (fun run event secure => secure.step event)
    (fun run secure => secure.restored) ?_
  have clean : (signalContexts objects).start.table.Clean := fun signal => rfl
  refine ⟨by simp [SignalRun.Numbered, signalContexts], .inr (.inl ⟨?_, ?_, ?_, ?_, ?_⟩)⟩
  · simp [signalContexts]
  · simp [signalContexts, SignalRun.pending, restoring]
  · simp [signalContexts]
  · exact fun _ => clean
  · simp [signalContexts]

/-- SIGTERM behind the first signal.signal of __enter__. -/
def signalInEnter : List SignalEvent :=
  .enter :: List.replicate 5 .proceed ++ .deliver .sigterm :: List.replicate 6 .proceed
  ++ [.exit, .proceed]

/-- An outer and an inner context, with SIGTERM in the block of the inner one. -/
def signalInBlocks : List SignalEvent :=
  .enter :: List.replicate 6 .proceed ++ .enter :: List.replicate 6 .proceed
  ++ .deliver .sigterm :: List.replicate 5 .proceed ++ [.exit, .proceed, .exit]
  ++ List.replicate 4 .proceed

/-- Objects that have not been entered. -/
def unentered (_ : Nat) : SignalHandler :=
  ⟨false, false, .found .sigterm, .found .sigint⟩

/-- The function installed for SIGINT behind its release stays. -/
theorem restored_signalInEnter
    : ¬ (signalContexts unentered).Always SignalRun.Restored (signalContexts unentered).start
        signalInEnter := by
  intro always
  have sigint := always.last (by decide) .sigint
  revert sigint
  decide

theorem restored_signalInBlocks
    : (signalContexts unentered).Always SignalRun.Restored (signalContexts unentered).start
        signalInBlocks :=
  restored_of_arrivesWell unentered signalInBlocks (by decide)

end PgCluster.Backend
