import PgCluster.Backend.SignalHandler
import PgCluster.Foundation.Machine

/-! The supervision loop of the main thread, a context object for each iteration, and what
becomes of the signals that come between its steps.
-/

namespace PgCluster.Backend

open Foundation

/-- What follows the end of a context: the loop's next test, validate_test behind the break,
or the end of the main thread behind sys.exit.
-/
inductive AfterContext where
  | again
  | validation
  | exit
deriving DecidableEq, Repr

/-- The next step of the main thread. -/
inductive MainPosition where
  | loopTest
  | entering
  | installingTerm
  | installingInt
  | counting
  | breakTest
  | sleeping
  | logging
  | interruptTest
  | terminating
  | stopping
  | leaving (next : AfterContext)
  | restoring (next : AfterContext)
  | validating
  | exited
  | killed
deriving DecidableEq, Repr

/-- The main thread, with the number of its context object; as ghosts the iteration of the
first signal that one of these objects has caught, and the last iteration whose sleep has
completed.
-/
structure Supervision where
  position : MainPosition
  table : SignalTable
  iteration : Nat
  aliveCount : Nat
  isTerminate : Bool
  caught : Option Nat
  slept : Nat

def AfterContext.position : AfterContext → MainPosition
  | .again => .loopTest
  | .validation => .validating
  | .exit => .exited

namespace Supervision

def object (state : Supervision) : SignalHandler := state.table.objects state.iteration

/-- The next step of the main thread, with the number of threads alive, if it counts them. -/
def main (alive : Nat) (state : Supervision) : Supervision :=
  match state.position with
  | .loopTest =>
      if 0 < state.aliveCount then
        { state with position := .entering }
      else
        { state with position := .validating }
  | .entering =>
      { state with
        position := .installingTerm,
        iteration := state.iteration + 1,
        table := state.table.enter (state.iteration + 1) }
  | .installingTerm =>
      { state with
        position := .installingInt,
        table := state.table.install .sigterm (.own state.iteration) }
  | .installingInt =>
      { state with
        position := .counting,
        table := state.table.install .sigint (.own state.iteration) }
  | .counting => { state with position := .breakTest, aliveCount := alive }
  | .breakTest =>
      if state.aliveCount = 0 then
        { state with position := .leaving .validation }
      else
        { state with position := .sleeping }
  | .sleeping => { state with position := .logging, slept := state.iteration }
  | .logging => { state with position := .interruptTest }
  | .interruptTest =>
      if state.object.interrupted then
        { state with position := .terminating }
      else
        { state with position := .leaving .again }
  | .terminating => { state with position := .stopping, isTerminate := true }
  | .stopping => { state with position := .leaving .exit }
  | .leaving next =>
      if state.object.released then
        { state with position := next.position }
      else
        { state with
          position := .restoring next,
          table := state.table.install .sigterm state.object.handlerSigterm }
  | .restoring next =>
      { state with
        position := next.position,
        table :=
          (state.table.install .sigint state.object.handlerSigint).setObject state.iteration
            { state.object with released := true } }
  | .validating | .exited | .killed => state

/-- A signal between two steps. The handler found before the first context ends the process. -/
def deliver (signal : Signal) (state : Supervision) : Supervision :=
  match state.position, state.table.installed signal with
  | .killed, _ => state
  | _, .found _ => { state with position := .killed }
  | _, .own number =>
      { state with
        table := state.table.handle number, caught := state.caught.or (some state.iteration) }

end Supervision

/-- The main thread takes its next step, or a signal is delivered ahead of it. -/
inductive SupervisionLabel where
  | main (alive : Nat)
  | signal (signal : Signal)

/-- The loop from its beginning, with the handlers found there. -/
def supervision : Machine Supervision SupervisionLabel where
  start := {
    position := .loopTest
    table := ⟨.found, fun _ => ⟨false, true, .found .sigterm, .found .sigint⟩⟩
    iteration := 0
    aliveCount := 1
    isTerminate := false
    caught := none
    slept := 0
  }
  step state
    | .main alive => state.main alive
    | .signal signal => state.deliver signal

namespace Supervision

/-- In the context, with the test of handler.interrupted or what it leads to still ahead. -/
def BeforeTest (state : Supervision) : Prop :=
  match state.position with
  | .installingTerm | .installingInt | .counting | .breakTest | .sleeping | .logging
  | .interruptTest | .terminating => True
  | _ => False

/-- The stop request has been made, or a handler found before the loop has ended the process. -/
def Settled (state : Supervision) : Prop :=
  state.isTerminate = true ∨ state.position = .killed

/-- No signal that an object has caught is lost: until the stop request, validate_test is not
started, no later sleep completes, and the flag that the signal has set is still to be read.
-/
structure Served (state : Supervision) : Prop where
  validation : state.caught ≠ none → ¬ state.Settled → state.position ≠ .validating
  sleep : ∀ iteration ∈ state.caught, ¬ state.Settled → state.slept ≤ iteration
  kept
    : ∀ iteration ∈ state.caught, ¬ state.Settled →
        iteration = state.iteration ∧ state.object.interrupted = true ∧ state.BeforeTest

/-- A signal comes while the handler found before the loop is installed, while its object's
flag is still to be read, or behind the stop request; and the loop is not left by its break
with a flag set.
-/
def Noticed (state : Supervision) : SupervisionLabel → Prop
  | .main _ =>
      state.position = .breakTest → state.aliveCount = 0 → state.object.interrupted = false
  | .signal signal =>
      state.Settled ∨ (∀ number, state.table.installed signal ≠ .own number)
      ∨ state.BeforeTest

-----------------------------------------------------------------------------------------
-- The installed handlers at each step
-----------------------------------------------------------------------------------------

/-- What the context has done to the handlers, by the next step of the main thread. -/
def Guarded (state : Supervision) : Prop :=
  match state.position with
  | .loopTest | .entering => state.table.Clean
  | .installingTerm => state.table.Armed state.iteration []
  | .installingInt =>
      state.table.Armed state.iteration [.sigterm] ∨ state.table.Fired state.iteration
  | .counting | .breakTest | .sleeping | .logging | .interruptTest | .terminating =>
      state.table.Armed state.iteration [.sigterm, .sigint] ∨ state.table.Fired state.iteration
  | .leaving .again =>
      state.table.Armed state.iteration [.sigterm, .sigint]
      ∨ state.table.Clean ∧ state.object.released = true
  | .restoring .again =>
      state.table.Saved state.iteration
      ∧ state.table.installed .sigterm = .found .sigterm
      ∧ ∀ number, state.table.installed .sigint = .own number → number = state.iteration
  | _ => True

/-- What holds at every step: the handlers, and where the stop request and a flag come from. -/
structure Sound (state : Supervision) : Prop where
  guarded : state.Guarded
  order : state.slept ≤ state.iteration
  told : state.object.interrupted = true → state.caught ≠ none
  requested
    : state.isTerminate = true
      → state.position = .stopping ∨ state.position = .leaving .exit
        ∨ state.position = .restoring .exit ∨ state.position = .exited
        ∨ state.position = .killed

/-- The main thread keeps the handlers in order, by cases on its position. -/
theorem Sound.guarded_main {state : Supervision} (sound : state.Sound) (alive : Nat)
    : (state.main alive).Guarded := by
  have guarded := sound.guarded
  cases stands : state.position with
  | loopTest =>
      simp only [Guarded, stands] at guarded
      by_cases more : 0 < state.aliveCount
      · simpa [main, stands, more, Guarded] using guarded
      · simp [main, stands, more, Guarded]
  | entering =>
      simp only [Guarded, stands] at guarded
      simpa [main, stands, Guarded] using guarded.enter (state.iteration + 1)
  | installingTerm =>
      simp only [Guarded, stands] at guarded
      simpa [main, stands, Guarded] using .inl (guarded.install .sigterm)
  | installingInt =>
      simp only [Guarded, stands] at guarded
      simpa [main, stands, Guarded] using
        guarded.imp (fun armed => armed.install .sigint) (fun fired => fired.install)
  | counting | sleeping | logging =>
      simp only [Guarded, stands] at guarded
      simpa [main, stands, Guarded] using guarded
  | breakTest =>
      simp only [Guarded, stands] at guarded
      by_cases noneAlive : state.aliveCount = 0
      · simp [main, stands, noneAlive, Guarded]
      · simpa [main, stands, noneAlive, Guarded] using guarded
  | interruptTest =>
      simp only [Guarded, stands] at guarded
      by_cases told : state.object.interrupted = true
      · simpa [main, stands, told, Guarded] using guarded
      · have armed := guarded.resolve_right (fun fired => told fired.fired.1)
        simpa [main, stands, told, Guarded] using .inl armed
  | terminating | stopping => simp [main, stands, Guarded]
  | leaving next =>
      cases next with
      | validation | exit =>
          by_cases released : state.object.released = true
            <;> simp [main, stands, released, Guarded, AfterContext.position]
      | again =>
          simp only [Guarded, stands] at guarded
          by_cases released : state.object.released = true
          · have clean : state.table.Clean := by
              rcases guarded with armed | ⟨clean, _⟩
              · exact absurd released (by simp [object, armed.waiting])
              · exact clean
            simpa [main, stands, released, Guarded, AfterContext.position] using clean
          · have armed := guarded.resolve_right (fun clean => released clean.2)
            have sigterm : state.object.handlerSigterm = .found .sigterm := armed.saved.1
            have sigint := armed.installed .sigint
            simp only [main, stands, released, Guarded]
            refine ⟨armed.saved, by simp [sigterm], ?_⟩
            intro number runs
            simp_all
  | restoring next =>
      cases next with
      | validation | exit => simp [main, stands, Guarded, AfterContext.position]
      | again =>
          simp only [Guarded, stands] at guarded
          obtain ⟨⟨_, sigint⟩, sigterm, _⟩ := guarded
          simp only [main, stands, Guarded, AfterContext.position]
          intro signal
          cases signal <;> simp [object, sigint, sigterm]
  | validating | exited | killed => simp [main, stands, Guarded]

/-- A function of a context runs only while its object is the current one, and leaves the
handlers in order, by cases on the position.
-/
theorem Sound.guarded_handle {state : Supervision} (sound : state.Sound) {signal : Signal}
    {number : Nat} (runs : state.table.installed signal = .own number)
    : ({ state with table := state.table.handle number } : Supervision).Guarded
      ∧ (state.BeforeTest → number = state.iteration) := by
  have guarded := sound.guarded
  have unclean : ¬ state.table.Clean := fun clean => by simp [clean signal] at runs
  have handled : ∀ {signals},
      state.table.Armed state.iteration signals ∨ state.table.Fired state.iteration
      → number = state.iteration ∧ (state.table.handle number).Fired state.iteration := by
    intro signals guarded
    cases guarded with
    | inl armed =>
        obtain rfl := armed.own runs
        exact ⟨rfl, armed.handle.2⟩
    | inr fired =>
        obtain rfl := fired.own runs
        exact ⟨rfl, fired.handle⟩
  cases stands : state.position with
  | loopTest | entering =>
      simp only [Guarded, stands] at guarded
      exact absurd guarded unclean
  | installingTerm =>
      simp only [Guarded, stands] at guarded
      exact absurd (guarded.installed signal) (by simp [runs])
  | installingInt | counting | breakTest | sleeping | logging | interruptTest | terminating =>
      simp only [Guarded, stands] at guarded
      obtain ⟨own, fired⟩ := handled guarded
      exact ⟨by simpa [Guarded, stands] using .inr fired, fun _ => own⟩
  | leaving next =>
      refine ⟨?_, by simp [BeforeTest, stands]⟩
      cases next with
      | validation | exit => simp [Guarded]
      | again =>
          simp only [Guarded, stands] at guarded ⊢
          have armed := guarded.resolve_right (fun clean => unclean clean.1)
          obtain rfl := armed.own runs
          exact .inr ⟨armed.handle.1, armed.handle.2.fired.2⟩
  | restoring next =>
      refine ⟨?_, by simp [BeforeTest, stands]⟩
      cases next with
      | validation | exit => simp [Guarded]
      | again =>
          simp only [Guarded, stands] at guarded ⊢
          obtain ⟨saved, sigterm, sigint⟩ := guarded
          have own : number = state.iteration := by
            cases signal with
            | sigterm => simp [sigterm] at runs
            | sigint => exact sigint number runs
          subst own
          exact ⟨saved.handle, saved.handle_sigterm sigterm, saved.handle_sigint sigint⟩
  | stopping | validating | exited | killed => simp [Guarded, BeforeTest, stands]

/-- The main thread catches no signal, sets no flag and takes no stop request back. -/
theorem main_frame (alive : Nat) (state : Supervision)
    : (state.main alive).caught = state.caught
      ∧ ((state.main alive).object.interrupted = true → state.object.interrupted = true)
      ∧ (state.slept ≤ state.iteration
        → (state.main alive).slept ≤ (state.main alive).iteration)
      ∧ (state.isTerminate = true → (state.main alive).isTerminate = true) := by
  cases stands : state.position with
  | loopTest | breakTest | interruptTest | leaving _ =>
      simp only [main, stands]
      split <;> exact ⟨rfl, fun told => told, fun order => order, fun requested => requested⟩
  | entering =>
      refine ⟨by simp [main, stands], by simp [main, stands, object, SignalTable.enter], ?_,
        by simp [main, stands]⟩
      simpa [main, stands] using Nat.le_succ_of_le
  | installingTerm | installingInt | counting | sleeping | logging | terminating | stopping
  | validating | exited | killed => simp [main, stands, object]
  | restoring next => simp [main, stands, object]

/-- The main thread makes the stop request only at its place. -/
theorem Sound.requested_main {state : Supervision} (sound : state.Sound) (alive : Nat)
    (requested : (state.main alive).isTerminate = true)
    : (state.main alive).position = .stopping ∨ (state.main alive).position = .leaving .exit
      ∨ (state.main alive).position = .restoring .exit ∨ (state.main alive).position = .exited
      ∨ (state.main alive).position = .killed := by
  by_cases before : state.isTerminate = true
  · rcases sound.requested before with stands | stands | stands | stands | stands
    · simp [main, stands]
    · by_cases released : state.object.released = true
        <;> simp [main, stands, released, AfterContext.position]
    · simp [main, stands, AfterContext.position]
    · simp [main, stands]
    · simp [main, stands]
  · left
    unfold main at requested ⊢
    split at requested <;> (try split at requested) <;> simp_all

theorem Sound.main {state : Supervision} (sound : state.Sound) (alive : Nat)
    : (state.main alive).Sound := by
  obtain ⟨caught, told, order, _⟩ := state.main_frame alive
  refine ⟨sound.guarded_main alive, order sound.order, ?_, sound.requested_main alive⟩
  intro flag
  rw [caught]
  exact sound.told (told flag)

/-- A signal does nothing to a process that has ended, ends it, or runs a function. -/
theorem deliver_cases (signal : Signal) (state : Supervision)
    : state.position = .killed ∧ state.deliver signal = state
      ∨ state.position ≠ .killed
        ∧ ((∀ number, state.table.installed signal ≠ .own number)
            ∧ state.deliver signal = { state with position := .killed }
          ∨ ∃ number,
              state.table.installed signal = .own number
              ∧ state.deliver signal
                = { state with
                    table := state.table.handle number,
                    caught := state.caught.or (some state.iteration) }) := by
  cases stands : state.position
  case killed => simp [deliver, stands]
  all_goals
    refine .inr ⟨by simp, ?_⟩
    cases runs : state.table.installed signal with
    | found other => simp [deliver, stands, runs]
    | own number => simp [deliver, stands, runs]

theorem Sound.deliver {state : Supervision} (sound : state.Sound) (signal : Signal)
    : (state.deliver signal).Sound := by
  rcases state.deliver_cases signal with ⟨_, same⟩ | ⟨_, ⟨_, killed⟩ | ⟨number, runs, handled⟩⟩
  · rwa [same]
  · rw [killed]
    exact ⟨trivial, sound.order, sound.told, fun _ => by simp⟩
  · rw [handled]
    refine ⟨(sound.guarded_handle runs).1, sound.order, ?_, sound.requested⟩
    intro _
    cases caught : state.caught <;> simp

-----------------------------------------------------------------------------------------
-- What keeps the signals
-----------------------------------------------------------------------------------------

/-- The last part of the property gives the others. -/
theorem Sound.served_iff {state : Supervision} (sound : state.Sound)
    : state.Served
      ↔ ∀ iteration ∈ state.caught, ¬ state.Settled →
          iteration = state.iteration ∧ state.object.interrupted = true ∧ state.BeforeTest := by
  refine ⟨Served.kept, ?_⟩
  intro kept
  refine ⟨?_, ?_, kept⟩
  · intro caught waits stands
    obtain ⟨iteration, caught⟩ := Option.ne_none_iff_exists'.mp caught
    have ahead := (kept iteration caught waits).2.2
    simp [BeforeTest, stands] at ahead
  · intro iteration caught waits
    rw [(kept iteration caught waits).1]
    exact sound.order

theorem Settled.main {state : Supervision} (settled : state.Settled) (alive : Nat)
    : (state.main alive).Settled := by
  rcases settled with requested | stands
  · exact .inl ((state.main_frame alive).2.2.2 requested)
  · exact .inr (by simp [Supervision.main, stands])

/-- With its flag set ahead of the test, the main thread comes to the stop request or, by the
break, to validate_test; by cases on its position.
-/
theorem BeforeTest.main_iff {state : Supervision} (ahead : state.BeforeTest)
    (told : state.object.interrupted = true) (unrequested : state.isTerminate = false)
    (alive : Nat)
    : (¬ (state.main alive).Settled →
          state.iteration = (state.main alive).iteration
          ∧ (state.main alive).object.interrupted = true
          ∧ (state.main alive).BeforeTest)
      ↔ ¬ (state.position = .breakTest ∧ state.aliveCount = 0) := by
  cases stands : state.position with
  | breakTest =>
      by_cases noneAlive : state.aliveCount = 0
      · simp [main, stands, noneAlive, Settled, BeforeTest, unrequested]
      · simpa [main, stands, noneAlive, BeforeTest, object] using fun _ => told
  | interruptTest =>
      simp only [main, stands, told, if_true]
      exact iff_of_true (fun _ => ⟨trivial, told, trivial⟩) (by simp)
  | terminating => simp [main, stands, Settled]
  | installingTerm | installingInt | counting | sleeping | logging =>
      simpa [main, stands, BeforeTest, object] using fun _ => told
  | loopTest | entering | stopping | leaving _ | restoring _ | validating | exited | killed =>
      simp [BeforeTest, stands] at ahead

/-- The main thread loses a signal only by the break. -/
theorem Sound.served_main_iff {state : Supervision} (sound : state.Sound) (served : state.Served)
    (alive : Nat)
    : (state.main alive).Served ↔ state.Noticed (.main alive) := by
  rw [(sound.main alive).served_iff, (state.main_frame alive).1]
  cases caught : state.caught with
  | none =>
      have untold : state.object.interrupted = false :=
        Bool.eq_false_iff.mpr (fun told => sound.told told caught)
      exact iff_of_true (by simp) (fun _ _ => untold)
  | some iteration =>
      by_cases settled : state.Settled
      · refine iff_of_true (fun _ _ waits => absurd (settled.main alive) waits) ?_
        intro stands _
        rcases settled with requested | killed
        · simpa [stands] using sound.requested requested
        · simp [stands] at killed
      · obtain ⟨rfl, told, ahead⟩ := served.kept iteration caught settled
        have unrequested : state.isTerminate = false :=
          Bool.eq_false_iff.mpr (fun requested => settled (.inl requested))
        simpa [Noticed, told] using ahead.main_iff told unrequested alive

/-- A signal is lost exactly if a function of a context runs behind the test of its flag. -/
theorem Sound.served_deliver_iff {state : Supervision} (sound : state.Sound)
    (served : state.Served) (signal : Signal)
    : (state.deliver signal).Served ↔ state.Noticed (.signal signal) := by
  rcases state.deliver_cases signal with
    ⟨killed, same⟩ | ⟨living, ⟨found, killed⟩ | ⟨number, runs, handled⟩⟩
  · rw [same]
    exact iff_of_true served (.inl (.inr killed))
  · rw [(sound.deliver signal).served_iff, killed]
    exact iff_of_true (fun _ _ waits => absurd (.inr rfl) waits) (.inr (.inl found))
  · have foreign : ¬ ∀ number, state.table.installed signal ≠ .own number :=
      fun found => found number runs
    rw [(sound.deliver signal).served_iff, handled]
    simp only [Noticed, foreign, false_or]
    by_cases requested : state.isTerminate = true
    · exact iff_of_true (fun _ _ waits => absurd (.inl requested) waits) (.inl (.inl requested))
    · have waits : ¬ state.Settled := by simp [Settled, requested, living]
      constructor
      · intro kept
        cases caught : state.caught with
        | none =>
            exact .inr (kept state.iteration (by simp [caught]) waits).2.2
        | some iteration =>
            exact .inr (kept iteration (by simp [caught]) waits).2.2
      · intro noticed iteration caught _
        have ahead := noticed.resolve_left waits
        have own := (sound.guarded_handle runs).2 ahead
        refine ⟨?_, own ▸ state.table.handle_interrupted number, ahead⟩
        cases before : state.caught with
        | none => simpa [before] using caught.symm
        | some first =>
            have same : first = iteration := by simpa [before] using caught
            exact same ▸ (served.kept first before waits).1

end Supervision

/-- In every run no signal is lost exactly if each comes at its place: the handlers found
before the loop are installed between the contexts, and within a context its object's flag is
read once, at the test.
-/
theorem served_iff_noticed (labels : List SupervisionLabel)
    : supervision.Always Supervision.Served supervision.start labels
      ↔ supervision.Each Supervision.Noticed supervision.start labels := by
  refine Machine.always_iff_each Supervision.Sound ?_ ?_ ?_ ?_ labels
  · intro state label sound
    cases label with
    | main alive => exact sound.main alive
    | signal signal => exact sound.deliver signal
  · intro state label sound served
    cases label with
    | main alive => exact sound.served_main_iff served alive
    | signal signal => exact sound.served_deliver_iff served signal
  · exact ⟨fun _ => rfl, Nat.le_refl _, by simp [supervision, Supervision.object],
      by simp [supervision]⟩
  · exact ⟨by simp [supervision], by simp [supervision], by simp [supervision]⟩

/-- A SIGTERM behind the test of the first iteration: the threads end during the second, and
the main thread starts validate_test without a stop request.
-/
theorem served_swallowed
    : let last := supervision.run
        (List.replicate 9 (.main 1) ++ .signal .sigterm :: List.replicate 9 (.main 0))
      last.caught = some 1
      ∧ last.position = .validating
      ∧ last.isTerminate = false
      ∧ ¬ last.Served := by
  intro last
  have caught : last.caught = some 1 := by decide
  have position : last.position = .validating := by decide
  have unrequested : last.isTerminate = false := by decide
  refine ⟨caught, position, unrequested, ?_⟩
  intro served
  exact served.validation (by simp [caught])
    (by simp [Supervision.Settled, unrequested, position]) position

end PgCluster.Backend
