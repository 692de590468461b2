import Mathlib.Logic.Function.Basic

/-! SignalHandler: the handlers of SIGTERM and SIGINT, which a context replaces by its own
function and restores at its end or at the first signal.
-/

namespace PgCluster.Backend

inductive Signal where
  | sigterm
  | sigint
deriving DecidableEq, Repr

/-- What a signal runs: the handler found for it before the first context, or the function
that __enter__ has made for the context object of a number.
-/
inductive Disposition where
  | found (signal : Signal)
  | own (number : Nat)
deriving DecidableEq, Repr

/-- A context object behind its __enter__. -/
structure SignalHandler where
  interrupted : Bool
  released : Bool
  handlerSigterm : Disposition
  handlerSigint : Disposition
deriving DecidableEq, Repr

/-- The installed handlers and the context objects of the process. -/
structure SignalTable where
  installed : Signal → Disposition
  objects : Nat → SignalHandler

namespace SignalTable

/-- signal.signal -/
def install (signal : Signal) (handler : Disposition) (table : SignalTable) : SignalTable :=
  { table with installed := Function.update table.installed signal handler }

def setObject (number : Nat) (object : SignalHandler) (table : SignalTable) : SignalTable :=
  { table with objects := Function.update table.objects number object }

/-- The assignments of __enter__ ahead of its two calls of signal.signal. -/
def enter (number : Nat) (table : SignalTable) : SignalTable :=
  table.setObject number
    ⟨false, false, table.installed .sigterm, table.installed .sigint⟩

/-- release, as a whole. -/
def release (number : Nat) (table : SignalTable) : SignalTable :=
  let object := table.objects number
  if object.released then
    table
  else
    (table.install .sigterm object.handlerSigterm
      |>.install .sigint object.handlerSigint
      |>.setObject number { object with released := true })

/-- The function that __enter__ makes for its object. -/
def handle (number : Nat) (table : SignalTable) : SignalTable :=
  let table := table.release number
  table.setObject number { table.objects number with interrupted := true }

/-- No context has replaced a handler. -/
def Clean (table : SignalTable) : Prop := ∀ signal, table.installed signal = .found signal

/-- The object has saved the handlers found before the first context. -/
def Saved (table : SignalTable) (number : Nat) : Prop :=
  (table.objects number).handlerSigterm = .found .sigterm
  ∧ (table.objects number).handlerSigint = .found .sigint

/-- The object waits for a signal, with its function installed for some. -/
structure Armed (table : SignalTable) (number : Nat) (signals : List Signal) : Prop where
  saved : table.Saved number
  waiting
    : (table.objects number).interrupted = false ∧ (table.objects number).released = false
  installed
    : ∀ signal,
        table.installed signal = if signal ∈ signals then .own number else .found signal

/-- A signal has come, and its function may have been installed for SIGINT behind that. -/
structure Fired (table : SignalTable) (number : Nat) : Prop where
  saved : table.Saved number
  fired : (table.objects number).interrupted = true ∧ (table.objects number).released = true
  sigterm : table.installed .sigterm = .found .sigterm
  sigint : table.installed .sigint = .found .sigint ∨ table.installed .sigint = .own number

@[simp] theorem install_installed (table : SignalTable) (signal other : Signal)
    (handler : Disposition)
    : (table.install signal handler).installed other
      = if other = signal then handler else table.installed other := by
  simp [install, Function.update_apply]

@[simp] theorem install_objects (table : SignalTable) (signal : Signal) (handler : Disposition)
    : (table.install signal handler).objects = table.objects := rfl

@[simp] theorem setObject_installed (table : SignalTable) (number : Nat)
    (object : SignalHandler)
    : (table.setObject number object).installed = table.installed := rfl

@[simp] theorem setObject_objects (table : SignalTable) (number other : Nat)
    (object : SignalHandler)
    : (table.setObject number object).objects other
      = if other = number then object else table.objects other := by
  simp [setObject, Function.update_apply]

/-- Whatever happens to the table, the object has been told of the signal. -/
@[simp] theorem handle_interrupted (table : SignalTable) (number : Nat)
    : ((table.handle number).objects number).interrupted = true := by
  simp [handle]

/-- The first signal restores what was found. -/
theorem Armed.handle {table : SignalTable} {number : Nat} {signals : List Signal}
    (armed : table.Armed number signals)
    : (table.handle number).Clean ∧ (table.handle number).Fired number := by
  have waiting := armed.waiting
  obtain ⟨sigterm, sigint⟩ := armed.saved
  have clean : (table.handle number).Clean := by
    intro signal
    cases signal <;> simp [SignalTable.handle, release, waiting, sigterm, sigint]
  refine ⟨clean, ⟨?_, ?_, clean .sigterm, .inl (clean .sigint)⟩⟩
  · simp [Saved, SignalTable.handle, release, waiting, sigterm, sigint]
  · simp [SignalTable.handle, release, waiting]

theorem Fired.handle {table : SignalTable} {number : Nat} (fired : table.Fired number)
    : (table.handle number).Fired number := by
  have released := fired.fired.2
  refine ⟨?_, ?_, ?_, ?_⟩
  · simpa [Saved, SignalTable.handle, release, released] using fired.saved
  · simp [SignalTable.handle, release, released]
  · simpa [SignalTable.handle, release, released] using fired.sigterm
  · simpa [SignalTable.handle, release, released] using fired.sigint

/-- The only function of a context that is installed is the object's own. -/
theorem Armed.own {table : SignalTable} {number : Nat} {signals : List Signal}
    (armed : table.Armed number signals) {signal : Signal} {other : Nat}
    (runs : table.installed signal = .own other)
    : other = number := by
  have installed := armed.installed signal
  rw [runs] at installed
  split at installed <;> simp_all

theorem Fired.own {table : SignalTable} {number : Nat} (fired : table.Fired number)
    {signal : Signal} {other : Nat} (runs : table.installed signal = .own other)
    : other = number := by
  cases signal with
  | sigterm => simp [fired.sigterm] at runs
  | sigint => rcases fired.sigint with found | own <;> simp_all

theorem Saved.handle {table : SignalTable} {number : Nat} (saved : table.Saved number)
    : (table.handle number).Saved number := by
  by_cases released : (table.objects number).released
    <;> simpa [Saved, SignalTable.handle, release, released] using saved

theorem Saved.handle_sigterm {table : SignalTable} {number : Nat} (saved : table.Saved number)
    (found : table.installed .sigterm = .found .sigterm)
    : (table.handle number).installed .sigterm = .found .sigterm := by
  by_cases released : (table.objects number).released
    <;> simp [SignalTable.handle, release, released, found, saved.1]

theorem Saved.handle_sigint {table : SignalTable} {number : Nat} (saved : table.Saved number)
    (own : ∀ other, table.installed .sigint = .own other → other = number)
    : ∀ other, (table.handle number).installed .sigint = .own other → other = number := by
  by_cases released : (table.objects number).released
  · simpa [SignalTable.handle, release, released] using own
  · simp [SignalTable.handle, release, released, saved.2]

/-- The next of the two calls of __enter__, when no signal has come. -/
theorem Armed.install {table : SignalTable} {number : Nat} {signals : List Signal}
    (armed : table.Armed number signals) (signal : Signal)
    : (table.install signal (.own number)).Armed number (signals ++ [signal]) := by
  refine ⟨armed.saved, armed.waiting, ?_⟩
  intro other
  by_cases same : other = signal <;> simp [same, armed.installed other]

/-- The second call, when a signal has come behind the first. -/
theorem Fired.install {table : SignalTable} {number : Nat} (fired : table.Fired number)
    : (table.install .sigint (.own number)).Fired number :=
  ⟨fired.saved, fired.fired, by simp [fired.sigterm], .inr (by simp)⟩

/-- Entering a context ahead of its two calls leaves its object waiting. -/
theorem Clean.enter {table : SignalTable} (clean : table.Clean) (number : Nat)
    : (table.enter number).Armed number [] := by
  refine ⟨?_, ?_, ?_⟩
  · simp [Saved, SignalTable.enter, clean .sigterm, clean .sigint]
  · simp [SignalTable.enter]
  · intro signal
    simp [SignalTable.enter, clean signal]

end SignalTable

end PgCluster.Backend
