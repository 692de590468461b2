import Mathlib.Data.List.Forall2

/-! Objects that answer calls: two of them agree when a relation of their states survives
every call.
-/

namespace Foundation

structure Object (State Call Reply : Type*) where
  start : State
  answer : State → Call → State × Reply

namespace Object

section Runs

variable {State Call Reply : Type*} (object : Object State Call Reply)

def after (state : State) : List Call → State
  | [] => state
  | call :: rest => after (object.answer state call).1 rest

def replies (state : State) : List Call → List Reply
  | [] => []
  | call :: rest =>
      (object.answer state call).2 :: replies (object.answer state call).1 rest

/-- Every call meets the condition in the state that receives it. -/
def Each (condition : State → Call → Prop) (state : State) : List Call → Prop
  | [] => True
  | call :: rest => condition state call ∧ Each condition (object.answer state call).1 rest

variable {object}

@[simp] theorem after_nil (state : State) : object.after state [] = state := rfl

@[simp] theorem after_cons (state : State) (call : Call) (rest : List Call)
    : object.after state (call :: rest) = object.after (object.answer state call).1 rest :=
  rfl

@[simp] theorem replies_nil (state : State) : object.replies state [] = [] := rfl

@[simp] theorem replies_cons (state : State) (call : Call) (rest : List Call)
    : object.replies state (call :: rest)
      = (object.answer state call).2 :: object.replies (object.answer state call).1 rest :=
  rfl

theorem replies_append (state : State) (first second : List Call)
    : object.replies state (first ++ second)
      = object.replies state first ++ object.replies (object.after state first) second := by
  induction first generalizing state with
  | nil => rfl
  | cons call rest ih => rw [List.cons_append, replies_cons, ih, after_cons, replies_cons,
      List.cons_append]

/-- What every call keeps under the condition holds behind every run that meets it, by
induction on the calls.
-/
theorem after_invariant {property : State → Prop} {condition : State → Call → Prop}
    (kept
      : ∀ state call,
          property state → condition state call → property (object.answer state call).1)
    {state : State} {calls : List Call} (holds : property state)
    (met : object.Each condition state calls)
    : property (object.after state calls) := by
  induction calls generalizing state with
  | nil => exact holds
  | cons call rest ih => exact ih (kept state call holds met.1) met.2

end Runs

section Simulation

variable {State Model Call Reply Answer : Type*}
  {object : Object State Call Reply} {model : Object Model Call Answer}

/-- An object whose every answer follows the model's, in related states, answers every run
as the model does. The condition is on the model. By induction on the calls.
-/
theorem replies_simulation (related : State → Model → Prop)
    (agree : Reply → Answer → Prop) {condition : Model → Call → Prop}
    (follows
      : ∀ state abstract call,
          related state abstract → condition abstract call
          → related (object.answer state call).1 (model.answer abstract call).1
            ∧ agree (object.answer state call).2 (model.answer abstract call).2)
    {state : State} {abstract : Model} (start : related state abstract) {calls : List Call}
    (met : model.Each condition abstract calls)
    : related (object.after state calls) (model.after abstract calls)
      ∧ List.Forall₂ agree (object.replies state calls) (model.replies abstract calls) := by
  induction calls generalizing state abstract with
  | nil => exact ⟨start, List.Forall₂.nil⟩
  | cons call rest ih =>
      obtain ⟨next, answer⟩ := follows state abstract call start met.1
      obtain ⟨last, answers⟩ := ih next met.2
      exact ⟨last, List.Forall₂.cons answer answers⟩

/-- An object whose every answer is a translation of the model's, in related states, answers
every run so. By induction on the calls.
-/
theorem replies_translated (related : State → Model → Prop)
    (translate : Call → Answer → Reply) {condition : Model → Call → Prop}
    (follows
      : ∀ state abstract call,
          related state abstract → condition abstract call
          → related (object.answer state call).1 (model.answer abstract call).1
            ∧ (object.answer state call).2 = translate call (model.answer abstract call).2)
    {state : State} {abstract : Model} (start : related state abstract) {calls : List Call}
    (met : model.Each condition abstract calls)
    : object.replies state calls
      = List.zipWith translate calls (model.replies abstract calls) := by
  induction calls generalizing state abstract with
  | nil => rfl
  | cons call rest ih =>
      obtain ⟨next, answer⟩ := follows state abstract call start met.1
      rw [replies_cons, replies_cons, List.zipWith_cons_cons, answer, ih next met.2]

theorem replies_eq {object : Object State Call Reply} {model : Object Model Call Reply}
    (related : State → Model → Prop)
    (follows
      : ∀ state abstract call,
          related state abstract
          → related (object.answer state call).1 (model.answer abstract call).1
            ∧ (object.answer state call).2 = (model.answer abstract call).2)
    {state : State} {abstract : Model} (start : related state abstract) (calls : List Call)
    : object.replies state calls = model.replies abstract calls := by
  induction calls generalizing state abstract with
  | nil => rfl
  | cons call rest ih =>
      obtain ⟨next, answer⟩ := follows state abstract call start
      rw [replies_cons, replies_cons, answer, ih next]

end Simulation

end Object

end Foundation
