import Mathlib.Data.List.Basic

/-! Deterministic machines driven by lists of labels: what a run preserves, and when a
property holds all along a run.
-/

namespace Foundation

/-- A machine whose next state is decided by a label, the choice of its environment. -/
structure Machine (State Label : Type*) where
  start : State
  step : State → Label → State

namespace Machine

variable {State Label : Type*} (machine : Machine State Label)

/-- The state behind the given labels. -/
def after (state : State) (labels : List Label) : State := labels.foldl machine.step state

def run (labels : List Label) : State := machine.after machine.start labels

/-- The states along an unending sequence of labels. -/
def path (labels : Nat → Label) : Nat → State
  | 0 => machine.start
  | count + 1 => machine.step (path labels count) (labels count)

/-- The property holds in every state that the labels lead through, both ends included. -/
def Always (property : State → Prop) (state : State) : List Label → Prop
  | [] => property state
  | label :: rest => property state ∧ Always property (machine.step state label) rest

/-- Every label meets the condition in the state before its step. -/
def Each (condition : State → Label → Prop) (state : State) : List Label → Prop
  | [] => True
  | label :: rest => condition state label ∧ Each condition (machine.step state label) rest

/-- The number of labels at which an event happens, seen in the state before its step. -/
def tally (event : State → Label → Prop) [∀ state label, Decidable (event state label)]
    (state : State)
    : List Label → Nat
  | [] => 0
  | label :: rest =>
      (if event state label then 1 else 0) + tally event (machine.step state label) rest

variable {machine}

instance decidableEach (condition : State → Label → Prop)
    [∀ state label, Decidable (condition state label)]
    : ∀ state labels, Decidable (machine.Each condition state labels)
  | _, [] => isTrue trivial
  | state, label :: rest =>
      have := decidableEach condition (machine.step state label) rest
      inferInstanceAs (Decidable (condition state label ∧ _))

@[simp] theorem after_nil (state : State) : machine.after state [] = state := rfl

@[simp] theorem after_cons (state : State) (label : Label) (rest : List Label)
    : machine.after state (label :: rest) = machine.after (machine.step state label) rest :=
  rfl

theorem after_append (state : State) (first second : List Label)
    : machine.after state (first ++ second)
      = machine.after (machine.after state first) second :=
  List.foldl_append

/-- A condition of the labels alone is met along every run of such labels. -/
theorem each_of_labels {condition : Label → Prop} {labels : List Label}
    (met : ∀ label ∈ labels, condition label) (state : State)
    : machine.Each (fun _ => condition) state labels := by
  induction labels generalizing state with
  | nil => trivial
  | cons label rest ih =>
      exact ⟨met label List.mem_cons_self,
        ih (fun other member => met other (List.mem_cons_of_mem _ member)) _⟩

theorem each_of_forall {condition : State → Label → Prop}
    (met : ∀ state label, condition state label) (labels : List Label) (state : State)
    : machine.Each condition state labels := by
  induction labels generalizing state with
  | nil => trivial
  | cons label rest ih => exact ⟨met state label, ih _⟩

/-- Two conditions are met along a run together, by induction on the labels. -/
theorem Each.and {first second : State → Label → Prop} {state : State}
    {labels : List Label} (one : machine.Each first state labels)
    (other : machine.Each second state labels)
    : machine.Each (fun state label => first state label ∧ second state label) state labels := by
  induction labels generalizing state with
  | nil => trivial
  | cons label rest ih => exact ⟨⟨one.1, other.1⟩, ih one.2 other.2⟩

/-- What every step allowed by a condition preserves holds behind every such run, by
induction on the labels.
-/
theorem after_invariant (property : State → Prop) {condition : State → Label → Prop}
    (preserved
      : ∀ state label,
          property state → condition state label → property (machine.step state label))
    {state : State} {labels : List Label} (holds : property state)
    (met : machine.Each condition state labels)
    : property (machine.after state labels) := by
  induction labels generalizing state with
  | nil => exact holds
  | cons label rest ih => exact ih (preserved state label holds met.1) met.2

/-- What every step preserves holds behind every run. -/
theorem after_forall (property : State → Prop)
    (preserved : ∀ state label, property state → property (machine.step state label))
    {state : State} (holds : property state) (labels : List Label)
    : property (machine.after state labels) :=
  after_invariant property (fun state label before _ => preserved state label before) holds
    (each_of_forall (fun _ _ => trivial) labels state)

/-- What follows from an invariant holds all along the runs that keep it, by induction on
the labels.
-/
theorem Each.always (invariant : State → Prop) {property : State → Prop}
    {condition : State → Label → Prop}
    (preserved
      : ∀ state label,
          invariant state → condition state label → invariant (machine.step state label))
    (gives : ∀ state, invariant state → property state)
    {state : State} {labels : List Label} (holds : invariant state)
    (met : machine.Each condition state labels)
    : machine.Always property state labels := by
  induction labels generalizing state with
  | nil => exact gives state holds
  | cons label rest ih =>
      exact ⟨gives state holds, ih (preserved state label holds met.1) met.2⟩

/-- A condition gives another one all along the runs that keep an invariant, by induction on
the labels.
-/
theorem Each.imp (invariant : State → Prop) {condition other : State → Label → Prop}
    (preserved
      : ∀ state label,
          invariant state → condition state label → invariant (machine.step state label))
    (gives : ∀ state label, invariant state → condition state label → other state label)
    {state : State} {labels : List Label} (holds : invariant state)
    (met : machine.Each condition state labels)
    : machine.Each other state labels := by
  induction labels generalizing state with
  | nil => trivial
  | cons label rest ih =>
      exact ⟨gives state label holds met.1, ih (preserved state label holds met.1) met.2⟩

/-- A property that a step keeps only under a condition shows it all along a run, by
induction on the labels.
-/
theorem Always.each (invariant : State → Prop) {property : State → Prop}
    {condition : State → Label → Prop}
    (kept : ∀ state label, invariant state → invariant (machine.step state label))
    (shows
      : ∀ state label,
          invariant state → property (machine.step state label) → condition state label)
    {state : State} {labels : List Label} (known : invariant state)
    (always : machine.Always property state labels)
    : machine.Each condition state labels := by
  induction labels generalizing state with
  | nil => trivial
  | cons label rest ih =>
      have following : property (machine.step state label) := by
        cases rest with
        | nil => exact always.2
        | cons _ _ => exact always.2.1
      exact ⟨shows state label known following, ih (kept state label known) always.2⟩

/-- A quantity that grows by one at each event counts the events, by induction on the
labels.
-/
theorem count_after {event : State → Label → Prop}
    [∀ state label, Decidable (event state label)] (quantity : State → Nat)
    {condition : State → Label → Prop}
    (grows
      : ∀ state label,
          condition state label
          → quantity (machine.step state label)
            = quantity state + if event state label then 1 else 0)
    {state : State} {labels : List Label} (met : machine.Each condition state labels)
    : quantity (machine.after state labels)
      = quantity state + machine.tally event state labels := by
  induction labels generalizing state with
  | nil => rfl
  | cons label rest ih =>
      rw [after_cons, ih met.2, grows state label met.1, tally, Nat.add_assoc]

/-- A history that grows at each step by what its label enters has all the entries in
order, by induction on the labels.
-/
theorem history_after {Entry : Type*} (invariant : State → Prop)
    (history : State → List Entry) (entries : Label → List Entry)
    (kept : ∀ state label, invariant state → invariant (machine.step state label))
    (grows
      : ∀ state label,
          invariant state
          → history (machine.step state label) = history state ++ entries label)
    {state : State} (known : invariant state) (labels : List Label)
    : history (machine.after state labels) = history state ++ labels.flatMap entries := by
  induction labels generalizing state with
  | nil => simp
  | cons label rest ih =>
      rw [after_cons, ih (kept state label known), grows state label known,
        List.flatMap_cons, List.append_assoc]

/-- A path on which a rank falls until an end is reached gets there, by induction on the
rank.
-/
theorem exists_path_end {labels : Nat → Label} (ended : State → Prop) (rank : State → Nat)
    (falls
      : ∀ count,
          ¬ ended (machine.path labels count)
          → rank (machine.path labels (count + 1)) < rank (machine.path labels count))
    : ∃ count, ended (machine.path labels count) := by
  have from_ : ∀ bound count, rank (machine.path labels count) ≤ bound
      → ∃ later, ended (machine.path labels later) := by
    intro bound
    induction bound with
    | zero =>
        intro count small
        by_contra never
        have less := falls count (fun here => never ⟨count, here⟩)
        omega
    | succ bound ih =>
        intro count small
        by_cases here : ended (machine.path labels count)
        · exact ⟨count, here⟩
        · have less := falls count here
          exact ih (count + 1) (by omega)
  exact from_ _ 0 (Nat.le_refl _)

/-- A property holds at the end of the runs along which it holds. -/
theorem Always.last {property : State → Prop} {state : State} {labels : List Label}
    (always : machine.Always property state labels)
    : property (machine.after state labels) := by
  induction labels generalizing state with
  | nil => exact always
  | cons label rest ih => exact ih always.2

/-- A property holds all along a run if and only if every label meets a condition, when one
step keeps the property exactly under the condition. The invariant is what every step keeps
anyway. By induction on the labels.
-/
theorem always_iff_each (invariant : State → Prop) {property : State → Prop}
    {condition : State → Label → Prop}
    (kept : ∀ state label, invariant state → invariant (machine.step state label))
    (exact
      : ∀ state label,
          invariant state → property state
          → (property (machine.step state label) ↔ condition state label))
    {state : State} (known : invariant state) (holds : property state) (labels : List Label)
    : machine.Always property state labels ↔ machine.Each condition state labels := by
  induction labels generalizing state with
  | nil => simp [Always, Each, holds]
  | cons label rest ih =>
      have step := exact state label known holds
      have next := kept state label known
      constructor
      · intro always
        have following : property (machine.step state label) := by
          cases rest with
          | nil => exact always.2
          | cons _ _ => exact always.2.1
        exact ⟨step.mp following, (ih next following).mp always.2⟩
      · intro each
        have following := step.mpr each.1
        exact ⟨holds, (ih next following).mpr each.2⟩

end Machine

end Foundation
