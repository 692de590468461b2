import Mathlib.Data.List.Nodup

/-! A directory of named files, and loops that each write one of them.
The latest entry of a name is its content.
-/

namespace Foundation

structure Directory (Name Content : Type*) where
  entries : List (Name × Content)
deriving DecidableEq, Repr

namespace Directory

variable {Name Content : Type*} [DecidableEq Name]

def empty : Directory Name Content := ⟨[]⟩

def file (dir : Directory Name Content) (name : Name) : Option Content :=
  dir.entries.lookup name

def put (dir : Directory Name Content) (name : Name) (content : Content)
    : Directory Name Content :=
  ⟨(name, content) :: dir.entries⟩

def remove (dir : Directory Name Content) (name : Name) : Directory Name Content :=
  ⟨dir.entries.filter (fun entry => entry.1 ≠ name)⟩

@[simp] theorem file_put (dir : Directory Name Content) (name other : Name)
    (content : Content)
    : (dir.put name content).file other
      = if other = name then some content else dir.file other := by
  by_cases same : other = name
  · simp [file, put, same]
  · have differs : (other == name) = false := by simpa using same
    simp [file, put, List.lookup_cons, same, differs]

@[simp] theorem file_remove (dir : Directory Name Content) (name other : Name)
    : (dir.remove name).file other = if other = name then none else dir.file other := by
  obtain ⟨entries⟩ := dir
  induction entries with
  | nil => simp [file, remove]
  | cons entry rest ih =>
      obtain ⟨label, content⟩ := entry
      simp only [file, remove, List.filter_cons, List.lookup_cons] at ih ⊢
      grind

/-- The content of a file is among the entries. -/
theorem mem_entries {dir : Directory Name Content} {name : Name} {content : Content}
    (found : dir.file name = some content)
    : (name, content) ∈ dir.entries := by
  obtain ⟨front, back, split, _⟩ := List.lookup_eq_some_iff.mp found
  simp [split]

/-- Runs the body for each item in order; the first failure ends the loop. -/
def forEach {Item : Type*}
    (body : Directory Name Content → Item → Option (Directory Name Content))
    (items : List Item) (dir : Directory Name Content)
    : Option (Directory Name Content) :=
  items.foldlM body dir

/-- When every item writes only its own target, a completed loop leaves all other files
alone, and the target of an item is as its iteration left it, which found that target and
all other files untouched. By induction on the items.
-/
theorem forEach_targets {Item : Type*}
    {body : Directory Name Content → Item → Option (Directory Name Content)}
    {target : Item → Name}
    (confined
      : ∀ dir item next,
          body dir item = some next
          → ∀ name, name ≠ target item → next.file name = dir.file name)
    {items : List Item} (distinct : (items.map target).Nodup)
    {start final : Directory Name Content}
    (completed : forEach body items start = some final)
    : (∀ name, name ∉ items.map target → final.file name = start.file name)
      ∧ ∀ item ∈ items,
          ∃ before after,
            body before item = some after
            ∧ final.file (target item) = after.file (target item)
            ∧ before.file (target item) = start.file (target item)
            ∧ ∀ name, name ∉ items.map target → before.file name = start.file name := by
  induction items generalizing start with
  | nil =>
      obtain rfl : start = final := by simpa [forEach] using completed
      exact ⟨fun _ _ => rfl, by simp⟩
  | cons head rest ih =>
      obtain ⟨next, first, later⟩ := Option.bind_eq_some_iff.mp completed
      obtain ⟨fresh, distinctRest⟩ := List.nodup_cons.mp distinct
      obtain ⟨others, each⟩ := ih distinctRest later
      have untouched : ∀ name, name ∉ (head :: rest).map target
          → next.file name = start.file name := by
        intro name outside
        exact confined start head next first name
          (fun same => outside (by simp [same]))
      refine ⟨?_, ?_⟩
      · intro name outside
        rw [others name (fun member => outside (List.mem_cons_of_mem _ member))]
        exact untouched name outside
      · intro item member
        rcases List.mem_cons.mp member with rfl | inRest
        · exact ⟨start, next, first, others _ fresh, rfl, fun _ _ => rfl⟩
        · obtain ⟨before, after, run, result, own, frame⟩ := each item inRest
          have apart : target item ≠ target head :=
            fun same => fresh (same ▸ List.mem_map_of_mem inRest)
          refine ⟨before, after, run, result, ?_, ?_⟩
          · rw [own]
            exact confined start head next first _ apart
          · intro name outside
            rw [frame name (fun inNames => outside (List.mem_cons_of_mem _ inNames))]
            exact untouched name outside

end Directory

end Foundation
