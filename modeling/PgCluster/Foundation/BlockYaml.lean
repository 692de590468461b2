import Mathlib.Data.List.Basic

/-! Block mappings and sequences nested by indentation: a reader that keeps the open levels,
and what it reads of runs of lines and of sections.
-/

namespace Foundation

/-- A line without its indentation; a key without a value has the empty one. -/
inductive YamlContent where
  | pair (key value : String)
  | item (text : String)
deriving DecidableEq, Repr

structure YamlLine where
  indent : Nat
  content : YamlContent
deriving DecidableEq, Repr

/-- A line with the keys that it stands below, the outermost first. -/
structure YamlEntry where
  parent : List String
  content : YamlContent
deriving DecidableEq, Repr

/-- An open mapping or sequence with its latest line. -/
structure YamlLevel where
  indent : Nat
  latest : YamlContent
deriving DecidableEq, Repr

namespace YamlContent

def key : YamlContent → String
  | pair key _ => key
  | item _ => "-"

def isItem : YamlContent → Bool
  | pair _ _ => false
  | item _ => true

/-- Lines of greater indentation may follow as the value. -/
def isOpen : YamlContent → Bool
  | pair _ value => value = ""
  | item _ => false

end YamlContent

/-- The keys of the latest lines, the outermost first; the innermost level comes first. -/
def pathOf (levels : List YamlLevel) : List String :=
  (levels.map (fun level => level.latest.key)).reverse

/-- The levels that are open behind a line, none when the line fits nowhere. Sequences stand
deeper than their key.
-/
def readLine (levels : List YamlLevel) (line : YamlLine) : Option (List YamlLevel) :=
  match levels.dropWhile (fun level => line.indent < level.indent) with
  | [] => if levels = [] then some [⟨line.indent, line.content⟩] else none
  | top :: below =>
      if top.indent = line.indent then
        if top.latest.isItem = line.content.isItem then
          some (⟨line.indent, line.content⟩ :: below)
        else
          none
      else if levels = top :: below ∧ top.latest.isOpen then
        some (⟨line.indent, line.content⟩ :: top :: below)
      else
        none

/-- The entries of the lines and the levels that are open behind them. -/
def readLines (levels : List YamlLevel)
    : List YamlLine → Option (List YamlEntry × List YamlLevel)
  | [] => some ([], levels)
  | line :: rest =>
      (readLine levels line).bind (fun next =>
        (readLines next rest).map (fun found =>
          (⟨pathOf next.tail, line.content⟩ :: found.1, found.2)))

/-- The entries of a document, none when it is not well formed. -/
def readYaml (lines : List YamlLine) : Option (List YamlEntry) :=
  (readLines [] lines).map Prod.fst

/-- What stands directly below the given keys. -/
def childrenOf (entries : List YamlEntry) (path : List String) : List YamlContent :=
  (entries.filter (fun entry => entry.parent = path)).map YamlEntry.content

theorem childrenOf_append (entries others : List YamlEntry) (path : List String)
    : childrenOf (entries ++ others) path
      = childrenOf entries path ++ childrenOf others path := by
  simp [childrenOf]

/-- A run of entries is below its own keys only. -/
theorem childrenOf_run (contents : List YamlContent) (parent path : List String)
    : childrenOf (contents.map (YamlEntry.mk parent)) path
      = if parent = path then contents else [] := by
  by_cases same : parent = path <;> simp [childrenOf, List.filter_map, same, Function.comp_def]

/-- An optional section has its lines below its key, and its key elsewhere. -/
theorem childrenOf_section (shown : Prop) [Decidable shown] {parent path : List String}
    (apart : parent ≠ path) (header : YamlContent) (contents : List YamlContent)
    (inner : List String)
    : childrenOf
        (if shown then ⟨parent, header⟩ :: contents.map (YamlEntry.mk inner) else []) path
      = if shown ∧ inner = path then contents else [] := by
  by_cases here : shown
  · have run := childrenOf_run contents inner path
    simp only [childrenOf] at run ⊢
    simpa [here, apart] using run
  · simp [here, childrenOf]

theorem childrenOf_eq_nil {entries : List YamlEntry} {path : List String}
    (apart : ∀ entry ∈ entries, entry.parent ≠ path)
    : childrenOf entries path = [] := by
  simpa [childrenOf, List.filter_eq_nil_iff] using apart

-----------------------------------------------------------------------------------------
-- Levels
-----------------------------------------------------------------------------------------

/-- A line of this indentation and kind opens no further level than its own above these. -/
def Accepts (levels : List YamlLevel) (indent : Nat) (item : Bool) (below : List YamlLevel)
    : Prop :=
  ∀ content,
    content.isItem = item
    → readLine levels ⟨indent, content⟩ = some (⟨indent, content⟩ :: below)

/-- A mapping or sequence of this indentation is open, possibly with deeper ones inside. -/
def StandsAt (levels : List YamlLevel) (indent : Nat) (item : Bool) (below : List YamlLevel)
    : Prop :=
  ∃ latest,
    latest.isItem = item
    ∧ levels.dropWhile (fun level => indent < level.indent) = ⟨indent, latest⟩ :: below

theorem standsAt_self (indent : Nat) (content : YamlContent) (below : List YamlLevel)
    : StandsAt (⟨indent, content⟩ :: below) indent content.isItem below :=
  ⟨content, rfl, by simp⟩

theorem StandsAt.accepts {levels below : List YamlLevel} {indent : Nat} {item : Bool}
    (stands : StandsAt levels indent item below)
    : Accepts levels indent item below := by
  intro content kind
  obtain ⟨latest, same, dropped⟩ := stands
  simp [readLine, dropped, same, kind]

/-- A first line below a key without a value. -/
theorem accepts_child {outer indent : Nat} (deeper : outer < indent) (key : String)
    (below : List YamlLevel) (item : Bool)
    : Accepts (⟨outer, .pair key ""⟩ :: below) indent item (⟨outer, .pair key ""⟩ :: below) := by
  intro content _
  have still : ¬ indent < outer := by omega
  have apart : outer ≠ indent := by omega
  simp [readLine, still, apart, YamlContent.isOpen]

theorem accepts_nil (item : Bool) : Accepts [] 0 item [] := by
  intro content _
  rfl

/-- Levels that lie deeper than the inner one lie deeper than the outer one, by induction on
the levels.
-/
theorem dropWhile_deeper {inner outer : Nat} (deeper : outer < inner) (levels : List YamlLevel)
    : (levels.dropWhile (fun level => inner < level.indent)).dropWhile
        (fun level => outer < level.indent)
      = levels.dropWhile (fun level => outer < level.indent) := by
  induction levels with
  | nil => rfl
  | cons level rest ih =>
      by_cases inside : inner < level.indent
      · have outside : outer < level.indent := by omega
        simpa [inside, outside] using ih
      · simp [inside]

/-- The mapping around an open one is open as well. -/
theorem StandsAt.outer {levels below : List YamlLevel} {inner outer : Nat} {item : Bool}
    {latest : YamlContent}
    (stands : StandsAt levels inner item (⟨outer, latest⟩ :: below)) (deeper : outer < inner)
    : StandsAt levels outer latest.isItem below := by
  obtain ⟨own, _, dropped⟩ := stands
  refine ⟨latest, rfl, ?_⟩
  rw [← dropWhile_deeper deeper, dropped]
  simp [deeper]

-----------------------------------------------------------------------------------------
-- Runs and sections
-----------------------------------------------------------------------------------------

/-- The lines are read as these entries and lead to these levels. -/
def Reads (levels : List YamlLevel) (lines : List YamlLine) (entries : List YamlEntry)
    (final : List YamlLevel)
    : Prop :=
  readLines levels lines = some (entries, final)

theorem reads_nil (levels : List YamlLevel) : Reads levels [] [] levels := rfl

/-- Reading goes on where it has stopped, by induction on the first lines. -/
theorem Reads.append {levels middle : List YamlLevel} {first : List YamlLine}
    {entries : List YamlEntry} (reads : Reads levels first entries middle)
    (second : List YamlLine)
    : readLines levels (first ++ second)
      = (readLines middle second).map (fun found => (entries ++ found.1, found.2)) := by
  induction first generalizing levels entries with
  | nil =>
      cases reads
      simp
  | cons line rest ih =>
      simp only [Reads, readLines, Option.bind_eq_some_iff, Option.map_eq_some_iff] at reads
      obtain ⟨next, here, ⟨found, last⟩, below, same⟩ := reads
      cases same
      rw [List.cons_append, readLines, here, Option.bind_some, ih below, Option.map_map]
      rfl

theorem Reads.trans {levels middle final : List YamlLevel} {first second : List YamlLine}
    {entries others : List YamlEntry} (reads : Reads levels first entries middle)
    (goesOn : Reads middle second others final)
    : Reads levels (first ++ second) (entries ++ others) final := by
  rw [Reads, reads.append, goesOn]
  rfl

theorem Accepts.reads {levels below : List YamlLevel} {indent : Nat} (content : YamlContent)
    (accepts : Accepts levels indent content.isItem below)
    : Reads levels [⟨indent, content⟩] [⟨pathOf below, content⟩]
        (⟨indent, content⟩ :: below) := by
  simp [Reads, readLines, accepts content rfl]

/-- A run of lines of one indentation and kind, by induction on them. -/
theorem Accepts.reads_run {levels below : List YamlLevel} {indent : Nat} {item : Bool}
    (accepts : Accepts levels indent item below) (contents : List YamlContent)
    (uniform : ∀ content ∈ contents, content.isItem = item)
    : ∃ final,
        Reads levels (contents.map (YamlLine.mk indent))
          (contents.map (YamlEntry.mk (pathOf below))) final
        ∧ (contents = [] → final = levels)
        ∧ (contents ≠ [] → StandsAt final indent item below) := by
  induction contents generalizing levels with
  | nil => exact ⟨levels, reads_nil levels, by simp, by simp⟩
  | cons content rest ih =>
      have kind := uniform content List.mem_cons_self
      subst kind
      have stands := standsAt_self indent content below
      obtain ⟨final, reads, ended, behind⟩ := ih stands.accepts
        (fun other member => uniform other (List.mem_cons_of_mem _ member))
      refine ⟨final, (accepts.reads content).trans reads, by simp, fun _ => ?_⟩
      by_cases none_ : rest = []
      · rw [ended none_]
        exact stands
      · exact behind none_

/-- A key with a run of lines below it. -/
theorem Accepts.reads_section {levels below : List YamlLevel} {outer indent : Nat}
    (accepts : Accepts levels outer false below) (deeper : outer < indent) (key : String)
    {item : Bool} {contents : List YamlContent}
    (uniform : ∀ content ∈ contents, content.isItem = item)
    : ∃ final,
        Reads levels (⟨outer, .pair key ""⟩ :: contents.map (YamlLine.mk indent))
          (⟨pathOf below, .pair key ""⟩
            :: contents.map (YamlEntry.mk (pathOf below ++ [key])))
          final
        ∧ StandsAt final outer false below
        ∧ (contents ≠ [] → StandsAt final indent item (⟨outer, .pair key ""⟩ :: below)) := by
  have header := accepts.reads (.pair key "")
  have child : Accepts (⟨outer, .pair key ""⟩ :: below) indent item
      (⟨outer, .pair key ""⟩ :: below) := accepts_child deeper key below item
  obtain ⟨final, reads, ended, behind⟩ := child.reads_run contents uniform
  have path : pathOf (⟨outer, .pair key ""⟩ :: below) = pathOf below ++ [key] := by
    simp [pathOf, YamlContent.key]
  rw [path] at reads
  refine ⟨final, header.trans reads, ?_, behind⟩
  by_cases none_ : contents = []
  · rw [ended none_]
    exact standsAt_self outer (.pair key "") below
  · exact (behind none_).outer deeper

/-- The same, when the section may be left out; witness: nothing is read then. -/
theorem StandsAt.reads_optional {levels below : List YamlLevel} {outer indent : Nat}
    (stands : StandsAt levels outer false below) (deeper : outer < indent) (key : String)
    {item : Bool} {contents : List YamlContent}
    (uniform : ∀ content ∈ contents, content.isItem = item) (shown : Prop) [Decidable shown]
    : ∃ final,
        Reads levels
          (if shown then ⟨outer, .pair key ""⟩ :: contents.map (YamlLine.mk indent) else [])
          (if shown then
            ⟨pathOf below, .pair key ""⟩
              :: contents.map (YamlEntry.mk (pathOf below ++ [key]))
          else [])
          final
        ∧ StandsAt final outer false below
        ∧ (¬ shown → final = levels)
        ∧ (shown → contents ≠ []
          → StandsAt final indent item (⟨outer, .pair key ""⟩ :: below)) := by
  by_cases here : shown
  · obtain ⟨final, reads, behind, inside⟩ := stands.accepts.reads_section deeper key uniform
    exact ⟨final, by simpa [here] using reads, behind, by simp [here], fun _ => inside⟩
  · exact ⟨levels, by simp [here, reads_nil], stands, by simp, by simp [here]⟩

/-- Sections one behind the other, by induction on them. -/
theorem Accepts.reads_sections {levels below : List YamlLevel} {outer indent : Nat}
    (accepts : Accepts levels outer false below) (deeper : outer < indent)
    {sections : List (String × List YamlContent)}
    (uniform : ∀ part ∈ sections, ∀ content ∈ part.2, content.isItem = false)
    : ∃ final,
        Reads levels
          (sections.flatMap (fun part =>
            ⟨outer, .pair part.1 ""⟩ :: part.2.map (YamlLine.mk indent)))
          (sections.flatMap (fun part =>
            ⟨pathOf below, .pair part.1 ""⟩
              :: part.2.map (YamlEntry.mk (pathOf below ++ [part.1]))))
          final
        ∧ (sections = [] → final = levels)
        ∧ (sections ≠ [] → StandsAt final outer false below) := by
  induction sections generalizing levels with
  | nil => exact ⟨levels, reads_nil levels, by simp, by simp⟩
  | cons part rest ih =>
      obtain ⟨middle, reads, stands, _⟩ :=
        accepts.reads_section deeper part.1 (uniform part List.mem_cons_self)
      obtain ⟨final, goesOn, ended, behind⟩ := ih stands.accepts
        (fun other member => uniform other (List.mem_cons_of_mem _ member))
      refine ⟨final, reads.trans goesOn, by simp, fun _ => ?_⟩
      by_cases none_ : rest = []
      · rw [ended none_]
        exact stands
      · exact behind none_

end Foundation
