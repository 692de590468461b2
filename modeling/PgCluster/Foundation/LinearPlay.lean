import PgCluster.Foundation.TransitionSystem
import Mathlib.Data.Finset.Card

/-! Plays in linear order: all hosts finish a task, in any order, before the next one begins.
After a failure the hosts of the current task still finish and nothing begins any more.
-/

namespace Foundation

/-- Tasks over a set of hosts; `perform` relates a host's task to success or failure and the
world after it.
-/
structure LinearPlay (Task Host World : Type*) where
  tasks : List Task
  hosts : Finset Host
  start : World
  perform : Task → Host → World → Bool → World → Prop

namespace LinearPlay

variable {Task Host World : Type*} [DecidableEq Host]

/-- The remaining tasks with the current one first, and the hosts that have to do it. -/
structure Progress (Task Host World : Type*) where
  tasks : List Task
  todo : Finset Host
  failed : Bool
  world : World

inductive Step (play : LinearPlay Task Host World)
    : Progress Task Host World → Progress Task Host World → Prop where
  | perform {task rest todo failed world host ok next} (waits : host ∈ todo)
    (performed : play.perform task host world ok next)
    : Step play ⟨task :: rest, todo, failed, world⟩
        ⟨task :: rest, todo.erase host, failed || !ok, next⟩
  | nextTask {task rest world}
    : Step play ⟨task :: rest, ∅, false, world⟩ ⟨rest, play.hosts, false, world⟩

def system (play : LinearPlay Task Host World)
    : TransitionSystem (Progress Task Host World) where
  initial progress := progress = ⟨play.tasks, play.hosts, false, play.start⟩
  step := Step play

/-- Hosts that can succeed without changing the world can all do so, by set induction. -/
theorem reachable_done {play : LinearPlay Task Host World} {task : Task} {rest : List Task}
    {world : World} (todo : Finset Host)
    (silent : ∀ host ∈ todo, play.perform task host world true world)
    (reached : play.system.Reachable ⟨task :: rest, todo, false, world⟩)
    : play.system.Reachable ⟨task :: rest, ∅, false, world⟩ := by
  induction todo using Finset.induction with
  | empty => exact reached
  | insert host todo fresh ih =>
      have waits := Finset.mem_insert_self host todo
      have move : Step play ⟨task :: rest, insert host todo, false, world⟩ _ :=
        .perform waits (silent host waits)
      have moved := reached.step move
      rw [Finset.erase_insert fresh] at moved
      exact ih (fun other member => silent other (Finset.mem_insert_of_mem member)) moved

/-- A task that every host can finish without changing the world can be passed. -/
theorem reachable_pass {play : LinearPlay Task Host World} {task : Task} {rest : List Task}
    {world : World} (silent : ∀ host ∈ play.hosts, play.perform task host world true world)
    (reached : play.system.Reachable ⟨task :: rest, play.hosts, false, world⟩)
    : play.system.Reachable ⟨rest, play.hosts, false, world⟩ :=
  (reachable_done play.hosts silent reached).step .nextTask

end LinearPlay

end Foundation
