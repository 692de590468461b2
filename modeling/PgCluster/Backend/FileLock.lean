import PgCluster.Foundation.Machine
import PgCluster.Foundation.Threads

/-! AppFileLock: the lock file of one directory and application name, the processes that
construct the lock, and the three paths on which they remove the file.
-/

namespace PgCluster.Backend

open Foundation

variable {Pid : Type*}

-----------------------------------------------------------------------------------------
-- One process
-----------------------------------------------------------------------------------------

/-- Where a process stands; its function unlock is registered with atexit from the start. -/
inductive LockStage where
  /-- in the constructor, ahead of signal.signal -/
  | starting
  /-- ahead of the isfile test of the constructor -/
  | testing
  /-- ahead of os.open -/
  | opening
  /-- past the constructor -/
  | running
  /-- in SignalHandler.unlock, ahead of isfile -/
  | signalIsfile
  /-- in SignalHandler.unlock, ahead of os.remove -/
  | signalRemove
  /-- in unlock, with do_unlock cleared, ahead of isfile -/
  | unlockIsfile
  /-- in unlock, ahead of os.remove -/
  | unlockRemove
  /-- the main program has been left, the atexit functions are to run -/
  | exiting
  | ended
deriving DecidableEq, Repr

/-- The first of the two steps of a removal. -/
def LockStage.AtIsfile (stage : LockStage) : Prop :=
  stage = .signalIsfile ∨ stage = .unlockIsfile

/-- The second of the two steps of a removal. -/
def LockStage.AtRemove (stage : LockStage) : Prop :=
  stage = .signalRemove ∨ stage = .unlockRemove

/-- A process with the flag of its AppFileLock. The other fields are its history: its
constructor has returned, its os.open has created the file, the file was gone when it came
to the end of a removal.
-/
structure LockProcess where
  stage : LockStage
  doUnlock : Bool
  constructed : Bool
  obtained : Bool
  released : Bool
deriving DecidableEq, Repr

inductive LockEvent where
  /-- the next operation of the process; os.open and os.remove may be refused to it -/
  | proceed (permitted : Bool)
  /-- the body calls SignalHandler.unlock -/
  | callUnlock
  /-- the program ends, or an exception leaves it -/
  | leave
  | sigterm
deriving DecidableEq, Repr

namespace LockProcess

def initial : LockProcess := ⟨.starting, true, false, false, false⟩

/-- The end of a removal that leaves this of the file behind. -/
def removed (process : LockProcess) (lockFile : Option Pid) : LockProcess :=
  { process with stage := .exiting, released := process.released || lockFile.isNone }

/-- The next operation. The lock file is known with the process that created it. -/
def proceed (pid : Pid) (permitted : Bool) (process : LockProcess) (lockFile : Option Pid)
    : LockProcess × Option Pid :=
  match process.stage with
  | .starting => ({ process with stage := .testing }, lockFile)
  | .testing =>
      if lockFile.isSome then
        ({ process with stage := .exiting, doUnlock := false }, lockFile)
      else
        ({ process with stage := .opening }, lockFile)
  | .opening =>
      -- an IOError is printed, and the constructor returns all the same
      if permitted && lockFile.isNone then
        ({ process with stage := .running, constructed := true, obtained := true }, some pid)
      else
        ({ process with stage := .running, constructed := true }, lockFile)
  | .running => (process, lockFile)
  | .signalIsfile =>
      if lockFile.isSome then
        ({ process with stage := .signalRemove }, lockFile)
      else
        (process.removed lockFile, lockFile)
  | .unlockIsfile =>
      if lockFile.isSome then
        ({ process with stage := .unlockRemove }, lockFile)
      else
        (process.removed lockFile, lockFile)
  | .signalRemove | .unlockRemove =>
      let left := if permitted then none else lockFile
      (process.removed left, left)
  | .exiting =>
      if process.doUnlock then
        ({ process with stage := .unlockIsfile, doUnlock := false }, lockFile)
      else
        ({ process with stage := .ended }, lockFile)
  | .ended => (process, lockFile)

/-- SIGTERM kills the process as long as handler is not installed, else it calls unlock. -/
def sigterm (process : LockProcess) : LockProcess :=
  match process.stage with
  | .starting => { process with stage := .ended }
  | .ended => process
  | _ =>
      if process.doUnlock then
        { process with stage := .unlockIsfile, doUnlock := false }
      else
        process

def step (pid : Pid) (event : LockEvent) (process : LockProcess) (lockFile : Option Pid)
    : LockProcess × Option Pid :=
  match event with
  | .proceed permitted => process.proceed pid permitted lockFile
  | .callUnlock =>
      if process.stage = .running then
        ({ process with stage := .signalIsfile }, lockFile)
      else
        (process, lockFile)
  | .leave =>
      if process.stage = .ended then
        (process, lockFile)
      else
        ({ process with stage := .exiting }, lockFile)
  | .sigterm => (process.sigterm, lockFile)

/-- The same, with the isfile test of the constructor and its os.open in one step. -/
def atomicStep (pid : Pid) (event : LockEvent) (process : LockProcess)
    (lockFile : Option Pid)
    : LockProcess × Option Pid :=
  let (next, file) := process.step pid event lockFile
  if next.stage = .opening then next.step pid event file else (next, file)

end LockProcess

/-- A passed test of a removal leads to its os.remove, by cases on the two functions. -/
theorem LockProcess.atomicStep_isfile (process : LockProcess) (pid : Pid) (permitted : Bool)
    (creator : Pid) (test : process.stage.AtIsfile)
    : (process.atomicStep pid (.proceed permitted) (some creator)).2 = some creator
      ∧ (process.atomicStep pid (.proceed permitted) (some creator)).1.stage.AtRemove := by
  rcases test with stands | stands
    <;> simp [atomicStep, step, proceed, stands, LockStage.AtRemove]

theorem LockProcess.atomicStep_remove (process : LockProcess) (pid : Pid)
    (lockFile : Option Pid) (there : process.stage.AtRemove)
    : (process.atomicStep pid (.proceed true) lockFile).2 = none := by
  rcases there with stands | stands <;> simp [atomicStep, step, proceed, stands, removed]

-----------------------------------------------------------------------------------------
-- What one step does to the file
-----------------------------------------------------------------------------------------

/-- The process has created the file and has not come to the end of its removal. -/
def LockProcess.HasLock (process : LockProcess) : Prop :=
  process.obtained = true ∧ process.released = false

/-- The constructor has not come to the outcome of its os.open. -/
def LockStage.Early (stage : LockStage) : Prop :=
  stage = .starting ∨ stage = .testing ∨ stage = .opening

/-- A step of a process: its os.open creates the file or raises, its os.remove removes the
file, or the file and what the constructor has done are left alone.
-/
inductive LockProcess.Moves (pid : Pid) (event : LockEvent) (process : LockProcess)
    (lockFile : Option Pid) (next : LockProcess) (after : Option Pid)
    : Prop where
  | creates (absent : lockFile = none) (created : after = some pid)
      (stands : process.stage = .opening)
      (lands : next = { process with stage := .running, constructed := true, obtained := true })
  | fails (permitted : Bool) (proceeds : event = .proceed permitted)
      (stands : process.stage = .opening)
      (refused : ¬ (permitted = true ∧ lockFile = none)) (same : after = lockFile)
      (lands : next = { process with stage := .running, constructed := true })
  | removes (stands : process.stage.AtRemove) (gone : after = none)
      (lands : next = { process with stage := .exiting, released := true })
  | leaves (same : after = lockFile)
      (constructed : next.constructed = process.constructed)
      (obtained : next.obtained = process.obtained)
      (released
        : next.released = process.released
          ∨ lockFile = none ∧ next.released = true ∧ next.stage = .exiting)
      (early : next.stage.Early → process.stage.Early)
      (removal
        : next.stage.AtRemove
          → process.stage.AtRemove
            ∨ process.stage.AtIsfile ∧ lockFile ≠ none
              ∧ ∃ permitted, event = .proceed permitted)

namespace LockProcess

/-- A step that only goes to another stage or clears do_unlock. -/
theorem moves_to {pid : Pid} {event : LockEvent} {process next : LockProcess}
    {lockFile : Option Pid}
    (history
      : next.constructed = process.constructed ∧ next.obtained = process.obtained
        ∧ next.released = process.released)
    (early : next.stage.Early → process.stage.Early)
    (removal
      : next.stage.AtRemove
        → process.stage.AtRemove
          ∨ process.stage.AtIsfile ∧ lockFile ≠ none ∧ ∃ permitted, event = .proceed permitted)
    : process.Moves pid event lockFile next lockFile :=
  .leaves rfl history.1 history.2.1 (.inl history.2.2) early removal

/-- Every step is one of these, by cases on the event and the stage. -/
theorem step_moves (pid : Pid) (event : LockEvent) (process : LockProcess)
    (lockFile : Option Pid)
    : process.Moves pid event lockFile (process.step pid event lockFile).1
        (process.step pid event lockFile).2 := by
  cases event with
  | proceed permitted =>
      cases stands : process.stage with
      | starting | running | ended =>
          simp only [step, proceed, stands]
          exact moves_to ⟨rfl, rfl, rfl⟩ (by simp [LockStage.Early, stands])
            (by simp [LockStage.AtRemove, stands])
      | testing =>
          simp only [step, proceed, stands]
          split <;> exact moves_to ⟨rfl, rfl, rfl⟩ (by simp [LockStage.Early, stands])
            (by simp [LockStage.AtRemove])
      | opening =>
          simp only [step, proceed, stands]
          split
          · rename_i free
            simp only [Bool.and_eq_true, Option.isNone_iff_eq_none] at free
            exact .creates free.2 rfl stands rfl
          · rename_i refused
            simp only [Bool.and_eq_true, Option.isNone_iff_eq_none] at refused
            exact .fails permitted rfl stands refused rfl rfl
      | signalIsfile | unlockIsfile =>
          simp only [step, proceed, stands]
          split
          · rename_i present
            refine moves_to ⟨rfl, rfl, rfl⟩ (by simp [LockStage.Early]) (fun _ => .inr ?_)
            exact ⟨by simp [LockStage.AtIsfile, stands],
              Option.isSome_iff_ne_none.mp present, permitted, rfl⟩
          · rename_i absent
            have none_ : lockFile = none := by simpa using absent
            exact .leaves rfl rfl rfl (.inr ⟨none_, by simp [removed, none_], rfl⟩)
              (by simp [LockStage.Early, removed]) (by simp [LockStage.AtRemove, removed])
      | signalRemove | unlockRemove =>
          have stage : process.stage.AtRemove := by simp [LockStage.AtRemove, stands]
          simp only [step, proceed, stands]
          cases permitted with
          | true => exact .removes stage rfl (by simp [removed])
          | false =>
              cases lockFile with
              | none => exact .removes stage rfl (by simp [removed])
              | some creator =>
                  exact moves_to ⟨rfl, rfl, by simp [removed]⟩
                    (by simp [LockStage.Early, removed])
                    (by simp [LockStage.AtRemove, removed])
      | exiting =>
          simp only [step, proceed, stands]
          split <;> exact moves_to ⟨rfl, rfl, rfl⟩ (by simp [LockStage.Early])
            (by simp [LockStage.AtRemove])
  | callUnlock =>
      simp only [step]
      split
      · exact moves_to ⟨rfl, rfl, rfl⟩ (by simp [LockStage.Early])
          (by simp [LockStage.AtRemove])
      · exact moves_to ⟨rfl, rfl, rfl⟩ id .inl
  | leave =>
      simp only [step]
      split
      · exact moves_to ⟨rfl, rfl, rfl⟩ id .inl
      · exact moves_to ⟨rfl, rfl, rfl⟩ (by simp [LockStage.Early])
          (by simp [LockStage.AtRemove])
  | sigterm =>
      simp only [step, sigterm]
      split
      · exact moves_to ⟨rfl, rfl, rfl⟩ (by simp [LockStage.Early])
          (by simp [LockStage.AtRemove])
      · exact moves_to ⟨rfl, rfl, rfl⟩ id .inl
      · split
        · exact moves_to ⟨rfl, rfl, rfl⟩ (by simp [LockStage.Early])
            (by simp [LockStage.AtRemove])
        · exact moves_to ⟨rfl, rfl, rfl⟩ id .inl

end LockProcess

/-- The lock file is that of the process that has the lock, and only that one removes. -/
structure LockProcess.Owns (pid : Pid) (process : LockProcess) (lockFile : Option Pid)
    : Prop where
  held : process.HasLock → lockFile = some pid
  removal : process.stage.AtRemove → process.HasLock

/-- The step of a process keeps its own part, by cases on the kind of the step. -/
theorem LockProcess.Owns.step {pid : Pid} {process : LockProcess} {lockFile : Option Pid}
    (owns : process.Owns pid lockFile) (event : LockEvent)
    (tests
      : ∀ permitted,
          event = .proceed permitted → process.stage.AtIsfile
          → process.HasLock ∨ lockFile = none)
    : (process.step pid event lockFile).1.Owns pid (process.step pid event lockFile).2 := by
  cases process.step_moves pid event lockFile with
  | creates absent created stands lands =>
      rw [lands, created]
      exact ⟨fun _ => rfl, by simp [LockStage.AtRemove]⟩
  | fails permitted proceeds stands refused same lands =>
      rw [lands, same]
      exact ⟨owns.held, by simp [LockStage.AtRemove]⟩
  | removes stands gone lands =>
      rw [lands]
      exact ⟨by simp [HasLock], by simp [LockStage.AtRemove]⟩
  | leaves same constructed obtained released early removal =>
      constructor
      · intro has
        rw [same]
        rcases released with kept | ⟨_, ceased, _⟩
        · exact owns.held ⟨obtained ▸ has.1, kept ▸ has.2⟩
        · simp [has.2] at ceased
      · intro standing
        have kept : (process.step pid event lockFile).1.released = process.released := by
          rcases released with kept | ⟨_, _, leaving⟩
          · exact kept
          · simp [leaving, LockStage.AtRemove] at standing
        have before : process.HasLock := by
          rcases removal standing with there | ⟨test, present, permitted, proceeds⟩
          · exact owns.removal there
          · exact (tests permitted proceeds test).resolve_right present
        exact ⟨obtained ▸ before.1, kept ▸ before.2⟩

/-- What every run keeps: the file is known to its creator, and a constructor that is not at
its end has no history.
-/
structure LockProcess.Known (pid : Pid) (process : LockProcess) (lockFile : Option Pid)
    : Prop where
  created : lockFile = some pid → process.HasLock
  early : process.stage.Early → process.obtained = false ∧ process.released = false

/-- The step of a process keeps its own part, by cases on the kind of the step. -/
theorem LockProcess.Known.step {pid : Pid} {process : LockProcess} {lockFile : Option Pid}
    (known : process.Known pid lockFile) (event : LockEvent)
    : (process.step pid event lockFile).1.Known pid (process.step pid event lockFile).2 := by
  cases process.step_moves pid event lockFile with
  | creates absent created stands lands =>
      have fresh := known.early (by simp [LockStage.Early, stands])
      rw [lands, created]
      exact ⟨fun _ => ⟨rfl, fresh.2⟩, by simp [LockStage.Early]⟩
  | fails permitted proceeds stands refused same lands =>
      rw [lands, same]
      exact ⟨known.created, by simp [LockStage.Early]⟩
  | removes stands gone lands =>
      rw [lands, gone]
      exact ⟨by simp, by simp [LockStage.Early]⟩
  | leaves same constructed obtained released early removal =>
      constructor
      · intro own
        rw [same] at own
        have has := known.created own
        rcases released with kept | ⟨absent, _⟩
        · exact ⟨obtained.trans has.1, kept.trans has.2⟩
        · simp [absent] at own
      · intro standing
        have fresh := known.early (early standing)
        rcases released with kept | ⟨_, _, leaving⟩
        · exact ⟨obtained.trans fresh.1, kept.trans fresh.2⟩
        · simp [leaving, LockStage.Early] at standing

-----------------------------------------------------------------------------------------
-- Any number of processes
-----------------------------------------------------------------------------------------

/-- The processes and the lock file with its creator. -/
abbrev LockState (Pid : Type*) := Threads Pid LockProcess (Option Pid)

structure LockLabel (Pid : Type*) where
  pid : Pid
  event : LockEvent
deriving DecidableEq, Repr

def lockStart : LockState Pid := ⟨fun _ => .initial, none⟩

theorem known_start (pid : Pid)
    : ((lockStart : LockState Pid).own pid).Known pid lockStart.shared :=
  ⟨by simp [lockStart], by simp [lockStart, LockProcess.initial]⟩

theorem owns_start (pid : Pid)
    : ((lockStart : LockState Pid).own pid).Owns pid lockStart.shared :=
  ⟨by simp [lockStart, LockProcess.HasLock, LockProcess.initial],
    by simp [lockStart, LockStage.AtRemove, LockProcess.initial]⟩

/-- The process is past the constructor and has not released the lock. -/
def LockProcess.InLock (process : LockProcess) : Prop :=
  process.constructed = true ∧ process.released = false ∧ process.stage ≠ .ended

/-- At most one process is in the lock, and only those that obtained the file have gone on
behind the constructor.
-/
structure MutualExclusion (state : LockState Pid) : Prop where
  single
    : ∀ pid other, (state.own pid).InLock → (state.own other).InLock → pid = other
  obtained : ∀ pid, (state.own pid).constructed = true → (state.own pid).obtained = true

/-- Mutual exclusion from the invariants of a run. -/
theorem mutualExclusion_of_owns {state : LockState Pid}
    (owns : ∀ pid, (state.own pid).Owns pid state.shared)
    (obtained
      : ∀ pid, (state.own pid).constructed = true → (state.own pid).obtained = true)
    : MutualExclusion state := by
  refine ⟨?_, obtained⟩
  intro pid other first second
  have mine := (owns pid).held ⟨obtained pid first.1, first.2.1⟩
  have theirs := (owns other).held ⟨obtained other second.1, second.2.1⟩
  exact Option.some.inj (mine.symm.trans theirs)

/-- An os.open of the constructor finds the file still absent and is permitted. -/
def OpensFree (state : LockState Pid) (label : LockLabel Pid) : Prop :=
  ∀ permitted,
    label.event = .proceed permitted → (state.own label.pid).stage = .opening
    → permitted = true ∧ state.shared = none

/-- An isfile test of unlock or SignalHandler.unlock by a process that has not created the
file, or has removed it before, finds no file.
-/
def TestsHeld (state : LockState Pid) (label : LockLabel Pid) : Prop :=
  ∀ permitted,
    label.event = .proceed permitted → (state.own label.pid).stage.AtIsfile
    → (state.own label.pid).HasLock ∨ state.shared = none

/-- Behind an opening no test of a removal is made. -/
theorem testsHeld_of_opening {state : LockState Pid} {label : LockLabel Pid}
    (opening : (state.own label.pid).stage = .opening)
    : TestsHeld state label := by
  intro permitted proceeds test
  simp [LockStage.AtIsfile, opening] at test

variable [DecidableEq Pid]

def lockMachine : Machine (LockState Pid) (LockLabel Pid) where
  start := lockStart
  step state label := state.advance label.pid (LockProcess.step label.pid label.event)

/-- The processes, with test and creation of the file in one step. -/
def atomicLockMachine : Machine (LockState Pid) (LockLabel Pid) where
  start := lockStart
  step state label := state.advance label.pid (LockProcess.atomicStep label.pid label.event)

/-- If the file present disappears in the step, then its creator has taken the step. -/
def RemovesOwn (machine : Machine (LockState Pid) (LockLabel Pid)) (state : LockState Pid)
    (label : LockLabel Pid)
    : Prop :=
  ∀ creator,
    state.shared = some creator → (machine.step state label).shared ≠ some creator
    → label.pid = creator

-----------------------------------------------------------------------------------------
-- Invariants of the runs
-----------------------------------------------------------------------------------------

/-- An atomic step is one step of the process or two. -/
theorem atomic_step (state : LockState Pid) (label : LockLabel Pid)
    : let next := lockMachine.step state label
      atomicLockMachine.step state label
      = if (next.own label.pid).stage = .opening then lockMachine.step next label else next := by
  simp only [lockMachine, atomicLockMachine, Threads.advance_own_self,
    Threads.advance_advance]
  split
  · rename_i opening
    simp [Threads.advance, LockProcess.atomicStep, opening]
  · rename_i elsewhere
    simp [Threads.advance, LockProcess.atomicStep, elsewhere]

/-- Every process keeps what all runs keep. -/
theorem known_step {state : LockState Pid}
    (known : ∀ pid, (state.own pid).Known pid state.shared) (label : LockLabel Pid)
    : ∀ pid,
        ((lockMachine.step state label).own pid).Known pid
          (lockMachine.step state label).shared := by
  refine Threads.advance_forall LockProcess.Known known
    ((known label.pid).step label.event) ?_
  intro other apart before
  refine ⟨fun own => before.created ?_, before.early⟩
  cases (state.own label.pid).step_moves label.pid label.event state.shared with
  | creates absent created stands lands =>
      rw [created] at own
      exact (apart (Option.some.inj own).symm).elim
  | removes stands gone lands => simp [gone] at own
  | fails permitted proceeds stands refused same lands => exact same ▸ own
  | leaves same constructed obtained released early removal => exact same ▸ own

/-- As long as the tests are made by processes that have the lock, the file is that of the
process which has it.
-/
theorem owns_step {state : LockState Pid}
    (owns : ∀ pid, (state.own pid).Owns pid state.shared) (label : LockLabel Pid)
    (tests : TestsHeld state label)
    : ∀ pid,
        ((lockMachine.step state label).own pid).Owns pid
          (lockMachine.step state label).shared := by
  refine Threads.advance_forall LockProcess.Owns owns
    ((owns label.pid).step label.event tests) ?_
  intro other apart before
  refine ⟨fun has => ?_, before.removal⟩
  have own := before.held has
  cases (state.own label.pid).step_moves label.pid label.event state.shared with
  | creates absent created stands lands => simp [absent] at own
  | removes stands gone lands =>
      have mine := (owns label.pid).held ((owns label.pid).removal stands)
      exact (apart (Option.some.inj (own.symm.trans mine))).elim
  | fails permitted proceeds stands refused same lands => exact same.trans own
  | leaves same constructed obtained released early removal => exact same.trans own

/-- Then a process removes no file but its own. -/
theorem removesOwn_of_owns {state : LockState Pid}
    (owns : ∀ pid, (state.own pid).Owns pid state.shared) (label : LockLabel Pid)
    : RemovesOwn lockMachine state label := by
  intro creator present changed
  cases (state.own label.pid).step_moves label.pid label.event state.shared with
  | creates absent created stands lands => simp [absent] at present
  | removes stands gone lands =>
      have mine := (owns label.pid).held ((owns label.pid).removal stands)
      exact Option.some.inj (mine.symm.trans present)
  | fails permitted proceeds stands refused same lands =>
      exact (changed (same.trans present)).elim
  | leaves same constructed obtained released early removal =>
      exact (changed (same.trans present)).elim

-----------------------------------------------------------------------------------------
-- Mutual exclusion
-----------------------------------------------------------------------------------------

/-- With an os.open that is free, the processes behind the constructor have created the
file. -/
theorem obtained_step {state : LockState Pid}
    (obtained
      : ∀ pid, (state.own pid).constructed = true → (state.own pid).obtained = true)
    (label : LockLabel Pid) (opens : OpensFree state label)
    : ∀ pid,
        ((lockMachine.step state label).own pid).constructed = true
        → ((lockMachine.step state label).own pid).obtained = true := by
  refine Threads.advance_forall
    (fun _ (process : LockProcess) _ => process.constructed = true → process.obtained = true)
    obtained ?_
    (fun _ _ before => before)
  intro past
  cases (state.own label.pid).step_moves label.pid label.event state.shared with
  | creates absent created stands lands => rw [lands]
  | fails permitted proceeds stands refused same lands =>
      exact (refused (opens permitted proceeds stands)).elim
  | removes stands gone lands =>
      rw [lands] at past ⊢
      exact obtained label.pid past
  | leaves same constructed held released early removal =>
      exact held.trans (obtained label.pid (constructed ▸ past))

/-- An os.open that is not free breaks mutual exclusion. -/
theorem mutualExclusion_broken {state : LockState Pid}
    (known : ∀ pid, (state.own pid).Known pid state.shared) {label : LockLabel Pid}
    (taken : ¬ OpensFree state label)
    : ¬ MutualExclusion (lockMachine.step state label) := by
  intro exclusion
  simp only [OpensFree, not_forall] at taken
  obtain ⟨permitted, proceeds, stands, refused⟩ := taken
  have fresh := ((known label.pid).early (by simp [LockStage.Early, stands])).1
  have past := exclusion.obtained label.pid
  have closed : ¬ (permitted && state.shared.isNone) = true := by simpa using refused
  simp [lockMachine, LockProcess.step, proceeds, LockProcess.proceed, stands, closed,
    fresh] at past

/-- A run is mutually exclusive if every os.open of a constructor finds the file still
absent and every isfile test of a removal is made by a process that has the lock or finds no
file. The first of the two is necessary.
-/
theorem mutualExclusion_of_free (labels : List (LockLabel Pid))
    : (lockMachine.Each (fun state label => OpensFree state label ∧ TestsHeld state label)
          lockStart labels
        → lockMachine.Always MutualExclusion lockStart labels)
      ∧ (lockMachine.Always MutualExclusion lockStart labels
        → lockMachine.Each OpensFree lockStart labels) := by
  constructor
  · refine Machine.Each.always
      (fun state =>
        (∀ pid, (state.own pid).Owns pid state.shared)
        ∧ ∀ pid, (state.own pid).constructed = true → (state.own pid).obtained = true)
      ?_ (fun state invariant => mutualExclusion_of_owns invariant.1 invariant.2) ?_
    · intro state label invariant met
      exact ⟨owns_step invariant.1 label met.2, obtained_step invariant.2 label met.1⟩
    · exact ⟨owns_start, by simp [lockStart, LockProcess.initial]⟩
  · refine Machine.Always.each (fun state => ∀ pid, (state.own pid).Known pid state.shared)
      (fun state label known => known_step known label) ?_ known_start
    intro state label known exclusion
    by_contra taken
    exact mutualExclusion_broken known taken exclusion

/-- Two processes test before either creates the file, and both go on. -/
theorem mutualExclusion_race
    : ¬ MutualExclusion (lockMachine.run
        (([0, 0, 1, 1, 0, 1] : List Nat).map fun pid => ⟨pid, .proceed true⟩)) := by
  intro exclusion
  have same := exclusion.single 0 1 ⟨by decide, by decide, by decide⟩
    ⟨by decide, by decide, by decide⟩
  cases same

-----------------------------------------------------------------------------------------
-- Removal by the owner
-----------------------------------------------------------------------------------------

theorem known_atomic {state : LockState Pid}
    (known : ∀ pid, (state.own pid).Known pid state.shared) (label : LockLabel Pid)
    : ∀ pid,
        ((atomicLockMachine.step state label).own pid).Known pid
          (atomicLockMachine.step state label).shared := by
  rw [atomic_step]
  split
  · exact known_step (known_step known label) label
  · exact known_step known label

theorem owns_atomic {state : LockState Pid}
    (owns : ∀ pid, (state.own pid).Owns pid state.shared) (label : LockLabel Pid)
    (tests : TestsHeld state label)
    : ∀ pid,
        ((atomicLockMachine.step state label).own pid).Owns pid
          (atomicLockMachine.step state label).shared := by
  have next := owns_step owns label tests
  rw [atomic_step]
  split
  · rename_i opening
    exact owns_step next label (testsHeld_of_opening opening)
  · exact next

theorem removesOwn_atomic {state : LockState Pid}
    (owns : ∀ pid, (state.own pid).Owns pid state.shared) (label : LockLabel Pid)
    (tests : TestsHeld state label)
    : RemovesOwn atomicLockMachine state label := by
  intro creator present changed
  rw [atomic_step] at changed
  by_cases there : (lockMachine.step state label).shared = some creator
  · split at changed
    · exact removesOwn_of_owns (owns_step owns label tests) label creator there changed
    · exact (changed there).elim
  · exact removesOwn_of_owns owns label creator present there

/-- After a test that a process without the lock has passed, its os.remove removes the file
of another one.
-/
theorem removesOwn_broken {state : LockState Pid}
    (known : ∀ pid, (state.own pid).Known pid state.shared) {label : LockLabel Pid}
    (loose : ¬ TestsHeld state label)
    : ¬ RemovesOwn atomicLockMachine (atomicLockMachine.step state label)
        ⟨label.pid, .proceed true⟩ := by
  simp only [TestsHeld, not_forall, not_or] at loose
  obtain ⟨permitted, proceeds, test, without, present⟩ := loose
  obtain ⟨creator, present⟩ := Option.ne_none_iff_exists'.mp present
  intro removesOwn
  have tested := (state.own label.pid).atomicStep_isfile label.pid permitted creator test
  have here : (atomicLockMachine.step state label).shared = some creator
      ∧ ((atomicLockMachine.step state label).own label.pid).stage.AtRemove := by
    simpa only [atomicLockMachine, Threads.advance_shared, Threads.advance_own_self, proceeds,
      present] using tested
  have gone := ((atomicLockMachine.step state label).own label.pid).atomicStep_remove label.pid
    (atomicLockMachine.step state label).shared here.2
  have mine := removesOwn creator here.1 (fun stays => nomatch gone.symm.trans stays)
  exact without ((known label.pid).created (present.trans (congrArg some mine.symm)))

/-- Processes remove their own lock file alone, with an atomic constructor, if every isfile
test of a removal is made by a process that has the lock or finds no file. A test that does
neither is a step ahead of the removal of another one's file.
-/
theorem removesOwn_of_testsHeld (labels : List (LockLabel Pid))
    : (atomicLockMachine.Each TestsHeld lockStart labels
        → atomicLockMachine.Each (RemovesOwn atomicLockMachine) lockStart labels)
      ∧ ∀ label,
          ¬ TestsHeld (atomicLockMachine.run labels) label
          → ¬ RemovesOwn atomicLockMachine (atomicLockMachine.run (labels ++ [label]))
              ⟨label.pid, .proceed true⟩ := by
  constructor
  · exact Machine.Each.imp
      (fun state : LockState Pid => ∀ pid, (state.own pid).Owns pid state.shared)
      (fun state label owns tests => owns_atomic owns label tests)
      (fun state label owns tests => removesOwn_atomic owns label tests) owns_start
  · intro label loose
    have known := Machine.after_forall
      (fun state : LockState Pid => ∀ pid, (state.own pid).Known pid state.shared)
      (fun state label before => known_atomic before label) known_start labels
    rw [Machine.run, Machine.after_append]
    exact removesOwn_broken known loose

/-- The lock file of process 1 is removed by process 0, which has removed its own through
SignalHandler.unlock and comes to its atexit run.
-/
theorem removesOwn_secondRemoval
    : ¬ RemovesOwn atomicLockMachine
        (atomicLockMachine.run
          ([(0, .proceed true), (0, .proceed true), (0, .callUnlock), (0, .proceed true),
            (0, .proceed true), (1, .proceed true), (1, .proceed true), (0, .proceed true),
            (0, .proceed true)].map fun entry : Nat × LockEvent => ⟨entry.1, entry.2⟩))
        ⟨0, .proceed true⟩ := by
  intro removesOwn
  have own := removesOwn 1 (by decide) (by decide)
  cases own

end PgCluster.Backend
