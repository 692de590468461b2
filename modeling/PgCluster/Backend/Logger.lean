import PgCluster.Foundation.Machine
import Mathlib.Data.List.Induction

/-! PSCLogger: threads append their records to a queue and the flusher thread hands them to
the logging module, up to its final flush.
-/

namespace PgCluster.Backend

open Foundation

/-- The code of a log call; only the first four are compared with. -/
inductive LogCode where
  | debug
  | info
  | warning
  | error
  | other (code : String)
deriving DecidableEq, Repr

structure LogRecord where
  code : LogCode
  msg : String
deriving DecidableEq, Repr

/-- logging.DEBUG; a logger accepts Debug records at this level only. -/
def levelDebug : Int := 10

def levelInfo : Int := 20

def levelWarning : Int := 30

def levelError : Int := 40

/-- What a log call appends to the queue, comparison by comparison. -/
def LogRecord.accepted (logLevel : Int) (call : LogRecord) : List LogRecord :=
  (if call.code = .debug ∧ logLevel = levelDebug then [⟨.debug, call.msg⟩] else [])
    ++ (if call.code = .info ∧ logLevel ≤ levelInfo then [⟨.info, call.msg⟩] else [])
    ++ (if call.code = .warning ∧ logLevel ≤ levelWarning then [⟨.warning, call.msg⟩] else [])
    ++ (if call.code = .error ∧ logLevel ≤ levelError then [⟨.error, call.msg⟩] else [])

/-- The calls of the logging module that flush_data makes for a record of the queue. -/
def LogRecord.handOver (v : LogRecord) : List LogRecord :=
  (if v.code = .error then [⟨.error, v.msg⟩] else [])
    ++ (if v.code = .warning then [⟨.warning, v.msg⟩] else [])
    ++ (if v.code = .info then [⟨.info, v.msg⟩] else [])
    ++ (if v.code = .debug then [⟨.debug, v.msg⟩] else [])

/-- The next atomic step of the flusher thread. -/
inductive FlusherPosition where
  | loopTest
  | sleeping
  | flushTest
  | flushing
  | finalFlush
  | ended
deriving DecidableEq, Repr

/-- The logger with the local variables of its run method, and all that has been handed to
the logging module.
-/
structure PSCLogger where
  position : FlusherPosition
  liveIteration : Nat
  doStop : Bool
  logQueue : List LogRecord
  handed : List LogRecord
deriving DecidableEq, Repr

/-- The section of flush_data under lock_logger. -/
def PSCLogger.flushData (logger : PSCLogger) : PSCLogger :=
  { logger with
    logQueue := [], handed := logger.handed ++ logger.logQueue.flatMap LogRecord.handOver }

/-- The run method, one step. -/
def PSCLogger.run (logger : PSCLogger) : PSCLogger :=
  match logger.position with
  | .loopTest =>
      if logger.doStop then
        { logger with position := .finalFlush }
      else
        { logger with position := .sleeping }
  | .sleeping => { logger with position := .flushTest }
  | .flushTest =>
      if logger.liveIteration % 50 = 0 ∨ logger.doStop = true then
        { logger with position := .flushing }
      else
        { logger with position := .loopTest, liveIteration := logger.liveIteration + 1 }
  | .flushing =>
      { logger.flushData with
        position := .loopTest, liveIteration := logger.liveIteration + 1 }
  | .finalFlush => { logger.flushData with position := .ended }
  | .ended => logger

def PSCLogger.stop (logger : PSCLogger) : PSCLogger := { logger with doStop := true }

/-- The section of log under lock_logger. -/
def PSCLogger.log (logLevel : Int) (call : LogRecord) (logger : PSCLogger) : PSCLogger :=
  { logger with logQueue := logger.logQueue ++ call.accepted logLevel }

/-- Who takes the next step: a thread that calls log, the flusher, or a thread that calls
stop.
-/
inductive LogLabel (Thread : Type*) where
  | log (thread : Thread) (call : LogRecord)
  | flusher
  | stop

variable {Thread : Type*}

variable (Thread) in
def pscLogger (logLevel : Int) : Machine PSCLogger (LogLabel Thread) where
  start := ⟨.loopTest, 0, false, [], []⟩
  step logger
    | .log _ call => logger.log logLevel call
    | .flusher => logger.run
    | .stop => logger.stop

/-- The records that are accepted along a run, in the order of acceptance. -/
def acceptedRecords (logLevel : Int) (labels : List (LogLabel Thread)) : List LogRecord :=
  labels.flatMap
    (fun
      | .log _ call => call.accepted logLevel
      | .flusher => []
      | .stop => [])

/-- A call is accepted once or not at all, and what is accepted, flush_data hands over once,
by cases on the code.
-/
theorem LogRecord.accepted_cases (logLevel : Int) (call : LogRecord)
    : call.accepted logLevel = []
      ∨ call.accepted logLevel = [call] ∧ call.handOver = [call] := by
  rcases call with ⟨_ | _ | _ | _ | code, msg⟩
  case debug => by_cases enabled : logLevel = levelDebug <;> simp [accepted, handOver, enabled]
  case info => by_cases enabled : logLevel ≤ levelInfo <;> simp [accepted, handOver, enabled]
  case warning =>
      by_cases enabled : logLevel ≤ levelWarning <;> simp [accepted, handOver, enabled]
  case error => by_cases enabled : logLevel ≤ levelError <;> simp [accepted, handOver, enabled]
  case other => simp [accepted]

/-- All records of the queue have a code that flush_data compares with. -/
def PSCLogger.Known (logger : PSCLogger) : Prop := ∀ v ∈ logger.logQueue, v.handOver = [v]

theorem PSCLogger.Known.handOver_eq {logger : PSCLogger} (known : logger.Known)
    : logger.logQueue.flatMap LogRecord.handOver = logger.logQueue := by
  rw [List.flatMap_congr known, List.flatMap_singleton']

/-- A step of the flusher moves records from the front of the queue or none, by cases on the
position.
-/
theorem PSCLogger.run_handed {logger : PSCLogger} (known : logger.Known)
    : logger.run.handed ++ logger.run.logQueue = logger.handed ++ logger.logQueue
      ∧ (logger.run.logQueue = logger.logQueue ∨ logger.run.logQueue = []) := by
  unfold run flushData
  cases logger.position with
  | loopTest => by_cases stopped : logger.doStop <;> simp [stopped]
  | flushTest =>
      by_cases due : logger.liveIteration % 50 = 0 ∨ logger.doStop = true <;> simp [due]
  | sleeping | ended => exact ⟨rfl, .inl rfl⟩
  | flushing | finalFlush => exact ⟨by simp [known.handOver_eq], .inr rfl⟩

theorem PSCLogger.Known.run {logger : PSCLogger} (known : logger.Known)
    : logger.run.Known := by
  intro v member
  rcases (run_handed known).2 with same | empty
  · exact known v (same ▸ member)
  · simp [empty] at member

theorem PSCLogger.Known.log {logger : PSCLogger} (known : logger.Known) (logLevel : Int)
    (call : LogRecord)
    : (logger.log logLevel call).Known := by
  intro v member
  rcases List.mem_append.mp member with queued | new
  · exact known v queued
  · rcases call.accepted_cases logLevel with refused | ⟨once, handed⟩
    · simp [refused] at new
    · rw [once, List.mem_singleton] at new
      exact new ▸ handed

theorem pscLogger_known {logLevel : Int} (state : PSCLogger) (label : LogLabel Thread)
    (known : state.Known)
    : ((pscLogger Thread logLevel).step state label).Known := by
  cases label with
  | log thread call => exact known.log logLevel call
  | flusher => exact known.run
  | stop => exact known

/-- Along a run the records handed over and those still queued are the accepted ones. -/
theorem pscLogger_history {logLevel : Int} {state : PSCLogger} (known : state.Known)
    (labels : List (LogLabel Thread))
    : ((pscLogger Thread logLevel).after state labels).handed
        ++ ((pscLogger Thread logLevel).after state labels).logQueue
      = state.handed ++ state.logQueue ++ acceptedRecords logLevel labels := by
  refine Machine.history_after PSCLogger.Known (fun state => state.handed ++ state.logQueue) _
    pscLogger_known ?_ known labels
  intro state label known
  cases label with
  | log thread call => simp [pscLogger, PSCLogger.log]
  | flusher => simpa [pscLogger] using (PSCLogger.run_handed known).1
  | stop => simp [pscLogger, PSCLogger.stop]

/-- Behind the end of the flusher the queue only grows. -/
theorem pscLogger_ended {logLevel : Int} {state : PSCLogger} (ended : state.position = .ended)
    (labels : List (LogLabel Thread))
    : ((pscLogger Thread logLevel).after state labels).logQueue
      = state.logQueue ++ acceptedRecords logLevel labels := by
  refine Machine.history_after (fun state => state.position = .ended) PSCLogger.logQueue _
    ?_ ?_ ended labels
  · intro state label ended
    cases label <;> simp [pscLogger, PSCLogger.log, PSCLogger.run, PSCLogger.stop, ended]
  · intro state label ended
    cases label <;> simp [pscLogger, PSCLogger.log, PSCLogger.run, PSCLogger.stop, ended]

/-- The step that ends the flusher is its final flush. -/
theorem PSCLogger.run_ended {logger : PSCLogger} (working : logger.position ≠ .ended)
    : logger.run.position = .ended ↔ logger.position = .finalFlush := by
  unfold PSCLogger.run
  cases stands : logger.position with
  | loopTest | flushTest => simp only; split <;> simp
  | ended => exact absurd stands working
  | sleeping | flushing | finalFlush => simp

/-- A run in which the flusher has ended contains its final flush, by induction on the
labels from the end.
-/
theorem pscLogger_finalFlush {logLevel : Int} {labels : List (LogLabel Thread)}
    (ended : ((pscLogger Thread logLevel).run labels).position = .ended)
    : ∃ before behind,
        labels = before ++ .flusher :: behind
        ∧ ((pscLogger Thread logLevel).run before).position = .finalFlush := by
  induction labels using List.reverseRecOn with
  | nil => simp [Machine.run, pscLogger] at ended
  | append_singleton labels label ih =>
      by_cases earlier : ((pscLogger Thread logLevel).run labels).position = .ended
      · obtain ⟨before, behind, rfl, flushes⟩ := ih earlier
        exact ⟨before, behind ++ [label], by simp, flushes⟩
      · rw [Machine.run, Machine.after_append] at ended
        cases label with
        | log thread call => exact absurd ended earlier
        | stop => exact absurd ended earlier
        | flusher =>
            exact ⟨labels, [], rfl, (PSCLogger.run_ended earlier).mp ended⟩

/-- In every state the records handed over and those in the queue are the accepted ones in
their order, each once; when the flusher has ended, the ones accepted before its final flush
have been handed over and those accepted behind it are left.
-/
theorem handed_inOrder (logLevel : Int) (labels : List (LogLabel Thread))
    : let last := (pscLogger Thread logLevel).run labels
      last.handed ++ last.logQueue = acceptedRecords logLevel labels
      ∧ (last.position = .ended
        → ∃ before behind,
            labels = before ++ .flusher :: behind
            ∧ ((pscLogger Thread logLevel).run before).position = .finalFlush
            ∧ last.handed = acceptedRecords logLevel before
            ∧ last.logQueue = acceptedRecords logLevel behind) := by
  intro last
  have known : (pscLogger Thread logLevel).start.Known := fun v member => by
    simp [pscLogger] at member
  have history : last.handed ++ last.logQueue = acceptedRecords logLevel labels :=
    pscLogger_history known labels
  refine ⟨history, ?_⟩
  intro ended
  obtain ⟨before, behind, rfl, flushes⟩ := pscLogger_finalFlush ended
  let flushed :=
    (pscLogger Thread logLevel).step ((pscLogger Thread logLevel).run before) .flusher
  have same : last = (pscLogger Thread logLevel).after flushed behind := by
    simp [last, flushed, Machine.run, Machine.after_append]
  have ceased : flushed.position = .ended ∧ flushed.logQueue = [] := by
    simp [flushed, pscLogger, PSCLogger.run, PSCLogger.flushData] at flushes ⊢
    simp [flushes]
  have left : last.logQueue = acceptedRecords logLevel behind := by
    rw [same, pscLogger_ended ceased.1, ceased.2, List.nil_append]
  refine ⟨before, behind, rfl, flushes, ?_, left⟩
  rw [left] at history
  simpa [acceptedRecords] using history

/-- A thread that logs behind the final flush: its record is accepted and stays where it is. -/
theorem handed_incomplete
    : let labels : List (LogLabel (Fin 1)) :=
        [.stop, .flusher, .flusher, .log 0 ⟨.info, "Finished manager_1"⟩]
      let last := (pscLogger (Fin 1) levelDebug).run labels
      last.position = .ended
      ∧ last.handed = []
      ∧ acceptedRecords levelDebug labels = [⟨.info, "Finished manager_1"⟩] := by
  decide

end PgCluster.Backend
