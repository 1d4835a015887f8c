import Whyslow.Bpf
import Whyslow.Causal
import Whyslow.Ebpf

/-! One session of `whyslow run` or `whyslow attach` (`main.rs`, `child.rs`, `bpf.rs`): the calls the command makes, with
    their results, between what the kernel does at the same time. Up to the drain the command is one thread that takes
    its calls in turn; each of them may fail, and the first failure ends it. -/

namespace Whyslow

/-! ### Programs -/

inductive Program where
  | schedSwitch
  | futexEnter
  | futexExit
  | blockRqIssue
  | blockRqComplete
  deriving DecidableEq

structure Tracepoint where
  program : Program
  progName : String
  category : String
  tpName : String

/-- `TRACEPOINTS`, in the order they are attached in. -/
def tracepoints : List Tracepoint :=
  [⟨.schedSwitch, "sched_switch", "sched", "sched_switch"⟩,
    ⟨.futexEnter, "futex_enter", "syscalls", "sys_enter_futex"⟩,
    ⟨.futexExit, "futex_exit", "syscalls", "sys_exit_futex"⟩,
    ⟨.blockRqIssue, "block_rq_issue", "block", "block_rq_issue"⟩,
    ⟨.blockRqComplete, "block_rq_complete", "block", "block_rq_complete"⟩]

def Step.program? : Step → Option Program
  | .setTargetTgid _ => none
  | .schedSwitch _ _ => some .schedSwitch
  | .futexEnter _ _ => some .futexEnter
  | .futexExit _ => some .futexExit
  | .blockRqIssue _ _ => some .blockRqIssue
  | .blockRqComplete _ _ => some .blockRqComplete

/-! ### The command -/

inductive Command where
  | run (command : List String)
  | attach (pid : UInt32) (durationSecs : Option UInt64)

structure Cli where
  command : Command
  traceOut : String

/-- An error with its causes, the outermost first. A panic is the error that is its message. -/
abbrev Failure := List String

/-- The call the command is at. -/
inductive SessionPc where
  | requireRoot
  | spawnStopped
  | waitUntilStopped
  | checkAlive
  | load
  | attach (i : Nat)
  | setTargetTgid
  | captureAnchor
  | resume
  | installHandler
  | setDeadline
  | openRing
  | drain
  | writeTo
  | done
  | failed (err : Failure)
  deriving DecidableEq

/-- The traced process: its `execve` is done and it is on the way to the trap, it is stopped there, its program runs, it
    is a zombie, or there is no process with its id. -/
inductive Target where
  | none
  | execed
  | stopped
  | running
  | zombie
  deriving DecidableEq

structure Session where
  pc : SessionPc
  pid : UInt32
  target : Target
  attached : List Program
  maps : Maps
  drain : Drain
  anchors : UInt64 × UInt64
  stopRequested : Bool
  deadlinePassed : Bool
  /-- The trace in the file, once it is written to its end. -/
  file : Option TraceFile

/-- What `waitpid` reports: an error, a stop, an exit, or something else. -/
inductive WaitStatus where
  | failed (err : String)
  | stopped
  | ended
  | other

inductive AttachResult where
  | missing
  | notTracePoint (err : Failure)
  | loadFailed (err : Failure)
  | attachFailed (err : Failure)
  | attached

/-- A map of the object is not there, is of another type, or its operation fails. -/
inductive MapResult where
  | missing
  | failed (err : Failure)
  | ok

/-- A call of the command with its result, or a step of the kernel. -/
inductive SessionAct where
  | geteuid (euid : UInt32)
  | spawn (result : Except Failure UInt32)
  | waitpid (status : WaitStatus)
  | kill (ok : Bool)
  | load (result : Except Failure Unit)
  | attach (result : AttachResult)
  | setTargetTgid (result : MapResult)
  | captureAnchor (realtime monotonic : UInt64)
  | detach (result : Except String Unit)
  | installHandler
  | setDeadline (now : UInt64)
  | openRing (result : MapResult)
  | next
  | decode
  | shouldStop (stop : Bool)
  | poll
  | writeTo (result : Except Failure Unit)
  | trap
  | exit
  | reaped
  | released
  | tracepoint (st : Step)
  | commit (i : Nat) (padding : Vector UInt8 4)
  | sigint
  | deadline

/-! ### Errors -/

def needsRoot : Failure :=
  ["whyslow needs root or CAP_BPF to load its eBPF programs. Try again with sudo (this includes containers / " ++
    "restricted cloud shells / WSL without CAP_BPF configured -- see README.md)."]

def waitFailure (pid : UInt32) : WaitStatus → Option Failure
  | .failed err => some ["waiting for child to reach pre-exec stop point", "waitpid(" ++ toString pid ++ ") failed: " ++ err]
  | .ended =>
    some ["waiting for child to reach pre-exec stop point",
      "child " ++ toString pid ++ " exited before tracing could start"]
  | .stopped | .other => none

def attachFailure (tp : Tracepoint) : AttachResult → Option Failure
  | .missing => some ["BPF program `" ++ tp.progName ++ "` missing from object"]
  | .notTracePoint err => some err
  | .loadFailed err => some (("loading BPF program `" ++ tp.progName ++ "`") :: err)
  | .attachFailed err => some (("attaching to tracepoint " ++ tp.category ++ ":" ++ tp.tpName) :: err)
  | .attached => none

def mapFailure (name : String) : MapResult → Option Failure
  | .missing => some [name ++ " map missing from object"]
  | .failed err => some err
  | .ok => none

/-- `Instant::now() + Duration::from_secs(secs)` panics if the seconds do not fit an `i64`. -/
def deadlineFailure (now : UInt64) : Command → Option Failure
  | .attach _ (some secs) =>
    if now.toNat + secs.toNat < 2 ^ 63 then none else some ["overflow when adding duration to instant"]
  | .attach _ none | .run _ => none

/-! ### Steps -/

def Cli.start (cli : Cli) (n : Sizes) (target : Target) : Session where
  pc := .requireRoot
  pid := match cli.command with | .run _ => 0 | .attach pid _ => pid
  target := match cli.command with | .run _ => .none | .attach _ _ => target
  attached := []
  maps := Maps.loaded n
  drain := Drain.start []
  anchors := (0, 0)
  stopRequested := false
  deadlinePassed := false
  file := none

/-- `kill(pid, 0)` as the process answers it. An id that is not positive as a `pid_t` stands for a group of processes,
    which may answer anything. -/
def Session.KillAnswers (s : Session) (ok : Bool) : Prop :=
  0 < s.pid.toNat → s.pid.toNat < 2 ^ 31 → ok = decide (s.target ≠ .none)

/-- The closure `should_stop`: the child has exited, or the handler has run, the deadline is over or the process is
    gone. -/
def Session.StopAnswers (s : Session) (stop : Bool) : Command → Prop
  | .run _ => stop = decide (s.target = .zombie)
  | .attach _ _ => if s.stopRequested || s.deadlinePassed then stop = true else s.KillAnswers (!stop)

/-- The process in whose code the program runs, for the programs of system calls. -/
def Step.caller? : Step → Option UInt32
  | .futexEnter h _ | .futexExit h => some h.currentTgid
  | _ => none

/-- The process that makes a request of the block layer. -/
def Step.issuer? : Step → Option UInt32
  | .blockRqIssue h _ => some h.currentTgid
  | _ => none

/-- The process whose thread leaves the CPU. -/
def Step.leaver? : Step → Option UInt32
  | .schedSwitch h _ => some h.currentTgid
  | _ => none

/-- A process makes system calls while its program runs, and requests also while `execve` reads its file. One that is
    stopped is off the CPU. -/
def Session.Possible (s : Session) (st : Step) : Prop :=
  s.pid ≠ 0 → (st.caller? = some s.pid → s.target = .running) ∧
    (st.issuer? = some s.pid → s.target = .running ∨ s.target = .execed) ∧
    (st.leaver? = some s.pid → s.target ≠ .stopped)

/-- The programs that a thread waits for have run to their end. What may be under way is the completion of a request.
    Another process is not thought of here: one whose thread has the id of a dead thread of the target may be on its way
    through the programs, and the record it has not committed yet, of a switch or of a call, is ruled out too. -/
def Session.Settled (s : Session) : Prop :=
  ∀ i < s.drain.ring.records.length, s.drain.ring.records[i]? = some none →
    (s.maps.events[i]?).all (·.eventType = eventBlockIo)

def Command.isAttach : Command → Bool
  | .run _ => false
  | .attach _ _ => true

def Command.hasDeadline : Command → Bool
  | .attach _ (some _) => true
  | _ => false

def SessionPc.isAttach : SessionPc → Bool
  | .attach _ => true
  | _ => false

/-- The command has come to its end. -/
def SessionPc.isOver : SessionPc → Bool
  | .done | .failed _ => true
  | _ => false

/-- The id of a process is not zero. -/
def spawnAnswers : Except Failure UInt32 → Prop
  | .ok pid => pid ≠ 0
  | .error _ => True

/-- The report of a process is that of its state, a stop or an exit. -/
def WaitStatus.Reports (target : Target) : WaitStatus → Prop
  | .stopped => target = .stopped
  | .ended => target = .zombie
  | .failed _ | .other => True

/-- Only a process that is stopped can be detached from. -/
def detachAnswers (target : Target) : Except String Unit → Prop
  | .ok _ => target = .stopped
  | .error _ => True

def Session.Allows (cli : Cli) (s : Session) : SessionAct → Prop
  | .geteuid _ => s.pc = .requireRoot
  | .spawn result => s.pc = .spawnStopped ∧ spawnAnswers result
  | .waitpid status => s.pc = .waitUntilStopped ∧ status.Reports s.target
  | .kill ok => s.pc = .checkAlive ∧ s.KillAnswers ok
  | .load _ => s.pc = .load
  | .attach _ => s.pc.isAttach
  | .setTargetTgid _ => s.pc = .setTargetTgid
  | .captureAnchor _ _ => s.pc = .captureAnchor
  | .detach result => s.pc = .resume ∧ detachAnswers s.target result
  | .installHandler => s.pc = .installHandler
  | .setDeadline now => s.pc = .setDeadline ∧ now.toNat < 2 ^ 63
  | .openRing _ => s.pc = .openRing
  | .next => s.pc = .drain ∧ s.drain.Allows .next
  | .decode => s.pc = .drain ∧ s.drain.Allows .decode
  | .shouldStop stop => s.pc = .drain ∧ s.drain.Allows (.shouldStop stop) ∧ s.StopAnswers stop cli.command
  | .poll => s.pc = .drain ∧ s.drain.Allows .poll
  | .writeTo _ => s.pc = .writeTo
  | .trap => s.target = .execed
  | .exit => (s.target = .execed ∨ s.target = .stopped ∨ s.target = .running) ∧ s.Settled
  -- The child of `run` is reaped by the command alone.
  | .reaped => s.target = .zombie ∧ cli.command.isAttach
  -- A tracer that is gone lets its tracee run.
  | .released => s.target = .stopped ∧ s.pc.isOver
  | .tracepoint st => st.program?.isSome ∧ s.Possible st
  | .commit i _ => s.drain.ring.records[i]? = some none
  | .sigint => (s.pc = .setDeadline ∨ s.pc = .openRing ∨ s.pc = .drain) ∧ cli.command.isAttach
  | .deadline => (s.pc = .openRing ∨ s.pc = .drain) ∧ cli.command.hasDeadline

section Decidable
variable (cli : Cli) (s : Session)

instance (ok : Bool) : Decidable (s.KillAnswers ok) := inferInstanceAs (Decidable (_ → _ → _))

instance (stop : Bool) : (command : Command) → Decidable (s.StopAnswers stop command)
  | .run _ => inferInstanceAs (Decidable (stop = decide (s.target = .zombie)))
  | .attach _ _ =>
    inferInstanceAs (Decidable (if s.stopRequested || s.deadlinePassed then stop = true else s.KillAnswers (!stop)))

instance (st : Step) : Decidable (s.Possible st) := inferInstanceAs (Decidable (_ → _ ∧ _ ∧ _))

instance : Decidable s.Settled := inferInstanceAs (Decidable (∀ i < _, _ → _))

instance : (result : Except Failure UInt32) → Decidable (spawnAnswers result)
  | .ok pid => inferInstanceAs (Decidable (pid ≠ 0))
  | .error _ => isTrue trivial

instance (target : Target) : (status : WaitStatus) → Decidable (status.Reports target)
  | .stopped => inferInstanceAs (Decidable (target = .stopped))
  | .ended => inferInstanceAs (Decidable (target = .zombie))
  | .failed _ | .other => isTrue trivial

instance (target : Target) : (result : Except String Unit) → Decidable (detachAnswers target result)
  | .ok _ => inferInstanceAs (Decidable (target = .stopped))
  | .error _ => isTrue trivial

instance Session.decidableAllows : (a : SessionAct) → Decidable (s.Allows cli a)
  | .geteuid _ | .load _ | .setTargetTgid _ | .captureAnchor _ _ | .installHandler | .openRing _ | .writeTo _ =>
    inferInstanceAs (Decidable (s.pc = _))
  | .attach _ => inferInstanceAs (Decidable (s.pc.isAttach = true))
  | .setDeadline now => inferInstanceAs (Decidable (s.pc = .setDeadline ∧ now.toNat < 2 ^ 63))
  | .spawn result => inferInstanceAs (Decidable (s.pc = .spawnStopped ∧ spawnAnswers result))
  | .waitpid status => inferInstanceAs (Decidable (s.pc = .waitUntilStopped ∧ status.Reports s.target))
  | .kill ok => inferInstanceAs (Decidable (s.pc = .checkAlive ∧ s.KillAnswers ok))
  | .detach result => inferInstanceAs (Decidable (s.pc = .resume ∧ detachAnswers s.target result))
  | .next => inferInstanceAs (Decidable (s.pc = .drain ∧ s.drain.Allows .next))
  | .decode => inferInstanceAs (Decidable (s.pc = .drain ∧ s.drain.Allows .decode))
  | .poll => inferInstanceAs (Decidable (s.pc = .drain ∧ s.drain.Allows .poll))
  | .shouldStop stop =>
    inferInstanceAs (Decidable (s.pc = .drain ∧ s.drain.Allows (.shouldStop stop) ∧ s.StopAnswers stop cli.command))
  | .trap => inferInstanceAs (Decidable (s.target = .execed))
  | .exit => inferInstanceAs (Decidable ((s.target = .execed ∨ s.target = .stopped ∨ s.target = .running) ∧ s.Settled))
  | .reaped => inferInstanceAs (Decidable (s.target = .zombie ∧ cli.command.isAttach = true))
  | .released => inferInstanceAs (Decidable (s.target = .stopped ∧ s.pc.isOver = true))
  | .tracepoint st => inferInstanceAs (Decidable (st.program?.isSome = true ∧ s.Possible st))
  | .commit i _ => inferInstanceAs (Decidable (s.drain.ring.records[i]? = some none))
  | .sigint =>
    inferInstanceAs (Decidable ((s.pc = .setDeadline ∨ s.pc = .openRing ∨ s.pc = .drain) ∧ cli.command.isAttach = true))
  | .deadline => inferInstanceAs (Decidable ((s.pc = .openRing ∨ s.pc = .drain) ∧ cli.command.hasDeadline = true))

end Decidable

def Session.fail (s : Session) (err : Failure) : Session := { s with pc := .failed err }

/-- Go on to the next call, or fail. -/
def Session.goOn (s : Session) (err : Option Failure) (pc : SessionPc) : Session :=
  match err with
  | some err => s.fail err
  | none => { s with pc := pc }

/-- A program runs if it is attached. The event it writes is a reserved record of the ring buffer before it is a
    committed one. -/
def Session.fire (s : Session) (st : Step) : Session :=
  if ∃ prog ∈ s.attached, st.program? = some prog then
    let maps := s.maps.step st
    { s with maps := maps, drain := if maps.events.length = s.maps.events.length then s.drain else s.drain.step .reserve }
  else s

/-- One step of `drain_ring_buffer`; behind its return the events are written to the file. -/
def Session.consume (s : Session) (a : DrainAct) : Session :=
  { s with drain := s.drain.step a, pc := if (s.drain.step a).pc = .returned then .writeTo else s.pc }

def Session.step (cli : Cli) (s : Session) : SessionAct → Session
  | .geteuid euid =>
    if euid ≠ 0 then s.fail needsRoot
    else { s with pc := match cli.command with | .run _ => .spawnStopped | .attach _ _ => .checkAlive }
  | .spawn (.error err) =>
    match cli.command with
    | .run command => s.fail (("spawning `" ++ String.intercalate " " command ++ "`") :: err)
    | .attach _ _ => s
  | .spawn (.ok pid) => { s with pid := pid, target := .execed, pc := .waitUntilStopped }
  | .waitpid status =>
    let s := match status with | .ended => { s with target := .none } | _ => s
    s.goOn (waitFailure s.pid status) (match status with | .stopped => .load | _ => .waitUntilStopped)
  | .kill ok => s.goOn (if ok then none else some ["no such process: " ++ toString s.pid]) .load
  | .load (.error err) => s.fail ("loading whyslow-ebpf object" :: err)
  | .load (.ok _) => { s with pc := .attach 0 }
  | .attach result =>
    match s.pc with
    | .attach i =>
      match tracepoints[i]? with
      | some tp =>
        let s := match result with | .attached => { s with attached := s.attached ++ [tp.program] } | _ => s
        s.goOn (attachFailure tp result) (if i + 1 < tracepoints.length then .attach (i + 1) else .setTargetTgid)
      | none => s
    | _ => s
  | .setTargetTgid result =>
    let s := match result with | .ok => { s with maps := s.maps.step (.setTargetTgid s.pid) } | _ => s
    s.goOn (mapFailure "TARGET_TGID" result) .captureAnchor
  | .captureAnchor realtime monotonic =>
    { s with
      anchors := (realtime, monotonic), pc := match cli.command with | .run _ => .resume | .attach _ _ => .installHandler }
  | .detach (.error err) =>
    s.fail ["resuming child after attaching BPF", "PTRACE_DETACH(" ++ toString s.pid ++ ") failed: " ++ err]
  | .detach (.ok _) => { s with target := .running, pc := .openRing }
  | .installHandler => { s with pc := .setDeadline }
  | .setDeadline now => s.goOn (deadlineFailure now cli.command) .openRing
  | .openRing result => s.goOn (mapFailure "EVENTS" result) .drain
  | .next => s.consume .next
  | .decode => s.consume .decode
  | .shouldStop stop =>
    let s := match cli.command with | .run _ => if stop then { s with target := .none } else s | .attach _ _ => s
    s.consume (.shouldStop stop)
  | .poll => s.consume .poll
  | .writeTo (.error err) => s.fail (("writing trace to " ++ cli.traceOut) :: err)
  | .writeTo (.ok _) => { s with file := some ⟨s.anchors.1, s.anchors.2, s.drain.events⟩, pc := .done }
  | .trap => { s with target := .stopped }
  | .exit => { s with target := .zombie }
  | .reaped => { s with target := .none }
  | .released => { s with target := .running }
  | .tracepoint st => s.fire st
  | .commit i padding =>
    match s.maps.events[i]? with
    | some ev => { s with drain := s.drain.step (.commit i (ev.bytes padding)) }
    | none => s
  | .sigint => { s with stopRequested := true }
  | .deadline => { s with deadlinePassed := true }

end Whyslow
