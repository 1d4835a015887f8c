import Whyslow.Lib.BoundedMap
import Whyslow.Common

/-! The probes of `whyslow-ebpf`: the maps they share, and one function for each tracepoint program. A
    program reads its tracepoint record (`none` is a failed read), calls the BPF helpers and updates the
    maps; it runs to its end before the next one starts. -/

namespace Whyslow

/-! ### Tracepoint records (`vmlinux.rs`), with the fields the programs read -/

/-- `sched:sched_switch` -/
structure TraceEventRawSchedSwitch where
  prevComm : Comm
  prevPid : Int32
  prevState : Int64
  nextPid : Int32
  deriving DecidableEq

/-- `syscalls:sys_enter_futex` -/
structure TraceEventRawSysEnter where
  args : Vector UInt64 6
  deriving DecidableEq

def TraceEventRawSysEnter.uaddr (evt : TraceEventRawSysEnter) : UInt64 := evt.args[0]

def TraceEventRawSysEnter.op (evt : TraceEventRawSysEnter) : UInt32 := evt.args[1].toUInt32

/-- `block:block_rq_issue` -/
structure TraceEventRawBlockRq where
  dev : UInt32
  sector : UInt64
  deriving DecidableEq

/-- `block:block_rq_complete` -/
structure TraceEventRawBlockRqCompletion where
  dev : UInt32
  sector : UInt64
  deriving DecidableEq

def futexWait : UInt32 := 0
def futexWake : UInt32 := 1
def futexWaitBitset : UInt32 := 9
def futexWakeBitset : UInt32 := 10
def futexPrivateFlag : UInt32 := 128
def futexClockRealtime : UInt32 := 256
def futexCmdMask : UInt32 := ~~~(futexPrivateFlag ||| futexClockRealtime)

def taskRunning : Int64 := 0

/-! ### Maps -/

structure BlockStart where
  ts : UInt64
  tgid : UInt32
  comm : Comm
  deriving DecidableEq

structure FutexStart where
  ts : UInt64
  uaddr : UInt64
  op : UInt32
  tgid : UInt32
  comm : Comm
  deriving DecidableEq

structure BlockIoStart where
  ts : UInt64
  tgid : UInt32
  tid : UInt32
  comm : Comm
  deriving DecidableEq

/-- The maps of the object: the target slot, the three start maps and the ring buffer, which holds the
    events written so far. -/
structure Maps where
  targetTgid : UInt32
  blockStart : BoundedMap UInt32 BlockStart
  futexStart : BoundedMap UInt32 FutexStart
  blockIoStart : BoundedMap UInt64 BlockIoStart
  events : List Event

structure Sizes where
  blockStart : Nat
  futexStart : Nat
  blockIoStart : Nat

def Sizes.source : Sizes := ⟨10240, 10240, 4096⟩

def Maps.loaded (n : Sizes) : Maps where
  targetTgid := 0
  blockStart := .empty n.blockStart
  futexStart := .empty n.futexStart
  blockIoStart := .empty n.blockIoStart
  events := []

/-- What the helpers return while a program runs: `bpf_ktime_get_ns`, `bpf_get_current_pid_tgid`,
    `bpf_get_current_comm` (`none` is an error), and whether the ring buffer is full. -/
structure Helpers where
  ktimeGetNs : UInt64
  currentPidTgid : UInt64
  currentComm : Option Comm
  ringFull : Bool
  deriving DecidableEq

def Helpers.currentTgid (h : Helpers) : UInt32 := (h.currentPidTgid >>> 32).toUInt32

def Helpers.currentTid (h : Helpers) : UInt32 := (h.currentPidTgid &&& 0xFFFFFFFF).toUInt32

def Helpers.comm (h : Helpers) : Comm := h.currentComm.getD (Vector.replicate taskCommLen 0)

/-- A full ring buffer drops the event. -/
def Maps.emit (m : Maps) (h : Helpers) (ev : Event) : Maps :=
  if h.ringFull then m else { m with events := m.events ++ [ev] }

/-! ### Programs -/

def trySchedSwitch (h : Helpers) (ctx : Option TraceEventRawSchedSwitch) (m : Maps) : Except UInt32 UInt32 × Maps :=
  let target := m.targetTgid
  if target = 0 then (.ok 0, m) else
  match ctx with
  | none => (.error 1, m)
  | some evt =>
    let ts := h.ktimeGetNs
    let prevTid := evt.prevPid.toUInt32
    let nextTid := evt.nextPid.toUInt32
    let m :=
      if evt.prevState ≠ taskRunning then
        -- The program runs in the outgoing task's context, so "current" is the outgoing task.
        let prevTgid := h.currentTgid
        if prevTgid = target then
          { m with blockStart := m.blockStart.put prevTid { ts, tgid := prevTgid, comm := evt.prevComm } }
        else m
      else m
    match m.blockStart.get nextTid with
    | some start =>
      let m := { m with blockStart := m.blockStart.remove nextTid }
      let duration := Words.saturatingSub ts start.ts
      (.ok 0, m.emit h (Event.new ts duration 0 start.tgid nextTid eventSchedBlock start.comm))
    | none => (.ok 0, m)

def tryFutexEnter (h : Helpers) (ctx : Option TraceEventRawSysEnter) (m : Maps) : Except UInt32 UInt32 × Maps :=
  let target := m.targetTgid
  let tgid := h.currentTgid
  if target = 0 ∨ tgid ≠ target then (.ok 0, m) else
  match ctx with
  | none => (.error 1, m)
  | some evt =>
    let uaddr := evt.uaddr
    let op := evt.op
    let tid := h.currentTid
    let comm := h.comm
    let ts := h.ktimeGetNs
    (.ok 0, { m with futexStart := m.futexStart.put tid { ts, uaddr, op, tgid, comm } })

/-- The event type of a futex operation; the other operations are not recorded. -/
def futexEventType (op : UInt32) : Option UInt8 :=
  let baseOp := op &&& futexCmdMask
  if baseOp = futexWait ∨ baseOp = futexWaitBitset then some eventFutexWait
  else if baseOp = futexWake ∨ baseOp = futexWakeBitset then some eventFutexWake
  else none

def tryFutexExit (h : Helpers) (m : Maps) : Except UInt32 UInt32 × Maps :=
  let tid := h.currentTid
  match m.futexStart.get tid with
  | none => (.ok 0, m)
  | some start =>
    let m := { m with futexStart := m.futexStart.remove tid }
    let ts := h.ktimeGetNs
    let duration := Words.saturatingSub ts start.ts
    match futexEventType start.op with
    | none => (.ok 0, m)
    | some eventType => (.ok 0, m.emit h (Event.new ts duration start.uaddr start.tgid tid eventType start.comm))

def tryBlockRqIssue (h : Helpers) (ctx : Option TraceEventRawBlockRq) (m : Maps) : Except UInt32 UInt32 × Maps :=
  let target := m.targetTgid
  let tgid := h.currentTgid
  if target = 0 ∨ tgid ≠ target then (.ok 0, m) else
  match ctx with
  | none => (.error 1, m)
  | some evt =>
    let tid := h.currentTid
    let comm := h.comm
    let ts := h.ktimeGetNs
    let key := packBlockKey evt.dev evt.sector
    (.ok 0, { m with blockIoStart := m.blockIoStart.put key { ts, tgid, tid, comm } })

/-- Not filtered by the current process: the completion runs in interrupt context. -/
def tryBlockRqComplete (h : Helpers) (ctx : Option TraceEventRawBlockRqCompletion) (m : Maps) :
    Except UInt32 UInt32 × Maps :=
  match ctx with
  | none => (.error 1, m)
  | some evt =>
    let key := packBlockKey evt.dev evt.sector
    match m.blockIoStart.get key with
    | none => (.ok 0, m)
    | some start =>
      let m := { m with blockIoStart := m.blockIoStart.remove key }
      let ts := h.ktimeGetNs
      let duration := Words.saturatingSub ts start.ts
      (.ok 0, m.emit h (Event.new ts duration key start.tgid start.tid eventBlockIo start.comm))

/-! ### Steps -/

/-- One atomic step: userspace sets the target (`set_target_tgid`), or a program runs. -/
inductive Step where
  | setTargetTgid (tgid : UInt32)
  | schedSwitch (h : Helpers) (ctx : Option TraceEventRawSchedSwitch)
  | futexEnter (h : Helpers) (ctx : Option TraceEventRawSysEnter)
  | futexExit (h : Helpers)
  | blockRqIssue (h : Helpers) (ctx : Option TraceEventRawBlockRq)
  | blockRqComplete (h : Helpers) (ctx : Option TraceEventRawBlockRqCompletion)
  deriving DecidableEq

def Maps.step (m : Maps) : Step → Maps
  | .setTargetTgid tgid => { m with targetTgid := tgid }
  | .schedSwitch h ctx => (trySchedSwitch h ctx m).2
  | .futexEnter h ctx => (tryFutexEnter h ctx m).2
  | .futexExit h => (tryFutexExit h m).2
  | .blockRqIssue h ctx => (tryBlockRqIssue h ctx m).2
  | .blockRqComplete h ctx => (tryBlockRqComplete h ctx m).2

def Maps.run (n : Sizes) (steps : List Step) : Maps := steps.foldl Maps.step (Maps.loaded n)

def Step.ktime? : Step → Option UInt64
  | .setTargetTgid _ => none
  | .schedSwitch h _ | .futexEnter h _ | .futexExit h | .blockRqIssue h _ | .blockRqComplete h _ => some h.ktimeGetNs

end Whyslow
