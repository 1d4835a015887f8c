import Whyslow.Lib.Extremum
import Whyslow.Trace

/-! The causal inference of `whyslow-cli` (`causal.rs`): typed event lists, the bounded-window joins,
    the two classifiers, and the walk from a stall to its causes. A line of a chain is kept as the
    arguments of the `format!` that prints it; `Line.render` gives the text. -/

namespace Whyslow

def matchWindowNs : UInt64 := 5000000

def maxChainDepth : Nat := 8

/-! ### Joins -/

structure Typed where
  block : List TraceEvent
  futexWait : List TraceEvent
  futexWake : List TraceEvent
  blockIo : List TraceEvent

def Typed.push (t : Typed) (e : TraceEvent) : Typed :=
  if e.eventType = eventSchedBlock then { t with block := t.block ++ [e] }
  else if e.eventType = eventFutexWait then { t with futexWait := t.futexWait ++ [e] }
  else if e.eventType = eventFutexWake then { t with futexWake := t.futexWake ++ [e] }
  else if e.eventType = eventBlockIo then { t with blockIo := t.blockIo ++ [e] }
  else t

def Typed.partition (events : List TraceEvent) : Typed := events.foldl Typed.push ⟨[], [], [], []⟩

/-- The latest candidate with `pred` at or before `anchorTs`, within the window. -/
def nearestPreceding (candidates : List TraceEvent) (anchorTs : UInt64) (pred : TraceEvent → Bool) :
    Option TraceEvent :=
  Extremum.maxByKey (·.timestampNs.toNat) (candidates.filter fun e =>
    pred e && decide (e.timestampNs ≤ anchorTs) && decide (anchorTs - e.timestampNs ≤ matchWindowNs))

/-- The earliest candidate with `pred` at or after `anchorTs`, within the window. -/
def nearestFollowing (candidates : List TraceEvent) (anchorTs : UInt64) (pred : TraceEvent → Bool) :
    Option TraceEvent :=
  Extremum.minByKey (·.timestampNs.toNat) (candidates.filter fun e =>
    pred e && decide (e.timestampNs ≥ anchorTs) && decide (e.timestampNs - anchorTs ≤ matchWindowNs))

inductive Cause where
  | futex (wait : TraceEvent)
  | blockIo (io : TraceEvent)
  | unknown
  deriving DecidableEq

/-- What a resume of `tid` at `resumeTs` was the tail end of. -/
def classifyResumeCause (tid : UInt32) (resumeTs : UInt64) (typed : Typed) : Cause :=
  let fw := nearestFollowing typed.futexWait resumeTs fun e => e.tid == tid
  let io := nearestPreceding typed.blockIo resumeTs fun e => e.tid == tid
  match fw, io with
  | some f, some i =>
    let fDist := Words.saturatingSub f.timestampNs resumeTs
    let ioDist := Words.saturatingSub resumeTs i.timestampNs
    if fDist ≤ ioDist then .futex f else .blockIo i
  | some f, none => .futex f
  | none, some i => .blockIo i
  | none, none => .unknown

/-- What `tid` finished last before `anchorTs`. -/
def classifyPriorCause (tid : UInt32) (anchorTs : UInt64) (typed : Typed) : Cause :=
  let fw := nearestPreceding typed.futexWait anchorTs fun e => e.tid == tid
  let io := nearestPreceding typed.blockIo anchorTs fun e => e.tid == tid
  match fw, io with
  | some f, some i => if f.timestampNs ≥ i.timestampNs then .futex f else .blockIo i
  | some f, none => .futex f
  | none, some i => .blockIo i
  | none, none => .unknown

/-! ### The host -/

/-- What the engine takes from its surroundings: the file name a symlink points at (`none` when it does
    not resolve), the local hour, minute and second of a Unix time, Rust's `{:.2}` of a float, and
    whether output is coloured. -/
structure Host where
  readLink : String → Option String
  localtime : UInt64 → Nat × Nat × Nat
  fixed2 : Float → String
  colorEnabled : Bool

structure DevNames where
  cache : AList fun _ : UInt32 => String

def DevNames.new : DevNames := ⟨∅⟩

def resolveDev (host : Host) (dev : UInt32) : String :=
  let major := toString (dev >>> 20)
  let minor := toString (dev &&& 0xFFFFF)
  (host.readLink ("/sys/dev/block/" ++ major ++ ":" ++ minor)).getD ("dev" ++ major ++ ":" ++ minor)

def DevNames.name (host : Host) (names : DevNames) (dev : UInt32) : String × DevNames :=
  match names.cache.lookup dev with
  | some n => (n, names)
  | none =>
    let name := resolveDev host dev
    (name, ⟨names.cache.insert dev name⟩)

/-! ### Lines -/

/-- One line of a chain: the arguments of its `format!`. The first three are headlines, whose `wall` is
    the wall-clock start of the stall. -/
inductive Line where
  | blockedOnFutex (wall : UInt64) (tid : UInt32) (duration key : UInt64)
  | blockedOnBlockIo (wall : UInt64) (tid : UInt32) (duration : UInt64) (dev : String) (sector : UInt32)
  | blockedUnknown (wall : UInt64) (tid : UInt32) (duration : UInt64)
  | wokenBy (tid : UInt32)
  | priorFutex (tid : UInt32) (duration key : UInt64)
  | priorBlockIo (tid : UInt32) (duration : UInt64) (dev : String) (sector : UInt32)
  deriving DecidableEq

structure Chain where
  lines : List Line
  deriving DecidableEq

def padLeft (width n : Nat) : String :=
  let digits := (toString n).toList
  String.ofList (List.replicate (width - digits.length) '0' ++ digits)

def formatWallTime (host : Host) (unixNs : UInt64) : String :=
  let secs := unixNs / 1000000000
  let millis := (unixNs % 1000000000) / 1000000
  let tm := host.localtime secs
  padLeft 2 tm.1 ++ ":" ++ padLeft 2 tm.2.1 ++ ":" ++ padLeft 2 tm.2.2 ++ "." ++ padLeft 3 millis.toNat

def formatDuration (host : Host) (ns : UInt64) : String :=
  if ns ≥ 1000000000 then host.fixed2 (ns.toFloat / 1000000000) ++ "s"
  else if ns ≥ 1000000 then toString (ns / 1000000) ++ "ms"
  else if ns ≥ 1000 then toString (ns / 1000) ++ "µs"
  else toString ns ++ "ns"

def paint (host : Host) (code s : String) : String :=
  if host.colorEnabled then "\x1b[" ++ code ++ "m" ++ s ++ "\x1b[0m" else s

def dim (host : Host) : String → String := paint host "2"
def boldYellow (host : Host) : String → String := paint host "1;93"
def boldRed (host : Host) : String → String := paint host "1;91"
def magenta (host : Host) : String → String := paint host "1;95"
def cyan (host : Host) : String → String := paint host "1;96"
def green (host : Host) : String → String := paint host "1;92"
def blue (host : Host) : String → String := paint host "1;94"

def futexText (host : Host) (key : UInt64) : String :=
  magenta host ("futex 0x" ++ String.ofList (Nat.toDigits 16 key.toNat))

def blockIoText (host : Host) (dev : String) (sector : UInt32) : String :=
  cyan host ("block I/O (dev " ++ dev ++ ", sector " ++ toString sector ++ ")")

def blockedText (host : Host) (tid : UInt32) (duration : UInt64) : String :=
  boldYellow host ("tid " ++ toString tid) ++ " blocked " ++ boldRed host (formatDuration host duration)

def headlineText (host : Host) (wall : UInt64) (tid : UInt32) (duration : UInt64) : String :=
  blue host (formatWallTime host wall) ++ " " ++ dim host "—" ++ " " ++ blockedText host tid duration

def Line.render (host : Host) : Line → String
  | .blockedOnFutex wall tid duration key => headlineText host wall tid duration ++ " on " ++ futexText host key
  | .blockedOnBlockIo wall tid duration dev sector =>
    headlineText host wall tid duration ++ " on " ++ blockIoText host dev sector
  | .blockedUnknown wall tid duration =>
    headlineText host wall tid duration ++ " " ++ dim host "(no correlated cause found)"
  | .wokenBy tid =>
    " " ++ dim host "←" ++ " " ++ green host "woken by" ++ " " ++ boldYellow host ("tid " ++ toString tid)
  | .priorFutex tid duration key =>
    " " ++ dim host "←" ++ " " ++ blockedText host tid duration ++ " on " ++ futexText host key
  | .priorBlockIo tid duration dev sector =>
    " " ++ dim host "←" ++ " " ++ blockedText host tid duration ++ " on " ++ blockIoText host dev sector

/-! ### Chains -/

/-- The walk with `left` hops left before the depth guard stops it. -/
def walkHops (host : Host) (typed : Typed) :
    Nat → TraceEvent → DevNames → List Line → List Line × DevNames
  | left, wait, devNames, lines =>
    match nearestPreceding typed.futexWake wait.timestampNs fun e => e.key == wait.key with
    | none => (lines, devNames)
    | some wake =>
      let lines := lines ++ [.wokenBy wake.tid]
      match left with
      | 0 => (lines, devNames)
      | left + 1 =>
        -- Anchored at the start of the waker's own syscall, not at its end.
        let wakeStartTs := Words.saturatingSub wake.timestampNs wake.durationNs
        match classifyPriorCause wake.tid wakeStartTs typed with
        | .futex nextWait =>
          walkHops host typed left nextWait devNames
            (lines ++ [.priorFutex wake.tid nextWait.durationNs nextWait.key])
        | .blockIo io =>
          let (dev, sector) := unpackBlockKey io.key
          let (name, devNames) := devNames.name host dev
          (lines ++ [.priorBlockIo wake.tid io.durationNs name sector], devNames)
        | .unknown => (lines, devNames)

/-- The walk at `depth`; the guard `depth >= MAX_CHAIN_DEPTH` is that no hop is left. -/
def walkFromFutexWait (host : Host) (wait : TraceEvent) (typed : Typed) (devNames : DevNames) (depth : Nat)
    (lines : List Line) : List Line × DevNames :=
  walkHops host typed (maxChainDepth - depth) wait devNames lines

def explainOneStall (host : Host) (block : TraceEvent) (trace : TraceFile) (typed : Typed) (devNames : DevNames) :
    Chain × DevNames :=
  let startTs := Words.saturatingSub block.timestampNs block.durationNs
  let wall := trace.wallNsFor startTs
  match classifyResumeCause block.tid block.timestampNs typed with
  | .futex wait =>
    let lines := [Line.blockedOnFutex wall block.tid block.durationNs wait.key]
    let (lines, devNames) := walkFromFutexWait host wait typed devNames 1 lines
    (⟨lines⟩, devNames)
  | .blockIo io =>
    let (dev, sector) := unpackBlockKey io.key
    let (name, devNames) := devNames.name host dev
    (⟨[.blockedOnBlockIo wall block.tid block.durationNs name sector]⟩, devNames)
  | .unknown => (⟨[.blockedUnknown wall block.tid block.durationNs]⟩, devNames)

def explain (host : Host) (trace : TraceFile) (slowest : Nat) : List Chain :=
  let typed := Typed.partition trace.events
  let blocks := (typed.block.mergeSort fun a b => decide (b.durationNs ≤ a.durationNs)).take slowest
  (blocks.foldl (fun acc b =>
    let (chain, devNames) := explainOneStall host b trace typed acc.2
    (acc.1 ++ [chain], devNames)) ([], DevNames.new)).1

end Whyslow
