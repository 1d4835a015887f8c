import Whyslow.Synthetic

/-! The program around the lock (`synthetic/src/main.rs`): `main` and the closures of its two threads, cut into their
    calls of the system and their operations on what they share. The steps of the three are taken in any order. Behind
    it the parser of what it prints (`whyslow-cli/tests/integration.rs`). -/

namespace Whyslow

def fileSize : Nat := 64 * 1024

def readRepeats : Nat := 64

inductive Worker where
  | holder
  | waiter
  deriving DecidableEq

instance : Fintype Worker := ⟨{.holder, .waiter}, by rintro (_ | _) <;> decide⟩

/-- Where `main` is, at one of its calls; after an exit no thread of the process takes a step. -/
inductive MainPc where
  | currentExe
  | metadata
  | spawn (w : Worker)
  | loadAcquired
  | join (w : Worker)
  | println
  | exited (code : Nat)
  deriving DecidableEq

/-- Where the closure of a thread is. In `lock` and `unlock` the lock knows more; `pread` counts the reads done. -/
inductive ClosurePc where
  | notSpawned
  | storeTid
  | lock
  | storeAcquired
  | openFile
  | alloc
  | pread (done : Nat)
  | unlock
  | returned
  | panicked
  deriving DecidableEq

/-- The process, with the ids the kernel gives to it and to its threads. -/
structure Process where
  pid : UInt32
  tid : Worker → UInt32

structure Reproducer where
  main : MainPc
  closure : Worker → ClosurePc
  word : Mutex Worker
  holderAcquired : Bool
  tids : Worker → UInt32
  stdout : String

/-- Every call of the system comes with its result. -/
inductive ReproducerAct where
  | currentExe (ok : Bool)
  | metadata (len : Option UInt64)
  | spawn (w : Worker) (ok : Bool)
  | loadAcquired
  | join (w : Worker)
  | println (ok : Bool)
  | storeTid (w : Worker)
  | mutex (a : MutexAct Worker)
  | lockReturned (w : Worker)
  | storeAcquired
  | openFile (ok : Bool)
  | alloc (ok : Bool)
  | pread (n : Int)
  | unlockReturned (w : Worker)
  deriving DecidableEq

/-- The thread that takes the step; a sleeper wakes up itself. -/
def MutexAct.thread {ι : Type} : MutexAct ι → ι
  | .lock t | .compareExchange t | .swapTwo t | .futexWait t | .spuriousWakeup t | .unlock t | .swapZero t
  | .futexWake t _ => t

/-- The call the step belongs to. -/
def MutexAct.call {ι : Type} : MutexAct ι → ClosurePc
  | .lock _ | .compareExchange _ | .swapTwo _ | .futexWait _ | .spuriousWakeup _ => .lock
  | .unlock _ | .swapZero _ | .futexWake _ _ => .unlock

def Reproducer.start : Reproducer where
  main := .currentExe
  closure := fun _ => .notSpawned
  word := Mutex.new
  holderAcquired := false
  tids := fun _ => 0
  stdout := ""

def MainPc.isExited : MainPc → Bool
  | .exited _ => true
  | _ => false

def ClosurePc.isPread : ClosurePc → Bool
  | .pread _ => true
  | _ => false

def Reproducer.Allows (s : Reproducer) (a : ReproducerAct) : Prop :=
  s.main.isExited = false ∧
    match a with
    | .currentExe _ => s.main = .currentExe
    | .metadata _ => s.main = .metadata
    | .spawn w _ => s.main = .spawn w
    | .loadAcquired => s.main = .loadAcquired
    | .join w => s.main = .join w ∧ (s.closure w = .returned ∨ s.closure w = .panicked)
    | .println _ => s.main = .println
    | .storeTid w => s.closure w = .storeTid
    | .mutex a => s.word.Allows a ∧ s.closure a.thread = a.call
    | .lockReturned w => s.closure w = .lock ∧ s.word.pc w = .locked
    | .storeAcquired => s.closure .holder = .storeAcquired
    | .openFile _ => s.closure .holder = .openFile
    | .alloc _ => s.closure .holder = .alloc
    | .pread _ => (s.closure .holder).isPread
    | .unlockReturned w => s.closure w = .unlock ∧ s.word.pc w = .outside

instance Reproducer.decidableAllows (s : Reproducer) : (a : ReproducerAct) → Decidable (s.Allows a)
  | .currentExe _ => inferInstanceAs (Decidable (_ ∧ s.main = .currentExe))
  | .metadata _ => inferInstanceAs (Decidable (_ ∧ s.main = .metadata))
  | .spawn w _ => inferInstanceAs (Decidable (_ ∧ s.main = .spawn w))
  | .loadAcquired => inferInstanceAs (Decidable (_ ∧ s.main = .loadAcquired))
  | .join w => inferInstanceAs (Decidable (_ ∧ s.main = .join w ∧ (s.closure w = .returned ∨ s.closure w = .panicked)))
  | .println _ => inferInstanceAs (Decidable (_ ∧ s.main = .println))
  | .storeTid w => inferInstanceAs (Decidable (_ ∧ s.closure w = .storeTid))
  | .mutex a => inferInstanceAs (Decidable (_ ∧ s.word.Allows a ∧ s.closure a.thread = a.call))
  | .lockReturned w => inferInstanceAs (Decidable (_ ∧ s.closure w = .lock ∧ s.word.pc w = .locked))
  | .storeAcquired => inferInstanceAs (Decidable (_ ∧ s.closure .holder = .storeAcquired))
  | .openFile _ => inferInstanceAs (Decidable (_ ∧ s.closure .holder = .openFile))
  | .alloc _ => inferInstanceAs (Decidable (_ ∧ s.closure .holder = .alloc))
  | .pread _ => inferInstanceAs (Decidable (_ ∧ (s.closure .holder).isPread = true))
  | .unlockReturned w => inferInstanceAs (Decidable (_ ∧ s.closure w = .unlock ∧ s.word.pc w = .outside))

def Reproducer.goto (s : Reproducer) (w : Worker) (pc : ClosurePc) : Reproducer :=
  { s with closure := Function.update s.closure w pc }

/-- The line of the `println!` at the end of `main`. -/
def doneLine (pid holderTid waiterTid : UInt32) : String :=
  "SYNTHETIC_DONE pid=" ++ toString pid ++ " holder_tid=" ++ toString holderTid ++ " waiter_tid=" ++
    toString waiterTid ++ "\n"

/-- An error that `main` returns exits with 1, a panic of `main` with 101. A panic of another thread ends that thread
    alone, and is seen when it is joined. -/
def Reproducer.step (p : Process) (s : Reproducer) : ReproducerAct → Reproducer
  | .currentExe ok => { s with main := if ok then .metadata else .exited 1 }
  | .metadata none => { s with main := .exited 1 }
  | .metadata (some len) => { s with main := if len.toNat ≥ fileSize then .spawn .holder else .exited 101 }
  | .spawn _ false => { s with main := .exited 101 }
  | .spawn .holder true => { s with main := .loadAcquired }.goto .holder .storeTid
  | .spawn .waiter true => { s with main := .join .holder }.goto .waiter .storeTid
  -- While the flag is not set `main` sleeps and loads it again.
  | .loadAcquired => { s with main := if s.holderAcquired then .spawn .waiter else .loadAcquired }
  | .join w =>
    if s.closure w = .panicked then { s with main := .exited 101 }
    else { s with main := match w with | .holder => .join .waiter | .waiter => .println }
  | .println false => { s with main := .exited 101 }
  | .println true =>
    { s with stdout := s.stdout ++ doneLine p.pid (s.tids .holder) (s.tids .waiter), main := .exited 0 }
  | .storeTid w => { s with tids := Function.update s.tids w (p.tid w) }.goto w .lock
  | .mutex a => { s with word := s.word.step a }
  | .lockReturned .holder => s.goto .holder .storeAcquired
  | .lockReturned .waiter => s.goto .waiter .unlock
  | .storeAcquired => { s with holderAcquired := true }.goto .holder .openFile
  | .openFile ok => s.goto .holder (if ok then .alloc else .panicked)
  | .alloc ok => s.goto .holder (if ok then .pread 0 else .panicked)
  | .pread n =>
    match s.closure .holder with
    | .pread done =>
      if n < 0 then s.goto .holder .panicked
      else s.goto .holder (if done + 1 < readRepeats then .pread (done + 1) else .unlock)
    | _ => s
  | .unlockReturned w => s.goto w .returned

/-! ### `parse_synthetic_tids` -/

/-- The characters with the Unicode property `White_Space`. -/
def isWhiteSpace (c : Char) : Bool :=
  let n := c.toNat
  (9 ≤ n && n ≤ 13) || n == 0x20 || n == 0x85 || n == 0xA0 || n == 0x1680 || (0x2000 ≤ n && n ≤ 0x200A) ||
    n == 0x2028 || n == 0x2029 || n == 0x202F || n == 0x205F || n == 0x3000

/-- `str::lines` behind the characters `line` of the current one: a line ends with a newline, and loses a carriage return
    before it; what is left behind the last newline is a line if it is not empty. -/
def linesFrom (line : List Char) : List Char → List (List Char)
  | [] => if line = [] then [] else [line]
  | c :: rest =>
    if c = '\n' then (if line.getLast? = some '\r' then line.dropLast else line) :: linesFrom [] rest
    else linesFrom (line ++ [c]) rest

def lines (s : List Char) : List (List Char) := linesFrom [] s

def splitWhitespace (s : List Char) : List (List Char) := (s.splitOnP isWhiteSpace).filter (· ≠ [])

def stripPrefix (p s : List Char) : Option (List Char) := if p.isPrefixOf s then some (s.drop p.length) else none

/-- `u32::from_str`: one plus sign may come first, then only digits, at least one, and the number fits. -/
def parseU32 (s : List Char) : Option UInt32 :=
  let digits := if s.head? = some '+' then s.tail else s
  if digits = [] ∨ digits.any (fun c => !c.isDigit) then none
  else
    let n := digits.foldl (fun n c => 10 * n + (c.toNat - '0'.toNat)) 0
    if n < 2 ^ 32 then some (UInt32.ofNat n) else none

/-- One turn of the loop over the fields: a later field replaces what an earlier one gave. -/
def parseField (tids : Option UInt32 × Option UInt32) (field : List Char) : Option UInt32 × Option UInt32 :=
  match stripPrefix "holder_tid=".toList field with
  | some v => (parseU32 v, tids.2)
  | none =>
    match stripPrefix "waiter_tid=".toList field with
    | some v => (tids.1, parseU32 v)
    | none => tids

def parseSyntheticTids (output : String) : Option (UInt32 × UInt32) := do
  let line ← (lines output.toList).find? fun l => "SYNTHETIC_DONE".toList.isPrefixOf l
  let (holder, waiter) := (splitWhitespace line).foldl parseField (none, none)
  return (← holder, ← waiter)

end Whyslow
