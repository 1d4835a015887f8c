import Whyslow.Lib.Runs

/-! The lock of the synthetic program (`synthetic/src/main.rs`). Threads share one word; `lock` and `unlock` are cut
    into their operations on it, each of which is one atomic step, and the steps of the threads are taken in any
    order. -/

namespace Whyslow

/-- `AtomicU32::compare_exchange`: the word after it, and whether it has been exchanged. -/
def compareExchange (word current new : UInt32) : UInt32 × Bool :=
  if word = current then (new, true) else (word, false)

/-- `AtomicU32::swap`: the word after it, and the word before it. -/
def swap (word new : UInt32) : UInt32 × UInt32 := (new, word)

/-- Where a thread is: before the operations of `lock` and `unlock` in their order, asleep in the call of `futex_wait`,
    or between the two, when `lock` has returned. -/
inductive MutexPc where
  | outside
  | compareExchange
  | swapTwo
  | futexWait
  | asleep
  | locked
  | swapZero
  | futexWake
  deriving DecidableEq

structure Mutex (ι : Type) where
  word : UInt32
  pc : ι → MutexPc

inductive MutexAct (ι : Type) where
  | lock (t : ι)
  | compareExchange (t : ι)
  | swapTwo (t : ι)
  | futexWait (t : ι)
  | spuriousWakeup (t : ι)
  | unlock (t : ι)
  | swapZero (t : ι)
  | futexWake (t : ι) (woken : Option ι)
  deriving DecidableEq

section Steps
variable {ι : Type} [DecidableEq ι]

/-- `AtomicU32::new(0)`, with no thread in a call. -/
def Mutex.new : Mutex ι := ⟨0, fun _ => .outside⟩

def Mutex.goto (s : Mutex ι) (t : ι) (pc : MutexPc) : Mutex ι := { s with pc := Function.update s.pc t pc }

/-- Each thread takes the steps of `lock` and `unlock` in turn. A wake finds one sleeper, if there is one; a sleeper may
    also wake up for no reason. -/
def Mutex.Allows (s : Mutex ι) : MutexAct ι → Prop
  | .lock t => s.pc t = .outside
  | .compareExchange t => s.pc t = .compareExchange
  | .swapTwo t => s.pc t = .swapTwo
  | .futexWait t => s.pc t = .futexWait
  | .spuriousWakeup t => s.pc t = .asleep
  | .unlock t => s.pc t = .locked
  | .swapZero t => s.pc t = .swapZero
  | .futexWake t (some woken) => s.pc t = .futexWake ∧ s.pc woken = .asleep
  | .futexWake t none => s.pc t = .futexWake ∧ ∀ u, s.pc u ≠ .asleep

instance Mutex.decidableAllows [Fintype ι] (s : Mutex ι) : (a : MutexAct ι) → Decidable (s.Allows a)
  | .lock t => inferInstanceAs (Decidable (s.pc t = .outside))
  | .compareExchange t => inferInstanceAs (Decidable (s.pc t = .compareExchange))
  | .swapTwo t => inferInstanceAs (Decidable (s.pc t = .swapTwo))
  | .futexWait t => inferInstanceAs (Decidable (s.pc t = .futexWait))
  | .spuriousWakeup t => inferInstanceAs (Decidable (s.pc t = .asleep))
  | .unlock t => inferInstanceAs (Decidable (s.pc t = .locked))
  | .swapZero t => inferInstanceAs (Decidable (s.pc t = .swapZero))
  | .futexWake t (some woken) => inferInstanceAs (Decidable (s.pc t = .futexWake ∧ s.pc woken = .asleep))
  | .futexWake t none => inferInstanceAs (Decidable (s.pc t = .futexWake ∧ ∀ u, s.pc u ≠ .asleep))

def Mutex.step (s : Mutex ι) : MutexAct ι → Mutex ι
  | .lock t => s.goto t .compareExchange
  | .compareExchange t =>
    let (word, exchanged) := compareExchange s.word 0 1
    { s with word := word }.goto t (if exchanged then .locked else .swapTwo)
  | .swapTwo t =>
    let (word, old) := swap s.word 2
    { s with word := word }.goto t (if old = 0 then .locked else .futexWait)
  -- The kernel compares the word with the expected value and goes to sleep in one step; else the call returns.
  | .futexWait t => s.goto t (if s.word = 2 then .asleep else .swapTwo)
  | .spuriousWakeup t => s.goto t .swapTwo
  | .unlock t => s.goto t .swapZero
  | .swapZero t =>
    let (word, old) := swap s.word 0
    { s with word := word }.goto t (if old = 2 then .futexWake else .outside)
  | .futexWake t (some woken) => (s.goto woken .swapTwo).goto t .outside
  | .futexWake t none => s.goto t .outside

end Steps

end Whyslow
