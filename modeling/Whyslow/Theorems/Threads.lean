import Whyslow.Theorems.Recorded

/-! The threads behind a run. The programs take any order of their tracepoints; the kernel only makes
    those in which each thread, on its own, goes through its switches and its calls one after the other. -/

namespace Whyslow
open Runs

def Half.thread? : Half → Option UInt32
  | .switchOut _ evt => some evt.prevPid.toUInt32
  | .switchIn _ evt => some evt.nextPid.toUInt32
  | .futexEnter h _ | .futexExit h | .blockRqIssue h _ => some h.currentTid
  | .setTargetTgid _ | .blockRqComplete _ _ => none

def Half.isSwitchOut : Half → Bool
  | .switchOut _ _ => true
  | _ => false

def Half.isSwitchIn : Half → Bool
  | .switchIn _ _ => true
  | _ => false

def Half.isFutexEnter : Half → Bool
  | .futexEnter _ _ => true
  | _ => false

def Half.isFutexExit : Half → Bool
  | .futexExit _ => true
  | _ => false

def Half.isFutex (a : Half) : Bool := a.isFutexEnter || a.isFutexExit

def Half.RunsInOutgoing : Half → Prop
  | .switchOut h evt => h.currentTid = evt.prevPid.toUInt32
  | _ => True

instance : (a : Half) → Decidable a.RunsInOutgoing
  | .switchOut h evt => inferInstanceAs (Decidable (h.currentTid = evt.prevPid.toUInt32))
  | .setTargetTgid _ | .switchIn _ _ | .futexEnter _ _ | .futexExit _ | .blockRqIssue _ _ | .blockRqComplete _ _ =>
    isTrue trivial

def contexts (steps : List Step) : List (UInt32 × UInt32) := (halves steps).filterMap Half.context?

def actsOf (steps : List Step) (tid : UInt32) : List Half := (halves steps).filter (·.thread? = some tid)

/-- A thread of a process (the idle threads are of none) that was switched out does nothing before it is
    switched in, and only a thread that was switched out is switched in. -/
def CpuSequential (steps : List Step) : Prop :=
  ∀ c ∈ contexts steps, c.2 ≠ 0 → (actsOf steps c.1).IsChain fun a b => a.isSwitchOut = b.isSwitchIn

/-- A thread returns from each of its calls before it makes the next. -/
def FutexSequential (steps : List Step) : Prop :=
  ∀ c ∈ contexts steps, ((actsOf steps c.1).filter Half.isFutex).IsChain fun a b => a.isFutexEnter = b.isFutexExit

/-- No thread id is used in two processes. -/
def NoTidReuse (steps : List Step) : Prop :=
  ∀ c ∈ contexts steps, ∀ c' ∈ contexts steps, c.1 = c'.1 → c.2 = c'.2

/-- Every record is read, every start finds a slot and every event finds room. -/
@[mk_iff]
structure NothingDropped (n : Sizes) (steps : List Step) : Prop where
  read : ∀ st ∈ steps, st.halves ≠ []
  ring : ∀ a ∈ halves steps, a.ringFull = false
  slots : ∀ i : Fin (halves steps).length,
    ((halves steps)[i].blockAct (mapsAt n steps i)).HasRoom (mapsAt n steps i).blockStart ∧
    ((halves steps)[i].futexAct (mapsAt n steps i)).HasRoom (mapsAt n steps i).futexStart ∧
    ((halves steps)[i].blockIoAct (mapsAt n steps i)).HasRoom (mapsAt n steps i).blockIoStart

/-- A run as the kernel makes it, of which everything is recorded. -/
@[mk_iff]
structure Orderly (n : Sizes) (T : UInt32) (steps : List Step) : Prop where
  target : SetsOnly T steps
  clock : ClockIncreasing steps
  current : ∀ a ∈ halves steps, a.RunsInOutgoing
  cpu : CpuSequential steps
  futex : FutexSequential steps
  tids : NoTidReuse steps
  kept : NothingDropped n steps

/-! These are decidable: each of them looks only at the contexts of the run. The instances name the search through
    the list, as thread ids are also a finite type. -/

instance (steps : List Step) : Decidable (CpuSequential steps) := List.decidableBAll _ (contexts steps)

instance (steps : List Step) : Decidable (FutexSequential steps) := List.decidableBAll _ (contexts steps)

instance (steps : List Step) : Decidable (NoTidReuse steps) :=
  have (c : UInt32 × UInt32) : Decidable (∀ c' ∈ contexts steps, c.1 = c'.1 → c.2 = c'.2) :=
    List.decidableBAll _ (contexts steps)
  List.decidableBAll _ (contexts steps)

instance (n : Sizes) (steps : List Step) : Decidable (NothingDropped n steps) :=
  decidable_of_iff _ (nothingDropped_iff n steps).symm

instance (n : Sizes) (T : UInt32) (steps : List Step) : Decidable (Orderly n T steps) :=
  decidable_of_iff _ (orderly_iff n T steps).symm

theorem Stall.no_call {n : Sizes} {steps : List Step} (hcpu : CpuSequential steps) {s : TraceEvent} {j i k : Nat}
    (hs : Stall n steps s j i) (hjk : j < k) (hki : k < i) {a : Half} (ha : (halves steps)[k]? = some a) :
    a.thread? ≠ some s.tid := by
  intro hthread
  obtain ⟨h, evt, hout, htid, -, hg⟩ := hs.out
  have hcontext : (s.tid, h.currentTgid) ∈ contexts steps :=
    List.mem_filterMap.mpr ⟨_, List.mem_of_getElem? hout, by rw [← htid]; rfl⟩
  -- The next thing the thread does is to be switched in, and that is at the end of the stall.
  obtain ⟨l, b, hjl, hlk, hb, hbt, hnext⟩ := exists_next_of_isChain (hcpu _ hcontext hg) hjk hout
    (by rw [← htid]; exact decide_eq_true rfl) ha (decide_eq_true hthread)
  have hin : b.switchedIn? = some s.tid := by
    cases b with
    | switchIn h' evt' => exact of_decide_eq_true hbt
    | _ => cases hnext
  exact hs.within l hjl (by omega) b hb hin

end Whyslow
