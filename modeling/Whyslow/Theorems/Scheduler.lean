import Whyslow.Theorems.Threads

/-! The scheduler behind a run of context switches. Threads are created and exit, and the tid of a thread that is gone
    may be given to a new one; live threads have different tids, so under one tid at most one thread is on a CPU. -/

namespace Whyslow
open Runs

/-- A thread from its creation to its exit; `id` tells threads apart that have one tid after the other. -/
structure Thread where
  id : Nat
  tid : UInt32
  tgid : UInt32
  deriving DecidableEq

def Thread.Idle (th : Thread) : Prop := th.tid = 0 ∧ th.tgid = 0

instance (th : Thread) : Decidable th.Idle := inferInstanceAs (Decidable (_ ∧ _))

inductive Reason where
  | yield
  | preempt
  | sleep
  | exit
  deriving DecidableEq

/-- How the kernel's record says so in `prev_state`: `TASK_REPORT_MAX` stands for a preemption, and one of the low
    eight bits for a thread that is not runnable. -/
def Reason.Encodes : Reason → Int64 → Prop
  | .yield, prevState => prevState = 0
  | .preempt, prevState => prevState = 0x100
  | .sleep, prevState | .exit, prevState => prevState &&& 0xFF ≠ 0

instance : (r : Reason) → (prevState : Int64) → Decidable (r.Encodes prevState)
  | .yield, prevState => inferInstanceAs (Decidable (prevState = 0))
  | .preempt, prevState => inferInstanceAs (Decidable (prevState = 0x100))
  | .sleep, prevState | .exit, prevState => inferInstanceAs (Decidable (prevState &&& 0xFF ≠ 0))

theorem Reason.Encodes.running_iff {r : Reason} {prevState : Int64} (h : r.Encodes prevState) :
    prevState = taskRunning ↔ r = .yield := by
  cases r with
  | yield => exact ⟨fun _ => rfl, fun _ => h⟩
  | _ =>
    refine ⟨?_, fun h0 => by cases h0⟩
    intro h0
    rw [h0] at h
    exact absurd h (by decide)

/-- A thread is created, or the CPU goes from one thread to another. -/
inductive SchedAct where
  | create (th : Thread)
  | switch (h : Helpers) (evt : TraceEventRawSchedSwitch) (prev : Thread) (reason : Reason) (next : Thread)
  deriving DecidableEq

inductive SchedHalf where
  | create (th : Thread)
  | switchOut (h : Helpers) (evt : TraceEventRawSchedSwitch) (th : Thread) (reason : Reason)
  | switchIn (h : Helpers) (evt : TraceEventRawSchedSwitch) (th : Thread)
  deriving DecidableEq

def SchedAct.halves : SchedAct → List SchedHalf
  | .create th => [.create th]
  | .switch h evt prev reason next => [.switchOut h evt prev reason, .switchIn h evt next]

/-- The threads there have been, those that have not exited, and those on a CPU; the idle threads are left out. -/
structure Sched where
  seen : List Thread
  live : List Thread
  running : List Thread

/-- A new thread gets a tid that no live thread has. The thread that leaves the CPU is on it, the record and the
    current task are its own; the one that takes the CPU is alive and on no other. -/
def Sched.Allows (s : Sched) : SchedHalf → Prop
  | .create th => th.tid ≠ 0 ∧ th ∉ s.seen ∧ ∀ t ∈ s.live, t.tid ≠ th.tid
  | .switchOut h evt th reason => (th.Idle ∨ th ∈ s.running) ∧ h.currentTgid = th.tgid ∧ h.currentTid = th.tid ∧
      evt.prevPid.toUInt32 = th.tid ∧ reason.Encodes evt.prevState
  | .switchIn _ evt th => (th.Idle ∨ th ∈ s.live ∧ th ∉ s.running) ∧ evt.nextPid.toUInt32 = th.tid

instance Sched.decidableAllows (s : Sched) : (a : SchedHalf) → Decidable (s.Allows a)
  | .create _ => inferInstanceAs (Decidable (_ ∧ _ ∧ _))
  | .switchOut _ _ _ _ => inferInstanceAs (Decidable (_ ∧ _ ∧ _ ∧ _ ∧ _))
  | .switchIn _ _ _ => inferInstanceAs (Decidable (_ ∧ _))

def Sched.next (s : Sched) : SchedHalf → Sched
  | .create th => { s with seen := th :: s.seen, live := th :: s.live }
  | .switchOut _ _ th reason =>
    { s with
      live := if reason = .exit then s.live.filter (· ≠ th) else s.live
      running := s.running.filter (· ≠ th) }
  | .switchIn _ _ th => if th.Idle then s else { s with running := th :: s.running }

structure Sched.Sane (s : Sched) : Prop where
  running : ∀ th ∈ s.running, th ∈ s.live
  seen : ∀ th ∈ s.live, th ∈ s.seen
  tids : ∀ th ∈ s.live, ∀ th' ∈ s.live, th.tid = th'.tid → th = th'
  nonzero : ∀ th ∈ s.live, th.tid ≠ 0

namespace Sched
variable {s s₀ : Sched} {a : SchedHalf} {th : Thread} {l : List SchedHalf}

theorem live_out_subset {t : Thread} {reason : Reason}
    (h : th ∈ if reason = .exit then s.live.filter (· ≠ t) else s.live) : th ∈ s.live := by
  split at h
  · exact (List.mem_filter.mp h).1
  · exact h

/-- A thread that exits is on no CPU afterwards, so what runs is alive. -/
theorem Sane.next (hs : s.Sane) (ha : s.Allows a) : (s.next a).Sane := by
  cases a with
  | create th =>
    obtain ⟨h0, -, hfree⟩ := ha
    refine ⟨fun t ht => List.mem_cons_of_mem _ (hs.running t ht), fun t ht => ?_, fun t ht t' ht' htid => ?_,
      fun t ht => ?_⟩
    · rcases List.mem_cons.mp ht with rfl | ht
      · exact List.mem_cons_self
      · exact List.mem_cons_of_mem _ (hs.seen t ht)
    · rcases List.mem_cons.mp ht with rfl | hlive <;> rcases List.mem_cons.mp ht' with rfl | hlive'
      · rfl
      · exact absurd htid.symm (hfree t' hlive')
      · exact absurd htid (hfree t hlive)
      · exact hs.tids t hlive t' hlive' htid
    · rcases List.mem_cons.mp ht with rfl | ht
      · exact h0
      · exact hs.nonzero t ht
  | switchOut h evt th reason =>
    refine ⟨fun t ht => ?_, fun t ht => hs.seen t (live_out_subset ht),
      fun t ht t' ht' => hs.tids t (live_out_subset ht) t' (live_out_subset ht'),
      fun t ht => hs.nonzero t (live_out_subset ht)⟩
    obtain ⟨ht, hne⟩ := List.mem_filter.mp ht
    show t ∈ if reason = .exit then _ else _
    split
    · exact List.mem_filter.mpr ⟨hs.running t ht, hne⟩
    · exact hs.running t ht
  | switchIn h evt th =>
    unfold Sched.next
    dsimp only
    split
    · exact hs
    · rename_i hidle
      refine ⟨?_, hs.seen, hs.tids, hs.nonzero⟩
      intro t ht
      rcases List.mem_cons.mp ht with rfl | ht
      · exact (ha.1.resolve_left hidle).1
      · exact hs.running t ht

end Sched

/-! ### Positions -/

def schedAt (s₀ : Sched) (l : List SchedHalf) (i : Nat) : Sched := stateAt Sched.next s₀ l i

structure SchedRun (s₀ : Sched) (l : List SchedHalf) : Prop where
  sane : s₀.Sane
  allows : Allowed Sched.next Sched.Allows s₀ l

namespace SchedRun
variable {s₀ : Sched} {l : List SchedHalf} {p q i j : Nat} {h : Helpers} {evt : TraceEventRawSchedSwitch}
  {th : Thread} {reason : Reason}

theorem sane_at (hrun : SchedRun s₀ l) (i : Nat) : (schedAt s₀ l i).Sane :=
  hrun.allows.induction hrun.sane (fun _ _ hs ha => hs.next ha) i

theorem running_of_out (hrun : SchedRun s₀ l) (hout : l[p]? = some (.switchOut h evt th reason)) (h0 : th.tid ≠ 0) :
    th ∈ (schedAt s₀ l p).running :=
  (hrun.allows.at hout).1.resolve_left fun hidle => h0 hidle.1

theorem live_of_in (hrun : SchedRun s₀ l) (hin : l[q]? = some (.switchIn h evt th)) (h0 : th.tid ≠ 0) :
    th ∈ (schedAt s₀ l q).live :=
  ((hrun.allows.at hin).1.resolve_left fun hidle => h0 hidle.1).1

/-- After a thread left the CPU, and until a thread with its tid takes one, none with its tid is on a CPU. -/
theorem not_running_after_out (hrun : SchedRun s₀ l) (hpj : p < j)
    (hout : l[p]? = some (.switchOut h evt th reason)) (h0 : th.tid ≠ 0)
    (hno : ∀ k, p < k → k < j → ∀ g e t, l[k]? = some (.switchIn g e t) → t.tid ≠ th.tid) :
    ∀ t ∈ (schedAt s₀ l j).running, t.tid ≠ th.tid := by
  refine stateAt_stays (P := fun s : Sched => ∀ t ∈ s.running, t.tid ≠ th.tid) hpj ?_ fun k hpk hkj a ha hk => ?_
  · rw [stateAt_succ hout]
    intro t ht htid
    obtain ⟨ht, hne⟩ := List.mem_filter.mp ht
    have hsane := hrun.sane_at p
    have hsame := hsane.tids t (hsane.running t ht) th (hsane.running th (hrun.running_of_out hout h0)) htid
    exact of_decide_eq_true hne hsame
  · cases a with
    | create th' => exact hk
    | switchOut g e th' r => exact fun t ht => hk t (List.mem_filter.mp ht).1
    | switchIn g e th' =>
      unfold Sched.next
      dsimp only
      split
      · exact hk
      · intro t ht
        rcases List.mem_cons.mp ht with rfl | ht
        · exact hno k hpk hkj g e t ha
        · exact hk t ht

theorem live_stays (hij : i ≤ j) (hlive : th ∈ (schedAt s₀ l i).live)
    (hno : ∀ k, i ≤ k → k < j → ∀ g e, l[k]? ≠ some (.switchOut g e th .exit)) : th ∈ (schedAt s₀ l j).live := by
  refine stateAt_stays (P := fun s : Sched => th ∈ s.live) hij hlive ?_
  intro k hik hkj a ha hk
  cases a with
  | create th' => exact List.mem_cons_of_mem _ hk
  | switchOut g e th' r =>
    show th ∈ if r = .exit then _ else _
    split
    · rename_i hr
      refine List.mem_filter.mpr ⟨hk, decide_eq_true fun hth => ?_⟩
      subst hth hr
      exact hno k hik hkj g e ha
    · exact hk
  | switchIn g e th' =>
    unfold Sched.next
    dsimp only
    split <;> exact hk

theorem dead_after_exit (hrun : SchedRun s₀ l) (hpq : p < q) (hout : l[p]? = some (.switchOut h evt th .exit))
    (h0 : th.tid ≠ 0) : th ∉ (schedAt s₀ l q).live := by
  refine (stateAt_stays (P := fun s : Sched => th ∈ s.seen ∧ th ∉ s.live) hpq ?_ fun k _ _ a ha hk => ?_).2
  · have hsane := hrun.sane_at p
    rw [stateAt_succ hout]
    refine ⟨hsane.seen th (hsane.running th (hrun.running_of_out hout h0)), ?_⟩
    intro hm
    exact of_decide_eq_true (List.mem_filter.mp hm).2 rfl
  · cases a with
    | create th' =>
      have hne : th ≠ th' := fun he => (hrun.allows.at ha).2.1 (he ▸ hk.1)
      exact ⟨List.mem_cons_of_mem _ hk.1, List.not_mem_cons_of_ne_of_not_mem hne hk.2⟩
    | switchOut g e th' r => exact ⟨hk.1, fun hm => hk.2 (Sched.live_out_subset hm)⟩
    | switchIn g e th' =>
      unfold Sched.next
      dsimp only
      split <;> exact hk

end SchedRun

end Whyslow
