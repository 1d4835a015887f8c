import Whyslow.Theorems.Reproducer

/-! Whole runs of the synthetic program: it does not hang, however its calls end (`reproducer_terminates`), it reports
    success exactly when they succeed (`reproducer_exit`), and the two threads make the causal chain it is written for
    (`waiter_follows_holder`). -/

namespace Whyslow
open Runs

variable {p : Process} {s : Reproducer} {a : ReproducerAct}

/-! ### Reads and failures -/

/-- The reads that are done. -/
def ClosurePc.reads : ClosurePc → Nat
  | .pread done => done
  | .unlock | .returned => readRepeats
  | _ => 0

def ReproducerAct.isRead : ReproducerAct → Bool
  | .pread n => decide (0 ≤ n)
  | _ => false

/-- A call of the system that fails, or that `main` does not accept the result of. -/
def ReproducerAct.Fails : ReproducerAct → Prop
  | .currentExe ok | .spawn _ ok | .println ok | .openFile ok | .alloc ok => ok = false
  | .metadata len => ∀ n ∈ len, n.toNat < fileSize
  | .pread n => n < 0
  | _ => False

def Reproducer.Failed (s : Reproducer) : Prop :=
  (∃ code, code ≠ 0 ∧ s.main = .exited code) ∨ s.closure .holder = .panicked

theorem Reproducer.reads_step (ha : s.Allows a) :
    ((s.step p a).closure .holder).reads ≤ (s.closure .holder).reads + if a.isRead then 1 else 0 := by
  obtain ⟨-, ha⟩ := ha
  cases a with
  | pread n =>
    cases hpc : s.closure .holder with
    | pread done =>
      by_cases hn : n < 0
      · simp [Reproducer.step, hpc, hn, Reproducer.goto, ClosurePc.reads]
      · have hread : 0 ≤ n := by omega
        by_cases hdone : done + 1 < readRepeats
        · simp [Reproducer.step, hpc, hn, hdone, Reproducer.goto, ClosurePc.reads, ReproducerAct.isRead, hread]
        · simp [Reproducer.step, hpc, hn, hdone, Reproducer.goto, ClosurePc.reads, ReproducerAct.isRead, hread]
          omega
    | _ => simp [hpc, ClosurePc.isPread] at ha
  | spawn w ok => cases w <;> cases ok <;> simp [Reproducer.step, Reproducer.goto, ClosurePc.reads]
  | storeTid w => cases w <;> simp [Reproducer.step, Reproducer.goto, ClosurePc.reads]
  | lockReturned w => cases w <;> simp [Reproducer.step, Reproducer.goto, ClosurePc.reads]
  | unlockReturned w => cases w <;> simp_all [Reproducer.step, Reproducer.goto, ClosurePc.reads]
  | openFile ok => cases ok <;> simp [Reproducer.step, Reproducer.goto, ClosurePc.reads]
  | alloc ok => cases ok <;> simp [Reproducer.step, Reproducer.goto, ClosurePc.reads]
  | storeAcquired => simp [Reproducer.step, Reproducer.goto, ClosurePc.reads]
  | join w =>
    simp only [Reproducer.step]
    split <;> exact Nat.le_add_right _ _
  | println ok => cases ok <;> exact Nat.le_add_right _ _
  | metadata len => cases len <;> exact Nat.le_add_right _ _
  | currentExe | loadAcquired | mutex => exact Nat.le_add_right _ _

theorem Reproducer.failed_iff (hexit : s.main.isExited = false) : s.Failed ↔ s.closure .holder = .panicked := by
  have hno : ¬∃ code, code ≠ 0 ∧ s.main = .exited code := by
    rintro ⟨code, -, hmain⟩
    simp [hmain, MainPc.isExited] at hexit
  simp [Reproducer.Failed, hno]

theorem Reproducer.failed_step (h : s.Inv p) (ha : s.Allows a) : (s.step p a).Failed ↔ s.Failed ∨ a.Fails := by
  obtain ⟨hexit, ha⟩ := ha
  rw [Reproducer.failed_iff hexit]
  cases a with
  | currentExe ok => cases ok <;> simp [Reproducer.Failed, Reproducer.step, ReproducerAct.Fails]
  | metadata len =>
    cases len with
    | none => simp [Reproducer.Failed, Reproducer.step, ReproducerAct.Fails]
    | some len =>
      by_cases hlen : len.toNat ≥ fileSize
      · simp [Reproducer.Failed, Reproducer.step, ReproducerAct.Fails, hlen, Nat.not_lt.mpr hlen]
      · simp [Reproducer.Failed, Reproducer.step, ReproducerAct.Fails, hlen, Nat.not_le.mp hlen]
  | spawn w ok =>
    have hmain := h.main
    rw [show s.main = .spawn w from ha] at hmain
    cases ok with
    | false => simp [Reproducer.Failed, Reproducer.step, ReproducerAct.Fails]
    | true =>
      cases w with
      | holder => simp [Reproducer.Failed, Reproducer.step, Reproducer.goto, ReproducerAct.Fails, hmain.1]
      | waiter => simp [Reproducer.Failed, Reproducer.step, Reproducer.goto, ReproducerAct.Fails]
  | loadAcquired =>
    have hlive : (s.step p .loadAcquired).main.isExited = false := by
      simp only [Reproducer.step]
      split <;> rfl
    rw [Reproducer.failed_iff hlive]
    simp [Reproducer.step, ReproducerAct.Fails]
  | join w =>
    have hfits := h.fits w
    by_cases hpanic : s.closure w = .panicked
    · -- The waiter does not panic.
      rw [hpanic] at hfits
      obtain ⟨rfl, -⟩ : w = .holder ∧ _ := hfits
      simp [Reproducer.Failed, Reproducer.step, hpanic]
    · cases w <;> simp [Reproducer.Failed, Reproducer.step, ReproducerAct.Fails, hpanic]
  | println ok =>
    have hmain := h.main
    rw [show s.main = .println from ha] at hmain
    cases ok <;> simp [Reproducer.Failed, Reproducer.step, ReproducerAct.Fails, hmain.1]
  | pread n =>
    cases hpc : s.closure .holder with
    | pread done =>
      have hlive : (s.step p (.pread n)).main.isExited = false := by
        simp only [Reproducer.step, hpc]
        split <;> exact hexit
      rw [Reproducer.failed_iff hlive]
      simp only [Reproducer.step, hpc, ReproducerAct.Fails]
      by_cases hn : n < 0
      · simp [hn, Reproducer.goto]
      · by_cases hdone : done + 1 < readRepeats <;> simp [hn, hdone, Reproducer.goto]
    | _ => simp [hpc, ClosurePc.isPread] at ha
  | storeTid w =>
    rw [Reproducer.failed_iff (by exact hexit)]
    cases w <;> simp_all [Reproducer.step, Reproducer.goto, ReproducerAct.Fails]
  | mutex b =>
    rw [Reproducer.failed_iff (by exact hexit)]
    simp [Reproducer.step, ReproducerAct.Fails]
  | lockReturned w =>
    rw [Reproducer.failed_iff (by cases w <;> exact hexit)]
    cases w <;> simp_all [Reproducer.step, Reproducer.goto, ReproducerAct.Fails]
  | storeAcquired =>
    rw [Reproducer.failed_iff (by exact hexit)]
    simp_all [Reproducer.step, Reproducer.goto, ReproducerAct.Fails]
  | openFile ok =>
    rw [Reproducer.failed_iff (by exact hexit)]
    cases ok <;> simp_all [Reproducer.step, Reproducer.goto, ReproducerAct.Fails]
  | alloc ok =>
    rw [Reproducer.failed_iff (by exact hexit)]
    cases ok <;> simp_all [Reproducer.step, Reproducer.goto, ReproducerAct.Fails]
  | unlockReturned w =>
    rw [Reproducer.failed_iff (by exact hexit)]
    cases w <;> simp_all [Reproducer.step, Reproducer.goto, ReproducerAct.Fails]

/-! ### Termination -/

/-- A bound on the steps of `main` that are left, but for the loads of the flag that find it unset. -/
def MainPc.remaining : MainPc → Nat
  | .currentExe => 8
  | .metadata => 7
  | .spawn .holder => 6
  | .loadAcquired => 5
  | .spawn .waiter => 4
  | .join .holder => 3
  | .join .waiter => 2
  | .println => 1
  | .exited _ => 0

/-- A bound on the steps of a closure that are left, outside of `lock` and `unlock`. -/
def ClosurePc.remaining : ClosurePc → Nat
  | .notSpawned => readRepeats + 8
  | .storeTid => readRepeats + 7
  | .lock => readRepeats + 6
  | .storeAcquired => readRepeats + 5
  | .openFile => readRepeats + 4
  | .alloc => readRepeats + 3
  | .pread done => readRepeats - done + 2
  | .unlock => 1
  | .returned | .panicked => 0

/-- The steps within `lock` and `unlock` of a thread that has not called `lock` yet. -/
def ClosurePc.unlocked (pc : MutexPc) : ClosurePc → Nat
  | .notSpawned | .storeTid => 11
  | .lock => if pc = .outside then 11 else 0
  | _ => 0

def Reproducer.remaining (s : Reproducer) : Nat :=
  s.main.remaining + s.word.remaining +
    ((s.closure .holder).remaining + (s.closure .holder).unlocked (s.word.pc .holder)) +
    ((s.closure .waiter).remaining + (s.closure .waiter).unlocked (s.word.pc .waiter))

def ReproducerAct.credit : ReproducerAct → Nat
  | .loadAcquired => 1
  | .mutex (.spuriousWakeup _) => 3
  | _ => 0

theorem Reproducer.unlocked_mutex {b : MutexAct Worker} (ha : s.word.Allows b) (hc : s.closure b.thread = b.call)
    (w : Worker) : (s.closure w).unlocked ((s.word.step b).pc w) + (if b = .lock w then 11 else 0) ≤
      (s.closure w).unlocked (s.word.pc w) := by
  by_cases hw : w = b.thread
  · subst hw
    rw [hc]
    cases b with
    | lock t =>
      have hpc : s.word.pc t = .outside := ha
      simp [MutexAct.call, MutexAct.thread, Mutex.step, ClosurePc.unlocked, hpc]
    | compareExchange t =>
      by_cases h0 : s.word.word = 0 <;>
        simp [MutexAct.call, MutexAct.thread, Mutex.step, compareExchange, ClosurePc.unlocked, h0]
    | swapTwo t =>
      by_cases h0 : s.word.word = 0 <;> simp [MutexAct.call, MutexAct.thread, Mutex.step, swap, ClosurePc.unlocked, h0]
    | futexWait t =>
      by_cases h2 : s.word.word = 2 <;> simp [MutexAct.call, MutexAct.thread, Mutex.step, ClosurePc.unlocked, h2]
    | spuriousWakeup t => simp [MutexAct.call, MutexAct.thread, Mutex.step, ClosurePc.unlocked]
    | unlock t | swapZero t | futexWake t => simp [MutexAct.call, ClosurePc.unlocked]
  · have hlock : b ≠ .lock w := by
      rintro rfl
      exact hw rfl
    rw [if_neg hlock, Nat.add_zero]
    rcases Mutex.pc_step_of_ne ha hw with hsame | ⟨-, hwoken⟩
    · rw [hsame]
    · rw [hwoken]
      cases s.closure w <;> simp [ClosurePc.unlocked]

theorem Reproducer.remaining_main {m m' : MainPc} (hmain : s.main = m') {used credit : Nat}
    (hlt : m.remaining + used ≤ m'.remaining + credit) :
    Reproducer.remaining { s with main := m } + used ≤ s.remaining + credit := by
  simp only [Reproducer.remaining, hmain]
  omega

theorem Reproducer.remaining_goto {w : Worker} {pc pc' : ClosurePc} (hpc : s.closure w = pc') {used credit : Nat}
    (hlt : pc.remaining + pc.unlocked (s.word.pc w) + used ≤
      pc'.remaining + pc'.unlocked (s.word.pc w) + credit) : (s.goto w pc).remaining + used ≤ s.remaining + credit := by
  have hword : (s.goto w pc).word = s.word := rfl
  have hmain : (s.goto w pc).main = s.main := rfl
  cases w <;> simp [Reproducer.remaining, Reproducer.closure_goto, hpc, hword, hmain] <;> omega

/-- A closure that does not wait for the lock has no call of it to come. -/
theorem Reproducer.remaining_holding {w : Worker} {pc pc' : ClosurePc} (hpc : s.closure w = pc')
    (hdone : ∀ q, pc.unlocked q = 0) (hlt : pc.remaining < pc'.remaining) :
    (s.goto w pc).remaining + 1 ≤ s.remaining + 0 := by
  refine Reproducer.remaining_goto hpc ?_
  rw [hdone]
  omega

theorem Reproducer.remaining_step (h : s.Inv p) (ha : s.Allows a) :
    (s.step p a).remaining + 1 ≤ s.remaining + a.credit := by
  obtain ⟨-, ha⟩ := ha
  cases a with
  | currentExe ok =>
    refine Reproducer.remaining_main ha ?_
    cases ok <;> decide
  | metadata len =>
    cases len with
    | none => exact Reproducer.remaining_main ha (by decide)
    | some len =>
      refine Reproducer.remaining_main ha ?_
      split <;> simp [MainPc.remaining, ReproducerAct.credit]
  | spawn w ok =>
    have hmain : s.main = .spawn w := ha
    have hfits := h.main
    rw [hmain] at hfits
    cases ok with
    | false =>
      refine Reproducer.remaining_main hmain ?_
      cases w <;> decide
    | true =>
      cases w with
      | holder =>
        have hspawn : (Reproducer.goto { s with main := .loadAcquired } .holder .storeTid).remaining + 1 ≤
            ({ s with main := .loadAcquired } : Reproducer).remaining + 0 := by
          refine Reproducer.remaining_goto (s := { s with main := .loadAcquired }) hfits.1 ?_
          simp [ClosurePc.remaining, ClosurePc.unlocked]
        have hmain' : ({ s with main := .loadAcquired } : Reproducer).remaining + 0 ≤ s.remaining + 0 :=
          Reproducer.remaining_main hmain (by decide)
        exact hspawn.trans hmain'
      | waiter =>
        have hspawn : (Reproducer.goto { s with main := .join .holder } .waiter .storeTid).remaining + 1 ≤
            ({ s with main := .join .holder } : Reproducer).remaining + 0 := by
          refine Reproducer.remaining_goto (s := { s with main := .join .holder }) hfits.2 ?_
          simp [ClosurePc.remaining, ClosurePc.unlocked]
        have hmain' : ({ s with main := .join .holder } : Reproducer).remaining + 0 ≤ s.remaining + 0 :=
          Reproducer.remaining_main hmain (by decide)
        exact hspawn.trans hmain'
  | loadAcquired =>
    refine Reproducer.remaining_main ha ?_
    split <;> decide
  | join w =>
    simp only [Reproducer.step]
    split
    · refine Reproducer.remaining_main ha.1 ?_
      cases w <;> decide
    · refine Reproducer.remaining_main ha.1 ?_
      cases w <;> decide
  | println ok =>
    cases ok with
    | false => exact Reproducer.remaining_main ha (by decide)
    | true => exact Reproducer.remaining_main (s := { s with stdout := _ }) (m := .exited 0) ha (by decide)
  | storeTid w =>
    refine Reproducer.remaining_goto (s := { s with tids := _ }) ha ?_
    simp only [ClosurePc.remaining, ClosurePc.unlocked]
    split <;> omega
  | mutex b =>
    have hword := Mutex.remaining_step ha.1
    rw [show Fintype.card Worker = 2 from rfl] at hword
    have hholder := Reproducer.unlocked_mutex ha.1 ha.2 .holder
    have hwaiter := Reproducer.unlocked_mutex ha.1 ha.2 .waiter
    simp only [Reproducer.remaining, Reproducer.step]
    cases b with
    | lock t =>
      cases t <;> simp [MutexAct.credit, ReproducerAct.credit] at * <;> omega
    | _ =>
      simp only [MutexAct.credit, ReproducerAct.credit, reduceCtorEq, if_false] at *
      omega
  | lockReturned w =>
    cases w with
    | holder => exact Reproducer.remaining_holding ha.1 (fun _ => rfl) (by decide)
    | waiter => exact Reproducer.remaining_holding ha.1 (fun _ => rfl) (by decide)
  | storeAcquired => exact Reproducer.remaining_holding (s := { s with holderAcquired := _ }) ha (fun _ => rfl) (by decide)
  | openFile ok => cases ok <;> exact Reproducer.remaining_holding ha (fun _ => rfl) (by decide)
  | alloc ok => cases ok <;> exact Reproducer.remaining_holding ha (fun _ => rfl) (by decide)
  | pread n =>
    cases hpc : s.closure .holder with
    | pread done =>
      simp only [Reproducer.step, hpc]
      split
      · exact Reproducer.remaining_holding hpc (fun _ => rfl) (by simp [ClosurePc.remaining])
      · split
        · exact Reproducer.remaining_holding hpc (fun _ => rfl) (by simp only [ClosurePc.remaining]; omega)
        · exact Reproducer.remaining_holding hpc (fun _ => rfl) (by simp [ClosurePc.remaining])
    | _ => simp [hpc, ClosurePc.isPread] at ha
  | unlockReturned w => exact Reproducer.remaining_holding ha.1 (fun _ => rfl) (by decide)

theorem sum_reproducer_credit (l : List ReproducerAct) : (l.map ReproducerAct.credit).sum =
    l.countP (· matches .loadAcquired) + 3 * l.countP (· matches .mutex (.spuriousWakeup _)) := by
  induction l with
  | nil => rfl
  | cons a l ih =>
    rw [List.map_cons, List.sum_cons, ih, List.countP_cons, List.countP_cons]
    cases a with
    | mutex b =>
      cases b with
      | spuriousWakeup t =>
        simp [ReproducerAct.credit]
        omega
      | _ => simp [ReproducerAct.credit]
    | loadAcquired =>
      simp [ReproducerAct.credit]
      omega
    | _ => simp [ReproducerAct.credit]

/-! ### Completion -/

/-- A step that gets the program no further: `main` finds the flag unset and sleeps, or a sleeper wakes up for no
    reason. -/
def Reproducer.Idle (s : Reproducer) (a : ReproducerAct) : Prop :=
  (a = .loadAcquired ∧ s.holderAcquired = false) ∨ ∃ t, a = .mutex (.spuriousWakeup t)

/-- A thread that runs and does not sleep has a next step. -/
theorem Reproducer.Inv.exists_step (h : s.Inv p) (hexit : s.main.isExited = false) {w : Worker}
    (hlive : s.closure w ≠ .notSpawned ∧ s.closure w ≠ .returned ∧ s.closure w ≠ .panicked)
    (hawake : s.word.pc w ≠ .asleep) : ∃ a, s.Allows a ∧ ¬s.Idle a := by
  have hfits := h.fits w
  cases hc : s.closure w with
  | notSpawned => exact absurd hc hlive.1
  | returned => exact absurd hc hlive.2.1
  | panicked => exact absurd hc hlive.2.2
  | storeTid => exact ⟨.storeTid w, ⟨hexit, hc⟩, by simp [Reproducer.Idle]⟩
  | lock =>
    cases hpc : s.word.pc w with
    | outside => exact ⟨.mutex (.lock w), ⟨hexit, hpc, hc⟩, by simp [Reproducer.Idle]⟩
    | compareExchange => exact ⟨.mutex (.compareExchange w), ⟨hexit, hpc, hc⟩, by simp [Reproducer.Idle]⟩
    | swapTwo => exact ⟨.mutex (.swapTwo w), ⟨hexit, hpc, hc⟩, by simp [Reproducer.Idle]⟩
    | futexWait => exact ⟨.mutex (.futexWait w), ⟨hexit, hpc, hc⟩, by simp [Reproducer.Idle]⟩
    | asleep => exact absurd hpc hawake
    | locked => exact ⟨.lockReturned w, ⟨hexit, hc, hpc⟩, by simp [Reproducer.Idle]⟩
    | swapZero | futexWake => simp [hc, hpc, ClosurePc.Fits] at hfits
  | unlock =>
    cases hpc : s.word.pc w with
    | locked => exact ⟨.mutex (.unlock w), ⟨hexit, hpc, hc⟩, by simp [Reproducer.Idle]⟩
    | swapZero => exact ⟨.mutex (.swapZero w), ⟨hexit, hpc, hc⟩, by simp [Reproducer.Idle]⟩
    | futexWake =>
      by_cases hsleeper : ∃ u, s.word.pc u = .asleep
      · obtain ⟨u, hu⟩ := hsleeper
        exact ⟨.mutex (.futexWake w (some u)), ⟨hexit, ⟨hpc, hu⟩, hc⟩, by simp [Reproducer.Idle]⟩
      · have hnone : ∀ u, s.word.pc u ≠ .asleep := fun u hu => hsleeper ⟨u, hu⟩
        exact ⟨.mutex (.futexWake w none), ⟨hexit, ⟨hpc, hnone⟩, hc⟩, by simp [Reproducer.Idle]⟩
    | outside => exact ⟨.unlockReturned w, ⟨hexit, hc, hpc⟩, by simp [Reproducer.Idle]⟩
    | compareExchange | swapTwo | futexWait | asleep => simp [hc, hpc, ClosurePc.Fits] at hfits
  | storeAcquired =>
    rw [hc] at hfits
    obtain ⟨rfl, -⟩ : w = .holder ∧ _ := hfits
    exact ⟨.storeAcquired, ⟨hexit, hc⟩, by simp [Reproducer.Idle]⟩
  | openFile =>
    rw [hc] at hfits
    obtain ⟨rfl, -⟩ : w = .holder ∧ _ := hfits
    exact ⟨.openFile true, ⟨hexit, hc⟩, by simp [Reproducer.Idle]⟩
  | alloc =>
    rw [hc] at hfits
    obtain ⟨rfl, -⟩ : w = .holder ∧ _ := hfits
    exact ⟨.alloc true, ⟨hexit, hc⟩, by simp [Reproducer.Idle]⟩
  | pread done =>
    rw [hc] at hfits
    obtain ⟨rfl, -⟩ : w = .holder ∧ _ := hfits
    exact ⟨.pread 0, ⟨hexit, by simp only [hc]; rfl⟩, by simp [Reproducer.Idle]⟩

/-- The holder is never in the loop of `lock`. -/
theorem Reproducer.Inv.holder_fast (h : s.Inv p) :
    s.word.pc .holder ≠ .swapTwo ∧ s.word.pc .holder ≠ .futexWait ∧ s.word.pc .holder ≠ .asleep := by
  have hfits := h.fits .holder
  refine ⟨?_, ?_, ?_⟩ <;>
    · intro hpc
      rw [hpc] at hfits
      revert hfits
      cases s.closure .holder <;> simp [ClosurePc.Fits]

/-- A thread that `main` joins has ended, or has a next step: the holder never sleeps, and once it is back the waiter does
    not sleep either. -/
theorem Reproducer.Inv.exists_step_of_join (h : s.Inv p) {w : Worker} (hmain : s.main = .join w) :
    ∃ a, s.Allows a ∧ ¬s.Idle a := by
  have hexit : s.main.isExited = false := by
    rw [hmain]
    rfl
  have hfits := h.main
  rw [hmain] at hfits
  by_cases hend : s.closure w = .returned ∨ s.closure w = .panicked
  · exact ⟨.join w, ⟨hexit, hmain, hend⟩, by simp [Reproducer.Idle]⟩
  · obtain ⟨hret, hpanic⟩ := not_or.mp hend
    cases w with
    | holder =>
      have hacq := h.spawned hfits
      refine h.exists_step hexit ⟨?_, hret, hpanic⟩ h.holder_fast.2.2
      intro hc
      simp [hc, ClosurePc.hasAcquired] at hacq
    | waiter =>
      refine h.exists_step hexit (w := .waiter) ⟨hfits.2, hret, hpanic⟩ ?_
      intro hasleep
      have hout : s.word.pc .holder = .outside := by
        have hholder := h.fits .holder
        rw [hfits.1] at hholder
        exact hholder
      rcases h.attended _ hasleep with ⟨-, u, hu | hu⟩ | ⟨u, hu⟩ | ⟨u, hu | hu⟩ <;>
        cases u <;> simp [hout, hasleep] at hu

theorem Reproducer.Inv.exited_of_stuck (h : s.Inv p) (hstuck : ∀ a, s.Allows a → s.Idle a) :
    ∃ code, s.main = .exited code := by
  by_contra hno
  have hexit : s.main.isExited = false := by
    cases hmain : s.main with
    | exited code => exact absurd ⟨code, hmain⟩ hno
    | _ => rfl
  suffices hstep : ∃ a, s.Allows a ∧ ¬s.Idle a by
    obtain ⟨a, ha, hidle⟩ := hstep
    exact hidle (hstuck a ha)
  have hfits := h.main
  cases hmain : s.main with
  | currentExe => exact ⟨.currentExe true, ⟨hexit, hmain⟩, by simp [Reproducer.Idle]⟩
  | metadata => exact ⟨.metadata none, ⟨hexit, hmain⟩, by simp [Reproducer.Idle]⟩
  | spawn w => exact ⟨.spawn w true, ⟨hexit, hmain⟩, by simp [Reproducer.Idle]⟩
  | println => exact ⟨.println true, ⟨hexit, hmain⟩, by simp [Reproducer.Idle]⟩
  | join w => exact h.exists_step_of_join hmain
  | exited code => exact absurd ⟨code, hmain⟩ hno
  | loadAcquired =>
    cases hflag : s.holderAcquired with
    | true => exact ⟨.loadAcquired, ⟨hexit, hmain⟩, by simp [Reproducer.Idle, hflag]⟩
    | false =>
      -- The holder is on its way to set the flag, and it does not sleep.
      rw [hmain] at hfits
      have hacq : (s.closure .holder).hasAcquired = false := h.acquired.symm.trans hflag
      refine h.exists_step hexit ⟨hfits.1, ?_, ?_⟩ h.holder_fast.2.2
      · intro hc
        simp [hc, ClosurePc.hasAcquired] at hacq
      · intro hc
        simp [hc, ClosurePc.hasAcquired] at hacq

/-! ### Runs -/

theorem released_iff_of_eq (s s' : Reproducer) (hc : s'.closure .holder = s.closure .holder)
    (hpc : s'.word.pc .holder = s.word.pc .holder) : s'.Released ↔ s.Released := by
  rw [Reproducer.Released, Reproducer.Released, hc, hpc]

/-- Only the holder's swap back to zero gives the lock back. -/
theorem Reproducer.Inv.released_step (h : s.Inv p) (ha : s.Allows a) (hno : ¬s.Released) (hrel : (s.step p a).Released) :
    a = .mutex (.swapZero .holder) := by
  obtain ⟨-, ha⟩ := ha
  have hfits := h.fits .holder
  cases a with
  | mutex b =>
    obtain ⟨ha, hc⟩ : s.word.Allows b ∧ s.closure b.thread = b.call := ha
    by_cases ht : b.thread = .holder
    · rcases hrel with hret | ⟨hunlock, hpc⟩
      · exact absurd (Or.inl hret) hno
      · rw [ht, show s.closure .holder = .unlock from hunlock] at hc
        cases b with
        | lock | compareExchange | swapTwo | futexWait | spuriousWakeup => cases hc
        | unlock t =>
          obtain rfl : t = .holder := ht
          simp [Reproducer.step, Mutex.step] at hpc
        | swapZero t => rw [show t = .holder from ht]
        | futexWake t woken =>
          obtain rfl : t = .holder := ht
          have hpc' : s.word.pc .holder = .futexWake := by cases woken <;> exact ha.1
          exact absurd (Or.inr ⟨hunlock, Or.inl hpc'⟩) hno
    · rcases Mutex.pc_step_of_ne ha (Ne.symm ht) with hsame | ⟨hasleep, -⟩
      · exact absurd ((released_iff_of_eq s (s.step p (.mutex b)) rfl hsame).mp hrel) hno
      · exact absurd hasleep h.holder_fast.2.2
  | pread n =>
    cases hpc : s.closure .holder with
    | pread done =>
      rw [hpc] at hfits
      have hlocked : s.word.pc .holder = .locked := hfits.2
      by_cases hn : n < 0
      · simp [Reproducer.step, hpc, hn, Reproducer.Released, Reproducer.goto] at hrel
      · by_cases hdone : done + 1 < readRepeats <;>
          simp [Reproducer.step, hpc, hn, hdone, Reproducer.Released, Reproducer.goto, hlocked] at hrel
    | _ => simp [hpc, ClosurePc.isPread] at ha
  | spawn w ok =>
    cases ok with
    | false => exact absurd hrel hno
    | true =>
      cases w with
      | holder => simp [Reproducer.step, Reproducer.Released, Reproducer.goto] at hrel
      | waiter => exact absurd hrel hno
  | storeTid w =>
    cases w with
    | holder => simp [Reproducer.step, Reproducer.Released, Reproducer.goto] at hrel
    | waiter => exact absurd hrel hno
  | lockReturned w =>
    cases w with
    | holder => simp [Reproducer.step, Reproducer.Released, Reproducer.goto] at hrel
    | waiter => exact absurd hrel hno
  | unlockReturned w =>
    cases w with
    | holder => exact absurd (Or.inr ⟨ha.1, Or.inr ha.2⟩) hno
    | waiter => exact absurd hrel hno
  | storeAcquired => simp [Reproducer.step, Reproducer.Released, Reproducer.goto] at hrel
  | openFile ok => cases ok <;> simp [Reproducer.step, Reproducer.Released, Reproducer.goto] at hrel
  | alloc ok => cases ok <;> simp [Reproducer.step, Reproducer.Released, Reproducer.goto] at hrel
  | join w =>
    simp only [Reproducer.step] at hrel
    split at hrel <;> exact absurd hrel hno
  | metadata len => cases len <;> exact absurd hrel hno
  | println ok => cases ok <;> exact absurd hrel hno
  | currentExe | loadAcquired => exact absurd hrel hno

/-- What the program has written: the line, once it has exited with success. -/
def Reproducer.Printed (p : Process) (s : Reproducer) : Prop :=
  s.stdout = if s.main = .exited 0 then doneLine p.pid (p.tid .holder) (p.tid .waiter) else ""

theorem Reproducer.Printed.of_live {s' : Reproducer} (hprinted : s.stdout = "") (hout : s'.stdout = s.stdout)
    (hlive : s'.main ≠ .exited 0) : s'.Printed p := by
  rw [Reproducer.Printed, if_neg hlive, hout, hprinted]

theorem Reproducer.Inv.printed_step (h : s.Inv p) (ha : s.Allows a) (hprinted : s.Printed p) : (s.step p a).Printed p := by
  obtain ⟨hexit, ha⟩ := ha
  have hlive : s.main ≠ .exited 0 := by
    intro hmain
    simp [hmain, MainPc.isExited] at hexit
  rw [Reproducer.Printed, if_neg hlive] at hprinted
  cases a with
  | println ok =>
    cases ok with
    | false => exact .of_live hprinted rfl (by simp [Reproducer.step])
    | true =>
      have hfits := h.main
      rw [show s.main = .println from ha] at hfits
      have hholder := h.tids .holder (by simp [hfits.1]) (by simp [hfits.1])
      have hwaiter := h.tids .waiter (by simp [hfits.2]) (by simp [hfits.2])
      simp [Reproducer.Printed, Reproducer.step, hprinted, hholder, hwaiter]
  | currentExe ok => cases ok <;> exact .of_live hprinted rfl (by simp [Reproducer.step])
  | metadata len =>
    cases len with
    | none => exact .of_live hprinted rfl (by simp [Reproducer.step])
    | some len =>
      refine .of_live hprinted rfl ?_
      simp only [Reproducer.step]
      split <;> simp
  | spawn w ok => cases w <;> cases ok <;> exact .of_live hprinted rfl (by simp [Reproducer.step, Reproducer.goto])
  | loadAcquired =>
    refine .of_live hprinted rfl ?_
    simp only [Reproducer.step]
    split <;> simp
  | join w =>
    simp only [Reproducer.step]
    split
    · exact .of_live hprinted rfl (by simp)
    · cases w <;> exact .of_live hprinted rfl (by simp)
  | lockReturned w => cases w <;> exact .of_live hprinted rfl hlive
  | pread n =>
    simp only [Reproducer.step]
    split
    · split <;> exact .of_live hprinted rfl hlive
    · exact .of_live hprinted rfl hlive
  | storeTid | mutex | storeAcquired | openFile | alloc | unlockReturned => exact .of_live hprinted rfl hlive

def reproducerAt (p : Process) (l : List ReproducerAct) (n : Nat) : Reproducer :=
  stateAt (Reproducer.step p) Reproducer.start l n

section Runs
variable {l : List ReproducerAct} (hrun : Allowed (Reproducer.step p) Reproducer.Allows Reproducer.start l)
include hrun

theorem reproducer_inv (n : Nat) : (reproducerAt p l n).Inv p :=
  hrun.induction Reproducer.Inv.start (fun _ _ h ha => h.step ha) n

theorem reads_of_released {n : Nat} (hrel : (reproducerAt p l n).Released) :
    readRepeats ≤ (l.take n).countP ReproducerAct.isRead := by
  have hreads := (hrun.take n).le_countP (f := fun s => (s.closure .holder).reads)
    fun s a ha => Reproducer.reads_step ha
  have hall : ((reproducerAt p l n).closure .holder).reads = readRepeats := by
    rcases hrel with hc | ⟨hc, -⟩ <;> rw [hc] <;> rfl
  calc
    readRepeats = ((reproducerAt p l n).closure .holder).reads := hall.symm
    _ ≤ 0 + (l.take n).countP ReproducerAct.isRead := hreads
    _ = (l.take n).countP ReproducerAct.isRead := Nat.zero_add _

/-- In every order of the steps, with any results of the calls: the waiter has the lock only after the holder has done
    all its reads and has swapped the word back. The holder takes the lock at its first operation and never waits for
    it, and a sleeper that is woken up is the waiter, by the holder, after the reads. -/
theorem waiter_follows_holder (n : Nat) :
    ((reproducerAt p l n).word.Holds .waiter → readRepeats ≤ (l.take n).countP ReproducerAct.isRead ∧
      ∃ i < n, l[i]? = some (.mutex (.swapZero .holder))) ∧
    (l[n]? ≠ some (.mutex (.swapTwo .holder)) ∧ l[n]? ≠ some (.mutex (.futexWait .holder))) ∧
    ∀ t u, l[n]? = some (.mutex (.futexWake t (some u))) →
      t = .holder ∧ u = .waiter ∧ readRepeats ≤ (l.take n).countP ReproducerAct.isRead := by
  have h := reproducer_inv hrun n
  refine ⟨?_, ⟨?_, ?_⟩, ?_⟩
  · intro hw
    have hrel := h.order (Or.inl hw)
    refine ⟨reads_of_released hrun hrel, ?_⟩
    have hstart : ¬Reproducer.start.Released := by simp [Reproducer.Released, Reproducer.start]
    obtain ⟨i, hi, a, ha, hno, hstep⟩ := exists_step_of_stateAt hstart hrel
    obtain rfl := (reproducer_inv hrun i).released_step (hrun.at ha) hno hstep
    exact ⟨i, hi, ha⟩
  · intro ha
    exact h.holder_fast.1 (hrun.at ha).2.1
  · intro ha
    exact h.holder_fast.2.1 (hrun.at ha).2.1
  · intro t u ha
    obtain ⟨-, ⟨ht, hu⟩, hc⟩ := hrun.at ha
    have hwaiter : u = .waiter := by
      cases u with
      | holder => exact absurd hu h.holder_fast.2.2
      | waiter => rfl
    have hholder : t = .holder := by
      cases t with
      | holder => rfl
      | waiter =>
        rw [hwaiter] at hu
        cases ht.symm.trans hu
    subst hholder
    exact ⟨rfl, hwaiter, reads_of_released hrun (Or.inr ⟨hc, Or.inl ht⟩)⟩

/-- In every order of the steps: a run has at most 174 steps, one for each load of the flag and three for each spurious
    wakeup apart. And a run that can go on only with these has come to the exit of the process, also when the holder
    has died with the lock in its hands. -/
theorem reproducer_terminates :
    l.length ≤ 174 + l.countP (· matches .loadAcquired) + 3 * l.countP (· matches .mutex (.spuriousWakeup _)) ∧
    ((∀ a, (reproducerAt p l l.length).Allows a → (reproducerAt p l l.length).Idle a) →
      ∃ code, (reproducerAt p l l.length).main = .exited code) := by
  refine ⟨?_, (reproducer_inv hrun l.length).exited_of_stuck⟩
  have hinv := hrun.and_inv (I := fun s => s.Inv p) Reproducer.Inv.start fun _ _ h ha => h.step ha
  have hlen := hinv.length_le (μ := Reproducer.remaining) fun s a ha => Reproducer.remaining_step ha.1 ha.2
  have hstart : Reproducer.start.remaining = 174 := by rfl
  rw [hstart, sum_reproducer_credit] at hlen
  omega

/-- In every order of the steps: a process that has exited has exited with success if and only if no call of the system
    failed, its own reads and its executable's size included. Then it has written the line with the ids of its process
    and its two threads, the word is zero and both threads have returned; else it has written nothing. -/
theorem reproducer_exit {code : Nat} (hexit : (reproducerAt p l l.length).main = .exited code) :
    (code = 0 ↔ ∀ a ∈ l, ¬a.Fails) ∧
    (code = 0 → (reproducerAt p l l.length).stdout = doneLine p.pid (p.tid .holder) (p.tid .waiter) ∧
      (reproducerAt p l l.length).word.word = 0 ∧ ∀ w, (reproducerAt p l l.length).closure w = .returned) ∧
    (code ≠ 0 → (reproducerAt p l l.length).stdout = "") := by
  have hinv := hrun.and_inv (I := fun s => s.Inv p) Reproducer.Inv.start fun _ _ h ha => h.step ha
  have h := reproducer_inv hrun l.length
  have hfits := h.main
  rw [hexit] at hfits
  have hprinted : (reproducerAt p l l.length).Printed p :=
    hinv.induction (P := Reproducer.Printed p) rfl (fun _ _ hs ha => ha.1.printed_step ha.2 hs) l.length
  rw [Reproducer.Printed, hexit] at hprinted
  have hfailed : (reproducerAt p l l.length).Failed ↔ code ≠ 0 := by
    refine ⟨?_, fun hne => Or.inl ⟨code, hne, hexit⟩⟩
    rintro (⟨c, hc, hmain⟩ | hpanic)
    · cases hexit.symm.trans hmain
      exact hc
    · rintro rfl
      cases hpanic.symm.trans hfits.1
  have hall : (reproducerAt p l l.length).Failed ↔ ∃ a ∈ l, a.Fails := by
    have hiff := hinv.iff_exists_mem (P := Reproducer.Failed) (q := ReproducerAct.Fails)
      fun s a ha => Reproducer.failed_step ha.1 ha.2
    have hstart : ¬Reproducer.start.Failed := by simp [Reproducer.Failed, Reproducer.start]
    rw [← stateAt_length] at hiff
    simpa [hstart, reproducerAt] using hiff
  have hcode : code ≠ 0 ↔ ∃ a ∈ l, a.Fails := hfailed.symm.trans hall
  refine ⟨⟨?_, ?_⟩, ?_, ?_⟩
  · intro h0 a ha hfails
    exact hcode.mpr ⟨a, ha, hfails⟩ h0
  · intro hno
    by_contra hne
    obtain ⟨a, ha, hfails⟩ := hcode.mp hne
    exact hno a ha hfails
  · rintro rfl
    refine ⟨by simpa using hprinted, ?_, ?_⟩
    · obtain ⟨owner, hown⟩ := h.owned
      refine hown.word_eq_zero ?_
      intro t ht
      have hout := h.fits t
      cases t with
      | holder =>
        rw [hfits.1] at hout
        simp [Mutex.Holds, show _ = MutexPc.outside from hout, MutexPc.Holds] at ht
      | waiter =>
        rw [hfits.2] at hout
        simp [Mutex.Holds, show _ = MutexPc.outside from hout, MutexPc.Holds] at ht
    · rintro (_ | _)
      · exact hfits.1
      · exact hfits.2
  · intro hne
    simpa [hne] using hprinted

end Runs

/-- The waiter goes to sleep on the lock before the holder starts to read. -/
def runToReads : List ReproducerAct :=
  [.currentExe true, .metadata (some 65536), .spawn .holder true, .storeTid .holder, .loadAcquired,
    .mutex (.lock .holder), .mutex (.compareExchange .holder), .lockReturned .holder, .storeAcquired, .loadAcquired,
    .spawn .waiter true, .openFile true, .alloc true, .storeTid .waiter, .mutex (.lock .waiter),
    .mutex (.compareExchange .waiter), .mutex (.swapTwo .waiter), .mutex (.futexWait .waiter)]

def runFromReads : List ReproducerAct :=
  [.mutex (.unlock .holder), .mutex (.swapZero .holder), .mutex (.futexWake .holder (some .waiter)),
    .unlockReturned .holder, .join .holder, .mutex (.swapTwo .waiter), .lockReturned .waiter, .mutex (.unlock .waiter),
    .mutex (.swapZero .waiter), .mutex (.futexWake .waiter none), .unlockReturned .waiter, .join .waiter, .println true]

/-- The run the program is written for. -/
def groundTruthRun : List ReproducerAct :=
  runToReads ++ (List.replicate readRepeats (ReproducerAct.pread 65536) ++ runFromReads)

def groundTruthProcess : Process := ⟨40, fun w => match w with | .holder => 41 | .waiter => 42⟩

theorem waiter_follows_holder_groundTruthRun :
    Allowed (Reproducer.step groundTruthProcess) Reproducer.Allows Reproducer.start groundTruthRun ∧
    (reproducerAt groundTruthProcess groundTruthRun 88).word.pc .waiter = .locked ∧
    readRepeats ≤ (groundTruthRun.take 88).countP ReproducerAct.isRead := by
  have hrun : Allowed (Reproducer.step groundTruthProcess) Reproducer.Allows Reproducer.start groundTruthRun := by
    decide +kernel
  have hpc : (reproducerAt groundTruthProcess groundTruthRun 88).word.pc .waiter = .locked := by decide +kernel
  refine ⟨hrun, hpc, ((waiter_follows_holder hrun 88).1 ?_).1⟩
  rw [Mutex.Holds, hpc]
  exact Or.inl rfl

/-- The first read fails: the holder dies with the lock in its hands while the waiter sleeps on it. -/
def failedReadRun : List ReproducerAct := runToReads ++ [ReproducerAct.pread (-1), ReproducerAct.join .holder]

theorem reproducer_terminates_failedReadRun :
    Allowed (Reproducer.step groundTruthProcess) Reproducer.Allows Reproducer.start failedReadRun ∧
    (reproducerAt groundTruthProcess failedReadRun 20).word.pc .waiter = .asleep ∧
    failedReadRun.length ≤ 174 + 2 + 3 * 0 ∧
    ∃ code, (reproducerAt groundTruthProcess failedReadRun failedReadRun.length).main = .exited code := by
  have hrun : Allowed (Reproducer.step groundTruthProcess) Reproducer.Allows Reproducer.start failedReadRun := by
    decide +kernel
  have hmain : (reproducerAt groundTruthProcess failedReadRun failedReadRun.length).main.isExited = true := by
    decide +kernel
  refine ⟨hrun, by decide +kernel, (reproducer_terminates hrun).1, (reproducer_terminates hrun).2 ?_⟩
  intro a ha
  cases ha.1.symm.trans hmain

theorem reproducer_exit_groundTruthRun :
    Allowed (Reproducer.step groundTruthProcess) Reproducer.Allows Reproducer.start groundTruthRun ∧
    (reproducerAt groundTruthProcess groundTruthRun groundTruthRun.length).stdout = doneLine 40 41 42 := by
  have hrun : Allowed (Reproducer.step groundTruthProcess) Reproducer.Allows Reproducer.start groundTruthRun := by
    decide +kernel
  have hmain : (reproducerAt groundTruthProcess groundTruthRun groundTruthRun.length).main = .exited 0 := by
    decide +kernel
  exact ⟨hrun, ((reproducer_exit hrun hmain).2.1 rfl).1⟩

end Whyslow
