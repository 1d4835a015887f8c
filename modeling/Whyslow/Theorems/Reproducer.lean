import Whyslow.Theorems.Progress
import Whyslow.Reproducer

/-! What holds in every state of the synthetic program. Each closure is at a point that fits where its thread is in the
    lock, and `main` at one that fits both. The flag orders the two threads: the waiter is spawned only after the holder
    has the lock, so when the waiter has it, the holder has given it back (`Reproducer.Inv.order`). -/

namespace Whyslow
open Runs

/-! ### The invariant -/

/-- Where a thread can be in the lock while its closure is at this point. The holder never gets past the first operation
    of `lock` without the lock, and the waiter does nothing but lock and unlock. -/
def ClosurePc.Fits (w : Worker) (pc : MutexPc) : ClosurePc → Prop
  | .notSpawned | .storeTid | .returned => pc = .outside
  | .lock => (pc = .outside ∨ pc = .compareExchange ∨ pc = .locked) ∨
    w = .waiter ∧ (pc = .swapTwo ∨ pc = .futexWait ∨ pc = .asleep)
  | .storeAcquired | .openFile | .alloc | .pread _ | .panicked => w = .holder ∧ pc = .locked
  | .unlock => pc = .locked ∨ pc = .swapZero ∨ pc = .futexWake ∨ pc = .outside

/-- The holder has set the flag. -/
def ClosurePc.hasAcquired : ClosurePc → Bool
  | .notSpawned | .storeTid | .lock | .storeAcquired => false
  | .openFile | .alloc | .pread _ | .unlock | .returned | .panicked => true

/-- How far the two closures can be when `main` is at this point. -/
def MainPc.Fits (holder waiter : ClosurePc) : MainPc → Prop
  | .currentExe | .metadata | .spawn .holder => holder = .notSpawned ∧ waiter = .notSpawned
  | .loadAcquired => holder ≠ .notSpawned ∧ waiter = .notSpawned
  | .spawn .waiter => holder.hasAcquired ∧ waiter = .notSpawned
  | .join .holder => waiter ≠ .notSpawned
  | .join .waiter => holder = .returned ∧ waiter ≠ .notSpawned
  | .println | .exited 0 => holder = .returned ∧ waiter = .returned
  | .exited _ => True

/-- The holder has set the word back, after its last read. -/
def Reproducer.Released (s : Reproducer) : Prop :=
  s.closure .holder = .returned ∨
    s.closure .holder = .unlock ∧ (s.word.pc .holder = .futexWake ∨ s.word.pc .holder = .outside)

structure Reproducer.Inv (p : Process) (s : Reproducer) : Prop where
  owned : ∃ owner, Owned s.word owner
  attended : Attended s.word
  fits : ∀ w, (s.closure w).Fits w (s.word.pc w)
  main : s.main.Fits (s.closure .holder) (s.closure .waiter)
  acquired : s.holderAcquired = (s.closure .holder).hasAcquired
  spawned : s.closure .waiter ≠ .notSpawned → (s.closure .holder).hasAcquired
  order : s.word.Holds .waiter ∨ s.closure .waiter = .unlock ∨ s.closure .waiter = .returned → s.Released
  tids : ∀ w, s.closure w ≠ .notSpawned → s.closure w ≠ .storeTid → s.tids w = p.tid w

variable {p : Process} {s : Reproducer} {a : ReproducerAct}

theorem Reproducer.Inv.start : Reproducer.Inv p Reproducer.start where
  owned := ⟨none, Owned.new⟩
  attended := nofun
  fits _ := rfl
  main := ⟨rfl, rfl⟩
  acquired := rfl
  spawned h := absurd rfl h
  order h := by simp [Reproducer.start, Mutex.Holds, Mutex.new, MutexPc.Holds] at h
  tids _ h := absurd rfl h

/-! ### Steps of the closures -/

section Closures
variable {pc pc' : ClosurePc}

/-- A closure that has started and has not returned goes on, and `main` is where it was. -/
theorem MainPc.Fits.holder {main : MainPc} {waiter : ClosurePc} (h : main.Fits pc' waiter)
    (hlive : pc' ≠ .notSpawned ∧ pc' ≠ .returned) (hpc : pc ≠ .notSpawned) (hacq : pc'.hasAcquired → pc.hasAcquired) :
    main.Fits pc waiter := by
  cases main with
  | currentExe | metadata => exact absurd h.1 hlive.1
  | loadAcquired => exact ⟨hpc, h.2⟩
  | println => exact absurd h.1 hlive.2
  | spawn w =>
    cases w with
    | holder => exact absurd h.1 hlive.1
    | waiter => exact ⟨hacq h.1, h.2⟩
  | join w =>
    cases w with
    | holder => exact h
    | waiter => exact absurd h.1 hlive.2
  | exited code =>
    cases code with
    | zero => exact absurd h.1 hlive.2
    | succ code => trivial

theorem MainPc.Fits.waiter {main : MainPc} {holder : ClosurePc} (h : main.Fits holder pc')
    (hlive : pc' ≠ .notSpawned ∧ pc' ≠ .returned) (hpc : pc ≠ .notSpawned) : main.Fits holder pc := by
  cases main with
  | currentExe | metadata | loadAcquired => exact absurd h.2 hlive.1
  | println => exact absurd h.2 hlive.2
  | spawn w => cases w <;> exact absurd h.2 hlive.1
  | join w =>
    cases w with
    | holder => exact hpc
    | waiter => exact ⟨h.1, hpc⟩
  | exited code =>
    cases code with
    | zero => exact absurd h.2 hlive.2
    | succ code => trivial

theorem Reproducer.closure_goto (s : Reproducer) (w v : Worker) (pc : ClosurePc) :
    (s.goto w pc).closure v = if v = w then pc else s.closure v := Function.update_apply _ _ _ _

theorem Reproducer.Inv.holder (h : s.Inv p) (pc : ClosurePc) (hpc' : s.closure .holder = pc')
    (hlive : pc' ≠ .notSpawned ∧ pc' ≠ .returned) (hpc : pc ≠ .notSpawned ∧ pc ≠ .storeTid)
    (hfits : pc.Fits .holder (s.word.pc .holder)) (hacq : pc'.hasAcquired → pc.hasAcquired)
    (hunlock : pc' = .unlock → pc = .returned) {flag : Bool} (hflag : flag = pc.hasAcquired) {tids : Worker → UInt32}
    (htids : tids .holder = p.tid .holder ∧ tids .waiter = s.tids .waiter) :
    ({ s with holderAcquired := flag, tids := tids }.goto .holder pc).Inv p where
  owned := h.owned
  attended := h.attended
  fits w := by
    cases w with
    | holder => exact hfits
    | waiter => exact h.fits .waiter
  main := (hpc' ▸ h.main).holder hlive hpc.1 hacq
  acquired := hflag
  spawned hw := hacq (hpc' ▸ h.spawned hw)
  order hw := by
    refine Or.inl ?_
    rcases h.order hw with hret | hrel
    · exact absurd (hpc'.symm.trans hret) hlive.2
    · exact hunlock (hpc'.symm.trans hrel.1)
  tids w := by
    cases w with
    | holder => exact fun _ _ => htids.1
    | waiter => exact fun h1 h2 => htids.2.trans (h.tids .waiter h1 h2)

theorem Reproducer.Inv.waiter (h : s.Inv p) (pc : ClosurePc) (hpc' : s.closure .waiter = pc')
    (hlive : pc' ≠ .notSpawned ∧ pc' ≠ .returned) (hpc : pc ≠ .notSpawned ∧ pc ≠ .storeTid)
    (hfits : pc.Fits .waiter (s.word.pc .waiter)) (horder : pc = .unlock ∨ pc = .returned → s.Released)
    {tids : Worker → UInt32} (htids : tids .waiter = p.tid .waiter ∧ tids .holder = s.tids .holder) :
    ({ s with tids := tids }.goto .waiter pc).Inv p where
  owned := h.owned
  attended := h.attended
  fits w := by
    cases w with
    | holder => exact h.fits .holder
    | waiter => exact hfits
  main := (hpc' ▸ h.main).waiter hlive hpc.1
  acquired := h.acquired
  spawned _ := h.spawned (hpc' ▸ hlive.1)
  order hw := by
    rcases hw with hw | hw
    · exact h.order (Or.inl hw)
    · exact horder hw
  tids w := by
    cases w with
    | holder => exact fun h1 h2 => htids.2.trans (h.tids .holder h1 h2)
    | waiter => exact fun _ _ => htids.1

end Closures

/-! ### Steps of the lock -/

theorem fits_goto {closure : Worker → ClosurePc} {m : Mutex Worker} {t : Worker} {pc : MutexPc} {c : ClosurePc}
    (h : ∀ w, (closure w).Fits w (m.pc w)) (hc : closure t = c) (ht : c.Fits t pc) (w : Worker) :
    (closure w).Fits w ((m.goto t pc).pc w) := by
  by_cases hw : w = t
  · subst hw
    rw [Mutex.pc_goto_self, hc]
    exact ht
  · rw [Mutex.pc_goto_of_ne _ _ hw]
    exact h w

/-- Nobody else is there yet when the holder tries the lock. -/
theorem Reproducer.Inv.word_eq_zero (h : s.Inv p) (hc : s.closure .holder = .lock)
    (hpc : s.word.pc .holder = .compareExchange) : s.word.word = 0 := by
  obtain ⟨owner, hown⟩ := h.owned
  refine hown.word_eq_zero ?_
  intro t ht
  cases t with
  | holder => simp [Mutex.Holds, hpc, MutexPc.Holds] at ht
  | waiter =>
    have hspawned : s.closure .waiter = .notSpawned := by
      by_contra hne
      have := h.spawned hne
      simp [hc, ClosurePc.hasAcquired] at this
    have hout : s.word.pc .waiter = .outside := by
      have hfits := h.fits .waiter
      rw [hspawned] at hfits
      exact hfits
    simp [Mutex.Holds, hout, MutexPc.Holds] at ht

theorem Reproducer.Inv.fits_mutex (h : s.Inv p) {b : MutexAct Worker} (ha : s.word.Allows b)
    (hc : s.closure b.thread = b.call) (w : Worker) : (s.closure w).Fits w ((s.word.step b).pc w) := by
  have ht := h.fits b.thread
  rw [hc] at ht
  cases b with
  | lock t => exact fits_goto h.fits hc (Or.inl (Or.inr (Or.inl rfl))) w
  | compareExchange t =>
    have hpc : s.word.pc t = .compareExchange := ha
    by_cases h0 : s.word.word = 0
    · simp only [Mutex.step, compareExchange, h0, if_true]
      exact fits_goto (m := { s.word with word := 1 }) h.fits hc (Or.inl (Or.inr (Or.inr rfl))) w
    · simp only [Mutex.step, compareExchange, h0, if_false]
      cases t with
      | holder => exact absurd (h.word_eq_zero hc hpc) h0
      | waiter => exact fits_goto h.fits hc (Or.inr ⟨rfl, Or.inl rfl⟩) w
  | swapTwo t =>
    have hpc : s.word.pc t = .swapTwo := ha
    refine fits_goto (m := { s.word with word := 2 }) h.fits hc ?_ w
    simp only [MutexAct.thread, MutexAct.call, hpc, ClosurePc.Fits] at ht ⊢
    split <;> simp_all
  | futexWait t =>
    have hpc : s.word.pc t = .futexWait := ha
    refine fits_goto h.fits hc ?_ w
    simp only [MutexAct.thread, MutexAct.call, hpc, ClosurePc.Fits] at ht ⊢
    split <;> simp_all
  | spuriousWakeup t =>
    have hpc : s.word.pc t = .asleep := ha
    refine fits_goto h.fits hc ?_ w
    simp only [MutexAct.thread, MutexAct.call, hpc, ClosurePc.Fits] at ht ⊢
    simp_all
  | unlock t => exact fits_goto h.fits hc (Or.inr (Or.inl rfl)) w
  | swapZero t =>
    refine fits_goto (m := { s.word with word := 0 }) h.fits hc ?_ w
    split
    · exact Or.inr (Or.inr (Or.inl rfl))
    · exact Or.inr (Or.inr (Or.inr rfl))
  | futexWake t woken =>
    have hout : (MutexAct.futexWake t woken).call.Fits t .outside := Or.inr (Or.inr (Or.inr rfl))
    cases woken with
    | none => exact fits_goto h.fits hc hout w
    | some u =>
      have hu := h.fits u
      rw [show s.word.pc u = .asleep from ha.2] at hu
      refine fits_goto (fits_goto h.fits rfl ?_) hc hout w
      revert hu
      cases s.closure u <;> simp [ClosurePc.Fits]

/-- A thread moves by its own steps, or is woken up. -/
theorem Mutex.pc_step_of_ne {ι : Type} [DecidableEq ι] {m : Mutex ι} {b : MutexAct ι} {t : ι} (ha : m.Allows b)
    (hne : t ≠ b.thread) : (m.step b).pc t = m.pc t ∨ (m.pc t = .asleep ∧ (m.step b).pc t = .swapTwo) := by
  cases b with
  | futexWake u woken =>
    cases woken with
    | none => exact Or.inl (Mutex.pc_goto_of_ne _ _ hne)
    | some v =>
      have hsame := Mutex.pc_goto_of_ne (m.goto v .swapTwo) .outside hne
      by_cases hv : t = v
      · subst hv
        exact Or.inr ⟨ha.2, hsame.trans (Mutex.pc_goto_self _ _ _)⟩
      · exact Or.inl (hsame.trans (Mutex.pc_goto_of_ne _ _ hv))
  | _ => exact Or.inl (Mutex.pc_goto_of_ne _ _ hne)

theorem Reproducer.Released.mutex (h : s.Released) {b : MutexAct Worker} (ha : s.word.Allows b)
    (hc : s.closure b.thread = b.call) : Reproducer.Released { s with word := s.word.step b } := by
  rcases h with hret | ⟨hunlock, hpc⟩
  · exact Or.inl hret
  · refine Or.inr ⟨hunlock, ?_⟩
    by_cases ht : b.thread = .holder
    · -- Only the wake is left to the holder.
      rw [ht, hunlock] at hc
      cases b with
      | lock | compareExchange | swapTwo | futexWait | spuriousWakeup => cases hc
      | unlock t | swapZero t =>
        obtain rfl : t = .holder := ht
        simp [show s.word.pc .holder = _ from ha] at hpc
      | futexWake t woken =>
        obtain rfl : t = .holder := ht
        refine Or.inr ?_
        cases woken <;> exact Mutex.pc_goto_self _ _ _
    · rcases Mutex.pc_step_of_ne ha (Ne.symm ht) with hsame | ⟨hasleep, -⟩
      · simp only [hsame]
        exact hpc
      · simp [hasleep] at hpc

/-- The holder has had the lock; when it is free, it has been given back. -/
theorem Reproducer.Inv.released (h : s.Inv p) (hacq : (s.closure .holder).hasAcquired)
    (hfree : ¬s.word.Holds .holder) : s.Released := by
  have hfits := h.fits .holder
  cases hc : s.closure .holder with
  | notSpawned | storeTid | lock | storeAcquired => simp [hc, ClosurePc.hasAcquired] at hacq
  | openFile | alloc | pread | panicked =>
    rw [hc] at hfits
    exact absurd (Or.inl hfits.2) hfree
  | unlock =>
    refine Or.inr ⟨hc, ?_⟩
    rw [hc] at hfits
    rcases hfits with hpc | hpc | hpc
    · exact absurd (Or.inl hpc) hfree
    · exact absurd (Or.inr hpc) hfree
    · exact hpc
  | returned => exact Or.inl hc

theorem Reproducer.Inv.mutex (h : s.Inv p) {b : MutexAct Worker} (ha : s.word.Allows b)
    (hc : s.closure b.thread = b.call) : Reproducer.Inv p { s with word := s.word.step b } := by
  obtain ⟨owner, hown⟩ := h.owned
  refine { h with
    owned := ⟨_, (hown.step ha).2⟩, attended := h.attended.step hown ha, fits := h.fits_mutex ha hc, order := ?_ }
  rintro (hw | hw)
  · rcases (hown.holds_step ha .waiter).mp hw with hv | ⟨hw, -⟩
    · -- The waiter takes a lock that is free, so the holder has given it back.
      have hnone : owner = none := (hown.step ha).1 _ hv
      have hspawned : s.closure .waiter = .lock := by
        cases b with
        | compareExchange t | swapTwo t =>
          simp only [Mutex.visible] at hv
          split at hv
          · cases hv
            exact hc
          · cases hv
        | _ => cases hv
      refine (h.released (h.spawned (by simp [hspawned])) ?_).mutex ha hc
      rw [hown.holds, hnone]
      simp
    · exact (h.order (Or.inl hw)).mutex ha hc
  · exact (h.order (Or.inr hw)).mutex ha hc

/-! ### Steps of the program -/

/-- The holder goes on behind `lock`, with the lock in its hands. -/
theorem Reproducer.Inv.holding (h : s.Inv p) {pc pc' : ClosurePc} (hpc' : s.closure .holder = pc')
    (hheld : pc'.hasAcquired ∧ s.word.pc .holder = .locked ∧ pc' ≠ .unlock ∧ pc' ≠ .returned)
    (hpc : pc.hasAcquired ∧ pc ≠ .returned) : (s.goto .holder pc).Inv p := by
  obtain ⟨hacq', hlocked, hunlock, hret⟩ := hheld
  have hne' : pc' ≠ .notSpawned ∧ pc' ≠ .storeTid := by
    refine ⟨?_, ?_⟩ <;> rintro rfl <;> cases hacq'
  refine h.holder pc hpc' ⟨hne'.1, hret⟩ ?_ ?_ (fun _ => hpc.1) (fun h => absurd h hunlock) ?_ ⟨?_, rfl⟩
  · refine ⟨?_, ?_⟩ <;> rintro rfl <;> cases hpc.1
  · rw [hlocked]
    cases pc <;> simp_all [ClosurePc.Fits, ClosurePc.hasAcquired]
  · rw [h.acquired, hpc', hacq', hpc.1]
  · exact h.tids .holder (by rw [hpc']; exact hne'.1) (by rw [hpc']; exact hne'.2)

theorem Reproducer.Inv.step (h : s.Inv p) (ha : s.Allows a) : (s.step p a).Inv p := by
  obtain ⟨-, ha⟩ := ha
  cases a with
  | currentExe ok =>
    have hmain := h.main
    rw [show s.main = .currentExe from ha] at hmain
    cases ok with
    | false => exact { h with main := trivial }
    | true => exact { h with main := hmain }
  | metadata len =>
    have hmain := h.main
    rw [show s.main = .metadata from ha] at hmain
    cases len with
    | none => exact { h with main := trivial }
    | some len =>
      by_cases hlen : len.toNat ≥ fileSize
      · simp only [Reproducer.step, if_pos hlen]
        exact { h with main := hmain }
      · simp only [Reproducer.step, if_neg hlen]
        exact { h with main := trivial }
  | spawn w ok =>
    have hmain := h.main
    rw [show s.main = .spawn w from ha] at hmain
    cases ok with
    | false => exact { h with main := trivial }
    | true =>
      cases w with
      | holder =>
        have hfits := h.fits .holder
        rw [hmain.1] at hfits
        refine { h with fits := ?_, main := ⟨nofun, hmain.2⟩, acquired := ?_, spawned := ?_, order := ?_, tids := ?_ }
        · rintro (_ | _)
          · exact hfits
          · exact h.fits .waiter
        · exact h.acquired.trans (by rw [hmain.1]; rfl)
        · exact fun hne => absurd hmain.2 hne
        · intro hw
          have hrel := h.order hw
          simp [Reproducer.Released, hmain.1] at hrel
        · rintro (_ | _)
          · exact fun _ hne => absurd rfl hne
          · exact h.tids .waiter
      | waiter =>
        have hfits := h.fits .waiter
        rw [hmain.2] at hfits
        refine { h with fits := ?_, main := nofun, spawned := fun _ => hmain.1, order := ?_, tids := ?_ }
        · rintro (_ | _)
          · exact h.fits .holder
          · exact hfits
        · rintro (hw | hw | hw)
          · exact h.order (Or.inl hw)
          · cases hw
          · cases hw
        · rintro (_ | _)
          · exact h.tids .holder
          · exact fun _ hne => absurd rfl hne
  | loadAcquired =>
    have hmain := h.main
    rw [show s.main = .loadAcquired from ha] at hmain
    by_cases hacq : s.holderAcquired
    · simp only [Reproducer.step, if_pos hacq]
      exact { h with main := ⟨h.acquired.symm.trans hacq, hmain.2⟩ }
    · simp only [Reproducer.step, if_neg hacq]
      exact { h with main := hmain }
  | join w =>
    have hmain := h.main
    rw [show s.main = .join w from ha.1] at hmain
    by_cases hpanic : s.closure w = .panicked
    · simp only [Reproducer.step, if_pos hpanic]
      exact { h with main := trivial }
    · simp only [Reproducer.step, if_neg hpanic]
      have hret := ha.2.resolve_right hpanic
      cases w with
      | holder => exact { h with main := ⟨hret, hmain⟩ }
      | waiter => exact { h with main := ⟨hmain.1, hret⟩ }
  | println ok =>
    have hmain := h.main
    rw [show s.main = .println from ha] at hmain
    cases ok with
    | false => exact { h with main := trivial }
    | true => exact { h with main := hmain }
  | storeTid w =>
    have hpc : s.closure w = .storeTid := ha
    have hfits := h.fits w
    rw [hpc] at hfits
    cases w with
    | holder =>
      exact h.holder .lock hpc (by decide) (by decide) (Or.inl (Or.inl hfits)) nofun nofun
        (by rw [h.acquired, hpc]; rfl) (by simp)
    | waiter =>
      exact h.waiter .lock hpc (by decide) (by decide) (Or.inl (Or.inl hfits)) (by simp) (by simp)
  | mutex b => exact h.mutex ha.1 ha.2
  | lockReturned w =>
    obtain ⟨hpc, hlocked⟩ : s.closure w = .lock ∧ s.word.pc w = .locked := ha
    have htid := h.tids w (by simp [hpc]) (by simp [hpc])
    cases w with
    | holder =>
      exact h.holder .storeAcquired hpc (by decide) (by decide) ⟨rfl, hlocked⟩ nofun nofun
        (by rw [h.acquired, hpc]; rfl) ⟨htid, rfl⟩
    | waiter =>
      exact h.waiter .unlock hpc (by decide) (by decide) (Or.inl hlocked)
        (fun _ => h.order (Or.inl (Or.inl hlocked))) ⟨htid, rfl⟩
  | storeAcquired =>
    have hpc : s.closure .holder = .storeAcquired := ha
    have hfits := h.fits .holder
    rw [hpc] at hfits
    exact h.holder .openFile hpc (by decide) (by decide) hfits (fun _ => rfl) nofun rfl
      ⟨h.tids .holder (by simp [hpc]) (by simp [hpc]), rfl⟩
  | openFile ok =>
    have hpc : s.closure .holder = .openFile := ha
    have hfits := h.fits .holder
    rw [hpc] at hfits
    cases ok <;> exact h.holding hpc ⟨rfl, hfits.2, nofun, nofun⟩ ⟨rfl, nofun⟩
  | alloc ok =>
    have hpc : s.closure .holder = .alloc := ha
    have hfits := h.fits .holder
    rw [hpc] at hfits
    cases ok <;> exact h.holding hpc ⟨rfl, hfits.2, nofun, nofun⟩ ⟨rfl, nofun⟩
  | pread n =>
    have hfits := h.fits .holder
    cases hpc : s.closure .holder with
    | pread done =>
      rw [hpc] at hfits
      simp only [Reproducer.step, hpc]
      split
      · exact h.holding hpc ⟨rfl, hfits.2, nofun, nofun⟩ ⟨rfl, nofun⟩
      · split <;> exact h.holding hpc ⟨rfl, hfits.2, nofun, nofun⟩ ⟨rfl, nofun⟩
    | _ => simp [hpc, ClosurePc.isPread] at ha
  | unlockReturned w =>
    obtain ⟨hpc, hout⟩ : s.closure w = .unlock ∧ s.word.pc w = .outside := ha
    have htid := h.tids w (by simp [hpc]) (by simp [hpc])
    cases w with
    | holder =>
      exact h.holder .returned hpc (by decide) (by decide) hout (fun _ => rfl) (fun _ => rfl)
        (by rw [h.acquired, hpc]; rfl) ⟨htid, rfl⟩
    | waiter =>
      exact h.waiter .returned hpc (by decide) (by decide) hout (fun _ => h.order (Or.inr (Or.inl hpc)))
        ⟨htid, rfl⟩

end Whyslow
