import Whyslow.Synthetic

/-! The lock of the synthetic program excludes and loses no wakeup. To its user a lock is the thread that owns it; the
    steps that acquire and release it are those of such a lock (`Owned.step`), and the word is zero exactly while no
    thread owns it. A sleeper is never left to itself: the owner has the mark to wake it, or a wake is under way, or
    another thread of the loop is awake and will leave the mark (`Attended.step`). -/

namespace Whyslow
open Runs

variable {ι : Type}

/-- Between the step that acquires the lock and the one that sets the word back. -/
def MutexPc.Holds (pc : MutexPc) : Prop := pc = .locked ∨ pc = .swapZero

instance (pc : MutexPc) : Decidable pc.Holds := inferInstanceAs (Decidable (_ ∨ _))

def Mutex.Holds (s : Mutex ι) (t : ι) : Prop := (s.pc t).Holds

/-! ### The lock of the user -/

inductive LockAct (ι : Type) where
  | acquire (t : ι)
  | release (t : ι)

/-- Only a free lock is acquired, and only its owner releases it. -/
def LockAct.Allows (owner : Option ι) : LockAct ι → Prop
  | .acquire _ => owner = none
  | .release t => owner = some t

def LockAct.owner : LockAct ι → Option ι
  | .acquire t => some t
  | .release _ => none

/-- What the user sees of a step. -/
def Mutex.visible (s : Mutex ι) : MutexAct ι → Option (LockAct ι)
  | .compareExchange t => if (compareExchange s.word 0 1).2 then some (.acquire t) else none
  | .swapTwo t => if (swap s.word 2).2 = 0 then some (.acquire t) else none
  | .swapZero t => some (.release t)
  | _ => none

/-- The word and the threads stand for a lock with this owner. -/
structure Owned (s : Mutex ι) (owner : Option ι) : Prop where
  holds : ∀ t, s.Holds t ↔ owner = some t
  free : s.word = 0 ↔ owner = none
  word : s.word = 0 ∨ s.word = 1 ∨ s.word = 2

/-- Whoever sleeps is attended to: the owner of the lock has the mark to wake a sleeper, or a wake is under way, or
    another thread is awake in the loop of `lock`. -/
def Attended (s : Mutex ι) : Prop :=
  ∀ t, s.pc t = .asleep → (s.word = 2 ∧ ∃ u, s.Holds u) ∨ (∃ u, s.pc u = .futexWake) ∨
    ∃ u, s.pc u = .swapTwo ∨ s.pc u = .futexWait

theorem attended_of_awake {s : Mutex ι} {t : ι} (h : s.pc t = .swapTwo ∨ s.pc t = .futexWait) : Attended s :=
  fun _ _ => Or.inr (Or.inr ⟨t, h⟩)

theorem attended_of_wake {s : Mutex ι} {t : ι} (h : s.pc t = .futexWake) : Attended s :=
  fun _ _ => Or.inr (Or.inl ⟨t, h⟩)

theorem attended_of_owner {s : Mutex ι} {t : ι} (hword : s.word = 2) (h : s.Holds t) : Attended s :=
  fun _ _ => Or.inl ⟨hword, t, h⟩

theorem Owned.new : Owned (Mutex.new : Mutex ι) none where
  holds t := by simp [Mutex.Holds, Mutex.new, MutexPc.Holds]
  free := by simp [Mutex.new]
  word := Or.inl rfl

section Steps
variable [DecidableEq ι] {s : Mutex ι} {owner : Option ι} {a : MutexAct ι} {t : ι} {pc : MutexPc}

@[simp] theorem Mutex.word_goto (s : Mutex ι) (t : ι) (pc : MutexPc) : (s.goto t pc).word = s.word := rfl

@[simp] theorem Mutex.pc_goto_self (s : Mutex ι) (t : ι) (pc : MutexPc) : (s.goto t pc).pc t = pc := by
  simp [Mutex.goto]

theorem Mutex.pc_goto_of_ne (s : Mutex ι) {t u : ι} (pc : MutexPc) (h : u ≠ t) : (s.goto t pc).pc u = s.pc u := by
  simp [Mutex.goto, h]

/-- One thread moves and the word changes; what other threads hold stays as it was. -/
theorem Owned.move (h : Owned s owner) {owner' : Option ι} {word : UInt32} (hpc : pc.Holds ↔ owner' = some t)
    (hother : ∀ u, u ≠ t → (owner' = some u ↔ owner = some u)) (hfree : word = 0 ↔ owner' = none)
    (hword : word = 0 ∨ word = 1 ∨ word = 2) : Owned ({ s with word := word }.goto t pc) owner' where
  holds u := by
    by_cases hu : u = t
    · subst hu
      rw [Mutex.Holds, Mutex.pc_goto_self]
      exact hpc
    · rw [Mutex.Holds, Mutex.pc_goto_of_ne _ _ hu, hother u hu]
      exact h.holds u
  free := hfree
  word := hword

/-- A step within the code before the lock is acquired, or after it is released, or while it is held. -/
theorem Owned.goto (h : Owned s owner) {pc' : MutexPc} (hpc : s.pc t = pc') (hsame : pc.Holds ↔ pc'.Holds) :
    Owned (s.goto t pc) owner := by
  have ht := h.holds t
  rw [Mutex.Holds, hpc] at ht
  exact h.move (hsame.trans ht) (fun _ _ => Iff.rfl) h.free h.word

/-- Acquiring a free lock. -/
theorem Owned.acquire (h : Owned s owner) (h0 : s.word = 0) {word : UInt32} (hword : word = 1 ∨ word = 2) :
    Owned ({ s with word := word }.goto t .locked) (some t) := by
  have hfree := h.free.mp h0
  refine h.move (iff_of_true (Or.inl rfl) rfl) ?_ ?_ (Or.inr hword)
  · intro u hu
    rw [hfree]
    simpa using hu.symm
  · rcases hword with rfl | rfl <;> simp

/-- Every step is that of a lock with one owner, or is not seen by its user. -/
theorem Owned.step (h : Owned s owner) (ha : s.Allows a) :
    (∀ v ∈ s.visible a, v.Allows owner) ∧ Owned (s.step a) ((s.visible a).elim owner LockAct.owner) := by
  cases a with
  | lock t =>
    have hpc : s.pc t = .outside := ha
    exact ⟨nofun, h.goto hpc (by decide)⟩
  | compareExchange t =>
    have hpc : s.pc t = .compareExchange := ha
    by_cases h0 : s.word = 0
    · simp only [Mutex.visible, Mutex.step, compareExchange, h0, if_true]
      refine ⟨?_, h.acquire h0 (Or.inl rfl)⟩
      rintro v ⟨⟩
      exact h.free.mp h0
    · simp only [Mutex.visible, Mutex.step, compareExchange, h0, if_false]
      exact ⟨nofun, h.goto hpc (by decide)⟩
  | swapTwo t =>
    have hpc : s.pc t = .swapTwo := ha
    by_cases h0 : s.word = 0
    · simp only [Mutex.visible, Mutex.step, swap, h0, if_true]
      refine ⟨?_, h.acquire h0 (Or.inr rfl)⟩
      rintro v ⟨⟩
      exact h.free.mp h0
    · simp only [Mutex.visible, Mutex.step, swap, h0, if_false]
      have hnot : ¬s.Holds t := by
        rw [Mutex.Holds, hpc]
        decide
      refine ⟨nofun, h.move ?_ (fun _ _ => Iff.rfl) ?_ (Or.inr (Or.inr rfl))⟩
      · exact iff_of_false (by decide) fun ho => hnot ((h.holds t).mpr ho)
      · exact iff_of_false (by decide) fun ho => h0 (h.free.mpr ho)
  | futexWait t =>
    have hpc : s.pc t = .futexWait := ha
    refine ⟨nofun, h.goto hpc ?_⟩
    split <;> decide
  | spuriousWakeup t =>
    have hpc : s.pc t = .asleep := ha
    exact ⟨nofun, h.goto hpc (by decide)⟩
  | unlock t =>
    have hpc : s.pc t = .locked := ha
    exact ⟨nofun, h.goto hpc (by decide)⟩
  | swapZero t =>
    have hpc : s.pc t = .swapZero := ha
    have hown : owner = some t := (h.holds t).mp (Or.inr hpc)
    refine ⟨?_, ?_⟩
    · rintro v ⟨⟩
      exact hown
    · refine h.move ?_ ?_ (iff_of_true rfl rfl) (Or.inl rfl)
      · split <;> simp [MutexPc.Holds, LockAct.owner, Mutex.visible]
      · intro u hu
        rw [hown]
        simpa [LockAct.owner, Mutex.visible] using hu.symm
  | futexWake t woken =>
    cases woken with
    | none =>
      have hpc : s.pc t = .futexWake := ha.1
      exact ⟨nofun, h.goto hpc (by decide)⟩
    | some woken =>
      obtain ⟨hpc, hwoken⟩ : s.pc t = .futexWake ∧ s.pc woken = .asleep := ha
      have hne : t ≠ woken := by
        rintro rfl
        cases hpc.symm.trans hwoken
      have hwake : Owned (s.goto woken .swapTwo) owner := h.goto hwoken (by decide)
      exact ⟨nofun, hwake.goto ((Mutex.pc_goto_of_ne _ _ hne).trans hpc) (by decide)⟩

/-! ### Sleepers -/

/-- A step of a thread that attends to nobody and does not go to sleep. -/
theorem Attended.move (h : Attended s) {word : UInt32} {pc' : MutexPc} (hpc' : s.pc t = pc')
    (hidle : pc' ≠ .futexWake ∧ pc' ≠ .swapTwo ∧ pc' ≠ .futexWait) (hpc : pc ≠ .asleep)
    (howner : s.word = 2 → word = 2 ∧ (pc'.Holds → pc.Holds)) : Attended ({ s with word := word }.goto t pc) := by
  subst hpc'
  obtain ⟨hwake, hloop⟩ := hidle
  intro v hv
  have hne : ∀ u, s.pc u ≠ s.pc t → (({ s with word := word } : Mutex ι).goto t pc).pc u = s.pc u := by
    intro u hu
    exact Mutex.pc_goto_of_ne _ _ fun heq => hu (congrArg s.pc heq)
  have hvt : v ≠ t := by
    rintro rfl
    exact hpc ((Mutex.pc_goto_self _ _ _).symm.trans hv)
  rw [Mutex.pc_goto_of_ne _ _ hvt] at hv
  rcases h v hv with ⟨h2, u, hu⟩ | ⟨u, hu⟩ | ⟨u, hu⟩
  · obtain ⟨hword, hholds⟩ := howner h2
    refine Or.inl ⟨hword, u, ?_⟩
    by_cases hut : u = t
    · subst hut
      rw [Mutex.Holds, Mutex.pc_goto_self]
      exact hholds hu
    · rw [Mutex.Holds, Mutex.pc_goto_of_ne _ _ hut]
      exact hu
  · exact Or.inr (Or.inl ⟨u, (hne u (by rw [hu]; exact hwake.symm)).trans hu⟩)
  · refine Or.inr (Or.inr ⟨u, ?_⟩)
    have hu' : s.pc u ≠ s.pc t := by
      rcases hu with hu | hu
      · rw [hu]
        exact hloop.1.symm
      · rw [hu]
        exact hloop.2.symm
    rw [hne u hu']
    exact hu

theorem Attended.step (h : Attended s) (hown : Owned s owner) (ha : s.Allows a) : Attended (s.step a) := by
  cases a with
  | lock t =>
    have hpc : s.pc t = .outside := ha
    exact h.move hpc (by decide) (by decide) fun h2 => ⟨h2, by decide⟩
  | compareExchange t =>
    have hpc : s.pc t = .compareExchange := ha
    by_cases h0 : s.word = 0
    · simp only [Mutex.step, compareExchange, h0, if_true]
      -- The fast path may take the lock from under the sleepers, but only while someone else attends to them.
      exact h.move hpc (by decide) (by decide) fun h2 => by simp [h0] at h2
    · simp only [Mutex.step, compareExchange, h0, if_false]
      exact attended_of_awake (Or.inl (Mutex.pc_goto_self _ t _))
  | swapTwo t =>
    by_cases h0 : s.word = 0
    · simp only [Mutex.step, swap, h0, if_true]
      refine attended_of_owner (t := t) rfl ?_
      rw [Mutex.Holds, Mutex.pc_goto_self]
      exact Or.inl rfl
    · simp only [Mutex.step, swap, h0, if_false]
      exact attended_of_awake (Or.inr (Mutex.pc_goto_self _ t _))
  | futexWait t =>
    have hpc : s.pc t = .futexWait := ha
    by_cases h2 : s.word = 2
    · simp only [Mutex.step, h2, if_true]
      -- The word is not zero, so someone owns the lock, and it is not the thread that goes to sleep.
      obtain ⟨u, hu⟩ := Option.ne_none_iff_exists'.mp (mt hown.free.mpr (by rw [h2]; decide))
      have hholds : s.Holds u := (hown.holds u).mpr hu
      have hne : u ≠ t := by
        rintro rfl
        simp [Mutex.Holds, hpc, MutexPc.Holds] at hholds
      refine attended_of_owner (t := u) h2 ?_
      rw [Mutex.Holds, Mutex.pc_goto_of_ne _ _ hne]
      exact hholds
    · simp only [Mutex.step, h2, if_false]
      exact attended_of_awake (Or.inl (Mutex.pc_goto_self _ t _))
  | spuriousWakeup t => exact attended_of_awake (Or.inl (Mutex.pc_goto_self _ t _))
  | unlock t =>
    have hpc : s.pc t = .locked := ha
    exact h.move hpc (by decide) (by decide) fun h2 => ⟨h2, fun _ => Or.inr rfl⟩
  | swapZero t =>
    have hpc : s.pc t = .swapZero := ha
    by_cases h2 : s.word = 2
    · simp only [Mutex.step, swap, h2, if_true]
      exact attended_of_wake (Mutex.pc_goto_self _ t _)
    · simp only [Mutex.step, swap, h2, if_false]
      exact h.move hpc (by decide) (by decide) fun h => absurd h h2
  | futexWake t woken =>
    cases woken with
    | none =>
      intro v hv
      have hne : v ≠ t := by
        rintro rfl
        cases (Mutex.pc_goto_self s v .outside).symm.trans hv
      exact absurd ((Mutex.pc_goto_of_ne s _ hne).symm.trans hv) (ha.2 v)
    | some woken =>
      obtain ⟨hpc, hwoken⟩ : s.pc t = .futexWake ∧ s.pc woken = .asleep := ha
      have hne : woken ≠ t := by
        rintro rfl
        cases hpc.symm.trans hwoken
      refine attended_of_awake (t := woken) (Or.inl ?_)
      exact (Mutex.pc_goto_of_ne _ _ hne).trans (Mutex.pc_goto_self s woken _)

/-! ### Runs -/

/-- The lock changes hands only in the steps the user sees. -/
theorem Owned.holds_step (h : Owned s owner) (ha : s.Allows a) (t : ι) :
    (s.step a).Holds t ↔ s.visible a = some (.acquire t) ∨ (s.Holds t ∧ a ≠ .swapZero t) := by
  obtain ⟨hallows, hown⟩ := h.step ha
  rw [hown.holds t, h.holds t]
  cases hv : s.visible a with
  | none =>
    have hne : a ≠ .swapZero t := by
      rintro rfl
      cases hv
    simp [hne]
  | some v =>
    have hv' := hallows v hv
    cases v with
    | acquire u =>
      obtain rfl : owner = none := hv'
      simp [LockAct.owner]
    | release u =>
      obtain rfl : owner = some u := hv'
      have ha' : a = .swapZero u := by
        cases a with
        | swapZero u' =>
          cases hv
          rfl
        | compareExchange _ | swapTwo _ =>
          simp only [Mutex.visible] at hv
          split at hv <;> cases hv
        | _ => cases hv
      subst ha'
      simp [LockAct.owner]

end Steps

/-- What the user sees of a run from `s`. -/
def visibleRun [DecidableEq ι] : Mutex ι → List (MutexAct ι) → List (LockAct ι)
  | _, [] => []
  | s, a :: l => (s.visible a).toList ++ visibleRun (s.step a) l

def mutexAt [DecidableEq ι] (l : List (MutexAct ι)) (n : Nat) : Mutex ι := stateAt Mutex.step Mutex.new l n

/-- After `n` steps `t` is between the step that acquired the lock, a compare-exchange that succeeded or a swap that
    returned zero, and its swap back to zero. -/
def Inside [DecidableEq ι] (l : List (MutexAct ι)) (n : Nat) (t : ι) : Prop :=
  ∃ i < n, ∃ a, l[i]? = some a ∧ (mutexAt l i).visible a = some (.acquire t) ∧
    ∀ j, i < j → j < n → l[j]? ≠ some (.swapZero t)

section Runs
variable [DecidableEq ι] {l : List (MutexAct ι)}

/-- The lock of the program is a lock to its user: it is acquired only when it is free, and released by its owner. -/
theorem visibleRun_allowed {s : Mutex ι} {owner : Option ι} (h : Owned s owner)
    (hrun : Allowed Mutex.step Mutex.Allows s l) :
    Allowed (fun _ v => v.owner) (fun o v => v.Allows o) owner (visibleRun s l) := by
  induction l generalizing s owner with
  | nil => trivial
  | cons a l ih =>
    obtain ⟨hallows, hown⟩ := h.step hrun.1
    have hrest := ih hown hrun.2
    unfold visibleRun
    cases hv : s.visible a with
    | none =>
      rw [hv] at hrest
      exact hrest
    | some v =>
      rw [hv] at hrest
      exact ⟨hallows v hv, hrest⟩

theorem inside_succ {n : Nat} {t : ι} : Inside l (n + 1) t ↔
    (∃ a, l[n]? = some a ∧ (mutexAt l n).visible a = some (.acquire t)) ∨
      (Inside l n t ∧ l[n]? ≠ some (.swapZero t)) := by
  refine ⟨?_, ?_⟩
  · rintro ⟨i, hi, a, ha, hv, hno⟩
    rcases Nat.lt_succ_iff_lt_or_eq.mp hi with hlt | rfl
    · exact Or.inr ⟨⟨i, hlt, a, ha, hv, fun j h1 h2 => hno j h1 (by omega)⟩, hno n hlt (Nat.lt_succ_self n)⟩
    · exact Or.inl ⟨a, ha, hv⟩
  · rintro (⟨a, ha, hv⟩ | ⟨⟨i, hi, a, ha, hv, hno⟩, hn⟩)
    · exact ⟨n, Nat.lt_succ_self n, a, ha, hv, fun j h1 h2 => by omega⟩
    · refine ⟨i, by omega, a, ha, hv, ?_⟩
      intro j h1 h2
      rcases Nat.lt_succ_iff_lt_or_eq.mp h2 with hlt | rfl
      · exact hno j h1 hlt
      · exact hn

variable (hrun : Allowed Mutex.step Mutex.Allows Mutex.new l)
include hrun

theorem owned_at (n : Nat) : ∃ owner, Owned (mutexAt l n) owner :=
  hrun.induction (P := fun s => ∃ owner, Owned s owner) ⟨none, Owned.new⟩
    (fun _ _ hs ha => ⟨_, (hs.choose_spec.step ha).2⟩) n

theorem attended_at (n : Nat) : Attended (mutexAt l n) := by
  refine (hrun.induction (P := fun s => (∃ owner, Owned s owner) ∧ Attended s) ⟨⟨none, Owned.new⟩, nofun⟩ ?_ n).2
  rintro s a ⟨⟨owner, hown⟩, hs⟩ ha
  exact ⟨⟨_, (hown.step ha).2⟩, hs.step hown ha⟩

theorem inside_iff_holds (n : Nat) (t : ι) : Inside l n t ↔ (mutexAt l n).Holds t := by
  induction n with
  | zero =>
    refine iff_of_false ?_ ?_
    · rintro ⟨i, hi, -⟩
      exact Nat.not_lt_zero i hi
    · simp [mutexAt, Mutex.Holds, Mutex.new, MutexPc.Holds]
  | succ n ih =>
    rw [inside_succ, ih]
    cases ha : l[n]? with
    | none =>
      rw [mutexAt, mutexAt, stateAt_succ_of_none ha]
      simp
    | some a =>
      obtain ⟨owner, hown⟩ := owned_at hrun n
      have hstep : mutexAt l (n + 1) = (mutexAt l n).step a := stateAt_succ ha
      rw [hstep, hown.holds_step (hrun.at ha) t]
      simp [mutexAt]

/-- Any number of threads, in any order of their steps and with any spurious wakeups: the word is 0, 1 or 2, at most one
    thread is inside, and the word is not zero exactly when one is. -/
theorem mutex_exclusion (n : Nat) :
    ((mutexAt l n).word = 0 ∨ (mutexAt l n).word = 1 ∨ (mutexAt l n).word = 2) ∧
    (∀ t u, Inside l n t → Inside l n u → t = u) ∧
    ((mutexAt l n).word ≠ 0 ↔ ∃! t, Inside l n t) := by
  obtain ⟨owner, hown⟩ := owned_at hrun n
  have hinside : ∀ t, Inside l n t ↔ owner = some t := fun t => (inside_iff_holds hrun n t).trans (hown.holds t)
  refine ⟨hown.word, ?_, ?_⟩
  · intro t u ht hu
    exact Option.some.inj (((hinside t).mp ht).symm.trans ((hinside u).mp hu))
  · rw [Ne, hown.free]
    refine ⟨?_, ?_⟩
    · intro h
      obtain ⟨t, ht⟩ := Option.ne_none_iff_exists'.mp h
      refine ⟨t, (hinside t).mpr ht, ?_⟩
      intro u hu
      exact Option.some.inj (((hinside u).mp hu).symm.trans ht)
    · rintro ⟨t, ht, -⟩ hnone
      cases hnone.symm.trans ((hinside t).mp ht)

/-- Any number of threads, in any order of their steps and with any spurious wakeups: while a thread sleeps, the word
    is 2 and a thread is inside, or an unlocker that read 2 is about to wake, or a thread in the loop of `lock` is awake.
    So no thread sleeps while every other one is outside, or asleep as well. When all others are asleep, outside or
    between their calls, it is one of the last that has the mark. -/
theorem mutex_no_lost_wakeup (n : Nat) {t : ι} (ht : (mutexAt l n).pc t = .asleep) :
    (((mutexAt l n).word = 2 ∧ ∃ u, Inside l n u) ∨ (∃ u, (mutexAt l n).pc u = .futexWake) ∨
      ∃ u, (mutexAt l n).pc u = .swapTwo ∨ (mutexAt l n).pc u = .futexWait) ∧
    (∃ u, u ≠ t ∧ (mutexAt l n).pc u ≠ .asleep ∧ (mutexAt l n).pc u ≠ .outside) ∧
    ((∀ u, (mutexAt l n).pc u = .asleep ∨ (mutexAt l n).pc u = .outside ∨ (mutexAt l n).pc u = .locked) →
      (mutexAt l n).word = 2 ∧ ∃ u, (mutexAt l n).pc u = .locked) := by
  have hattended := attended_at hrun n t ht
  refine ⟨?_, ?_, ?_⟩
  · simp only [inside_iff_holds hrun]
    exact hattended
  · have hawake : ∃ u, (mutexAt l n).pc u ≠ .asleep ∧ (mutexAt l n).pc u ≠ .outside := by
      rcases hattended with ⟨-, u, hu | hu⟩ | ⟨u, hu⟩ | ⟨u, hu | hu⟩ <;> exact ⟨u, by simp [hu], by simp [hu]⟩
    obtain ⟨u, hu, hu'⟩ := hawake
    refine ⟨u, ?_, hu, hu'⟩
    rintro rfl
    exact hu ht
  · intro hall
    rcases hattended with ⟨h2, u, hu | hu⟩ | ⟨u, hu⟩ | ⟨u, hu | hu⟩
    · exact ⟨h2, u, hu⟩
    all_goals
      have hu' := hall u
      simp [hu] at hu'

end Runs

/-- Thread 0 takes the lock, 1 and 2 go to sleep on it. Thread 0 gives it back, and 3 takes it on the fast path before
    the wake of 0. -/
def contendedRun : List (MutexAct (Fin 4)) :=
  [.lock 0, .compareExchange 0, .lock 1, .compareExchange 1, .swapTwo 1, .futexWait 1, .lock 2, .compareExchange 2,
    .swapTwo 2, .futexWait 2, .unlock 0, .swapZero 0, .lock 3, .compareExchange 3, .futexWake 0 (some 2)]

theorem mutex_exclusion_contendedRun : Allowed Mutex.step Mutex.Allows Mutex.new contendedRun ∧
    (mutexAt contendedRun 14).word = 1 ∧ ∃! t, Inside contendedRun 14 t := by
  have hrun : Allowed Mutex.step Mutex.Allows Mutex.new contendedRun := by decide
  have hword : (mutexAt contendedRun 14).word = 1 := by decide
  refine ⟨hrun, hword, (mutex_exclusion hrun 14).2.2.mp ?_⟩
  rw [hword]
  decide

theorem mutex_no_lost_wakeup_contendedRun : Allowed Mutex.step Mutex.Allows Mutex.new contendedRun ∧
    (mutexAt contendedRun 14).word = 1 ∧ (mutexAt contendedRun 14).pc 1 = .asleep ∧
    ∃ u, u ≠ 1 ∧ (mutexAt contendedRun 14).pc u ≠ .asleep ∧ (mutexAt contendedRun 14).pc u ≠ .outside := by
  have hrun : Allowed Mutex.step Mutex.Allows Mutex.new contendedRun := by decide
  have hasleep : (mutexAt contendedRun 14).pc 1 = .asleep := by decide
  exact ⟨hrun, by decide, hasleep, (mutex_no_lost_wakeup hrun 14 hasleep).2.1⟩

end Whyslow
