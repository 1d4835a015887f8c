import Whyslow.Theorems.Mutex

/-! The lock of the synthetic program makes progress. Each thread has a number of steps left in its call, and the whole
    of them falls with every step but a new call of `lock` and a spurious wakeup (`Mutex.remaining_step`): a retry of
    the loop is paid for by the step that set the word back. When nothing else is left to do, every thread is outside
    (`Mutex.outside_of_stuck`), and a thread that meets no other stays on the fast path of both calls (`Mutex.Fast.step`). -/

namespace Whyslow
open Runs

variable {ι : Type}

/-- The steps that come from outside the two calls: a thread calls `lock`, or the kernel wakes a sleeper for no
    reason. -/
def MutexAct.isInput : MutexAct ι → Bool
  | .lock _ | .spuriousWakeup _ => true
  | _ => false

/-! ### Termination -/

/-- A bound on the steps left to a thread among `n`. Before `futex_wait` it depends on the word: the call returns at
    once if the word has been set back. -/
def MutexPc.remaining (n : Nat) (word : UInt32) : MutexPc → Nat
  | .outside => 0
  | .compareExchange => 2 * n + 6
  | .swapTwo => 2 * n + 5
  | .futexWait => if word = 2 then 2 * n + 4 else 2 * n + 6
  | .asleep => 2 * n + 3
  | .locked => 2 * n + 3
  | .swapZero => 2 * n + 2
  | .futexWake => 3

/-- The steps left to all the threads. -/
def Mutex.remaining [Fintype ι] (s : Mutex ι) : Nat := ∑ t, (s.pc t).remaining (Fintype.card ι) s.word

/-- What a step from outside adds to them. -/
def MutexAct.credit (n : Nat) : MutexAct ι → Nat
  | .lock _ => 2 * n + 7
  | .spuriousWakeup _ => 3
  | _ => 0

section Steps
variable {n : Nat} {word word' : UInt32}

theorem MutexPc.remaining_le_of_imp (h : word = 2 → word' = 2) (pc : MutexPc) :
    pc.remaining n word' ≤ pc.remaining n word := by
  cases pc with
  | futexWait =>
    by_cases h2 : word = 2
    · simp [MutexPc.remaining, h2, h h2]
    · simp only [MutexPc.remaining, if_neg h2]
      split <;> omega
  | _ => exact le_rfl

theorem MutexPc.remaining_le_add_two (pc : MutexPc) : pc.remaining n word' ≤ pc.remaining n word + 2 := by
  cases pc with
  | futexWait =>
    simp only [MutexPc.remaining]
    split <;> split <;> omega
  | _ => exact Nat.le_add_right _ _

variable [DecidableEq ι] [Fintype ι] {s : Mutex ι} {a : MutexAct ι} {t : ι} {pc pc' : MutexPc}

theorem Mutex.remaining_eq_add (s : Mutex ι) (t : ι) : s.remaining = (s.pc t).remaining (Fintype.card ι) s.word +
    ∑ u ∈ Finset.univ.erase t, (s.pc u).remaining (Fintype.card ι) s.word :=
  (Finset.add_sum_erase _ _ (Finset.mem_univ t)).symm

/-- One thread moves and the word changes: each of the others has at most `slack` more steps. -/
theorem Mutex.remaining_move (slack : Nat) (hpc : s.pc t = pc') {used credit : Nat}
    (hother : ∀ q : MutexPc, q.remaining (Fintype.card ι) word ≤ q.remaining (Fintype.card ι) s.word + slack)
    (hself : pc.remaining (Fintype.card ι) word + (Fintype.card ι - 1) * slack + used ≤
      pc'.remaining (Fintype.card ι) s.word + credit) :
    ({ s with word := word }.goto t pc).remaining + used ≤ s.remaining + credit := by
  have hsum : ∑ u ∈ Finset.univ.erase t, ((({ s with word := word } : Mutex ι).goto t pc).pc u).remaining
        (Fintype.card ι) word ≤
      ∑ u ∈ Finset.univ.erase t, ((s.pc u).remaining (Fintype.card ι) s.word + slack) := by
    refine Finset.sum_le_sum ?_
    intro u hu
    rw [Mutex.pc_goto_of_ne _ _ (Finset.ne_of_mem_erase hu)]
    exact hother (s.pc u)
  rw [Finset.sum_add_distrib, Finset.sum_const, Finset.card_erase_of_mem (Finset.mem_univ t), Finset.card_univ,
    smul_eq_mul] at hsum
  rw [Mutex.remaining_eq_add s t, Mutex.remaining_eq_add _ t, Mutex.pc_goto_self, hpc]
  simp only [Mutex.word_goto]
  omega

/-- The word stays as it is, or becomes 2: nobody else has more to do. -/
theorem Mutex.remaining_goto (hpc : s.pc t = pc') (hword : s.word = 2 → word = 2) {used credit : Nat}
    (hself : pc.remaining (Fintype.card ι) word + used ≤ pc'.remaining (Fintype.card ι) s.word + credit) :
    ({ s with word := word }.goto t pc).remaining + used ≤ s.remaining + credit :=
  Mutex.remaining_move 0 hpc (fun q => q.remaining_le_of_imp hword) hself

theorem Mutex.remaining_step (ha : s.Allows a) :
    (s.step a).remaining + 1 ≤ s.remaining + a.credit (Fintype.card ι) := by
  cases a with
  | lock t =>
    have hpc : s.pc t = .outside := ha
    exact Mutex.remaining_goto (s := s) hpc id (by simp [MutexPc.remaining, MutexAct.credit])
  | compareExchange t =>
    have hpc : s.pc t = .compareExchange := ha
    by_cases h0 : s.word = 0
    · simp only [Mutex.step, compareExchange, h0, if_true]
      refine Mutex.remaining_goto hpc (by simp [h0]) ?_
      simp only [MutexPc.remaining]
      omega
    · simp only [Mutex.step, compareExchange, h0, if_false]
      exact Mutex.remaining_goto hpc id (Nat.le_add_right _ _)
  | swapTwo t =>
    have hpc : s.pc t = .swapTwo := ha
    refine Mutex.remaining_goto hpc (fun _ => rfl) ?_
    split <;> simp [MutexPc.remaining, MutexAct.credit]
  | futexWait t =>
    have hpc : s.pc t = .futexWait := ha
    refine Mutex.remaining_goto (s := s) hpc id ?_
    by_cases h2 : s.word = 2
    · simp [h2, MutexPc.remaining, MutexAct.credit]
    · simp [h2, MutexPc.remaining, MutexAct.credit]
  | spuriousWakeup t =>
    have hpc : s.pc t = .asleep := ha
    exact Mutex.remaining_goto (s := s) hpc id (by simp [MutexPc.remaining, MutexAct.credit])
  | unlock t =>
    have hpc : s.pc t = .locked := ha
    exact Mutex.remaining_goto (s := s) hpc id (Nat.le_add_right _ _)
  | swapZero t =>
    have hpc : s.pc t = .swapZero := ha
    have hcard : 0 < Fintype.card ι := Fintype.card_pos_iff.mpr ⟨t⟩
    by_cases h2 : s.word = 2
    · simp only [Mutex.step, swap, h2, if_true]
      -- The threads before `futex_wait` will not sleep any more: each has two steps more, and this thread pays.
      refine Mutex.remaining_move 2 hpc (fun q => q.remaining_le_add_two) ?_
      simp only [MutexPc.remaining]
      omega
    · simp only [Mutex.step, swap, h2, if_false]
      refine Mutex.remaining_goto hpc (fun h => absurd h h2) ?_
      simp only [MutexPc.remaining]
      omega
  | futexWake t woken =>
    cases woken with
    | none =>
      have hpc : s.pc t = .futexWake := ha.1
      refine Mutex.remaining_goto (s := s) hpc id ?_
      simp only [MutexPc.remaining]
      omega
    | some woken =>
      obtain ⟨hpc, hwoken⟩ : s.pc t = .futexWake ∧ s.pc woken = .asleep := ha
      have hne : t ≠ woken := by
        rintro rfl
        cases hpc.symm.trans hwoken
      -- The thread it wakes up has two steps more, and this one pays for them as well.
      have hwake : (s.goto woken .swapTwo).remaining + 0 ≤ s.remaining + 2 :=
        Mutex.remaining_goto (s := s) hwoken id (by simp [MutexPc.remaining])
      have hreturn : ((s.goto woken .swapTwo).goto t .outside).remaining + 3 ≤ (s.goto woken .swapTwo).remaining + 0 :=
        Mutex.remaining_goto (s := s.goto woken .swapTwo) ((Mutex.pc_goto_of_ne s .swapTwo hne).trans hpc) id le_rfl
      show ((s.goto woken .swapTwo).goto t .outside).remaining + 1 ≤ s.remaining + 0
      omega

end Steps

theorem sum_credit_eq (l : List (MutexAct ι)) (n : Nat) : (l.map (MutexAct.credit n)).sum =
    (2 * n + 7) * l.countP (· matches .lock _) + 3 * l.countP (· matches .spuriousWakeup _) := by
  induction l with
  | nil => rfl
  | cons a l ih =>
    rw [List.map_cons, List.sum_cons, ih, List.countP_cons, List.countP_cons]
    cases a <;> simp [MutexAct.credit] <;> ring

/-! ### Completion -/

section Stuck
variable {s : Mutex ι} {owner : Option ι}

/-- A thread in one of the calls can take a step, unless it sleeps. -/
theorem Mutex.outside_or_asleep_of_stuck (hstuck : ∀ a, s.Allows a → a.isInput) (t : ι) :
    s.pc t = .outside ∨ s.pc t = .asleep := by
  cases hpc : s.pc t with
  | outside => exact Or.inl rfl
  | asleep => exact Or.inr rfl
  | compareExchange => cases hstuck (.compareExchange t) hpc
  | swapTwo => cases hstuck (.swapTwo t) hpc
  | futexWait => cases hstuck (.futexWait t) hpc
  | locked => cases hstuck (.unlock t) hpc
  | swapZero => cases hstuck (.swapZero t) hpc
  | futexWake =>
    by_cases h : ∃ u, s.pc u = .asleep
    · obtain ⟨u, hu⟩ := h
      cases hstuck (.futexWake t (some u)) ⟨hpc, hu⟩
    · cases hstuck (.futexWake t none) ⟨hpc, fun u hu => h ⟨u, hu⟩⟩

theorem Mutex.outside_of_stuck (hattended : Attended s) (hstuck : ∀ a, s.Allows a → a.isInput) (t : ι) :
    s.pc t = .outside := by
  have hpc := Mutex.outside_or_asleep_of_stuck hstuck
  refine (hpc t).resolve_right ?_
  intro hasleep
  rcases hattended t hasleep with ⟨-, u, hu | hu⟩ | ⟨u, hu⟩ | ⟨u, hu | hu⟩ <;>
    simpa [hu] using hpc u

theorem Owned.word_eq_zero (h : Owned s owner) (hno : ∀ t, ¬s.Holds t) :
    s.word = 0 := by
  rw [h.free, Option.eq_none_iff_forall_ne_some]
  intro t ht
  exact hno t ((h.holds t).mpr ht)

end Stuck

/-! ### The fast path -/

/-- Some other thread is in a call, or holds the lock, at a position from `i` to `n`. -/
def Overlapped [DecidableEq ι] (l : List (MutexAct ι)) (i n : Nat) (t : ι) : Prop :=
  ∃ m, i ≤ m ∧ m ≤ n ∧ ∃ u, u ≠ t ∧ (mutexAt l m).pc u ≠ .outside

/-- The thread is outside, or on the fast path of `lock`, or holds a lock that nobody waits for. -/
def Mutex.Fast (s : Mutex ι) (t : ι) : Prop :=
  s.pc t = .outside ∨ s.pc t = .compareExchange ∨ (s.Holds t ∧ s.word = 1)

section Fast
variable [DecidableEq ι] {s : Mutex ι} {owner : Option ι} {a : MutexAct ι} {t : ι}

/-- While all others are outside, the thread stays on the fast path. -/
theorem Mutex.Fast.step (h : s.Fast t) (hown : Owned s owner) (halone : ∀ u, u ≠ t → s.pc u = .outside)
    (halone' : ∀ u, u ≠ t → (s.step a).pc u = .outside) (ha : s.Allows a) : (s.step a).Fast t := by
  have hself : ∀ {u pc}, s.pc u = pc → pc ≠ .outside → u = t := by
    intro u pc hpc hne
    by_contra hu
    exact hne (hpc.symm.trans (halone u hu))
  cases a with
  | lock u =>
    have hu : u = t := by
      by_contra hu
      have := halone' u hu
      simp [Mutex.step] at this
    subst hu
    exact Or.inr (Or.inl (Mutex.pc_goto_self _ _ _))
  | compareExchange u =>
    have hpc : s.pc u = .compareExchange := ha
    obtain rfl := hself hpc (by decide)
    have h0 : s.word = 0 := by
      refine hown.word_eq_zero ?_
      intro v hv
      by_cases hvu : v = u
      · subst hvu
        simp [Mutex.Holds, hpc, MutexPc.Holds] at hv
      · simp [Mutex.Holds, halone v hvu, MutexPc.Holds] at hv
    simp only [Mutex.step, compareExchange, h0, if_true]
    refine Or.inr (Or.inr ⟨?_, rfl⟩)
    rw [Mutex.Holds, Mutex.pc_goto_self]
    exact Or.inl rfl
  | unlock u =>
    have hpc : s.pc u = .locked := ha
    obtain rfl := hself hpc (by decide)
    have h1 : s.word = 1 := by simpa [Mutex.Fast, hpc, Mutex.Holds, MutexPc.Holds] using h
    refine Or.inr (Or.inr ⟨?_, h1⟩)
    rw [Mutex.Holds, Mutex.step, Mutex.pc_goto_self]
    exact Or.inr rfl
  | swapZero u =>
    have hpc : s.pc u = .swapZero := ha
    obtain rfl := hself hpc (by decide)
    have h1 : s.word = 1 := by simpa [Mutex.Fast, hpc, Mutex.Holds, MutexPc.Holds] using h
    refine Or.inl ?_
    simp [Mutex.step, swap, h1]
  | swapTwo u =>
    have hpc : s.pc u = .swapTwo := ha
    obtain rfl := hself hpc (by decide)
    simp [Mutex.Fast, hpc, Mutex.Holds, MutexPc.Holds] at h
  | futexWait u =>
    have hpc : s.pc u = .futexWait := ha
    obtain rfl := hself hpc (by decide)
    simp [Mutex.Fast, hpc, Mutex.Holds, MutexPc.Holds] at h
  | spuriousWakeup u =>
    have hpc : s.pc u = .asleep := ha
    obtain rfl := hself hpc (by decide)
    simp [Mutex.Fast, hpc, Mutex.Holds, MutexPc.Holds] at h
  | futexWake u woken =>
    have hpc : s.pc u = .futexWake := by cases woken <;> exact ha.1
    obtain rfl := hself hpc (by decide)
    simp [Mutex.Fast, hpc, Mutex.Holds, MutexPc.Holds] at h

end Fast

section Runs
variable [DecidableEq ι] {l : List (MutexAct ι)}

variable (hrun : Allowed Mutex.step Mutex.Allows Mutex.new l)
include hrun

/-- Any number of threads, in any order of their steps: a run has at most `2n + 7` steps for each call of `lock` and
    three for each spurious wakeup. So it ends when no more of them come, and where it can end every call has returned
    and the word is zero. -/
theorem mutex_terminates [Fintype ι] :
    l.length ≤ (2 * Fintype.card ι + 7) * l.countP (· matches .lock _) +
      3 * l.countP (· matches .spuriousWakeup _) ∧
    ((∀ a, (mutexAt l l.length).Allows a → a.isInput) →
      (∀ t, (mutexAt l l.length).pc t = .outside) ∧ (mutexAt l l.length).word = 0) := by
  refine ⟨?_, ?_⟩
  · have hlen := hrun.length_le (μ := Mutex.remaining) fun s a ha => Mutex.remaining_step ha
    have hnew : (Mutex.new : Mutex ι).remaining = 0 := by simp [Mutex.remaining, Mutex.new, MutexPc.remaining]
    rw [hnew, sum_credit_eq] at hlen
    omega
  · intro hstuck
    have hout := Mutex.outside_of_stuck (attended_at hrun l.length) hstuck
    obtain ⟨owner, hown⟩ := owned_at hrun l.length
    refine ⟨hout, hown.word_eq_zero ?_⟩
    intro t ht
    simp [Mutex.Holds, hout t, MutexPc.Holds] at ht

theorem fast_or_overlapped {i : Nat} {t : ι} (hi : l[i]? = some (.lock t)) {n : Nat} (hin : i ≤ n) :
    (mutexAt l n).Fast t ∨ Overlapped l i n t := by
  induction n, hin using Nat.le_induction with
  | base => exact Or.inl (Or.inl (hrun.at hi))
  | succ n hin ih =>
    by_cases hover : Overlapped l i (n + 1) t
    · exact Or.inr hover
    · have halone : ∀ m, i ≤ m → m ≤ n + 1 → ∀ u, u ≠ t → (mutexAt l m).pc u = .outside := by
        intro m him hm u hu
        by_contra hpc
        exact hover ⟨m, him, hm, u, hu, hpc⟩
      have hfast : (mutexAt l n).Fast t := by
        refine ih.resolve_right ?_
        rintro ⟨m, him, hm, h⟩
        exact hover ⟨m, him, by omega, h⟩
      cases ha : l[n]? with
      | none =>
        rw [mutexAt, stateAt_succ_of_none ha]
        exact Or.inl hfast
      | some a =>
        obtain ⟨owner, hown⟩ := owned_at hrun n
        have hstep : mutexAt l (n + 1) = (mutexAt l n).step a := stateAt_succ ha
        have halone' := halone (n + 1) (by omega) le_rfl
        rw [hstep] at halone' ⊢
        exact Or.inl (hfast.step hown (halone n hin (by omega)) halone' (hrun.at ha))

/-- Any number of threads, in any order of their steps and with any spurious wakeups: a thread swaps in the mark or calls
    the kernel only if, since it called `lock`, another thread has been inside a call or has held the lock. -/
theorem mutex_slow_path_contended {i n : Nat} {t : ι} {a : MutexAct ι} (hi : l[i]? = some (.lock t)) (hin : i ≤ n)
    (ha : l[n]? = some a) (hslow : a = .swapTwo t ∨ a = .futexWait t ∨ ∃ woken, a = .futexWake t woken) :
    ∃ m, i ≤ m ∧ m ≤ n ∧ ∃ u, u ≠ t ∧ (mutexAt l m).pc u ≠ .outside := by
  have hpc : (mutexAt l n).pc t = .swapTwo ∨ (mutexAt l n).pc t = .futexWait ∨ (mutexAt l n).pc t = .futexWake := by
    have hallows : (mutexAt l n).Allows a := hrun.at ha
    rcases hslow with rfl | rfl | ⟨woken, rfl⟩
    · exact Or.inl hallows
    · exact Or.inr (Or.inl hallows)
    · refine Or.inr (Or.inr ?_)
      cases woken <;> exact hallows.1
  rcases fast_or_overlapped hrun hi hin with hfast | hover
  · rcases hpc with hpc | hpc | hpc <;> simp [Mutex.Fast, Mutex.Holds, hpc, MutexPc.Holds] at hfast
  · exact hover

end Runs

/-- One thread sleeps on the lock of the other, is woken up and takes it. -/
def handoverRun : List (MutexAct Bool) :=
  [.lock false, .compareExchange false, .lock true, .compareExchange true, .swapTwo true, .futexWait true,
    .unlock false, .swapZero false, .futexWake false (some true), .swapTwo true, .unlock true, .swapZero true,
    .futexWake true none]

theorem mutex_terminates_handoverRun : Allowed Mutex.step Mutex.Allows Mutex.new handoverRun ∧
    handoverRun.length = 13 ∧ handoverRun.length ≤ 11 * 2 ∧ (mutexAt handoverRun 13).word = 0 := by
  have hrun : Allowed Mutex.step Mutex.Allows Mutex.new handoverRun := by decide
  have hpc : ∀ t, (mutexAt handoverRun handoverRun.length).pc t = .outside := by decide
  refine ⟨hrun, rfl, (mutex_terminates hrun).1, ((mutex_terminates hrun).2 ?_).2⟩
  intro a ha
  cases a with
  | lock t | spuriousWakeup t => rfl
  | futexWake t woken =>
    cases woken <;> exact absurd (ha.1.symm.trans (hpc t)) (by decide)
  | _ t => exact absurd (Eq.trans (Eq.symm ha) (hpc t)) (by decide)

/-- The owner finds 2 in its swap and wakes: the other thread came while it held the lock. -/
theorem mutex_slow_path_contended_handoverRun : handoverRun[0]? = some (.lock false) ∧
    handoverRun[8]? = some (.futexWake false (some true)) ∧
    ∃ m, 0 ≤ m ∧ m ≤ 8 ∧ ∃ u, u ≠ false ∧ (mutexAt handoverRun m).pc u ≠ .outside := by
  have hrun : Allowed Mutex.step Mutex.Allows Mutex.new handoverRun := by decide
  exact ⟨rfl, rfl, mutex_slow_path_contended hrun rfl (by decide) rfl (Or.inr (Or.inr ⟨some true, rfl⟩))⟩

end Whyslow
