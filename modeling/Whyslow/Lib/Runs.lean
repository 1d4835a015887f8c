import Whyslow.Lib.BoundedMap

/-! Runs of a deterministic transition system, by position: the state before each step, what an
    invariant gives along a run, where an entry of an append-only log comes from, and, for a system
    that keeps the starts of spans in a bounded map, which start an entry of the map stands for. -/

namespace Runs
variable {S A : Type} {step : S → A → S} {s₀ : S} {l : List A}

/-- The state before step `n` of the run of `l` from `s₀`. -/
def stateAt (step : S → A → S) (s₀ : S) (l : List A) (n : Nat) : S := (l.take n).foldl step s₀

@[simp] theorem stateAt_zero : stateAt step s₀ l 0 = s₀ := rfl

theorem stateAt_succ {n : Nat} {a : A} (h : l[n]? = some a) :
    stateAt step s₀ l (n + 1) = step (stateAt step s₀ l n) a := by
  simp [stateAt, List.take_add_one, h, List.foldl_append]

theorem stateAt_succ_of_none {n : Nat} (h : l[n]? = none) : stateAt step s₀ l (n + 1) = stateAt step s₀ l n := by
  simp [stateAt, List.take_add_one, h]

theorem stateAt_length : stateAt step s₀ l l.length = l.foldl step s₀ := by
  simp [stateAt]

theorem stateAt_of_length_le {n : Nat} (h : l.length ≤ n) : stateAt step s₀ l n = l.foldl step s₀ := by
  rw [stateAt, List.take_of_length_le h]

theorem stateAt_append {l' : List A} (n : Nat) :
    stateAt step s₀ (l ++ l') (l.length + n) = stateAt step (l.foldl step s₀) l' n := by
  rw [stateAt, List.take_length_add_append, List.foldl_append]
  rfl

/-- A property of the start that every step of the run keeps holds at every position. -/
theorem stateAt_induction {P : S → Prop} (h₀ : P s₀) (hstep : ∀ s, ∀ a ∈ l, P s → P (step s a)) (n : Nat) :
    P (stateAt step s₀ l n) := by
  induction n with
  | zero => exact h₀
  | succ n ih =>
    cases h : l[n]? with
    | none => rw [stateAt_succ_of_none h]; exact ih
    | some a => rw [stateAt_succ h]; exact hstep _ a (List.mem_of_getElem? h) ih

/-- A property that holds at a position and that the steps from there on keep holds at every later one. -/
theorem stateAt_stays {P : S → Prop} {i j : Nat} (hij : i ≤ j) (hi : P (stateAt step s₀ l i))
    (hstep : ∀ k, i ≤ k → k < j → ∀ a, l[k]? = some a → P (stateAt step s₀ l k) → P (step (stateAt step s₀ l k) a)) :
    P (stateAt step s₀ l j) := by
  induction j, hij using Nat.le_induction with
  | base => exact hi
  | succ j hij ih =>
    have hj := ih fun k h1 h2 => hstep k h1 (by omega)
    cases h : l[j]? with
    | none => rw [stateAt_succ_of_none h]; exact hj
    | some a => rw [stateAt_succ h]; exact hstep j hij (by omega) a h hj

/-- Every step of the run of a list from a state is allowed in the state before it. -/
def Allowed (step : S → A → S) (allows : S → A → Prop) : S → List A → Prop
  | _, [] => True
  | s, a :: l => allows s a ∧ Allowed step allows (step s a) l

instance decidableAllowed {allows : S → A → Prop} [∀ s a, Decidable (allows s a)] : (s : S) → (l : List A) →
    Decidable (Allowed step allows s l)
  | _, [] => isTrue trivial
  | s, a :: l => @instDecidableAnd _ _ _ (decidableAllowed (step s a) l)

theorem Allowed.imp {allows allows' : S → A → Prop} (h : Allowed step allows s₀ l)
    (himp : ∀ s a, allows s a → allows' s a) : Allowed step allows' s₀ l := by
  induction l generalizing s₀ with
  | nil => trivial
  | cons a l ih => exact ⟨himp _ a h.1, ih h.2⟩

theorem Allowed.append {allows : S → A → Prop} {l' : List A} (h : Allowed step allows s₀ l)
    (h' : Allowed step allows (l.foldl step s₀) l') : Allowed step allows s₀ (l ++ l') := by
  induction l generalizing s₀ with
  | nil => exact h'
  | cons a l ih => exact ⟨h.1, ih h.2 h'⟩

theorem Allowed.of_append {allows : S → A → Prop} {l' : List A} (h : Allowed step allows s₀ (l ++ l')) :
    Allowed step allows (l.foldl step s₀) l' := by
  induction l generalizing s₀ with
  | nil => exact h
  | cons a l ih => exact ih h.2

theorem Allowed.at {allows : S → A → Prop} (h : Allowed step allows s₀ l) {n : Nat} {a : A} (ha : l[n]? = some a) :
    allows (stateAt step s₀ l n) a := by
  induction l generalizing s₀ n with
  | nil => cases ha
  | cons b l ih =>
    cases n with
    | zero =>
      cases ha
      exact h.1
    | succ n => exact ih h.2 ha

/-- What holds wherever a step is allowed, and at the end, holds at every position. -/
theorem Allowed.everywhere {allows : S → A → Prop} {P : S → Prop} (h : Allowed step allows s₀ l)
    (hP : ∀ s a, allows s a → P s) (hend : P (l.foldl step s₀)) (n : Nat) : P (stateAt step s₀ l n) := by
  cases ha : l[n]? with
  | some a => exact hP _ a (h.at ha)
  | none =>
    rw [stateAt, List.take_of_length_le (List.getElem?_eq_none_iff.mp ha)]
    exact hend

/-- A property of the start that every allowed step keeps holds at every position of an allowed run. -/
theorem Allowed.induction {allows : S → A → Prop} {P : S → Prop} (h : Allowed step allows s₀ l) (h₀ : P s₀)
    (hstep : ∀ s a, P s → allows s a → P (step s a)) (n : Nat) : P (stateAt step s₀ l n) :=
  stateAt_stays (Nat.zero_le n) h₀ fun _ _ _ a ha hk => hstep _ a hk (h.at ha)

/-- The steps of an allowed run are taken in states of the invariant. -/
theorem Allowed.and_inv {allows : S → A → Prop} {I : S → Prop} (h : Allowed step allows s₀ l) (h₀ : I s₀)
    (hstep : ∀ s a, I s → allows s a → I (step s a)) : Allowed step (fun s a => I s ∧ allows s a) s₀ l := by
  induction l generalizing s₀ with
  | nil => trivial
  | cons a l ih => exact ⟨⟨h₀, h.1⟩, ih h.2 (hstep s₀ a h₀ h.1)⟩

/-- A measure that every allowed step lowers, up to the credit of the step, bounds the length of a run. -/
theorem Allowed.length_le {allows : S → A → Prop} {μ : S → Nat} {credit : A → Nat} (h : Allowed step allows s₀ l)
    (hstep : ∀ s a, allows s a → μ (step s a) + 1 ≤ μ s + credit a) :
    μ (l.foldl step s₀) + l.length ≤ μ s₀ + (l.map credit).sum := by
  induction l generalizing s₀ with
  | nil => simp
  | cons a l ih =>
    have ha := hstep s₀ a h.1
    have hl := ih h.2
    simp only [List.foldl_cons, List.length_cons, List.map_cons, List.sum_cons]
    omega

theorem Allowed.take {allows : S → A → Prop} (h : Allowed step allows s₀ l) (n : Nat) :
    Allowed step allows s₀ (l.take n) := by
  induction l generalizing s₀ n with
  | nil => simpa using h
  | cons a l ih =>
    cases n with
    | zero => trivial
    | succ n => exact ⟨h.1, ih h.2 n⟩

/-- A number that grows by at most one, and only at steps with `q`, is at most the number of these steps. -/
theorem Allowed.le_countP {allows : S → A → Prop} {f : S → Nat} {q : A → Bool} (h : Allowed step allows s₀ l)
    (hstep : ∀ s a, allows s a → f (step s a) ≤ f s + if q a then 1 else 0) :
    f (l.foldl step s₀) ≤ f s₀ + l.countP q := by
  induction l generalizing s₀ with
  | nil => simp
  | cons a l ih =>
    have ha := hstep s₀ a h.1
    have hl := ih h.2
    rw [List.foldl_cons, List.countP_cons]
    omega

/-- A property that only the steps with `q` bring about, and that no step takes back, holds behind a run if it held
    before it or one of its steps has `q`. -/
theorem Allowed.iff_exists_mem {allows : S → A → Prop} {P : S → Prop} {q : A → Prop} (h : Allowed step allows s₀ l)
    (hstep : ∀ s a, allows s a → (P (step s a) ↔ P s ∨ q a)) : P (l.foldl step s₀) ↔ P s₀ ∨ ∃ a ∈ l, q a := by
  induction l generalizing s₀ with
  | nil => simp
  | cons a l ih => simp only [List.foldl_cons, ih h.2, hstep s₀ a h.1, List.exists_mem_cons_iff, or_assoc]

/-- What a part of a system sees of a run, with `view` for what it sees of a step. -/
def project {B : Type} (step : S → A → S) (view : S → A → Option B) : S → List A → List B
  | _, [] => []
  | s, a :: l => (view s a).toList ++ project step view (step s a) l

section Project
variable {T B : Type} {step' : T → B → T} {view : S → A → Option B} {part : S → T}

/-- A part that moves only by what it sees runs on its own. -/
theorem Allowed.foldl_project {allows : S → A → Prop} (h : Allowed step allows s₀ l)
    (hview : ∀ s a, allows s a → part (step s a) = (view s a).elim (part s) (step' (part s))) :
    part (l.foldl step s₀) = (project step view s₀ l).foldl step' (part s₀) := by
  induction l generalizing s₀ with
  | nil => rfl
  | cons a l ih =>
    rw [List.foldl_cons, ih h.2, project, List.foldl_append, hview s₀ a h.1]
    cases view s₀ a <;> rfl

theorem mem_project {b : B} (h : b ∈ project step view s₀ l) :
    ∃ i a, l[i]? = some a ∧ view (stateAt step s₀ l i) a = some b := by
  induction l generalizing s₀ with
  | nil => cases h
  | cons a l ih =>
    rcases List.mem_append.mp h with h | h
    · exact ⟨0, a, rfl, Option.mem_toList.mp h⟩
    · obtain ⟨i, a', ha', hview⟩ := ih h
      exact ⟨i + 1, a', ha', hview⟩

end Project

/-- What comes to hold along a run is brought about by one of its steps. -/
theorem exists_step_of_stateAt {P : S → Prop} (h₀ : ¬P s₀) {n : Nat} (hn : P (stateAt step s₀ l n)) :
    ∃ i < n, ∃ a, l[i]? = some a ∧ ¬P (stateAt step s₀ l i) ∧ P (step (stateAt step s₀ l i) a) := by
  induction n with
  | zero => exact absurd hn h₀
  | succ n ih =>
    by_cases h : P (stateAt step s₀ l n)
    · obtain ⟨i, hi, hstep⟩ := ih h
      exact ⟨i, by omega, hstep⟩
    · cases ha : l[n]? with
      | none =>
        rw [stateAt_succ_of_none ha] at hn
        exact absurd hn h
      | some a =>
        rw [stateAt_succ ha] at hn
        exact ⟨n, Nat.lt_succ_self n, a, ha, h, hn⟩

/-- `l'` is `l` without some of its steps with `p`. -/
inductive Erases (p : A → Prop) : List A → List A → Prop
  | nil : Erases p [] []
  | keep (a : A) {l l' : List A} : Erases p l l' → Erases p (a :: l) (a :: l')
  | drop {a : A} {l l' : List A} : p a → Erases p l l' → Erases p (a :: l) l'

/-- Steps that do nothing in the states of an invariant may be left out. -/
theorem Erases.foldl {p : A → Prop} {P : S → Prop} {l' : List A} (h : Erases p l l')
    (hkeep : ∀ s, ∀ a ∈ l, P s → P (step s a)) (hskip : ∀ s, ∀ a ∈ l, p a → P s → step s a = s) {s : S} (hs : P s) :
    l'.foldl step s = l.foldl step s := by
  induction h generalizing s with
  | nil => rfl
  | keep a _ ih =>
    exact ih (fun t b hb => hkeep t b (List.mem_cons_of_mem _ hb)) (fun t b hb => hskip t b (List.mem_cons_of_mem _ hb))
      (hkeep s a List.mem_cons_self hs)
  | drop hp _ ih =>
    rw [List.foldl_cons, hskip s _ List.mem_cons_self hp hs]
    exact ih (fun t b hb => hkeep t b (List.mem_cons_of_mem _ hb))
      (fun t b hb => hskip t b (List.mem_cons_of_mem _ hb)) hs

/-- Every entry of an append-only log was appended at some position. -/
theorem mem_log_iff {E : Type} (log : S → List E) {emits : S → A → Option E}
    (hlog : ∀ s a, log (step s a) = log s ++ (emits s a).toList) (h₀ : log s₀ = []) {n : Nat} {e : E} :
    e ∈ log (stateAt step s₀ l n) ↔ ∃ i < n, ∃ a, l[i]? = some a ∧ emits (stateAt step s₀ l i) a = some e := by
  induction n with
  | zero => simp [h₀]
  | succ n ih =>
    have hcons : ∀ {Q : Nat → Prop}, (∃ i < n + 1, Q i) ↔ (∃ i < n, Q i) ∨ Q n := by
      intro Q
      simp only [Nat.lt_succ_iff_lt_or_eq, or_and_right, exists_or, exists_eq_left]
    rw [hcons, ← ih]
    cases h : l[n]? with
    | none => simp [stateAt_succ_of_none h]
    | some a => simp [stateAt_succ h, hlog, Option.mem_toList]

/-- Two entries of the log are related if the steps that append them make them so. -/
theorem pairwise_log {E : Type} (log : S → List E) {emits : S → A → Option E} {R : E → E → Prop}
    (hlog : ∀ s a, log (step s a) = log s ++ (emits s a).toList) (h₀ : log s₀ = [])
    (hR : ∀ i j a b x y, i < j → l[i]? = some a → l[j]? = some b → emits (stateAt step s₀ l i) a = some x →
      emits (stateAt step s₀ l j) b = some y → R x y) (n : Nat) : (log (stateAt step s₀ l n)).Pairwise R := by
  induction n with
  | zero =>
    rw [stateAt_zero, h₀]
    exact List.Pairwise.nil
  | succ n ih =>
    cases h : l[n]? with
    | none =>
      rw [stateAt_succ_of_none h]
      exact ih
    | some b =>
      rw [stateAt_succ h, hlog, List.pairwise_append]
      refine ⟨ih, ?_, ?_⟩
      · cases emits (stateAt step s₀ l n) b <;> simp
      · intro x hx y hy
        obtain ⟨i, hi, a, ha, hax⟩ := (mem_log_iff log hlog h₀).mp hx
        exact hR i n a b x y hi ha h hax (Option.mem_toList.mp hy)

/-- A log that grows by at most one entry a step has each of its beginnings behind a beginning of the run. -/
theorem exists_prefix_log {E : Type} (log : S → List E)
    (hlog : ∀ s a, ∃ e : Option E, log (step s a) = log s ++ e.toList) (h₀ : log s₀ = []) (l : List A) (k : Nat) :
    ∃ p, p <+: l ∧ log (p.foldl step s₀) = (log (l.foldl step s₀)).take k := by
  induction l using List.reverseRecOn with
  | nil => exact ⟨[], List.prefix_rfl, by simp [h₀]⟩
  | append_singleton l a ih =>
    obtain ⟨e, he⟩ := hlog (l.foldl step s₀) a
    rcases Nat.lt_or_ge (log (l.foldl step s₀)).length k with hlt | hge
    · refine ⟨l ++ [a], List.prefix_rfl, (List.take_of_length_le ?_).symm⟩
      have hone : e.toList.length ≤ 1 := by cases e <;> simp
      rw [List.foldl_append, List.foldl_cons, List.foldl_nil, he, List.length_append]
      omega
    · obtain ⟨p, hp, hlogp⟩ := ih
      refine ⟨p, hp.trans (List.prefix_append _ _), hlogp.trans ?_⟩
      rw [List.foldl_append, List.foldl_cons, List.foldl_nil, he, List.take_append_of_le_length hge]

theorem exists_head_filter {p : A → Bool} {j : Nat} {b : A} (hb : l[j]? = some b) (hpb : p b = true) :
    ∃ k c, k ≤ j ∧ l[k]? = some c ∧ p c = true ∧ (l.filter p).head? = some c := by
  induction l generalizing j with
  | nil => cases hb
  | cons x l ih =>
    by_cases hx : p x = true
    · exact ⟨0, x, Nat.zero_le j, rfl, hx, by rw [List.filter_cons_of_pos hx]; rfl⟩
    · cases j with
      | zero =>
        cases hb
        exact absurd hpb hx
      | succ j =>
        obtain ⟨k, c, hk, hc, hpc, hhead⟩ := ih hb
        exact ⟨k + 1, c, by omega, hc, hpc, by rw [List.filter_cons_of_neg hx]; exact hhead⟩

/-- When the elements with `p` are chained by `R`, the next one after any of them is related to it. -/
theorem exists_next_of_isChain {R : A → A → Prop} {p : A → Bool} (h : (l.filter p).IsChain R) {i j : Nat} (hij : i < j)
    {a b : A} (ha : l[i]? = some a) (hpa : p a = true) (hb : l[j]? = some b) (hpb : p b = true) :
    ∃ k c, i < k ∧ k ≤ j ∧ l[k]? = some c ∧ p c = true ∧ R a c := by
  induction l generalizing i j with
  | nil => cases ha
  | cons x l ih =>
    obtain ⟨j, rfl⟩ : ∃ j', j = j' + 1 := ⟨j - 1, by omega⟩
    cases i with
    | zero =>
      cases ha
      have hb' : l[j]? = some b := hb
      obtain ⟨k, c, hk, hc, hpc, hhead⟩ := exists_head_filter hb' hpb
      rw [List.filter_cons_of_pos hpa, List.isChain_cons] at h
      exact ⟨k + 1, c, by omega, by omega, hc, hpc, h.1 c hhead⟩
    | succ i =>
      have hchain : (l.filter p).IsChain R := by
        rw [List.filter_cons] at h
        split at h
        · exact (List.isChain_cons.mp h).2
        · exact h
      obtain ⟨k, c, hik, hkj, hc, hpc, hr⟩ := ih hchain (by omega) ha hb
      exact ⟨k + 1, c, by omega, by omega, hc, hpc, hr⟩

end Runs

/-! ### Spans -/

inductive SpanAct (K V : Type) where
  | start (k : K) (v : V)
  | complete (k : K)
  | none

def SpanAct.apply {K V : Type} [DecidableEq K] (m : BoundedMap K V) : SpanAct K V → BoundedMap K V
  | .start k v => m.put k v
  | .complete k => m.remove k
  | .none => m

def SpanAct.HasRoom {K V : Type} [DecidableEq K] (m : BoundedMap K V) : SpanAct K V → Prop
  | .start k _ => m.HasSlot k
  | .complete _ | .none => True

instance {K V : Type} [DecidableEq K] (m : BoundedMap K V) : (act : SpanAct K V) → Decidable (act.HasRoom m)
  | .start k _ => inferInstanceAs (Decidable (m.HasSlot k))
  | .complete _ | .none => isTrue trivial

theorem SpanAct.get_apply_cases {K V : Type} [DecidableEq K] {m : BoundedMap K V} {act : SpanAct K V} {k : K} {v : V}
    (h : (act.apply m).get k = some v) : act = .start k v ∨ m.get k = some v := by
  cases act with
  | start k' v' =>
    rcases BoundedMap.get_put_cases h with ⟨rfl, rfl, -⟩ | h
    · exact Or.inl rfl
    · exact Or.inr h
  | complete k' => exact Or.inr (BoundedMap.get_remove_cases h).2
  | none => exact Or.inr h

/-- A system that remembers under each key when a span started, and forgets it when the span completes. -/
structure Spans {S A : Type} (step : S → A → S) (K V : Type) [DecidableEq K] where
  map : S → BoundedMap K V
  act : S → A → SpanAct K V
  map_step : ∀ s a, map (step s a) = (act s a).apply (map s)

namespace Spans
open Runs
variable {S A K V : Type} [DecidableEq K] {step : S → A → S} (M : Spans step K V) {s₀ : S} {l : List A}

/-- The step starts a span under `k` and the map has a slot for it. -/
def Opens (s : S) (a : A) (k : K) (v : V) : Prop := M.act s a = .start k v ∧ (M.map s).HasSlot k

/-- The start at step `i` is open under `k` before step `n`: the latest successful one, with no completion of
    `k` since. -/
def OpenSince (s₀ : S) (l : List A) (i n : Nat) (k : K) (v : V) : Prop :=
  i < n ∧ ∃ a, l[i]? = some a ∧ M.Opens (stateAt step s₀ l i) a k v ∧
    ∀ j, i < j → j < n → ∀ b, l[j]? = some b →
      M.act (stateAt step s₀ l j) b ≠ .complete k ∧ ∀ w, ¬M.Opens (stateAt step s₀ l j) b k w

def OpenAt (s₀ : S) (l : List A) (n : Nat) (k : K) (v : V) : Prop := ∃ i, M.OpenSince s₀ l i n k v

theorem OpenSince.unique {i j n : Nat} {k : K} {v w : V} (hi : M.OpenSince s₀ l i n k v)
    (hj : M.OpenSince s₀ l j n k w) : i = j := by
  obtain ⟨hin, a, ha, hopen, hrest⟩ := hi
  obtain ⟨hjn, b, hb, hopen', hrest'⟩ := hj
  rcases Nat.lt_trichotomy i j with h | h | h
  · exact absurd hopen' ((hrest j h hjn b hb).2 w)
  · exact h
  · exact absurd hopen ((hrest' i h hin a ha).2 v)

theorem OpenSince.after_complete {i j n : Nat} {k : K} {v : V} (hj : M.OpenSince s₀ l j n k v) (hi : i < n) {a : A}
    (ha : l[i]? = some a) (hact : M.act (stateAt step s₀ l i) a = .complete k) : i < j := by
  obtain ⟨-, b, hb, hopen, hrest⟩ := hj
  rcases Nat.lt_trichotomy i j with h | rfl | h
  · exact h
  · obtain rfl := Option.some.inj (ha.symm.trans hb)
    cases hact.symm.trans hopen.1
  · exact absurd hact (hrest i h hi a ha).1

theorem get_step_of_opens {s : S} {a : A} {k : K} {v : V} (h : M.Opens s a k v) :
    (M.map (step s a)).get k = some v := by
  rw [M.map_step, h.1]
  exact BoundedMap.get_put_self h.2

theorem get_step_of_complete {s : S} {a : A} {k : K} (h : M.act s a = .complete k) :
    (M.map (step s a)).get k = none := by
  rw [M.map_step, h]
  exact BoundedMap.get_remove_self _ k

theorem get_step_of_untouched {s : S} {a : A} {k : K} (hc : M.act s a ≠ .complete k)
    (ho : ∀ w, ¬M.Opens s a k w) : (M.map (step s a)).get k = (M.map s).get k := by
  rw [M.map_step]
  cases hact : M.act s a with
  | start k' v =>
    by_cases hk : k = k'
    · subst hk
      exact congrArg (·.get k) (BoundedMap.put_of_not_hasSlot fun hs => ho v ⟨hact, hs⟩)
    · exact BoundedMap.get_put_of_ne hk
  | complete k' =>
    have hk : k ≠ k' := fun h => hc (h ▸ hact)
    exact BoundedMap.get_remove_of_ne hk
  | none => rfl

theorem openAt_succ {n : Nat} {k : K} {v : V} {a : A} (h : l[n]? = some a) : M.OpenAt s₀ l (n + 1) k v ↔
    M.Opens (stateAt step s₀ l n) a k v ∨
      (M.OpenAt s₀ l n k v ∧ M.act (stateAt step s₀ l n) a ≠ .complete k ∧
        ∀ w, ¬M.Opens (stateAt step s₀ l n) a k w) := by
  refine ⟨?_, ?_⟩
  · rintro ⟨i, hi, b, hb, hopen, hrest⟩
    rcases Nat.lt_succ_iff_lt_or_eq.mp hi with hi | rfl
    · exact Or.inr ⟨⟨i, hi, b, hb, hopen, fun j hij hj => hrest j hij (by omega)⟩, hrest n hi (by omega) a h⟩
    · rw [h] at hb
      cases hb
      exact Or.inl hopen
  · rintro (hopen | ⟨⟨i, hi, b, hb, hopen, hrest⟩, hlast⟩)
    · exact ⟨n, by omega, a, h, hopen, fun j h1 h2 => by omega⟩
    · refine ⟨i, by omega, b, hb, hopen, ?_⟩
      intro j hij hj c hc
      rcases Nat.lt_succ_iff_lt_or_eq.mp hj with hj | rfl
      · exact hrest j hij hj c hc
      · rw [h] at hc
        cases hc
        exact hlast

/-- An entry of the map is the open start of its key, in every run from an empty map. -/
theorem get_eq_some_iff (h₀ : ∀ k, (M.map s₀).get k = none) (n : Nat) {k : K} {v : V} :
    (M.map (stateAt step s₀ l n)).get k = some v ↔ M.OpenAt s₀ l n k v := by
  induction n generalizing v with
  | zero => simp [h₀, OpenAt, OpenSince]
  | succ n ih =>
    cases h : l[n]? with
    | none =>
      rw [stateAt_succ_of_none h, ih]
      refine ⟨?_, ?_⟩
      · rintro ⟨i, hi, a, ha, hopen, hrest⟩
        refine ⟨i, by omega, a, ha, hopen, ?_⟩
        intro j hij hj b hb
        rcases Nat.lt_succ_iff_lt_or_eq.mp hj with hj | rfl
        · exact hrest j hij hj b hb
        · rw [h] at hb
          cases hb
      · rintro ⟨i, hi, a, ha, hopen, hrest⟩
        rcases Nat.lt_succ_iff_lt_or_eq.mp hi with hi | rfl
        · exact ⟨i, hi, a, ha, hopen, fun j hij hj => hrest j hij (by omega)⟩
        · rw [h] at ha
          cases ha
    | some a =>
      rw [stateAt_succ h, M.openAt_succ h, ← ih]
      by_cases ho : ∃ w, M.Opens (stateAt step s₀ l n) a k w
      · obtain ⟨w, hw⟩ := ho
        rw [M.get_step_of_opens hw]
        refine ⟨?_, ?_⟩
        · intro h
          cases h
          exact Or.inl hw
        · rintro (hv | ⟨-, -, hno⟩)
          · rw [← M.get_step_of_opens hw, M.get_step_of_opens hv]
          · exact absurd hw (hno w)
      · have ho' : ∀ w, ¬M.Opens (stateAt step s₀ l n) a k w := fun w hw => ho ⟨w, hw⟩
        by_cases hc : M.act (stateAt step s₀ l n) a = .complete k
        · rw [M.get_step_of_complete hc]
          simp [ho', hc]
        · rw [M.get_step_of_untouched hc ho']
          simp [ho', hc]

/-- A successful start stays open, or is replaced by a later one, as long as its key is not completed. -/
theorem exists_openAt {n i : Nat} {k : K} {v : V} {a : A} (hi : i < n) (ha : l[i]? = some a)
    (hopen : M.Opens (stateAt step s₀ l i) a k v)
    (hrest : ∀ j, i < j → j < n → ∀ b, l[j]? = some b → M.act (stateAt step s₀ l j) b ≠ .complete k) :
    ∃ w, M.OpenAt s₀ l n k w := by
  induction n with
  | zero => omega
  | succ n ih =>
    rcases Nat.lt_succ_iff_lt_or_eq.mp hi with hi | rfl
    · obtain ⟨w, j, hj, b, hb, hbo, hbr⟩ := ih hi fun j hij hj => hrest j hij (by omega)
      by_cases hlast : ∃ c u, l[n]? = some c ∧ M.Opens (stateAt step s₀ l n) c k u
      · obtain ⟨c, u, hc, hu⟩ := hlast
        exact ⟨u, n, by omega, c, hc, hu, fun j h1 h2 => by omega⟩
      · refine ⟨w, j, by omega, b, hb, hbo, ?_⟩
        intro m hjm hm c hc
        rcases Nat.lt_succ_iff_lt_or_eq.mp hm with hm | rfl
        · exact hbr m hjm hm c hc
        · exact ⟨hrest m hi (by omega) c hc, fun u hu => hlast ⟨c, u, hc, hu⟩⟩
    · exact ⟨v, i, by omega, a, ha, hopen, fun j h1 h2 => by omega⟩

end Spans
