import Mathlib

/-! Extremal elements of a list under a key, with the tie rules of a left-to-right reduction: a search
    for a maximum keeps the last of several, a search for a minimum the first. The specifications are
    by position in the list, so that they also say which of several equal candidates is found. -/

namespace Extremum

variable {α β : Type} [LinearOrder β] {f : α → β}

/-- The element of greatest key, the last one on ties. -/
def maxByKey (f : α → β) : List α → Option α
  | [] => none
  | x :: xs => some (xs.foldl (fun m y => if f y < f m then m else y) x)

/-- The element of least key, the first one on ties. -/
def minByKey (f : α → β) : List α → Option α
  | [] => none
  | x :: xs => some (xs.foldl (fun m y => if f y < f m then y else m) x)

/-- `x` is the last of the elements of `l` with `p` whose key is greatest. -/
def IsLastMax (f : α → β) (p : α → Prop) (l : List α) (x : α) : Prop :=
  ∃ l₁ l₂, l = l₁ ++ x :: l₂ ∧ p x ∧ (∀ y ∈ l₁, p y → f y ≤ f x) ∧ ∀ y ∈ l₂, p y → f y < f x

/-- `x` is the first of the elements of `l` with `p` whose key is least. -/
def IsFirstMin (f : α → β) (p : α → Prop) (l : List α) (x : α) : Prop :=
  ∃ l₁ l₂, l = l₁ ++ x :: l₂ ∧ p x ∧ (∀ y ∈ l₁, p y → f x < f y) ∧ ∀ y ∈ l₂, p y → f x ≤ f y

/-! ### One more element -/

theorem maxByKey_append_singleton (l : List α) (y : α) : maxByKey f (l ++ [y]) =
    match maxByKey f l with
    | none => some y
    | some m => some (if f y < f m then m else y) := by
  cases l with
  | nil => rfl
  | cons x xs => simp [maxByKey, List.foldl_append]

theorem append_cons_eq_append_singleton {l l₁ l₂ : List α} {x y : α} (h : l ++ [y] = l₁ ++ x :: l₂) :
    (l₂ = [] ∧ x = y ∧ l₁ = l) ∨ ∃ l₃, l₂ = l₃ ++ [y] ∧ l = l₁ ++ x :: l₃ := by
  rcases List.eq_nil_or_concat l₂ with rfl | ⟨l₃, z, rfl⟩
  · obtain ⟨hl, hx⟩ := List.append_inj' h rfl
    exact Or.inl ⟨rfl, (List.singleton_inj.mp hx).symm, hl.symm⟩
  · rw [List.concat_eq_append, ← List.cons_append, ← List.append_assoc] at h
    obtain ⟨hl, hx⟩ := List.append_inj' h rfl
    exact Or.inr ⟨l₃, by rw [List.singleton_inj.mp hx, List.concat_eq_append], hl⟩

theorem isLastMax_append_singleton {p : α → Prop} {l : List α} {x y : α} : IsLastMax f p (l ++ [y]) x ↔
    (x = y ∧ p y ∧ ∀ z ∈ l, p z → f z ≤ f y) ∨ (IsLastMax f p l x ∧ (p y → f y < f x)) := by
  refine ⟨?_, ?_⟩
  · rintro ⟨l₁, l₂, h, hx, hle, hlt⟩
    rcases append_cons_eq_append_singleton h with ⟨-, rfl, rfl⟩ | ⟨l₃, rfl, rfl⟩
    · exact Or.inl ⟨rfl, hx, hle⟩
    · exact Or.inr ⟨⟨l₁, l₃, rfl, hx, hle, fun z hz => hlt z (List.mem_append_left _ hz)⟩, hlt y (by simp)⟩
  · rintro (⟨rfl, hx, hle⟩ | ⟨⟨l₁, l₂, rfl, hx, hle, hlt⟩, hy⟩)
    · exact ⟨l, [], rfl, hx, hle, by simp⟩
    · refine ⟨l₁, l₂ ++ [y], by simp, hx, hle, ?_⟩
      intro z hz hpz
      rcases List.mem_append.mp hz with hz | hz
      · exact hlt z hz hpz
      · obtain rfl := List.mem_singleton.mp hz
        exact hy hpz

/-! ### What a specification gives -/

theorem IsLastMax.mem {p : α → Prop} {l : List α} {x : α} (h : IsLastMax f p l x) : x ∈ l := by
  obtain ⟨l₁, l₂, rfl, -⟩ := h
  simp

theorem IsLastMax.prop {p : α → Prop} {l : List α} {x : α} (h : IsLastMax f p l x) : p x := by
  obtain ⟨-, -, -, hx, -⟩ := h
  exact hx

theorem IsLastMax.le {p : α → Prop} {l : List α} {x y : α} (h : IsLastMax f p l x) (hy : y ∈ l) (hp : p y) :
    f y ≤ f x := by
  obtain ⟨l₁, l₂, rfl, -, hle, hlt⟩ := h
  rcases List.mem_append.mp hy with hy | hy
  · exact hle y hy hp
  · rcases List.mem_cons.mp hy with rfl | hy
    · exact le_rfl
    · exact (hlt y hy hp).le

/-- Behind its position `x` has no equal. -/
theorem IsLastMax.exists_getElem? {p : α → Prop} {l : List α} {x : α} (h : IsLastMax f p l x) :
    ∃ i : Nat, l[i]? = some x ∧ ∀ (j : Nat) y, i < j → l[j]? = some y → p y → f y < f x := by
  obtain ⟨l₁, l₂, rfl, -, -, hlt⟩ := h
  refine ⟨l₁.length, by simp, ?_⟩
  intro j y hj hy
  rw [List.getElem?_append_right hj.le] at hy
  obtain ⟨k, hk⟩ : ∃ k, j - l₁.length = k + 1 := ⟨j - l₁.length - 1, by omega⟩
  rw [hk, List.getElem?_cons_succ] at hy
  exact hlt y (List.mem_of_getElem? hy)

/-! ### Searches -/

theorem maxByKey_eq_none_iff {l : List α} : maxByKey f l = none ↔ l = [] := by
  cases l <;> simp [maxByKey]

theorem maxByKey_map {γ : Type} (g : γ → α) (l : List γ) : maxByKey f (l.map g) = (maxByKey (f ∘ g) l).map g := by
  induction l using List.reverseRecOn with
  | nil => rfl
  | append_singleton l y ih =>
    rw [List.map_append, List.map_singleton, maxByKey_append_singleton, maxByKey_append_singleton, ih]
    cases maxByKey (f ∘ g) l with
    | none => rfl
    | some m =>
      simp only [Option.map_some, Function.comp_apply]
      split <;> rfl

theorem maxByKey_filter_eq_none_iff {p : α → Bool} {l : List α} :
    maxByKey f (l.filter p) = none ↔ ∀ y ∈ l, ¬p y = true := by
  rw [maxByKey_eq_none_iff, List.filter_eq_nil_iff]

/-- A filtered search for a maximum finds the last candidate of greatest key, by position in the
    unfiltered list. -/
theorem maxByKey_filter_eq_some_iff {p : α → Bool} {l : List α} {x : α} :
    maxByKey f (l.filter p) = some x ↔ IsLastMax f (p · = true) l x := by
  induction l using List.reverseRecOn generalizing x with
  | nil => simp [maxByKey, IsLastMax]
  | append_singleton l y ih =>
    rw [isLastMax_append_singleton, ← ih, List.filter_append]
    by_cases hy : p y = true
    · rw [List.filter_singleton, hy, cond_true, maxByKey_append_singleton]
      cases hm : maxByKey f (l.filter p) with
      | none =>
        have hall := maxByKey_filter_eq_none_iff.mp hm
        simp only [Option.some.injEq, reduceCtorEq, false_and, or_false, true_and]
        exact ⟨fun h => ⟨h.symm, fun z hz hpz => absurd hpz (hall z hz)⟩, fun h => h.1.symm⟩
      | some m =>
        have hmax := ih.mp hm
        simp only [Option.some.injEq, true_and, forall_const]
        by_cases hlt : f y < f m
        · rw [if_pos hlt]
          refine ⟨?_, ?_⟩
          · rintro rfl
            exact Or.inr ⟨rfl, hlt⟩
          · rintro (⟨-, hle⟩ | ⟨rfl, -⟩)
            · exact absurd (hle m hmax.mem hmax.prop) (not_le.mpr hlt)
            · rfl
        · rw [if_neg hlt]
          refine ⟨?_, ?_⟩
          · rintro rfl
            exact Or.inl ⟨rfl, fun z hz hpz => (hmax.le hz hpz).trans (not_lt.mp hlt)⟩
          · rintro (⟨rfl, -⟩ | ⟨rfl, h⟩)
            · rfl
            · exact absurd h hlt
    · rw [List.filter_singleton, Bool.not_eq_true _ |>.mp hy, cond_false, List.append_nil]
      simp

theorem isLastMax_iff_maxByKey {p : α → Prop} [DecidablePred p] {l : List α} {x : α} :
    IsLastMax f p l x ↔ maxByKey f (l.filter fun y => decide (p y)) = some x := by
  rw [maxByKey_filter_eq_some_iff]
  simp only [decide_eq_true_eq]

theorem IsLastMax.unique {p : α → Prop} {l : List α} {x y : α} (hx : IsLastMax f p l x) (hy : IsLastMax f p l y) :
    x = y := by
  classical
  exact Option.some.inj ((isLastMax_iff_maxByKey.mp hx).symm.trans (isLastMax_iff_maxByKey.mp hy))

/-! ### Minima are maxima of the reversed list

What holds of minima follows from what holds of maxima, for the dual order and the reversed list: the
first of several least keys is the last of several greatest ones. -/

theorem isFirstMin_iff_isLastMax {p : α → Prop} {l : List α} {x : α} :
    IsFirstMin f p l x ↔ IsLastMax (OrderDual.toDual ∘ f) p l.reverse x := by
  refine ⟨?_, ?_⟩
  · rintro ⟨l₁, l₂, rfl, hx, hlt, hle⟩
    refine ⟨l₂.reverse, l₁.reverse, by simp, hx, ?_, ?_⟩
    · intro y hy
      exact hle y (List.mem_reverse.mp hy)
    · intro y hy
      exact hlt y (List.mem_reverse.mp hy)
  · rintro ⟨l₁, l₂, h, hx, hle, hlt⟩
    have hl : l = l₂.reverse ++ x :: l₁.reverse := by
      rw [← List.reverse_reverse l, h]
      simp
    refine ⟨l₂.reverse, l₁.reverse, hl, hx, ?_, ?_⟩
    · intro y hy
      exact hlt y (List.mem_reverse.mp hy)
    · intro y hy
      exact hle y (List.mem_reverse.mp hy)

theorem minByKey_cons (x : α) (l : List α) : minByKey f (x :: l) =
    match minByKey f l with
    | none => some x
    | some m => some (if f m < f x then m else x) := by
  have : Std.Associative fun m y : α => if f y < f m then y else m := by
    refine ⟨?_⟩
    intro a b c
    split_ifs <;> first | rfl | order
  cases l with
  | nil => rfl
  | cons y ys => exact congrArg some List.foldl_assoc

theorem minByKey_eq_maxByKey (l : List α) : minByKey f l = maxByKey (OrderDual.toDual ∘ f) l.reverse := by
  induction l with
  | nil => rfl
  | cons x l ih =>
    rw [minByKey_cons, ih, List.reverse_cons, maxByKey_append_singleton]
    cases maxByKey (OrderDual.toDual ∘ f) l.reverse <;> rfl

theorem minByKey_filter_eq_some_iff {p : α → Bool} {l : List α} {x : α} :
    minByKey f (l.filter p) = some x ↔ IsFirstMin f (p · = true) l x := by
  rw [minByKey_eq_maxByKey, ← List.filter_reverse, maxByKey_filter_eq_some_iff, isFirstMin_iff_isLastMax]

theorem minByKey_filter_eq_none_iff {p : α → Bool} {l : List α} :
    minByKey f (l.filter p) = none ↔ ∀ y ∈ l, ¬p y = true := by
  rw [minByKey_eq_maxByKey, ← List.filter_reverse, maxByKey_filter_eq_none_iff]
  simp only [List.mem_reverse]

theorem minByKey_map {γ : Type} (g : γ → α) (l : List γ) : minByKey f (l.map g) = (minByKey (f ∘ g) l).map g := by
  rw [minByKey_eq_maxByKey, minByKey_eq_maxByKey, ← List.map_reverse, maxByKey_map]
  rfl

section FirstMin
variable {p : α → Prop} {l : List α} {x y : α}

theorem IsFirstMin.mem (h : IsFirstMin f p l x) : x ∈ l :=
  List.mem_reverse.mp (isFirstMin_iff_isLastMax.mp h).mem

theorem IsFirstMin.prop (h : IsFirstMin f p l x) : p x :=
  (isFirstMin_iff_isLastMax.mp h).prop

theorem IsFirstMin.le (h : IsFirstMin f p l x) (hy : y ∈ l) (hp : p y) : f x ≤ f y :=
  (isFirstMin_iff_isLastMax.mp h).le (List.mem_reverse.mpr hy) hp

theorem IsFirstMin.unique (hx : IsFirstMin f p l x) (hy : IsFirstMin f p l y) : x = y :=
  (isFirstMin_iff_isLastMax.mp hx).unique (isFirstMin_iff_isLastMax.mp hy)

/-- Before its position `x` has no equal. -/
theorem IsFirstMin.exists_getElem? (h : IsFirstMin f p l x) :
    ∃ i : Nat, l[i]? = some x ∧ ∀ (j : Nat) y, j < i → l[j]? = some y → p y → f x < f y := by
  obtain ⟨l₁, l₂, rfl, -, hlt, -⟩ := h
  refine ⟨l₁.length, by simp, ?_⟩
  intro j y hj hy
  rw [List.getElem?_append_left hj] at hy
  exact hlt y (List.mem_of_getElem? hy)

end FirstMin

/-- A candidate with a key below every other candidate's is found, wherever it stands. -/
theorem minByKey_filter_eq_some_of_lt {p : α → Bool} {l : List α} {x : α} (hx : x ∈ l) (hp : p x = true)
    (h : ∀ y ∈ l, p y = true → y = x ∨ f x < f y) : minByKey f (l.filter p) = some x := by
  cases hm : minByKey f (l.filter p) with
  | none => exact absurd hp (minByKey_filter_eq_none_iff.mp hm x hx)
  | some m =>
    have hmin := minByKey_filter_eq_some_iff.mp hm
    rcases h m hmin.mem hmin.prop with rfl | hlt
    · rfl
    · exact absurd (hmin.le hx hp) (not_le.mpr hlt)

/-! ### Lists with the same extremal element -/

section Transport
variable {γ δ : Type} [LinearOrder δ] {p q : α → Prop} {l : List α} {x : α}

/-- Only the candidates and the order of their keys matter. -/
theorem isLastMax_congr {g : α → δ} (hp : ∀ y ∈ l, (p y ↔ q y)) (hf : ∀ y ∈ l, ∀ z ∈ l, (f y ≤ f z ↔ g y ≤ g z)) :
    IsLastMax f p l x ↔ IsLastMax g q l x := by
  have hlt : ∀ y ∈ l, ∀ z ∈ l, (f y < f z ↔ g y < g z) := by
    intro y hy z hz
    rw [← not_le, ← not_le, hf z hz y hy]
  refine exists_congr fun l₁ => exists_congr fun l₂ => and_congr_right ?_
  rintro rfl
  have hx : x ∈ l₁ ++ x :: l₂ := by simp
  refine and_congr (hp x hx) (and_congr ?_ ?_)
  · refine forall₂_congr fun y hy => ?_
    have hy' : y ∈ l₁ ++ x :: l₂ := List.mem_append_left _ hy
    exact imp_congr (hp y hy') (hf y hy' x hx)
  · refine forall₂_congr fun y hy => ?_
    have hy' : y ∈ l₁ ++ x :: l₂ := List.mem_append_right _ (List.mem_cons_of_mem _ hy)
    exact imp_congr (hp y hy') (hlt y hy' x hx)

theorem isFirstMin_congr {g : α → δ} (hp : ∀ y ∈ l, (p y ↔ q y)) (hf : ∀ y ∈ l, ∀ z ∈ l, (f y ≤ f z ↔ g y ≤ g z)) :
    IsFirstMin f p l x ↔ IsFirstMin g q l x := by
  rw [isFirstMin_iff_isLastMax, isFirstMin_iff_isLastMax]
  refine isLastMax_congr ?_ ?_
  · intro y hy
    exact hp y (List.mem_reverse.mp hy)
  · intro y hy z hz
    exact hf z (List.mem_reverse.mp hz) y (List.mem_reverse.mp hy)

theorem isLastMax_map {g : γ → α} {l : List γ} :
    IsLastMax f p (l.map g) x ↔ ∃ y, x = g y ∧ IsLastMax (f ∘ g) (p ∘ g) l y := by
  refine ⟨?_, ?_⟩
  · rintro ⟨l₁, l₂, h, hx, hle, hlt⟩
    obtain ⟨m₁, m, rfl, rfl, hm⟩ := List.map_eq_append_iff.mp h
    obtain ⟨y, m₂, rfl, rfl, rfl⟩ := List.map_eq_cons_iff.mp hm
    refine ⟨y, rfl, m₁, m₂, rfl, hx, ?_, ?_⟩
    · intro z hz
      exact hle (g z) (List.mem_map_of_mem hz)
    · intro z hz
      exact hlt (g z) (List.mem_map_of_mem hz)
  · rintro ⟨y, rfl, l₁, l₂, rfl, hx, hle, hlt⟩
    refine ⟨l₁.map g, l₂.map g, by simp, hx, ?_, ?_⟩
    · intro z' hz'
      obtain ⟨z, hz, rfl⟩ := List.mem_map.mp hz'
      exact hle z hz
    · intro z' hz'
      obtain ⟨z, hz, rfl⟩ := List.mem_map.mp hz'
      exact hlt z hz

theorem isFirstMin_map {g : γ → α} {l : List γ} :
    IsFirstMin f p (l.map g) x ↔ ∃ y, x = g y ∧ IsFirstMin (f ∘ g) (p ∘ g) l y := by
  simp only [isFirstMin_iff_isLastMax, ← List.map_reverse, isLastMax_map]
  rfl

/-- Elements that are no candidates may be left out. -/
theorem isLastMax_filter {k : α → Bool} (h : ∀ y ∈ l, p y → k y = true) :
    IsLastMax f p (l.filter k) x ↔ IsLastMax f p l x := by
  classical
  rw [isLastMax_iff_maxByKey, isLastMax_iff_maxByKey, List.filter_filter]
  have hsame : l.filter (fun y => decide (p y) && k y) = l.filter fun y => decide (p y) := by
    refine List.filter_congr ?_
    intro y hy
    by_cases hp : p y
    · simp [hp, h y hy hp]
    · simp [hp]
  rw [hsame]

theorem isFirstMin_filter {k : α → Bool} (h : ∀ y ∈ l, p y → k y = true) :
    IsFirstMin f p (l.filter k) x ↔ IsFirstMin f p l x := by
  rw [isFirstMin_iff_isLastMax, isFirstMin_iff_isLastMax, ← List.filter_reverse]
  exact isLastMax_filter fun y hy => h y (List.mem_reverse.mp hy)

/-- Among candidates with different keys the position does not matter. -/
theorem isLastMax_iff_of_distinct (hd : l.Pairwise fun a b => p a → p b → f a ≠ f b) :
    IsLastMax f p l x ↔ x ∈ l ∧ p x ∧ ∀ y ∈ l, p y → f y ≤ f x := by
  refine ⟨fun h => ⟨h.mem, h.prop, fun y hy => h.le hy⟩, ?_⟩
  rintro ⟨hx, hpx, hle⟩
  obtain ⟨l₁, l₂, rfl⟩ := List.append_of_mem hx
  refine ⟨l₁, l₂, rfl, hpx, fun y hy => hle y (List.mem_append_left _ hy), ?_⟩
  intro y hy hpy
  have hne := (List.pairwise_cons.mp (List.pairwise_append.mp hd).2.1).1 y hy hpx hpy
  exact lt_of_le_of_ne (hle y (List.mem_append_right _ (List.mem_cons_of_mem _ hy)) hpy) hne.symm

theorem isLastMax_perm {l' : List α} (hl : l.Perm l') (hd : l.Pairwise fun a b => p a → p b → f a ≠ f b) :
    IsLastMax f p l x ↔ IsLastMax f p l' x := by
  have hd' : l'.Pairwise fun a b => p a → p b → f a ≠ f b :=
    (hl.pairwise_iff fun h hp hq => (h hq hp).symm).mp hd
  rw [isLastMax_iff_of_distinct hd, isLastMax_iff_of_distinct hd']
  simp only [hl.mem_iff]

theorem isFirstMin_perm {l' : List α} (hl : l.Perm l') (hd : l.Pairwise fun a b => p a → p b → f a ≠ f b) :
    IsFirstMin f p l x ↔ IsFirstMin f p l' x := by
  have hd' : l.reverse.Pairwise fun a b => p a → p b → f a ≠ f b :=
    List.pairwise_reverse.mpr (hd.imp fun h hp hq => (h hq hp).symm)
  rw [isFirstMin_iff_isLastMax, isFirstMin_iff_isLastMax]
  exact isLastMax_perm (((List.reverse_perm l).trans hl).trans (List.reverse_perm l').symm)
    (hd'.imp fun h hp hq he => h hp hq (OrderDual.toDual.injective he))

end Transport

end Extremum
