import Whyslow.Theorems.Joins

/-! The two classifiers find an optimal candidate, by position in the trace, without a subtraction that underflows; and
    the two lookups they are made of are mirror images of each other. -/

namespace Whyslow
open Extremum

/-! ### Checked subtraction -/

/-- `filter` with a test that may fail. -/
def filterChecked (test : TraceEvent → Option Bool) : List TraceEvent → Option (List TraceEvent)
  | [] => some []
  | e :: l => do
    let keep ← test e
    let rest ← filterChecked test l
    return if keep then e :: rest else rest

/-- `nearest_preceding`, failing where its subtraction underflows. -/
def nearestPrecedingChecked (candidates : List TraceEvent) (anchorTs : UInt64) (pred : TraceEvent → Bool) :
    Option (Option TraceEvent) := do
  let kept ← filterChecked (fun e =>
    if pred e && decide (e.timestampNs ≤ anchorTs) then do
      let distance ← Words.checkedSub anchorTs e.timestampNs
      return decide (distance ≤ matchWindowNs)
    else some false) candidates
  return maxByKey (·.timestampNs.toNat) kept

/-- `nearest_following`, failing where its subtraction underflows. -/
def nearestFollowingChecked (candidates : List TraceEvent) (anchorTs : UInt64) (pred : TraceEvent → Bool) :
    Option (Option TraceEvent) := do
  let kept ← filterChecked (fun e =>
    if pred e && decide (e.timestampNs ≥ anchorTs) then do
      let distance ← Words.checkedSub e.timestampNs anchorTs
      return decide (distance ≤ matchWindowNs)
    else some false) candidates
  return minByKey (·.timestampNs.toNat) kept

/-- `classify_resume_cause`, failing where a subtraction underflows or saturates. -/
def classifyResumeCauseChecked (tid : UInt32) (resumeTs : UInt64) (typed : Typed) : Option Cause := do
  let fw ← nearestFollowingChecked typed.futexWait resumeTs fun e => e.tid == tid
  let io ← nearestPrecedingChecked typed.blockIo resumeTs fun e => e.tid == tid
  match fw, io with
  | some f, some i =>
    let fDist ← Words.checkedSub f.timestampNs resumeTs
    let ioDist ← Words.checkedSub resumeTs i.timestampNs
    return if fDist ≤ ioDist then .futex f else .blockIo i
  | some f, none => return .futex f
  | none, some i => return .blockIo i
  | none, none => return .unknown

/-- `classify_prior_cause`, failing where a subtraction underflows. -/
def classifyPriorCauseChecked (tid : UInt32) (anchorTs : UInt64) (typed : Typed) : Option Cause := do
  let fw ← nearestPrecedingChecked typed.futexWait anchorTs fun e => e.tid == tid
  let io ← nearestPrecedingChecked typed.blockIo anchorTs fun e => e.tid == tid
  match fw, io with
  | some f, some i => return if f.timestampNs ≥ i.timestampNs then .futex f else .blockIo i
  | some f, none => return .futex f
  | none, some i => return .blockIo i
  | none, none => return .unknown

section Checked
variable {candidates : List TraceEvent} {anchor : UInt64} {pred : TraceEvent → Bool} {e : TraceEvent}

theorem filterChecked_eq_some {test : TraceEvent → Option Bool} {p : TraceEvent → Bool} (h : ∀ e, test e = some (p e))
    (l : List TraceEvent) : filterChecked test l = some (l.filter p) := by
  induction l with
  | nil => rfl
  | cons e l ih =>
    rw [filterChecked, h e, ih, List.filter_cons]
    rfl

/-- The window of a lookup: the subtraction is reached only in its range. -/
theorem checkedTest_eq {a b : UInt64} {keep : Bool} (h : keep = true → b ≤ a) :
    (if keep then do
      let distance ← Words.checkedSub a b
      return decide (distance ≤ matchWindowNs)
    else some false) = some (keep && decide (a - b ≤ matchWindowNs)) := by
  cases keep with
  | false => rfl
  | true =>
    rw [Words.checkedSub_eq_some (h rfl)]
    rfl

theorem nearestPrecedingChecked_eq (candidates : List TraceEvent) (anchor : UInt64) (pred : TraceEvent → Bool) :
    nearestPrecedingChecked candidates anchor pred = some (nearestPreceding candidates anchor pred) := by
  unfold nearestPrecedingChecked
  rw [filterChecked_eq_some (p := fun e =>
    pred e && decide (e.timestampNs ≤ anchor) && decide (anchor - e.timestampNs ≤ matchWindowNs))]
  · rfl
  · intro e
    exact checkedTest_eq fun h => of_decide_eq_true (Bool.and_eq_true_iff.mp h).2

theorem nearestFollowingChecked_eq (candidates : List TraceEvent) (anchor : UInt64) (pred : TraceEvent → Bool) :
    nearestFollowingChecked candidates anchor pred = some (nearestFollowing candidates anchor pred) := by
  unfold nearestFollowingChecked
  rw [filterChecked_eq_some (p := fun e =>
    pred e && decide (e.timestampNs ≥ anchor) && decide (e.timestampNs - anchor ≤ matchWindowNs))]
  · rfl
  · intro e
    exact checkedTest_eq fun h => of_decide_eq_true (Bool.and_eq_true_iff.mp h).2

theorem nearestPreceding_le (h : nearestPreceding candidates anchor pred = some e) : e.timestampNs ≤ anchor := by
  have hkeep := (maxByKey_filter_eq_some_iff.mp h).prop
  simp only [Bool.and_eq_true, decide_eq_true_eq] at hkeep
  exact hkeep.1.2

theorem nearestFollowing_ge (h : nearestFollowing candidates anchor pred = some e) : anchor ≤ e.timestampNs := by
  have hkeep := (minByKey_filter_eq_some_iff.mp h).prop
  simp only [Bool.and_eq_true, decide_eq_true_eq] at hkeep
  exact hkeep.1.2

end Checked

theorem classifyResumeCauseChecked_eq (tid : UInt32) (resume : UInt64) (typed : Typed) :
    classifyResumeCauseChecked tid resume typed = some (classifyResumeCause tid resume typed) := by
  unfold classifyResumeCauseChecked classifyResumeCause
  rw [nearestFollowingChecked_eq, nearestPrecedingChecked_eq]
  simp only [Option.bind_eq_bind, Option.bind_some]
  cases hf : nearestFollowing typed.futexWait resume fun e => e.tid == tid with
  | none => cases nearestPreceding typed.blockIo resume fun e => e.tid == tid <;> rfl
  | some f =>
    cases hi : nearestPreceding typed.blockIo resume fun e => e.tid == tid with
    | none => rfl
    | some i =>
      have hfle := nearestFollowing_ge hf
      have hile := nearestPreceding_le hi
      dsimp only
      rw [Words.checkedSub_eq_some hfle, Words.checkedSub_eq_some hile, Words.saturatingSub_eq_sub hfle,
        Words.saturatingSub_eq_sub hile]
      rfl

theorem classifyPriorCauseChecked_eq (tid : UInt32) (anchor : UInt64) (typed : Typed) :
    classifyPriorCauseChecked tid anchor typed = some (classifyPriorCause tid anchor typed) := by
  unfold classifyPriorCauseChecked classifyPriorCause
  rw [nearestPrecedingChecked_eq, nearestPrecedingChecked_eq]
  simp only [Option.bind_eq_bind, Option.bind_some]
  cases nearestPreceding typed.futexWait anchor fun e => e.tid == tid with
  | none => cases nearestPreceding typed.blockIo anchor fun e => e.tid == tid <;> rfl
  | some f => cases nearestPreceding typed.blockIo anchor fun e => e.tid == tid <;> rfl

/-! ### Optimal candidates -/

def TraceEvent.distance (e : TraceEvent) (r : Nat) : Nat := ((e.ends : Int) - r).natAbs

/-- A wait of `tid` that ended in `[r, r + 5ms]`, or a request of it that ended in `[r - 5ms, r]`. -/
def ResumeCandidate (tid : UInt32) (r : Nat) (e : TraceEvent) : Prop := WaitOf tid (After r) e ∨ IoOf tid (Before r) e

/-- A wait or a request of `tid` that ended in `[r - 5ms, r]`. -/
def PriorCandidate (tid : UInt32) (r : Nat) (e : TraceEvent) : Prop := WaitOf tid (Before r) e ∨ IoOf tid (Before r) e

/-- `e` is the first of the events of its type, thread and end. -/
def FirstAt (events : List TraceEvent) (type : UInt8) (tid : UInt32) (e : TraceEvent) : Prop :=
  ∃ i : Nat, events[i]? = some e ∧
    ∀ (j : Nat) e', events[j]? = some e' → e'.eventType = type → e'.tid = tid → e'.ends = e.ends → i ≤ j

/-- `e` is the last of the events of its type, thread and end. -/
def LastAt (events : List TraceEvent) (type : UInt8) (tid : UInt32) (e : TraceEvent) : Prop :=
  ∃ i : Nat, events[i]? = some e ∧
    ∀ (j : Nat) e', events[j]? = some e' → e'.eventType = type → e'.tid = tid → e'.ends = e.ends → j ≤ i

/-- An optimal cause of a resume: the candidate at minimal distance, a wait if a wait is at that distance. -/
def OptimalResume (events : List TraceEvent) (tid : UInt32) (r : Nat) : Cause → Prop
  | .futex f => WaitOf tid (After r) f ∧ FirstAt events eventFutexWait tid f ∧
    ∀ e ∈ events, ResumeCandidate tid r e → f.distance r ≤ e.distance r
  | .blockIo io => IoOf tid (Before r) io ∧ LastAt events eventBlockIo tid io ∧
    (∀ e ∈ events, ResumeCandidate tid r e → io.distance r ≤ e.distance r) ∧
    ∀ e ∈ events, WaitOf tid (After r) e → e.distance r ≠ io.distance r
  | .unknown => ∀ e ∈ events, ¬ResumeCandidate tid r e

/-- An optimal prior cause: the candidate with the latest end, a wait if a wait has that end. -/
def OptimalPrior (events : List TraceEvent) (tid : UInt32) (r : Nat) : Cause → Prop
  | .futex f => WaitOf tid (Before r) f ∧ LastAt events eventFutexWait tid f ∧
    ∀ e ∈ events, PriorCandidate tid r e → e.ends ≤ f.ends
  | .blockIo io => IoOf tid (Before r) io ∧ LastAt events eventBlockIo tid io ∧
    (∀ e ∈ events, PriorCandidate tid r e → e.ends ≤ io.ends) ∧
    ∀ e ∈ events, WaitOf tid (Before r) e → e.ends ≠ io.ends
  | .unknown => ∀ e ∈ events, ¬PriorCandidate tid r e

section Optimal
variable {events : List TraceEvent} {type : UInt8} {tid : UInt32} {r : Nat} {win : Nat → Prop} {e : TraceEvent}

theorem After.distance (h : After r e.ends) : e.distance r = e.ends - r := by
  have := h.1
  unfold TraceEvent.distance
  omega

theorem Before.distance (h : Before r e.ends) : e.distance r = r - e.ends := by
  have := h.1
  unfold TraceEvent.distance
  omega

theorem firstAt_of_isFirstMin (h : IsFirstMin TraceEvent.ends (Candidate type (·.tid = tid) win) events e) :
    FirstAt events type tid e := by
  obtain ⟨i, hi, hbefore⟩ := h.exists_getElem?
  refine ⟨i, hi, ?_⟩
  intro j e' he' hty htid hends
  by_contra hlt
  have hwin : win e'.ends := hends ▸ h.prop.2.2
  exact absurd (hbefore j e' (not_le.mp hlt) he' ⟨hty, htid, hwin⟩) (not_lt.mpr hends.le)

theorem lastAt_of_isLastMax (h : IsLastMax TraceEvent.ends (Candidate type (·.tid = tid) win) events e) :
    LastAt events type tid e := by
  obtain ⟨i, hi, hbehind⟩ := h.exists_getElem?
  refine ⟨i, hi, ?_⟩
  intro j e' he' hty htid hends
  by_contra hlt
  have hwin : win e'.ends := hends ▸ h.prop.2.2
  exact absurd (hbehind j e' (not_le.mp hlt) he' ⟨hty, htid, hwin⟩) (not_lt.mpr hends.ge)

theorem optimalResume_futex (h : IsResumeFutex events tid r e) : OptimalResume events tid r (.futex e) := by
  refine ⟨h.1.prop, firstAt_of_isFirstMin h.1, ?_⟩
  intro x hx hc
  rw [After.distance h.1.prop.2.2]
  rcases hc with hwait | hio
  · rw [After.distance hwait.2.2]
    exact Nat.sub_le_sub_right (h.1.le hx hwait) _
  · rw [Before.distance hio.2.2]
    exact h.2 x hx hio

theorem optimalResume_blockIo (h : IsResumeBlockIo events tid r e) : OptimalResume events tid r (.blockIo e) := by
  refine ⟨h.1.prop, lastAt_of_isLastMax h.1, ?_, ?_⟩
  · intro x hx hc
    rw [Before.distance h.1.prop.2.2]
    rcases hc with hwait | hio
    · rw [After.distance hwait.2.2]
      exact (h.2 x hx hwait).le
    · rw [Before.distance hio.2.2]
      exact Nat.sub_le_sub_left (h.1.le hx hio) _
  · intro x hx hwait
    rw [After.distance hwait.2.2, Before.distance h.1.prop.2.2]
    exact (h.2 x hx hwait).ne'

theorem optimalPrior_futex (h : IsPriorFutex events tid r e) : OptimalPrior events tid r (.futex e) := by
  refine ⟨h.1.prop, lastAt_of_isLastMax h.1, ?_⟩
  intro x hx hc
  rcases hc with hwait | hio
  · exact h.1.le hx hwait
  · exact h.2 x hx hio

theorem optimalPrior_blockIo (h : IsPriorBlockIo events tid r e) : OptimalPrior events tid r (.blockIo e) := by
  refine ⟨h.1.prop, lastAt_of_isLastMax h.1, ?_, fun x hx hwait => (h.2 x hx hwait).ne⟩
  intro x hx hc
  rcases hc with hwait | hio
  · exact (h.2 x hx hwait).le
  · exact h.1.le hx hio

theorem optimalResume_eq_unknown {c : Cause} (h : OptimalResume events tid r c)
    (hno : ∀ e ∈ events, ¬ResumeCandidate tid r e) : c = .unknown := by
  cases c with
  | futex f =>
    obtain ⟨hwait, ⟨i, hi, -⟩, -⟩ := h
    exact absurd (Or.inl hwait) (hno f (List.mem_of_getElem? hi))
  | blockIo io =>
    obtain ⟨hio, ⟨i, hi, -⟩, -⟩ := h
    exact absurd (Or.inr hio) (hno io (List.mem_of_getElem? hi))
  | unknown => rfl

theorem optimalPrior_eq_unknown {c : Cause} (h : OptimalPrior events tid r c)
    (hno : ∀ e ∈ events, ¬PriorCandidate tid r e) : c = .unknown := by
  cases c with
  | futex f =>
    obtain ⟨hwait, ⟨i, hi, -⟩, -⟩ := h
    exact absurd (Or.inl hwait) (hno f (List.mem_of_getElem? hi))
  | blockIo io =>
    obtain ⟨hio, ⟨i, hi, -⟩, -⟩ := h
    exact absurd (Or.inr hio) (hno io (List.mem_of_getElem? hi))
  | unknown => rfl

theorem classifyResumeCause_optimal (events : List TraceEvent) (tid : UInt32) (r : UInt64) :
    OptimalResume events tid r.toNat (classifyResumeCause tid r (Typed.partition events)) := by
  have hspec := classifyResumeCause_spec events tid r
  cases hc : classifyResumeCause tid r (Typed.partition events) with
  | futex f =>
    rw [hc] at hspec
    exact optimalResume_futex hspec
  | blockIo io =>
    rw [hc] at hspec
    exact optimalResume_blockIo hspec
  | unknown =>
    rw [hc] at hspec
    intro e he
    exact not_or.mpr (hspec e he)

theorem classifyPriorCause_optimal (events : List TraceEvent) (tid : UInt32) (r : UInt64) :
    OptimalPrior events tid r.toNat (classifyPriorCause tid r (Typed.partition events)) := by
  have hspec := classifyPriorCause_spec events tid r
  cases hc : classifyPriorCause tid r (Typed.partition events) with
  | futex f =>
    rw [hc] at hspec
    exact optimalPrior_futex hspec
  | blockIo io =>
    rw [hc] at hspec
    exact optimalPrior_blockIo hspec
  | unknown =>
    rw [hc] at hspec
    intro e he
    exact not_or.mpr (hspec e he)

end Optimal

/-- Both classifiers return an optimal candidate, or `Unknown` exactly when there is none; with checked subtractions
    they would not fail, and return the same. -/
theorem classifiers_optimal (events : List TraceEvent) (tid : UInt32) (r : UInt64) :
    OptimalResume events tid r.toNat (classifyResumeCause tid r (Typed.partition events)) ∧
    (classifyResumeCause tid r (Typed.partition events) = .unknown ↔
      ∀ e ∈ events, ¬ResumeCandidate tid r.toNat e) ∧
    OptimalPrior events tid r.toNat (classifyPriorCause tid r (Typed.partition events)) ∧
    (classifyPriorCause tid r (Typed.partition events) = .unknown ↔ ∀ e ∈ events, ¬PriorCandidate tid r.toNat e) ∧
    classifyResumeCauseChecked tid r (Typed.partition events) =
      some (classifyResumeCause tid r (Typed.partition events)) ∧
    classifyPriorCauseChecked tid r (Typed.partition events) =
      some (classifyPriorCause tid r (Typed.partition events)) := by
  have hresume := classifyResumeCause_optimal events tid r
  have hprior := classifyPriorCause_optimal events tid r
  refine ⟨hresume, ⟨?_, optimalResume_eq_unknown hresume⟩, hprior, ⟨?_, optimalPrior_eq_unknown hprior⟩,
    classifyResumeCauseChecked_eq tid r _, classifyPriorCauseChecked_eq tid r _⟩
  · intro hc
    rw [hc] at hresume
    exact hresume
  · intro hc
    rw [hc] at hprior
    exact hprior

/-! ### Mirror images -/

/-- `nearest_preceding` with the position of the candidate it returns. -/
def precedingAt (candidates : List TraceEvent) (anchorTs : UInt64) (pred : TraceEvent → Bool) :
    Option (TraceEvent × Nat) :=
  maxByKey (·.1.timestampNs.toNat) (candidates.zipIdx.filter fun s => pred s.1 &&
    decide (s.1.timestampNs ≤ anchorTs) && decide (anchorTs - s.1.timestampNs ≤ matchWindowNs))

/-- `nearest_following` with the position of the candidate it returns. -/
def followingAt (candidates : List TraceEvent) (anchorTs : UInt64) (pred : TraceEvent → Bool) :
    Option (TraceEvent × Nat) :=
  minByKey (·.1.timestampNs.toNat) (candidates.zipIdx.filter fun s => pred s.1 &&
    decide (s.1.timestampNs ≥ anchorTs) && decide (s.1.timestampNs - anchorTs ≤ matchWindowNs))

/-- Time runs backwards from `M`. -/
def TraceEvent.reflect (M : UInt64) (e : TraceEvent) : TraceEvent := { e with timestampNs := M - e.timestampNs }

section Mirror
variable {candidates : List TraceEvent} {anchor M : UInt64} {pred : TraceEvent → Bool}

theorem map_fst_precedingAt (candidates : List TraceEvent) (anchor : UInt64) (pred : TraceEvent → Bool) :
    (precedingAt candidates anchor pred).map (·.1) = nearestPreceding candidates anchor pred := by
  have hzip : candidates = candidates.zipIdx.map (·.1) := (List.zipIdx_map_fst 0 candidates).symm
  unfold nearestPreceding
  rw [hzip, List.filter_map, maxByKey_map, ← hzip]
  rfl

theorem map_fst_followingAt (candidates : List TraceEvent) (anchor : UInt64) (pred : TraceEvent → Bool) :
    (followingAt candidates anchor pred).map (·.1) = nearestFollowing candidates anchor pred := by
  have hzip : candidates = candidates.zipIdx.map (·.1) := (List.zipIdx_map_fst 0 candidates).symm
  unfold nearestFollowing
  rw [hzip, List.filter_map, minByKey_map, ← hzip]
  rfl

theorem precedingAt_eq_some_iff {s : TraceEvent × Nat} : precedingAt candidates anchor pred = some s ↔
    IsLastMax (·.1.ends) (fun s => pred s.1 = true ∧ Before anchor.toNat s.1.ends) candidates.zipIdx s := by
  unfold precedingAt
  rw [maxByKey_filter_eq_some_iff]
  simp only [Bool.and_assoc, Bool.and_eq_true (pred _), before_iff]
  rfl

theorem followingAt_eq_some_iff {s : TraceEvent × Nat} : followingAt candidates anchor pred = some s ↔
    IsFirstMin (·.1.ends) (fun s => pred s.1 = true ∧ After anchor.toNat s.1.ends) candidates.zipIdx s := by
  unfold followingAt
  rw [minByKey_filter_eq_some_iff]
  simp only [Bool.and_assoc, Bool.and_eq_true (pred _), after_iff]
  rfl

theorem getElem?_of_followingAt {s : TraceEvent × Nat} (h : followingAt candidates anchor pred = some s) :
    candidates[s.2]? = some s.1 := List.mem_zipIdx_iff_getElem?.mp (followingAt_eq_some_iff.mp h).mem

theorem reflect_ends {e : TraceEvent} (h : e.timestampNs ≤ M) : (e.reflect M).ends = M.toNat - e.ends :=
  UInt64.toNat_sub_of_le _ _ h

/-- The mirror image of an element and of its position in a list of `len`. -/
def mirror (M : UInt64) (len : Nat) (s : TraceEvent × Nat) : TraceEvent × Nat := (s.1.reflect M, len - 1 - s.2)

theorem zipIdx_reverse_map_reflect (candidates : List TraceEvent) :
    (candidates.map (TraceEvent.reflect M)).reverse.zipIdx =
      candidates.zipIdx.reverse.map (mirror M candidates.length) := by
  refine List.ext_getElem (by simp) ?_
  intro i h h'
  simp only [List.length_zipIdx, List.length_reverse, List.length_map] at h
  simp only [List.getElem_zipIdx, List.getElem_reverse, List.getElem_map, List.length_map, List.length_zipIdx, mirror,
    Nat.zero_add, Prod.mk.injEq, true_and]
  omega

theorem mirror_isLastMax_iff {l : List (TraceEvent × Nat)} {s : TraceEvent × Nat} {len : Nat}
    (ha : anchor ≤ M) (hM : ∀ s ∈ l, s.1.timestampNs ≤ M)
    (hpred : ∀ (e : TraceEvent) t, pred { e with timestampNs := t } = pred e) :
    IsLastMax ((·.1.ends) ∘ mirror M len)
        ((fun s => pred s.1 = true ∧ Before (M - anchor).toNat s.1.ends) ∘ mirror M len) l s ↔
      IsLastMax (OrderDual.toDual ∘ (·.1.ends)) (fun s => pred s.1 = true ∧ After anchor.toNat s.1.ends) l s := by
  have hanchor := UInt64.le_iff_toNat_le.mp ha
  have hends : ∀ s ∈ l, s.1.ends ≤ M.toNat := fun s hs => UInt64.le_iff_toNat_le.mp (hM s hs)
  refine isLastMax_congr ?_ ?_
  · intro x hx
    have hxM := hends x hx
    have hsame : pred (x.1.reflect M) = pred x.1 := hpred x.1 _
    simp only [Function.comp_apply, mirror, reflect_ends (hM x hx), UInt64.toNat_sub_of_le _ _ ha, hsame]
    refine and_congr_right fun _ => ?_
    unfold Before After
    omega
  · intro x hx y hy
    have hxM := hends x hx
    have hyM := hends y hy
    simp only [Function.comp_apply, mirror, reflect_ends (hM x hx), reflect_ends (hM y hy), OrderDual.toDual_le_toDual]
    omega

end Mirror

/-- `nearest_following` is the mirror image of `nearest_preceding`: on the reflected and reversed candidates the one
    returns the reflection of the candidate, at its very position, that the other returns, or both return none. -/
theorem nearestFollowing_mirror (M anchor : UInt64) (candidates : List TraceEvent) (pred : TraceEvent → Bool)
    (ha : anchor ≤ M) (hM : ∀ e ∈ candidates, e.timestampNs ≤ M)
    (hpred : ∀ (e : TraceEvent) t, pred { e with timestampNs := t } = pred e) :
    (nearestFollowing candidates anchor pred = none ↔
      nearestPreceding (candidates.map (TraceEvent.reflect M)).reverse (M - anchor) pred = none) ∧
    precedingAt (candidates.map (TraceEvent.reflect M)).reverse (M - anchor) pred =
      (followingAt candidates anchor pred).map (fun s => (s.1.reflect M, candidates.length - 1 - s.2)) ∧
    (∀ s, followingAt candidates anchor pred = some s → candidates[s.2]? = some s.1) ∧
    nearestFollowing candidates anchor pred = (followingAt candidates anchor pred).map (·.1) ∧
    nearestPreceding (candidates.map (TraceEvent.reflect M)).reverse (M - anchor) pred =
      (precedingAt (candidates.map (TraceEvent.reflect M)).reverse (M - anchor) pred).map (·.1) := by
  have hM' : ∀ s ∈ candidates.zipIdx.reverse, s.1.timestampNs ≤ M := by
    intro s hs
    exact hM s.1 (List.fst_mem_of_mem_zipIdx (List.mem_reverse.mp hs))
  have hmirror : precedingAt (candidates.map (TraceEvent.reflect M)).reverse (M - anchor) pred =
      (followingAt candidates anchor pred).map (mirror M candidates.length) := by
    ext s
    rw [precedingAt_eq_some_iff, zipIdx_reverse_map_reflect, isLastMax_map, Option.map_eq_some_iff]
    refine exists_congr ?_
    intro s'
    rw [mirror_isLastMax_iff ha hM' hpred, followingAt_eq_some_iff, isFirstMin_iff_isLastMax, and_comm, eq_comm]
  refine ⟨?_, hmirror, fun s => getElem?_of_followingAt, (map_fst_followingAt _ _ _).symm,
    (map_fst_precedingAt _ _ _).symm⟩
  rw [← map_fst_followingAt, ← map_fst_precedingAt, hmirror]
  simp only [Option.map_eq_none_iff]

/-- Two waits of one thread that end at the same time, and one that ends later. -/
def tiedWaits : List TraceEvent :=
  [⟨100, 10, 0x1000, 7, 8, eventFutexWait, ""⟩, ⟨100, 20, 0x2000, 7, 8, eventFutexWait, ""⟩,
    ⟨120, 5, 0x1000, 7, 8, eventFutexWait, ""⟩]

theorem nearestFollowing_mirror_tiedWaits : followingAt tiedWaits 100 (·.tid == 8) =
      some (⟨100, 10, 0x1000, 7, 8, eventFutexWait, ""⟩, 0) ∧
    precedingAt (tiedWaits.map (TraceEvent.reflect 120)).reverse 20 (·.tid == 8) =
      some (⟨20, 10, 0x1000, 7, 8, eventFutexWait, ""⟩, 2) := by
  have hfollowing : followingAt tiedWaits 100 (·.tid == 8) =
      some (⟨100, 10, 0x1000, 7, 8, eventFutexWait, ""⟩, 0) := by decide
  have hmirror := (nearestFollowing_mirror 120 100 tiedWaits (·.tid == 8) (by decide) (by decide)
    (fun _ _ => rfl)).2.1
  rw [hfollowing] at hmirror
  exact ⟨hfollowing, hmirror⟩

end Whyslow
