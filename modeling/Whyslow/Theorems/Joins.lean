import Whyslow.Causal

/-! The joins of the causal inference, by position in the trace. Each lookup is an extremal element of
    the whole trace among the events of one type, one thread or address, and one window; the partition
    into typed lists and the word arithmetic of the windows do not show any more. -/

namespace Whyslow
open Extremum

/-! ### Windows -/

def TraceEvent.ends (e : TraceEvent) : Nat := e.timestampNs.toNat

/-- The start of the span an event describes, or zero for a span longer than its end. -/
def TraceEvent.starts (e : TraceEvent) : Nat := e.timestampNs.toNat - e.durationNs.toNat

def window : Nat := 5000000

def Before (anchor t : Nat) : Prop := t ≤ anchor ∧ anchor ≤ t + window

def After (anchor t : Nat) : Prop := anchor ≤ t ∧ t ≤ anchor + window

theorem before_iff {anchor t : UInt64} :
    (decide (t ≤ anchor) && decide (anchor - t ≤ matchWindowNs)) = true ↔ Before anchor.toNat t.toNat := by
  rw [Bool.and_eq_true, decide_eq_true_eq, decide_eq_true_eq, UInt64.le_iff_toNat_le]
  refine and_congr_right ?_
  intro hle
  have hwin : matchWindowNs.toNat = window := rfl
  rw [UInt64.le_iff_toNat_le, UInt64.toNat_sub_of_le _ _ (UInt64.le_iff_toNat_le.mpr hle), hwin]
  omega

theorem after_iff {anchor t : UInt64} :
    (decide (t ≥ anchor) && decide (t - anchor ≤ matchWindowNs)) = true ↔ After anchor.toNat t.toNat := by
  rw [Bool.and_eq_true, decide_eq_true_eq, decide_eq_true_eq, ge_iff_le, UInt64.le_iff_toNat_le]
  refine and_congr_right ?_
  intro hle
  have hwin : matchWindowNs.toNat = window := rfl
  rw [UInt64.le_iff_toNat_le, UInt64.toNat_sub_of_le _ _ (UInt64.le_iff_toNat_le.mpr hle), hwin]
  omega

/-! ### The partition -/

theorem foldl_push (t : Typed) (events : List TraceEvent) : events.foldl Typed.push t =
    { block := t.block ++ events.filter (·.eventType = eventSchedBlock)
      futexWait := t.futexWait ++ events.filter (·.eventType = eventFutexWait)
      futexWake := t.futexWake ++ events.filter (·.eventType = eventFutexWake)
      blockIo := t.blockIo ++ events.filter (·.eventType = eventBlockIo) } := by
  induction events generalizing t with
  | nil => simp
  | cons e events ih =>
    rw [List.foldl_cons, ih]
    unfold Typed.push
    split
    · rename_i h
      simp [h, eventSchedBlock, eventFutexWait, eventFutexWake, eventBlockIo]
    split
    · rename_i h
      simp [h, eventSchedBlock, eventFutexWait, eventFutexWake, eventBlockIo]
    split
    · rename_i h
      simp [h, eventSchedBlock, eventFutexWait, eventFutexWake, eventBlockIo]
    split
    · rename_i h
      simp [h, eventSchedBlock, eventFutexWait, eventFutexWake, eventBlockIo]
    · rename_i h₀ h₁ h₂ h₃
      simp [h₀, h₁, h₂, h₃]

theorem partition_eq (events : List TraceEvent) : Typed.partition events =
    { block := events.filter (·.eventType = eventSchedBlock)
      futexWait := events.filter (·.eventType = eventFutexWait)
      futexWake := events.filter (·.eventType = eventFutexWake)
      blockIo := events.filter (·.eventType = eventBlockIo) } := by
  unfold Typed.partition
  rw [foldl_push]
  simp

/-! ### Lookups -/

/-- A candidate of a lookup: an event of the type, with the property, whose end is in the window. -/
def Candidate (type : UInt8) (p : TraceEvent → Prop) (win : Nat → Prop) (e : TraceEvent) : Prop :=
  e.eventType = type ∧ p e ∧ win e.ends

def IsLatest (events : List TraceEvent) (type : UInt8) (p : TraceEvent → Prop) (win : Nat → Prop) :
    TraceEvent → Prop :=
  IsLastMax TraceEvent.ends (Candidate type p win) events

def IsEarliest (events : List TraceEvent) (type : UInt8) (p : TraceEvent → Prop) (win : Nat → Prop) :
    TraceEvent → Prop :=
  IsFirstMin TraceEvent.ends (Candidate type p win) events

section Lookups
variable {events : List TraceEvent} {type : UInt8} {pred : TraceEvent → Bool} {p : TraceEvent → Prop}
  {anchor : UInt64} {e : TraceEvent}

theorem preceding_candidate (hp : ∀ x, pred x = true ↔ p x) (x : TraceEvent) :
    ((pred x && decide (x.timestampNs ≤ anchor) && decide (anchor - x.timestampNs ≤ matchWindowNs)) &&
      decide (x.eventType = type)) = true ↔ Candidate type p (Before anchor.toNat) x := by
  rw [Bool.and_assoc (pred x), Bool.and_eq_true, Bool.and_eq_true, before_iff, decide_eq_true_eq, hp]
  exact ⟨fun h => ⟨h.2, h.1⟩, fun h => ⟨h.2, h.1⟩⟩

theorem following_candidate (hp : ∀ x, pred x = true ↔ p x) (x : TraceEvent) :
    ((pred x && decide (x.timestampNs ≥ anchor) && decide (x.timestampNs - anchor ≤ matchWindowNs)) &&
      decide (x.eventType = type)) = true ↔ Candidate type p (After anchor.toNat) x := by
  rw [Bool.and_assoc (pred x), Bool.and_eq_true, Bool.and_eq_true, after_iff, decide_eq_true_eq, hp]
  exact ⟨fun h => ⟨h.2, h.1⟩, fun h => ⟨h.2, h.1⟩⟩

theorem nearestPreceding_eq_some_iff (hp : ∀ x, pred x = true ↔ p x) :
    nearestPreceding (events.filter (·.eventType = type)) anchor pred = some e ↔
      IsLatest events type p (Before anchor.toNat) e := by
  unfold nearestPreceding IsLatest
  rw [List.filter_filter, maxByKey_filter_eq_some_iff]
  simp only [preceding_candidate hp]
  rfl

theorem nearestPreceding_eq_none_iff (hp : ∀ x, pred x = true ↔ p x) :
    nearestPreceding (events.filter (·.eventType = type)) anchor pred = none ↔
      ∀ x ∈ events, ¬Candidate type p (Before anchor.toNat) x := by
  unfold nearestPreceding
  rw [List.filter_filter, maxByKey_filter_eq_none_iff]
  simp only [preceding_candidate hp]

theorem nearestFollowing_eq_some_iff (hp : ∀ x, pred x = true ↔ p x) :
    nearestFollowing (events.filter (·.eventType = type)) anchor pred = some e ↔
      IsEarliest events type p (After anchor.toNat) e := by
  unfold nearestFollowing IsEarliest
  rw [List.filter_filter, minByKey_filter_eq_some_iff]
  simp only [following_candidate hp]
  rfl

theorem nearestFollowing_eq_none_iff (hp : ∀ x, pred x = true ↔ p x) :
    nearestFollowing (events.filter (·.eventType = type)) anchor pred = none ↔
      ∀ x ∈ events, ¬Candidate type p (After anchor.toNat) x := by
  unfold nearestFollowing
  rw [List.filter_filter, minByKey_filter_eq_none_iff]
  simp only [following_candidate hp]

theorem nearestFollowing_eq_some_of_lt (hp : ∀ x, pred x = true ↔ p x) (he : e ∈ events)
    (hc : Candidate type p (After anchor.toNat) e)
    (h : ∀ x ∈ events, Candidate type p (After anchor.toNat) x → x = e ∨ e.ends < x.ends) :
    nearestFollowing (events.filter (·.eventType = type)) anchor pred = some e := by
  unfold nearestFollowing
  rw [List.filter_filter]
  refine minByKey_filter_eq_some_of_lt he ((following_candidate hp e).mpr hc) ?_
  intro x hx hcx
  exact h x hx ((following_candidate hp x).mp hcx)

end Lookups

/-! ### Classifiers -/

section Classifiers
variable {events : List TraceEvent} {tid : UInt32} {anchor : UInt64} {e : TraceEvent}

def WaitOf (tid : UInt32) (win : Nat → Prop) : TraceEvent → Prop := Candidate eventFutexWait (·.tid = tid) win

def IoOf (tid : UInt32) (win : Nat → Prop) : TraceEvent → Prop := Candidate eventBlockIo (·.tid = tid) win

/-- The latest wait of `tid` before `anchor`, no earlier than any request. -/
def IsPriorFutex (events : List TraceEvent) (tid : UInt32) (anchor : Nat) (e : TraceEvent) : Prop :=
  IsLastMax TraceEvent.ends (WaitOf tid (Before anchor)) events e ∧
    ∀ x ∈ events, IoOf tid (Before anchor) x → x.ends ≤ e.ends

/-- The latest request of `tid` before `anchor`, later than any wait. -/
def IsPriorBlockIo (events : List TraceEvent) (tid : UInt32) (anchor : Nat) (e : TraceEvent) : Prop :=
  IsLastMax TraceEvent.ends (IoOf tid (Before anchor)) events e ∧
    ∀ x ∈ events, WaitOf tid (Before anchor) x → x.ends < e.ends

def NoPrior (events : List TraceEvent) (tid : UInt32) (anchor : Nat) : Prop :=
  ∀ x ∈ events, ¬WaitOf tid (Before anchor) x ∧ ¬IoOf tid (Before anchor) x

theorem beq_tid (tid : UInt32) (x : TraceEvent) : (x.tid == tid) = true ↔ x.tid = tid := beq_iff_eq

theorem classifyPriorCause_spec (events : List TraceEvent) (tid : UInt32) (anchor : UInt64) :
    match classifyPriorCause tid anchor (Typed.partition events) with
    | .futex f => IsPriorFutex events tid anchor.toNat f
    | .blockIo i => IsPriorBlockIo events tid anchor.toNat i
    | .unknown => NoPrior events tid anchor.toNat := by
  unfold classifyPriorCause
  rw [partition_eq]
  dsimp only
  cases hf : nearestPreceding (events.filter (·.eventType = eventFutexWait)) anchor fun x => x.tid == tid with
  | none =>
    have hnof := (nearestPreceding_eq_none_iff (beq_tid tid)).mp hf
    cases hi : nearestPreceding (events.filter (·.eventType = eventBlockIo)) anchor fun x => x.tid == tid with
    | none =>
      have hnoi := (nearestPreceding_eq_none_iff (beq_tid tid)).mp hi
      exact fun x hx => ⟨hnof x hx, hnoi x hx⟩
    | some i =>
      have hmax := (nearestPreceding_eq_some_iff (beq_tid tid)).mp hi
      exact ⟨hmax, fun x hx hc => absurd hc (hnof x hx)⟩
  | some f =>
    have hfmax := (nearestPreceding_eq_some_iff (beq_tid tid)).mp hf
    cases hi : nearestPreceding (events.filter (·.eventType = eventBlockIo)) anchor fun x => x.tid == tid with
    | none =>
      have hnoi := (nearestPreceding_eq_none_iff (beq_tid tid)).mp hi
      exact ⟨hfmax, fun x hx hc => absurd hc (hnoi x hx)⟩
    | some i =>
      have himax := (nearestPreceding_eq_some_iff (beq_tid tid)).mp hi
      dsimp only
      by_cases hle : f.timestampNs ≥ i.timestampNs
      · rw [if_pos hle]
        have hle' : i.ends ≤ f.ends := UInt64.le_iff_toNat_le.mp hle
        exact ⟨hfmax, fun x hx hc => (himax.le hx hc).trans hle'⟩
      · rw [if_neg hle]
        have hlt : f.ends < i.ends := not_le.mp fun h => hle (UInt64.le_iff_toNat_le.mpr h)
        exact ⟨himax, fun x hx hc => (hfmax.le hx hc).trans_lt hlt⟩

/-- The earliest wait of `tid` after the resume, at most as far from it as any request before it. -/
def IsResumeFutex (events : List TraceEvent) (tid : UInt32) (resume : Nat) (e : TraceEvent) : Prop :=
  IsFirstMin TraceEvent.ends (WaitOf tid (After resume)) events e ∧
    ∀ x ∈ events, IoOf tid (Before resume) x → e.ends - resume ≤ resume - x.ends

/-- The latest request of `tid` before the resume, closer to it than any wait after it. -/
def IsResumeBlockIo (events : List TraceEvent) (tid : UInt32) (resume : Nat) (e : TraceEvent) : Prop :=
  IsLastMax TraceEvent.ends (IoOf tid (Before resume)) events e ∧
    ∀ x ∈ events, WaitOf tid (After resume) x → resume - e.ends < x.ends - resume

def NoResume (events : List TraceEvent) (tid : UInt32) (resume : Nat) : Prop :=
  ∀ x ∈ events, ¬WaitOf tid (After resume) x ∧ ¬IoOf tid (Before resume) x

theorem classifyResumeCause_spec (events : List TraceEvent) (tid : UInt32) (resume : UInt64) :
    match classifyResumeCause tid resume (Typed.partition events) with
    | .futex f => IsResumeFutex events tid resume.toNat f
    | .blockIo i => IsResumeBlockIo events tid resume.toNat i
    | .unknown => NoResume events tid resume.toNat := by
  unfold classifyResumeCause
  rw [partition_eq]
  dsimp only
  cases hf : nearestFollowing (events.filter (·.eventType = eventFutexWait)) resume fun x => x.tid == tid with
  | none =>
    have hnof := (nearestFollowing_eq_none_iff (beq_tid tid)).mp hf
    cases hi : nearestPreceding (events.filter (·.eventType = eventBlockIo)) resume fun x => x.tid == tid with
    | none =>
      have hnoi := (nearestPreceding_eq_none_iff (beq_tid tid)).mp hi
      exact fun x hx => ⟨hnof x hx, hnoi x hx⟩
    | some i =>
      have hmax := (nearestPreceding_eq_some_iff (beq_tid tid)).mp hi
      exact ⟨hmax, fun x hx hc => absurd hc (hnof x hx)⟩
  | some f =>
    have hmin := (nearestFollowing_eq_some_iff (beq_tid tid)).mp hf
    cases hi : nearestPreceding (events.filter (·.eventType = eventBlockIo)) resume fun x => x.tid == tid with
    | none =>
      have hnoi := (nearestPreceding_eq_none_iff (beq_tid tid)).mp hi
      exact ⟨hmin, fun x hx hc => absurd hc (hnoi x hx)⟩
    | some i =>
      have hmax := (nearestPreceding_eq_some_iff (beq_tid tid)).mp hi
      dsimp only
      by_cases hle : Words.saturatingSub f.timestampNs resume ≤ Words.saturatingSub resume i.timestampNs
      · rw [if_pos hle]
        have hle' : f.ends - resume.toNat ≤ resume.toNat - i.ends := by
          rw [UInt64.le_iff_toNat_le, Words.saturatingSub_toNat, Words.saturatingSub_toNat] at hle
          exact hle
        refine ⟨hmin, fun x hx hc => hle'.trans ?_⟩
        exact Nat.sub_le_sub_left (hmax.le hx hc) _
      · rw [if_neg hle]
        have hlt : resume.toNat - i.ends < f.ends - resume.toNat := by
          rw [UInt64.le_iff_toNat_le, Words.saturatingSub_toNat, Words.saturatingSub_toNat, not_le] at hle
          exact hle
        refine ⟨hmax, fun x hx hc => hlt.trans_le ?_⟩
        exact Nat.sub_le_sub_right (hmin.le hx hc) _

end Classifiers

end Whyslow
