import Whyslow.Theorems.Transport

/-! Chains are local in time. Every hop looks back by at most one window, from a wake by the length of its call more, so
    eight wakes reach back fifteen windows and seven calls; and nothing after the window that follows the resume is
    looked at. -/

namespace Whyslow
open Extremum

/-- `e` is of a type the lookups search, and in reach of a stall that ends at `r` when no wake is longer than `D`. -/
def InReach (D r : Nat) (e : TraceEvent) : Prop :=
  (e.eventType = eventFutexWait ∨ e.eventType = eventFutexWake ∨ e.eventType = eventBlockIo) ∧
    r ≤ e.ends + (15 * window + 7 * D) ∧ e.ends ≤ r + window

instance (D r : Nat) (e : TraceEvent) : Decidable (InReach D r e) := inferInstanceAs (Decidable (_ ∧ _ ∧ _))

/-- What is left of the trace `pre ++ b :: post` around its stall `b`. -/
def around (D : Nat) (pre : List TraceEvent) (b : TraceEvent) (post : List TraceEvent) : List TraceEvent :=
  pre.filter (InReach D b.ends ·) ++ b :: post.filter (InReach D b.ends ·)

section Around
variable {D : Nat} {pre post : List TraceEvent} {b x : TraceEvent} {p : TraceEvent → Prop}

theorem filter_around : (around D pre b post).filter (InReach D b.ends ·) =
    (pre ++ b :: post).filter (InReach D b.ends ·) := by
  simp [around, List.filter_append, List.filter_cons]

theorem mem_around (h : InReach D b.ends x) : x ∈ around D pre b post ↔ x ∈ pre ++ b :: post := by
  have hx : decide (InReach D b.ends x) = true := decide_eq_true h
  have hmem : x ∈ (around D pre b post).filter (InReach D b.ends ·) ↔
      x ∈ (pre ++ b :: post).filter (InReach D b.ends ·) := by
    rw [filter_around]
  simpa only [List.mem_filter, hx, and_true] using hmem

theorem isLastMax_around (hp : ∀ y, p y → InReach D b.ends y) :
    IsLastMax TraceEvent.ends p (around D pre b post) x ↔ IsLastMax TraceEvent.ends p (pre ++ b :: post) x := by
  rw [← isLastMax_filter fun y _ hy => decide_eq_true (hp y hy), filter_around]
  exact isLastMax_filter fun y _ hy => decide_eq_true (hp y hy)

theorem isFirstMin_around (hp : ∀ y, p y → InReach D b.ends y) :
    IsFirstMin TraceEvent.ends p (around D pre b post) x ↔ IsFirstMin TraceEvent.ends p (pre ++ b :: post) x := by
  rw [← isFirstMin_filter fun y _ hy => decide_eq_true (hp y hy), filter_around]
  exact isFirstMin_filter fun y _ hy => decide_eq_true (hp y hy)

theorem forall_around {q : TraceEvent → Prop} (hp : ∀ y, p y → InReach D b.ends y) :
    (∀ y ∈ around D pre b post, p y → q y) ↔ ∀ y ∈ pre ++ b :: post, p y → q y :=
  forall_congr' fun y => ⟨fun h hy hpy => h ((mem_around (hp y hpy)).mpr hy) hpy,
    fun h hy hpy => h ((mem_around (hp y hpy)).mp hy) hpy⟩

end Around

/-! ### How far back a path may be -/

/-- What `wakes` hops to a wake and back to a wait can go back. -/
def reach (D wakes : Nat) : Nat := wakes * (2 * window + D)

theorem reach_succ (D wakes : Nat) : reach D (wakes + 1) = reach D wakes + (2 * window + D) := Nat.succ_mul _ _

theorem reach_le (D : Nat) {wakes : Nat} (h : wakes ≤ 7) : reach D wakes ≤ 14 * window + 7 * D := by
  have := Nat.mul_le_mul_right (2 * window + D) h
  unfold reach
  omega

/-- Where a path that started at `r` may be after `wakes` wakes. -/
structure Reached (D r wakes : Nat) (e : TraceEvent) : Prop where
  late : e.ends ≤ r + window
  wait : e.eventType = eventFutexWait → wakes ≤ 7 ∧ r ≤ e.ends + reach D wakes
  wake : e.eventType = eventFutexWake → e.durationNs.toNat ≤ D ∧ r + window + D ≤ e.ends + reach D wakes

section Reached
variable {D r wakes : Nat} {e x : TraceEvent}

theorem Reached.inReach_wake {key : UInt64} (h : Reached D r wakes e) (he : e.eventType = eventFutexWait)
    (hx : Candidate eventFutexWake (·.key = key) (Before e.ends) x) : InReach D r x := by
  obtain ⟨hxt, -, hbefore, hafter⟩ := hx
  have hreach := reach_le D (h.wait he).1
  have := (h.wait he).2
  exact ⟨Or.inr (Or.inl hxt), by omega, hbefore.trans h.late⟩

theorem Reached.inReach_prior (h : Reached D r wakes e) (he : e.eventType = eventFutexWake) (hw : wakes < maxChainDepth)
    (hx : Before e.starts x.ends) : r ≤ x.ends + (15 * window + 7 * D) ∧ x.ends ≤ r + window := by
  obtain ⟨hbefore, hafter⟩ := hx
  have hreach := reach_le D (Nat.le_of_lt_succ hw)
  obtain ⟨hdur, hback⟩ := h.wake he
  have hspan : e.starts = e.ends - e.durationNs.toNat := rfl
  have hlate := h.late
  refine ⟨?_, ?_⟩ <;> omega

end Reached

/-! ### The chain around a stall -/

section Local
variable {D : Nat} {pre post : List TraceEvent} {b x : TraceEvent}

theorem resumeEvent_around : ResumeEvent (around D pre b post) b x ↔ ResumeEvent (pre ++ b :: post) b x := by
  have hwait : ∀ y, WaitOf b.tid (After b.ends) y → InReach D b.ends y := by
    rintro y ⟨hyt, -, hafter, hwin⟩
    exact ⟨Or.inl hyt, by omega, hwin⟩
  have hio : ∀ y, IoOf b.tid (Before b.ends) y → InReach D b.ends y := by
    rintro y ⟨hyt, -, hbefore, hwin⟩
    exact ⟨Or.inr (Or.inr hyt), by omega, by omega⟩
  simp only [ResumeEvent, IsResumeFutex, IsResumeBlockIo, isFirstMin_around hwait, isLastMax_around hio,
    forall_around hwait, forall_around hio]

theorem hop_around {wakes : Nat} {e : TraceEvent} (h : Reached D b.ends wakes e) :
    Hop (around D pre b post) wakes e x ↔ Hop (pre ++ b :: post) wakes e x := by
  refine or_congr ?_ ?_
  · refine and_congr_right ?_
    intro he
    exact isLastMax_around fun y hy => h.inReach_wake he hy
  · refine and_congr_right fun he => and_congr_right fun hw => ?_
    have hwait : ∀ y, WaitOf e.tid (Before e.starts) y → InReach D b.ends y := fun y hy =>
      ⟨Or.inl hy.1, h.inReach_prior he hw hy.2.2⟩
    have hio : ∀ y, IoOf e.tid (Before e.starts) y → InReach D b.ends y := fun y hy =>
      ⟨Or.inr (Or.inr hy.1), h.inReach_prior he hw hy.2.2⟩
    simp only [IsPriorFutex, IsPriorBlockIo, isLastMax_around hwait, isLastMax_around hio, forall_around hwait,
      forall_around hio]

theorem Reached.start {events : List TraceEvent} (h : ResumeEvent events b x) : Reached D b.ends 0 x := by
  rcases h with h | h
  · obtain ⟨hxt, -, hafter, hwin⟩ := h.1.prop
    refine ⟨hwin, fun _ => ⟨by omega, by omega⟩, fun ht => ?_⟩
    exact absurd (hxt.symm.trans ht) (by decide)
  · obtain ⟨hxt, -, hbefore, -⟩ := h.1.prop
    refine ⟨by omega, fun ht => ?_, fun ht => ?_⟩
    · exact absurd (hxt.symm.trans ht) (by decide)
    · exact absurd (hxt.symm.trans ht) (by decide)

theorem Reached.next {events : List TraceEvent}
    (hD : ∀ e ∈ events, e.eventType = eventFutexWake → e.durationNs.toNat ≤ D) {r wakes : Nat} {e e' : TraceEvent}
    (h : Reached D r wakes e) (hop : Hop events wakes e e') : Reached D r (countWake wakes e') e' := by
  rcases hop with ⟨he, hu⟩ | ⟨he, hw, hp⟩
  · obtain ⟨hut, -, hbefore, hwin⟩ := IsLastMax.prop hu
    have hcount : countWake wakes e' = wakes + 1 := if_pos hut
    rw [hcount]
    refine ⟨hbefore.trans h.late, fun ht => ?_, fun _ => ⟨hD e' (IsLastMax.mem hu) hut, ?_⟩⟩
    · exact absurd (ht.symm.trans hut) (by decide)
    · have := (h.wait he).2
      rw [reach_succ]
      omega
  · have hback := h.wake he
    have hspan : e.starts = e.ends - e.durationNs.toNat := rfl
    have hlate := h.late
    rcases hp with hp | hp
    · obtain ⟨hwt, -, hbefore, hwin⟩ := hp.1.prop
      have hcount : countWake wakes e' = wakes := if_neg (by rw [hwt]; decide)
      rw [hcount]
      refine ⟨by omega, fun _ => ⟨Nat.le_of_lt_succ hw, by omega⟩, fun ht => ?_⟩
      exact absurd (hwt.symm.trans ht) (by decide)
    · obtain ⟨hit, -, hbefore, -⟩ := hp.1.prop
      refine ⟨by omega, fun ht => ?_, fun ht => ?_⟩
      · exact absurd (hit.symm.trans ht) (by decide)
      · exact absurd (hit.symm.trans ht) (by decide)

end Local

theorem lines_around (host : Host) (trace : TraceFile) (names : DevNames) {D : Nat}
    (hD : ∀ e ∈ trace.events, e.eventType = eventFutexWake → e.durationNs.toNat ≤ D) {pre post : List TraceEvent}
    {b : TraceEvent} (hb : trace.events = pre ++ b :: post) :
    (explainOneStall host b trace (Typed.partition trace.events) names).1.lines =
      (explainOneStall host b { trace with events := around D pre b post }
        (Typed.partition (around D pre b post)) names).1.lines := by
  have hcarries : Carries id (Reached D b.ends) trace.events (around D pre b post) b := by
    rw [hb] at hD ⊢
    exact
      { type := fun _ => rfl
        resume := fun x => by simp [resumeEvent_around]
        start := fun e he => Reached.start he
        hop := fun wakes e he x => by simp [hop_around he]
        next := fun wakes e e' he hop => he.next hD hop }
  obtain ⟨path, hpath, -, -, hlines⟩ := exists_stallPath host trace b names
  obtain ⟨path', hpath', -, -, hlines'⟩ := exists_stallPath host { trace with events := around D pre b post } b names
  have hsame := hcarries.stallPath hpath
  rw [List.map_id] at hsame
  rw [hlines, hsame.unique hpath']
  exact hlines'.symm

/-- `e` is of a type the lookups search, and not after the window that follows `r`. -/
def Earlier (r : Nat) (e : TraceEvent) : Prop :=
  (e.eventType = eventFutexWait ∨ e.eventType = eventFutexWake ∨ e.eventType = eventBlockIo) ∧ e.ends ≤ r + window

instance (r : Nat) (e : TraceEvent) : Decidable (Earlier r e) := inferInstanceAs (Decidable (_ ∧ _))

/-- With a bound that every wake keeps, only the end of the range matters. -/
theorem inReach_iff_earlier {b e : TraceEvent} : InReach (2 ^ 64) b.ends e ↔ Earlier b.ends e := by
  have hb : b.ends < 2 ^ 64 := UInt64.toNat_lt _
  refine ⟨fun h => ⟨h.1, h.2.2⟩, fun h => ⟨h.1, by omega, h.2⟩⟩

/-- The chain of a stall is the same when the trace is cut down to what is around it: no event outside of
    `[r - 15 W - 7 D, r + W]`, no other stall and no event of another type. Whatever the lengths of the wakes, no
    other stall and no event after `r + W` changes it. -/
theorem explainOneStall_local (host : Host) (trace : TraceFile) (names : DevNames) (D : Nat)
    (hD : ∀ e ∈ trace.events, e.eventType = eventFutexWake → e.durationNs.toNat ≤ D) {pre post : List TraceEvent}
    {b : TraceEvent} (hb : trace.events = pre ++ b :: post) :
    (explainOneStall host b trace (Typed.partition trace.events) names).1.lines =
      (explainOneStall host b { trace with events := around D pre b post }
        (Typed.partition (around D pre b post)) names).1.lines ∧
    ∀ pre' post', pre'.filter (Earlier b.ends ·) = pre.filter (Earlier b.ends ·) →
      post'.filter (Earlier b.ends ·) = post.filter (Earlier b.ends ·) →
      (explainOneStall host b { trace with events := pre' ++ b :: post' }
        (Typed.partition (pre' ++ b :: post')) names).1.lines =
        (explainOneStall host b trace (Typed.partition trace.events) names).1.lines := by
  refine ⟨lines_around host trace names hD hb, ?_⟩
  intro pre' post' hpre hpost
  have hbound : ∀ e : TraceEvent, e.durationNs.toNat ≤ 2 ^ 64 := fun e => (UInt64.toNat_lt _).le
  have haround : around (2 ^ 64) pre' b post' = around (2 ^ 64) pre b post := by
    simp only [around, inReach_iff_earlier, hpre, hpost]
  rw [lines_around host trace names (fun e _ _ => hbound e) hb, ← haround]
  exact lines_around host { trace with events := pre' ++ b :: post' } names (fun e _ _ => hbound e) rfl

def lockedStall : TraceEvent := ⟨100000000, 900, 0, 7, 8, eventSchedBlock, ""⟩

def lockedBefore : List TraceEvent :=
  [⟨1000, 10, packBlockKey 8388608 32, 7, 9, eventBlockIo, ""⟩,
    ⟨99997000, 500, packBlockKey 8388608 64, 7, 9, eventBlockIo, ""⟩]

def lockedAfter : List TraceEvent :=
  [⟨100000050, 2000, 0x1000, 7, 9, eventFutexWake, ""⟩, ⟨100000100, 1200, 0x1000, 7, 8, eventFutexWait, ""⟩,
    ⟨9000000000, 1000, 0, 7, 8, eventSchedBlock, ""⟩]

/-- Thread 8 stalls in a wait that thread 9 ends after its read; long before them is another read of thread 9, long
    after them another stall. -/
def lockedTrace : TraceFile := ⟨0, 0, lockedBefore ++ lockedStall :: lockedAfter⟩

theorem explainOneStall_local_lockedTrace :
    (∀ e ∈ lockedTrace.events, e.eventType = eventFutexWake → e.durationNs.toNat ≤ 2000) ∧
    around 2000 lockedBefore lockedStall lockedAfter = lockedBefore.tail ++ lockedStall :: lockedAfter.dropLast ∧
    (explainOneStall sdaHost lockedStall lockedTrace (Typed.partition lockedTrace.events) .new).1.lines =
      [.blockedOnFutex 99999100 8 900 0x1000, .wokenBy 9, .priorBlockIo 9 500 "sda" 64] ∧
    (explainOneStall sdaHost lockedStall
      { lockedTrace with events := lockedBefore.tail ++ lockedStall :: lockedAfter.dropLast }
      (Typed.partition (lockedBefore.tail ++ lockedStall :: lockedAfter.dropLast)) .new).1.lines =
      [.blockedOnFutex 99999100 8 900 0x1000, .wokenBy 9, .priorBlockIo 9 500 "sda" 64] ∧
    (explainOneStall sdaHost lockedStall
      { lockedTrace with events := lockedBefore ++ lockedStall :: lockedAfter.dropLast }
      (Typed.partition (lockedBefore ++ lockedStall :: lockedAfter.dropLast)) .new).1.lines =
      [.blockedOnFutex 99999100 8 900 0x1000, .wokenBy 9, .priorBlockIo 9 500 "sda" 64] := by
  have hD : ∀ e ∈ lockedTrace.events, e.eventType = eventFutexWake → e.durationNs.toNat ≤ 2000 := by decide
  have haround : around 2000 lockedBefore lockedStall lockedAfter =
      lockedBefore.tail ++ lockedStall :: lockedAfter.dropLast := by decide
  have hlines : (explainOneStall sdaHost lockedStall lockedTrace (Typed.partition lockedTrace.events) .new).1.lines =
      [.blockedOnFutex 99999100 8 900 0x1000, .wokenBy 9, .priorBlockIo 9 500 "sda" 64] := by decide +kernel
  obtain ⟨hcut, hlater⟩ := explainOneStall_local sdaHost lockedTrace .new 2000 hD (b := lockedStall) rfl
  rw [haround, hlines] at hcut
  refine ⟨hD, haround, hlines, hcut.symm, ?_⟩
  rw [hlater lockedBefore lockedAfter.dropLast rfl (by decide), hlines]

end Whyslow
