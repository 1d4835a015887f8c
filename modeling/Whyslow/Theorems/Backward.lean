import Whyslow.Theorems.Explain

/-! Chains go back in time. No hop leads to an event that ends later than the one it leaves, and where every wake
    takes some time a hop from a wake leads to an earlier one. So no event is visited twice, and the walk stops of
    itself: with as many hops as there are wakes in the trace, more of them change nothing. -/

namespace Whyslow
open Extremum

/-- Every wake of the trace takes some time, and not more than there was. -/
def WakesTakeTime (events : List TraceEvent) : Prop :=
  ∀ e ∈ events, e.eventType = eventFutexWake → 0 < e.durationNs ∧ e.durationNs ≤ e.timestampNs

theorem WakesTakeTime.starts_lt {events : List TraceEvent} (h : WakesTakeTime events) {u : TraceEvent}
    (hu : u ∈ events) (hut : u.eventType = eventFutexWake) : u.starts < u.ends := by
  obtain ⟨hpos, hle⟩ := h u hu hut
  have hpos' : 0 < u.durationNs.toNat := by simpa using UInt64.lt_iff_toNat_lt.mp hpos
  have hle' := UInt64.le_iff_toNat_le.mp hle
  unfold TraceEvent.starts TraceEvent.ends
  omega

/-- What every hop of a walk lowers: the end, and at equal ends a wait is above its waker. -/
def TraceEvent.rank (e : TraceEvent) : Nat := 2 * e.ends + if e.eventType = eventFutexWait then 1 else 0

theorem rank_wait {e : TraceEvent} (h : e.eventType = eventFutexWait) : e.rank = 2 * e.ends + 1 := by
  simp [TraceEvent.rank, h]

theorem rank_wake {e : TraceEvent} (h : e.eventType = eventFutexWake) : e.rank = 2 * e.ends := by
  have hne : e.eventType ≠ eventFutexWait := by rw [h]; decide
  simp [TraceEvent.rank, hne]

theorem rank_le (e : TraceEvent) : e.rank ≤ 2 * e.ends + 1 := by
  unfold TraceEvent.rank
  split <;> omega

section Hops
variable {events : List TraceEvent} {wakes : Nat} {e e' : TraceEvent}

theorem Hop.ends_le_starts (h : Hop events wakes e e') (he : e.eventType = eventFutexWake) : e'.ends ≤ e.starts := by
  rcases h with ⟨ht, -⟩ | ⟨-, -, h | h⟩
  · exact absurd (he.symm.trans ht) (by decide)
  · exact h.1.prop.2.2.1
  · exact h.1.prop.2.2.1

theorem Hop.ends_le (h : Hop events wakes e e') : e'.ends ≤ e.ends := by
  have hstart : e.starts ≤ e.ends := Nat.sub_le _ _
  have hback := h.ends_le_starts
  rcases h with ⟨-, hu⟩ | ⟨ht, -⟩
  · exact (IsLastMax.prop hu).2.2.1
  · exact (hback ht).trans hstart

theorem Hop.rank_lt (hw : WakesTakeTime events) (he : e ∈ events) (h : Hop events wakes e e') : e'.rank < e.rank := by
  have hback := h.ends_le_starts
  have hle := h.ends_le
  rcases h with ⟨ht, hu⟩ | ⟨ht, -⟩
  · rw [rank_wait ht, rank_wake (IsLastMax.prop hu).1]
    omega
  · have hlt := hw.starts_lt he ht
    have hend := hback ht
    have hrank := rank_le e'
    rw [rank_wake ht]
    omega

end Hops

/-- A transitive relation that every hop keeps holds between any two events of a path, in their order. -/
theorem MaximalPath.pairwise {events : List TraceEvent} {R : TraceEvent → TraceEvent → Prop}
    (htrans : ∀ x y z, R x y → R y z → R x z) (hR : ∀ wakes e e', e ∈ events → Hop events wakes e e' → R e e')
    {wakes : Nat} {e : TraceEvent} {path : List TraceEvent} (he : e ∈ events)
    (h : MaximalPath events wakes (e :: path)) : (e :: path).Pairwise R := by
  induction path generalizing wakes e with
  | nil => exact List.pairwise_singleton _ _
  | cons e' path ih =>
    have htail := ih h.1.mem h.2
    have hfirst : R e e' := hR wakes e e' he h.1
    refine List.pairwise_cons.mpr ⟨?_, htail⟩
    intro x hx
    rcases List.mem_cons.mp hx with rfl | hx
    · exact hfirst
    · exact htrans e e' x hfirst ((List.pairwise_cons.mp htail).1 x hx)

theorem ResumeEvent.ends_le {events : List TraceEvent} {b e : TraceEvent} (h : ResumeEvent events b e) :
    e.ends ≤ b.ends + window := by
  rcases h with h | h
  · exact h.1.prop.2.2.2
  · exact h.1.prop.2.2.1.trans (Nat.le_add_right _ _)

section Paths
variable {events : List TraceEvent} {b : TraceEvent} {path : List TraceEvent}

theorem StallPath.pairwise {R : TraceEvent → TraceEvent → Prop} (htrans : ∀ x y z, R x y → R y z → R x z)
    (hR : ∀ wakes e e', e ∈ events → Hop events wakes e e' → R e e') (h : StallPath events b path) :
    path.Pairwise R := by
  rcases stallPath_iff.mp h with ⟨rfl, -⟩ | ⟨e, p, rfl, he, hmax⟩
  · exact List.Pairwise.nil
  · exact hmax.pairwise htrans hR he.mem

theorem StallPath.pairwise_ends (h : StallPath events b path) : path.Pairwise (fun e e' => e'.ends ≤ e.ends) :=
  h.pairwise (fun _ _ _ hxy hyz => hyz.trans hxy) fun _ _ _ _ hop => hop.ends_le

theorem StallPath.ends_le (h : StallPath events b path) : ∀ e ∈ path, e.ends ≤ b.ends + window := by
  have hpair := h.pairwise_ends
  rcases stallPath_iff.mp h with ⟨rfl, -⟩ | ⟨e, p, rfl, he, -⟩
  · intro x hx
    cases hx
  · intro x hx
    rcases List.mem_cons.mp hx with rfl | hx
    · exact he.ends_le
    · exact ((List.pairwise_cons.mp hpair).1 x hx).trans he.ends_le

theorem StallPath.pairwise_rank (hw : WakesTakeTime events) (h : StallPath events b path) :
    path.Pairwise (fun e e' => e'.rank < e.rank) :=
  h.pairwise (fun _ _ _ hxy hyz => hyz.trans hxy) fun _ _ _ he hop => hop.rank_lt hw he

end Paths

/-! ### Without the guard -/

/-- The wakes a walk that has come to time `t` may still find. -/
def wakesUntil (events : List TraceEvent) (t : Nat) : Nat :=
  events.countP fun e => e.eventType = eventFutexWake ∧ e.ends ≤ t

theorem wakesUntil_lt {events : List TraceEvent} {s t : Nat} {u : TraceEvent} (hu : u ∈ events)
    (hut : u.eventType = eventFutexWake) (hs : s < u.ends) (ht : u.ends ≤ t) :
    wakesUntil events s < wakesUntil events t := by
  have hmono : ∀ e ∈ events, decide (e.eventType = eventFutexWake ∧ e.ends ≤ s) = true →
      decide (e.eventType = eventFutexWake ∧ e.ends ≤ t) = true := by
    intro e _ he
    obtain ⟨het, hes⟩ := of_decide_eq_true he
    exact decide_eq_true ⟨het, by omega⟩
  obtain ⟨l, r, rfl⟩ := List.append_of_mem hu
  have hl : wakesUntil l s ≤ wakesUntil l t := List.countP_mono_left fun e he => hmono e (by simp [he])
  have hr : wakesUntil r s ≤ wakesUntil r t := List.countP_mono_left fun e he => hmono e (by simp [he])
  unfold wakesUntil at hl hr ⊢
  have hus : ¬u.ends ≤ s := not_le.mpr hs
  simp only [List.countP_append, List.countP_cons, hut, hus, ht]
  simp only [and_false, and_true, decide_false, decide_true, if_true, Bool.false_eq_true, if_false]
  omega

theorem wakesUntil_le (events : List TraceEvent) (t : Nat) :
    wakesUntil events t ≤ events.countP (·.eventType = eventFutexWake) :=
  List.countP_mono_left fun _ _ he => decide_eq_true (of_decide_eq_true he).1

/-- Before the wake call of its waker there are fewer wakes than before the end of a wait. -/
theorem WakesTakeTime.fewer_wakes {events : List TraceEvent} (hw : WakesTakeTime events) {wait u : TraceEvent}
    (hu : IsWaker events wait u) {s : Nat} (hs : s ≤ u.starts) :
    wakesUntil events s < wakesUntil events wait.ends := by
  have hmem : u ∈ events := IsLastMax.mem hu
  obtain ⟨hut, -, hbefore, -⟩ := IsLastMax.prop hu
  exact wakesUntil_lt hmem hut (hs.trans_lt (hw.starts_lt hmem hut)) hbefore

/-- A walk with as many hops left as there are wakes before it does not reach the guard. -/
theorem walkHops_enough (host : Host) {events : List TraceEvent} (hw : WakesTakeTime events) (left left' : Nat)
    (wait : TraceEvent) (names : DevNames) (lines : List Line) (h : wakesUntil events wait.ends ≤ left)
    (h' : wakesUntil events wait.ends ≤ left') :
    walkHops host (Typed.partition events) left wait names lines =
      walkHops host (Typed.partition events) left' wait names lines := by
  induction left generalizing left' wait lines with
  | zero =>
    have hlookup := waker_lookup events wait
    unfold walkHops
    cases hu : nearestPreceding (Typed.partition events).futexWake wait.timestampNs fun e => e.key == wait.key with
    | none => rfl
    | some u =>
      rw [hu] at hlookup
      have hlt := hw.fewer_wakes hlookup le_rfl
      omega
  | succ left ih =>
    have hlookup := waker_lookup events wait
    unfold walkHops
    cases hu : nearestPreceding (Typed.partition events).futexWake wait.timestampNs fun e => e.key == wait.key with
    | none => rfl
    | some u =>
      rw [hu] at hlookup
      have hprior := classifyPriorCause_spec events u.tid (Words.saturatingSub u.timestampNs u.durationNs)
      rw [Words.saturatingSub_toNat] at hprior
      cases left' with
      | zero =>
        have hlt := hw.fewer_wakes hlookup le_rfl
        omega
      | succ left' =>
        dsimp only
        cases hc : classifyPriorCause u.tid (Words.saturatingSub u.timestampNs u.durationNs)
          (Typed.partition events) with
        | futex w =>
          rw [hc] at hprior
          have hback : w.ends ≤ u.starts := hprior.1.prop.2.2.1
          have hlt := hw.fewer_wakes hlookup hback
          exact ih left' w _ (by omega) (by omega)
        | blockIo i => rfl
        | unknown => rfl

/-- The events a chain visits never go forward in time, and none ends later than a window after the stall. If every
    wake takes some time, the waits of a chain are strictly earlier and earlier, so are its wakes, no event is visited
    twice, no walk can hop for ever, and without the guard of the depth the walk would end as well: any number of hops
    from the number of wakes in the trace on gives the same lines. -/
theorem explainOneStall_backward (host : Host) (trace : TraceFile) (b : TraceEvent) (names : DevNames) :
    ∃ path, StallPath trace.events b path ∧
      (explainOneStall host b trace (Typed.partition trace.events) names).1.lines =
        chainLines host names trace b path ∧
      path.Pairwise (fun e e' => e'.timestampNs ≤ e.timestampNs) ∧
      (∀ e ∈ path, e.timestampNs.toNat ≤ b.timestampNs.toNat + 5000000) ∧
      (WakesTakeTime trace.events →
        path.Pairwise (fun e e' => e.eventType = eventFutexWait → e'.eventType = eventFutexWait →
          e'.timestampNs < e.timestampNs) ∧
        path.Pairwise (fun e e' => e.eventType = eventFutexWake → e'.eventType = eventFutexWake →
          e'.timestampNs < e.timestampNs) ∧
        path.Nodup ∧
        WellFounded (fun e' e => e ∈ trace.events ∧ Hop trace.events 0 e e') ∧
        ∀ left wait lines, trace.events.countP (·.eventType = eventFutexWake) ≤ left →
          walkHops host (Typed.partition trace.events) left wait names lines =
            walkHops host (Typed.partition trace.events) (trace.events.countP (·.eventType = eventFutexWake)) wait names
              lines) := by
  obtain ⟨path, hpath, -, -, hlines⟩ := exists_stallPath host trace b names
  refine ⟨path, hpath, hlines, hpath.pairwise_ends.imp UInt64.le_iff_toNat_le.mpr, hpath.ends_le, ?_⟩
  intro hw
  have hrank := hpath.pairwise_rank hw
  refine ⟨?_, ?_, ?_, ?_, ?_⟩
  · refine hrank.imp ?_
    intro e e' hlt het het'
    rw [rank_wait het, rank_wait het'] at hlt
    refine UInt64.lt_iff_toNat_lt.mpr ?_
    change e'.ends < e.ends
    omega
  · refine hrank.imp ?_
    intro e e' hlt het het'
    rw [rank_wake het, rank_wake het'] at hlt
    refine UInt64.lt_iff_toNat_lt.mpr ?_
    change e'.ends < e.ends
    omega
  · refine hrank.imp ?_
    rintro e e' hlt rfl
    exact absurd hlt (lt_irrefl _)
  · refine Subrelation.wf ?_ (InvImage.wf TraceEvent.rank Nat.lt_wfRel.wf)
    rintro e' e ⟨he, hop⟩
    exact hop.rank_lt hw he
  · intro left wait lines hleft
    have hle := wakesUntil_le trace.events wait.ends
    exact walkHops_enough host hw left _ wait names lines (hle.trans hleft) hle

/-- Threads 8 and 9 wake each other on two addresses, and 8 is stalled in its second wait. -/
def pingPong : List TraceEvent :=
  [⟨90, 3, 0x20, 7, 8, eventFutexWake, ""⟩, ⟨95, 30, 0x20, 7, 9, eventFutexWait, ""⟩,
    ⟨102, 2, 0x10, 7, 9, eventFutexWake, ""⟩, ⟨104, 6, 0, 7, 8, eventSchedBlock, ""⟩,
    ⟨105, 11, 0x10, 7, 8, eventFutexWait, ""⟩]

theorem explainOneStall_backward_pingPong : WakesTakeTime pingPong ∧ ∀ host, ∃ path,
    StallPath pingPong ⟨104, 6, 0, 7, 8, eventSchedBlock, ""⟩ path ∧
      path.tail.map (pathLine host .new) = [.wokenBy 9, .priorFutex 9 30 0x20, .wokenBy 8] ∧
      path.Nodup ∧ path.Pairwise (fun e e' => e.eventType = eventFutexWake → e'.eventType = eventFutexWake →
        e'.timestampNs < e.timestampNs) := by
  have hw : WakesTakeTime pingPong := by
    unfold WakesTakeTime
    decide
  refine ⟨hw, ?_⟩
  intro host
  obtain ⟨path, hpath, hlines, -, -, hback⟩ := explainOneStall_backward host ⟨0, 0, pingPong⟩
    ⟨104, 6, 0, 7, 8, eventSchedBlock, ""⟩ .new
  obtain ⟨-, hwakes, hnodup, -, -⟩ := hback hw
  exact ⟨path, hpath, (congrArg List.tail hlines).symm, hnodup, hwakes⟩

end Whyslow
