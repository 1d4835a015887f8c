import Whyslow.Theorems.Attribution

/-! The waker of a wait, over whole runs. The walk links a wait to the latest wake on its address that returned in
    the window before it. That wake may have returned before the wait began, when the wait is short and no wake
    returned during it. -/

namespace Whyslow
open Runs Extremum

/-! ### The link -/

/-- The wake `walkFromFutexWait` links a wait to. -/
def linkedWake (events : List TraceEvent) (f : TraceEvent) : Option TraceEvent :=
  nearestPreceding (Typed.partition events).futexWake f.timestampNs fun e => e.key == f.key

theorem linkedWake_eq_some_iff {events : List TraceEvent} {f u : TraceEvent} :
    linkedWake events f = some u ↔ IsWaker events f u := by
  unfold linkedWake
  rw [partition_eq]
  exact nearestPreceding_eq_some_iff fun _ => beq_iff_eq

theorem linkedWake_eq_none_iff {events : List TraceEvent} {f : TraceEvent} : linkedWake events f = none ↔
    ∀ u ∈ events, ¬Candidate eventFutexWake (·.key = f.key) (Before f.ends) u := by
  unfold linkedWake
  rw [partition_eq]
  exact nearestPreceding_eq_none_iff fun _ => beq_iff_eq

theorem walkHops_append (host : Host) (typed : Typed) (left : Nat) (wait : TraceEvent) (names : DevNames)
    (lines : List Line) : ∃ rest, (walkHops host typed left wait names lines).1 = lines ++ rest := by
  induction left generalizing wait names lines with
  | zero =>
    unfold walkHops
    split
    · exact ⟨[], (List.append_nil _).symm⟩
    · exact ⟨_, rfl⟩
  | succ left ih =>
    unfold walkHops
    split
    · exact ⟨[], (List.append_nil _).symm⟩
    · rename_i wake _
      dsimp only
      split
      · rename_i next _
        obtain ⟨rest, hrest⟩ := ih next names
          (lines ++ [.wokenBy wake.tid] ++ [.priorFutex wake.tid next.durationNs next.key])
        rw [hrest]
        exact ⟨_, by rw [List.append_assoc, List.append_assoc]⟩
      · exact ⟨_, List.append_assoc _ _ _⟩
      · exact ⟨_, rfl⟩

section Link
variable {host : Host} {names : DevNames} {depth : Nat} {lines : List Line} {events : List TraceEvent}
  {f u : TraceEvent} {tid : UInt32}

/-- The walk from a wait reports `tid` as its waker: that is the first line it adds. -/
def Reports (host : Host) (names : DevNames) (depth : Nat) (lines : List Line) (events : List TraceEvent)
    (f : TraceEvent) (tid : UInt32) : Prop :=
  ∃ rest, (walkFromFutexWait host f (Typed.partition events) names depth lines).1 = lines ++ .wokenBy tid :: rest

theorem walk_of_unlinked (h : linkedWake events f = none) :
    (walkFromFutexWait host f (Typed.partition events) names depth lines).1 = lines := by
  unfold linkedWake at h
  unfold walkFromFutexWait walkHops
  rw [h]

theorem walk_of_linked (h : linkedWake events f = some u) : Reports host names depth lines events f u.tid := by
  unfold linkedWake at h
  unfold Reports walkFromFutexWait
  cases maxChainDepth - depth with
  | zero =>
    unfold walkHops
    rw [h]
    exact ⟨[], rfl⟩
  | succ left =>
    unfold walkHops
    rw [h]
    dsimp only
    split
    · rename_i next _
      obtain ⟨rest, hrest⟩ := walkHops_append host (Typed.partition events) left next names
        (lines ++ [.wokenBy u.tid] ++ [.priorFutex u.tid next.durationNs next.key])
      rw [hrest]
      exact ⟨.priorFutex u.tid next.durationNs next.key :: rest, by simp⟩
    · exact ⟨_, List.append_assoc _ _ _⟩
    · exact ⟨[], rfl⟩

theorem reports_iff : Reports host names depth lines events f tid ↔ ∃ u, linkedWake events f = some u ∧ u.tid = tid := by
  refine ⟨?_, ?_⟩
  · intro h
    obtain ⟨rest, hrest⟩ := h
    cases hl : linkedWake events f with
    | none =>
      rw [walk_of_unlinked hl] at hrest
      exact absurd (congrArg List.length hrest) (by simp)
    | some u =>
      obtain ⟨rest', hrest'⟩ : Reports host names depth lines events f u.tid := walk_of_linked hl
      have := List.append_cancel_left (hrest'.symm.trans hrest)
      exact ⟨u, rfl, by simpa using congrArg List.head? this⟩
  · intro h
    obtain ⟨u, hu, rfl⟩ := h
    exact walk_of_linked hu

end Link

/-! ### Stale wakes -/

/-- In every run: the wake a wait is linked to returned in the window up to the wait's return. It returned during the
    wait and is another thread's, or the wait was shorter than the window and no recorded wake on its address returned
    during it. -/
theorem linkedWake_during_wait (n : Sizes) {steps : List Step} (hclock : ClockIncreasing steps)
    {events : List TraceEvent} (hrec : Recorded n steps events) {f u : TraceEvent} (hf : f ∈ events)
    (hft : f.eventType = eventFutexWait) (hlink : linkedWake events f = some u) :
    u ∈ events ∧ u.eventType = eventFutexWake ∧ u.key = f.key ∧ u.ends ≤ f.ends ∧ f.ends ≤ u.ends + window ∧
    (f.starts ≤ u.ends ∧ u.tid ≠ f.tid ∨
      f.durationNs.toNat < window ∧ ∀ v ∈ events, v.eventType = eventFutexWake → v.key = f.key →
        v.ends < f.starts ∨ f.ends < v.ends) := by
  have hwaker := linkedWake_eq_some_iff.mp hlink
  have hu := IsLastMax.mem hwaker
  obtain ⟨hut, hkey, hwin⟩ := IsLastMax.prop hwaker
  refine ⟨hu, hut, hkey, hwin.1, hwin.2, ?_⟩
  rcases Nat.lt_or_ge u.ends f.starts with hstale | hduring
  · have hend : u.ends ≤ f.ends := hwin.1
    have hfar : f.ends ≤ u.ends + window := hwin.2
    have hspan : f.starts = f.ends - f.durationNs.toNat := rfl
    refine Or.inr ⟨by omega, ?_⟩
    intro v hv hvt hvkey
    -- A wake that returned during the wait is later than `u`, so it is in the window and would be linked.
    by_contra hin
    have hwin' : Before f.ends v.ends := ⟨by omega, by omega⟩
    have := IsLastMax.le hwaker hv ⟨hvt, hvkey, hwin'⟩
    omega
  · refine Or.inl ⟨hduring, ?_⟩
    intro htid
    obtain ⟨j, i, hcall⟩ := hrec.call hclock.nonDecreasing hf (Or.inl hft)
    obtain ⟨j', i', hcall'⟩ := hrec.call hclock.nonDecreasing hu (Or.inr hut)
    rw [hcall.eq_of_ends_within hclock hcall' htid hduring hwin.1, hft] at hut
    exact absurd hut (by decide)

/-- A run in which thread 8 waits on a futex from 10 to 40 and thread 9 wakes it from 20 to 30. -/
def wokenRun : List Step :=
  [.setTargetTgid 7, .futexEnter (.inThread 10 7 8) (futexArgs 0x1000 0),
    .futexEnter (.inThread 20 7 9) (futexArgs 0x1000 1), .futexExit (.inThread 30 7 9), .futexExit (.inThread 40 7 8)]

theorem linkedWake_during_wait_wokenRun : ∃ u f, (traceOf wokenRun).events = [u, f] ∧
    linkedWake (traceOf wokenRun).events f = some u ∧ u.ends ≤ f.ends := by
  refine ⟨⟨30, 10, 0x1000, 7, 9, 2, ""⟩, ⟨40, 30, 0x1000, 7, 8, 1, ""⟩, by decide, by decide, ?_⟩
  have hclock : ClockIncreasing wokenRun := by decide
  have h := linkedWake_during_wait Sizes.source hclock (recorded_traceOf wokenRun)
    (f := ⟨40, 30, 0x1000, 7, 8, 1, ""⟩) (u := ⟨30, 10, 0x1000, 7, 9, 2, ""⟩) (by decide) rfl (by decide)
  exact h.2.2.2.1

/-- A run in which thread 8 wakes nobody on a futex from 10 to 20 and is in a wait on it from 30 to 40. -/
def unlockRun : List Step :=
  [.setTargetTgid 7, .futexEnter (.inThread 10 7 8) (futexArgs 0x1000 1), .futexExit (.inThread 20 7 8),
    .futexEnter (.inThread 30 7 8) (futexArgs 0x1000 0), .futexExit (.inThread 40 7 8)]

/-- In `unlockRun` the wait is linked to the thread's own wake, which returned before it. -/
theorem unlockRun_linked : Orderly Sizes.source 7 unlockRun ∧
    ∃ u f, (traceOf unlockRun).events = [u, f] ∧ f.eventType = eventFutexWait ∧
      linkedWake (traceOf unlockRun).events f = some u ∧ u.ends < f.starts ∧ u.tid = f.tid := by
  exact ⟨by decide, ⟨20, 10, 0x1000, 7, 8, 2, ""⟩,
    ⟨40, 10, 0x1000, 7, 8, 1, ""⟩, by decide, rfl, by decide, by decide, rfl⟩

end Whyslow
