import Whyslow.Theorems.Chain
import Whyslow.Theorems.Threads

/-! The headline of a stall, over whole runs. A thread returns from no other call while it is in one
    (`Call.eq_of_ends_within`), so a wait that contains a stall is the first to return after its resume: the join
    finds it whenever it returns in the window. What the join does not ask is whether its candidate contains the
    stall, and there the attribution goes astray when nothing recorded does. -/

namespace Whyslow
open Extremum

section Attribution
variable {n : Sizes} {steps : List Step} {events : List TraceEvent} {s w : TraceEvent}

/-- A wait that contains the resume of a stall ends before any other wait of the thread after it. -/
theorem wait_first (hclock : ClockIncreasing steps) (hrec : Recorded n steps events) (hw : w ∈ events)
    (hwt : w.eventType = eventFutexWait) (htid : w.tid = s.tid) (hstart : w.starts ≤ s.ends) :
    ∀ x ∈ events, WaitOf s.tid (After s.ends) x → x = w ∨ w.ends < x.ends := by
  intro x hx hc
  obtain ⟨hxt, hxtid, hwin⟩ := hc
  rcases Nat.lt_or_ge w.ends x.ends with hlt | hle
  · exact Or.inr hlt
  · obtain ⟨j, i, hcall⟩ := hrec.call hclock.nonDecreasing hw (Or.inl hwt)
    obtain ⟨j', i', hcall'⟩ := hrec.call hclock.nonDecreasing hx (Or.inl hxt)
    exact Or.inl (hcall.eq_of_ends_within hclock hcall' (hxtid.trans htid.symm) (hstart.trans hwin.1) hle)

theorem nearestFollowing_wait (hclock : ClockIncreasing steps) (hrec : Recorded n steps events) (hw : w ∈ events)
    (hwt : w.eventType = eventFutexWait) (htid : w.tid = s.tid) (hstart : w.starts ≤ s.ends)
    (hwin : After s.ends w.ends) :
    nearestFollowing (Typed.partition events).futexWait s.timestampNs (fun e => e.tid == s.tid) = some w := by
  rw [partition_eq]
  exact nearestFollowing_eq_some_of_lt (beq_tid s.tid) hw ⟨hwt, htid, hwin⟩ (wait_first hclock hrec hw hwt htid hstart)

/-- A request of the thread ended before the resume, and closer to it than the wait. -/
def CloserIo (events : List TraceEvent) (s w : TraceEvent) : Prop :=
  ∃ i ∈ events, i.eventType = eventBlockIo ∧ i.tid = s.tid ∧ i.ends ≤ s.ends ∧ s.ends - i.ends < w.ends - s.ends

theorem CloserIo.ioOf {i : TraceEvent} (hwin : After s.ends w.ends) (hit : i.eventType = eventBlockIo)
    (htid : i.tid = s.tid) (hle : i.ends ≤ s.ends) (hlt : s.ends - i.ends < w.ends - s.ends) :
    IoOf s.tid (Before s.ends) i := by
  refine ⟨hit, htid, hle, ?_⟩
  have := hwin.2
  omega

theorem classifyResumeCause_eq_futex_iff
    (hfw : nearestFollowing (Typed.partition events).futexWait s.timestampNs (fun e => e.tid == s.tid) = some w)
    (hwin : After s.ends w.ends) :
    classifyResumeCause s.tid s.timestampNs (Typed.partition events) = .futex w ↔ ¬CloserIo events s w := by
  have hspec := classifyResumeCause_spec events s.tid s.timestampNs
  refine ⟨?_, ?_⟩
  · intro h hio
    rw [h] at hspec
    obtain ⟨i, hi, hit, hitid, hle, hlt⟩ := hio
    exact absurd (hspec.2 i hi (CloserIo.ioOf hwin hit hitid hle hlt)) (not_le.mpr hlt)
  · intro h
    unfold classifyResumeCause
    rw [hfw]
    dsimp only
    cases hio : nearestPreceding (Typed.partition events).blockIo s.timestampNs fun e => e.tid == s.tid with
    | none => rfl
    | some i =>
      rw [partition_eq] at hio
      have hmax := (nearestPreceding_eq_some_iff (beq_tid s.tid)).mp hio
      obtain ⟨hit, hitid, hbefore⟩ := IsLastMax.prop hmax
      refine if_pos (UInt64.not_lt.mp fun hlt => h ⟨i, IsLastMax.mem hmax, hit, hitid, hbefore.1, ?_⟩)
      rw [UInt64.lt_iff_toNat_lt, Words.saturatingSub_toNat, Words.saturatingSub_toNat] at hlt
      exact hlt

end Attribution

def futexHeadline (trace : TraceFile) (s : TraceEvent) (key : UInt64) : Line :=
  .blockedOnFutex (trace.wallNsFor (Words.saturatingSub s.timestampNs s.durationNs)) s.tid s.durationNs key

theorem headline_futex_iff {host : Host} {trace : TraceFile} {names : DevNames} {s : TraceEvent} {key : UInt64} :
    (explainOneStall host s trace (Typed.partition trace.events) names).1.lines.head? =
        some (futexHeadline trace s key) ↔
      ∃ w, classifyResumeCause s.tid s.timestampNs (Typed.partition trace.events) = .futex w ∧ w.key = key := by
  unfold explainOneStall
  dsimp only
  cases hc : classifyResumeCause s.tid s.timestampNs (Typed.partition trace.events) with
  | futex w =>
    have hspec := classifyResumeCause_spec trace.events s.tid s.timestampNs
    rw [hc] at hspec
    obtain ⟨path, -, -, hlines⟩ := walkHops_lines host trace.events names (maxChainDepth - 1) 0 rfl w
      hspec.1.prop.1 [futexHeadline trace s w.key]
    have hhead : (walkFromFutexWait host w (Typed.partition trace.events) names 1
        [futexHeadline trace s w.key]).1.head? = some (futexHeadline trace s w.key) := by
      simp only [walkFromFutexWait, hlines]
      rfl
    refine ⟨fun h => ⟨w, rfl, ?_⟩, fun h => ?_⟩
    · have := hhead.symm.trans h
      simpa [futexHeadline] using this
    · obtain ⟨w', hw', hkey⟩ := h
      cases hw'
      rw [← hkey]
      exact hhead
  | blockIo i => simp [futexHeadline]
  | unknown => simp [futexHeadline]

/-- In every run, whatever else it records and in whatever order: the futex candidate of a stall `s` inside a wait
    `w` that returns in the window is that wait, and the stall is put down to it exactly when no request of the
    thread is closer. -/
theorem stall_in_wait_attributed (n : Sizes) {steps : List Step} (hclock : ClockIncreasing steps) {trace : TraceFile}
    (hrec : Recorded n steps trace.events) {s w : TraceEvent} (hw : w ∈ trace.events)
    (hwt : w.eventType = eventFutexWait) (htid : w.tid = s.tid) (hstart : w.starts ≤ s.starts) (hend : s.ends ≤ w.ends)
    (hwin : w.ends - s.ends ≤ window) :
    nearestFollowing (Typed.partition trace.events).futexWait s.timestampNs (fun e => e.tid == s.tid) = some w ∧
    (classifyResumeCause s.tid s.timestampNs (Typed.partition trace.events) = .futex w ↔
      ¬CloserIo trace.events s w) ∧
    ∀ host names, (explainOneStall host s trace (Typed.partition trace.events) names).1.lines.head? =
        some (futexHeadline trace s w.key) ↔ ¬CloserIo trace.events s w := by
  have hafter : After s.ends w.ends := ⟨hend, by omega⟩
  have hstart' : w.starts ≤ s.ends := hstart.trans (Nat.sub_le _ _)
  have hfw := nearestFollowing_wait hclock hrec hw hwt htid hstart' hafter
  have hiff := classifyResumeCause_eq_futex_iff hfw hafter
  refine ⟨hfw, hiff, ?_⟩
  intro host names
  rw [headline_futex_iff, ← hiff]
  refine ⟨fun h => ?_, fun h => ⟨w, h, rfl⟩⟩
  obtain ⟨w', hw', -⟩ := h
  -- Only the candidate can be the cause, so the headline names `w` or no wait at all.
  have hspec := classifyResumeCause_spec trace.events s.tid s.timestampNs
  rw [hw'] at hspec
  have hfw' := (nearestFollowing_eq_some_iff (beq_tid s.tid)).mpr hspec.1
  rw [partition_eq] at hfw
  rw [hw', Option.some.inj (hfw'.symm.trans hfw)]

def traceOf (steps : List Step) : TraceFile := ⟨0, 0, (Maps.run Sizes.source steps).events.map TraceEvent.ofEvent⟩

theorem recorded_traceOf (steps : List Step) : Recorded Sizes.source steps (traceOf steps).events := List.Perm.refl _

/-- A run in which thread 8 of the target 7 waits on a futex from 10 to 40, off-CPU from 20 to 30. -/
def waitRun : List Step :=
  [.setTargetTgid 7, .futexEnter (.inThread 10 7 8) (futexArgs 0x1000 0),
    .schedSwitch (.inThread 20 7 8) (switch 8 1 0), .schedSwitch (.inThread 30 0 0) (switch 0 0 8),
    .futexExit (.inThread 40 7 8)]

theorem stall_in_wait_attributed_waitRun : ∃ s w, (traceOf waitRun).events = [s, w] ∧
    classifyResumeCause s.tid s.timestampNs (Typed.partition (traceOf waitRun).events) = .futex w := by
  refine ⟨⟨30, 10, 0, 7, 8, 0, ""⟩, ⟨40, 30, 0x1000, 7, 8, 1, ""⟩, by decide, ?_⟩
  have hclock : ClockIncreasing waitRun := by decide
  have h := stall_in_wait_attributed Sizes.source hclock (recorded_traceOf waitRun) (s := ⟨30, 10, 0, 7, 8, 0, ""⟩)
    (w := ⟨40, 30, 0x1000, 7, 8, 1, ""⟩) (by decide) rfl rfl (by decide) (by decide) (by decide)
  refine h.2.1.mpr ?_
  intro hio
  obtain ⟨i, hi, hit, -⟩ := hio
  have hall : ∀ e ∈ (traceOf waitRun).events, e.eventType ≠ eventBlockIo := by decide
  exact hall i hi hit

/-! ### Stalls that no record contains -/

section Astray
variable {n : Sizes} {T : UInt32} {steps : List Step} {events : List TraceEvent} {s f : TraceEvent}

/-- A wait of the thread that is entered after the stall began is entered after the resume. -/
theorem starts_after_resume (hT : SetsOnly T steps) (hclock : ClockIncreasing steps) (hcpu : CpuSequential steps)
    (hrec : Recorded n steps events) (hs : s ∈ events) (hst : s.eventType = eventSchedBlock) (hf : f ∈ events)
    (hft : f.eventType = eventFutexWait) (htid : f.tid = s.tid) (hlate : s.starts < f.starts) : s.ends < f.starts := by
  obtain ⟨j, i, hstall⟩ := hrec.stall hT hclock.nonDecreasing hs hst
  obtain ⟨j', i', hcall⟩ := hrec.call hclock.nonDecreasing hf (Or.inl hft)
  obtain ⟨h, evt, hout, -, hstarts, -⟩ := hstall.out
  obtain ⟨g, evt', hin, -, hends⟩ := hstall.resume
  obtain ⟨h', evt'', henter, htid', hstarts', -⟩ := hcall.enter
  have hjj : j < j' := hclock.nonDecreasing.pos_lt hout henter rfl rfl (by omega)
  have hij : i < j' := by
    rcases Nat.lt_trichotomy i j' with h | rfl | h
    · exact h
    · cases hin.half.symm.trans henter
    · refine absurd ?_ (hstall.no_call hcpu hjj h henter)
      rw [← htid, ← htid']
      rfl
  have := hclock.lt hij hin.half henter rfl rfl (fun _ _ h => by cases h)
  omega

end Astray

/-- What the cause of a recorded stall is, in every run. A wait returns in the window after the resume; it contains
    the stall, or it is entered after the resume (a thread that is off-CPU makes no call) and no recorded wait that
    contains the stall returns in the window. A request completes in the window before the resume; it does so during
    the stall, or no recorded request of the thread does. -/
theorem stall_attribution (n : Sizes) {T : UInt32} {steps : List Step} (hT : SetsOnly T steps)
    (hclock : ClockIncreasing steps) {events : List TraceEvent} (hrec : Recorded n steps events) {s : TraceEvent}
    (hs : s ∈ events) (hst : s.eventType = eventSchedBlock) :
    (∀ f, classifyResumeCause s.tid s.timestampNs (Typed.partition events) = .futex f →
      f ∈ events ∧ f.eventType = eventFutexWait ∧ f.tid = s.tid ∧ s.ends ≤ f.ends ∧ f.ends ≤ s.ends + window ∧
      (f.starts ≤ s.starts ∨
        (CpuSequential steps → s.ends < f.starts) ∧
        ∀ w ∈ events, w.eventType = eventFutexWait → w.tid = s.tid → w.starts ≤ s.starts → s.ends ≤ w.ends →
          s.ends + window < w.ends)) ∧
    (∀ i, classifyResumeCause s.tid s.timestampNs (Typed.partition events) = .blockIo i →
      i ∈ events ∧ i.eventType = eventBlockIo ∧ i.tid = s.tid ∧ i.ends ≤ s.ends ∧ s.ends ≤ i.ends + window ∧
      (s.starts ≤ i.ends ∨ ∀ x ∈ events, x.eventType = eventBlockIo → x.tid = s.tid →
        x.ends < s.starts ∨ s.ends < x.ends)) := by
  have hspec := classifyResumeCause_spec events s.tid s.timestampNs
  refine ⟨?_, ?_⟩
  · intro f hc
    rw [hc] at hspec
    obtain ⟨hft, htid, hwin⟩ := hspec.1.prop
    refine ⟨hspec.1.mem, hft, htid, hwin.1, hwin.2, ?_⟩
    rcases Nat.lt_or_ge s.starts f.starts with hlate | hle
    · refine Or.inr ⟨fun hcpu => starts_after_resume hT hclock hcpu hrec hs hst hspec.1.mem hft htid hlate, ?_⟩
      intro w hw hwt hwtid hstart hend
      -- A containing wait in the window would be the candidate, and `f` does not contain the stall.
      by_contra hnear
      have hwafter : WaitOf s.tid (After s.ends) w := ⟨hwt, hwtid, hend, not_lt.mp hnear⟩
      rcases wait_first hclock hrec hw hwt hwtid (hstart.trans (Nat.sub_le _ _)) f hspec.1.mem hspec.1.prop with
        rfl | hlt
      · omega
      · exact absurd (hspec.1.le hw hwafter) (not_le.mpr hlt)
    · exact Or.inl hle
  · intro i hc
    rw [hc] at hspec
    obtain ⟨hit, htid, hwin⟩ := hspec.1.prop
    refine ⟨hspec.1.mem, hit, htid, hwin.1, hwin.2, ?_⟩
    rcases Nat.lt_or_ge i.ends s.starts with hearly | hle
    · refine Or.inr ?_
      intro x hx hxt hxtid
      by_contra hduring
      -- A request that ends during the stall is later than `i`, so it is in the window too.
      have hx' : s.starts ≤ x.ends ∧ x.ends ≤ s.ends := by omega
      have hfar : s.ends ≤ i.ends + window := hwin.2
      have hwin' : Before s.ends x.ends := ⟨hx'.2, by omega⟩
      have := hspec.1.le hx ⟨hxt, hxtid, hwin'⟩
      omega
    · exact Or.inl hle

theorem stall_attribution_waitRun : ∃ s f, (traceOf waitRun).events = [s, f] ∧
    classifyResumeCause s.tid s.timestampNs (Typed.partition (traceOf waitRun).events) = .futex f ∧
    f.starts ≤ s.starts ∧ s.ends ≤ f.ends := by
  refine ⟨⟨30, 10, 0, 7, 8, 0, ""⟩, ⟨40, 30, 0x1000, 7, 8, 1, ""⟩, by decide, by decide, by decide, ?_⟩
  have hT : SetsOnly 7 waitRun := by decide
  have hclock : ClockIncreasing waitRun := by decide
  have h := stall_attribution Sizes.source hT hclock (recorded_traceOf waitRun) (s := ⟨30, 10, 0, 7, 8, 0, ""⟩)
    (by decide) rfl
  exact (h.1 ⟨40, 30, 0x1000, 7, 8, 1, ""⟩ (by decide)).2.2.2.1

/-- A run in which thread 8 sleeps from 10 to 20 and is in a wait from 30 to 40, and thread 9 has a request from 50
    to 60 and sleeps from 70 to 80. -/
def strayRun : List Step :=
  [.setTargetTgid 7, .schedSwitch (.inThread 10 7 8) (switch 8 1 0), .schedSwitch (.inThread 20 0 0) (switch 0 0 8),
    .futexEnter (.inThread 30 7 8) (futexArgs 0x1000 0), .futexExit (.inThread 40 7 8),
    .blockRqIssue (.inThread 50 7 9) (some ⟨8, 2048⟩), .blockRqComplete (.inThread 60 0 0) (some ⟨8, 2048⟩),
    .schedSwitch (.inThread 70 7 9) (switch 9 1 0), .schedSwitch (.inThread 80 0 0) (switch 0 0 9)]

/-- The first stall of `strayRun` is put down to a wait entered after it, the second to a request completed before. -/
theorem strayRun_attribution : Orderly Sizes.source 7 strayRun ∧
    ∃ s f i s', (traceOf strayRun).events = [s, f, i, s'] ∧
      s.eventType = eventSchedBlock ∧ s'.eventType = eventSchedBlock ∧
      classifyResumeCause s.tid s.timestampNs (Typed.partition (traceOf strayRun).events) = .futex f ∧
      s.ends < f.starts ∧
      classifyResumeCause s'.tid s'.timestampNs (Typed.partition (traceOf strayRun).events) = .blockIo i ∧
      i.ends < s'.starts := by
  refine ⟨by decide, ⟨20, 10, 0, 7, 8, 0, ""⟩, ⟨40, 10, 0x1000, 7, 8, 1, ""⟩,
    ⟨60, 10, packBlockKey 8 2048, 7, 9, 3, ""⟩, ⟨80, 10, 0, 7, 9, 0, ""⟩, by decide, rfl, rfl, by decide, by decide, by decide, by decide⟩

end Whyslow
