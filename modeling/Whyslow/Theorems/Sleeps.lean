import Whyslow.Theorems.Attribution

/-! What a deeper line of a chain stands for, over whole runs. The walk takes the last wait its waker returned from,
    and it does not ask whether the waker slept in it. A stall is recorded inside the wait exactly when the waker was
    switched out there; a wait that returned at once is reported all the same. -/

namespace Whyslow
open Runs Extremum

/-! ### Stalls inside a wait -/

/-- A stall of the thread of `f` is recorded within the span of `f`. -/
def StallWithin (events : List TraceEvent) (f : TraceEvent) : Prop :=
  ∃ s ∈ events, s.eventType = eventSchedBlock ∧ s.tid = f.tid ∧ f.starts ≤ s.starts ∧ s.ends ≤ f.ends

/-- The thread of `f` is switched out in a state other than running within the span of `f`. -/
def SwitchedOutWithin (steps : List Step) (f : TraceEvent) : Prop :=
  ∃ h evt, .switchOut h evt ∈ halves steps ∧ evt.prevPid.toUInt32 = f.tid ∧ evt.prevState ≠ taskRunning ∧
    f.starts ≤ h.ktimeGetNs.toNat ∧ h.ktimeGetNs.toNat ≤ f.ends

section Within
variable {n : Sizes} {T : UInt32} {steps : List Step} {events : List TraceEvent}

/-- A recorded stall began with a switch-out in a state other than running. -/
theorem Recorded.switchOut (hrec : Recorded n steps events) (hclock : ClockNonDecreasing steps) {s : TraceEvent}
    (hs : s ∈ events) (hst : s.eventType = eventSchedBlock) :
    ∃ h evt, .switchOut h evt ∈ halves steps ∧ evt.prevPid.toUInt32 = s.tid ∧ evt.prevState ≠ taskRunning ∧
      h.ktimeGetNs.toNat = s.starts := by
  obtain ⟨i, a, hw⟩ := hrec.mem_iff.mp hs
  obtain ⟨ev, hp, rfl, -⟩ := hw.produces
  obtain ⟨g, evt, v, rfl, -, hget, rfl⟩ := produces_stall hp hst
  obtain ⟨j, hj, b, hb, hopen, -⟩ := (blockSpans.get_eq_some_iff (fun _ => rfl) i).mp hget
  obtain ⟨h, evt', rfl, -, hstate, -, htid, rfl⟩ := blockAct_start hopen.1
  have hle := hclock.le hj hb hw.half rfl rfl
  exact ⟨h, evt', List.mem_of_getElem? hb, htid.symm, hstate, starts_eq hle⟩

/-- A recorded call was entered by a thread of the target, with the target set. -/
theorem Recorded.call_entered (hrec : Recorded n steps events) (hT : SetsOnly T steps) (hclock : ClockNonDecreasing steps)
    {f : TraceEvent} (hf : f ∈ events) (hft : f.eventType = eventFutexWait) :
    ∃ j i h evt g, j < i ∧ (halves steps)[j]? = some (.futexEnter h evt) ∧ (halves steps)[i]? = some (.futexExit g) ∧
      h.currentTid = f.tid ∧ h.currentTgid = T ∧ g.currentTid = f.tid ∧ h.ktimeGetNs.toNat = f.starts ∧
      g.ktimeGetNs.toNat = f.ends ∧ (mapsAt n steps j).targetTgid ≠ 0 := by
  obtain ⟨i, a, hw⟩ := hrec.mem_iff.mp hf
  obtain ⟨ev, hp, rfl, -⟩ := hw.produces
  obtain ⟨g, v, type, rfl, hget, -, rfl⟩ := produces_call hp (Or.inl hft)
  obtain ⟨j, hj, b, hb, hopen, -⟩ := (futexSpans.get_eq_some_iff (fun _ => rfl) i).mp hget
  obtain ⟨h, evt, rfl, ht, hg, htid, rfl⟩ := futexAct_start hopen.1
  have hle := hclock.le hj hb hw.half rfl rfl
  exact ⟨j, i, h, evt, g, hj, hb, hw.half, htid.symm, hg.trans ((target_eq hT n j).resolve_left ht), rfl, starts_eq hle,
    rfl, ht⟩

/-- The next switch-in of a thread that was switched out, before something else that it does. -/
theorem exists_resume (hcpu : CpuSequential steps) {p i : Nat} {h : Helpers} {evt : TraceEventRawSchedSwitch}
    (hout : (halves steps)[p]? = some (.switchOut h evt)) (hg : h.currentTgid ≠ 0) (hpi : p < i) {a : Half}
    (ha : (halves steps)[i]? = some a) (hthread : a.thread? = some evt.prevPid.toUInt32) (hnot : a.isSwitchIn = false) :
    ∃ q b, p < q ∧ q < i ∧ (halves steps)[q]? = some b ∧ b.switchedIn? = some evt.prevPid.toUInt32 ∧
      ∀ k, p < k → k < q → ∀ c, (halves steps)[k]? = some c → c.switchedIn? ≠ some evt.prevPid.toUInt32 := by
  classical
  have hcontext : (evt.prevPid.toUInt32, h.currentTgid) ∈ contexts steps :=
    List.mem_filterMap.mpr ⟨_, List.mem_of_getElem? hout, rfl⟩
  obtain ⟨q, b, hpq, hqi, hb, hbt, hnext⟩ := exists_next_of_isChain (hcpu _ hcontext hg) hpi hout (decide_eq_true rfl) ha
    (decide_eq_true hthread)
  have hin : b.switchedIn? = some evt.prevPid.toUInt32 := by
    cases b with
    | switchIn h' evt' => exact of_decide_eq_true hbt
    | _ => cases hnext
  have hex : ∃ k, p < k ∧ ∃ c, (halves steps)[k]? = some c ∧ c.switchedIn? = some evt.prevPid.toUInt32 :=
    ⟨q, hpq, b, hb, hin⟩
  obtain ⟨hpk, c, hc, hcin⟩ := Nat.find_spec hex
  have hle : Nat.find hex ≤ q := Nat.find_min' hex ⟨hpq, b, hb, hin⟩
  have hne : q ≠ i := by
    rintro rfl
    obtain rfl := Option.some.inj (ha.symm.trans hb)
    rw [hnot] at hnext
    cases hnext
  refine ⟨Nat.find hex, c, hpk, by omega, hc, hcin, ?_⟩
  intro k hk hkq d hd hdin
  exact Nat.find_min hex hkq ⟨hk, d, hd, hdin⟩

/-- What a switch-out of the target started is recorded at the next switch-in of the thread. -/
theorem Orderly.exists_stall (ho : Orderly n T steps) (hrec : Recorded n steps events) {p q : Nat} {h : Helpers}
    {evt : TraceEventRawSchedSwitch} {b : Half} (hout : (halves steps)[p]? = some (.switchOut h evt))
    (hstate : evt.prevState ≠ taskRunning) (hg : h.currentTgid = T) (ht : (mapsAt n steps p).targetTgid = T)
    (hpq : p < q) (hb : (halves steps)[q]? = some b) (hin : b.switchedIn? = some evt.prevPid.toUInt32)
    (hno : ∀ k, p < k → k < q → ∀ c, (halves steps)[k]? = some c → c.switchedIn? ≠ some evt.prevPid.toUInt32) :
    ∃ s ∈ events, s.eventType = eventSchedBlock ∧ s.tid = evt.prevPid.toUInt32 ∧ h.ktimeGetNs.toNat ≤ s.starts ∧
      b.ktime? = some s.timestampNs := by
  have hclock := ho.clock.nonDecreasing
  have hact : (Half.switchOut h evt).blockAct (mapsAt n steps p) =
      .start evt.prevPid.toUInt32 ⟨h.ktimeGetNs, h.currentTgid, evt.prevComm⟩ :=
    if_pos ⟨by rw [ht]; exact ho.target.1, hstate, hg.trans ht.symm⟩
  have hslot : (mapsAt n steps p).blockStart.HasSlot evt.prevPid.toUInt32 := by
    obtain ⟨hp, hget⟩ := List.getElem?_eq_some_iff.mp hout
    have hroom := (ho.kept.slots ⟨p, hp⟩).1
    rw [show (halves steps)[(⟨p, hp⟩ : Fin _)] = .switchOut h evt from hget, hact] at hroom
    exact hroom
  obtain ⟨v, hv⟩ := (blockSpans_filtered.exists_latestStart_iff ho.target).mpr
    ⟨_, p, hpq, _, hout, ⟨hact, hslot⟩, hno⟩
  obtain ⟨j, hjq, a, ha, hopen, hrest⟩ := id hv
  have hpj : p ≤ j := by
    by_contra hlt
    exact (hrest p (by omega) hpq _ hout).2 _ ⟨hact, hslot⟩
  have hts : h.ktimeGetNs.toNat ≤ v.ts.toNat := by
    rcases Nat.eq_or_lt_of_le hpj with rfl | hlt
    · obtain rfl := Option.some.inj (hout.symm.trans ha)
      rw [Option.some.inj ((opens_block_ktime hopen).symm.trans rfl)]
    · exact hclock.le hlt hout ha rfl (opens_block_ktime hopen)
  have htime := ktime?_isSome (f := Half.switchedIn?) (fun _ => rfl) hin
  obtain ⟨ev, hspan, hty, hpid, htid, hcomm, hkey⟩ := exists_spansFrom hclock hjq hb ha (opens_block_ktime hopen) htime 0
    v.tgid evt.prevPid.toUInt32 eventSchedBlock v.comm
  have hp := (switchIn_produces_iff ho.target hclock hb hin).mpr ⟨v, hv, hspan, hty, hpid, htid, hcomm, hkey⟩
  have hwritten : WrittenAt n steps (TraceEvent.ofEvent ev) q b := by
    refine ⟨hb, ?_⟩
    rw [Half.writes, ho.kept.ring b (List.mem_of_getElem? hb), if_neg (by decide), hp]
    rfl
  refine ⟨TraceEvent.ofEvent ev, hrec.mem_iff.mpr ⟨q, b, hwritten⟩, hty, htid, ?_, hspan.1⟩
  have hstarts : (TraceEvent.ofEvent ev).starts = v.ts.toNat := by
    show ev.timestampNs.toNat - ev.durationNs.toNat = v.ts.toNat
    rw [hspan.2, Nat.add_sub_cancel_right]
  rw [hstarts]
  exact hts

/-- A stall is recorded within a wait exactly when the thread was switched out in it. -/
theorem Orderly.stallWithin_iff (ho : Orderly n T steps) (hrec : Recorded n steps events) {f : TraceEvent}
    (hf : f ∈ events) (hft : f.eventType = eventFutexWait) : StallWithin events f ↔ SwitchedOutWithin steps f := by
  have hclock := ho.clock.nonDecreasing
  refine ⟨?_, ?_⟩
  · rintro ⟨s, hs, hst, htid, hstart, hend⟩
    obtain ⟨h, evt, hmem, hprev, hstate, htime⟩ := hrec.switchOut hclock hs hst
    have hspan : s.starts ≤ s.ends := Nat.sub_le _ _
    exact ⟨h, evt, hmem, hprev.trans htid, hstate, by omega, by omega⟩
  · rintro ⟨h, evt, hmem, hprev, hstate, hafter, hbefore⟩
    obtain ⟨j, i, h', evt', g, hji, henter, hexit, htid', hg', htid, hstarts, hends, ht⟩ :=
      hrec.call_entered ho.target hclock hf hft
    obtain ⟨p, hout⟩ := List.mem_iff_getElem?.mp hmem
    -- The switch-out is between the enter and the return, since the clock moves on between two programs.
    have hjp : j < p := by
      rcases Nat.lt_trichotomy j p with hlt | rfl | hgt
      · exact hlt
      · cases henter.symm.trans hout
      · rcases clock_halves ho.clock hgt hout henter with hr | ⟨_, _, -, he⟩
        · have := UInt64.lt_iff_toNat_lt.mp (hr _ _ rfl rfl)
          omega
        · cases he
    have hpi : p < i := by
      rcases Nat.lt_trichotomy p i with hlt | rfl | hgt
      · exact hlt
      · cases hout.symm.trans hexit
      · have := ho.clock.lt hgt hexit hout rfl rfl (fun _ _ he => by cases he)
        omega
    have hgT : h.currentTgid = T := by
      have hc : (f.tid, T) ∈ contexts steps :=
        List.mem_filterMap.mpr ⟨_, List.mem_of_getElem? henter, by rw [← htid', ← hg']; rfl⟩
      have hc' : (f.tid, h.currentTgid) ∈ contexts steps :=
        List.mem_filterMap.mpr ⟨_, hmem, by rw [← hprev]; rfl⟩
      exact (ho.tids _ hc _ hc' rfl).symm
    obtain ⟨q, b, hpq, hqi, hb, hin, hno⟩ := exists_resume ho.cpu hout (by rw [hgT]; exact ho.target.1) hpi hexit
      (by rw [hprev, ← htid]; rfl) rfl
    obtain ⟨s, hs, hst, hstid, hstart, hend⟩ := ho.exists_stall hrec hout hstate hgT
      (target_stays ho.target hjp.le ht) hpq hb hin hno
    refine ⟨s, hs, hst, hstid.trans hprev, hafter.trans hstart, ?_⟩
    have := hclock.le hqi hb hexit hend rfl
    rw [← hends]
    exact this

end Within

/-! ### Deeper lines -/

/-- A wait behind the first event of a path is the last one a waker of the path returned from before its wake. -/
theorem MaximalPath.prior {events : List TraceEvent} {wakes : Nat} {e : TraceEvent} {path : List TraceEvent}
    (h : MaximalPath events wakes (e :: path)) {f : TraceEvent} (hf : f ∈ path) (hft : f.eventType = eventFutexWait) :
    ∃ u ∈ e :: path, u.eventType = eventFutexWake ∧ IsPriorFutex events u.tid u.starts f := by
  induction path generalizing wakes e with
  | nil => cases hf
  | cons e' path ih =>
    rcases List.mem_cons.mp hf with rfl | hf
    · rcases h.1 with ⟨-, hu⟩ | ⟨het, -, hp | hp⟩
      · exact absurd ((IsLastMax.prop hu).1.symm.trans hft) (by decide)
      · exact ⟨e, List.mem_cons_self, het, hp⟩
      · exact absurd (hp.1.prop.1.symm.trans hft) (by decide)
    · obtain ⟨u, hu, hut, hprior⟩ := ih h.2 hf
      exact ⟨u, List.mem_cons_of_mem _ hu, hut, hprior⟩

/-- In every run as the kernel makes it: a deeper line that says a thread was blocked on a futex stands for a recorded
    wait of the thread that it returned from in the window before its wake call. A stall of the thread is recorded in
    the span of the wait exactly when the thread was switched out there, in a state other than running. -/
theorem deeper_waits (n : Sizes) {T : UInt32} {steps : List Step} (ho : Orderly n T steps) {trace : TraceFile}
    (hrec : Recorded n steps trace.events) (host : Host) (b : TraceEvent) (names : DevNames) :
    ∃ path, StallPath trace.events b path ∧
      (explainOneStall host b trace (Typed.partition trace.events) names).1.lines =
        chainLines host names trace b path ∧
      ∀ f ∈ path.tail, f.eventType = eventFutexWait →
        pathLine host names f = .priorFutex f.tid f.durationNs f.key ∧ f ∈ trace.events ∧
        (∃ u ∈ path, u.eventType = eventFutexWake ∧ u.tid = f.tid ∧ f.ends ≤ u.starts ∧ u.starts ≤ f.ends + window) ∧
        (StallWithin trace.events f ↔ SwitchedOutWithin steps f) := by
  obtain ⟨path, hpath, hmem, -, hlines⟩ := exists_stallPath host trace b names
  refine ⟨path, hpath, hlines, ?_⟩
  intro f hf hft
  have hfmem := hmem f (List.mem_of_mem_tail hf)
  refine ⟨pathLine_wait hft, hfmem, ?_, ho.stallWithin_iff hrec hfmem hft⟩
  rcases stallPath_iff.mp hpath with ⟨rfl, -⟩ | ⟨e, p, rfl, -, hmax⟩
  · cases hf
  · obtain ⟨u, hu, hut, hprior⟩ := hmax.prior hf hft
    obtain ⟨-, htid, hbefore, hwin⟩ := hprior.1.prop
    exact ⟨u, hu, hut, htid.symm, hbefore, hwin⟩

/-- Thread 8 sleeps in a wait from 5 to 30. Thread 9 is in a wait from 10 to 12 that returns at once, and wakes 8. -/
def earlyReturnRun : List Step :=
  [.setTargetTgid 7, .futexEnter (.inThread 5 7 8) (futexArgs 0x1000 0), .schedSwitch (.inThread 6 7 8) (switch 8 1 0),
    .futexEnter (.inThread 10 7 9) (futexArgs 0x2000 0), .futexExit (.inThread 12 7 9),
    .futexEnter (.inThread 20 7 9) (futexArgs 0x1000 1), .futexExit (.inThread 22 7 9),
    .schedSwitch (.inThread 25 0 0) (switch 0 0 8), .futexExit (.inThread 30 7 8)]

theorem orderly_earlyReturnRun : Orderly Sizes.source 7 earlyReturnRun := by decide

/-- The wait of thread 9 that returned at once. -/
def earlyReturn : TraceEvent := ⟨12, 2, 0x2000, 7, 9, eventFutexWait, ""⟩

/-- The stall of thread 8. -/
def wokenStall : TraceEvent := ⟨25, 19, 0, 7, 8, eventSchedBlock, ""⟩

theorem lines_earlyReturnRun (host : Host) (names : DevNames) :
    (explainOneStall host wokenStall (traceOf earlyReturnRun) (Typed.partition (traceOf earlyReturnRun).events)
      names).1.lines = [.blockedOnFutex 6 8 19 0x1000, .wokenBy 9, .priorFutex 9 2 0x2000] := rfl

/-- In `earlyReturnRun` thread 9 never leaves its CPU, and it is reported as blocked. -/
theorem earlyReturnRun_no_stall : Orderly Sizes.source 7 earlyReturnRun ∧
    wokenStall ∈ (traceOf earlyReturnRun).events ∧
    (traceOf earlyReturnRun).events.filter (fun e => e.eventType = eventFutexWait ∧ e.tid = 9) = [earlyReturn] ∧
    (∀ host names, Line.priorFutex earlyReturn.tid earlyReturn.durationNs earlyReturn.key ∈
      (explainOneStall host wokenStall (traceOf earlyReturnRun) (Typed.partition (traceOf earlyReturnRun).events)
        names).1.lines) ∧
    ¬StallWithin (traceOf earlyReturnRun).events earlyReturn := by
  refine ⟨orderly_earlyReturnRun, by decide, by decide, ?_, ?_⟩
  · intro host names
    rw [lines_earlyReturnRun]
    simp [earlyReturn]
  · rintro ⟨s, hs, hst, htid, -⟩
    have hall : ∀ e ∈ (traceOf earlyReturnRun).events, e.eventType = eventSchedBlock → e.tid ≠ 9 := by decide
    exact hall s hs hst htid

theorem deeper_waits_earlyReturnRun : Orderly Sizes.source 7 earlyReturnRun ∧ ∀ host names, ∃ path,
    StallPath (traceOf earlyReturnRun).events wokenStall path ∧
      path.tail.map (pathLine host names) = [.wokenBy 9, .priorFutex 9 2 0x2000] ∧
      ∀ f ∈ path.tail, f.eventType = eventFutexWait →
        (StallWithin (traceOf earlyReturnRun).events f ↔ SwitchedOutWithin earlyReturnRun f) := by
  refine ⟨orderly_earlyReturnRun, ?_⟩
  intro host names
  obtain ⟨path, hpath, hlines, hwaits⟩ := deeper_waits Sizes.source orderly_earlyReturnRun
    (recorded_traceOf earlyReturnRun) host wokenStall names
  rw [lines_earlyReturnRun] at hlines
  exact ⟨path, hpath, (congrArg List.tail hlines).symm, fun f hf hft => (hwaits f hf hft).2.2.2⟩

end Whyslow
