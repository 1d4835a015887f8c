import Whyslow.Theorems.Wakers

/-! The real waker of a wait. A run is extended by the moments at which the kernel, inside a wake call, makes a waiter
    runnable. The waiter may return before its waker does, and then the wake is not yet among the candidates when the
    walk looks back from the wait's return. -/

namespace Whyslow
open Runs Extremum

/-! ### The kernel -/

/-- A program of the run, or the kernel's wake of `waiter` inside a call of `waker`. -/
inductive KernelStep where
  | probe (st : Step)
  | wake (waker waiter : UInt32)
  deriving DecidableEq

structure FutexCall where
  uaddr : UInt64
  op : UInt32
  woken : Bool
  deriving DecidableEq

/-- The futex call each thread is in. -/
abbrev Kernel := UInt32 → Option FutexCall

/-- A thread enters a call only outside any. The kernel wakes a waiter, once, on the address of the wake call. All else
    may happen at any time; in particular a wait may return woken or not. -/
def Kernel.Allows (k : Kernel) : KernelStep → Prop
  | .probe (.futexEnter h ctx) => k h.currentTid = none ∧ ctx.isSome
  | .probe _ => True
  | .wake waker waiter => ∃ c ∈ k waker, ∃ c' ∈ k waiter, c'.woken = false ∧ c.uaddr = c'.uaddr ∧
      futexEventType c.op = some eventFutexWake ∧ futexEventType c'.op = some eventFutexWait

instance Kernel.decidableAllows (k : Kernel) : (a : KernelStep) → Decidable (k.Allows a)
  | .probe (.futexEnter h ctx) => inferInstanceAs (Decidable (k h.currentTid = none ∧ ctx.isSome))
  | .probe (.setTargetTgid _) | .probe (.schedSwitch _ _) | .probe (.futexExit _) | .probe (.blockRqIssue _ _)
  | .probe (.blockRqComplete _ _) => isTrue trivial
  | .wake _ _ => inferInstanceAs (Decidable (∃ _ ∈ _, ∃ _ ∈ _, _))

def Kernel.next (k : Kernel) : KernelStep → Kernel
  | .probe (.futexEnter h (some evt)) =>
    Function.update k h.currentTid (some ⟨evt.uaddr, evt.op, false⟩)
  | .probe (.futexExit h) => Function.update k h.currentTid none
  | .probe _ => k
  | .wake _ waiter => Function.update k waiter ((k waiter).map fun c => { c with woken := true })

def KernelStep.probe? : KernelStep → Option Step
  | .probe st => some st
  | .wake _ _ => none

def probes (ws : List KernelStep) : List Step := ws.filterMap KernelStep.probe?

def reached (ws : List KernelStep) (p : Nat) : Nat := (halves (probes (ws.take p))).length

section Run
variable {k₀ : Kernel} {ws : List KernelStep}

theorem halves_probes_take_succ {p : Nat} {a : KernelStep} (ha : ws[p]? = some a) :
    halves (probes (ws.take (p + 1))) = halves (probes (ws.take p)) ++ (a.probe?.map Step.halves).getD [] := by
  rw [List.take_add_one, ha, probes, probes, Option.toList_some, List.filterMap_append]
  cases a <;> simp [halves, KernelStep.probe?]

theorem halves_probes_take_prefix (ws : List KernelStep) (p : Nat) :
    halves (probes (ws.take p)) <+: halves (probes ws) := by
  refine ⟨halves (probes (ws.drop p)), ?_⟩
  unfold halves probes
  rw [← List.flatMap_append, ← List.filterMap_append, List.take_append_drop]

theorem getElem?_of_lt_reached {p k : Nat} (hk : k < reached ws p) :
    (halves (probes (ws.take p)))[k]? = (halves (probes ws))[k]? := by
  obtain ⟨rest, hrest⟩ := halves_probes_take_prefix ws p
  rw [← hrest, List.getElem?_append_left hk]

/-! ### Calls in progress -/

theorem Kernel.next_call {k : Kernel} {a : KernelStep} {tid : UInt32} {c : FutexCall} (hallow : k.Allows a)
    (hc : k tid = some c) (hne : ∀ h, a = .probe (.futexExit h) → h.currentTid ≠ tid) :
    ∃ c', k.next a tid = some c' ∧ c'.uaddr = c.uaddr ∧ c'.op = c.op := by
  match a with
  | .probe (.futexEnter h (some evt)) =>
    have htid : tid ≠ h.currentTid := by
      rintro rfl
      rw [hallow.1] at hc
      cases hc
    exact ⟨c, (Function.update_of_ne htid _ _).trans hc, rfl, rfl⟩
  | .probe (.futexEnter h none) => exact ⟨c, hc, rfl, rfl⟩
  | .probe (.futexExit h) => exact ⟨c, (Function.update_of_ne (hne h rfl).symm _ _).trans hc, rfl, rfl⟩
  | .probe (.setTargetTgid _) => exact ⟨c, hc, rfl, rfl⟩
  | .probe (.schedSwitch _ _) => exact ⟨c, hc, rfl, rfl⟩
  | .probe (.blockRqIssue _ _) => exact ⟨c, hc, rfl, rfl⟩
  | .probe (.blockRqComplete _ _) => exact ⟨c, hc, rfl, rfl⟩
  | .wake _ waiter =>
    by_cases hw : tid = waiter
    · subst hw
      exact ⟨{ c with woken := true }, by simp [Kernel.next, hc], rfl, rfl⟩
    · exact ⟨c, (Function.update_of_ne hw _ _).trans hc, rfl, rfl⟩

theorem eq_of_mem_halves_futexEnter {st : Step} {h : Helpers} {evt : TraceEventRawSysEnter}
    (hm : .futexEnter h evt ∈ st.halves) : st = .futexEnter h (some evt) := by
  unfold Step.halves at hm
  split at hm <;> simp at hm
  obtain ⟨rfl, rfl⟩ := hm
  rfl

/-- A thread that entered a call in the first halves of a run, and did not return in them, is in that call. -/
theorem call_in_progress (hallow : Allowed Kernel.next Kernel.Allows k₀ ws) (p : Nat) {j : Nat} {h : Helpers}
    {evt : TraceEventRawSysEnter} (henter : (halves (probes (ws.take p)))[j]? = some (.futexEnter h evt))
    (hno : ∀ k, j < k → ∀ a, (halves (probes (ws.take p)))[k]? = some a → a.exitedFutex? ≠ some h.currentTid) :
    ∃ c, stateAt Kernel.next k₀ ws p h.currentTid = some c ∧ c.uaddr = evt.uaddr ∧ c.op = evt.op := by
  induction p with
  | zero => cases henter
  | succ p ih =>
    cases ha : ws[p]? with
    | none =>
      have hsame : ws.take (p + 1) = ws.take p := by rw [List.take_add_one, ha]; exact List.append_nil _
      rw [hsame] at henter hno
      rw [stateAt_succ_of_none ha]
      exact ih henter hno
    | some a =>
      rw [halves_probes_take_succ ha] at henter hno
      rw [stateAt_succ ha]
      rcases Nat.lt_or_ge j (reached ws p) with hlt | hge
      · -- The call was entered before this step, which is no return from it.
        rw [List.getElem?_append_left hlt] at henter
        have hbefore := ih henter fun k hjk b hb => hno k hjk b (by
          rw [List.getElem?_append_left (List.getElem?_eq_some_iff.mp hb).1]
          exact hb)
        obtain ⟨c, hc, haddr, hop⟩ := hbefore
        obtain ⟨c', hc', haddr', hop'⟩ := Kernel.next_call (hallow.at ha) hc fun g hg htid => by
          subst hg
          refine hno (reached ws p) hlt (.futexExit g) ?_ (congrArg some htid)
          rw [reached, List.getElem?_append_right (Nat.le_refl _), Nat.sub_self]
          rfl
        exact ⟨c', hc', haddr'.trans haddr, hop'.trans hop⟩
      · -- This step enters the call.
        rw [List.getElem?_append_right hge] at henter
        have hmem := List.mem_of_getElem? henter
        cases a with
        | probe st =>
          obtain rfl := eq_of_mem_halves_futexEnter hmem
          exact ⟨⟨evt.uaddr, evt.op, false⟩, Function.update_self _ _ _, rfl, rfl⟩
        | wake waker waiter => cases hmem

theorem call_of_event (hallow : Allowed Kernel.next Kernel.Allows k₀ ws) {n : Sizes} {e : TraceEvent} {j i p : Nat}
    (hcall : Call n (probes ws) e j i) (hjp : j < reached ws p) (hpi : reached ws p ≤ i) :
    ∃ c, stateAt Kernel.next k₀ ws p e.tid = some c ∧ c.uaddr = e.key := by
  obtain ⟨h, evt, henter, htid, -, hkey, -⟩ := hcall.enter
  rw [← getElem?_of_lt_reached hjp] at henter
  obtain ⟨c, hc, haddr, -⟩ := call_in_progress hallow p henter fun k hjk a ha => by
    have hk : k < reached ws p := (List.getElem?_eq_some_iff.mp ha).1
    rw [getElem?_of_lt_reached hk] at ha
    rw [htid]
    exact hcall.within k hjk (by omega) a ha
  exact ⟨c, htid ▸ hc, haddr.trans hkey⟩

end Run

/-! ### The real waker -/

/-- The kernel's wake of the thread of `f` by that of `u` comes while both calls are in progress. -/
def Wakes (n : Sizes) (ws : List KernelStep) (u f : TraceEvent) : Prop :=
  ∃ p, ws[p]? = some (.wake u.tid f.tid) ∧
    (∃ j i, Call n (probes ws) u j i ∧ j < reached ws p ∧ reached ws p ≤ i) ∧
    ∃ j i, Call n (probes ws) f j i ∧ j < reached ws p ∧ reached ws p ≤ i

/-- No thread but that of `u` makes a wake call on the address of `f` from the start of `f` to the end of both. -/
def NoOtherWake (ws : List KernelStep) (u f : TraceEvent) : Prop :=
  ∀ h evt, .probe (.futexEnter h (some evt)) ∈ ws → futexEventType evt.op = some eventFutexWake → evt.uaddr = f.key →
    h.currentTid ≠ u.tid → h.ktimeGetNs.toNat < f.starts ∨ max f.ends u.ends < h.ktimeGetNs.toNat

theorem Wakes.key_eq {n : Sizes} {k₀ : Kernel} {ws : List KernelStep} {u f : TraceEvent}
    (hallow : Allowed Kernel.next Kernel.Allows k₀ ws) (hwakes : Wakes n ws u f) : u.key = f.key := by
  obtain ⟨p, hp, ⟨j, i, hcall, hjp, hpi⟩, j', i', hcall', hjp', hpi'⟩ := hwakes
  obtain ⟨c, hc, c', hc', -, haddr, -⟩ := hallow.at hp
  obtain ⟨d, hd, hdaddr⟩ := call_of_event hallow hcall hjp hpi
  obtain ⟨d', hd', hdaddr'⟩ := call_of_event hallow hcall' hjp' hpi'
  obtain rfl := Option.some.inj (hc.symm.trans hd)
  obtain rfl := Option.some.inj (hc'.symm.trans hd')
  rw [← hdaddr, haddr, hdaddr']

def WakeBy (tid : UInt32) (f e : TraceEvent) : Prop :=
  e.eventType = eventFutexWake ∧ e.key = f.key ∧ e.tid = tid

def WakeByOther (tid : UInt32) (f e : TraceEvent) : Prop :=
  e.eventType = eventFutexWake ∧ e.key = f.key ∧ e.tid ≠ tid

section Waker
variable {host : Host} {names : DevNames} {depth : Nat} {lines : List Line} {events : List TraceEvent}
  {f x : TraceEvent} {tid : UInt32}

theorem reports_of_last (hx : x ∈ events) (hby : WakeBy tid f x) (hwin : Before f.ends x.ends)
    (hlast : ∀ v ∈ events, WakeByOther tid f v → v.ends < x.ends ∨ f.ends < v.ends) :
    Reports host names depth lines events f tid := by
  refine reports_iff.mpr ?_
  cases hl : linkedWake events f with
  | none => exact absurd ⟨hby.1, hby.2.1, hwin⟩ (linkedWake_eq_none_iff.mp hl x hx)
  | some y =>
    have hwaker := linkedWake_eq_some_iff.mp hl
    obtain ⟨hyt, hykey, hywin⟩ := IsLastMax.prop hwaker
    refine ⟨y, rfl, by_contra fun hytid => ?_⟩
    have hle := IsLastMax.le hwaker hx ⟨hby.1, hby.2.1, hwin⟩
    have hyle : y.ends ≤ f.ends := hywin.1
    have := hlast y (IsLastMax.mem hwaker) ⟨hyt, hykey, hytid⟩
    omega

/-- A reported thread has a wake in the window, and no other thread's returned later in it. -/
theorem exists_last_of_reports (h : Reports host names depth lines events f tid) :
    ∃ x ∈ events, WakeBy tid f x ∧ Before f.ends x.ends ∧
      ∀ v ∈ events, WakeByOther tid f v → v.ends ≤ x.ends ∨ f.ends < v.ends := by
  obtain ⟨x, hx, hxtid⟩ := reports_iff.mp h
  have hwaker := linkedWake_eq_some_iff.mp hx
  obtain ⟨hxt, hxkey, hwin⟩ := IsLastMax.prop hwaker
  refine ⟨x, IsLastMax.mem hwaker, ⟨hxt, hxkey, hxtid⟩, hwin, ?_⟩
  intro v hv hother
  by_contra hlate
  have hfar : f.ends ≤ x.ends + window := hwin.2
  have := IsLastMax.le hwaker hv ⟨hother.1, hother.2.1, by omega, by omega⟩
  omega

end Waker

theorem mem_of_mem_halves_futexEnter {ws : List KernelStep} {h : Helpers} {evt : TraceEventRawSysEnter}
    (hm : .futexEnter h evt ∈ halves (probes ws)) : .probe (.futexEnter h (some evt)) ∈ ws := by
  obtain ⟨st, hst, hm⟩ := List.mem_flatMap.mp hm
  obtain ⟨a, ha, hstep⟩ := List.mem_filterMap.mp hst
  obtain rfl := eq_of_mem_halves_futexEnter hm
  cases a with
  | probe st =>
    cases hstep
    exact ha
  | wake waker waiter => cases hstep

/-- Another thread's wake on the address that returned by the end of `f` was in progress when `f` began. -/
theorem NoOtherWake.starts_before {n : Sizes} {ws : List KernelStep} {events : List TraceEvent} {u f v : TraceEvent}
    (hno : NoOtherWake ws u f) (hclock : ClockNonDecreasing (probes ws)) (hrec : Recorded n (probes ws) events)
    (hv : v ∈ events) (hother : WakeByOther u.tid f v) (hend : v.ends ≤ f.ends) : v.starts < f.starts := by
  obtain ⟨hvt, hvkey, hvtid⟩ := hother
  obtain ⟨j, i, hcall⟩ := hrec.call hclock hv (Or.inr hvt)
  obtain ⟨h, evt, henter, htid, hstarts, hkey, hty⟩ := hcall.enter
  have hmem := mem_of_mem_halves_futexEnter (List.mem_of_getElem? henter)
  have hspan : v.starts ≤ v.ends := Nat.sub_le _ _
  rcases hno h evt hmem (hty.trans (congrArg some hvt)) (hkey.trans hvkey) (by rw [htid]; exact hvtid) with hlt | hgt
  · omega
  · omega

/-- In every run the kernel allows, when the wake `u` ended the wait `f`, within the window of each other, and no other
    thread made a wake call on the address meanwhile. The thread of `u` is reported when `u` returned by the end of `f`
    and no other thread's wake on the address that was in progress when `f` began returned between the two. It is not
    reported when `u` returned after `f` and its thread had no other wake on the address in the window. With a clock that
    moves on between programs it is reported exactly when a wake of the thread on the address returned in the window and
    none of those others after it by the end of `f`. -/
theorem waker_reported_iff (n : Sizes) {k₀ : Kernel} {ws : List KernelStep}
    (hallow : Allowed Kernel.next Kernel.Allows k₀ ws) (hclock : ClockNonDecreasing (probes ws))
    {events : List TraceEvent} (hrec : Recorded n (probes ws) events) {f u : TraceEvent} (hu : u ∈ events)
    (hut : u.eventType = eventFutexWake) (hwakes : Wakes n ws u f)
    (hnear : u.ends ≤ f.ends + window ∧ f.ends ≤ u.ends + window) (hno : NoOtherWake ws u f) (host : Host)
    (names : DevNames) (depth : Nat) (lines : List Line) :
    (u.ends ≤ f.ends →
      (∀ v ∈ events, WakeByOther u.tid f v → v.starts < f.starts → v.ends < u.ends ∨ f.ends < v.ends) →
      Reports host names depth lines events f u.tid) ∧
    (f.ends < u.ends → (∀ x ∈ events, WakeBy u.tid f x → x ≠ u → ¬Before f.ends x.ends) →
      ¬Reports host names depth lines events f u.tid) ∧
    (ClockIncreasing (probes ws) → (Reports host names depth lines events f u.tid ↔
      ∃ x ∈ events, WakeBy u.tid f x ∧ Before f.ends x.ends ∧
        ∀ v ∈ events, WakeByOther u.tid f v → v.starts < f.starts → v.ends < x.ends ∨ f.ends < v.ends)) := by
  have hby : WakeBy u.tid f u := ⟨hut, hwakes.key_eq hallow, rfl⟩
  -- Only the wakes that were in progress when `f` began can come in between.
  have hothers : ∀ x : TraceEvent,
      (∀ v ∈ events, WakeByOther u.tid f v → v.starts < f.starts → v.ends < x.ends ∨ f.ends < v.ends) →
      ∀ v ∈ events, WakeByOther u.tid f v → v.ends < x.ends ∨ f.ends < v.ends := by
    intro x hlast v hv hother
    rcases Nat.lt_or_ge f.ends v.ends with hafter | hbefore
    · exact Or.inr hafter
    · exact hlast v hv hother (hno.starts_before hclock hrec hv hother hbefore)
  refine ⟨fun hfirst hlast => ?_, fun hlate hnone hrep => ?_, fun hstrict => ⟨fun hrep => ?_, fun h => ?_⟩⟩
  · exact reports_of_last hu hby ⟨hfirst, hnear.2⟩ (hothers u hlast)
  · obtain ⟨x, hx, hxby, hwin, -⟩ := exists_last_of_reports hrep
    have hxle : x.ends ≤ f.ends := hwin.1
    refine hnone x hx hxby ?_ hwin
    intro hxu
    rw [hxu] at hxle
    omega
  · obtain ⟨x, hx, hxby, hwin, hlast⟩ := exists_last_of_reports hrep
    refine ⟨x, hx, hxby, hwin, ?_⟩
    intro v hv hother _
    rcases hlast v hv hother with hle | hgt
    · rcases Nat.eq_or_lt_of_le hle with heq | hlt
      · -- Two calls that return at the same time are one.
        obtain ⟨j, i, hcall⟩ := hrec.call hclock hx (Or.inr hxby.1)
        obtain ⟨j', i', hcall'⟩ := hrec.call hclock hv (Or.inr hother.1)
        have hsame := hcall.eq_of_ends_eq hstrict hcall' heq
        exact absurd (by rw [hsame]; exact hxby.2.2) hother.2.2
      · exact Or.inl hlt
    · exact Or.inr hgt
  · obtain ⟨x, hx, hxby, hwin, hlast⟩ := h
    exact reports_of_last hx hxby hwin (hothers x hlast)

/-- Thread 8 waits from 10, thread 9 wakes it from 20, the kernel makes it runnable, and the threads `first` and
    `second` return at 30 and 40. -/
def wakeupRun (first second : UInt32) : List KernelStep :=
  [.probe (.setTargetTgid 7), .probe (.futexEnter (.inThread 10 7 8) (futexArgs 0x1000 0)),
    .probe (.futexEnter (.inThread 20 7 9) (futexArgs 0x1000 1)), .wake 9 8,
    .probe (.futexExit (.inThread 30 7 first)), .probe (.futexExit (.inThread 40 7 second))]

theorem noOtherWake_wakeupRun (first second : UInt32) {u f : TraceEvent} (hu : u.tid = 9) :
    NoOtherWake (wakeupRun first second) u f := by
  intro h evt hmem htype _ hne
  simp only [wakeupRun, List.mem_cons, KernelStep.probe.injEq, Step.futexEnter.injEq, futexArgs, Option.some.injEq,
    reduceCtorEq, List.not_mem_nil, false_or, or_false] at hmem
  rcases hmem with ⟨rfl, rfl⟩ | ⟨rfl, rfl⟩
  · exact absurd htype (by decide)
  · exact absurd (by rw [hu]; decide) hne

theorem waker_reported_iff_wakeupRun : ∃ u f, (traceOf (probes (wakeupRun 9 8))).events = [u, f] ∧
    ∀ host names depth lines, Reports host names depth lines (traceOf (probes (wakeupRun 9 8))).events f u.tid := by
  refine ⟨⟨30, 10, 0x1000, 7, 9, 2, ""⟩, ⟨40, 30, 0x1000, 7, 8, 1, ""⟩, by decide, ?_⟩
  intro host names depth lines
  have hallow : Allowed Kernel.next Kernel.Allows (fun _ => none) (wakeupRun 9 8) := by decide
  have hclock : ClockNonDecreasing (probes (wakeupRun 9 8)) := by decide
  have hu : Call Sizes.source (probes (wakeupRun 9 8)) ⟨30, 10, 0x1000, 7, 9, 2, ""⟩ 2 3 :=
    ⟨by decide, ⟨_, _, rfl, rfl, rfl, rfl, by decide⟩, ⟨_, ⟨rfl, by decide⟩, rfl, rfl⟩, fun k h1 h2 => by omega⟩
  have hf : Call Sizes.source (probes (wakeupRun 9 8)) ⟨40, 30, 0x1000, 7, 8, 1, ""⟩ 1 4 := by
    refine ⟨by decide, ⟨_, _, rfl, rfl, rfl, rfl, by decide⟩, ⟨_, ⟨rfl, by decide⟩, rfl, rfl⟩, ?_⟩
    intro k h1 h2 a ha
    match k, ha with
    | 2, ha => cases ha; decide
    | 3, ha => cases ha; decide
  have hwakes : Wakes Sizes.source (wakeupRun 9 8) ⟨30, 10, 0x1000, 7, 9, 2, ""⟩ ⟨40, 30, 0x1000, 7, 8, 1, ""⟩ :=
    ⟨3, rfl, ⟨2, 3, hu, by decide, by decide⟩, 1, 4, hf, by decide, by decide⟩
  have h := waker_reported_iff Sizes.source hallow hclock (recorded_traceOf _) (by decide) rfl hwakes (by decide)
    (noOtherWake_wakeupRun 9 8 rfl) host names depth lines
  refine h.1 (by decide) ?_
  intro v hv hother _
  have hall : ∀ v ∈ (traceOf (probes (wakeupRun 9 8))).events, v.eventType = eventFutexWake → v.tid = 9 := by decide
  exact absurd (hall v hv hother.1) hother.2.2

/-- When the waiter returns first, its real waker is not found. -/
theorem wakeupRun_not_reported : Allowed Kernel.next Kernel.Allows (fun _ => none) (wakeupRun 8 9) ∧
    ClockIncreasing (probes (wakeupRun 8 9)) ∧
    ∃ f u, (traceOf (probes (wakeupRun 8 9))).events = [f, u] ∧ f.eventType = eventFutexWait ∧
      u.eventType = eventFutexWake ∧ Wakes Sizes.source (wakeupRun 8 9) u f ∧ u.ends ≤ f.ends + window ∧
      f.ends ≤ u.ends + window ∧ NoOtherWake (wakeupRun 8 9) u f ∧
      ∀ host names depth lines tid, ¬Reports host names depth lines (traceOf (probes (wakeupRun 8 9))).events f tid := by
  have hf : Call Sizes.source (probes (wakeupRun 8 9)) ⟨30, 20, 0x1000, 7, 8, 1, ""⟩ 1 3 := by
    refine ⟨by decide, ⟨_, _, rfl, rfl, rfl, rfl, by decide⟩, ⟨_, ⟨rfl, by decide⟩, rfl, rfl⟩, ?_⟩
    intro k h1 h2 a ha
    match k, ha with
    | 2, ha => cases ha; decide
  have hu : Call Sizes.source (probes (wakeupRun 8 9)) ⟨40, 20, 0x1000, 7, 9, 2, ""⟩ 2 4 := by
    refine ⟨by decide, ⟨_, _, rfl, rfl, rfl, rfl, by decide⟩, ⟨_, ⟨rfl, by decide⟩, rfl, rfl⟩, ?_⟩
    intro k h1 h2 a ha
    match k, ha with
    | 3, ha => cases ha; decide
  refine ⟨by decide, by decide, ⟨30, 20, 0x1000, 7, 8, 1, ""⟩, ⟨40, 20, 0x1000, 7, 9, 2, ""⟩, by decide, rfl, rfl,
    ⟨3, rfl, ⟨2, 4, hu, by decide, by decide⟩, 1, 3, hf, by decide, by decide⟩, by decide, by decide,
    noOtherWake_wakeupRun 8 9 rfl, ?_⟩
  intro host names depth lines tid hrep
  obtain ⟨u, hu, -⟩ := reports_iff.mp hrep
  have hnone : linkedWake (traceOf (probes (wakeupRun 8 9))).events ⟨30, 20, 0x1000, 7, 8, 1, ""⟩ = none := by decide
  rw [hnone] at hu
  cases hu

end Whyslow
