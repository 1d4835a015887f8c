import Whyslow.Theorems.Explain

/-! What a chain depends on. A map of events that takes the causes and the hops of one trace to those of another one
    takes the path of a stall to the path of its image (`Carries.stallPath`). With the identity for the map this says
    which changes of a trace leave its chains as they are: another order of the events, when no lookup has a tie, and
    fewer events, when they are too far away in time. -/

namespace Whyslow
open Extremum

/-- `ren` takes the path of the stall `b` of `events` to one of `events'`; `Inv` holds along the path. -/
structure Carries (ren : TraceEvent → TraceEvent) (Inv : Nat → TraceEvent → Prop) (events events' : List TraceEvent)
    (b : TraceEvent) : Prop where
  type : ∀ e, (ren e).eventType = e.eventType
  resume : ∀ x, ResumeEvent events' (ren b) x ↔ ∃ e, x = ren e ∧ ResumeEvent events b e
  start : ∀ e, ResumeEvent events b e → Inv 0 e
  hop : ∀ wakes e, Inv wakes e → ∀ x, Hop events' wakes (ren e) x ↔ ∃ e', x = ren e' ∧ Hop events wakes e e'
  next : ∀ wakes e e', Inv wakes e → Hop events wakes e e' → Inv (countWake wakes e') e'

section Carries
variable {ren : TraceEvent → TraceEvent} {Inv : Nat → TraceEvent → Prop} {events events' : List TraceEvent}
  {b e : TraceEvent} {path : List TraceEvent}

theorem Carries.maximalPath (h : Carries ren Inv events events' b) {wakes : Nat} (he : Inv wakes e)
    (hpath : MaximalPath events wakes (e :: path)) : MaximalPath events' wakes (ren e :: path.map ren) := by
  induction path generalizing wakes e with
  | nil =>
    intro x hx
    obtain ⟨e', -, he'⟩ := (h.hop wakes e he x).mp hx
    exact hpath e' he'
  | cons e' path ih =>
    have hcount : countWake wakes (ren e') = countWake wakes e' := by rw [countWake, countWake, h.type]
    refine ⟨(h.hop wakes e he _).mpr ⟨e', rfl, hpath.1⟩, ?_⟩
    rw [hcount]
    exact ih (h.next wakes e e' he hpath.1) hpath.2

theorem Carries.stallPath (h : Carries ren Inv events events' b) (hpath : StallPath events b path) :
    StallPath events' (ren b) (path.map ren) := by
  rw [stallPath_iff] at hpath ⊢
  rcases hpath with ⟨rfl, hno⟩ | ⟨e, p, rfl, he, hmax⟩
  · refine Or.inl ⟨rfl, ?_⟩
    intro x hx
    obtain ⟨e, -, he⟩ := (h.resume x).mp hx
    exact hno e he
  · exact Or.inr ⟨ren e, p.map ren, rfl, (h.resume _).mpr ⟨e, rfl, he⟩, h.maximalPath (h.start e he) hmax⟩

end Carries

theorem stallChain_lines {host : Host} {trace : TraceFile} {b : TraceEvent} {path : List TraceEvent}
    (h : StallPath trace.events b path) : (stallChain host trace b).lines = chainLines host .new trace b path := by
  obtain ⟨path', hpath', -, -, hlines⟩ := exists_stallPath host trace b .new
  rw [h.unique hpath']
  exact hlines

/-- Two traces with the same paths and anchors have the same chains. -/
theorem stallChain_eq_of_carries {host : Host} {trace : TraceFile} {events' : List TraceEvent}
    {Inv : Nat → TraceEvent → Prop} {b : TraceEvent} (h : Carries id Inv trace.events events' b) :
    stallChain host { trace with events := events' } b = stallChain host trace b := by
  obtain ⟨path, hpath, -, -, -⟩ := exists_stallPath host trace b .new
  have hpath' : StallPath events' b path := by simpa using h.stallPath hpath
  have hlines : (stallChain host { trace with events := events' } b).lines = (stallChain host trace b).lines :=
    (stallChain_lines hpath').trans (stallChain_lines hpath).symm
  cases hc : stallChain host { trace with events := events' } b
  cases hc' : stallChain host trace b
  rw [hc, hc'] at hlines
  exact congrArg Chain.mk hlines

/-! ### Another order -/

/-- No lookup and no comparison of stalls has a tie. -/
structure NoTies (events : List TraceEvent) : Prop where
  waits : events.Pairwise fun a b => a.eventType = eventFutexWait → b.eventType = eventFutexWait → a.tid = b.tid →
    a.timestampNs ≠ b.timestampNs
  requests : events.Pairwise fun a b => a.eventType = eventBlockIo → b.eventType = eventBlockIo → a.tid = b.tid →
    a.timestampNs ≠ b.timestampNs
  wakes : events.Pairwise fun a b => a.eventType = eventFutexWake → b.eventType = eventFutexWake → a.key = b.key →
    a.timestampNs ≠ b.timestampNs
  stalls : events.Pairwise fun a b => a.eventType = eventSchedBlock → b.eventType = eventSchedBlock →
    a.durationNs ≠ b.durationNs

section Order
variable {events events' : List TraceEvent} {tid : UInt32} {win : Nat → Prop} {x : TraceEvent}

/-- Where no two events of a type agree on `f` and on their time, the candidates of a lookup by `f` have no tie. -/
theorem pairwise_candidate {type : UInt8} {K : Type} {f : TraceEvent → K} {k : K}
    (h : events.Pairwise fun a b => a.eventType = type → b.eventType = type → f a = f b →
      a.timestampNs ≠ b.timestampNs) :
    events.Pairwise fun a b => Candidate type (f · = k) win a → Candidate type (f · = k) win b → a.ends ≠ b.ends := by
  refine h.imp ?_
  intro a b hab ha hb heq
  exact hab ha.1 hb.1 (ha.2.1.trans hb.2.1.symm) (UInt64.toNat_inj.mp heq)

theorem NoTies.waitOf (h : NoTies events) : events.Pairwise fun a b => WaitOf tid win a → WaitOf tid win b →
    a.ends ≠ b.ends := pairwise_candidate h.waits

theorem NoTies.ioOf (h : NoTies events) : events.Pairwise fun a b => IoOf tid win a → IoOf tid win b →
    a.ends ≠ b.ends := pairwise_candidate h.requests

theorem NoTies.wakeOf (h : NoTies events) {key : UInt64} : events.Pairwise fun a b =>
    Candidate eventFutexWake (·.key = key) win a → Candidate eventFutexWake (·.key = key) win b → a.ends ≠ b.ends :=
  pairwise_candidate h.wakes

theorem hop_perm (hperm : events.Perm events') (h : NoTies events) {wakes : Nat} {e : TraceEvent} :
    Hop events' wakes e x ↔ Hop events wakes e x := by
  simp only [Hop, IsWaker, IsLatest, IsPriorFutex, IsPriorBlockIo, isLastMax_perm hperm h.waitOf,
    isLastMax_perm hperm h.ioOf, isLastMax_perm hperm h.wakeOf, hperm.mem_iff]

theorem resumeEvent_perm (hperm : events.Perm events') (h : NoTies events) {b : TraceEvent} :
    ResumeEvent events' b x ↔ ResumeEvent events b x := by
  simp only [ResumeEvent, IsResumeFutex, IsResumeBlockIo, isFirstMin_perm hperm h.waitOf,
    isLastMax_perm hperm h.ioOf, hperm.mem_iff]

theorem carries_perm (hperm : events.Perm events') (h : NoTies events) (b : TraceEvent) :
    Carries id (fun _ _ => True) events events' b where
  type _ := rfl
  resume x := by simp [resumeEvent_perm hperm h]
  start _ _ := trivial
  hop _ _ _ x := by simp [hop_perm hperm h]
  next _ _ _ _ _ := trivial

theorem slowestStalls_perm (hperm : events.Perm events') (h : NoTies events) (slowest : Nat) :
    slowestStalls events' slowest = slowestStalls events slowest := by
  unfold slowestStalls
  congr 1
  refine (Sorting.mergeSort_eq_of_perm longer_trans longer_total (hperm.filter _) ?_).symm
  refine (h.stalls.filter _).imp_of_mem ?_
  intro a b ha hb hab hle
  have hat := of_decide_eq_true (List.mem_filter.mp ha).2
  have hbt := of_decide_eq_true (List.mem_filter.mp hb).2
  exact hab hat hbt (UInt64.le_antisymm (of_decide_eq_true hle.2) (of_decide_eq_true hle.1))

end Order

/-- The report does not depend on the order of the events, if no two waits or two requests of one thread, no two wakes
    on one address have the same time, and no two stalls the same length. -/
theorem explain_perm (host : Host) (trace : TraceFile) {events' : List TraceEvent} (hperm : trace.events.Perm events')
    (h : NoTies trace.events) (slowest : Nat) :
    explain host { trace with events := events' } slowest = explain host trace slowest := by
  rw [explain_eq_map, explain_eq_map, slowestStalls_perm hperm h slowest]
  refine List.map_congr_left ?_
  intro b _
  exact stallChain_eq_of_carries (carries_perm hperm h b)

/-- A stall of thread 8 from 20 to 30, and the wait from 10 to 40 that contains it. -/
def stallInWait : List TraceEvent := [⟨30, 10, 0, 7, 8, eventSchedBlock, ""⟩, ⟨40, 30, 0x1000, 7, 8, eventFutexWait, ""⟩]

theorem explain_perm_stallInWait : NoTies stallInWait ∧ ∀ host slowest,
    explain host ⟨0, 0, stallInWait.reverse⟩ slowest = explain host ⟨0, 0, stallInWait⟩ slowest := by
  have h : NoTies stallInWait := ⟨by decide, by decide, by decide, by decide⟩
  refine ⟨h, ?_⟩
  intro host slowest
  exact explain_perm host ⟨0, 0, stallInWait⟩ (List.reverse_perm _).symm h slowest

end Whyslow
