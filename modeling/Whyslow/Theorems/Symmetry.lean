import Whyslow.Theorems.Transport

/-! The report does not depend on the origin of the clock, the numbers of the threads or the addresses of the
    futexes. A trace moved to another origin, with its threads and addresses renamed, has the same chains under the
    same names: every comparison of the inference is between two times, two threads or two addresses, and both sides
    move along. -/

namespace Whyslow
open Extremum

/-- Another origin of the clock, and other names for the threads and the addresses of the futexes. -/
structure Relabel where
  shift : UInt64
  tid : UInt32 → UInt32
  key : UInt64 → UInt64

/-- The events whose key is the address of a futex. -/
def TraceEvent.isFutex (e : TraceEvent) : Bool := e.eventType == eventFutexWait || e.eventType == eventFutexWake

def Relabel.event (r : Relabel) (e : TraceEvent) : TraceEvent :=
  { e with
    timestampNs := e.timestampNs + r.shift
    tid := r.tid e.tid
    key := if e.isFutex then r.key e.key else e.key }

def Relabel.trace (r : Relabel) (trace : TraceFile) : TraceFile :=
  { trace with
    monotonicAnchorNs := trace.monotonicAnchorNs + r.shift
    events := trace.events.map r.event }

def Relabel.line (r : Relabel) : Line → Line
  | .blockedOnFutex wall tid duration key => .blockedOnFutex wall (r.tid tid) duration (r.key key)
  | .blockedOnBlockIo wall tid duration dev sector => .blockedOnBlockIo wall (r.tid tid) duration dev sector
  | .blockedUnknown wall tid duration => .blockedUnknown wall (r.tid tid) duration
  | .wokenBy tid => .wokenBy (r.tid tid)
  | .priorFutex tid duration key => .priorFutex (r.tid tid) duration (r.key key)
  | .priorBlockIo tid duration dev sector => .priorBlockIo (r.tid tid) duration dev sector

def Relabel.chain (r : Relabel) (chain : Chain) : Chain := ⟨chain.lines.map r.line⟩

/-- The spans of the trace lie after the origin of its clock, no time passes the end of the new clock, and different
    threads and different addresses of the trace keep different names. -/
structure Relabel.Fits (r : Relabel) (trace : TraceFile) : Prop where
  spans : ∀ e ∈ trace.events, e.durationNs ≤ e.timestampNs
  times : ∀ e ∈ trace.events, e.timestampNs.toNat + r.shift.toNat < 2 ^ 64
  anchor : trace.monotonicAnchorNs.toNat + r.shift.toNat < 2 ^ 64
  tids : ∀ e ∈ trace.events, ∀ e' ∈ trace.events, r.tid e.tid = r.tid e'.tid → e.tid = e'.tid
  keys : ∀ e ∈ trace.events, ∀ e' ∈ trace.events, e.isFutex = true → e'.isFutex = true → r.key e.key = r.key e'.key →
    e.key = e'.key

theorem toNat_add_of_lt {a b : UInt64} (h : a.toNat + b.toNat < 2 ^ 64) : (a + b).toNat = a.toNat + b.toNat := by
  rw [UInt64.toNat_add]
  exact Nat.mod_eq_of_lt h

section Moved
variable {r : Relabel} {trace : TraceFile} {e x y : TraceEvent}

theorem isFutex_of_wait (h : e.eventType = eventFutexWait) : e.isFutex = true := by
  simp [TraceEvent.isFutex, h]

theorem isFutex_of_wake (h : e.eventType = eventFutexWake) : e.isFutex = true := by
  simp [TraceEvent.isFutex, h]

theorem key_event (h : e.isFutex = true) : (r.event e).key = r.key e.key := if_pos h

theorem key_event_of_ne (h : e.eventType ≠ eventFutexWait) (h' : e.eventType ≠ eventFutexWake) :
    (r.event e).key = e.key := by
  simp [Relabel.event, TraceEvent.isFutex, h, h']

theorem Relabel.Fits.ends (h : r.Fits trace) (he : e ∈ trace.events) : (r.event e).ends = e.ends + r.shift.toNat :=
  toNat_add_of_lt (h.times e he)

theorem Relabel.Fits.starts (h : r.Fits trace) (he : e ∈ trace.events) :
    (r.event e).starts = e.starts + r.shift.toNat := by
  have hends := h.ends he
  have hspan := UInt64.le_iff_toNat_le.mp (h.spans e he)
  unfold TraceEvent.ends at hends
  unfold TraceEvent.starts
  rw [hends]
  exact Nat.sub_add_comm hspan

theorem before_add (anchor t c : Nat) : Before (anchor + c) (t + c) ↔ Before anchor t := by
  unfold Before
  omega

theorem after_add (anchor t c : Nat) : After (anchor + c) (t + c) ↔ After anchor t := by
  unfold After
  omega

theorem Relabel.Fits.tid_iff (h : r.Fits trace) (hx : x ∈ trace.events) (he : e ∈ trace.events) :
    (r.event x).tid = (r.event e).tid ↔ x.tid = e.tid :=
  ⟨h.tids x hx e he, fun heq => congrArg r.tid heq⟩

/-! ### Lookups of the moved trace -/

/-- A candidate of a lookup by thread is one of the moved lookup, whose window has moved along. -/
theorem Relabel.Fits.candidate_iff (h : r.Fits trace) (he : e ∈ trace.events) (hx : x ∈ trace.events) {type : UInt8}
    {win win' : Nat → Prop} (hwin : ∀ t, win' (t + r.shift.toNat) ↔ win t) :
    Candidate type (·.tid = (r.event e).tid) win' (r.event x) ↔ Candidate type (·.tid = e.tid) win x := by
  refine and_congr_right fun _ => and_congr (h.tid_iff hx he) ?_
  rw [h.ends hx]
  exact hwin _

theorem Relabel.Fits.isLastMax (h : r.Fits trace) {p q : TraceEvent → Prop}
    (hp : ∀ y ∈ trace.events, (p (r.event y) ↔ q y)) :
    IsLastMax TraceEvent.ends p (trace.events.map r.event) x ↔
      ∃ y, x = r.event y ∧ IsLastMax TraceEvent.ends q trace.events y := by
  rw [isLastMax_map]
  refine exists_congr fun y => and_congr_right fun _ => isLastMax_congr hp ?_
  intro y hy z hz
  simp only [Function.comp_apply, h.ends hy, h.ends hz, Nat.add_le_add_iff_right]

theorem Relabel.Fits.isFirstMin (h : r.Fits trace) {p q : TraceEvent → Prop}
    (hp : ∀ y ∈ trace.events, (p (r.event y) ↔ q y)) :
    IsFirstMin TraceEvent.ends p (trace.events.map r.event) x ↔
      ∃ y, x = r.event y ∧ IsFirstMin TraceEvent.ends q trace.events y := by
  rw [isFirstMin_map]
  refine exists_congr fun y => and_congr_right fun _ => isFirstMin_congr hp ?_
  intro y hy z hz
  simp only [Function.comp_apply, h.ends hy, h.ends hz, Nat.add_le_add_iff_right]

/-- An extremal event of the moved trace, compared with the events of another kind. -/
theorem extremal_moved {P Q C D : TraceEvent → Prop} {R S : TraceEvent → TraceEvent → Prop}
    (hP : ∀ x, P x ↔ ∃ y, x = r.event y ∧ Q y) (hmem : ∀ y, Q y → y ∈ trace.events)
    (hC : ∀ z ∈ trace.events, (C (r.event z) ↔ D z))
    (hR : ∀ y ∈ trace.events, ∀ z ∈ trace.events, (R (r.event y) (r.event z) ↔ S y z)) :
    (P x ∧ ∀ z ∈ trace.events.map r.event, C z → R x z) ↔
      ∃ y, x = r.event y ∧ Q y ∧ ∀ z ∈ trace.events, D z → S y z := by
  have hall : ∀ y ∈ trace.events,
      ((∀ z ∈ trace.events.map r.event, C z → R (r.event y) z) ↔ ∀ z ∈ trace.events, D z → S y z) := by
    intro y hy
    rw [List.forall_mem_map]
    exact forall₂_congr fun z hz => by rw [hC z hz, hR y hy z hz]
  rw [hP x]
  refine ⟨?_, ?_⟩
  · rintro ⟨⟨y, rfl, hy⟩, hs⟩
    exact ⟨y, rfl, hy, (hall y (hmem y hy)).mp hs⟩
  · rintro ⟨y, rfl, hy, ht⟩
    exact ⟨⟨y, rfl, hy⟩, (hall y (hmem y hy)).mpr ht⟩

section Hops
variable (h : r.Fits trace) (he : e ∈ trace.events)
include h he

theorem isWaker_moved (het : e.eventType = eventFutexWait) : IsWaker (trace.events.map r.event) (r.event e) x ↔
    ∃ y, x = r.event y ∧ IsWaker trace.events e y := by
  refine h.isLastMax ?_
  intro y hy
  refine and_congr_right fun hyt => and_congr ?_ ?_
  · have hyf : y.isFutex = true := isFutex_of_wake (e := y) hyt
    have hef := isFutex_of_wait het
    change (r.event y).key = (r.event e).key ↔ y.key = e.key
    rw [key_event hyf, key_event hef]
    exact ⟨h.keys y hy e he hyf hef, fun heq => congrArg r.key heq⟩
  · rw [h.ends hy, h.ends he]
    exact before_add _ _ _

theorem isPriorFutex_moved : IsPriorFutex (trace.events.map r.event) (r.event e).tid (r.event e).starts x ↔
    ∃ y, x = r.event y ∧ IsPriorFutex trace.events e.tid e.starts y := by
  unfold IsPriorFutex
  rw [h.starts he]
  refine extremal_moved (R := fun y z => z.ends ≤ y.ends) (S := fun y z => z.ends ≤ y.ends)
    (fun x => h.isLastMax fun y hy => h.candidate_iff he hy fun t => before_add _ t _) (fun y hy => hy.mem)
    (fun z hz => h.candidate_iff he hz fun t => before_add _ t _) ?_
  intro y hy z hz
  rw [h.ends hy, h.ends hz]
  exact Nat.add_le_add_iff_right

theorem isPriorBlockIo_moved : IsPriorBlockIo (trace.events.map r.event) (r.event e).tid (r.event e).starts x ↔
    ∃ y, x = r.event y ∧ IsPriorBlockIo trace.events e.tid e.starts y := by
  unfold IsPriorBlockIo
  rw [h.starts he]
  refine extremal_moved (R := fun y z => z.ends < y.ends) (S := fun y z => z.ends < y.ends)
    (fun x => h.isLastMax fun y hy => h.candidate_iff he hy fun t => before_add _ t _) (fun y hy => hy.mem)
    (fun z hz => h.candidate_iff he hz fun t => before_add _ t _) ?_
  intro y hy z hz
  rw [h.ends hy, h.ends hz]
  exact Nat.add_lt_add_iff_right

theorem hop_moved {wakes : Nat} : Hop (trace.events.map r.event) wakes (r.event e) x ↔
    ∃ y, x = r.event y ∧ Hop trace.events wakes e y := by
  refine ⟨?_, ?_⟩
  · rintro (⟨het, hu⟩ | ⟨het, hw, hf | hi⟩)
    · obtain ⟨y, rfl, hy⟩ := (isWaker_moved h he het).mp hu
      exact ⟨y, rfl, Or.inl ⟨het, hy⟩⟩
    · obtain ⟨y, rfl, hy⟩ := (isPriorFutex_moved h he).mp hf
      exact ⟨y, rfl, Or.inr ⟨het, hw, Or.inl hy⟩⟩
    · obtain ⟨y, rfl, hy⟩ := (isPriorBlockIo_moved h he).mp hi
      exact ⟨y, rfl, Or.inr ⟨het, hw, Or.inr hy⟩⟩
  · rintro ⟨y, rfl, ⟨het, hu⟩ | ⟨het, hw, hf | hi⟩⟩
    · exact Or.inl ⟨het, (isWaker_moved h he het).mpr ⟨y, rfl, hu⟩⟩
    · exact Or.inr ⟨het, hw, Or.inl ((isPriorFutex_moved h he).mpr ⟨y, rfl, hf⟩)⟩
    · exact Or.inr ⟨het, hw, Or.inr ((isPriorBlockIo_moved h he).mpr ⟨y, rfl, hi⟩)⟩

theorem isResumeFutex_moved : IsResumeFutex (trace.events.map r.event) (r.event e).tid (r.event e).ends x ↔
    ∃ y, x = r.event y ∧ IsResumeFutex trace.events e.tid e.ends y := by
  unfold IsResumeFutex
  rw [h.ends he]
  refine extremal_moved (R := fun y z => y.ends - (e.ends + r.shift.toNat) ≤ e.ends + r.shift.toNat - z.ends)
    (S := fun y z => y.ends - e.ends ≤ e.ends - z.ends)
    (fun x => h.isFirstMin fun y hy => h.candidate_iff he hy fun t => after_add _ t _) (fun y hy => hy.mem)
    (fun z hz => h.candidate_iff he hz fun t => before_add _ t _) ?_
  intro y hy z hz
  rw [h.ends hy, h.ends hz, Nat.add_sub_add_right, Nat.add_sub_add_right]

theorem isResumeBlockIo_moved : IsResumeBlockIo (trace.events.map r.event) (r.event e).tid (r.event e).ends x ↔
    ∃ y, x = r.event y ∧ IsResumeBlockIo trace.events e.tid e.ends y := by
  unfold IsResumeBlockIo
  rw [h.ends he]
  refine extremal_moved (R := fun y z => e.ends + r.shift.toNat - y.ends < z.ends - (e.ends + r.shift.toNat))
    (S := fun y z => e.ends - y.ends < z.ends - e.ends)
    (fun x => h.isLastMax fun y hy => h.candidate_iff he hy fun t => before_add _ t _) (fun y hy => hy.mem)
    (fun z hz => h.candidate_iff he hz fun t => after_add _ t _) ?_
  intro y hy z hz
  rw [h.ends hy, h.ends hz, Nat.add_sub_add_right, Nat.add_sub_add_right]

theorem resumeEvent_moved : ResumeEvent (trace.events.map r.event) (r.event e) x ↔
    ∃ y, x = r.event y ∧ ResumeEvent trace.events e y := by
  unfold ResumeEvent
  rw [isResumeFutex_moved h he, isResumeBlockIo_moved h he, ← exists_or]
  simp only [← and_or_left]

theorem carries_moved : Carries r.event (fun _ e' => e' ∈ trace.events) trace.events (trace.events.map r.event) e where
  type _ := rfl
  resume _ := resumeEvent_moved h he
  start _ hx := hx.mem
  hop _ _ he' _ := hop_moved h he'
  next _ _ _ _ hop := hop.mem

end Hops

/-! ### Chains of the moved trace -/

theorem pathLine_moved (host : Host) (names : DevNames) (e : TraceEvent) :
    pathLine host names (r.event e) = r.line (pathLine host names e) := by
  have htype : (r.event e).eventType = e.eventType := rfl
  by_cases hu : e.eventType = eventFutexWake
  · rw [pathLine_wake hu, pathLine_wake (htype.trans hu)]
    rfl
  by_cases hw : e.eventType = eventFutexWait
  · rw [pathLine_wait hw, pathLine_wait (htype.trans hw), key_event (isFutex_of_wait hw)]
    rfl
  · simp only [pathLine, htype, if_neg hu, if_neg hw, key_event_of_ne hw hu]
    rfl

theorem wallNsFor_moved (h : r.Fits trace) (he : e ∈ trace.events) :
    (r.trace trace).wallNsFor (Words.saturatingSub (r.event e).timestampNs (r.event e).durationNs) =
      trace.wallNsFor (Words.saturatingSub e.timestampNs e.durationNs) := by
  have hstart : (Words.saturatingSub (r.event e).timestampNs (r.event e).durationNs).toNat =
      (Words.saturatingSub e.timestampNs e.durationNs).toNat + r.shift.toNat := by
    rw [Words.saturatingSub_toNat, Words.saturatingSub_toNat]
    exact h.starts he
  have hanchor : (r.trace trace).monotonicAnchorNs.toNat = trace.monotonicAnchorNs.toNat + r.shift.toNat :=
    toNat_add_of_lt h.anchor
  unfold TraceFile.wallNsFor
  dsimp only
  rw [hstart, hanchor]
  push_cast
  rw [add_sub_add_right_eq_sub]
  rfl

/-- The first event of a path is a wait or a request. -/
theorem StallPath.head_ne_wake {events : List TraceEvent} {path : List TraceEvent} (h : StallPath events e path) :
    ∀ x ∈ path.head?, x.eventType ≠ eventFutexWake := by
  rcases stallPath_iff.mp h with ⟨rfl, -⟩ | ⟨y, p, rfl, hy, -⟩
  · intro x hx
    cases hx
  · rintro x hx
    obtain rfl := Option.some.inj hx
    rcases hy with hy | hy
    · rw [hy.1.prop.1]
      decide
    · rw [hy.1.prop.1]
      decide

theorem headline_moved (host : Host) (names : DevNames) (wall : UInt64) (b : TraceEvent) (o : Option TraceEvent)
    (ho : ∀ x ∈ o, x.eventType ≠ eventFutexWake) :
    headline host names wall (r.event b) (o.map r.event) = r.line (headline host names wall b o) := by
  cases o with
  | none => rfl
  | some x =>
    have htype : (r.event x).eventType = x.eventType := rfl
    by_cases hw : x.eventType = eventFutexWait
    · simp only [Option.map_some, headline, htype, if_pos hw, key_event (isFutex_of_wait hw)]
      rfl
    · simp only [Option.map_some, headline, htype, if_neg hw, key_event_of_ne hw (ho x rfl)]
      rfl

theorem chainLines_moved (h : r.Fits trace) (host : Host) (names : DevNames) (he : e ∈ trace.events)
    {path : List TraceEvent} (hpath : StallPath trace.events e path) :
    chainLines host names (r.trace trace) (r.event e) (path.map r.event) =
      (chainLines host names trace e path).map r.line := by
  unfold chainLines
  rw [wallNsFor_moved h he, List.head?_map, headline_moved host names _ e path.head? hpath.head_ne_wake, List.map_cons,
    ← List.map_tail, List.map_map, List.map_map]
  congr 2
  funext x
  exact pathLine_moved host names x

theorem stallChain_moved (h : r.Fits trace) (host : Host) (he : e ∈ trace.events) :
    stallChain host (r.trace trace) (r.event e) = r.chain (stallChain host trace e) := by
  obtain ⟨path, hpath, -, -, -⟩ := exists_stallPath host trace e .new
  have hlines : (stallChain host trace e).lines = _ := stallChain_lines hpath
  have hmoved : StallPath (r.trace trace).events (r.event e) (path.map r.event) := (carries_moved h he).stallPath hpath
  have hlines' : (stallChain host (r.trace trace) (r.event e)).lines = _ := stallChain_lines hmoved
  rw [chainLines_moved h host .new he hpath, ← hlines] at hlines'
  exact congrArg Chain.mk hlines'

theorem slowestStalls_moved (r : Relabel) (events : List TraceEvent) (slowest : Nat) :
    slowestStalls (events.map r.event) slowest = (slowestStalls events slowest).map r.event := by
  have hfilter : (events.map r.event).filter (·.eventType = eventSchedBlock) =
      (events.filter (·.eventType = eventSchedBlock)).map r.event := by
    rw [List.filter_map]
    rfl
  unfold slowestStalls
  rw [hfilter, List.map_take]
  congr 1
  exact (List.map_mergeSort (f := r.event) fun _ _ _ _ => rfl).symm

end Moved

/-- The report of a trace moved to another origin of the clock, with its threads and the addresses of its futexes
    renamed, is the report of the trace under the new names. -/
theorem explain_relabel (host : Host) (trace : TraceFile) (r : Relabel) (h : r.Fits trace) (slowest : Nat) :
    explain host (r.trace trace) slowest = (explain host trace slowest).map r.chain := by
  rw [explain_eq_map, explain_eq_map, List.map_map]
  change (slowestStalls (trace.events.map r.event) slowest).map _ = _
  rw [slowestStalls_moved, List.map_map]
  refine List.map_congr_left ?_
  intro b hb
  have hmem : b ∈ trace.events := (List.mem_filter.mp (List.mem_mergeSort.mp (List.mem_of_mem_take hb))).1
  exact stallChain_moved h host hmem

/-- The clock starts a second earlier, thread 8 becomes 80, and the page of the addresses is another one. -/
def elsewhere : Relabel := ⟨1000000000, fun tid => if tid = 8 then 80 else tid, fun key => key ^^^ 0xF000⟩

theorem explain_relabel_elsewhere : elsewhere.Fits ⟨0, 0, stallInWait⟩ ∧
    elsewhere.event ⟨40, 30, 0x1000, 7, 8, eventFutexWait, ""⟩ =
      ⟨1000000040, 30, 0xE000, 7, 80, eventFutexWait, ""⟩ ∧
    ∀ host slowest, explain host (elsewhere.trace ⟨0, 0, stallInWait⟩) slowest =
      (explain host ⟨0, 0, stallInWait⟩ slowest).map elsewhere.chain := by
  have h : elsewhere.Fits ⟨0, 0, stallInWait⟩ := ⟨by decide, by decide, by decide, by decide, by decide⟩
  refine ⟨h, by decide, ?_⟩
  intro host slowest
  exact explain_relabel host ⟨0, 0, stallInWait⟩ elsewhere h slowest

end Whyslow
