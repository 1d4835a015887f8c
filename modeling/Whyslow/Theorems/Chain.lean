import Whyslow.Theorems.Joins

/-! The chain of a stall is the maximal path of one relation between the events of the trace. A hop
    goes from a wait to its waker, and from a waker to what it finished last before its wake call; the
    eighth waker is the end. The walk takes the hops one after the other, so its lines are the lines of
    the only such path. -/

namespace Whyslow
open Extremum

/-! ### Paths -/

/-- `u` is the latest wake on the address of `w` in the window before the end of `w`. -/
def IsWaker (events : List TraceEvent) (w u : TraceEvent) : Prop :=
  IsLatest events eventFutexWake (·.key = w.key) (Before w.ends) u

/-- The event after `e` on a path that has reached `wakes` wakes, `e` included. -/
def Hop (events : List TraceEvent) (wakes : Nat) (e e' : TraceEvent) : Prop :=
  (e.eventType = eventFutexWait ∧ IsWaker events e e') ∨
  (e.eventType = eventFutexWake ∧ wakes < maxChainDepth ∧
    (IsPriorFutex events e.tid e.starts e' ∨ IsPriorBlockIo events e.tid e.starts e'))

/-- The number of wakes reached when `e` is added to a path with `wakes` of them. -/
def countWake (wakes : Nat) (e : TraceEvent) : Nat := if e.eventType = eventFutexWake then wakes + 1 else wakes

/-- A path of hops that cannot be extended; `wakes` counts the wakes up to its first event. -/
def MaximalPath (events : List TraceEvent) : Nat → List TraceEvent → Prop
  | _, [] => False
  | wakes, [e] => ∀ e', ¬Hop events wakes e e'
  | wakes, e :: e' :: path => Hop events wakes e e' ∧ MaximalPath events (countWake wakes e') (e' :: path)

def Cause.event? : Cause → Option TraceEvent
  | .futex wait => some wait
  | .blockIo io => some io
  | .unknown => none

/-- The path of a stall: the maximal one from the cause of its resume, or none. -/
def StallPath (events : List TraceEvent) (b : TraceEvent) (path : List TraceEvent) : Prop :=
  match (classifyResumeCause b.tid b.timestampNs (Typed.partition events)).event? with
  | none => path = []
  | some e => path.head? = some e ∧ MaximalPath events 0 path

/-- The event a resume is put down to: the cause of the stall `b`. -/
def ResumeEvent (events : List TraceEvent) (b e : TraceEvent) : Prop :=
  IsResumeFutex events b.tid b.ends e ∨ IsResumeBlockIo events b.tid b.ends e

theorem ResumeEvent.unique {events : List TraceEvent} {b x y : TraceEvent} (hx : ResumeEvent events b x)
    (hy : ResumeEvent events b y) : x = y := by
  rcases hx with hx | hx <;> rcases hy with hy | hy
  · exact hx.1.unique hy.1
  · exact absurd (hx.2 y hy.1.mem hy.1.prop) (not_le.mpr (hy.2 x hx.1.mem hx.1.prop))
  · exact absurd (hy.2 x hx.1.mem hx.1.prop) (not_le.mpr (hx.2 y hy.1.mem hy.1.prop))
  · exact hx.1.unique hy.1

theorem ResumeEvent.mem {events : List TraceEvent} {b e : TraceEvent} (h : ResumeEvent events b e) : e ∈ events := by
  rcases h with h | h
  · exact h.1.mem
  · exact h.1.mem

theorem event?_eq_some_iff {events : List TraceEvent} {b e : TraceEvent} :
    (classifyResumeCause b.tid b.timestampNs (Typed.partition events)).event? = some e ↔ ResumeEvent events b e := by
  have hspec := classifyResumeCause_spec events b.tid b.timestampNs
  cases hc : classifyResumeCause b.tid b.timestampNs (Typed.partition events) with
  | futex f =>
    rw [hc] at hspec
    have hf : ResumeEvent events b f := Or.inl hspec
    exact ⟨fun h => Option.some.inj h ▸ hf, fun h => congrArg some (hf.unique h)⟩
  | blockIo i =>
    rw [hc] at hspec
    have hi : ResumeEvent events b i := Or.inr hspec
    exact ⟨fun h => Option.some.inj h ▸ hi, fun h => congrArg some (hi.unique h)⟩
  | unknown =>
    rw [hc] at hspec
    refine ⟨?_, ?_⟩
    · intro h
      cases h
    · rintro (h | h)
      · exact absurd h.1.prop (hspec e h.1.mem).1
      · exact absurd h.1.prop (hspec e h.1.mem).2

theorem stallPath_iff {events : List TraceEvent} {b : TraceEvent} {path : List TraceEvent} :
    StallPath events b path ↔ (path = [] ∧ ∀ e, ¬ResumeEvent events b e) ∨
      ∃ e p, path = e :: p ∧ ResumeEvent events b e ∧ MaximalPath events 0 path := by
  unfold StallPath
  cases hc : (classifyResumeCause b.tid b.timestampNs (Typed.partition events)).event? with
  | none =>
    have hno : ∀ e, ¬ResumeEvent events b e := by
      intro e he
      rw [event?_eq_some_iff.mpr he] at hc
      cases hc
    refine ⟨fun h => Or.inl ⟨h, hno⟩, ?_⟩
    rintro (⟨h, -⟩ | ⟨e, p, -, he, -⟩)
    · exact h
    · exact absurd he (hno e)
  | some e =>
    have he := event?_eq_some_iff.mp hc
    refine ⟨?_, ?_⟩
    · rintro ⟨hhead, hmax⟩
      obtain ⟨p, rfl⟩ := List.head?_eq_some_iff.mp hhead
      exact Or.inr ⟨e, p, rfl, he, hmax⟩
    · rintro (⟨-, hno⟩ | ⟨e', p, rfl, he', hmax⟩)
      · exact absurd he (hno e)
      · exact ⟨congrArg some (he'.unique he), hmax⟩

theorem Hop.mem {events : List TraceEvent} {wakes : Nat} {e e' : TraceEvent} (h : Hop events wakes e e') :
    e' ∈ events := by
  rcases h with ⟨-, h⟩ | ⟨-, -, h | h⟩
  · exact IsLastMax.mem h
  · exact h.1.mem
  · exact h.1.mem

theorem prior_unique {events : List TraceEvent} {tid : UInt32} {anchor : Nat} {x y : TraceEvent}
    (hx : IsPriorFutex events tid anchor x ∨ IsPriorBlockIo events tid anchor x)
    (hy : IsPriorFutex events tid anchor y ∨ IsPriorBlockIo events tid anchor y) : x = y := by
  rcases hx with hx | hx <;> rcases hy with hy | hy
  · exact hx.1.unique hy.1
  · exact absurd (hx.2 y hy.1.mem hy.1.prop) (not_le.mpr (hy.2 x hx.1.mem hx.1.prop))
  · exact absurd (hy.2 x hx.1.mem hx.1.prop) (not_le.mpr (hx.2 y hy.1.mem hy.1.prop))
  · exact hx.1.unique hy.1

theorem Hop.unique {events : List TraceEvent} {wakes : Nat} {e x y : TraceEvent} (hx : Hop events wakes e x)
    (hy : Hop events wakes e y) : x = y := by
  have htypes : eventFutexWait ≠ eventFutexWake := by decide
  rcases hx with ⟨ht, hx⟩ | ⟨ht, -, hx⟩ <;> rcases hy with ⟨ht', hy⟩ | ⟨ht', -, hy⟩
  · exact IsLastMax.unique hx hy
  · exact absurd (ht.symm.trans ht') htypes
  · exact absurd (ht'.symm.trans ht) htypes
  · exact prior_unique hx hy

theorem MaximalPath.unique {events : List TraceEvent} {wakes : Nat} {e : TraceEvent} {p q : List TraceEvent}
    (hp : MaximalPath events wakes (e :: p)) (hq : MaximalPath events wakes (e :: q)) : p = q := by
  induction p generalizing wakes e q with
  | nil =>
    cases q with
    | nil => rfl
    | cons y q => exact absurd hq.1 (hp y)
  | cons x p ih =>
    cases q with
    | nil => exact absurd hp.1 (hq x)
    | cons y q =>
      obtain rfl := hp.1.unique hq.1
      rw [ih hp.2 hq.2]

theorem MaximalPath.mem {events : List TraceEvent} {wakes : Nat} {e : TraceEvent} {p : List TraceEvent}
    (hp : MaximalPath events wakes (e :: p)) : ∀ x ∈ p, x ∈ events := by
  induction p generalizing wakes e with
  | nil => intro x hx; cases hx
  | cons y p ih =>
    intro x hx
    rcases List.mem_cons.mp hx with rfl | hx
    · exact hp.1.mem
    · exact ih hp.2 x hx

theorem StallPath.unique {events : List TraceEvent} {b : TraceEvent} {p q : List TraceEvent}
    (hp : StallPath events b p) (hq : StallPath events b q) : p = q := by
  unfold StallPath at hp hq
  split at hp
  · rename_i h
    rw [h] at hq
    rw [hp, hq]
  · rename_i e h
    rw [h] at hq
    obtain ⟨p, rfl⟩ := List.head?_eq_some_iff.mp hp.1
    obtain ⟨q, rfl⟩ := List.head?_eq_some_iff.mp hq.1
    rw [hp.2.unique hq.2]

/-! ### Lines -/

def pathLine (host : Host) (names : DevNames) (e : TraceEvent) : Line :=
  if e.eventType = eventFutexWake then .wokenBy e.tid
  else if e.eventType = eventFutexWait then .priorFutex e.tid e.durationNs e.key
  else .priorBlockIo e.tid e.durationNs (names.name host (unpackBlockKey e.key).1).1 (unpackBlockKey e.key).2

theorem pathLine_wake {host : Host} {names : DevNames} {e : TraceEvent} (h : e.eventType = eventFutexWake) :
    pathLine host names e = .wokenBy e.tid := if_pos h

theorem pathLine_wait {host : Host} {names : DevNames} {e : TraceEvent} (h : e.eventType = eventFutexWait) :
    pathLine host names e = .priorFutex e.tid e.durationNs e.key := by
  unfold pathLine
  rw [h, if_neg (by decide), if_pos rfl]

theorem pathLine_blockIo {host : Host} {names : DevNames} {e : TraceEvent} (h : e.eventType = eventBlockIo) :
    pathLine host names e =
      .priorBlockIo e.tid e.durationNs (names.name host (unpackBlockKey e.key).1).1 (unpackBlockKey e.key).2 := by
  unfold pathLine
  rw [h, if_neg (by decide), if_neg (by decide)]

def headline (host : Host) (names : DevNames) (wall : UInt64) (b : TraceEvent) : Option TraceEvent → Line
  | none => .blockedUnknown wall b.tid b.durationNs
  | some e =>
    if e.eventType = eventFutexWait then .blockedOnFutex wall b.tid b.durationNs e.key
    else .blockedOnBlockIo wall b.tid b.durationNs (names.name host (unpackBlockKey e.key).1).1
      (unpackBlockKey e.key).2

def chainLines (host : Host) (names : DevNames) (trace : TraceFile) (b : TraceEvent) (path : List TraceEvent) :
    List Line :=
  headline host names (trace.wallNsFor (Words.saturatingSub b.timestampNs b.durationNs)) b path.head? ::
    path.tail.map (pathLine host names)

/-! ### The walk -/

theorem waker_lookup (events : List TraceEvent) (wait : TraceEvent) :
    match nearestPreceding (Typed.partition events).futexWake wait.timestampNs fun e => e.key == wait.key with
    | some u => IsWaker events wait u
    | none => ∀ u, ¬IsWaker events wait u := by
  have hkey : ∀ x : TraceEvent, (x.key == wait.key) = true ↔ x.key = wait.key := fun _ => beq_iff_eq
  rw [partition_eq]
  dsimp only
  split
  · rename_i u h
    exact (nearestPreceding_eq_some_iff hkey).mp h
  · rename_i h
    intro u hu
    exact (nearestPreceding_eq_none_iff hkey).mp h u (IsLastMax.mem hu) (IsLastMax.prop hu)

/-! ### Where a path stops -/

section Stops
variable {events : List TraceEvent} {wakes : Nat} {e : TraceEvent}

theorem not_hop_of_unwoken (he : e.eventType = eventFutexWait) (h : ∀ u, ¬IsWaker events e u) :
    ∀ e', ¬Hop events wakes e e' := by
  intro e' hop
  rcases hop with ⟨-, hop⟩ | ⟨ht, -⟩
  · exact h e' hop
  · exact absurd (he.symm.trans ht) (by decide)

theorem not_hop_of_noPrior (he : e.eventType = eventFutexWake) (h : NoPrior events e.tid e.starts) :
    ∀ e', ¬Hop events wakes e e' := by
  intro e' hop
  rcases hop with ⟨ht, -⟩ | ⟨-, -, hop | hop⟩
  · exact absurd (ht.symm.trans he) (by decide)
  · exact (h e' hop.1.mem).1 hop.1.prop
  · exact (h e' hop.1.mem).2 hop.1.prop

theorem not_hop_of_deepest (he : e.eventType = eventFutexWake) (h : maxChainDepth ≤ wakes) :
    ∀ e', ¬Hop events wakes e e' := by
  intro e' hop
  rcases hop with ⟨ht, -⟩ | ⟨-, hlt, -⟩
  · exact absurd (ht.symm.trans he) (by decide)
  · exact absurd hlt (not_lt.mpr h)

theorem not_hop_of_blockIo (he : e.eventType = eventBlockIo) : ∀ e', ¬Hop events wakes e e' := by
  intro e' hop
  rcases hop with ⟨ht, -⟩ | ⟨ht, -⟩ <;> exact absurd (he.symm.trans ht) (by decide)

end Stops

/-- The walk from a wait adds the lines of the maximal path from it. The induction is on the hops left;
    `wakes` counts those taken. -/
theorem walkHops_lines (host : Host) (events : List TraceEvent) (names : DevNames) (left wakes : Nat)
    (hleft : wakes + left + 1 = maxChainDepth) (wait : TraceEvent) (hwait : wait.eventType = eventFutexWait)
    (lines : List Line) :
    ∃ path, MaximalPath events wakes (wait :: path) ∧ path.length ≤ 2 * left + 1 ∧
      (walkHops host (Typed.partition events) left wait names lines).1 = lines ++ path.map (pathLine host names) := by
  induction left generalizing wakes wait lines with
  | zero =>
    have hlookup := waker_lookup events wait
    unfold walkHops
    cases hu : nearestPreceding (Typed.partition events).futexWake wait.timestampNs fun e => e.key == wait.key with
    | none =>
      rw [hu] at hlookup
      exact ⟨[], not_hop_of_unwoken hwait hlookup, by simp, by simp⟩
    | some u =>
      rw [hu] at hlookup
      have hut : u.eventType = eventFutexWake := (IsLastMax.prop hlookup).1
      have hcount : countWake wakes u = wakes + 1 := if_pos hut
      refine ⟨[u], ⟨Or.inl ⟨hwait, hlookup⟩, ?_⟩, by simp, by simp [pathLine_wake hut]⟩
      exact not_hop_of_deepest hut (by omega)
  | succ left ih =>
    have hlookup := waker_lookup events wait
    unfold walkHops
    cases hu : nearestPreceding (Typed.partition events).futexWake wait.timestampNs fun e => e.key == wait.key with
    | none =>
      rw [hu] at hlookup
      exact ⟨[], not_hop_of_unwoken hwait hlookup, by simp, by simp⟩
    | some u =>
      rw [hu] at hlookup
      have hut : u.eventType = eventFutexWake := (IsLastMax.prop hlookup).1
      have hfirst : Hop events wakes wait u := Or.inl ⟨hwait, hlookup⟩
      have hcount : countWake wakes u = wakes + 1 := if_pos hut
      have hprior := classifyPriorCause_spec events u.tid (Words.saturatingSub u.timestampNs u.durationNs)
      rw [Words.saturatingSub_toNat] at hprior
      dsimp only
      cases hc : classifyPriorCause u.tid (Words.saturatingSub u.timestampNs u.durationNs)
        (Typed.partition events) with
      | futex w =>
        rw [hc] at hprior
        have hwt : w.eventType = eventFutexWait := hprior.1.prop.1
        have htid : w.tid = u.tid := hprior.1.prop.2.1
        have hcount' : countWake (wakes + 1) w = wakes + 1 := if_neg (by rw [hwt]; decide)
        obtain ⟨path, hpath, hlen, hlines⟩ := ih (wakes + 1) (by omega) w hwt
          (lines ++ [.wokenBy u.tid] ++ [.priorFutex u.tid w.durationNs w.key])
        refine ⟨u :: w :: path, ⟨hfirst, ?_⟩, by simp only [List.length_cons]; omega, ?_⟩
        · rw [hcount]
          exact ⟨Or.inr ⟨hut, by omega, Or.inl hprior⟩, by rw [hcount']; exact hpath⟩
        · rw [hlines]
          simp [pathLine_wake hut, pathLine_wait hwt, htid]
      | blockIo i =>
        rw [hc] at hprior
        have hit : i.eventType = eventBlockIo := hprior.1.prop.1
        have htid : i.tid = u.tid := hprior.1.prop.2.1
        refine ⟨[u, i], ⟨hfirst, ?_⟩, by simp only [List.length_cons, List.length_nil]; omega, ?_⟩
        · rw [hcount]
          exact ⟨Or.inr ⟨hut, by omega, Or.inr hprior⟩, not_hop_of_blockIo hit⟩
        · simp [pathLine_wake hut, pathLine_blockIo hit, htid]
      | unknown =>
        rw [hc] at hprior
        exact ⟨[u], ⟨hfirst, not_hop_of_noPrior hut hprior⟩, by simp, by simp [pathLine_wake hut]⟩

/-! ### The chain of a stall -/

theorem stallPath_of_futex {events : List TraceEvent} {b wait : TraceEvent} {path : List TraceEvent}
    (hc : classifyResumeCause b.tid b.timestampNs (Typed.partition events) = .futex wait)
    (hpath : MaximalPath events 0 (wait :: path)) : StallPath events b (wait :: path) := by
  unfold StallPath
  rw [hc]
  exact ⟨rfl, hpath⟩

/-- There is a path, and the lines of the stall are its lines. -/
theorem exists_stallPath (host : Host) (trace : TraceFile) (b : TraceEvent) (names : DevNames) :
    ∃ path, StallPath trace.events b path ∧ (∀ e ∈ path, e ∈ trace.events) ∧ path.length ≤ 2 * maxChainDepth ∧
      (explainOneStall host b trace (Typed.partition trace.events) names).1.lines =
        chainLines host names trace b path := by
  have hspec := classifyResumeCause_spec trace.events b.tid b.timestampNs
  unfold explainOneStall
  dsimp only
  cases hc : classifyResumeCause b.tid b.timestampNs (Typed.partition trace.events) with
  | futex wait =>
    rw [hc] at hspec
    have hwt : wait.eventType = eventFutexWait := hspec.1.prop.1
    obtain ⟨path, hpath, hlen, hlines⟩ := walkHops_lines host trace.events names (maxChainDepth - 1) 0 rfl wait hwt
      [.blockedOnFutex (trace.wallNsFor (Words.saturatingSub b.timestampNs b.durationNs)) b.tid b.durationNs wait.key]
    refine ⟨wait :: path, stallPath_of_futex hc hpath, fun e he => ?_, ?_, ?_⟩
    · rcases List.mem_cons.mp he with rfl | he
      · exact hspec.1.mem
      · exact hpath.mem e he
    · simp only [List.length_cons, maxChainDepth] at hlen ⊢
      omega
    · simp only [walkFromFutexWait, hlines]
      simp [chainLines, headline, hwt]
  | blockIo i =>
    rw [hc] at hspec
    have hit : i.eventType = eventBlockIo := hspec.1.prop.1
    refine ⟨[i], ?_, fun e he => ?_, by simp [maxChainDepth], ?_⟩
    · unfold StallPath
      rw [hc]
      exact ⟨rfl, not_hop_of_blockIo hit⟩
    · obtain rfl := List.mem_singleton.mp he
      exact hspec.1.mem
    · have hne : i.eventType ≠ eventFutexWait := by rw [hit]; decide
      simp [chainLines, headline, hne]
  | unknown =>
    refine ⟨[], ?_, by simp, by simp, rfl⟩
    unfold StallPath
    rw [hc]
    rfl

/-- The lines of a stall are those of the one path its specification allows: from the cause of the
    resume, a wait or a request of the stalled thread in the window around it, hop by hop, until no hop is
    left. All events of the path are in the trace, and there are at most sixteen of them, so a chain has
    at most sixteen lines. -/
theorem explainOneStall_lines_eq_path (host : Host) (trace : TraceFile) (b : TraceEvent) (names : DevNames) :
    ∃ path, StallPath trace.events b path ∧ (∀ path', StallPath trace.events b path' → path' = path) ∧
      ((path = [] ∧ ∀ e, ¬ResumeEvent trace.events b e) ∨
        ∃ e p, path = e :: p ∧ ResumeEvent trace.events b e ∧ MaximalPath trace.events 0 path) ∧
      (explainOneStall host b trace (Typed.partition trace.events) names).1.lines =
        chainLines host names trace b path ∧
      (∀ e ∈ path, e ∈ trace.events) ∧ path.length ≤ 2 * maxChainDepth ∧
      (explainOneStall host b trace (Typed.partition trace.events) names).1.lines.length = max 1 path.length := by
  obtain ⟨path, hpath, hmem, hlen, hlines⟩ := exists_stallPath host trace b names
  refine ⟨path, hpath, fun path' h' => h'.unique hpath, stallPath_iff.mp hpath, hlines, hmem, hlen, ?_⟩
  rw [hlines]
  cases path <;> simp [chainLines]

end Whyslow
