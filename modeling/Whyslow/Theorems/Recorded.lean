import Whyslow.Theorems.Pairing
import Whyslow.Theorems.Joins

/-! What a recorded trace says about its run. Every event of the trace was written by one half of the run,
    the completion of a span whose start is an earlier half; with a clock that moves on between programs
    the times of the events order these halves. -/

namespace Whyslow
open Runs

/-- The events of the trace are those the run wrote, in any order. -/
def Recorded (n : Sizes) (steps : List Step) (events : List TraceEvent) : Prop :=
  events.Perm ((Maps.run n steps).events.map TraceEvent.ofEvent)

/-- Half `i` of the run is `a`, and it writes `e`. -/
structure WrittenAt (n : Sizes) (steps : List Step) (e : TraceEvent) (i : Nat) (a : Half) : Prop where
  half : (halves steps)[i]? = some a
  writes : (a.writes (mapsAt n steps i)).map TraceEvent.ofEvent = some e

theorem WrittenAt.unique {n : Sizes} {steps : List Step} {e e' : TraceEvent} {i : Nat} {a a' : Half}
    (h : WrittenAt n steps e i a) (h' : WrittenAt n steps e' i a') : e = e' := by
  obtain rfl := Option.some.inj (h.half.symm.trans h'.half)
  exact Option.some.inj (h.writes.symm.trans h'.writes)

theorem Recorded.mem_iff {n : Sizes} {steps : List Step} {events : List TraceEvent} (hrec : Recorded n steps events)
    {e : TraceEvent} : e ∈ events ↔ ∃ i a, WrittenAt n steps e i a := by
  have hlog : ∀ ev, ev ∈ (Maps.run n steps).events ↔
      ∃ i < (halves steps).length, ∃ a, (halves steps)[i]? = some a ∧ a.writes (mapsAt n steps i) = some ev := by
    intro ev
    rw [Maps.run_eq_halves]
    exact mem_log_iff Maps.events (fun _ _ => rfl) rfl
  rw [List.Perm.mem_iff hrec, List.mem_map]
  refine ⟨?_, ?_⟩
  · intro h
    obtain ⟨ev, hev, rfl⟩ := h
    obtain ⟨i, -, a, ha, hw⟩ := (hlog ev).mp hev
    exact ⟨i, a, ha, by rw [hw]; rfl⟩
  · intro h
    obtain ⟨i, a, ha, hw⟩ := h
    obtain ⟨ev, hev, rfl⟩ := Option.map_eq_some_iff.mp hw
    exact ⟨ev, (hlog ev).mpr ⟨i, (List.getElem?_eq_some_iff.mp ha).1, a, ha, hev⟩, rfl⟩

theorem WrittenAt.produces {n : Sizes} {steps : List Step} {e : TraceEvent} {i : Nat} {a : Half}
    (h : WrittenAt n steps e i a) :
    ∃ ev, a.produces (mapsAt n steps i) = some ev ∧ e = TraceEvent.ofEvent ev ∧ a.ringFull = false := by
  obtain ⟨ev, hev, rfl⟩ := Option.map_eq_some_iff.mp h.writes
  unfold Half.writes at hev
  split at hev
  · cases hev
  · rename_i hfull
    exact ⟨ev, hev, rfl, by simpa using hfull⟩

/-! ### Spans -/

/-- The thread and the process in whose context a half runs; a completion interrupts any. -/
def Half.context? : Half → Option (UInt32 × UInt32)
  | .switchOut h evt => some (evt.prevPid.toUInt32, h.currentTgid)
  | .futexEnter h _ | .futexExit h | .blockRqIssue h _ => some (h.currentTid, h.currentTgid)
  | .setTargetTgid _ | .switchIn _ _ | .blockRqComplete _ _ => none

/-- The event `e` of a futex call: thread `e.tid` enters at half `j` and returns at half `i`, with no
    return in between. -/
structure Call (n : Sizes) (steps : List Step) (e : TraceEvent) (j i : Nat) : Prop where
  lt : j < i
  enter : ∃ h evt, (halves steps)[j]? = some (.futexEnter h evt) ∧ h.currentTid = e.tid ∧
    h.ktimeGetNs.toNat = e.starts ∧ evt.uaddr = e.key ∧ futexEventType evt.op = some e.eventType
  exit : ∃ h, WrittenAt n steps e i (.futexExit h) ∧ h.currentTid = e.tid ∧ h.ktimeGetNs.toNat = e.ends
  within : ∀ k, j < k → k < i → ∀ a, (halves steps)[k]? = some a → a.exitedFutex? ≠ some e.tid

/-- The event `e` of a stall: thread `e.tid` is switched out at half `j` and in at half `i`, and not in
    between. -/
structure Stall (n : Sizes) (steps : List Step) (e : TraceEvent) (j i : Nat) : Prop where
  lt : j < i
  out : ∃ h evt, (halves steps)[j]? = some (.switchOut h evt) ∧ evt.prevPid.toUInt32 = e.tid ∧
    h.ktimeGetNs.toNat = e.starts ∧ h.currentTgid ≠ 0
  resume : ∃ h evt, WrittenAt n steps e i (.switchIn h evt) ∧ evt.nextPid.toUInt32 = e.tid ∧
    h.ktimeGetNs.toNat = e.ends
  within : ∀ k, j < k → k < i → ∀ a, (halves steps)[k]? = some a → a.switchedIn? ≠ some e.tid

theorem starts_eq {t ts : UInt64} (h : ts.toNat ≤ t.toNat) : ts.toNat = t.toNat - (Words.saturatingSub t ts).toNat := by
  rw [Words.saturatingSub_toNat]
  omega

section Provenance
variable {n : Sizes} {steps : List Step} {events : List TraceEvent} {e : TraceEvent}

theorem Recorded.call_context (hrec : Recorded n steps events) (hclock : ClockNonDecreasing steps) (he : e ∈ events)
    (hty : e.eventType = eventFutexWait ∨ e.eventType = eventFutexWake) :
    ∃ j i, Call n steps e j i ∧ ((halves steps)[j]?).bind Half.context? = some (e.tid, e.pid) := by
  obtain ⟨i, a, hw⟩ := hrec.mem_iff.mp he
  obtain ⟨ev, hp, rfl, -⟩ := hw.produces
  obtain ⟨h, v, type, rfl, hget, htype, rfl⟩ := produces_call hp hty
  obtain ⟨j, hj, b, hb, hopen, hrest⟩ := (futexSpans.get_eq_some_iff (fun _ => rfl) i).mp hget
  obtain ⟨h', evt, rfl, -, -, htid, rfl⟩ := futexAct_start hopen.1
  have hle := hclock.le hj hb hw.half rfl rfl
  refine ⟨j, i, ⟨hj, ⟨h', evt, hb, htid.symm, starts_eq hle, rfl, htype⟩, ⟨h, hw, rfl, rfl⟩, ?_⟩, ?_⟩
  · intro k hjk hki a ha hex
    exact (hrest k hjk hki a ha).1 (futexAct_complete.mpr hex)
  · rw [hb, Option.bind_some, Half.context?, ← htid]
    rfl

theorem Recorded.call (hrec : Recorded n steps events) (hclock : ClockNonDecreasing steps) (he : e ∈ events)
    (hty : e.eventType = eventFutexWait ∨ e.eventType = eventFutexWake) : ∃ j i, Call n steps e j i := by
  obtain ⟨j, i, hcall, -⟩ := hrec.call_context hclock he hty
  exact ⟨j, i, hcall⟩

theorem Recorded.stall_context (hrec : Recorded n steps events) {T : UInt32} (hT : SetsOnly T steps)
    (hclock : ClockNonDecreasing steps) (he : e ∈ events) (hty : e.eventType = eventSchedBlock) :
    ∃ j i, Stall n steps e j i ∧ ((halves steps)[j]?).bind Half.context? = some (e.tid, e.pid) := by
  obtain ⟨i, a, hw⟩ := hrec.mem_iff.mp he
  obtain ⟨ev, hp, rfl, -⟩ := hw.produces
  obtain ⟨h, evt, v, rfl, -, hget, rfl⟩ := produces_stall hp hty
  obtain ⟨j, hj, b, hb, hopen, hrest⟩ := (blockSpans_filtered.latestStart_iff hT).mpr hget
  obtain ⟨h', evt', rfl, ht, -, hg, htid, rfl⟩ := blockAct_start hopen.1
  have hle := hclock.le hj hb hw.half rfl rfl
  refine ⟨j, i, ⟨hj, ⟨h', evt', hb, htid.symm, starts_eq hle, hg ▸ ht⟩, ⟨h, evt, hw, rfl, rfl⟩, ?_⟩, ?_⟩
  · intro k hjk hki a ha
    exact (hrest k hjk hki a ha).1
  · rw [hb, Option.bind_some, Half.context?, ← htid]
    rfl

theorem Recorded.stall (hrec : Recorded n steps events) {T : UInt32} (hT : SetsOnly T steps)
    (hclock : ClockNonDecreasing steps) (he : e ∈ events) (hty : e.eventType = eventSchedBlock) :
    ∃ j i, Stall n steps e j i := by
  obtain ⟨j, i, hstall, -⟩ := hrec.stall_context hT hclock he hty
  exact ⟨j, i, hstall⟩

end Provenance

/-! ### Order -/

theorem ClockIncreasing.lt {steps : List Step} (hclock : ClockIncreasing steps) {i j : Nat} (hij : i < j)
    {a b : Half} (ha : (halves steps)[i]? = some a) (hb : (halves steps)[j]? = some b) {t t' : UInt64}
    (ht : a.ktime? = some t) (ht' : b.ktime? = some t') (hne : ∀ h evt, a ≠ .switchOut h evt) :
    t.toNat < t'.toNat := by
  rcases clock_halves hclock hij ha hb with h | ⟨h, evt, rfl, -⟩
  · exact UInt64.lt_iff_toNat_lt.mp (h t t' ht ht')
  · exact absurd rfl (hne h evt)

theorem Call.eq_of_ends_eq {n : Sizes} {steps : List Step} (hclock : ClockIncreasing steps) {e e' : TraceEvent}
    {j i j' i' : Nat} (c : Call n steps e j i) (c' : Call n steps e' j' i') (hends : e'.ends = e.ends) : e' = e := by
  obtain ⟨g, hexit, -, ht⟩ := c.exit
  obtain ⟨g', hexit', -, ht'⟩ := c'.exit
  rcases Nat.lt_trichotomy i' i with hlt | rfl | hgt
  · have := hclock.lt hlt hexit'.half hexit.half rfl rfl (fun _ _ h => by cases h)
    omega
  · exact hexit'.unique hexit
  · have := hclock.lt hgt hexit.half hexit'.half rfl rfl (fun _ _ h => by cases h)
    omega

/-- A thread returns from no other call while it is in one. -/
theorem Call.eq_of_ends_within {n : Sizes} {steps : List Step} (hclock : ClockIncreasing steps) {e e' : TraceEvent}
    {j i j' i' : Nat} (c : Call n steps e j i) (c' : Call n steps e' j' i') (htid : e'.tid = e.tid)
    (hafter : e.starts ≤ e'.ends) (hbefore : e'.ends ≤ e.ends) : e' = e := by
  obtain ⟨h, evt, henter, -, hstarts, -⟩ := c.enter
  obtain ⟨g, hexit, -, hends⟩ := c.exit
  obtain ⟨g', hexit', htid', hends'⟩ := c'.exit
  rcases Nat.lt_or_ge i' i with hlt | hge
  · -- The return is before that of `e`, so it is before its enter too, and earlier than its start.
    have hij : i' < j := by
      rcases Nat.lt_trichotomy i' j with h | rfl | h
      · exact h
      · cases henter.symm.trans hexit'.half
      · exact absurd (by rw [← htid, ← htid']; rfl) (c.within i' h hlt _ hexit'.half)
    have := hclock.lt hij hexit'.half henter rfl rfl (fun _ _ h => by cases h)
    omega
  · have hends'' : e.ends ≤ e'.ends := by
      rcases Nat.eq_or_lt_of_le hge with rfl | hgt
      · rw [hexit'.unique hexit]
      · have := hclock.nonDecreasing.le hgt hexit.half hexit'.half rfl rfl
        omega
    exact c.eq_of_ends_eq hclock c' (le_antisymm hbefore hends'')

end Whyslow
