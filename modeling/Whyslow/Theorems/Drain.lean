import Whyslow.Theorems.Recorded
import Whyslow.Theorems.Wire

/-! What `drain_ring_buffer` returns. Whatever the producers do in between, the events it has collected are those of
    the records it has released, and these are the first ones, in the order they were reserved in; a call of `next`
    finds nothing exactly when it has come to the first record that is not committed. -/

namespace Whyslow
open Runs

/-! ### The committed records -/

/-- The items of the records before the first one that is not committed. -/
def committed : List (Option (List UInt8)) → List (List UInt8)
  | some item :: records => item :: committed records
  | none :: _ => []
  | [] => []

/-- The events of the records before the first one that is not committed; a record of another size has none. -/
def drained (records : List (Option (List UInt8))) : List TraceEvent :=
  (committed records).filterMap fun item => (decodeEvent item).map TraceEvent.ofEvent

section Committed
variable {records : List (Option (List UInt8))} {k : Nat} {item : List UInt8}

theorem committed_getElem? (hk : k ≤ (committed records).length) : (committed records)[k]? = (records[k]?).join := by
  induction records generalizing k with
  | nil => simp [committed]
  | cons r records ih =>
    cases r with
    | none =>
      obtain rfl : k = 0 := by simpa [committed] using hk
      rfl
    | some item =>
      cases k with
      | zero => rfl
      | succ k => exact ih (Nat.le_of_succ_le_succ hk)

theorem committed_append_none (records : List (Option (List UInt8))) :
    committed (records ++ [none]) = committed records := by
  induction records with
  | nil => rfl
  | cons r records ih =>
    cases r with
    | none => rfl
    | some item => exact congrArg (item :: ·) ih

/-- A commit adds to the committed records at their end, or not at all. -/
theorem committed_prefix_set (h : records[k]? = some none) :
    committed records <+: committed (records.set k (some item)) := by
  induction records generalizing k with
  | nil => cases h
  | cons r records ih =>
    cases r with
    | none => exact List.nil_prefix
    | some first =>
      cases k with
      | zero => cases h
      | succ k => exact (List.prefix_cons_inj first).mpr (ih h)

theorem lt_length_committed (h : ∀ j ≤ k, ((records[j]?).join).isSome) : k < (committed records).length := by
  induction records generalizing k with
  | nil => simpa using h 0 (Nat.zero_le k)
  | cons r records ih =>
    cases r with
    | none => simpa using h 0 (Nat.zero_le k)
    | some item =>
      cases k with
      | zero => exact Nat.succ_pos _
      | succ k => exact Nat.succ_lt_succ (ih fun j hj => h (j + 1) (Nat.succ_le_succ hj))

theorem drained_prefix {records' : List (Option (List UInt8))} (h : committed records <+: committed records') :
    drained records <+: drained records' := h.filterMap _

end Committed

/-! ### Steps -/

section Steps
variable {s : Drain} {a : DrainAct}

theorem committed_step (ha : s.Allows a) : committed s.ring.records <+: committed (s.step a).ring.records := by
  cases a with
  | reserve =>
    show _ <+: committed (s.ring.records ++ [none])
    rw [committed_append_none]
  | commit i item => exact committed_prefix_set ha
  | next =>
    unfold Drain.step
    dsimp only
    split
    · split <;> exact List.prefix_rfl
    · exact List.prefix_rfl
  | decode =>
    unfold Drain.step
    dsimp only
    split <;> exact List.prefix_rfl
  | shouldStop stop => exact List.prefix_rfl
  | poll => exact List.prefix_rfl

/-- The events are those of the released records, all of them committed, and an item in hand is the next one. -/
structure Consumed (s : Drain) : Prop where
  le : s.ring.consumed ≤ (committed s.ring.records).length
  events : s.events = ((committed s.ring.records).take s.ring.consumed).filterMap fun item =>
    (decodeEvent item).map TraceEvent.ofEvent
  item : ∀ last item, s.pc = .decode last item → (committed s.ring.records)[s.ring.consumed]? = some item

theorem Consumed.start (records : List (Option (List UInt8))) : Consumed (Drain.start records) where
  le := Nat.zero_le _
  events := rfl
  item _ _ h := by cases h

/-- The producers only add to the committed records, so what was released stays what it was. -/
theorem Consumed.grow (h : Consumed s) {records' : List (Option (List UInt8))}
    (hgrow : committed s.ring.records <+: committed records') :
    Consumed { s with ring.records := records' } := by
  obtain ⟨more, hmore⟩ := hgrow
  refine ⟨?_, ?_, ?_⟩
  · show s.ring.consumed ≤ (committed records').length
    rw [← hmore, List.length_append]
    exact h.le.trans (Nat.le_add_right _ _)
  · show s.events = ((committed records').take s.ring.consumed).filterMap _
    rw [← hmore, List.take_append_of_le_length h.le]
    exact h.events
  · intro last item hpc
    show (committed records')[s.ring.consumed]? = some item
    have hitem := h.item last item hpc
    rw [← hmore, List.getElem?_append_left (List.getElem?_eq_some_iff.mp hitem).1]
    exact hitem

theorem Consumed.next_eq (h : Consumed s) : (committed s.ring.records)[s.ring.consumed]? = s.ring.next :=
  committed_getElem? h.le

theorem Consumed.release (h : Consumed s) {last : Bool} {item : List UInt8} (hpc : s.pc = .decode last item) :
    Consumed ⟨{ s.ring with consumed := s.ring.consumed + 1 }, Drain.push s.events item, .next last⟩ := by
  have hitem := h.item last item hpc
  refine ⟨(List.getElem?_eq_some_iff.mp hitem).1, ?_, nofun⟩
  show Drain.push s.events item = ((committed s.ring.records).take (s.ring.consumed + 1)).filterMap _
  rw [List.take_add_one, hitem, Option.toList_some, List.filterMap_append, ← h.events]
  unfold Drain.push
  cases hdec : decodeEvent item <;> simp [hdec]

theorem Consumed.step (h : Consumed s) (ha : s.Allows a) : Consumed (s.step a) := by
  have hgrow := committed_step ha
  cases a with
  | reserve => exact h.grow hgrow
  | commit i item => exact h.grow hgrow
  | next =>
    have hnext := h.next_eq
    unfold Drain.step
    dsimp only
    split
    · split
      · rename_i item hitem
        refine ⟨h.le, h.events, ?_⟩
        rintro last' item' ⟨⟩
        exact hnext.trans hitem
      · refine ⟨h.le, h.events, ?_⟩
        intro last' item' hpc
        dsimp only at hpc
        split at hpc <;> cases hpc
    · exact h
  | decode =>
    unfold Drain.step
    dsimp only
    split
    · rename_i last item hpc
      exact h.release hpc
    · exact h
  | shouldStop stop =>
    refine ⟨h.le, h.events, ?_⟩
    intro last item hpc
    cases stop <;> cases hpc
  | poll => exact ⟨h.le, h.events, nofun⟩

/-- A call of `next` that finds nothing has come to the end of the committed records. -/
theorem Consumed.drained_of_none (h : Consumed s) (hnext : s.ring.next = none) : s.events = drained s.ring.records := by
  have hnone : (committed s.ring.records)[s.ring.consumed]? = none := h.next_eq.trans hnext
  rw [h.events, List.take_of_length_le (List.getElem?_eq_none_iff.mp hnone)]
  rfl

theorem returned_step (ha : s.Allows a) (hpc : s.pc = .returned) :
    (s.step a).pc = .returned ∧ (s.step a).events = s.events := by
  cases a with
  | reserve => exact ⟨hpc, rfl⟩
  | commit i item => exact ⟨hpc, rfl⟩
  | next => simp [Drain.Allows, hpc, DrainPc.isNext] at ha
  | decode => simp [Drain.Allows, hpc, DrainPc.isDecode] at ha
  | shouldStop stop => cases hpc.symm.trans ha
  | poll => cases hpc.symm.trans ha

/-- The only step to the return is a call of `next` in the last drain that finds nothing. -/
theorem returned_cases (hpc : (s.step a).pc = .returned) :
    s.pc = .returned ∨ (a = .next ∧ s.pc = .next true ∧ s.ring.next = none ∧ (s.step a).events = s.events) := by
  cases a with
  | reserve => exact Or.inl hpc
  | commit i item => exact Or.inl hpc
  | next =>
    unfold Drain.step at hpc ⊢
    dsimp only at hpc ⊢
    split at hpc
    · rename_i last hlast
      split at hpc
      · cases hpc
      · rename_i hnone
        cases last with
        | false => cases hpc
        | true => exact Or.inr ⟨rfl, hlast, hnone, rfl⟩
    · exact Or.inl hpc
  | decode =>
    unfold Drain.step at hpc
    dsimp only at hpc
    split at hpc
    · cases hpc
    · exact Or.inl hpc
  | shouldStop stop => cases stop <;> cases hpc
  | poll => cases hpc

end Steps

/-! ### Runs -/

def drainAt (records : List (Option (List UInt8))) (l : List DrainAct) (n : Nat) : Drain :=
  stateAt Drain.step (Drain.start records) l n

section Run
variable {records : List (Option (List UInt8))} {l : List DrainAct}
  (hrun : Allowed Drain.step Drain.Allows (Drain.start records) l)
include hrun

theorem consumed_at (n : Nat) : Consumed (drainAt records l n) :=
  hrun.induction (Consumed.start records) (fun _ _ hs ha => hs.step ha) n

theorem committed_mono {i j : Nat} (hij : i ≤ j) :
    committed (drainAt records l i).ring.records <+: committed (drainAt records l j).ring.records := by
  refine stateAt_stays (P := fun s : Drain => committed (drainAt records l i).ring.records <+: committed s.ring.records)
    hij List.prefix_rfl ?_
  intro k _ _ a ha hk
  exact hk.trans (committed_step (hrun.at ha))

/-- The return goes back to the last call of `next`; every answer of `should_stop` came before it. -/
theorem exists_last_next {n : Nat} (hret : (drainAt records l n).pc = .returned) :
    ∃ i < n, l[i]? = some .next ∧ (drainAt records l i).pc = .next true ∧ (drainAt records l i).ring.next = none ∧
      (drainAt records l n).events = (drainAt records l i).events ∧
      ∀ j < n, ∀ stop, l[j]? = some (.shouldStop stop) → j < i := by
  induction n with
  | zero => cases hret
  | succ n ih =>
    cases ha : l[n]? with
    | none =>
      have hsame : drainAt records l (n + 1) = drainAt records l n := stateAt_succ_of_none ha
      rw [hsame] at hret ⊢
      obtain ⟨i, hi, hnext, hpc, hnone, hevents, hstops⟩ := ih hret
      refine ⟨i, by omega, hnext, hpc, hnone, hevents, ?_⟩
      intro j hj stop hstop
      rcases Nat.lt_succ_iff_lt_or_eq.mp hj with hj | rfl
      · exact hstops j hj stop hstop
      · cases ha.symm.trans hstop
    | some a =>
      have hallows := hrun.at ha
      have hstep : drainAt records l (n + 1) = (drainAt records l n).step a := stateAt_succ ha
      rw [hstep] at hret ⊢
      rcases returned_cases hret with hbefore | ⟨rfl, hpc, hnone, hevents⟩
      · obtain ⟨i, hi, hnext, hpc, hnone, hevents, hstops⟩ := ih hbefore
        refine ⟨i, by omega, hnext, hpc, hnone, (returned_step hallows hbefore).2.trans hevents, ?_⟩
        intro j hj stop hstop
        rcases Nat.lt_succ_iff_lt_or_eq.mp hj with hj | rfl
        · exact hstops j hj stop hstop
        · obtain rfl := Option.some.inj (ha.symm.trans hstop)
          cases hbefore.symm.trans hallows
      · refine ⟨n, Nat.lt_succ_self n, ha, hpc, hnone, hevents, ?_⟩
        intro j hj stop hstop
        rcases Nat.lt_succ_iff_lt_or_eq.mp hj with hj | rfl
        · exact hj
        · cases ha.symm.trans hstop

/-- Under every interleaving with the producers: when `drain_ring_buffer` has returned, its result is exactly the
    events of the records before the first one that was not committed at its last call of `next`, in the order they
    were reserved in. What was committed with all records before it when `should_stop` said so is among them. -/
theorem drain_returns_committed {n : Nat} (hret : (drainAt records l n).pc = .returned) :
    ∃ i < n, l[i]? = some .next ∧ (drainAt records l i).pc = .next true ∧ (drainAt records l i).ring.next = none ∧
      (drainAt records l n).events = drained (drainAt records l i).ring.records ∧
      ∀ j < n, l[j]? = some (.shouldStop true) →
        drained (drainAt records l j).ring.records <+: (drainAt records l n).events ∧
        ∀ (k : Nat) item, (drainAt records l j).ring.records[k]? = some (some item) → item.length = eventSize →
          (∀ k' ≤ k, (((drainAt records l j).ring.records[k']?).join).isSome) →
          ∃ ev, decodeEvent item = some ev ∧ TraceEvent.ofEvent ev ∈ (drainAt records l n).events := by
  obtain ⟨i, hi, hnext, hpc, hnone, hevents, hstops⟩ := exists_last_next hrun hret
  have hresult : (drainAt records l n).events = drained (drainAt records l i).ring.records :=
    hevents.trans ((consumed_at hrun i).drained_of_none hnone)
  refine ⟨i, hi, hnext, hpc, hnone, hresult, ?_⟩
  intro j hj hstop
  have hinit : drained (drainAt records l j).ring.records <+: (drainAt records l n).events := by
    rw [hresult]
    exact drained_prefix (committed_mono hrun (hstops j hj true hstop).le)
  refine ⟨hinit, ?_⟩
  intro k item hitem hsize hearlier
  obtain ⟨ev, hev⟩ := Option.isSome_iff_exists.mp (decodeEvent_isSome_iff.mpr hsize)
  have hk := lt_length_committed hearlier
  have hmem : item ∈ committed (drainAt records l j).ring.records := by
    refine List.mem_of_getElem? (i := k) ?_
    rw [committed_getElem? hk.le, hitem]
    rfl
  refine ⟨ev, hev, hinit.subset (List.mem_filterMap.mpr ⟨item, hmem, ?_⟩)⟩
  rw [hev]
  rfl

end Run

/-- Two producers commit out of order, and a third record is committed after `should_stop` has answered. -/
def raceRun : List DrainAct :=
  [.reserve, .reserve, .commit 1 [1, 2, 3], .next, .shouldStop false, .poll, .commit 0 (List.replicate 56 0), .next,
    .decode, .next, .decode, .next, .shouldStop true, .reserve, .commit 2 (List.replicate 56 7), .next, .decode, .next]

theorem drain_returns_committed_raceRun : Allowed Drain.step Drain.Allows (Drain.start []) raceRun ∧
    (drainAt [] raceRun 18).pc = .returned ∧ (drainAt [] raceRun 18).events.map (·.tid) = [0, 0x07070707] ∧
    drained (drainAt [] raceRun 12).ring.records <+: (drainAt [] raceRun 18).events := by
  have hrun : Allowed Drain.step Drain.Allows (Drain.start []) raceRun := by decide
  have hret : (drainAt [] raceRun 18).pc = .returned := by decide
  obtain ⟨i, -, -, -, -, -, hstops⟩ := drain_returns_committed hrun hret
  exact ⟨hrun, hret, by decide, (hstops 12 (by decide) rfl).1⟩

end Whyslow
