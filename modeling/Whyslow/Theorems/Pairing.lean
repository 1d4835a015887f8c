import Whyslow.Theorems.Halves

/-! Every event pairs a completion with the start it belongs to. The three start maps are instances of
    `Spans`, so an entry is the latest successful start of its key with no completion since
    (`Spans.get_eq_some_iff`); an event is made from that entry. -/

namespace Whyslow
open Runs

/-! ### The start maps -/

def blockSpans : Spans Maps.half UInt32 BlockStart := ⟨(·.blockStart), fun m a => a.blockAct m, fun _ _ => rfl⟩

def futexSpans : Spans Maps.half UInt32 FutexStart := ⟨(·.futexStart), fun m a => a.futexAct m, fun _ _ => rfl⟩

def blockIoSpans : Spans Maps.half UInt64 BlockIoStart :=
  ⟨(·.blockIoStart), fun m a => a.blockIoAct m, fun _ _ => rfl⟩

def Half.switchedIn? : Half → Option UInt32
  | .switchIn _ evt => some evt.nextPid.toUInt32
  | _ => none

def Half.exitedFutex? : Half → Option UInt32
  | .futexExit h => some h.currentTid
  | _ => none

def Half.completedKey? : Half → Option UInt64
  | .blockRqComplete _ evt => some (packBlockKey evt.dev evt.sector)
  | _ => none

theorem ktime?_isSome {K : Type} {f : Half → Option K} (hf : ∀ tgid, f (.setTargetTgid tgid) = none) {a : Half} {k : K}
    (h : f a = some k) : a.ktime?.isSome := by
  cases a with
  | setTargetTgid tgid =>
    rw [hf tgid] at h
    cases h
  | _ => rfl

theorem blockAct_start {m : Maps} {a : Half} {k : UInt32} {v : BlockStart} (ha : a.blockAct m = .start k v) :
    ∃ h evt, a = .switchOut h evt ∧ m.targetTgid ≠ 0 ∧ evt.prevState ≠ taskRunning ∧ h.currentTgid = m.targetTgid ∧
      k = evt.prevPid.toUInt32 ∧ v = ⟨h.ktimeGetNs, h.currentTgid, evt.prevComm⟩ := by
  cases a with
  | switchOut h evt =>
    simp only [Half.blockAct] at ha
    split at ha
    · rename_i hg
      cases ha
      exact ⟨h, evt, rfl, hg.1, hg.2.1, hg.2.2, rfl, rfl⟩
    · cases ha
  | switchIn h evt =>
    simp only [Half.blockAct] at ha
    split at ha <;> cases ha
  | _ => cases ha

theorem futexAct_start {m : Maps} {a : Half} {k : UInt32} {v : FutexStart} (ha : a.futexAct m = .start k v) :
    ∃ h evt, a = .futexEnter h evt ∧ m.targetTgid ≠ 0 ∧ h.currentTgid = m.targetTgid ∧ k = h.currentTid ∧
      v = ⟨h.ktimeGetNs, evt.uaddr, evt.op, h.currentTgid, h.comm⟩ := by
  cases a with
  | futexEnter h evt =>
    simp only [Half.futexAct] at ha
    split at ha
    · rename_i hg
      cases ha
      exact ⟨h, evt, rfl, hg.1, hg.2, rfl, rfl⟩
    · cases ha
  | _ => cases ha

theorem blockIoAct_start {m : Maps} {a : Half} {k : UInt64} {v : BlockIoStart} (ha : a.blockIoAct m = .start k v) :
    ∃ h evt, a = .blockRqIssue h evt ∧ m.targetTgid ≠ 0 ∧ h.currentTgid = m.targetTgid ∧
      k = packBlockKey evt.dev evt.sector ∧ v = ⟨h.ktimeGetNs, h.currentTgid, h.currentTid, h.comm⟩ := by
  cases a with
  | blockRqIssue h evt =>
    simp only [Half.blockIoAct] at ha
    split at ha
    · rename_i hg
      cases ha
      exact ⟨h, evt, rfl, hg.1, hg.2, rfl, rfl⟩
    · cases ha
  | _ => cases ha

theorem opens_block_iff {m : Maps} {a : Half} {k : UInt32} {v : BlockStart} : blockSpans.Opens m a k v ↔
    ∃ h evt, a = .switchOut h evt ∧ m.targetTgid ≠ 0 ∧ evt.prevState ≠ taskRunning ∧ h.currentTgid = m.targetTgid ∧
      k = evt.prevPid.toUInt32 ∧ v = ⟨h.ktimeGetNs, h.currentTgid, evt.prevComm⟩ ∧ m.blockStart.HasSlot k := by
  refine ⟨?_, ?_⟩
  · rintro ⟨hstart, hslot⟩
    obtain ⟨h, evt, ha, ht, hs, hp, hk, hv⟩ := blockAct_start hstart
    exact ⟨h, evt, ha, ht, hs, hp, hk, hv, hslot⟩
  · rintro ⟨h, evt, rfl, ht, hs, hp, rfl, rfl, hslot⟩
    exact ⟨if_pos ⟨ht, hs, hp⟩, hslot⟩

theorem opens_futex_iff {m : Maps} {a : Half} {k : UInt32} {v : FutexStart} : futexSpans.Opens m a k v ↔
    ∃ h evt, a = .futexEnter h evt ∧ m.targetTgid ≠ 0 ∧ h.currentTgid = m.targetTgid ∧ k = h.currentTid ∧
      v = ⟨h.ktimeGetNs, evt.uaddr, evt.op, h.currentTgid, h.comm⟩ ∧ m.futexStart.HasSlot k := by
  refine ⟨?_, ?_⟩
  · rintro ⟨hstart, hslot⟩
    obtain ⟨h, evt, ha, ht, hp, hk, hv⟩ := futexAct_start hstart
    exact ⟨h, evt, ha, ht, hp, hk, hv, hslot⟩
  · rintro ⟨h, evt, rfl, ht, hp, rfl, rfl, hslot⟩
    exact ⟨if_pos ⟨ht, hp⟩, hslot⟩

theorem opens_blockIo_iff {m : Maps} {a : Half} {k : UInt64} {v : BlockIoStart} : blockIoSpans.Opens m a k v ↔
    ∃ h evt, a = .blockRqIssue h evt ∧ m.targetTgid ≠ 0 ∧ h.currentTgid = m.targetTgid ∧
      k = packBlockKey evt.dev evt.sector ∧ v = ⟨h.ktimeGetNs, h.currentTgid, h.currentTid, h.comm⟩ ∧
      m.blockIoStart.HasSlot k := by
  refine ⟨?_, ?_⟩
  · rintro ⟨hstart, hslot⟩
    obtain ⟨h, evt, ha, ht, hp, hk, hv⟩ := blockIoAct_start hstart
    exact ⟨h, evt, ha, ht, hp, hk, hv, hslot⟩
  · rintro ⟨h, evt, rfl, ht, hp, rfl, rfl, hslot⟩
    exact ⟨if_pos ⟨ht, hp⟩, hslot⟩

theorem blockAct_complete {m : Maps} {a : Half} {k : UInt32} (ht : m.targetTgid ≠ 0) :
    a.blockAct m = .complete k ↔ a.switchedIn? = some k := by
  cases a <;> simp [Half.blockAct, Half.switchedIn?, ht]
  split <;> simp

theorem futexAct_complete {m : Maps} {a : Half} {k : UInt32} :
    a.futexAct m = .complete k ↔ a.exitedFutex? = some k := by
  cases a <;> simp [Half.futexAct, Half.exitedFutex?]
  split <;> simp

theorem blockIoAct_complete {m : Maps} {a : Half} {k : UInt64} :
    a.blockIoAct m = .complete k ↔ a.completedKey? = some k := by
  cases a <;> simp [Half.blockIoAct, Half.completedKey?]
  split <;> simp

/-! ### The target -/

def Step.target? : Step → Option UInt32
  | .setTargetTgid tgid => some tgid
  | _ => none

/-- The only target ever set is `T`, which names a process. -/
def SetsOnly (T : UInt32) (steps : List Step) : Prop := T ≠ 0 ∧ ∀ tgid, .setTargetTgid tgid ∈ steps → tgid = T

theorem setsOnly_iff {T : UInt32} {steps : List Step} : SetsOnly T steps ↔
    T ≠ 0 ∧ ∀ st ∈ steps, st = .setTargetTgid T ∨ st.target? = none := by
  refine and_congr_right fun _ => ⟨?_, ?_⟩
  · intro h st hst
    cases st with
    | setTargetTgid tgid => exact Or.inl (by rw [h tgid hst])
    | _ => exact Or.inr rfl
  · intro h tgid hst
    rcases h _ hst with heq | hnone
    · exact Step.setTargetTgid.inj heq
    · cases hnone

instance (T : UInt32) (steps : List Step) : Decidable (SetsOnly T steps) := decidable_of_iff _ setsOnly_iff.symm

theorem mem_halves_setTargetTgid {steps : List Step} {tgid : UInt32} (h : .setTargetTgid tgid ∈ halves steps) :
    .setTargetTgid tgid ∈ steps := by
  obtain ⟨st, hst, h⟩ := List.mem_flatMap.mp h
  unfold Step.halves at h
  split at h <;> simp at h
  rw [h]
  exact hst

theorem target_half {T : UInt32} {steps : List Step} (hT : SetsOnly T steps) {m : Maps} {a : Half}
    (ha : a ∈ halves steps) : (m.half a).targetTgid = m.targetTgid ∨ (m.half a).targetTgid = T := by
  cases a with
  | setTargetTgid tgid => exact Or.inr (hT.2 tgid (mem_halves_setTargetTgid ha))
  | _ => exact Or.inl rfl

theorem target_eq {T : UInt32} {steps : List Step} (hT : SetsOnly T steps) (n : Sizes) (i : Nat) :
    (mapsAt n steps i).targetTgid = 0 ∨ (mapsAt n steps i).targetTgid = T :=
  stateAt_induction (P := fun m : Maps => m.targetTgid = 0 ∨ m.targetTgid = T) (Or.inl rfl)
    (fun m a ha hm => by
      rcases target_half hT (m := m) ha with h | h
      · rw [h]; exact hm
      · exact Or.inr h) i

theorem target_stays {T : UInt32} {steps : List Step} (hT : SetsOnly T steps) {n : Sizes} {i j : Nat} (hij : i ≤ j)
    (hi : (mapsAt n steps i).targetTgid ≠ 0) : (mapsAt n steps j).targetTgid = T := by
  refine stateAt_stays (P := fun m : Maps => m.targetTgid = T) hij ((target_eq hT n i).resolve_left hi) ?_
  intro k _ _ a ha hk
  rcases target_half hT (List.mem_of_getElem? ha) with h | h
  · rw [h]; exact hk
  · exact h

/-! ### The clock -/

def ClockNonDecreasing (steps : List Step) : Prop := (steps.filterMap Step.ktime?).Pairwise (· ≤ ·)

def ClockIncreasing (steps : List Step) : Prop := (steps.filterMap Step.ktime?).Pairwise (· < ·)

instance (steps : List Step) : Decidable (ClockNonDecreasing steps) :=
  inferInstanceAs (Decidable (List.Pairwise _ _))

instance (steps : List Step) : Decidable (ClockIncreasing steps) :=
  inferInstanceAs (Decidable (List.Pairwise _ _))

theorem ClockIncreasing.nonDecreasing {steps : List Step} (h : ClockIncreasing steps) : ClockNonDecreasing steps :=
  h.imp fun hlt => UInt64.le_iff_toNat_le.mpr (UInt64.lt_iff_toNat_lt.mp hlt).le

theorem ktime?_of_mem_halves {st : Step} {a : Half} (h : a ∈ st.halves) : a.ktime? = st.ktime? := by
  unfold Step.halves at h
  split at h <;> simp at h
  case h_2 => rcases h with rfl | rfl <;> rfl
  all_goals rw [h]; rfl

/-- The two halves of a context switch have one clock reading; any other two halves have those of two
    programs, in order. -/
theorem clock_halves {r : UInt64 → UInt64 → Prop} {steps : List Step}
    (hclock : (steps.filterMap Step.ktime?).Pairwise r) {i j : Nat} (hij : i < j) {a b : Half}
    (ha : (halves steps)[i]? = some a) (hb : (halves steps)[j]? = some b) :
    (∀ t t', a.ktime? = some t → b.ktime? = some t' → r t t') ∨
      ∃ h evt, a = .switchOut h evt ∧ b = .switchIn h evt := by
  rw [List.pairwise_filterMap] at hclock
  have hpair : (halves steps).Pairwise fun a b => (∀ t t', a.ktime? = some t → b.ktime? = some t' → r t t') ∨
      ∃ h evt, a = .switchOut h evt ∧ b = .switchIn h evt := by
    unfold halves
    rw [List.pairwise_flatMap]
    refine ⟨fun st _ => ?_, hclock.imp ?_⟩
    · unfold Step.halves
      split <;> simp
    · intro st st' hr a ha b hb
      refine Or.inl fun t t' ht ht' => hr t ?_ t' ?_
      · rw [← ktime?_of_mem_halves ha]; exact ht
      · rw [← ktime?_of_mem_halves hb]; exact ht'
  obtain ⟨hi, rfl⟩ := List.getElem?_eq_some_iff.mp ha
  obtain ⟨hj, rfl⟩ := List.getElem?_eq_some_iff.mp hb
  exact List.pairwise_iff_getElem.mp hpair i j hi hj hij

theorem ClockNonDecreasing.le {steps : List Step} (hclock : ClockNonDecreasing steps) {i j : Nat} (hij : i < j)
    {a b : Half} (ha : (halves steps)[i]? = some a) (hb : (halves steps)[j]? = some b) {t t' : UInt64}
    (ht : a.ktime? = some t) (ht' : b.ktime? = some t') : t.toNat ≤ t'.toNat := by
  rcases clock_halves hclock hij ha hb with h | ⟨h, evt, rfl, rfl⟩
  · exact UInt64.le_iff_toNat_le.mp (h t t' ht ht')
  · rw [Option.some.inj (ht.symm.trans ht')]

theorem ClockNonDecreasing.pos_lt {steps : List Step} (hclock : ClockNonDecreasing steps) {i j : Nat} {a b : Half}
    (ha : (halves steps)[i]? = some a) (hb : (halves steps)[j]? = some b) {t t' : UInt64} (ht : a.ktime? = some t)
    (ht' : b.ktime? = some t') (hlt : t.toNat < t'.toNat) : i < j := by
  rcases Nat.lt_trichotomy i j with h | rfl | h
  · exact h
  · obtain rfl := Option.some.inj (ha.symm.trans hb)
    obtain rfl := Option.some.inj (ht.symm.trans ht')
    exact absurd hlt (lt_irrefl _)
  · exact absurd (hclock.le h hb ha ht' ht) (not_le.mpr hlt)

/-! ### Pairing -/

section Pairing
variable {K V : Type} [DecidableEq K] (M : Spans Maps.half K V) (completes : Half → Option K)

/-- A successful start on `k` before half `i`, with no half in between that completes `k`. -/
def EarlierStart (n : Sizes) (steps : List Step) (i : Nat) (k : K) (v : V) : Prop :=
  ∃ j < i, ∃ a, (halves steps)[j]? = some a ∧ M.Opens (mapsAt n steps j) a k v ∧
    ∀ j', j < j' → j' < i → ∀ b, (halves steps)[j']? = some b → completes b ≠ some k

/-- The latest of these starts. -/
def LatestStart (n : Sizes) (steps : List Step) (i : Nat) (k : K) (v : V) : Prop :=
  ∃ j < i, ∃ a, (halves steps)[j]? = some a ∧ M.Opens (mapsAt n steps j) a k v ∧
    ∀ j', j < j' → j' < i → ∀ b, (halves steps)[j']? = some b →
      completes b ≠ some k ∧ ∀ w, ¬M.Opens (mapsAt n steps j') b k w

/-- What the three start maps have in common: starts need a target, and with a target set a half
    completes a key exactly when its record says so. -/
structure Filtered : Prop where
  empty : ∀ n k, (M.map (Maps.loaded n)).get k = none
  target : ∀ {m a k v}, M.act m a = .start k v → m.targetTgid ≠ 0
  complete : ∀ {m a k}, m.targetTgid ≠ 0 → (M.act m a = .complete k ↔ completes a = some k)

variable {M completes} {n : Sizes} {T : UInt32} {steps : List Step} {i : Nat} {k : K} {v : V}

theorem Filtered.latestStart_iff (F : Filtered M completes) (hT : SetsOnly T steps) :
    LatestStart M completes n steps i k v ↔ (M.map (mapsAt n steps i)).get k = some v := by
  rw [mapsAt, M.get_eq_some_iff (F.empty n)]
  -- After a successful start the target is set, so the halves that complete `k` are those that say so.
  have hiff : ∀ {j a}, M.Opens (mapsAt n steps j) a k v → ∀ j' b, j < j' →
      (M.act (mapsAt n steps j') b ≠ .complete k ↔ completes b ≠ some k) := by
    intro j a hopen j' b hj
    have ht := target_stays hT hj.le (F.target hopen.1)
    exact not_congr (F.complete (by rw [ht]; exact hT.1))
  refine ⟨?_, ?_⟩
  · intro h
    obtain ⟨j, hj, a, ha, hopen, hrest⟩ := h
    refine ⟨j, hj, a, ha, hopen, ?_⟩
    intro j' h1 h2 b hb
    exact ⟨(hiff hopen j' b h1).mpr (hrest j' h1 h2 b hb).1, (hrest j' h1 h2 b hb).2⟩
  · intro h
    obtain ⟨j, hj, a, ha, hopen, hrest⟩ := h
    refine ⟨j, hj, a, ha, hopen, ?_⟩
    intro j' h1 h2 b hb
    exact ⟨(hiff hopen j' b h1).mp (hrest j' h1 h2 b hb).1, (hrest j' h1 h2 b hb).2⟩

theorem Filtered.exists_latestStart_iff (F : Filtered M completes) (hT : SetsOnly T steps) :
    (∃ v, LatestStart M completes n steps i k v) ↔ ∃ v, EarlierStart M completes n steps i k v := by
  refine ⟨?_, ?_⟩
  · intro h
    obtain ⟨v, j, hj, a, ha, hopen, hrest⟩ := h
    exact ⟨v, j, hj, a, ha, hopen, fun j' h1 h2 b hb => (hrest j' h1 h2 b hb).1⟩
  · intro h
    obtain ⟨v, j, hj, a, ha, hopen, hrest⟩ := h
    obtain ⟨w, hw⟩ := M.exists_openAt hj ha hopen fun j' h1 h2 b hb hact => by
      have ht := target_stays hT h1.le (F.target hopen.1)
      exact hrest j' h1 h2 b hb ((F.complete (by rw [← mapsAt, ht]; exact hT.1)).mp hact)
    exact ⟨w, (F.latestStart_iff hT).mpr ((M.get_eq_some_iff (F.empty n) i).mpr hw)⟩

theorem Filtered.latestStart_unique (F : Filtered M completes) (hT : SetsOnly T steps) {w : V}
    (hv : LatestStart M completes n steps i k v) (hw : LatestStart M completes n steps i k w) : v = w :=
  Option.some.inj (((F.latestStart_iff hT).mp hv).symm.trans ((F.latestStart_iff hT).mp hw))

end Pairing

theorem blockSpans_filtered : Filtered blockSpans Half.switchedIn? where
  empty _ _ := rfl
  target h := by
    obtain ⟨_, _, -, ht, -⟩ := blockAct_start h
    exact ht
  complete ht := blockAct_complete ht

theorem futexSpans_filtered : Filtered futexSpans Half.exitedFutex? where
  empty _ _ := rfl
  target h := by
    obtain ⟨_, _, -, ht, -⟩ := futexAct_start h
    exact ht
  complete _ := futexAct_complete

theorem blockIoSpans_filtered : Filtered blockIoSpans Half.completedKey? where
  empty _ _ := rfl
  target h := by
    obtain ⟨_, _, -, ht, -⟩ := blockIoAct_start h
    exact ht
  complete _ := blockIoAct_complete

/-! ### Events -/

theorem futexEventType_eq_some_iff {op : UInt32} {type : UInt8} : futexEventType op = some type ↔
    ((op &&& futexCmdMask = futexWait ∨ op &&& futexCmdMask = futexWaitBitset) ∧ type = eventFutexWait) ∨
    ((op &&& futexCmdMask = futexWake ∨ op &&& futexCmdMask = futexWakeBitset) ∧ type = eventFutexWake) := by
  unfold futexEventType
  dsimp only
  split
  case isTrue hwait =>
    -- the wait codes are none of the wake codes
    have hwake : ¬(op &&& futexCmdMask = futexWake ∨ op &&& futexCmdMask = futexWakeBitset) := by
      rcases hwait with hop | hop <;> rw [hop] <;> decide
    simp only [hwait, hwake, true_and, false_and, or_false, Option.some.injEq]
    exact eq_comm
  case isFalse hwait =>
    simp only [hwait, false_and, false_or]
    split
    case isTrue hwake =>
      simp only [hwake, true_and, Option.some.injEq]
      exact eq_comm
    case isFalse hwake => simp only [hwake, false_and, reduceCtorEq]

theorem futexEventType_cases {op : UInt32} {type : UInt8} (h : futexEventType op = some type) :
    type = eventFutexWait ∨ type = eventFutexWake := by
  rcases futexEventType_eq_some_iff.mp h with ⟨-, rfl⟩ | ⟨-, rfl⟩
  · exact Or.inl rfl
  · exact Or.inr rfl

theorem futexEventType_ne {op : UInt32} {type : UInt8} (h : futexEventType op = some type) :
    type ≠ eventSchedBlock ∧ type ≠ eventBlockIo := by
  rcases futexEventType_cases h with rfl | rfl <;> decide

theorem produces_cases {m : Maps} {a : Half} {ev : Event} (h : a.produces m = some ev) :
    (∃ h evt start, a = .switchIn h evt ∧ m.targetTgid ≠ 0 ∧
      m.blockStart.get evt.nextPid.toUInt32 = some start ∧ ev = schedBlockEvent h evt start) ∨
    (∃ h start type, a = .futexExit h ∧ m.futexStart.get h.currentTid = some start ∧
      futexEventType start.op = some type ∧ ev = futexEvent h start type) ∨
    (∃ h evt start, a = .blockRqComplete h evt ∧
      m.blockIoStart.get (packBlockKey evt.dev evt.sector) = some start ∧ ev = blockIoEvent h evt start) := by
  cases a with
  | switchIn hp evt =>
    simp only [Half.produces] at h
    split at h
    · rename_i ht
      obtain ⟨start, hget, rfl⟩ := Option.map_eq_some_iff.mp h
      exact Or.inl ⟨hp, evt, start, rfl, ht, hget, rfl⟩
    · cases h
  | futexExit hp =>
    obtain ⟨start, hget, h⟩ := Option.bind_eq_some_iff.mp h
    obtain ⟨type, hty, rfl⟩ := Option.map_eq_some_iff.mp h
    exact Or.inr (Or.inl ⟨hp, start, type, rfl, hget, hty, rfl⟩)
  | blockRqComplete hp evt =>
    obtain ⟨start, hget, rfl⟩ := Option.map_eq_some_iff.mp h
    exact Or.inr (Or.inr ⟨hp, evt, start, rfl, hget, rfl⟩)
  | _ => cases h

section OfType
variable {m : Maps} {a : Half} {ev : Event}

theorem produces_stall (h : a.produces m = some ev) (hty : ev.eventType = eventSchedBlock) :
    ∃ h evt start, a = .switchIn h evt ∧ m.targetTgid ≠ 0 ∧
      m.blockStart.get evt.nextPid.toUInt32 = some start ∧ ev = schedBlockEvent h evt start := by
  rcases produces_cases h with hstall | ⟨_, _, type, -, -, htype, rfl⟩ | ⟨_, _, _, -, -, rfl⟩
  · exact hstall
  · exact absurd hty (futexEventType_ne htype).1
  · cases hty

theorem produces_call (h : a.produces m = some ev)
    (hty : ev.eventType = eventFutexWait ∨ ev.eventType = eventFutexWake) :
    ∃ h start type, a = .futexExit h ∧ m.futexStart.get h.currentTid = some start ∧
      futexEventType start.op = some type ∧ ev = futexEvent h start type := by
  rcases produces_cases h with ⟨_, _, _, -, -, -, rfl⟩ | hcall | ⟨_, _, _, -, -, rfl⟩
  · rcases hty with hty | hty <;> cases hty
  · exact hcall
  · rcases hty with hty | hty <;> cases hty

theorem produces_blockIo (h : a.produces m = some ev) (hty : ev.eventType = eventBlockIo) :
    ∃ h evt start, a = .blockRqComplete h evt ∧
      m.blockIoStart.get (packBlockKey evt.dev evt.sector) = some start ∧ ev = blockIoEvent h evt start := by
  rcases produces_cases h with ⟨_, _, _, -, -, -, rfl⟩ | ⟨_, _, type, -, -, htype, rfl⟩ | hio
  · cases hty
  · exact absurd hty (futexEventType_ne htype).2
  · exact hio

end OfType

theorem writes_produces {m : Maps} {a : Half} {ev : Event} (h : a.writes m = some ev) : a.produces m = some ev := by
  unfold Half.writes at h
  split at h
  · cases h
  · exact h

theorem produces_ktime {m : Maps} {a : Half} {ev : Event} (h : a.produces m = some ev) :
    a.ktime? = some ev.timestampNs := by
  rcases produces_cases h with ⟨_, _, _, rfl, -, -, rfl⟩ | ⟨_, _, _, rfl, -, -, rfl⟩ | ⟨_, _, _, rfl, -, rfl⟩ <;> rfl

/-- `ev` ends at the clock reading of `a`, and it began at `ts`. -/
def Event.SpansFrom (ev : Event) (ts : UInt64) (a : Half) : Prop :=
  a.ktime? = some ev.timestampNs ∧ ev.timestampNs.toNat = ts.toNat + ev.durationNs.toNat

theorem Event.SpansFrom.duration {ev : Event} {ts : UInt64} {a : Half} {t : UInt64} (h : ev.SpansFrom ts a)
    (ha : a.ktime? = some t) : ev.timestampNs = t ∧ ev.durationNs = Words.saturatingSub t ts := by
  have ht : ev.timestampNs = t := Option.some.inj (h.1.symm.trans ha)
  refine ⟨ht, UInt64.toNat_inj.mp ?_⟩
  have hspan := h.2
  rw [ht] at hspan
  rw [Words.saturatingSub_toNat]
  omega

/-- A span that starts at the clock reading of an earlier half does not saturate. -/
theorem spansFrom_of_clock {steps : List Step} (hclock : ClockNonDecreasing steps) {i j : Nat} (hij : j < i)
    {a b : Half} (ha : (halves steps)[i]? = some a) (hb : (halves steps)[j]? = some b) {t ts : UInt64}
    (ht : a.ktime? = some t) (hts : b.ktime? = some ts) {ev : Event} (hev : ev.timestampNs = t)
    (hdur : ev.durationNs = Words.saturatingSub t ts) : ev.SpansFrom ts a := by
  have hle := hclock.le hij hb ha hts ht
  refine ⟨by rw [hev]; exact ht, ?_⟩
  rw [hdur, hev, Words.saturatingSub_toNat]
  omega

theorem opens_block_ktime {m : Maps} {a : Half} {k : UInt32} {v : BlockStart} (h : blockSpans.Opens m a k v) :
    a.ktime? = some v.ts := by
  obtain ⟨_, _, rfl, -, -, -, -, rfl, -⟩ := opens_block_iff.mp h
  rfl

theorem opens_futex_ktime {m : Maps} {a : Half} {k : UInt32} {v : FutexStart} (h : futexSpans.Opens m a k v) :
    a.ktime? = some v.ts := by
  obtain ⟨_, _, rfl, -, -, -, rfl, -⟩ := opens_futex_iff.mp h
  rfl

theorem opens_blockIo_ktime {m : Maps} {a : Half} {k : UInt64} {v : BlockIoStart} (h : blockIoSpans.Opens m a k v) :
    a.ktime? = some v.ts := by
  obtain ⟨_, _, rfl, -, -, -, rfl, -⟩ := opens_blockIo_iff.mp h
  rfl

theorem exists_spansFrom {steps : List Step} (hclock : ClockNonDecreasing steps) {i j : Nat} (hij : j < i) {a b : Half}
    (ha : (halves steps)[i]? = some a) (hb : (halves steps)[j]? = some b) {ts : UInt64} (hts : b.ktime? = some ts)
    (hk : a.ktime?.isSome) (key : UInt64) (pid tid : UInt32) (type : UInt8) (comm : Comm) :
    ∃ ev : Event, ev.SpansFrom ts a ∧ ev.eventType = type ∧ ev.pid = pid ∧ ev.tid = tid ∧ ev.comm = comm ∧
      ev.key = key := by
  obtain ⟨t, ht⟩ := Option.isSome_iff_exists.mp hk
  have hspan : (⟨t, Words.saturatingSub t ts, key, pid, tid, type, comm⟩ : Event).SpansFrom ts a :=
    spansFrom_of_clock hclock hij ha hb ht hts rfl rfl
  exact ⟨_, hspan, rfl, rfl, rfl, rfl, rfl⟩

section Completions
variable {n : Sizes} {T : UInt32} {steps : List Step} {i : Nat} {a : Half} {ev : Event}

theorem switchIn_produces_iff (hT : SetsOnly T steps) (hclock : ClockNonDecreasing steps)
    (ha : (halves steps)[i]? = some a) {k : UInt32} (hk : a.switchedIn? = some k) :
    a.produces (mapsAt n steps i) = some ev ↔
      ∃ v, LatestStart blockSpans Half.switchedIn? n steps i k v ∧ ev.SpansFrom v.ts a ∧
        ev.eventType = eventSchedBlock ∧ ev.pid = v.tgid ∧ ev.tid = k ∧ ev.comm = v.comm ∧ ev.key = 0 := by
  cases a with
  | switchIn h evt =>
    cases hk
    refine ⟨?_, ?_⟩
    · intro hp
      rcases produces_cases hp with ⟨h', evt', v, hhalf, -, hget, rfl⟩ | ⟨_, _, _, hhalf, -⟩ | ⟨_, _, _, hhalf, -⟩ <;>
        cases hhalf
      have hlatest := (blockSpans_filtered.latestStart_iff hT).mpr hget
      obtain ⟨j, hj, b, hb, hopen, -⟩ := id hlatest
      exact ⟨v, hlatest, spansFrom_of_clock hclock hj ha hb rfl (opens_block_ktime hopen) rfl rfl, rfl, rfl, rfl,
        rfl, rfl⟩
    · intro hp
      obtain ⟨v, hlatest, hspan, hty, hpid, htid, hcomm, hkey⟩ := hp
      have hget := (blockSpans_filtered.latestStart_iff hT).mp hlatest
      obtain ⟨j, hj, b, -, hopen, -⟩ := hlatest
      have ht : (mapsAt n steps i).targetTgid ≠ 0 := by
        rw [target_stays hT hj.le (blockSpans_filtered.target hopen.1)]
        exact hT.1
      have hev : ev = schedBlockEvent h evt v := by
        obtain ⟨hts, hdur⟩ := hspan.duration rfl
        exact Event.ext hts hdur hkey hpid htid hty hcomm
      have hget' : (mapsAt n steps i).blockStart.get evt.nextPid.toUInt32 = some v := hget
      simp only [Half.produces, if_pos ht, hget', Option.map_some, hev]
  | _ => cases hk

theorem futexExit_produces_iff (hT : SetsOnly T steps) (hclock : ClockNonDecreasing steps)
    (ha : (halves steps)[i]? = some a) {k : UInt32} (hk : a.exitedFutex? = some k) :
    a.produces (mapsAt n steps i) = some ev ↔
      ∃ v, LatestStart futexSpans Half.exitedFutex? n steps i k v ∧
        (((v.op &&& futexCmdMask = futexWait ∨ v.op &&& futexCmdMask = futexWaitBitset) ∧
            ev.eventType = eventFutexWait) ∨
          ((v.op &&& futexCmdMask = futexWake ∨ v.op &&& futexCmdMask = futexWakeBitset) ∧
            ev.eventType = eventFutexWake)) ∧
        ev.SpansFrom v.ts a ∧ ev.pid = v.tgid ∧ ev.tid = k ∧ ev.comm = v.comm ∧ ev.key = v.uaddr := by
  simp only [← futexEventType_eq_some_iff]
  cases a with
  | futexExit h =>
    cases hk
    refine ⟨?_, ?_⟩
    · intro hp
      rcases produces_cases hp with ⟨_, _, _, hhalf, -⟩ | ⟨h', v, ty, hhalf, hget, hty, rfl⟩ | ⟨_, _, _, hhalf, -⟩ <;>
        cases hhalf
      have hlatest := (futexSpans_filtered.latestStart_iff hT).mpr hget
      obtain ⟨j, hj, b, hb, hopen, -⟩ := id hlatest
      exact ⟨v, hlatest, hty, spansFrom_of_clock hclock hj ha hb rfl (opens_futex_ktime hopen) rfl rfl, rfl, rfl, rfl,
        rfl⟩
    · intro hp
      obtain ⟨v, hlatest, hty, hspan, hpid, htid, hcomm, hkey⟩ := hp
      have hget : (mapsAt n steps i).futexStart.get h.currentTid = some v :=
        (futexSpans_filtered.latestStart_iff hT).mp hlatest
      have hev : ev = futexEvent h v ev.eventType := by
        obtain ⟨hts, hdur⟩ := hspan.duration rfl
        exact Event.ext hts hdur hkey hpid htid rfl hcomm
      simp only [Half.produces, hget, Option.bind_some, hty, Option.map_some, ← hev]
  | _ => cases hk

theorem blockRqComplete_produces_iff (hT : SetsOnly T steps) (hclock : ClockNonDecreasing steps)
    (ha : (halves steps)[i]? = some a) {k : UInt64} (hk : a.completedKey? = some k) :
    a.produces (mapsAt n steps i) = some ev ↔
      ∃ v, LatestStart blockIoSpans Half.completedKey? n steps i k v ∧ ev.SpansFrom v.ts a ∧
        ev.eventType = eventBlockIo ∧ ev.pid = v.tgid ∧ ev.tid = v.tid ∧ ev.comm = v.comm ∧ ev.key = k := by
  cases a with
  | blockRqComplete h evt =>
    cases hk
    refine ⟨?_, ?_⟩
    · intro hp
      rcases produces_cases hp with ⟨_, _, _, hhalf, -⟩ | ⟨_, _, _, hhalf, -⟩ | ⟨h', evt', v, hhalf, hget, rfl⟩ <;>
        cases hhalf
      have hlatest := (blockIoSpans_filtered.latestStart_iff hT).mpr hget
      obtain ⟨j, hj, b, hb, hopen, -⟩ := id hlatest
      exact ⟨v, hlatest, spansFrom_of_clock hclock hj ha hb rfl (opens_blockIo_ktime hopen) rfl rfl, rfl, rfl, rfl,
        rfl, rfl⟩
    · intro hp
      obtain ⟨v, hlatest, hspan, hty, hpid, htid, hcomm, hkey⟩ := hp
      have hget : (mapsAt n steps i).blockIoStart.get (packBlockKey evt.dev evt.sector) = some v :=
        (blockIoSpans_filtered.latestStart_iff hT).mp hlatest
      have hev : ev = blockIoEvent h evt v := by
        obtain ⟨hts, hdur⟩ := hspan.duration rfl
        exact Event.ext hts hdur hkey hpid htid hty hcomm
      simp only [Half.produces, hget, Option.map_some, hev]
  | _ => cases hk

theorem exists_switchIn_produces_iff (hT : SetsOnly T steps) (hclock : ClockNonDecreasing steps)
    (ha : (halves steps)[i]? = some a) {k : UInt32} (hk : a.switchedIn? = some k) :
    (∃ ev, a.produces (mapsAt n steps i) = some ev) ↔ ∃ v, EarlierStart blockSpans Half.switchedIn? n steps i k v := by
  rw [← blockSpans_filtered.exists_latestStart_iff hT]
  refine ⟨?_, ?_⟩
  · intro h
    obtain ⟨ev, hev⟩ := h
    obtain ⟨v, hv, -⟩ := (switchIn_produces_iff hT hclock ha hk).mp hev
    exact ⟨v, hv⟩
  · intro h
    obtain ⟨v, hv⟩ := h
    obtain ⟨j, hj, b, hb, hopen, -⟩ := id hv
    have htime := ktime?_isSome (f := Half.switchedIn?) (fun _ => rfl) hk
    obtain ⟨ev, hev⟩ := exists_spansFrom hclock hj ha hb (opens_block_ktime hopen) htime 0 v.tgid k eventSchedBlock
      v.comm
    exact ⟨ev, (switchIn_produces_iff hT hclock ha hk).mpr ⟨v, hv, hev⟩⟩

theorem exists_futexExit_produces_iff (hT : SetsOnly T steps) (hclock : ClockNonDecreasing steps)
    (ha : (halves steps)[i]? = some a) {k : UInt32} (hk : a.exitedFutex? = some k) :
    (∃ ev, a.produces (mapsAt n steps i) = some ev) ↔
      (∃ v, EarlierStart futexSpans Half.exitedFutex? n steps i k v) ∧
      ∀ v, LatestStart futexSpans Half.exitedFutex? n steps i k v →
        (v.op &&& futexCmdMask = futexWait ∨ v.op &&& futexCmdMask = futexWaitBitset) ∨
        (v.op &&& futexCmdMask = futexWake ∨ v.op &&& futexCmdMask = futexWakeBitset) := by
  rw [← futexSpans_filtered.exists_latestStart_iff hT]
  refine ⟨?_, ?_⟩
  · intro h
    obtain ⟨ev, hev⟩ := h
    obtain ⟨v, hv, hty, -⟩ := (futexExit_produces_iff hT hclock ha hk).mp hev
    refine ⟨⟨v, hv⟩, ?_⟩
    intro w hw
    obtain rfl := futexSpans_filtered.latestStart_unique hT hv hw
    exact hty.imp And.left And.left
  · intro h
    obtain ⟨⟨v, hv⟩, hop⟩ := h
    obtain ⟨type, hty⟩ : ∃ type, futexEventType v.op = some type := by
      rcases hop v hv with hop | hop
      · exact ⟨eventFutexWait, futexEventType_eq_some_iff.mpr (Or.inl ⟨hop, rfl⟩)⟩
      · exact ⟨eventFutexWake, futexEventType_eq_some_iff.mpr (Or.inr ⟨hop, rfl⟩)⟩
    obtain ⟨j, hj, b, hb, hopen, -⟩ := id hv
    have htime := ktime?_isSome (f := Half.exitedFutex?) (fun _ => rfl) hk
    obtain ⟨ev, hspan, htype, hrest⟩ := exists_spansFrom hclock hj ha hb (opens_futex_ktime hopen) htime v.uaddr
      v.tgid k type v.comm
    rw [← htype] at hty
    exact ⟨ev, (futexExit_produces_iff hT hclock ha hk).mpr
      ⟨v, hv, futexEventType_eq_some_iff.mp hty, hspan, hrest⟩⟩

theorem exists_blockRqComplete_produces_iff (hT : SetsOnly T steps) (hclock : ClockNonDecreasing steps)
    (ha : (halves steps)[i]? = some a) {k : UInt64} (hk : a.completedKey? = some k) :
    (∃ ev, a.produces (mapsAt n steps i) = some ev) ↔
      ∃ v, EarlierStart blockIoSpans Half.completedKey? n steps i k v := by
  rw [← blockIoSpans_filtered.exists_latestStart_iff hT]
  refine ⟨?_, ?_⟩
  · intro h
    obtain ⟨ev, hev⟩ := h
    obtain ⟨v, hv, -⟩ := (blockRqComplete_produces_iff hT hclock ha hk).mp hev
    exact ⟨v, hv⟩
  · intro h
    obtain ⟨v, hv⟩ := h
    obtain ⟨j, hj, b, hb, hopen, -⟩ := id hv
    have htime := ktime?_isSome (f := Half.completedKey?) (fun _ => rfl) hk
    obtain ⟨ev, hev⟩ := exists_spansFrom hclock hj ha hb (opens_blockIo_ktime hopen) htime k v.tgid v.tid
      eventBlockIo v.comm
    exact ⟨ev, (blockRqComplete_produces_iff hT hclock ha hk).mpr ⟨v, hv, hev⟩⟩

end Completions

/-! ### Runs -/

/-- In every run, of any sizes of the maps and any drops: a half that completes a key produces an event
    exactly when a successful start on the key came before it with no completion of the key in between
    (and its masked operation is a wait or a wake, for a futex call), the event is that of the latest such
    start, and it is written unless the ring buffer is full. A start succeeds when the target filter
    accepts it and its map holds the key or has room for it. -/
theorem completion_produces_iff_start (n : Sizes) {T : UInt32} {steps : List Step} (hT : SetsOnly T steps)
    (hclock : ClockNonDecreasing steps) :
    Maps.run n steps = mapsAt n steps (halves steps).length ∧
    ∀ i a, (halves steps)[i]? = some a →
      (mapsAt n steps (i + 1)).events = (mapsAt n steps i).events ++
        (if a.ringFull then [] else (a.produces (mapsAt n steps i)).toList) ∧
      (∀ k v, blockSpans.Opens (mapsAt n steps i) a k v ↔
        ∃ h evt, a = .switchOut h evt ∧ (mapsAt n steps i).targetTgid ≠ 0 ∧ evt.prevState ≠ taskRunning ∧
          h.currentTgid = (mapsAt n steps i).targetTgid ∧ k = evt.prevPid.toUInt32 ∧
          v = ⟨h.ktimeGetNs, h.currentTgid, evt.prevComm⟩ ∧ (mapsAt n steps i).blockStart.HasSlot k) ∧
      (∀ k v, futexSpans.Opens (mapsAt n steps i) a k v ↔
        ∃ h evt, a = .futexEnter h evt ∧ (mapsAt n steps i).targetTgid ≠ 0 ∧
          h.currentTgid = (mapsAt n steps i).targetTgid ∧ k = h.currentTid ∧
          v = ⟨h.ktimeGetNs, evt.uaddr, evt.op, h.currentTgid, h.comm⟩ ∧ (mapsAt n steps i).futexStart.HasSlot k) ∧
      (∀ k v, blockIoSpans.Opens (mapsAt n steps i) a k v ↔
        ∃ h evt, a = .blockRqIssue h evt ∧ (mapsAt n steps i).targetTgid ≠ 0 ∧
          h.currentTgid = (mapsAt n steps i).targetTgid ∧ k = packBlockKey evt.dev evt.sector ∧
          v = ⟨h.ktimeGetNs, h.currentTgid, h.currentTid, h.comm⟩ ∧ (mapsAt n steps i).blockIoStart.HasSlot k) ∧
      (∀ k, a.switchedIn? = some k →
        ((∃ ev, a.produces (mapsAt n steps i) = some ev) ↔
          ∃ v, EarlierStart blockSpans Half.switchedIn? n steps i k v) ∧
        ∀ ev, a.produces (mapsAt n steps i) = some ev ↔
          ∃ v, LatestStart blockSpans Half.switchedIn? n steps i k v ∧ ev.SpansFrom v.ts a ∧
            ev.eventType = eventSchedBlock ∧ ev.pid = v.tgid ∧ ev.tid = k ∧ ev.comm = v.comm ∧ ev.key = 0) ∧
      (∀ k, a.exitedFutex? = some k →
        ((∃ ev, a.produces (mapsAt n steps i) = some ev) ↔
          (∃ v, EarlierStart futexSpans Half.exitedFutex? n steps i k v) ∧
          ∀ v, LatestStart futexSpans Half.exitedFutex? n steps i k v →
            (v.op &&& futexCmdMask = futexWait ∨ v.op &&& futexCmdMask = futexWaitBitset) ∨
            (v.op &&& futexCmdMask = futexWake ∨ v.op &&& futexCmdMask = futexWakeBitset)) ∧
        ∀ ev, a.produces (mapsAt n steps i) = some ev ↔
          ∃ v, LatestStart futexSpans Half.exitedFutex? n steps i k v ∧
            (((v.op &&& futexCmdMask = futexWait ∨ v.op &&& futexCmdMask = futexWaitBitset) ∧
                ev.eventType = eventFutexWait) ∨
              ((v.op &&& futexCmdMask = futexWake ∨ v.op &&& futexCmdMask = futexWakeBitset) ∧
                ev.eventType = eventFutexWake)) ∧
            ev.SpansFrom v.ts a ∧ ev.pid = v.tgid ∧ ev.tid = k ∧ ev.comm = v.comm ∧ ev.key = v.uaddr) ∧
      (∀ k, a.completedKey? = some k →
        ((∃ ev, a.produces (mapsAt n steps i) = some ev) ↔
          ∃ v, EarlierStart blockIoSpans Half.completedKey? n steps i k v) ∧
        ∀ ev, a.produces (mapsAt n steps i) = some ev ↔
          ∃ v, LatestStart blockIoSpans Half.completedKey? n steps i k v ∧ ev.SpansFrom v.ts a ∧
            ev.eventType = eventBlockIo ∧ ev.pid = v.tgid ∧ ev.tid = v.tid ∧ ev.comm = v.comm ∧ ev.key = k) := by
  refine ⟨Maps.run_eq_halves n steps, ?_⟩
  intro i a ha
  refine ⟨?_, fun k v => opens_block_iff, fun k v => opens_futex_iff, fun k v => opens_blockIo_iff, ?_, ?_, ?_⟩
  · rw [mapsAt, stateAt_succ ha]
    show _ ++ (a.writes _).toList = _
    unfold Half.writes
    cases a.ringFull <;> rfl
  · intro k hk
    exact ⟨exists_switchIn_produces_iff hT hclock ha hk, fun ev => switchIn_produces_iff hT hclock ha hk⟩
  · intro k hk
    exact ⟨exists_futexExit_produces_iff hT hclock ha hk, fun ev => futexExit_produces_iff hT hclock ha hk⟩
  · intro k hk
    exact ⟨exists_blockRqComplete_produces_iff hT hclock ha hk, fun ev => blockRqComplete_produces_iff hT hclock ha hk⟩

/-- A run in which thread 8 of the target 7 sleeps from 10 to 30. -/
def sleepRun : List Step :=
  [.setTargetTgid 7, .schedSwitch (.inThread 10 7 8) (switch 8 1 0), .schedSwitch (.inThread 30 0 0) (switch 0 0 8)]

/-- After that sleep thread 8 waits on a futex from 40 to 50 and reads a sector from 60 to 70. -/
def sleepWaitReadRun : List Step :=
  sleepRun ++ [.futexEnter (.inThread 40 7 8) (futexArgs 0x1000 128), .futexExit (.inThread 50 7 8),
    .blockRqIssue (.inThread 60 7 8) (some ⟨8388608, 64⟩), .blockRqComplete (.inThread 70 0 0) (some ⟨8388608, 64⟩)]

theorem completion_produces_iff_start_sleepWaitReadRun :
    SetsOnly 7 sleepWaitReadRun ∧ ClockNonDecreasing sleepWaitReadRun ∧
    (LatestStart blockSpans Half.switchedIn? Sizes.source sleepWaitReadRun 4 8 ⟨10, 7, noComm⟩ ∧
      (Half.switchIn (.inThread 30 0 0) ⟨noComm, 0, 0, 8⟩).produces (mapsAt Sizes.source sleepWaitReadRun 4) =
        some ⟨30, 20, 0, 7, 8, eventSchedBlock, noComm⟩) ∧
    (LatestStart futexSpans Half.exitedFutex? Sizes.source sleepWaitReadRun 6 8 ⟨40, 0x1000, 128, 7, noComm⟩ ∧
      128 &&& futexCmdMask = futexWait ∧
      (Half.futexExit (.inThread 50 7 8)).produces (mapsAt Sizes.source sleepWaitReadRun 6) =
        some ⟨50, 10, 0x1000, 7, 8, eventFutexWait, noComm⟩) ∧
    LatestStart blockIoSpans Half.completedKey? Sizes.source sleepWaitReadRun 8 (packBlockKey 8388608 64)
      ⟨60, 7, 8, noComm⟩ ∧
    (Half.blockRqComplete (.inThread 70 0 0) ⟨8388608, 64⟩).produces (mapsAt Sizes.source sleepWaitReadRun 8) =
      some ⟨70, 10, packBlockKey 8388608 64, 7, 8, eventBlockIo, noComm⟩ := by
  have hT : SetsOnly 7 sleepWaitReadRun := by decide
  have hclock : ClockNonDecreasing sleepWaitReadRun := by decide
  have hpairs := (completion_produces_iff_start Sizes.source hT hclock).2
  have hsleep : LatestStart blockSpans Half.switchedIn? Sizes.source sleepWaitReadRun 4 8 ⟨10, 7, noComm⟩ :=
    (blockSpans_filtered.latestStart_iff hT).mpr (by decide)
  have hwait : LatestStart futexSpans Half.exitedFutex? Sizes.source sleepWaitReadRun 6 8
      ⟨40, 0x1000, 128, 7, noComm⟩ := (futexSpans_filtered.latestStart_iff hT).mpr (by decide)
  have hread : LatestStart blockIoSpans Half.completedKey? Sizes.source sleepWaitReadRun 8 (packBlockKey 8388608 64)
      ⟨60, 7, 8, noComm⟩ := (blockIoSpans_filtered.latestStart_iff hT).mpr (by decide)
  obtain ⟨-, -, -, -, hblock, -, -⟩ := hpairs 4 _ rfl
  obtain ⟨-, -, -, -, -, hfutex, -⟩ := hpairs 6 _ rfl
  obtain ⟨-, -, -, -, -, -, hio⟩ := hpairs 8 _ rfl
  refine ⟨hT, hclock, ⟨hsleep, ?_⟩, ⟨hwait, by decide, ?_⟩, hread, ?_⟩
  · exact ((hblock 8 rfl).2 _).mpr ⟨_, hsleep, ⟨rfl, by decide⟩, rfl, rfl, rfl, rfl, rfl⟩
  · exact ((hfutex 8 rfl).2 _).mpr ⟨_, hwait, Or.inl ⟨Or.inl (by decide), rfl⟩, ⟨rfl, by decide⟩, rfl, rfl, rfl, rfl⟩
  · exact ((hio _ rfl).2 _).mpr ⟨_, hread, ⟨rfl, by decide⟩, rfl, rfl, rfl, rfl, rfl⟩

end Whyslow
