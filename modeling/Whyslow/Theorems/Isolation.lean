import Whyslow.Theorems.Pairing

/-! Only the target is recorded. Starts are filtered by the current process, and the programs without a
    filter of their own (`futex_exit`, `block_rq_complete`, the switch-in) only make events from the
    entries that filtered starts left, so the filter of the starts is enough. -/

namespace Whyslow
open Runs

/-- What the maps hold belongs to `T`, and they hold nothing before `T` is set. -/
structure Isolated (T : UInt32) (m : Maps) : Prop where
  target : m.targetTgid = 0 ∨ m.targetTgid = T
  block : ∀ k v, m.blockStart.get k = some v → m.targetTgid = T ∧ v.tgid = T
  futex : ∀ k v, m.futexStart.get k = some v → m.targetTgid = T ∧ v.tgid = T
  blockIo : ∀ k v, m.blockIoStart.get k = some v → m.targetTgid = T ∧ v.tgid = T
  events : ∀ ev ∈ m.events, m.targetTgid = T ∧ ev.pid = T

namespace Isolated
variable {T : UInt32} {m : Maps} {a : Half}

theorem loaded (n : Sizes) : Isolated T (Maps.loaded n) where
  target := Or.inl rfl
  block _ _ h := by cases h
  futex _ _ h := by cases h
  blockIo _ _ h := by cases h
  events _ h := by cases h

theorem target_half (ha : ∀ tgid, a = .setTargetTgid tgid → tgid = T) (h : m.targetTgid = T) :
    (m.half a).targetTgid = T := by
  cases a with
  | setTargetTgid tgid => exact ha tgid rfl
  | _ => exact h

/-- The event of a half is made from an entry, so it belongs to `T` when the entries do. -/
theorem pid_of_produces (h : Isolated T m) {ev : Event} (hev : a.produces m = some ev) :
    m.targetTgid = T ∧ ev.pid = T := by
  rcases produces_cases hev with ⟨_, _, _, -, -, hget, rfl⟩ | ⟨_, _, _, -, hget, -, rfl⟩ | ⟨_, _, _, -, hget, rfl⟩
  · exact h.block _ _ hget
  · exact h.futex _ _ hget
  · exact h.blockIo _ _ hget

theorem half (h : Isolated T m) (ha : ∀ tgid, a = .setTargetTgid tgid → tgid = T) : Isolated T (m.half a) where
  target := by
    cases a with
    | setTargetTgid tgid => exact Or.inr (ha tgid rfl)
    | _ => exact h.target
  block k v hv := by
    rcases SpanAct.get_apply_cases hv with hact | hv
    · obtain ⟨_, _, rfl, h0, -, hg, -, rfl⟩ := blockAct_start hact
      have hT := h.target.resolve_left h0
      exact ⟨hT, hg.trans hT⟩
    · exact ⟨target_half ha (h.block k v hv).1, (h.block k v hv).2⟩
  futex k v hv := by
    rcases SpanAct.get_apply_cases hv with hact | hv
    · obtain ⟨_, _, rfl, h0, hg, -, rfl⟩ := futexAct_start hact
      have hT := h.target.resolve_left h0
      exact ⟨hT, hg.trans hT⟩
    · exact ⟨target_half ha (h.futex k v hv).1, (h.futex k v hv).2⟩
  blockIo k v hv := by
    rcases SpanAct.get_apply_cases hv with hact | hv
    · obtain ⟨_, _, rfl, h0, hg, -, rfl⟩ := blockIoAct_start hact
      have hT := h.target.resolve_left h0
      exact ⟨hT, hg.trans hT⟩
    · exact ⟨target_half ha (h.blockIo k v hv).1, (h.blockIo k v hv).2⟩
  events ev hev := by
    rcases List.mem_append.mp hev with hev | hev
    · exact ⟨target_half ha (h.events ev hev).1, (h.events ev hev).2⟩
    · obtain ⟨ht, hpid⟩ := h.pid_of_produces (writes_produces (Option.mem_toList.mp hev))
      exact ⟨target_half ha ht, hpid⟩

theorem run {steps : List Step} (hT : SetsOnly T steps) (n : Sizes) (i : Nat) : Isolated T (mapsAt n steps i) :=
  stateAt_induction (loaded n) (fun _ a ha h => h.half fun tgid he => by
    rw [he] at ha
    exact hT.2 tgid (mem_halves_setTargetTgid ha)) i

end Isolated

theorem target_unset {steps : List Step} (h : ∀ tgid, .setTargetTgid tgid ∉ steps) (n : Sizes) :
    (Maps.run n steps).targetTgid = 0 := by
  rw [Maps.run_eq_halves]
  refine stateAt_induction (P := fun m : Maps => m.targetTgid = 0) rfl ?_ _
  intro m a ha hm
  cases a with
  | setTargetTgid tgid => exact absurd (mem_halves_setTargetTgid ha) (h tgid)
  | _ => exact hm

/-- In every reachable state: before the target is set the start maps and the ring buffer are empty, and
    at all times every entry and every event written belongs to the target. -/
theorem run_isolated (n : Sizes) {T : UInt32} {steps : List Step} (hT : SetsOnly T steps) :
    ((∀ tgid, .setTargetTgid tgid ∉ steps) →
      (∀ k, (Maps.run n steps).blockStart.get k = none) ∧ (∀ k, (Maps.run n steps).futexStart.get k = none) ∧
      (∀ k, (Maps.run n steps).blockIoStart.get k = none) ∧ (Maps.run n steps).events = []) ∧
    (∀ k v, (Maps.run n steps).blockStart.get k = some v → v.tgid = T) ∧
    (∀ k v, (Maps.run n steps).futexStart.get k = some v → v.tgid = T) ∧
    (∀ k v, (Maps.run n steps).blockIoStart.get k = some v → v.tgid = T) ∧
    (∀ ev ∈ (Maps.run n steps).events, ev.pid = T) := by
  have h : Isolated T (Maps.run n steps) := by
    rw [Maps.run_eq_halves]
    exact Isolated.run hT n _
  refine ⟨fun hunset => ?_, fun k v hv => (h.block k v hv).2, fun k v hv => (h.futex k v hv).2,
    fun k v hv => (h.blockIo k v hv).2, fun ev hev => (h.events ev hev).2⟩
  have hne : (Maps.run n steps).targetTgid ≠ T := by
    rw [target_unset hunset n]
    exact hT.1.symm
  refine ⟨fun k => ?_, fun k => ?_, fun k => ?_, ?_⟩
  · exact Option.eq_none_iff_forall_ne_some.mpr fun v hv => hne (h.block k v hv).1
  · exact Option.eq_none_iff_forall_ne_some.mpr fun v hv => hne (h.futex k v hv).1
  · exact Option.eq_none_iff_forall_ne_some.mpr fun v hv => hne (h.blockIo k v hv).1
  · exact List.eq_nil_iff_forall_not_mem.mpr fun ev hev => hne (h.events ev hev).1

theorem run_isolated_sleepRun : SetsOnly 7 sleepRun ∧
    (Maps.run Sizes.source sleepRun).events.map (·.pid) = [7] ∧
    ∀ ev ∈ (Maps.run Sizes.source sleepRun).events, ev.pid = 7 := by
  have hT : SetsOnly 7 sleepRun := by decide
  exact ⟨hT, by decide, (run_isolated Sizes.source hT).2.2.2.2⟩

end Whyslow
