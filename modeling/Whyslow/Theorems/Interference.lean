import Whyslow.Theorems.Threads

/-! Other processes do not disturb the trace. The keys of the start maps are threads of the target and keys of its
    requests; a program that runs for another process asks for another key, so it finds nothing, and it starts
    nothing. Steps of other processes can be left out of a run without any difference in the end. -/

namespace Whyslow
open Runs

/-- No thread id of the target is used by another process. -/
def OwnTids (T : UInt32) (steps : List Step) : Prop :=
  ∀ c ∈ contexts steps, ∀ c' ∈ contexts steps, c.1 = c'.1 → c.2 = T → c'.2 = T

/-- The target issues a request under `key`. -/
def Issued (T : UInt32) (steps : List Step) (key : UInt64) : Prop :=
  ∃ h evt, .blockRqIssue h (some evt) ∈ steps ∧ h.currentTgid = T ∧ packBlockKey evt.dev evt.sector = key

/-- The steps of other processes: a switch from a thread outside of `T` to one that is no thread of `T`, the calls and
    requests of threads outside of `T`, and the completion of a key of no request of `T`. -/
def Foreign (T : UInt32) (steps : List Step) : Step → Prop
  | .setTargetTgid _ => False
  | .schedSwitch h ctx => h.currentTgid ≠ T ∧ ∀ evt ∈ ctx, (evt.nextPid.toUInt32, T) ∉ contexts steps
  | .futexEnter h _ | .futexExit h | .blockRqIssue h _ => h.currentTgid ≠ T
  | .blockRqComplete _ ctx => ∀ evt ∈ ctx, ¬Issued T steps (packBlockKey evt.dev evt.sector)

/-- What the maps hold is under keys of `T`. -/
structure OwnKeys (T : UInt32) (steps : List Step) (m : Maps) : Prop where
  target : m.targetTgid = 0 ∨ m.targetTgid = T
  block : ∀ k v, m.blockStart.get k = some v → (k, T) ∈ contexts steps
  futex : ∀ k v, m.futexStart.get k = some v → (k, T) ∈ contexts steps
  blockIo : ∀ k v, m.blockIoStart.get k = some v → Issued T steps k

theorem OwnKeys.loaded (n : Sizes) (T : UInt32) (steps : List Step) : OwnKeys T steps (Maps.loaded n) where
  target := Or.inl rfl
  block _ _ h := by cases h
  futex _ _ h := by cases h
  blockIo _ _ h := by cases h

theorem mem_contexts {steps : List Step} {a : Half} {c : UInt32 × UInt32} (ha : a ∈ halves steps)
    (hc : a.context? = some c) : c ∈ contexts steps := List.mem_filterMap.mpr ⟨a, ha, hc⟩

theorem mem_halves_blockRqIssue {steps : List Step} {h : Helpers} {evt : TraceEventRawBlockRq}
    (ha : .blockRqIssue h evt ∈ halves steps) : .blockRqIssue h (some evt) ∈ steps := by
  obtain ⟨st, hst, ha⟩ := List.mem_flatMap.mp ha
  unfold Step.halves at ha
  split at ha <;> simp at ha
  rw [ha.1, ha.2]
  exact hst

section Steps
variable {T : UInt32} {steps : List Step} {m : Maps}

theorem OwnKeys.half (hT : SetsOnly T steps) (h : OwnKeys T steps m) {a : Half} (ha : a ∈ halves steps) :
    OwnKeys T steps (m.half a) where
  target := by
    rcases target_half hT (m := m) ha with ht | ht
    · rw [ht]
      exact h.target
    · exact Or.inr ht
  block k v hv := by
    rcases SpanAct.get_apply_cases hv with hact | hv
    · obtain ⟨g, evt, rfl, h0, -, hg, rfl, -⟩ := blockAct_start hact
      have hgT : g.currentTgid = T := hg.trans (h.target.resolve_left h0)
      exact mem_contexts ha (by rw [← hgT]; rfl)
    · exact h.block k v hv
  futex k v hv := by
    rcases SpanAct.get_apply_cases hv with hact | hv
    · obtain ⟨g, evt, rfl, h0, hg, rfl, -⟩ := futexAct_start hact
      have hgT : g.currentTgid = T := hg.trans (h.target.resolve_left h0)
      exact mem_contexts ha (by rw [← hgT]; rfl)
    · exact h.futex k v hv
  blockIo k v hv := by
    rcases SpanAct.get_apply_cases hv with hact | hv
    · obtain ⟨g, evt, rfl, h0, hg, rfl, -⟩ := blockIoAct_start hact
      exact ⟨g, evt, mem_halves_blockRqIssue ha, hg.trans (h.target.resolve_left h0), rfl⟩
    · exact h.blockIo k v hv

theorem OwnKeys.step (hT : SetsOnly T steps) (h : OwnKeys T steps m) {st : Step} (hst : st ∈ steps) :
    OwnKeys T steps (m.step st) := by
  have hmem : ∀ a ∈ st.halves, a ∈ halves steps := fun a ha => List.mem_flatMap.mpr ⟨st, hst, ha⟩
  rw [Maps.step_eq_halves, ← stateAt_length]
  exact stateAt_induction h (fun m a ha hm => hm.half hT (hmem a ha)) _

/-! ### Foreign steps do nothing -/

theorem OwnKeys.not_target (h : OwnKeys T steps m) {g : Helpers} (hg : g.currentTgid ≠ T) :
    ¬(m.targetTgid ≠ 0 ∧ g.currentTgid = m.targetTgid) := by
  rintro ⟨h0, heq⟩
  exact hg (heq.trans (h.target.resolve_left h0))

theorem half_switchOut_foreign (h : OwnKeys T steps m) {g : Helpers} (hg : g.currentTgid ≠ T)
    (evt : TraceEventRawSchedSwitch) : m.half (.switchOut g evt) = m := by
  refine Maps.half_none rfl (if_neg ?_) rfl rfl rfl
  rintro ⟨h0, -, heq⟩
  exact h.not_target hg ⟨h0, heq⟩

theorem half_switchIn_foreign (h : OwnKeys T steps m) (g : Helpers) {evt : TraceEventRawSchedSwitch}
    (hnext : (evt.nextPid.toUInt32, T) ∉ contexts steps) : m.half (.switchIn g evt) = m := by
  have hget : m.blockStart.get evt.nextPid.toUInt32 = none :=
    Option.eq_none_iff_forall_ne_some.mpr fun v hv => hnext (h.block _ v hv)
  by_cases h0 : m.targetTgid = 0
  · exact Maps.half_none rfl (if_neg fun hne => hne h0) rfl rfl (if_neg fun hne => hne h0)
  · rw [Maps.half_switchIn m g evt h0, hget]

theorem half_futexEnter_foreign (h : OwnKeys T steps m) {g : Helpers} (hg : g.currentTgid ≠ T)
    (evt : TraceEventRawSysEnter) : m.half (.futexEnter g evt) = m :=
  Maps.half_none rfl rfl (if_neg (h.not_target hg)) rfl rfl

theorem half_futexExit_foreign (hown : OwnTids T steps) (h : OwnKeys T steps m) {g : Helpers} (hg : g.currentTgid ≠ T)
    (ha : .futexExit g ∈ halves steps) : m.half (.futexExit g) = m := by
  have hget : m.futexStart.get g.currentTid = none := by
    refine Option.eq_none_iff_forall_ne_some.mpr ?_
    intro v hv
    exact hg (hown _ (h.futex _ v hv) (g.currentTid, g.currentTgid) (mem_contexts ha rfl) rfl rfl)
  rw [← futexExit_eq_half, tryFutexExit, hget]

theorem half_blockRqIssue_foreign (h : OwnKeys T steps m) {g : Helpers} (hg : g.currentTgid ≠ T)
    (evt : TraceEventRawBlockRq) : m.half (.blockRqIssue g evt) = m :=
  Maps.half_none rfl rfl rfl (if_neg (h.not_target hg)) rfl

theorem half_blockRqComplete_foreign (h : OwnKeys T steps m) (g : Helpers) {evt : TraceEventRawBlockRqCompletion}
    (hkey : ¬Issued T steps (packBlockKey evt.dev evt.sector)) : m.half (.blockRqComplete g evt) = m := by
  have hget : m.blockIoStart.get (packBlockKey evt.dev evt.sector) = none :=
    Option.eq_none_iff_forall_ne_some.mpr fun v hv => hkey (h.blockIo _ v hv)
  rw [← blockRqComplete_eq_half, tryBlockRqComplete, hget]

theorem step_foreign (hown : OwnTids T steps) (h : OwnKeys T steps m) {st : Step} (hst : st ∈ steps)
    (hf : Foreign T steps st) : m.step st = m := by
  have hmem : ∀ a ∈ st.halves, a ∈ halves steps := fun a ha => List.mem_flatMap.mpr ⟨st, hst, ha⟩
  rw [Maps.step_eq_halves]
  match st with
  | .setTargetTgid _ => cases hf
  | .schedSwitch g (some evt) =>
    simp only [Step.halves, List.foldl_cons, List.foldl_nil]
    rw [half_switchOut_foreign h hf.1, half_switchIn_foreign h g (hf.2 evt rfl)]
  | .futexEnter g (some evt) => exact half_futexEnter_foreign h hf evt
  | .futexExit g => exact half_futexExit_foreign hown h hf (hmem _ (List.mem_singleton_self _))
  | .blockRqIssue g (some evt) => exact half_blockRqIssue_foreign h hf evt
  | .blockRqComplete g (some evt) => exact half_blockRqComplete_foreign h g (hf evt rfl)
  | .schedSwitch _ none | .futexEnter _ none | .blockRqIssue _ none | .blockRqComplete _ none => rfl

end Steps

/-- Steps of other processes can be left out of a run, any of them and in any number: the start maps and the events
    written are the same in the end. -/
theorem run_erase_foreign (n : Sizes) {T : UInt32} {steps steps' : List Step} (hT : SetsOnly T steps)
    (hown : OwnTids T steps) (herase : Erases (Foreign T steps) steps steps') :
    Maps.run n steps' = Maps.run n steps :=
  herase.foldl (P := OwnKeys T steps) (fun _ _ hst h => h.step hT hst)
    (fun _ _ hst hf h => step_foreign hown h hst hf) (OwnKeys.loaded n T steps)

/-- The sleep of thread 8 of the target, with threads 20 and 21 of process 9 at work in between. -/
def crowdedRun : List Step :=
  [.setTargetTgid 7, .schedSwitch (.inThread 10 7 8) (switch 8 1 20), .futexExit (.inThread 12 9 20),
    .schedSwitch (.inThread 16 9 20) (switch 20 1 21), .blockRqIssue (.inThread 18 9 21) (some ⟨1, 64⟩),
    .blockRqComplete (.inThread 25 9 21) (some ⟨1, 64⟩), .schedSwitch (.inThread 30 9 21) (switch 21 1 8)]

/-- The same run with only what the target has to do with. -/
def quietRun : List Step :=
  [.setTargetTgid 7, .schedSwitch (.inThread 10 7 8) (switch 8 1 20), .schedSwitch (.inThread 30 9 21) (switch 21 1 8)]

theorem run_erase_foreign_crowdedRun : SetsOnly 7 crowdedRun ∧ OwnTids 7 crowdedRun ∧
    Erases (Foreign 7 crowdedRun) crowdedRun quietRun ∧
    (Maps.run Sizes.source quietRun).events.map (·.tid) = [8] ∧
    Maps.run Sizes.source quietRun = Maps.run Sizes.source crowdedRun := by
  have hT : SetsOnly 7 crowdedRun := by decide
  have hctx : contexts crowdedRun = [(8, 7), (20, 9), (20, 9), (21, 9), (21, 9)] := by decide
  have hown : OwnTids 7 crowdedRun := by
    unfold OwnTids
    rw [hctx]
    simp
  have hissued : ∀ key, ¬Issued 7 crowdedRun key := by
    rintro key ⟨h, evt, hmem, hg, -⟩
    simp [crowdedRun] at hmem
    rw [hmem.1] at hg
    exact absurd hg (by decide)
  have herase : Erases (Foreign 7 crowdedRun) crowdedRun quietRun := by
    refine .keep _ (.keep _ (.drop ?_ (.drop ?_ (.drop ?_ (.drop ?_ (.keep _ .nil))))))
    · exact (by decide : (Helpers.inThread 12 9 20).currentTgid ≠ 7)
    · refine ⟨by decide, ?_⟩
      rintro evt ⟨⟩
      decide
    · exact (by decide : (Helpers.inThread 18 9 21).currentTgid ≠ 7)
    · intro evt _
      exact hissued _
  exact ⟨hT, hown, herase, by decide, run_erase_foreign Sizes.source hT hown herase⟩

end Whyslow
