import Whyslow.Theorems.Stalls

/-! What exited threads leave behind. An exit is a switch-out like any other, so it takes a slot of `BLOCK_START`, and
    nothing frees the slot but a switch-in under the same tid. A stall is lost exactly when its switch-out finds no
    slot, and that takes more tids left behind and live threads than there are slots. -/

namespace Whyslow
open Runs

/-- Every interval off-CPU of a thread of the target that began in a state other than running is written. -/
def EveryStallWritten (n : Sizes) (T : UInt32) (l : List SchedHalf) : Prop :=
  ∀ p q th reason h evt h' evt', OffCpu l p q th reason h evt h' evt' → th.tgid = T → reason ≠ .yield →
    ∃ ev, writtenAt n T l q h' evt' = some ev ∧ ev.pid = T ∧ ev.tid = th.tid ∧
      ev.timestampNs = h'.ktimeGetNs ∧ ev.durationNs = Words.saturatingSub h'.ktimeGetNs h.ktimeGetNs

/-- There is a slot for every such interval when it begins. -/
def SlotForEveryStall (n : Sizes) (T : UInt32) (l : List SchedHalf) : Prop :=
  ∀ p q th reason h evt h' evt', OffCpu l p q th reason h evt h' evt' → th.tgid = T → reason ≠ .yield →
    (schedMapsAt n T l p).blockStart.HasSlot th.tid

theorem OffCpu.hasSlot_of_written {n : Sizes} {T : UInt32} {s₀ : Sched} {l : List SchedHalf} {p q : Nat} {th : Thread}
    {reason : Reason} {h h' : Helpers} {evt evt' : TraceEventRawSchedSwitch} {ev : Event}
    (hoff : OffCpu l p q th reason h evt h' evt') (hrun : SchedRun s₀ l) (hT : T ≠ 0) (htgid : th.tgid = T)
    (hev : writtenAt n T l q h' evt' = some ev) : (schedMapsAt n T l p).blockStart.HasSlot th.tid := by
  have h0 : th.tid ≠ 0 := hrun.tid_ne_zero hoff.out (htgid ▸ hT)
  obtain ⟨-, p', v, hopen, -⟩ := (hrun.writtenAt_iff hT hoff.resume).mp hev
  obtain rfl := hoff.openSince_eq hrun hT h0 hopen
  obtain ⟨-, _, _, _, _, -, -, -, -, -, hslot, -⟩ := hrun.openSince_cases hT hopen
  exact hslot

/-! ### Who holds a slot -/

/-- The tids of exited threads of the target that have not been switched in since. -/
def leftBehind (T : UInt32) (tids : Finset UInt32) : SchedHalf → Finset UInt32
  | .create _ => tids
  | .switchOut _ _ th reason => if reason = .exit ∧ th.tgid = T then insert th.tid tids else tids
  | .switchIn _ _ th => tids.erase th.tid

def leftAt (T : UInt32) (l : List SchedHalf) (i : Nat) : Finset UInt32 := stateAt (leftBehind T) ∅ l i

/-- A live thread of the target is off-CPU under the tid `k`. -/
def Sched.Off (s : Sched) (T k : UInt32) : Prop := ∃ t ∈ s.live, t.tgid = T ∧ t.tid = k ∧ t ∉ s.running

section Holders
variable {n : Sizes} {T k : UInt32} {s s₀ : Sched} {l : List SchedHalf} {i p : Nat} {h : Helpers}
  {evt : TraceEventRawSchedSwitch} {th : Thread} {reason : Reason}

theorem blockStart_schedHalf (m : Maps) (a : SchedHalf) :
    (m.schedHalf a).blockStart = (a.blockAct m).apply m.blockStart := stallSpans.map_step m a

theorem Sched.Off.create (hoff : s.Off T k) : (s.next (.create th)).Off T k := by
  obtain ⟨t, ht, htgid, htid, hnot⟩ := hoff
  exact ⟨t, List.mem_cons_of_mem _ ht, htgid, htid, hnot⟩

/-- The thread that leaves the CPU is not one of those that were off it. -/
theorem Sched.Off.switchOut (hoff : s.Off T k) (hs : s.Sane) (ha : s.Allows (.switchOut h evt th reason)) :
    (s.next (.switchOut h evt th reason)).Off T k := by
  obtain ⟨t, ht, htgid, htid, hnot⟩ := hoff
  have hne : t ≠ th := by
    rintro rfl
    rcases ha.1 with hidle | hrunning
    · exact hs.nonzero t ht hidle.1
    · exact hnot hrunning
  refine ⟨t, ?_, htgid, htid, fun hm => hnot (List.mem_filter.mp hm).1⟩
  show t ∈ if reason = .exit then _ else _
  split
  · exact List.mem_filter.mpr ⟨ht, decide_eq_true hne⟩
  · exact ht

theorem Sched.Off.switchIn (hoff : s.Off T k) (hk : k ≠ th.tid) : (s.next (.switchIn h evt th)).Off T k := by
  obtain ⟨t, ht, htgid, htid, hnot⟩ := hoff
  unfold Sched.next
  dsimp only
  split
  · exact ⟨t, ht, htgid, htid, hnot⟩
  · refine ⟨t, ht, htgid, htid, ?_⟩
    intro hm
    rcases List.mem_cons.mp hm with rfl | hm
    · exact hk htid.symm
    · exact hnot hm

/-- A thread that leaves the CPU and is still alive is off it. -/
theorem Sched.off_of_switchOut (hs : s.Sane) (hrunning : th ∈ s.running) (hr : reason ≠ .exit) (htgid : th.tgid = T) :
    (s.next (.switchOut h evt th reason)).Off T th.tid := by
  refine ⟨th, ?_, htgid, rfl, ?_⟩
  · show th ∈ if reason = .exit then _ else _
    rw [if_neg hr]
    exact hs.running th hrunning
  · intro hm
    exact of_decide_eq_true (List.mem_filter.mp hm).2 rfl

/-- A slot is held by a tid left behind or by a live thread of the target that is off-CPU. -/
theorem SchedRun.holder (hrun : SchedRun s₀ l) (hT : T ≠ 0) (i : Nat) {v : BlockStart}
    (hget : (schedMapsAt n T l i).blockStart.get k = some v) :
    k ∈ leftAt T l i ∨ (schedAt s₀ l i).Off T k := by
  induction i generalizing v with
  | zero => cases hget
  | succ i ih =>
    cases ha : l[i]? with
    | none =>
      rw [schedMapsAt, stateAt_succ_of_none ha] at hget
      rw [leftAt, schedAt, stateAt_succ_of_none ha, stateAt_succ_of_none ha]
      exact ih hget
    | some a =>
      have hallows := hrun.allows.at ha
      have hsane := hrun.sane_at i
      rw [schedMapsAt, stateAt_succ ha] at hget
      rw [leftAt, schedAt, stateAt_succ ha, stateAt_succ ha]
      cases a with
      | create th => exact (ih hget).imp id fun hoff => hoff.create
      | switchOut h evt th reason =>
        rcases SpanAct.get_apply_cases hget with hact | hget
        · obtain ⟨_, _, _, _, he, htgid, -, rfl, -⟩ := hrun.act_start ha hact
          cases he
          by_cases hr : reason = .exit
          · exact Or.inl (by simp [leftBehind, hr, htgid])
          · have hrunning := hrun.running_of_out ha (hrun.tid_ne_zero ha (htgid ▸ hT))
            exact Or.inr (Sched.off_of_switchOut hsane hrunning hr htgid)
        · refine (ih hget).imp ?_ fun hoff => hoff.switchOut hsane hallows
          intro hk
          show k ∈ if _ then _ else _
          split
          · exact Finset.mem_insert_of_mem hk
          · exact hk
      | switchIn h evt th =>
        have hact : (SchedHalf.switchIn h evt th).blockAct (schedMapsAt n T l i) = .complete th.tid :=
          (hrun.act_complete_iff hT ha).mpr ⟨h, evt, th, rfl, rfl⟩
        rw [blockStart_schedHalf, ← schedMapsAt, hact] at hget
        obtain ⟨hk, hget⟩ := BoundedMap.get_remove_cases hget
        exact (ih hget).imp (fun hl => Finset.mem_erase.mpr ⟨hk, hl⟩) fun hoff => hoff.switchIn hk

theorem maxEntries_schedMapsAt (n : Sizes) (T : UInt32) (l : List SchedHalf) (i : Nat) :
    (schedMapsAt n T l i).blockStart.maxEntries = n.blockStart := by
  refine stateAt_induction (P := fun m : Maps => m.blockStart.maxEntries = n.blockStart) rfl ?_ i
  intro m a _ hm
  rw [blockStart_schedHalf]
  cases a.blockAct m with
  | start k v => exact (BoundedMap.maxEntries_put _ _ _).trans hm
  | complete k => exact (BoundedMap.maxEntries_remove _ _).trans hm
  | none => exact hm

/-- With no more tids left behind and live threads of the target than slots, a thread that leaves the CPU finds one:
    it is itself one of the live threads and holds none. -/
theorem SchedRun.hasSlot (hrun : SchedRun s₀ l) (hT : T ≠ 0) (hout : l[p]? = some (.switchOut h evt th reason))
    (htgid : th.tgid = T)
    (hfew : (leftAt T l p).card + ((schedAt s₀ l p).live.filter (·.tgid = T)).length ≤ n.blockStart) :
    (schedMapsAt n T l p).blockStart.HasSlot th.tid := by
  have hsane := hrun.sane_at p
  have hrunning := hrun.running_of_out hout (hrun.tid_ne_zero hout (htgid ▸ hT))
  have hlive := hsane.running th hrunning
  have hmem : th.tid ∈ (((schedAt s₀ l p).live.filter (·.tgid = T)).map (·.tid)).toFinset := by
    rw [List.mem_toFinset]
    exact List.mem_map_of_mem (List.mem_filter.mpr ⟨hlive, decide_eq_true htgid⟩)
  refine BoundedMap.hasSlot_of_keys_subset th.tid
    (s := leftAt T l p ∪ (((schedAt s₀ l p).live.filter (·.tgid = T)).map (·.tid)).toFinset.erase th.tid) ?_ ?_
  · intro k hk
    obtain ⟨v, hv⟩ := Option.isSome_iff_exists.mp (BoundedMap.get_isSome_iff.mpr hk)
    rcases hrun.holder hT p hv with hleft | ⟨t, ht, htT, htk, hnot⟩
    · exact Finset.mem_union_left _ hleft
    · refine Finset.mem_union_right _ (Finset.mem_erase.mpr ⟨?_, ?_⟩)
      · intro hkth
        exact hnot (hsane.tids t ht th hlive (htk.trans hkth) ▸ hrunning)
      · rw [List.mem_toFinset, ← htk]
        exact List.mem_map_of_mem (List.mem_filter.mpr ⟨ht, decide_eq_true htT⟩)
  · rw [maxEntries_schedMapsAt]
    have hunion := Finset.card_union_le (leftAt T l p)
      ((((schedAt s₀ l p).live.filter (·.tgid = T)).map (·.tid)).toFinset.erase th.tid)
    have herase := Finset.card_erase_add_one hmem
    have hlen := List.toFinset_card_le (((schedAt s₀ l p).live.filter (·.tgid = T)).map (·.tid))
    rw [List.length_map] at hlen
    omega

end Holders

/-- In every run the scheduler allows, with room in the ring buffer: every stall of the target is written exactly when
    there is a slot for each of them at its switch-out. There is one as long as the tids left behind by exited threads
    and the live threads of the target are together no more than the slots. -/
theorem stalls_written_iff (n : Sizes) {T : UInt32} (hT : T ≠ 0) {s₀ : Sched} {acts : List SchedAct}
    (hrun : SchedRun s₀ (schedHalves acts))
    (hring : ∀ (q : Nat) h evt th, (schedHalves acts)[q]? = some (.switchIn h evt th) → h.ringFull = false) :
    Maps.run n (schedSteps T acts) = schedMapsAt n T (schedHalves acts) (schedHalves acts).length ∧
    (∀ q h evt th, (schedHalves acts)[q]? = some (.switchIn h evt th) →
      (schedMapsAt n T (schedHalves acts) (q + 1)).events =
        (schedMapsAt n T (schedHalves acts) q).events ++ (writtenAt n T (schedHalves acts) q h evt).toList) ∧
    (EveryStallWritten n T (schedHalves acts) ↔ SlotForEveryStall n T (schedHalves acts)) ∧
    ((∀ (p : Nat) h evt th reason, (schedHalves acts)[p]? = some (.switchOut h evt th reason) → th.tgid = T →
        (leftAt T (schedHalves acts) p).card +
          ((schedAt s₀ (schedHalves acts) p).live.filter (·.tgid = T)).length ≤ n.blockStart) →
      EveryStallWritten n T (schedHalves acts)) := by
  have hiff : EveryStallWritten n T (schedHalves acts) ↔ SlotForEveryStall n T (schedHalves acts) := by
    refine ⟨?_, ?_⟩
    · intro hall p q th reason h evt h' evt' hoff htgid hr
      obtain ⟨ev, hev, -⟩ := hall p q th reason h evt h' evt' hoff htgid hr
      exact hoff.hasSlot_of_written hrun hT htgid hev
    · intro hall p q th reason h evt h' evt' hoff htgid hr
      exact hoff.written hrun hT htgid hr (hall p q th reason h evt h' evt' hoff htgid hr)
        (hring q h' evt' th hoff.resume)
  refine ⟨run_schedSteps n T acts, fun q h evt th hin => events_switchIn hin, hiff, ?_⟩
  intro hfew
  refine hiff.mpr ?_
  intro p q th reason h evt h' evt' hoff htgid _
  exact hrun.hasSlot hT hoff.out htgid (hfew p h evt th reason hoff.out htgid)

theorem stalls_written_iff_napRun : SchedRun workerOnly (schedHalves napRun) ∧
    EveryStallWritten Sizes.source 7 (schedHalves napRun) := by
  have hrun : SchedRun workerOnly (schedHalves napRun) := ⟨sane_workerOnly, by decide⟩
  have hring : ∀ (q : Nat) h evt th, (schedHalves napRun)[q]? = some (.switchIn h evt th) → h.ringFull = false := by
    intro q h evt th hin
    match q, hin with
    | 1, hin => cases hin; rfl
    | 3, hin => cases hin; rfl
  refine ⟨hrun, (stalls_written_iff Sizes.source (by decide) hrun hring).2.2.2 ?_⟩
  intro p h evt th reason hout htgid
  match p, hout with
  | 0, hout => decide
  | 2, hout => decide
  | 3, hout => cases hout

/-! ### A process whose threads come and go -/

/-- The short-lived threads of the target, one after the other beside `worker`. -/
def shortLived (i : Nat) : Thread := ⟨i + 2, UInt32.ofNat (i + 9), 7⟩

def startRecord (i : Nat) : TraceEventRawSchedSwitch := ⟨noComm, 0, 0, (shortLived i).tid.toInt32⟩

def exitRecord (i : Nat) : TraceEventRawSchedSwitch := ⟨noComm, (shortLived i).tid.toInt32, 16, 0⟩

/-- The thread is created, runs once and exits. -/
def lifetime (i : Nat) : List SchedAct :=
  [.create (shortLived i),
    .switch (.inThread (UInt64.ofNat (2 * i)) 0 0) (startRecord i) idleThread .yield (shortLived i),
    .switch (.inThread (UInt64.ofNat (2 * i + 1)) 7 (shortLived i).tid) (exitRecord i) (shortLived i) .exit idleThread]

def churn (k : Nat) : List SchedAct := (List.range k).flatMap lifetime

/-- `worker` runs at last, sleeps from 30010 to 30030 and runs again. -/
def lastNap : List SchedAct :=
  [.switch (.inThread 30000 0 0) ⟨noComm, 0, 0, 8⟩ idleThread .yield worker,
    .switch (.inThread 30010 7 8) ⟨noComm, 8, 1, 0⟩ worker .sleep idleThread,
    .switch (.inThread 30030 0 0) ⟨noComm, 0, 0, 8⟩ idleThread .yield worker]

def workerAsleep : Sched := ⟨[worker], [worker], []⟩

theorem schedHalves_append (acts acts' : List SchedAct) :
    schedHalves (acts ++ acts') = schedHalves acts ++ schedHalves acts' := List.flatMap_append

theorem churn_succ (k : Nat) : schedHalves (churn (k + 1)) = schedHalves (churn k) ++ schedHalves (lifetime k) := by
  rw [← schedHalves_append, churn, List.range_succ, List.flatMap_append, List.flatMap_singleton]
  rfl

theorem churn_zero : schedHalves (churn 0) = [] := rfl

theorem mem_churn {k : Nat} {act : SchedAct} (h : act ∈ churn k) : ∃ i, act ∈ lifetime i := by
  obtain ⟨i, -, hi⟩ := List.mem_flatMap.mp h
  exact ⟨i, hi⟩

-- So that no unification unfolds ten thousand lifetimes.
attribute [irreducible] churn

theorem shortLived_tid {i : Nat} (hi : i < 10240) : (shortLived i).tid.toNat = i + 9 := by
  show (UInt32.ofNat (i + 9)).toNat = i + 9
  rw [UInt32.toNat_ofNat']
  exact Nat.mod_eq_of_lt (by omega)

theorem shortLived_tid_ne {i : Nat} (hi : i < 10240) {t : UInt32} (ht : t.toNat < 9) : (shortLived i).tid ≠ t := by
  intro heq
  have := shortLived_tid hi
  rw [heq] at this
  omega

theorem shortLived_tid_ne_earlier {i k : Nat} (hi : i < k) (hk : k < 10240) :
    (shortLived k).tid ≠ (shortLived i).tid := by
  intro heq
  have := congrArg UInt32.toNat heq
  rw [shortLived_tid hk, shortLived_tid (hi.trans hk)] at this
  omega

/-- What the scheduler allows while no more than `c` threads of `T` are alive. -/
def Sched.AllowsFew (c : Nat) (T : UInt32) (s : Sched) (a : SchedHalf) : Prop :=
  s.Allows a ∧ (s.live.filter (·.tgid = T)).length ≤ c

/-- After `k` short lives only `worker` is left. -/
structure Churned (k : Nat) (s : Sched) : Prop where
  seen : ∀ t ∈ s.seen, t.id < k + 2
  live : s.live = [worker]
  running : s.running = []

theorem Churned.succ {k : Nat} (hk : k < 10240) {s : Sched} (hs : Churned k s) :
    Allowed Sched.next (Sched.AllowsFew 10240 7) s (schedHalves (lifetime k)) ∧
      Churned (k + 1) ((schedHalves (lifetime k)).foldl Sched.next s) := by
  obtain ⟨seen, live, running⟩ := s
  obtain ⟨hseen, rfl, rfl⟩ := hs
  have h0 : (shortLived k).tid ≠ 0 := shortLived_tid_ne hk (by decide)
  have h8 : worker.tid ≠ (shortLived k).tid := (shortLived_tid_ne hk (by decide)).symm
  have hnew : shortLived k ∉ seen := fun hm => absurd (hseen _ hm) (lt_irrefl _)
  have hne : worker ≠ shortLived k := fun h => h8 (congrArg Thread.tid h)
  have hidle : ¬(shortLived k).Idle := fun h => h0 h.1
  have hidle' : idleThread.Idle := ⟨rfl, rfl⟩
  have hexit : Reason.exit.Encodes 16 := by decide
  have hyield : Reason.yield.Encodes 0 := by decide
  have htgid : (shortLived k).tgid = 7 ∧ worker.tgid = 7 ∧ idleThread.tgid = 0 := ⟨rfl, rfl, rfl⟩
  have hzero : Int32.toUInt32 0 = 0 ∧ idleThread.tid = 0 := ⟨rfl, rfl⟩
  refine ⟨?_, ?_⟩
  · simp [schedHalves, lifetime, startRecord, exitRecord, SchedAct.halves, Allowed, Sched.AllowsFew, Sched.Allows,
      Sched.next, h0, h8, hnew, hne, hidle, hidle', hexit, hyield, htgid, hzero]
  · have hend : (schedHalves (lifetime k)).foldl Sched.next ⟨seen, [worker], []⟩ =
        ⟨shortLived k :: seen, [worker], []⟩ := by
      simp [schedHalves, lifetime, SchedAct.halves, Sched.next, hne, hidle, hidle']
    rw [hend]
    refine ⟨?_, rfl, rfl⟩
    intro t ht
    rcases List.mem_cons.mp ht with rfl | ht
    · exact Nat.lt_succ_self _
    · exact (hseen t ht).trans (Nat.lt_succ_self _)

/-- After `k` short lives there are `k` entries, all of threads that are gone. -/
structure Leaked (k : Nat) (m : Maps) : Prop where
  target : m.targetTgid = 7
  slots : m.blockStart.maxEntries = 10240
  length : m.blockStart.entries.keys.length = k
  keys : ∀ t ∈ m.blockStart.entries, ∃ i < k, t = (shortLived i).tid
  events : m.events = []

theorem Leaked.target_ne {k : Nat} {m : Maps} (hm : Leaked k m) : m.targetTgid ≠ 0 := by
  rw [hm.target]
  decide

theorem Leaked.get_none {k : Nat} {m : Maps} (hm : Leaked k m) {t : UInt32} (ht : ∀ i < k, t ≠ (shortLived i).tid) :
    m.blockStart.get t = none := by
  refine Option.eq_none_iff_forall_ne_some.mpr ?_
  intro v hv
  obtain ⟨i, hi, rfl⟩ := hm.keys t (BoundedMap.get_isSome_iff.mp (by rw [hv]; rfl))
  exact ht i hi rfl

theorem Leaked.switchIn {k : Nat} (hk : k ≤ 10240) {m : Maps} (hm : Leaked k m) (h : Helpers)
    (evt : TraceEventRawSchedSwitch) (hevt : evt.nextPid.toUInt32.toNat < 9) : m.half (.switchIn h evt) = m := by
  rw [Maps.half_switchIn m h evt hm.target_ne, hm.get_none fun i hi => (shortLived_tid_ne (by omega) hevt).symm]

theorem half_switchOut_yield (m : Maps) (h : Helpers) {evt : TraceEventRawSchedSwitch}
    (hevt : evt.prevState = taskRunning) : m.half (.switchOut h evt) = m :=
  Maps.half_none rfl (if_neg fun hc => hc.2.1 hevt) rfl rfl rfl

theorem Leaked.exit {k : Nat} (hk : k < 10240) {m : Maps} (hm : Leaked k m) (v : BlockStart) :
    Leaked (k + 1) { m with blockStart := m.blockStart.put (shortLived k).tid v } := by
  have hnot : (shortLived k).tid ∉ m.blockStart.entries := by
    intro hmem
    obtain ⟨i, hi, heq⟩ := hm.keys _ hmem
    exact shortLived_tid_ne_earlier hi hk heq
  have hkeys := BoundedMap.keys_put_of_notMem (v := v) hnot (by rw [hm.length, hm.slots]; exact hk)
  refine ⟨hm.target, (BoundedMap.maxEntries_put _ _ _).trans hm.slots, ?_, ?_, hm.events⟩
  · rw [hkeys, List.length_cons, hm.length]
  · intro t ht
    rw [AList.mem_keys, hkeys, List.mem_cons] at ht
    rcases ht with rfl | ht
    · exact ⟨k, Nat.lt_succ_self k, rfl⟩
    · obtain ⟨i, hi, heq⟩ := hm.keys t (AList.mem_keys.mpr ht)
      exact ⟨i, hi.trans (Nat.lt_succ_self k), heq⟩

theorem Leaked.succ {k : Nat} (hk : k < 10240) {m : Maps} (hm : Leaked k m) :
    Leaked (k + 1) ((schedHalves (lifetime k)).foldl Maps.schedHalf m) := by
  have ht := hm.target_ne
  have hin : ∀ h, m.half (.switchIn h (startRecord k)) = m := by
    intro h
    have hget : m.blockStart.get (startRecord k).nextPid.toUInt32 = none :=
      hm.get_none fun i hi => shortLived_tid_ne_earlier hi hk
    rw [Maps.half_switchIn m h _ ht, hget]
  have hexit : ∀ ts, m.half (.switchOut (.inThread ts 7 (shortLived k).tid) (exitRecord k)) =
      { m with blockStart := m.blockStart.put (shortLived k).tid ⟨ts, 7, noComm⟩ } := by
    intro ts
    have hstate : (exitRecord k).prevState ≠ taskRunning := (by decide : (16 : Int64) ≠ taskRunning)
    have htgid : (Helpers.inThread ts 7 (shortLived k).tid).currentTgid = m.targetTgid := by
      rw [hm.target, Helpers.currentTgid_inThread]
    rw [Maps.half_switchOut m _ _ ht, if_pos hstate, if_pos htgid, Helpers.currentTgid_inThread]
    rfl
  have hlast := hm.exit hk ⟨UInt64.ofNat (2 * k + 1), 7, noComm⟩
  have hidle := hlast.switchIn hk (.inThread (UInt64.ofNat (2 * k + 1)) 7 (shortLived k).tid) (exitRecord k)
    (by decide : (0 : UInt32).toNat < 9)
  have hsteps : (schedHalves (lifetime k)).foldl Maps.schedHalf m =
      (((m.half (.switchOut (.inThread (UInt64.ofNat (2 * k)) 0 0) (startRecord k))).half
        (.switchIn (.inThread (UInt64.ofNat (2 * k)) 0 0) (startRecord k))).half
        (.switchOut (.inThread (UInt64.ofNat (2 * k + 1)) 7 (shortLived k).tid) (exitRecord k))).half
        (.switchIn (.inThread (UInt64.ofNat (2 * k + 1)) 7 (shortLived k).tid) (exitRecord k)) := rfl
  rw [hsteps, half_switchOut_yield m _ rfl, hin, hexit, hidle]
  exact hlast

/-! ### The stall that is lost -/

def leakRun : List SchedAct := churn 10240 ++ lastNap

theorem churned (k : Nat) (hk : k ≤ 10240) :
    Allowed Sched.next (Sched.AllowsFew 10240 7) workerAsleep (schedHalves (churn k)) ∧
      Churned k ((schedHalves (churn k)).foldl Sched.next workerAsleep) := by
  induction k with
  | zero =>
    rw [churn_zero]
    exact ⟨trivial, ⟨by decide, rfl, rfl⟩⟩
  | succ k ih =>
    obtain ⟨hallowed, hs⟩ := ih (by omega)
    obtain ⟨hallowed', hs'⟩ := hs.succ (by omega)
    rw [churn_succ, List.foldl_append]
    exact ⟨hallowed.append hallowed', hs'⟩

theorem leaked (k : Nat) (hk : k ≤ 10240) :
    Leaked k ((schedHalves (churn k)).foldl Maps.schedHalf (targeted Sizes.source 7)) := by
  induction k with
  | zero =>
    rw [churn_zero]
    refine ⟨rfl, rfl, rfl, ?_, rfl⟩
    intro t ht
    cases ht
  | succ k ih =>
    rw [churn_succ, List.foldl_append]
    exact (ih (by omega)).succ (by omega)

theorem OffCpu.append {l l' : List SchedHalf} {p q : Nat} {th : Thread} {reason : Reason} {h h' : Helpers}
    {evt evt' : TraceEventRawSchedSwitch} (hoff : OffCpu l' p q th reason h evt h' evt') :
    OffCpu (l ++ l') (l.length + p) (l.length + q) th reason h evt h' evt' := by
  have hget : ∀ j, (l ++ l')[l.length + j]? = l'[j]? := by
    intro j
    rw [List.getElem?_append_right (Nat.le_add_right _ _), Nat.add_sub_cancel_left]
  refine ⟨Nat.add_lt_add_left hoff.lt _, (hget p).trans hoff.out, (hget q).trans hoff.resume, ?_⟩
  intro j hpj hjq
  obtain ⟨i, rfl⟩ := Nat.exists_eq_add_of_le (show l.length ≤ j by omega)
  rw [hget]
  exact hoff.between i (by omega) (by omega)

theorem offCpu_lastNap : OffCpu (schedHalves lastNap) 2 5 worker .sleep (.inThread 30010 7 8) ⟨noComm, 8, 1, 0⟩
    (.inThread 30030 0 0) ⟨noComm, 0, 0, 8⟩ := by
  refine ⟨by decide, rfl, rfl, ?_⟩
  intro j h1 h2
  match j, h1, h2 with
  | 3, _, _ => exact ⟨nofun, nofun⟩
  | 4, _, _ => exact ⟨nofun, nofun⟩

theorem Leaked.full {m : Maps} (hm : Leaked 10240 m) : ¬m.blockStart.HasSlot 8 := by
  rintro (hmem | hlen)
  · obtain ⟨i, hi, heq⟩ := hm.keys 8 hmem
    exact shortLived_tid_ne hi (by decide) heq.symm
  · have hkeys : m.blockStart.entries.entries.length = 10240 := (List.length_map _).symm.trans hm.length
    rw [hkeys, hm.slots] at hlen
    exact absurd hlen (lt_irrefl _)

/-- The map is full of threads that are gone, so nothing changes in the last nap. -/
theorem Leaked.nap {m : Maps} (hm : Leaked 10240 m) :
    stateAt Maps.schedHalf m (schedHalves lastNap) 2 = m ∧ (schedHalves lastNap).foldl Maps.schedHalf m = m := by
  have ht := hm.target_ne
  have hidle : ∀ h, m.half (.switchOut h ⟨noComm, 0, 0, 8⟩) = m := fun h => half_switchOut_yield m h rfl
  have hin : ∀ h, m.half (.switchIn h ⟨noComm, 0, 0, 8⟩) = m := fun h =>
    hm.switchIn le_rfl h _ (by decide : (8 : UInt32).toNat < 9)
  have hin' : ∀ h, m.half (.switchIn h ⟨noComm, 8, 1, 0⟩) = m := fun h =>
    hm.switchIn le_rfl h _ (by decide : (0 : UInt32).toNat < 9)
  have hsleep : m.half (.switchOut (.inThread 30010 7 8) ⟨noComm, 8, 1, 0⟩) = m := by
    rw [Maps.half_switchOut m _ _ ht, if_pos (by decide), if_pos (by rw [hm.target]; decide)]
    exact congrArg (fun b => { m with blockStart := b }) (BoundedMap.put_of_not_hasSlot hm.full)
  have htwo : stateAt Maps.schedHalf m (schedHalves lastNap) 2 =
      (m.half (.switchOut (.inThread 30000 0 0) ⟨noComm, 0, 0, 8⟩)).half
        (.switchIn (.inThread 30000 0 0) ⟨noComm, 0, 0, 8⟩) := rfl
  have hrest : (schedHalves lastNap).foldl Maps.schedHalf m =
      ((((stateAt Maps.schedHalf m (schedHalves lastNap) 2).half
        (.switchOut (.inThread 30010 7 8) ⟨noComm, 8, 1, 0⟩)).half
        (.switchIn (.inThread 30010 7 8) ⟨noComm, 8, 1, 0⟩)).half
        (.switchOut (.inThread 30030 0 0) ⟨noComm, 0, 0, 8⟩)).half
        (.switchIn (.inThread 30030 0 0) ⟨noComm, 0, 0, 8⟩) := rfl
  rw [hidle, hin] at htwo
  rw [htwo, hsleep, hin', hidle, hin] at hrest
  exact ⟨htwo, hrest⟩

theorem ringFull_leakRun {q : Nat} {h : Helpers} {evt : TraceEventRawSchedSwitch} {th : Thread}
    (hin : (schedHalves leakRun)[q]? = some (.switchIn h evt th)) : h.ringFull = false := by
  obtain ⟨act, hact, ha⟩ := List.mem_flatMap.mp (List.mem_of_getElem? hin)
  rcases List.mem_append.mp hact with hact | hact
  · obtain ⟨i, hact⟩ := mem_churn hact
    simp only [lifetime, List.mem_cons, List.not_mem_nil, or_false] at hact
    rcases hact with rfl | rfl | rfl <;> simp [SchedAct.halves] at ha <;> rw [ha.1] <;> rfl
  · simp only [lastNap, List.mem_cons, List.not_mem_nil, or_false] at hact
    rcases hact with rfl | rfl | rfl <;> simp [SchedAct.halves] at ha <;> rw [ha.1] <;> rfl

theorem Churned.nap {s : Sched} (hs : Churned 10240 s) :
    Allowed Sched.next (Sched.AllowsFew 10240 7) s (schedHalves lastNap) ∧
      ((schedHalves lastNap).foldl Sched.next s).live = [worker] := by
  obtain ⟨seen, live, running⟩ := s
  obtain ⟨-, rfl, rfl⟩ := hs
  have hsleep : Reason.sleep.Encodes 1 := by decide
  have hyield : Reason.yield.Encodes 0 := by decide
  have htids : Int32.toUInt32 0 = 0 ∧ Int32.toUInt32 8 = 8 := ⟨rfl, rfl⟩
  refine ⟨?_, rfl⟩
  simp [schedHalves, lastNap, SchedAct.halves, Allowed, Sched.AllowsFew, Sched.Allows, Sched.next, worker, idleThread,
    Thread.Idle, hsleep, hyield, htids]

/-- In `leakRun` never more than two threads of the target are alive, and there is room in the ring buffer, but after
    10240 of them have exited the map has no slot left, and the last sleep of `worker` is not written. -/
theorem leakRun_stall_lost : SchedRun workerAsleep (schedHalves leakRun) ∧
    (∀ i, ((schedAt workerAsleep (schedHalves leakRun) i).live.filter (·.tgid = 7)).length ≤ 10240) ∧
    (∀ (q : Nat) h evt th, (schedHalves leakRun)[q]? = some (.switchIn h evt th) → h.ringFull = false) ∧
    (Maps.run Sizes.source (schedSteps 7 leakRun)).events = [] ∧
    ¬EveryStallWritten Sizes.source 7 (schedHalves leakRun) := by
  have hhalves : schedHalves leakRun = schedHalves (churn 10240) ++ schedHalves lastNap := schedHalves_append _ _
  obtain ⟨hallowed, hs⟩ := churned 10240 le_rfl
  obtain ⟨hallowed', hlive⟩ := hs.nap
  have hm := leaked 10240 le_rfl
  have hfew : Allowed Sched.next (Sched.AllowsFew 10240 7) workerAsleep (schedHalves leakRun) := by
    rw [hhalves]
    exact hallowed.append hallowed'
  have hrun : SchedRun workerAsleep (schedHalves leakRun) :=
    ⟨⟨by decide, by decide, by decide, by decide⟩, hfew.imp fun _ _ ha => ha.1⟩
  refine ⟨hrun, ?_, fun _ _ _ _ hin => ringFull_leakRun hin, ?_, ?_⟩
  · refine hfew.everywhere (P := fun s => (s.live.filter (·.tgid = 7)).length ≤ 10240) (fun _ _ ha => ha.2) ?_
    rw [hhalves, List.foldl_append, hlive]
    decide
  · rw [run_schedSteps, schedMapsAt, stateAt_length, hhalves, List.foldl_append, hm.nap.2]
    exact hm.events
  · intro hall
    have hoff := offCpu_lastNap.append (l := schedHalves (churn 10240))
    rw [← hhalves] at hoff
    obtain ⟨ev, hev, -⟩ := hall _ _ _ _ _ _ _ _ hoff rfl (by decide)
    have hslot : (schedMapsAt Sizes.source 7 (schedHalves leakRun) _).blockStart.HasSlot 8 :=
      hoff.hasSlot_of_written hrun (by decide) rfl hev
    rw [schedMapsAt, hhalves, stateAt_append, hm.nap.1] at hslot
    exact hm.full hslot

end Whyslow
