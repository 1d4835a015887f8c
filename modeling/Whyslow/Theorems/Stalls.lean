import Whyslow.Theorems.Scheduler

/-! Stalls and the threads behind them. An entry of `BLOCK_START` is taken by the next switch-in of its tid. A thread
    that sleeps keeps its tid, so that switch-in is its own; a thread that exits leaves its entry to the next thread
    that gets its tid. A thread that is preempted leaves an entry as one that sleeps does. -/

namespace Whyslow
open Runs

/-! ### The maps -/

def SchedHalf.half? : SchedHalf → Option Half
  | .create _ => none
  | .switchOut h evt _ _ => some (.switchOut h evt)
  | .switchIn h evt _ => some (.switchIn h evt)

/-- The creation of a thread is not traced. -/
def Maps.schedHalf (m : Maps) (a : SchedHalf) : Maps := a.half?.elim m m.half

def SchedAct.step? : SchedAct → Option Step
  | .create _ => none
  | .switch h evt _ _ _ => some (.schedSwitch h (some evt))

/-- The steps of the programs: the target is set to `T`, then come the switches. -/
def schedSteps (T : UInt32) (acts : List SchedAct) : List Step := .setTargetTgid T :: acts.filterMap SchedAct.step?

def schedHalves (acts : List SchedAct) : List SchedHalf := acts.flatMap SchedAct.halves

def targeted (n : Sizes) (T : UInt32) : Maps := (Maps.loaded n).step (.setTargetTgid T)

def schedMapsAt (n : Sizes) (T : UInt32) (l : List SchedHalf) (i : Nat) : Maps :=
  stateAt Maps.schedHalf (targeted n T) l i

theorem foldl_schedSteps (m : Maps) (acts : List SchedAct) :
    (acts.filterMap SchedAct.step?).foldl Maps.step m = (schedHalves acts).foldl Maps.schedHalf m := by
  induction acts generalizing m with
  | nil => rfl
  | cons a acts ih =>
    have hcons : schedHalves (a :: acts) = a.halves ++ schedHalves acts := rfl
    rw [hcons, List.foldl_append]
    cases a with
    | create th => exact ih m
    | switch h evt prev reason next =>
      have hstep : m.step (.schedSwitch h (some evt)) =
          (SchedAct.switch h evt prev reason next).halves.foldl Maps.schedHalf m := schedSwitch_eq_halves m h evt
      rw [← hstep]
      exact ih _

theorem run_schedSteps (n : Sizes) (T : UInt32) (acts : List SchedAct) :
    Maps.run n (schedSteps T acts) = schedMapsAt n T (schedHalves acts) (schedHalves acts).length := by
  rw [schedMapsAt, stateAt_length]
  exact foldl_schedSteps (targeted n T) acts

def SchedHalf.blockAct (m : Maps) (a : SchedHalf) : SpanAct UInt32 BlockStart := a.half?.elim .none (Half.blockAct m)

def stallSpans : Spans Maps.schedHalf UInt32 BlockStart where
  map := (·.blockStart)
  act m a := a.blockAct m
  map_step m a := by cases a <;> rfl

section Maps
variable {n : Sizes} {T : UInt32} {s₀ : Sched} {l : List SchedHalf} {p q i : Nat} {h h' : Helpers}
  {evt evt' : TraceEventRawSchedSwitch} {th : Thread} {reason : Reason} {ev : Event}

theorem schedTarget_eq (n : Sizes) (T : UInt32) (l : List SchedHalf) (i : Nat) :
    (schedMapsAt n T l i).targetTgid = T := by
  refine stateAt_induction (P := fun m : Maps => m.targetTgid = T) rfl ?_ i
  intro m a _ hm
  cases a <;> exact hm

/-- What a switch-in at half `q` writes. -/
def writtenAt (n : Sizes) (T : UInt32) (l : List SchedHalf) (q : Nat) (h : Helpers) (evt : TraceEventRawSchedSwitch) :
    Option Event :=
  (Half.switchIn h evt).writes (schedMapsAt n T l q)

theorem events_switchIn (hin : l[q]? = some (.switchIn h evt th)) :
    (schedMapsAt n T l (q + 1)).events = (schedMapsAt n T l q).events ++ (writtenAt n T l q h evt).toList := by
  rw [schedMapsAt, stateAt_succ hin]
  rfl

theorem SchedRun.out_act (hrun : SchedRun s₀ l) (hT : T ≠ 0) (hout : l[p]? = some (.switchOut h evt th reason))
    (htgid : th.tgid = T) (hr : reason ≠ .yield) :
    (SchedHalf.switchOut h evt th reason).blockAct (schedMapsAt n T l p) =
      .start th.tid ⟨h.ktimeGetNs, T, evt.prevComm⟩ := by
  obtain ⟨-, hg, -, htid, henc⟩ := hrun.allows.at hout
  have hcond : (schedMapsAt n T l p).targetTgid ≠ 0 ∧ evt.prevState ≠ taskRunning ∧
      h.currentTgid = (schedMapsAt n T l p).targetTgid := by
    rw [schedTarget_eq]
    exact ⟨hT, fun h0 => hr (henc.running_iff.mp h0), hg.trans htgid⟩
  refine (if_pos hcond).trans ?_
  rw [htid, hg, htgid]

theorem SchedRun.act_start (hrun : SchedRun s₀ l) {a : SchedHalf} (ha : l[i]? = some a) {k : UInt32} {v : BlockStart}
    (hact : a.blockAct (schedMapsAt n T l i) = .start k v) :
    ∃ h evt th reason, a = .switchOut h evt th reason ∧ th.tgid = T ∧ reason ≠ .yield ∧ k = th.tid ∧
      v = ⟨h.ktimeGetNs, T, evt.prevComm⟩ := by
  cases a with
  | create th => cases hact
  | switchOut h evt th reason =>
    obtain ⟨h', evt', he, -, hstate, hg, hk, hv⟩ := blockAct_start (a := .switchOut h evt) hact
    cases he
    rw [schedTarget_eq] at hg
    obtain ⟨-, hg', -, htid, henc⟩ := hrun.allows.at ha
    exact ⟨h, evt, th, reason, rfl, hg'.symm.trans hg, fun hr => hstate (henc.running_iff.mpr hr), hk.trans htid,
      by rw [hv, hg]⟩
  | switchIn h evt th =>
    obtain ⟨h', evt', he, -⟩ := blockAct_start (a := .switchIn h evt) hact
    cases he

theorem SchedRun.act_complete_iff (hrun : SchedRun s₀ l) (hT : T ≠ 0) {a : SchedHalf} (ha : l[i]? = some a)
    {k : UInt32} : a.blockAct (schedMapsAt n T l i) = .complete k ↔ ∃ h evt th, a = .switchIn h evt th ∧ th.tid = k := by
  have ht : (schedMapsAt n T l i).targetTgid ≠ 0 := by
    rw [schedTarget_eq]
    exact hT
  cases a with
  | create th =>
    refine ⟨?_, ?_⟩
    · intro hact
      cases hact
    · intro hk
      obtain ⟨_, _, _, he, -⟩ := hk
      cases he
  | switchOut h evt th reason =>
    refine ⟨?_, ?_⟩
    · intro hact
      cases (blockAct_complete (a := .switchOut h evt) ht).mp hact
    · intro hk
      obtain ⟨_, _, _, he, -⟩ := hk
      cases he
  | switchIn h evt th =>
    have htid := (hrun.allows.at ha).2
    refine (blockAct_complete (a := .switchIn h evt) ht).trans ⟨fun hk => ⟨h, evt, th, rfl, ?_⟩, fun hk => ?_⟩
    · rw [← htid]
      exact Option.some.inj hk
    · obtain ⟨_, _, _, he, hk⟩ := hk
      cases he
      rw [← hk, ← htid]
      rfl

theorem SchedRun.writtenAt_iff (hrun : SchedRun s₀ l) (hT : T ≠ 0) (hin : l[q]? = some (.switchIn h evt th)) :
    writtenAt n T l q h evt = some ev ↔ h.ringFull = false ∧
      ∃ p v, stallSpans.OpenSince (targeted n T) l p q th.tid v ∧ ev = schedBlockEvent h evt v := by
  have ht : (schedMapsAt n T l q).targetTgid ≠ 0 := by
    rw [schedTarget_eq]
    exact hT
  have hget : ∀ v, (schedMapsAt n T l q).blockStart.get evt.nextPid.toUInt32 = some v ↔
      ∃ p, stallSpans.OpenSince (targeted n T) l p q th.tid v := by
    intro v
    rw [(hrun.allows.at hin).2]
    exact stallSpans.get_eq_some_iff (fun _ => rfl) q
  have hwrites : writtenAt n T l q h evt = if h.ringFull then none else
      ((schedMapsAt n T l q).blockStart.get evt.nextPid.toUInt32).map (schedBlockEvent h evt) := by
    unfold writtenAt Half.writes
    simp only [Half.produces, if_pos ht, Half.ringFull]
  rw [hwrites]
  cases h.ringFull with
  | true => simp
  | false =>
    rw [if_neg (by decide), Option.map_eq_some_iff]
    refine ⟨?_, ?_⟩
    · intro hev
      obtain ⟨v, hv, he⟩ := hev
      obtain ⟨p, hopen⟩ := (hget v).mp hv
      exact ⟨rfl, p, v, hopen, he.symm⟩
    · intro hev
      obtain ⟨-, p, v, hopen, he⟩ := hev
      exact ⟨v, (hget v).mpr ⟨p, hopen⟩, he.symm⟩

end Maps

/-! ### One thread -/

/-- Every event written joins a switch-out and a switch-in of one thread, and names that thread's process. -/
def SameThread (n : Sizes) (T : UInt32) (l : List SchedHalf) : Prop :=
  ∀ q h evt th ev, l[q]? = some (.switchIn h evt th) → writtenAt n T l q h evt = some ev →
    ∃ p h' evt' reason v, l[p]? = some (.switchOut h' evt' th reason) ∧
      stallSpans.OpenSince (targeted n T) l p q th.tid v ∧ ev.pid = th.tgid ∧ ev.tid = th.tid ∧
      ev.timestampNs = h.ktimeGetNs ∧ ev.durationNs = Words.saturatingSub h.ktimeGetNs h'.ktimeGetNs

/-- A thread is switched in under the tid of a thread of the target that exited, with no switch-in under that tid in
    between; the exit found a slot in the map and the switch-in finds room in the ring buffer. -/
def TidReused (n : Sizes) (T : UInt32) (l : List SchedHalf) : Prop :=
  ∃ p q h evt th h' evt' th', p < q ∧ l[p]? = some (.switchOut h evt th .exit) ∧ th.tgid = T ∧
    (schedMapsAt n T l p).blockStart.HasSlot th.tid ∧ l[q]? = some (.switchIn h' evt' th') ∧ th'.tid = th.tid ∧
    h'.ringFull = false ∧ ∀ j, p < j → j < q → ∀ g e t, l[j]? = some (.switchIn g e t) → t.tid ≠ th.tid

section OneThread
variable {n : Sizes} {T : UInt32} {s₀ : Sched} {l : List SchedHalf} {p q : Nat} {h h' : Helpers}
  {evt evt' : TraceEventRawSchedSwitch} {th th' : Thread} {reason : Reason} {k : UInt32} {v : BlockStart}

theorem SchedRun.tid_ne_zero (hrun : SchedRun s₀ l) (hout : l[p]? = some (.switchOut h evt th reason))
    (htgid : th.tgid ≠ 0) : th.tid ≠ 0 := by
  have hlive := (hrun.allows.at hout).1.resolve_left fun hidle => htgid hidle.2
  exact (hrun.sane_at p).nonzero th ((hrun.sane_at p).running th hlive)

theorem SchedRun.openSince_cases (hrun : SchedRun s₀ l) (hT : T ≠ 0)
    (hopen : stallSpans.OpenSince (targeted n T) l p q k v) :
    p < q ∧ ∃ h evt th reason, l[p]? = some (.switchOut h evt th reason) ∧ th.tgid = T ∧ reason ≠ .yield ∧
      th.tid = k ∧ v = ⟨h.ktimeGetNs, T, evt.prevComm⟩ ∧ (schedMapsAt n T l p).blockStart.HasSlot k ∧
      ∀ j, p < j → j < q → ∀ g e t, l[j]? = some (.switchIn g e t) → t.tid ≠ k := by
  obtain ⟨hpq, a, ha, hopens, hrest⟩ := hopen
  obtain ⟨h, evt, th, reason, rfl, htgid, hr, rfl, hv⟩ := hrun.act_start ha hopens.1
  refine ⟨hpq, h, evt, th, reason, ha, htgid, hr, rfl, hv, hopens.2, ?_⟩
  intro j hpj hjq g e t hj htid
  exact (hrest j hpj hjq _ hj).1 ((hrun.act_complete_iff hT hj).mpr ⟨g, e, t, rfl, htid⟩)

/-- A switch-out of the target is an open start until the next switch-in under its tid: before that no thread with
    the tid is on a CPU to start another. -/
theorem SchedRun.openSince_of_out (hrun : SchedRun s₀ l) (hT : T ≠ 0) (hpq : p < q)
    (hout : l[p]? = some (.switchOut h evt th reason)) (htgid : th.tgid = T) (hr : reason ≠ .yield)
    (hslot : (schedMapsAt n T l p).blockStart.HasSlot th.tid)
    (hno : ∀ j, p < j → j < q → ∀ g e t, l[j]? = some (.switchIn g e t) → t.tid ≠ th.tid) :
    stallSpans.OpenSince (targeted n T) l p q th.tid ⟨h.ktimeGetNs, T, evt.prevComm⟩ := by
  have h0 : th.tid ≠ 0 := hrun.tid_ne_zero hout (htgid ▸ hT)
  refine ⟨hpq, _, hout, ⟨hrun.out_act hT hout htgid hr, hslot⟩, fun j hpj hjq a ha => ⟨fun hact => ?_, fun w hw => ?_⟩⟩
  · obtain ⟨g, e, t, rfl, htid⟩ := (hrun.act_complete_iff hT ha).mp hact
    exact hno j hpj hjq g e t ha htid
  · obtain ⟨g, e, t, r, rfl, -, -, htid, -⟩ := hrun.act_start ha hw.1
    have hrunning := hrun.running_of_out ha (by rw [← htid]; exact h0)
    exact hrun.not_running_after_out hpj hout h0 (fun k h1 h2 => hno k h1 (by omega)) t hrunning htid.symm

/-- The open start of a thread that has not exited is taken by that thread. -/
theorem SchedRun.same_thread (hrun : SchedRun s₀ l) (hpq : p < q) (hout : l[p]? = some (.switchOut h evt th reason))
    (h0 : th.tid ≠ 0) (hr : reason ≠ .exit) (hin : l[q]? = some (.switchIn h' evt' th')) (htid : th'.tid = th.tid)
    (hno : ∀ j, p < j → j < q → ∀ g e t, l[j]? = some (.switchIn g e t) → t.tid ≠ th.tid) : th' = th := by
  have hsane := hrun.sane_at p
  have hlive : th ∈ (schedAt s₀ l q).live := by
    refine SchedRun.live_stays hpq.le (hsane.running th (hrun.running_of_out hout h0)) ?_
    intro k hpk hkq g e hk
    rcases Nat.eq_or_lt_of_le hpk with rfl | hpk
    · cases hout.symm.trans hk
      exact hr rfl
    · exact hrun.not_running_after_out hpk hout h0 (fun j h1 h2 => hno j h1 (by omega)) th (hrun.running_of_out hk h0) rfl
  exact (hrun.sane_at q).tids th' (hrun.live_of_in hin (htid ▸ h0)) th hlive htid

end OneThread

/-- In every run the scheduler allows: all stalls are of one thread each, exactly when no tid of an exited thread of
    the target is switched in again over its entry. -/
theorem stalls_same_thread_iff (n : Sizes) {T : UInt32} (hT : T ≠ 0) {s₀ : Sched} {acts : List SchedAct}
    (hrun : SchedRun s₀ (schedHalves acts)) :
    Maps.run n (schedSteps T acts) = schedMapsAt n T (schedHalves acts) (schedHalves acts).length ∧
    (∀ q h evt th, (schedHalves acts)[q]? = some (.switchIn h evt th) →
      (schedMapsAt n T (schedHalves acts) (q + 1)).events =
        (schedMapsAt n T (schedHalves acts) q).events ++ (writtenAt n T (schedHalves acts) q h evt).toList) ∧
    (SameThread n T (schedHalves acts) ↔ ¬TidReused n T (schedHalves acts)) := by
  refine ⟨run_schedSteps n T acts, fun q h evt th hin => events_switchIn hin, fun hsame hreused => ?_,
    fun hnot q h evt th ev hin hev => ?_⟩
  · obtain ⟨p, q, h, evt, th, h', evt', th', hpq, hout, htgid, hslot, hin, htid, hroom, hno⟩ := hreused
    have h0 : th.tid ≠ 0 := hrun.tid_ne_zero hout (htgid ▸ hT)
    have hopen := hrun.openSince_of_out hT hpq hout htgid (by decide) hslot hno
    have hev := (hrun.writtenAt_iff hT hin).mpr ⟨hroom, p, _, htid ▸ hopen, rfl⟩
    obtain ⟨p', g, e, reason, v, hout', hopen', -⟩ := hsame q h' evt' th' _ hin hev
    obtain rfl := Spans.OpenSince.unique stallSpans hopen (htid ▸ hopen')
    cases hout.symm.trans hout'
    exact hrun.dead_after_exit hpq hout h0 (hrun.live_of_in hin h0)
  · obtain ⟨hroom, p, v, hopen, rfl⟩ := (hrun.writtenAt_iff hT hin).mp hev
    obtain ⟨hpq, g, e, th', reason, hout, htgid, -, htid, rfl, hslot, hno⟩ := hrun.openSince_cases hT hopen
    have h0 : th'.tid ≠ 0 := hrun.tid_ne_zero hout (htgid ▸ hT)
    rw [← htid] at hno hslot
    have hr : reason ≠ .exit := by
      rintro rfl
      exact hnot ⟨p, q, g, e, th', h, evt, th, hpq, hout, htgid, hslot, hin, htid.symm, hroom, hno⟩
    obtain rfl := hrun.same_thread hpq hout h0 hr hin htid.symm hno
    exact ⟨p, g, e, reason, _, hout, hopen, htgid.symm, (hrun.allows.at hin).2, rfl, rfl⟩

/-- The idle thread, thread 8 of the target 7, and a thread of process 5 that gets the tid 8 later. -/
def idleThread : Thread := ⟨0, 0, 0⟩
def worker : Thread := ⟨1, 8, 7⟩
def stranger : Thread := ⟨2, 8, 5⟩

def workerOnly : Sched := ⟨[worker], [worker], [worker]⟩

theorem sane_workerOnly : workerOnly.Sane := ⟨by decide, by decide, by decide, by decide⟩

def napRun : List SchedAct :=
  [.switch (.inThread 10 7 8) ⟨noComm, 8, 1, 0⟩ worker .sleep idleThread,
    .switch (.inThread 30 0 0) ⟨noComm, 0, 0, 8⟩ idleThread .yield worker]

theorem stalls_same_thread_iff_napRun : SchedRun workerOnly (schedHalves napRun) ∧
    SameThread Sizes.source 7 (schedHalves napRun) := by
  have hrun : SchedRun workerOnly (schedHalves napRun) := ⟨sane_workerOnly, by decide⟩
  refine ⟨hrun, (stalls_same_thread_iff Sizes.source (by decide) hrun).2.2.mpr ?_⟩
  intro hreused
  obtain ⟨p, q, h, evt, th, h', evt', th', -, hout, -⟩ := hreused
  have hmem := List.mem_of_getElem? hout
  simp [schedHalves, napRun, SchedAct.halves] at hmem

/-- `worker` exits at 10, and `stranger` gets its tid and is switched in at 1000. -/
def reuseRun : List SchedAct :=
  [.switch (.inThread 10 7 8) ⟨noComm, 8, 16, 0⟩ worker .exit idleThread, .create stranger,
    .switch (.inThread 1000 0 0) ⟨noComm, 0, 0, 8⟩ idleThread .yield stranger]

/-- In `reuseRun` a stall of 990 is written that begins with `worker` and ends with `stranger`. -/
theorem reuseRun_not_same_thread : SchedRun workerOnly (schedHalves reuseRun) ∧
    (Maps.run Sizes.source (schedSteps 7 reuseRun)).events = [⟨1000, 990, 0, 7, 8, eventSchedBlock, noComm⟩] ∧
    ¬SameThread Sizes.source 7 (schedHalves reuseRun) := by
  refine ⟨⟨sane_workerOnly, by decide⟩, by decide, ?_⟩
  intro hsame
  obtain ⟨p, h, evt, reason, v, hout, -⟩ := hsame 4 (.inThread 1000 0 0) ⟨noComm, 0, 0, 8⟩ stranger
    ⟨1000, 990, 0, 7, 8, eventSchedBlock, noComm⟩ rfl (by decide)
  have hmem := List.mem_of_getElem? hout
  simp [schedHalves, reuseRun, SchedAct.halves, stranger, worker, idleThread] at hmem

/-! ### Blocked time -/

/-- Thread `th` is off-CPU from half `p`, which it leaves for `reason`, to half `q`. -/
structure OffCpu (l : List SchedHalf) (p q : Nat) (th : Thread) (reason : Reason) (h : Helpers)
    (evt : TraceEventRawSchedSwitch) (h' : Helpers) (evt' : TraceEventRawSchedSwitch) : Prop where
  lt : p < q
  out : l[p]? = some (.switchOut h evt th reason)
  resume : l[q]? = some (.switchIn h' evt' th)
  between : ∀ j, p < j → j < q →
    (∀ g e r, l[j]? ≠ some (.switchOut g e th r)) ∧ ∀ g e, l[j]? ≠ some (.switchIn g e th)

/-- The time off-CPU of every thread of the target is written exactly when it began with a sleep. -/
def OnlyBlocked (n : Sizes) (T : UInt32) (l : List SchedHalf) : Prop :=
  ∀ p q th reason h evt h' evt', OffCpu l p q th reason h evt h' evt' → th.tgid = T →
    ((∃ ev, writtenAt n T l q h' evt' = some ev) ↔ reason = .sleep)

/-- No thread of the target is preempted and runs again. -/
def NotPreempted (T : UInt32) (l : List SchedHalf) : Prop :=
  ∀ p q th reason h evt h' evt', OffCpu l p q th reason h evt h' evt' → th.tgid = T → reason ≠ .preempt

/-- The map has a slot for every switch-out of the target, and the ring buffer room for every event. -/
structure StallRoom (n : Sizes) (T : UInt32) (l : List SchedHalf) : Prop where
  slots : ∀ (p : Nat) h evt th reason, l[p]? = some (.switchOut h evt th reason) → th.tgid = T →
    (schedMapsAt n T l p).blockStart.HasSlot th.tid
  ring : ∀ (q : Nat) h evt th, l[q]? = some (.switchIn h evt th) → h.ringFull = false

namespace OffCpu
variable {n : Sizes} {T : UInt32} {s₀ : Sched} {l : List SchedHalf} {p q : Nat} {th : Thread} {reason : Reason}
  {h h' : Helpers} {evt evt' : TraceEventRawSchedSwitch} {ev : Event}

theorem not_exit (hoff : OffCpu l p q th reason h evt h' evt') (hrun : SchedRun s₀ l) (h0 : th.tid ≠ 0) :
    reason ≠ .exit := by
  rintro rfl
  exact hrun.dead_after_exit hoff.lt hoff.out h0 (hrun.live_of_in hoff.resume h0)

theorem live (hoff : OffCpu l p q th reason h evt h' evt') (hrun : SchedRun s₀ l) (h0 : th.tid ≠ 0) {j : Nat}
    (hpj : p ≤ j) (hjq : j ≤ q) : th ∈ (schedAt s₀ l j).live := by
  have hsane := hrun.sane_at p
  refine SchedRun.live_stays hpj (hsane.running th (hrun.running_of_out hoff.out h0)) ?_
  intro k hpk hkj g e hk
  rcases Nat.eq_or_lt_of_le hpk with rfl | hpk
  · cases hoff.out.symm.trans hk
    exact hoff.not_exit hrun h0 rfl
  · exact (hoff.between k hpk (by omega)).1 g e .exit hk

theorem no_switchIn (hoff : OffCpu l p q th reason h evt h' evt') (hrun : SchedRun s₀ l) (h0 : th.tid ≠ 0) :
    ∀ j, p < j → j < q → ∀ g e t, l[j]? = some (.switchIn g e t) → t.tid ≠ th.tid := by
  intro j hpj hjq g e t hj htid
  have hsame := (hrun.sane_at j).tids t (hrun.live_of_in hj (htid ▸ h0)) th (hoff.live hrun h0 hpj.le hjq.le) htid
  exact (hoff.between j hpj hjq).2 g e (hsame ▸ hj)

theorem openSince_eq (hoff : OffCpu l p q th reason h evt h' evt') (hrun : SchedRun s₀ l) (hT : T ≠ 0)
    (h0 : th.tid ≠ 0) {p' : Nat} {v : BlockStart} (hopen : stallSpans.OpenSince (targeted n T) l p' q th.tid v) :
    p' = p := by
  obtain ⟨hp'q, g, e, t, r, hout, -, -, htid, -, -, hno⟩ := hrun.openSince_cases hT hopen
  have ht0 : t.tid ≠ 0 := by
    rw [htid]
    exact h0
  rcases Nat.lt_trichotomy p' p with hlt | heq | hgt
  · -- The thread runs at `p`, so it was switched in since `p'`.
    rw [← htid] at hno
    have := hrun.not_running_after_out hlt hout ht0 (fun k h1 h2 => hno k h1 (by have := hoff.lt; omega)) th
      (hrun.running_of_out hoff.out h0)
    exact absurd htid.symm this
  · exact heq
  · have := hrun.not_running_after_out hgt hoff.out h0 (fun k h1 h2 => hoff.no_switchIn hrun h0 k h1 (by omega)) t
      (hrun.running_of_out hout ht0)
    exact absurd htid this

theorem not_written_of_yield (hoff : OffCpu l p q th .yield h evt h' evt') (hrun : SchedRun s₀ l) (hT : T ≠ 0)
    (h0 : th.tid ≠ 0) : writtenAt n T l q h' evt' = none := by
  refine Option.eq_none_iff_forall_ne_some.mpr ?_
  intro ev hev
  obtain ⟨-, p', v, hopen, -⟩ := (hrun.writtenAt_iff hT hoff.resume).mp hev
  obtain rfl := hoff.openSince_eq hrun hT h0 hopen
  obtain ⟨-, g, e, t, r, hout, -, hr, -⟩ := hrun.openSince_cases hT hopen
  cases hoff.out.symm.trans hout
  exact hr rfl

theorem written (hoff : OffCpu l p q th reason h evt h' evt') (hrun : SchedRun s₀ l) (hT : T ≠ 0)
    (htgid : th.tgid = T) (hr : reason ≠ .yield) (hslot : (schedMapsAt n T l p).blockStart.HasSlot th.tid)
    (hroom : h'.ringFull = false) : ∃ ev, writtenAt n T l q h' evt' = some ev ∧ ev.pid = T ∧ ev.tid = th.tid ∧
      ev.timestampNs = h'.ktimeGetNs ∧ ev.durationNs = Words.saturatingSub h'.ktimeGetNs h.ktimeGetNs := by
  have h0 : th.tid ≠ 0 := hrun.tid_ne_zero hoff.out (htgid ▸ hT)
  have hopen := hrun.openSince_of_out hT hoff.lt hoff.out htgid hr hslot (hoff.no_switchIn hrun h0)
  exact ⟨_, (hrun.writtenAt_iff hT hoff.resume).mpr ⟨hroom, p, _, hopen, rfl⟩, rfl, (hrun.allows.at hoff.resume).2, rfl,
    rfl⟩

end OffCpu

/-- In every run the scheduler allows: an interval off-CPU of a thread of the target that began with a yield is not
    written, any other one is, if there is room for it. With room for all of them, what is written is exactly the
    blocked time when no thread of the target is preempted, and only then. -/
theorem stalls_blocked_iff (n : Sizes) {T : UInt32} (hT : T ≠ 0) {s₀ : Sched} {acts : List SchedAct}
    (hrun : SchedRun s₀ (schedHalves acts)) :
    Maps.run n (schedSteps T acts) = schedMapsAt n T (schedHalves acts) (schedHalves acts).length ∧
    (∀ q h evt th, (schedHalves acts)[q]? = some (.switchIn h evt th) →
      (schedMapsAt n T (schedHalves acts) (q + 1)).events =
        (schedMapsAt n T (schedHalves acts) q).events ++ (writtenAt n T (schedHalves acts) q h evt).toList) ∧
    (∀ p q th reason h evt h' evt', OffCpu (schedHalves acts) p q th reason h evt h' evt' → th.tgid = T →
      (reason = .yield → writtenAt n T (schedHalves acts) q h' evt' = none) ∧
      (reason ≠ .yield → (schedMapsAt n T (schedHalves acts) p).blockStart.HasSlot th.tid → h'.ringFull = false →
        ∃ ev, writtenAt n T (schedHalves acts) q h' evt' = some ev ∧ ev.pid = T ∧ ev.tid = th.tid ∧
          ev.timestampNs = h'.ktimeGetNs ∧ ev.durationNs = Words.saturatingSub h'.ktimeGetNs h.ktimeGetNs)) ∧
    (StallRoom n T (schedHalves acts) →
      (OnlyBlocked n T (schedHalves acts) ↔ NotPreempted T (schedHalves acts))) := by
  refine ⟨run_schedSteps n T acts, fun q h evt th hin => events_switchIn hin,
    fun p q th reason h evt h' evt' hoff htgid => ⟨fun hr => ?_, fun hr hslot hroom => ?_⟩,
    fun hroom => ⟨fun honly p q th reason h evt h' evt' hoff htgid hr => ?_,
      fun hnot p q th reason h evt h' evt' hoff htgid => ?_⟩⟩
  · subst hr
    exact hoff.not_written_of_yield hrun hT (hrun.tid_ne_zero hoff.out (htgid ▸ hT))
  · exact hoff.written hrun hT htgid hr hslot hroom
  · subst hr
    obtain ⟨ev, hev, -⟩ := hoff.written hrun hT htgid (by decide) (hroom.slots p h evt th _ hoff.out htgid)
      (hroom.ring q h' evt' th hoff.resume)
    cases (honly p q th _ h evt h' evt' hoff htgid).mp ⟨ev, hev⟩
  · have h0 : th.tid ≠ 0 := hrun.tid_ne_zero hoff.out (htgid ▸ hT)
    refine ⟨?_, ?_⟩
    · intro hev
      obtain ⟨ev, hev⟩ := hev
      cases reason with
      | yield =>
        rw [hoff.not_written_of_yield hrun hT h0] at hev
        cases hev
      | preempt => exact absurd rfl (hnot p q th _ h evt h' evt' hoff htgid)
      | sleep => rfl
      | exit => exact absurd rfl (hoff.not_exit hrun h0)
    · intro hr
      subst hr
      obtain ⟨ev, hev, -⟩ := hoff.written hrun hT htgid (by decide) (hroom.slots p h evt th _ hoff.out htgid)
        (hroom.ring q h' evt' th hoff.resume)
      exact ⟨ev, hev⟩

theorem stalls_blocked_iff_napRun : SchedRun workerOnly (schedHalves napRun) ∧
    OnlyBlocked Sizes.source 7 (schedHalves napRun) := by
  have hrun : SchedRun workerOnly (schedHalves napRun) := ⟨sane_workerOnly, by decide⟩
  have hroom : StallRoom Sizes.source 7 (schedHalves napRun) := by
    refine ⟨?_, ?_⟩
    · intro p h evt th reason hout htgid
      match p, hout with
      | 0, hout => cases hout; decide
      | 2, hout => cases hout; cases htgid
      | 3, hout => cases hout
    · intro q h evt th hin
      match q, hin with
      | 1, hin => cases hin; rfl
      | 3, hin => cases hin; rfl
  refine ⟨hrun, ((stalls_blocked_iff Sizes.source (by decide) hrun).2.2.2 hroom).mpr ?_⟩
  intro p q th reason h evt h' evt' hoff _ hr
  subst hr
  have hmem := List.mem_of_getElem? hoff.out
  simp [schedHalves, napRun, SchedAct.halves] at hmem

def rival : Thread := ⟨2, 9, 5⟩

/-- `worker` is preempted at 10 and runs again at 30. -/
def preemptRun : List SchedAct :=
  [.switch (.inThread 10 7 8) ⟨noComm, 8, 0x100, 9⟩ worker .preempt rival,
    .switch (.inThread 30 5 9) ⟨noComm, 9, 0, 8⟩ rival .yield worker]

/-- In `preemptRun` the time in the run queue is written as a stall. -/
theorem preemptRun_not_only_blocked :
    SchedRun ⟨[worker, rival], [worker, rival], [worker]⟩ (schedHalves preemptRun) ∧
    StallRoom Sizes.source 7 (schedHalves preemptRun) ∧
    (Maps.run Sizes.source (schedSteps 7 preemptRun)).events = [⟨30, 20, 0, 7, 8, eventSchedBlock, noComm⟩] ∧
    ¬OnlyBlocked Sizes.source 7 (schedHalves preemptRun) := by
  refine ⟨⟨⟨by decide, by decide, by decide, by decide⟩, by decide⟩, ⟨fun p h evt th reason hout htgid => ?_,
    fun q h evt th hin => ?_⟩, by decide, fun honly => ?_⟩
  · match p, hout with
    | 0, hout => cases hout; decide
    | 2, hout => cases hout; cases htgid
    | 3, hout => cases hout
  · match q, hin with
    | 1, hin => cases hin; rfl
    | 3, hin => cases hin; rfl
  · have hoff : OffCpu (schedHalves preemptRun) 0 3 worker .preempt (.inThread 10 7 8) ⟨noComm, 8, 0x100, 9⟩
        (.inThread 30 5 9) ⟨noComm, 9, 0, 8⟩ := by
      refine ⟨by decide, rfl, rfl, ?_⟩
      intro j h1 h2
      match j, h1, h2 with
      | 1, _, _ => exact ⟨nofun, nofun⟩
      | 2, _, _ => exact ⟨nofun, nofun⟩
    cases (honly 0 3 worker .preempt _ _ _ _ hoff rfl).mp
      ⟨⟨30, 20, 0, 7, 8, eventSchedBlock, noComm⟩, by decide⟩

end Whyslow
