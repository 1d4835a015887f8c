import Whyslow.Theorems.SessionTrace
import Whyslow.Theorems.WallClock

/-! Whose events are in the file, and since when. The maps hold the times and the processes of starts (`Maps.Entries`),
    and a start is a step of the target. In a session that sets the target once, all of it is the target's; and in one
    that has let its child run only behind `capture_anchor`, none of it is older than the anchor. -/

namespace Whyslow
open Runs

/-! ### What the maps hold -/

/-- The starts in the maps are at times and in processes with `p`, and so are the starts and the ends of the events. -/
structure Maps.Entries (p : UInt64 → UInt32 → Prop) (m : Maps) : Prop where
  block : ∀ k v, m.blockStart.get k = some v → p v.ts v.tgid
  futex : ∀ k v, m.futexStart.get k = some v → p v.ts v.tgid
  blockIo : ∀ k v, m.blockIoStart.get k = some v → p v.ts v.tgid
  events : ∀ ev ∈ m.events, p ev.timestampNs ev.pid ∧
    ∃ ts, p ts ev.pid ∧ ev.durationNs = Words.saturatingSub ev.timestampNs ts

/-- The process that a start of the step would be in. -/
def Step.starter? : Step → Option UInt32
  | .setTargetTgid _ | .futexExit _ | .blockRqComplete _ _ => none
  | .schedSwitch h _ | .futexEnter h _ | .blockRqIssue h _ => some h.currentTgid

def Half.starter? : Half → Option UInt32
  | .switchOut h _ | .futexEnter h _ | .blockRqIssue h _ => some h.currentTgid
  | .setTargetTgid _ | .switchIn _ _ | .futexExit _ | .blockRqComplete _ _ => none

theorem starter?_of_mem_halves {st : Step} {a : Half} {g : UInt32} (ha : a ∈ st.halves) (hg : a.starter? = some g) :
    st.starter? = some g := by
  unfold Step.halves at ha
  split at ha <;> simp at ha
  case h_2 =>
    rcases ha with rfl | rfl
    · exact hg
    · cases hg
  all_goals
    subst ha
    exact hg

namespace Maps.Entries
variable {p q : UInt64 → UInt32 → Prop} {m : Maps} {a : Half} {st : Step}

theorem loaded (n : Sizes) : (Maps.loaded n).Entries p where
  block _ _ h := by cases h
  futex _ _ h := by cases h
  blockIo _ _ h := by cases h
  events _ h := by cases h

theorem imp (h : m.Entries p) (hpq : ∀ t g, p t g → q t g) : m.Entries q where
  block k v hv := hpq _ _ (h.block k v hv)
  futex k v hv := hpq _ _ (h.futex k v hv)
  blockIo k v hv := hpq _ _ (h.blockIo k v hv)
  events ev hev := by
    obtain ⟨hend, ts, hts, hdur⟩ := h.events ev hev
    exact ⟨hpq _ _ hend, ts, hpq _ _ hts, hdur⟩

theorem target (h : m.Entries p) (tgid : UInt32) : (m.step (.setTargetTgid tgid)).Entries p :=
  ⟨h.block, h.futex, h.blockIo, h.events⟩

/-- The event of a half is made from an entry. -/
theorem of_produces (h : m.Entries p) (hend : ∀ t ts g, a.ktime? = some t → p ts g → p t g) {ev : Event}
    (hev : a.produces m = some ev) :
    p ev.timestampNs ev.pid ∧ ∃ ts, p ts ev.pid ∧ ev.durationNs = Words.saturatingSub ev.timestampNs ts := by
  rcases produces_cases hev with ⟨_, _, _, rfl, -, hget, rfl⟩ | ⟨_, _, _, rfl, hget, -, rfl⟩ | ⟨_, _, _, rfl, hget, rfl⟩
  · exact ⟨hend _ _ _ rfl (h.block _ _ hget), _, h.block _ _ hget, rfl⟩
  · exact ⟨hend _ _ _ rfl (h.futex _ _ hget), _, h.futex _ _ hget, rfl⟩
  · exact ⟨hend _ _ _ rfl (h.blockIo _ _ hget), _, h.blockIo _ _ hget, rfl⟩

theorem half (h : m.Entries p) (ha : a ∈ st.halves)
    (hstart : ∀ t, m.targetTgid ≠ 0 → st.starter? = some m.targetTgid → st.ktime? = some t → p t m.targetTgid)
    (hend : ∀ t ts g, st.ktime? = some t → p ts g → p t g) : (m.half a).Entries p where
  block k v hv := by
    rcases SpanAct.get_apply_cases hv with hact | hv
    · obtain ⟨_, _, rfl, h0, -, hg, -, rfl⟩ := blockAct_start hact
      rw [hg]
      exact hstart _ h0 (starter?_of_mem_halves ha (congrArg some hg)) ((ktime?_of_mem_halves ha).symm.trans rfl)
    · exact h.block k v hv
  futex k v hv := by
    rcases SpanAct.get_apply_cases hv with hact | hv
    · obtain ⟨_, _, rfl, h0, hg, -, rfl⟩ := futexAct_start hact
      rw [hg]
      exact hstart _ h0 (starter?_of_mem_halves ha (congrArg some hg)) ((ktime?_of_mem_halves ha).symm.trans rfl)
    · exact h.futex k v hv
  blockIo k v hv := by
    rcases SpanAct.get_apply_cases hv with hact | hv
    · obtain ⟨_, _, rfl, h0, hg, -, rfl⟩ := blockIoAct_start hact
      rw [hg]
      exact hstart _ h0 (starter?_of_mem_halves ha (congrArg some hg)) ((ktime?_of_mem_halves ha).symm.trans rfl)
    · exact h.blockIo k v hv
  events ev hev := by
    rcases List.mem_append.mp hev with hev | hev
    · exact h.events ev hev
    · refine h.of_produces (fun t ts g ht => hend t ts g ?_) (writes_produces (Option.mem_toList.mp hev))
      rw [← ktime?_of_mem_halves ha]
      exact ht

/-- One rule for all that is said about the entries: it holds of the starts of the step, and the end of a span is at a
    time for which it holds too. -/
theorem step (h : m.Entries p) (hst : st.program?.isSome)
    (hstart : ∀ t, m.targetTgid ≠ 0 → st.starter? = some m.targetTgid → st.ktime? = some t → p t m.targetTgid)
    (hend : ∀ t ts g, st.ktime? = some t → p ts g → p t g) : (m.step st).Entries p := by
  have htarget : ∀ (l : List Half) (m' : Maps), (∀ a ∈ l, a ∈ st.halves) → m'.targetTgid = m.targetTgid → m'.Entries p →
      (l.foldl Maps.half m').Entries p := by
    intro l
    induction l with
    | nil => exact fun m' _ _ h' => h'
    | cons a l ih =>
      intro m' hl ht h'
      have ha := hl a List.mem_cons_self
      refine ih _ (fun b hb => hl b (List.mem_cons_of_mem _ hb)) ?_ (h'.half ha (ht ▸ hstart) hend)
      cases a with
      | setTargetTgid tgid =>
        have hmem : .setTargetTgid tgid ∈ halves [st] := by simpa [halves] using ha
        rw [← List.mem_singleton.mp (mem_halves_setTargetTgid hmem)] at hst
        cases hst
      | _ => exact ht
  rw [Maps.step_eq_halves]
  exact htarget _ m (fun _ ha => ha) rfl h

/-- Nothing is recorded. -/
theorem eq_nil (h : m.Entries fun _ _ => False) : m.events = [] :=
  List.eq_nil_iff_forall_not_mem.mpr fun ev hev => (h.events ev hev).1

end Maps.Entries

/-! ### The process -/

section Steps
variable {cli : Cli} {s : Session} {a : SessionAct}

/-- What a session has recorded is its target's, and it has a target. -/
structure Session.Owned (s : Session) : Prop where
  setUp : s.SetUp
  target : s.maps.targetTgid = 0 ∨ s.maps.targetTgid = s.pid
  silent : s.maps.targetTgid = 0 → s.maps.Entries fun _ _ => False
  entries : s.maps.Entries fun _ g => g = s.pid ∧ g ≠ 0

theorem Session.Owned.start (cli : Cli) (n : Sizes) (target : Target) : (cli.start n target).Owned where
  setUp := ⟨rfl, rfl⟩
  target := Or.inl rfl
  silent _ := Maps.Entries.loaded n
  entries := Maps.Entries.loaded n

theorem Session.view_cases {st : Step} (h : s.view a = some st) :
    (a = .setTargetTgid .ok ∧ st = .setTargetTgid s.pid) ∨ a = .tracepoint st := by
  cases a with
  | setTargetTgid result =>
    cases result with
    | ok => exact Or.inl ⟨rfl, (Option.some.inj h).symm⟩
    | missing | failed => cases h
  | tracepoint st' =>
    simp only [Session.view] at h
    split at h
    · rw [Option.some.inj h]
      exact Or.inr rfl
    · cases h
  | _ => cases h

theorem Session.Owned.step (h : s.Owned) (ha : s.Allows cli a) : (s.step cli a).Owned := by
  have hsetUp := h.setUp.step ha
  have hmaps := Session.maps_step ha
  cases hview : s.view a with
  | none =>
    rw [hview] at hmaps
    by_cases hspawn : ∃ pid, a = .spawn (.ok pid)
    · obtain ⟨pid, rfl⟩ := hspawn
      have hzero : s.maps.targetTgid = 0 := by
        have hpc := h.setUp
        unfold Session.SetUp at hpc
        rw [show s.pc = .spawnStopped from ha.1] at hpc
        exact hpc.2
      exact ⟨hsetUp, Or.inl hzero, h.silent, (h.silent hzero).imp fun _ _ => False.elim⟩
    · have hpid : (s.step cli a).pid = s.pid := Session.pid_step (not_exists.mp hspawn)
      refine ⟨hsetUp, ?_, ?_, ?_⟩ <;> rw [hmaps]
      · rw [hpid]
        exact h.target
      · exact h.silent
      · rw [hpid]
        exact h.entries
  | some st =>
    rw [hview] at hmaps
    have hpid : (s.step cli a).pid = s.pid := by
      refine Session.pid_step ?_
      rintro pid rfl
      cases hview
    rcases Session.view_cases hview with ⟨rfl, rfl⟩ | rfl
    · have hzero : s.maps.targetTgid = 0 := by
        have hpc := h.setUp
        unfold Session.SetUp at hpc
        rw [show s.pc = .setTargetTgid from ha] at hpc
        exact hpc.2
      have hnone := (h.silent hzero).target s.pid
      refine ⟨hsetUp, Or.inr ?_, fun _ => ?_, ?_⟩ <;> rw [hmaps]
      · exact hpid.symm
      · exact hnone
      · exact hnone.imp fun _ _ => False.elim
    · have htarget := Maps.target_step (m := s.maps) ha.1
      refine ⟨hsetUp, ?_, fun hzero => ?_, ?_⟩ <;> rw [hmaps] at *
      · rw [hpid]
        exact h.target.imp htarget.trans htarget.trans
      · have hzero := htarget.symm.trans hzero
        exact (h.silent hzero).step ha.1 (fun _ h0 => absurd hzero h0) (fun _ _ _ _ => id)
      · rw [hpid]
        refine h.entries.step ha.1 ?_ (fun _ _ _ _ => id)
        intro t h0 _ _
        exact ⟨h.target.resolve_left h0, h0⟩

/-- `attach` keeps to the process it is given. -/
def Session.Given (pid : UInt32) (s : Session) : Prop := s.pid = pid ∧ s.pc ≠ .spawnStopped

theorem Session.Given.step {pid : UInt32} {secs : Option UInt64} (hcmd : cli.command = .attach pid secs)
    (h : s.Given pid) (ha : s.Allows cli a) : (s.step cli a).Given pid := by
  refine ⟨(Session.pid_step ?_).trans h.1, ?_⟩
  · rintro pid' rfl
    exact h.2 ha.1
  · rcases Session.pc_cases ha with hpc | ⟨-, err, hpc⟩ | hcall
    · rw [hpc]
      exact h.2
    · rw [hpc]
      simp
    · generalize s.pc = pc, (s.step cli a).pc = pc' at hcall ⊢
      cases hcall <;> simp [hcmd]

end Steps

theorem spawned_at {cli : Cli} {n : Sizes} {target : Target} {l : List SessionAct} {command : List String}
    (hcmd : cli.command = .run command) {i : Nat} (hpid : (sessionAt cli n target l i).pid ≠ 0) :
    .spawn (.ok (sessionAt cli n target l i).pid) ∈ l := by
  have hstart : ¬(cli.start n target).pid = (sessionAt cli n target l i).pid := by
    intro h
    simp only [Cli.start, hcmd] at h
    exact hpid h.symm
  obtain ⟨j, -, a, ha, hnot, hnow⟩ := exists_step_of_stateAt
    (P := fun s : Session => s.pid = (sessionAt cli n target l i).pid) hstart (n := i) rfl
  by_cases hspawn : ∃ pid, a = .spawn (.ok pid)
  · obtain ⟨pid, rfl⟩ := hspawn
    have hpid : pid = (sessionAt cli n target l i).pid := hnow
    rw [← hpid]
    exact List.mem_of_getElem? ha
  · exact absurd ((Session.pid_step (not_exists.mp hspawn)).symm.trans hnow) hnot

section Run
variable {cli : Cli} {n : Sizes} {target : Target} {l : List SessionAct}
  (hrun : Allowed (Session.step cli) (Session.Allows cli) (cli.start n target) l)
include hrun

theorem sessionOwned_at (i : Nat) : (sessionAt cli n target l i).Owned :=
  hrun.induction (Session.Owned.start cli n target) (fun _ _ hs ha => hs.step ha) i

theorem given_at {pid : UInt32} {secs : Option UInt64} (hcmd : cli.command = .attach pid secs) (i : Nat) :
    (sessionAt cli n target l i).pid = pid := by
  have hstart : (cli.start n target).Given pid := by simp [Session.Given, Cli.start, hcmd]
  exact (hrun.induction hstart (fun _ _ hs ha => hs.step hcmd ha) i).1

/-- Each event of the file is one that the maps wrote. -/
theorem exists_event_of_file {trace : TraceFile} (hfile : (sessionAt cli n target l l.length).file = some trace)
    {e : TraceEvent} (he : e ∈ trace.events) :
    ∃ ev ∈ (sessionAt cli n target l l.length).maps.events, e = TraceEvent.ofEvent ev := by
  obtain ⟨k, hk, -⟩ := exists_take_of_file hrun hfile
  rw [hk] at he
  obtain ⟨ev, hev, rfl⟩ := List.mem_map.mp he
  exact ⟨ev, List.mem_of_mem_take hev, rfl⟩

/-- All that a session writes to its file is of one process, which is not zero: the one that `attach` is given, or the
    one that `run` has spawned. -/
theorem session_file_of_target {trace : TraceFile} (hfile : (sessionAt cli n target l l.length).file = some trace) :
    match cli.command with
    | .attach pid _ => ∀ e ∈ trace.events, e.pid = pid ∧ pid ≠ 0
    | .run _ => ∃ pid ≠ 0, .spawn (.ok pid) ∈ l ∧ ∀ e ∈ trace.events, e.pid = pid := by
  have hall : ∀ e ∈ trace.events, e.pid = (sessionAt cli n target l l.length).pid ∧ e.pid ≠ 0 := by
    intro e he
    obtain ⟨ev, hev, rfl⟩ := exists_event_of_file hrun hfile he
    exact ((sessionOwned_at hrun l.length).entries.events ev hev).1
  cases hcmd : cli.command with
  | attach pid secs =>
    intro e he
    have hpid := given_at hrun hcmd l.length
    exact ⟨(hall e he).1.trans hpid, fun h0 => (hall e he).2 ((hall e he).1.trans (hpid.trans h0))⟩
  | run command =>
    have hheld := held_at hcmd hrun l.length
    unfold Session.Held at hheld
    rw [done_of_file hrun hfile] at hheld
    exact ⟨_, hheld.1, spawned_at hcmd hheld.1, fun e he => (hall e he).1⟩

end Run

theorem session_file_of_target_tracedRun :
    ∃ pid ≠ 0, .spawn (.ok pid) ∈ tracedRun ∧ ∀ e ∈ tracedFile.events, e.pid = pid :=
  session_file_of_target tracedRun_allowed tracedAt_file

/-! ### Before the first instruction -/

/-- The setup of `run` is not over, and has not failed. -/
def SessionPc.isSetup : SessionPc → Bool
  | .openRing | .drain | .writeTo | .done | .failed _ => false
  | _ => true

section Fresh
variable {cli : Cli} {s : Session} {a : SessionAct}

/-- The setup does not start again. -/
theorem Session.isSetup_of_step (ha : s.Allows cli a) (hsetup : (s.step cli a).pc.isSetup) : s.pc.isSetup := by
  rcases Session.pc_cases ha with hpc | ⟨-, err, hpc⟩ | hcall
  · rwa [hpc] at hsetup
  · rw [hpc] at hsetup
    cases hsetup
  · generalize s.pc = pc, (s.step cli a).pc = pc' at hcall hsetup ⊢
    cases hcall <;> first | rfl | cases hsetup

/-- A child that is killed in the setup stays a zombie. -/
theorem Session.zombie_step {command : List String} (hcmd : cli.command = .run command) (hheld : s.Held)
    (ha : s.Allows cli a) (hsetup : (s.step cli a).pc.isSetup) (hzombie : s.target = .zombie) : (s.step cli a).target = .zombie := by
  have hsetup' := Session.isSetup_of_step ha hsetup
  cases a with
  | spawn result =>
    unfold Session.Held at hheld
    rw [show s.pc = .spawnStopped from ha.1] at hheld
    cases hzombie.symm.trans hheld
  | waitpid status =>
    cases status with
    | ended => cases hsetup
    | stopped | failed | other => exact (Session.target_step rfl).trans hzombie
  | detach result =>
    cases result with
    | ok => cases hzombie.symm.trans ha.2
    | error err => cases hsetup
  | shouldStop stop =>
    rw [show s.pc = .drain from ha.1] at hsetup'
    cases hsetup'
  | trap => cases hzombie.symm.trans ha
  | exit => exact rfl
  | reaped => simp [Session.Allows, hcmd, Command.isAttach] at ha
  | released => cases hzombie.symm.trans ha.1
  | _ => exact (Session.target_step rfl).trans hzombie

/-- The programs have nothing to record of a child that is stopped. -/
theorem Session.not_starter (hheld : s.Held) (howned : s.Owned) (hsetup : s.pc.isSetup) (hzombie : s.target ≠ .zombie)
    {st : Step} (hst : s.Possible st) (h0 : s.maps.targetTgid ≠ 0) : st.starter? ≠ some s.maps.targetTgid := by
  have hpid := howned.target.resolve_left h0
  have hstopped : s.target = .stopped := by
    have hup := howned.setUp
    unfold Session.SetUp at hup
    unfold Session.Held at hheld
    cases hpc : s.pc <;> simp only [hpc, SessionPc.isSetup] at hup hheld hsetup <;> simp_all
  obtain ⟨hcaller, hissuer, hleaver⟩ := hst (hpid ▸ h0)
  rw [hpid]
  intro hstarter
  cases st with
  | schedSwitch h ctx => exact hleaver hstarter hstopped
  | futexEnter h ctx => cases hstopped.symm.trans (hcaller hstarter)
  | blockRqIssue h ctx =>
    rcases hissuer hstarter with h | h
    · cases hstopped.symm.trans h
    · cases hstopped.symm.trans h
  | setTargetTgid | futexExit | blockRqComplete => cases hstarter

/-- Until the child is let run there is nothing in the maps, unless it was killed. -/
def Session.Fresh (s : Session) : Prop :=
  s.pc.isSetup → s.target = .zombie ∨ s.maps.Entries fun _ _ => False

theorem Session.Fresh.step {command : List String} (hcmd : cli.command = .run command) (h : s.Fresh)
    (hheld : s.Held) (howned : s.Owned) (ha : s.Allows cli a) : (s.step cli a).Fresh := by
  intro hsetup'
  have hsetup := Session.isSetup_of_step ha hsetup'
  rcases h hsetup with hzombie | hnone
  · exact Or.inl (Session.zombie_step hcmd hheld ha hsetup' hzombie)
  · by_cases hzombie : s.target = .zombie
    · exact Or.inl (Session.zombie_step hcmd hheld ha hsetup' hzombie)
    · refine Or.inr ?_
      rw [Session.maps_step ha]
      cases hview : s.view a with
      | none => exact hnone
      | some st =>
        rcases Session.view_cases hview with ⟨rfl, rfl⟩ | rfl
        · exact hnone.target s.pid
        · refine hnone.step ha.1 (fun _ h0 hst _ => ?_) (fun _ _ _ _ => id)
          exact Session.not_starter hheld howned hsetup hzombie ha.2 h0 hst

end Fresh

/-! ### Since when -/

/-- The clock of the anchors is that of the programs. -/
def SessionAct.time? : SessionAct → Option UInt64
  | .captureAnchor _ monotonic => some monotonic
  | .tracepoint st => st.ktime?
  | _ => none

def SessionClock (l : List SessionAct) : Prop := (l.filterMap SessionAct.time?).Pairwise (· ≤ ·)

instance (l : List SessionAct) : Decidable (SessionClock l) := inferInstanceAs (Decidable (List.Pairwise _ _))

theorem SessionClock.le {l : List SessionAct} (h : SessionClock l) {i j : Nat} (hij : i < j) {a b : SessionAct}
    (ha : l[i]? = some a) (hb : l[j]? = some b) {t t' : UInt64} (ht : a.time? = some t) (ht' : b.time? = some t') :
    t ≤ t' := by
  have hpair := List.pairwise_iff_getElem.mp (List.pairwise_filterMap.mp h)
  obtain ⟨hi, rfl⟩ := List.getElem?_eq_some_iff.mp ha
  obtain ⟨hj, rfl⟩ := List.getElem?_eq_some_iff.mp hb
  exact hpair i j hi hj hij t ht t' ht'

/-- The anchor is captured. -/
def SessionPc.isAnchored : SessionPc → Bool
  | .resume | .installHandler | .setDeadline | .openRing | .drain | .writeTo | .done => true
  | _ => false

theorem Session.isAnchored_of_step {cli : Cli} {s : Session} {a : SessionAct} (ha : s.Allows cli a)
    (hne : ∀ r m, a ≠ .captureAnchor r m) (hanchored : (s.step cli a).pc.isAnchored) : s.pc.isAnchored := by
  rcases Session.pc_cases ha with hpc | ⟨-, err, hpc⟩ | hcall
  · rwa [hpc] at hanchored
  · rw [hpc] at hanchored
    cases hanchored
  · generalize s.pc = pc, (s.step cli a).pc = pc' at hcall hanchored ⊢
    cases hcall with
    | captureAnchor r m => exact absurd rfl (hne r m)
    | requireRoot => cases hcmd : cli.command <;> rw [hcmd] at hanchored <;> cases hanchored
    | resume | installHandler | setDeadline | openRing | drain | writeTo => rfl
    | _ => cases hanchored

/-- A child that was killed is not resumed. -/
theorem Session.resume_of_zombie {cli : Cli} {command : List String} (hcmd : cli.command = .run command) {s : Session}
    {a : SessionAct} (ha : s.Allows cli a) (hpc : s.pc = .resume) (hzombie : s.target = .zombie)
    (hanchored : (s.step cli a).pc.isAnchored) : (s.step cli a).pc = .resume ∧ (s.step cli a).target = .zombie := by
  cases a with
  | detach result =>
    cases result with
    | ok => cases hzombie.symm.trans ha.2
    | error err => cases hanchored
  | trap => cases hzombie.symm.trans ha
  | exit => exact ⟨hpc, rfl⟩
  | reaped => simp [Session.Allows, hcmd, Command.isAttach] at ha
  | released => cases hzombie.symm.trans ha.1
  | tracepoint st =>
    simp only [Session.step, Session.fire]
    split <;> exact ⟨hpc, hzombie⟩
  | commit i padding =>
    simp only [Session.step]
    split <;> exact ⟨hpc, hzombie⟩
  | sigint | deadline => exact ⟨hpc, hzombie⟩
  | _ => simp [Session.Allows, hpc, SessionPc.isAttach] at ha

section Child
variable {cli : Cli} {command : List String} {n : Sizes} {target : Target} {l : List SessionAct}
  (hcmd : cli.command = .run command)
  (hrun : Allowed (Session.step cli) (Session.Allows cli) (cli.start n target) l)
include hcmd hrun

theorem fresh_at (i : Nat) : (sessionAt cli n target l i).Fresh := by
  refine stateAt_stays (P := Session.Fresh) (Nat.zero_le i) (fun _ => Or.inr (Maps.Entries.loaded n)) ?_
  intro k _ _ a ha hk
  exact hk.step hcmd (held_at hcmd hrun k) (sessionOwned_at hrun k) (hrun.at ha)

/-- What is recorded behind the anchor is not older than it. -/
theorem since_at (hclock : SessionClock l) (i : Nat) (hanchored : (sessionAt cli n target l i).pc.isAnchored) :
    (∃ c < i, l[c]? = some (.captureAnchor (sessionAt cli n target l i).anchors.1
      (sessionAt cli n target l i).anchors.2)) ∧
    (((sessionAt cli n target l i).pc = .resume ∧ (sessionAt cli n target l i).target = .zombie) ∨
      (sessionAt cli n target l i).maps.Entries fun t _ => (sessionAt cli n target l i).anchors.2 ≤ t) := by
  induction i with
  | zero => cases hanchored
  | succ i ih =>
    cases ha : l[i]? with
    | none =>
      have hsame : sessionAt cli n target l (i + 1) = sessionAt cli n target l i := stateAt_succ_of_none ha
      rw [hsame] at hanchored ⊢
      obtain ⟨⟨c, hc, hanchor⟩, hrest⟩ := ih hanchored
      exact ⟨⟨c, by omega, hanchor⟩, hrest⟩
    | some a =>
      have hstep : sessionAt cli n target l (i + 1) = (sessionAt cli n target l i).step cli a := stateAt_succ ha
      have hallows : (sessionAt cli n target l i).Allows cli a := hrun.at ha
      rw [hstep] at hanchored ⊢
      by_cases hcapture : ∃ r m, a = .captureAnchor r m
      · obtain ⟨r, m, rfl⟩ := hcapture
        refine ⟨⟨i, Nat.lt_succ_self i, ha⟩, ?_⟩
        have hpc : (sessionAt cli n target l i).pc = .captureAnchor := hallows
        rcases fresh_at hcmd hrun i (by rw [hpc]; rfl) with hzombie | hnone
        · refine Or.inl ⟨?_, hzombie⟩
          simp only [Session.step, hcmd]
        · exact Or.inr (hnone.imp fun _ _ => False.elim)
      · have hne : ∀ r m, a ≠ .captureAnchor r m := fun r m h => hcapture ⟨r, m, h⟩
        rw [Session.anchors_step hne]
        obtain ⟨⟨c, hc, hanchor⟩, hrest⟩ := ih (Session.isAnchored_of_step hallows hne hanchored)
        refine ⟨⟨c, by omega, hanchor⟩, ?_⟩
        rcases hrest with ⟨hpc, hzombie⟩ | hentries
        · exact Or.inl (Session.resume_of_zombie hcmd hallows hpc hzombie hanchored)
        · refine Or.inr ?_
          rw [Session.maps_step hallows]
          cases hview : (sessionAt cli n target l i).view a with
          | none => exact hentries
          | some st =>
            rcases Session.view_cases hview with ⟨rfl, rfl⟩ | rfl
            · exact hentries.target _
            · have htime : ∀ t, st.ktime? = some t → (sessionAt cli n target l i).anchors.2 ≤ t := fun t ht =>
                hclock.le hc hanchor ha rfl ht
              exact hentries.step hallows.1 (fun t _ _ ht => htime t ht) (fun t _ _ ht _ => htime t ht)

/-- `whyslow run` sees its child from its first instruction on, and nothing before. Wherever the command is, and as long
    as it has not failed: when the program of the child runs, the five programs are attached and know its process, so
    that each of its steps is one of the maps; and until it is let run the maps and the ring buffer are empty, unless it
    was killed. -/
theorem run_traces_child (i : Nat) (hok : ∀ err, (sessionAt cli n target l i).pc ≠ .failed err) :
    ((sessionAt cli n target l i).target = .running → (sessionAt cli n target l i).pid ≠ 0 ∧
      (sessionAt cli n target l i).maps.targetTgid = (sessionAt cli n target l i).pid ∧
      ∀ st, st.program?.isSome → (sessionAt cli n target l i).view (.tracepoint st) = some st) ∧
    ((sessionAt cli n target l i).pc.isSetup → (sessionAt cli n target l i).target ≠ .zombie →
      (∀ k, (sessionAt cli n target l i).maps.blockStart.get k = none) ∧
      (∀ k, (sessionAt cli n target l i).maps.futexStart.get k = none) ∧
      (∀ k, (sessionAt cli n target l i).maps.blockIoStart.get k = none) ∧
      (sessionAt cli n target l i).maps.events = []) := by
  refine ⟨?_, ?_⟩
  · intro hrunning
    have hheld := held_at hcmd hrun i
    have hup := (sessionOwned_at hrun i).setUp
    unfold Session.Held at hheld
    unfold Session.SetUp at hup
    have hall : ∀ prog : Program, prog ∈ allPrograms := by
      intro prog
      cases prog <;> simp [allPrograms, tracepoints]
    have hdone : (sessionAt cli n target l i).pid ≠ 0 ∧ (sessionAt cli n target l i).attached = allPrograms ∧
        (sessionAt cli n target l i).maps.targetTgid = (sessionAt cli n target l i).pid := by
      cases hpc : (sessionAt cli n target l i).pc <;> simp only [hpc] at hheld hup <;> simp_all
    refine ⟨hdone.1, hdone.2.2, ?_⟩
    intro st hst
    obtain ⟨prog, hprog⟩ := Option.isSome_iff_exists.mp hst
    simp only [Session.view, hdone.2.1]
    exact if_pos ⟨prog, hall prog, hprog⟩
  · intro hsetup hzombie
    have hnone := ((fresh_at hcmd hrun i) hsetup).resolve_left hzombie
    refine ⟨fun k => ?_, fun k => ?_, fun k => ?_, hnone.eq_nil⟩
    · exact Option.eq_none_iff_forall_ne_some.mpr fun v hv => hnone.block k v hv
    · exact Option.eq_none_iff_forall_ne_some.mpr fun v hv => hnone.futex k v hv
    · exact Option.eq_none_iff_forall_ne_some.mpr fun v hv => hnone.blockIo k v hv

/-- In the file of `whyslow run` no event starts before the anchor, the pair of clocks that was read before the child
    was let run: on the wall clock each of them is at or behind the time of the anchor, where `wall_ns_for` has nothing
    to cut off at zero. What it gives is that time, up to the end of 64 bits. -/
theorem run_events_after_anchor (hclock : SessionClock l) {trace : TraceFile}
    (hfile : (sessionAt cli n target l l.length).file = some trace) :
    .captureAnchor trace.realtimeAnchorNs trace.monotonicAnchorNs ∈ l ∧
    ∀ e ∈ trace.events, trace.monotonicAnchorNs.toNat ≤ e.starts ∧
      (trace.realtimeAnchorNs.toNat : Int) ≤ trace.wallAt e.starts ∧
      (trace.InRange e.starts →
        ((trace.wallNsFor (Words.saturatingSub e.timestampNs e.durationNs)).toNat : Int) = trace.wallAt e.starts ∧
        trace.realtimeAnchorNs ≤ trace.wallNsFor (Words.saturatingSub e.timestampNs e.durationNs)) := by
  have hdone := done_of_file hrun hfile
  obtain ⟨⟨c, -, hanchor⟩, hrest⟩ := since_at hcmd hrun hclock l.length (by rw [hdone]; rfl)
  have htrace := (returned_of_file hrun hfile).2
  have hanchors : trace.realtimeAnchorNs = (sessionAt cli n target l l.length).anchors.1 ∧
      trace.monotonicAnchorNs = (sessionAt cli n target l l.length).anchors.2 := by
    rw [htrace]
    exact ⟨rfl, rfl⟩
  rw [← hanchors.1, ← hanchors.2] at hanchor
  refine ⟨List.mem_of_getElem? hanchor, ?_⟩
  rcases hrest with ⟨hresume, -⟩ | hentries
  · cases hdone.symm.trans hresume
  · intro e he
    obtain ⟨ev, hev, rfl⟩ := exists_event_of_file hrun hfile he
    obtain ⟨hend, ts, hts, hdur⟩ := hentries.events ev hev
    rw [← hanchors.2, UInt64.le_iff_toNat_le] at hend hts
    have hstarts : trace.monotonicAnchorNs.toNat ≤ (TraceEvent.ofEvent ev).starts := by
      show _ ≤ ev.timestampNs.toNat - ev.durationNs.toNat
      rw [hdur, Words.saturatingSub_toNat]
      omega
    have hwall : (trace.realtimeAnchorNs.toNat : Int) ≤ trace.wallAt (TraceEvent.ofEvent ev).starts := by
      unfold TraceFile.wallAt
      omega
    refine ⟨hstarts, hwall, ?_⟩
    rw [TraceEvent.starts, ← Words.saturatingSub_toNat] at hstarts hwall ⊢
    intro hin
    have heq := wallNsFor_eq_wallAt hstarts hin
    refine ⟨heq, ?_⟩
    rw [UInt64.le_iff_toNat_le]
    omega

end Child

theorem run_traces_child_tracedRun : (tracedAt 15).target = .running ∧ (tracedAt 15).maps.targetTgid = 7 ∧
    (tracedAt 15).view (.tracepoint (.futexEnter (.inThread 110 7 7) (futexArgs 0x1000 128))) =
      some (.futexEnter (.inThread 110 7 7) (futexArgs 0x1000 128)) ∧
    (tracedAt 12).pc.isSetup ∧ (tracedAt 12).maps.events = [] := by
  have hfree : ∀ i, (tracedAt i).pc.isSetup ∨ (tracedAt i).pc = .drain → ∀ err, (tracedAt i).pc ≠ .failed err := by
    intro i hi err hpc
    simp [hpc, SessionPc.isSetup] at hi
  have hrunning : (tracedAt 15).target = .running := by decide +kernel
  have hsetup : (tracedAt 12).pc.isSetup := by decide +kernel
  obtain ⟨-, htarget, hview⟩ := (run_traces_child rfl tracedRun_allowed 15 (hfree 15 (by decide +kernel))).1 hrunning
  have hnone := (run_traces_child rfl tracedRun_allowed 12 (hfree 12 (by decide +kernel))).2 hsetup (by decide +kernel)
  exact ⟨hrunning, htarget.trans (by decide +kernel), hview _ rfl, hsetup, hnone.2.2.2⟩

theorem run_events_after_anchor_tracedRun : SessionClock tracedRun ∧ tracedFile.monotonicAnchorNs = 100 ∧
    tracedFile.events ≠ [] ∧ ∀ e ∈ tracedFile.events, tracedFile.monotonicAnchorNs.toNat ≤ e.starts ∧
      tracedFile.realtimeAnchorNs ≤ tracedFile.wallNsFor (Words.saturatingSub e.timestampNs e.durationNs) := by
  have hclock : SessionClock tracedRun := by decide +kernel
  have hin : ∀ e ∈ tracedFile.events, tracedFile.InRange e.starts := by
    unfold TraceFile.InRange
    decide +kernel
  refine ⟨hclock, rfl, by decide, ?_⟩
  intro e he
  obtain ⟨hstarts, -, hwall⟩ := (run_events_after_anchor rfl tracedRun_allowed hclock tracedAt_file).2 e he
  exact ⟨hstarts, (hwall (hin e he)).2⟩

end Whyslow
