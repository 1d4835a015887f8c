import Whyslow.Theorems.SessionTarget
import Whyslow.Theorems.BlockKeys

/-! What is said about recorded runs of the programs holds of the files that sessions write: such a file is the record of
    a run, the first steps of the session's own (`exists_run_of_file`). So each line of a report on it is about a span of
    the traced process that began and ended in the session. -/

namespace Whyslow
open Runs

/-! ### The run of a file -/

/-- Once the process is there its id stays. -/
def SessionPc.isStarted : SessionPc → Bool
  | .requireRoot | .spawnStopped => false
  | _ => true

theorem Session.started_step {cli : Cli} {s : Session} {a : SessionAct} (ha : s.Allows cli a) (h : s.pc.isStarted) :
    (s.step cli a).pc.isStarted ∧ (s.step cli a).pid = s.pid := by
  refine ⟨?_, Session.pid_step ?_⟩
  · rcases Session.pc_cases ha with hpc | ⟨-, err, hpc⟩ | hcall
    · rwa [hpc]
    · rw [hpc]
      rfl
    · generalize s.pc = pc, (s.step cli a).pc = pc' at hcall h ⊢
      cases hcall with
      | requireRoot => cases h
      | captureAnchor r m => cases cli.command <;> rfl
      | _ => rfl
  · rintro pid rfl
    rw [show s.pc = .spawnStopped from ha.1] at h
    cases h

/-- The programs read the clock of the session. -/
theorem probes_times (cli : Cli) (s : Session) (l : List SessionAct) :
    ((cli.probes s l).filterMap Step.ktime?).Sublist (l.filterMap SessionAct.time?) := by
  induction l generalizing s with
  | nil => exact List.Sublist.refl _
  | cons a l ih =>
    have hrest := ih (s.step cli a)
    show (((s.view a).toList ++ cli.probes (s.step cli a) l).filterMap Step.ktime?).Sublist _
    rw [List.filterMap_append, ← List.singleton_append, List.filterMap_append]
    refine List.Sublist.append ?_ hrest
    cases hview : s.view a with
    | none => exact List.nil_sublist _
    | some st =>
      rcases Session.view_cases hview with ⟨rfl, rfl⟩ | rfl
      · exact List.nil_sublist _
      · exact List.Sublist.refl _

theorem StallPath.eventType {events : List TraceEvent} {b : TraceEvent} {path : List TraceEvent}
    (h : StallPath events b path) : ∀ x ∈ path,
      x.eventType = eventFutexWake ∨ x.eventType = eventFutexWait ∨ x.eventType = eventBlockIo := by
  intro x hx
  rcases stallPath_iff.mp h with ⟨rfl, -⟩ | ⟨e, path, rfl, he, hmax⟩
  · cases hx
  · rcases List.mem_cons.mp hx with rfl | hx
    · exact Or.inr he.eventType
    · exact hmax.eventType x hx

section Run
variable {cli : Cli} {n : Sizes} {target : Target} {l : List SessionAct}
  (hrun : Allowed (Session.step cli) (Session.Allows cli) (cli.start n target) l)
include hrun

theorem pid_of_setTargetTgid {tgid : UInt32} (h : .setTargetTgid tgid ∈ cli.probes (cli.start n target) l) :
    tgid = (sessionAt cli n target l l.length).pid := by
  obtain ⟨i, a, ha, hview⟩ := mem_project h
  rcases Session.view_cases hview with ⟨rfl, htgid⟩ | rfl
  · have hpc : (sessionAt cli n target l i).pc = .setTargetTgid := hrun.at ha
    have hstays : (sessionAt cli n target l l.length).pc.isStarted ∧
        (sessionAt cli n target l l.length).pid = (sessionAt cli n target l i).pid := by
      refine stateAt_stays (P := fun s : Session => s.pc.isStarted ∧ s.pid = (sessionAt cli n target l i).pid)
        (List.getElem?_eq_some_iff.mp ha).1.le ⟨?_, rfl⟩ ?_
      · show (sessionAt cli n target l i).pc.isStarted
        rw [hpc]
        rfl
      · intro k _ _ b hb hk
        obtain ⟨hstarted, hpid⟩ := Session.started_step (hrun.at hb) hk.1
        exact ⟨hstarted, hpid.trans hk.2⟩
    cases htgid
    exact hstays.2.symm
  · cases (hrun.at ha).1

theorem exists_run_of_file {trace : TraceFile} (hfile : (sessionAt cli n target l l.length).file = some trace) :
    ∃ p, p <+: cli.probes (cli.start n target) l ∧ trace.events = (Maps.run n p).events.map TraceEvent.ofEvent ∧
      Recorded n p trace.events ∧
      ((sessionAt cli n target l l.length).pid ≠ 0 → SetsOnly (sessionAt cli n target l l.length).pid p) ∧
      (SessionClock l → ClockNonDecreasing p) ∧
      ((l.filterMap SessionAct.time?).Pairwise (· < ·) → ClockIncreasing p) := by
  obtain ⟨k, hk, -⟩ := exists_take_of_file hrun hfile
  obtain ⟨p, hp, hevents⟩ := exists_prefix_log Maps.events Maps.events_step
    (show (Maps.loaded n).events = [] from rfl) (cli.probes (cli.start n target) l) k
  have htrace : trace.events = (Maps.run n p).events.map TraceEvent.ofEvent := by
    rw [hk, sessionAt_maps hrun l.length, List.take_length]
    exact congrArg _ hevents.symm
  have htimes := (hp.sublist.filterMap Step.ktime?).trans (probes_times cli (cli.start n target) l)
  refine ⟨p, hp, htrace, List.Perm.of_eq htrace, ?_, fun h => h.sublist htimes, fun h => h.sublist htimes⟩
  intro hpid
  exact ⟨hpid, fun tgid htgid => pid_of_setTargetTgid hrun (hp.subset htgid)⟩

/-- A report says nothing that is not in the record. The file of a session is the record of the first steps of its own
    run; in a report on it the headline of each chain is about a time that a thread of the traced process was off the
    CPU, and each line below it about a futex call that a thread of the process made or a request that it issued, with a
    start and an end among these steps. -/
theorem session_report (hclock : SessionClock l) {trace : TraceFile}
    (hfile : (sessionAt cli n target l l.length).file = some trace) :
    ∃ p, p <+: cli.probes (cli.start n target) l ∧ trace.events = (Maps.run n p).events.map TraceEvent.ofEvent ∧
      ∀ host slowest, ∀ chain ∈ explain host trace slowest, ∃ b path, StallPath trace.events b path ∧
        chain.lines = chainLines host .new trace b path ∧
        (∃ j i, Stall n p b j i ∧
          ((halves p)[j]?).bind Half.context? = some (b.tid, (sessionAt cli n target l l.length).pid)) ∧
        ∀ e ∈ path, ∃ j, ((halves p)[j]?).bind Half.context? =
            some (e.tid, (sessionAt cli n target l l.length).pid) ∧
          ((∃ i, Call n p e j i) ∨ ∃ evt i, Served n p e evt j i) := by
  obtain ⟨p, hp, htrace, hrec, hsets, hclocks, -⟩ := exists_run_of_file hrun hfile
  have hpid : ∀ e ∈ trace.events, e.pid = (sessionAt cli n target l l.length).pid ∧ e.pid ≠ 0 := by
    intro e he
    obtain ⟨ev, hev, rfl⟩ := exists_event_of_file hrun hfile he
    exact ((sessionOwned_at hrun l.length).entries.events ev hev).1
  refine ⟨p, hp, htrace, ?_⟩
  intro host slowest chain hchain
  obtain ⟨b, hb, hty, path, hpath, hmem, hlines⟩ := exists_stallPath_of_mem_explain hchain
  have hne : (sessionAt cli n target l l.length).pid ≠ 0 := (hpid b hb).1 ▸ (hpid b hb).2
  refine ⟨b, path, hpath, hlines, ?_, ?_⟩
  · obtain ⟨j, i, hstall, hcontext⟩ := hrec.stall_context (hsets hne) (hclocks hclock) hb hty
    rw [(hpid b hb).1] at hcontext
    exact ⟨j, i, hstall, hcontext⟩
  · intro e he
    have hspan : ∃ j, ((halves p)[j]?).bind Half.context? = some (e.tid, e.pid) ∧
        ((∃ i, Call n p e j i) ∨ ∃ evt i, Served n p e evt j i) := by
      rcases hpath.eventType e he with hwake | hwait | hio
      · obtain ⟨j, i, hcall, hcontext⟩ := hrec.call_context (hclocks hclock) (hmem e he) (Or.inr hwake)
        exact ⟨j, hcontext, Or.inl ⟨i, hcall⟩⟩
      · obtain ⟨j, i, hcall, hcontext⟩ := hrec.call_context (hclocks hclock) (hmem e he) (Or.inl hwait)
        exact ⟨j, hcontext, Or.inl ⟨i, hcall⟩⟩
      · obtain ⟨evt, j, i, hserved, hcontext⟩ := hrec.served_context (hmem e he) hio
        exact ⟨j, hcontext, Or.inr ⟨evt, i, hserved⟩⟩
    rwa [(hpid e (hmem e he)).1] at hspan

end Run

theorem session_report_tracedRun : SessionClock tracedRun ∧
    explain sdaHost tracedFile 3 = [⟨[.blockedOnFutex 1020 7 20 0x1000]⟩] ∧
    ∃ p, p <+: tracedCli.probes (tracedCli.start Sizes.source .none) tracedRun ∧
      tracedFile.events = (Maps.run Sizes.source p).events.map TraceEvent.ofEvent ∧
      ∃ b path, StallPath tracedFile.events b path ∧
        chainLines sdaHost .new tracedFile b path = [.blockedOnFutex 1020 7 20 0x1000] ∧
        (∃ j i, Stall Sizes.source p b j i ∧ ((halves p)[j]?).bind Half.context? = some (b.tid, 7)) ∧
        ∀ e ∈ path, ∃ j, ((halves p)[j]?).bind Half.context? = some (e.tid, 7) ∧
          ((∃ i, Call Sizes.source p e j i) ∨ ∃ evt i, Served Sizes.source p e evt j i) := by
  have hclock : SessionClock tracedRun := by decide +kernel
  have hexplain : explain sdaHost tracedFile 3 = [⟨[.blockedOnFutex 1020 7 20 0x1000]⟩] := by decide +kernel
  have hpid : (tracedAt tracedRun.length).pid = 7 := by decide +kernel
  obtain ⟨p, hp, htrace, hall⟩ := session_report tracedRun_allowed hclock tracedAt_file
  have hchain : (⟨[.blockedOnFutex 1020 7 20 0x1000]⟩ : Chain) ∈ explain sdaHost tracedFile 3 := by
    rw [hexplain]
    exact List.mem_singleton_self _
  obtain ⟨b, path, hpath, hlines, hstall, hspans⟩ := hall sdaHost 3 _ hchain
  refine ⟨hclock, hexplain, p, hp, htrace, b, path, hpath, hlines.symm, ?_, ?_⟩
  · rw [← hpid]
    exact hstall
  · rw [← hpid]
    exact hspans

end Whyslow
