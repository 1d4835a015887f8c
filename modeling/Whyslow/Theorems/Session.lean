import Whyslow.Session
import Whyslow.Theorems.Drain
import Whyslow.Theorems.Isolation

/-! A session sets up before it traces. The command comes to each of its calls in turn, so where it is tells how much of
    the setup is done (`Session.SetUp`), and what it has let the child do (`Session.Held`): the program of the child does
    not run before the five programs are attached and know its id. -/

namespace Whyslow
open Runs

/-! ### Programs -/

theorem Maps.target_step {m : Maps} {st : Step} (h : st.program?.isSome) : (m.step st).targetTgid = m.targetTgid := by
  rw [Maps.step_eq_halves]
  match st with
  | .setTargetTgid _ => cases h
  | .schedSwitch _ (some _) | .futexEnter _ (some _) | .futexExit _ | .blockRqIssue _ (some _)
  | .blockRqComplete _ (some _) => rfl
  | .schedSwitch _ none | .futexEnter _ none | .blockRqIssue _ none | .blockRqComplete _ none => rfl

/-- A step writes one event or none. -/
theorem Maps.events_step (m : Maps) (st : Step) : ∃ ev : Option Event, (m.step st).events = m.events ++ ev.toList := by
  rw [Maps.step_eq_halves]
  match st with
  | .schedSwitch h (some evt) =>
    refine ⟨(Half.switchIn h evt).writes (m.half (.switchOut h evt)), ?_⟩
    have hout : (m.half (.switchOut h evt)).events = m.events := by
      simp [Maps.half, Half.writes, Half.produces]
    show (m.half (.switchOut h evt)).events ++ _ = _
    rw [hout]
  | .setTargetTgid tgid => exact ⟨(Half.setTargetTgid tgid).writes m, rfl⟩
  | .futexEnter h (some evt) => exact ⟨(Half.futexEnter h evt).writes m, rfl⟩
  | .futexExit h => exact ⟨(Half.futexExit h).writes m, rfl⟩
  | .blockRqIssue h (some evt) => exact ⟨(Half.blockRqIssue h evt).writes m, rfl⟩
  | .blockRqComplete h (some evt) => exact ⟨(Half.blockRqComplete h evt).writes m, rfl⟩
  | .schedSwitch _ none | .futexEnter _ none | .blockRqIssue _ none | .blockRqComplete _ none =>
    exact ⟨none, (List.append_nil _).symm⟩

/-! ### The calls in their order -/

variable {cli : Cli} {s : Session} {a : SessionAct}

@[simp] theorem Session.goOn_pid (s : Session) (err : Option Failure) (pc : SessionPc) : (s.goOn err pc).pid = s.pid := by
  cases err <;> rfl

@[simp] theorem Session.goOn_target (s : Session) (err : Option Failure) (pc : SessionPc) :
    (s.goOn err pc).target = s.target := by
  cases err <;> rfl

@[simp] theorem Session.goOn_maps (s : Session) (err : Option Failure) (pc : SessionPc) : (s.goOn err pc).maps = s.maps := by
  cases err <;> rfl

@[simp] theorem Session.goOn_drain (s : Session) (err : Option Failure) (pc : SessionPc) :
    (s.goOn err pc).drain = s.drain := by
  cases err <;> rfl

@[simp] theorem Session.goOn_anchors (s : Session) (err : Option Failure) (pc : SessionPc) :
    (s.goOn err pc).anchors = s.anchors := by
  cases err <;> rfl

@[simp] theorem Session.goOn_file (s : Session) (err : Option Failure) (pc : SessionPc) : (s.goOn err pc).file = s.file := by
  cases err <;> rfl

@[simp] theorem Session.goOn_stopRequested (s : Session) (err : Option Failure) (pc : SessionPc) :
    (s.goOn err pc).stopRequested = s.stopRequested := by
  cases err <;> rfl

@[simp] theorem Session.goOn_deadlinePassed (s : Session) (err : Option Failure) (pc : SessionPc) :
    (s.goOn err pc).deadlinePassed = s.deadlinePassed := by
  cases err <;> rfl

/-- A call that does not fail, with where the command is before it and behind it. -/
inductive Cli.Calls (cli : Cli) : SessionAct → SessionPc → SessionPc → Prop
  | requireRoot : cli.Calls (.geteuid 0) .requireRoot
      (match cli.command with | .run _ => .spawnStopped | .attach _ _ => .checkAlive)
  | spawnStopped (pid : UInt32) : cli.Calls (.spawn (.ok pid)) .spawnStopped .waitUntilStopped
  | waitUntilStopped : cli.Calls (.waitpid .stopped) .waitUntilStopped .load
  | checkAlive : cli.Calls (.kill true) .checkAlive .load
  | load : cli.Calls (.load (.ok ())) .load (.attach 0)
  | attach (i : Nat) : cli.Calls (.attach .attached) (.attach i) (.attach (i + 1))
  | attachLast (i : Nat) : cli.Calls (.attach .attached) (.attach i) .setTargetTgid
  | setTargetTgid : cli.Calls (.setTargetTgid .ok) .setTargetTgid .captureAnchor
  | captureAnchor (realtime monotonic : UInt64) : cli.Calls (.captureAnchor realtime monotonic) .captureAnchor
      (match cli.command with | .run _ => .resume | .attach _ _ => .installHandler)
  | resume : cli.Calls (.detach (.ok ())) .resume .openRing
  | installHandler : cli.Calls .installHandler .installHandler .setDeadline
  | setDeadline (now : UInt64) : cli.Calls (.setDeadline now) .setDeadline .openRing
  | openRing : cli.Calls (.openRing .ok) .openRing .drain
  | drain : cli.Calls .next .drain .writeTo
  | writeTo : cli.Calls (.writeTo (.ok ())) .writeTo .done

theorem Drain.step_decode_ne {d : Drain} (h : d.pc.isDecode) : (d.step .decode).pc ≠ .returned := by
  cases hpc : d.pc with
  | decode last item => simp [Drain.step, hpc]
  | _ => simp [hpc, DrainPc.isDecode] at h

theorem Session.consume_pc {b : DrainAct} (h : (s.drain.step b).pc ≠ .returned) : (s.consume b).pc = s.pc := if_neg h

/-- A step of the kernel leaves the command where it is; one of the command stays in a loop, fails, or is a call that
    goes on. -/
theorem Session.pc_cases (ha : s.Allows cli a) : (s.step cli a).pc = s.pc ∨
    (s.pc.isOver = false ∧ ∃ err, (s.step cli a).pc = .failed err) ∨ cli.Calls a s.pc (s.step cli a).pc := by
  cases a with
  | geteuid euid =>
    simp only [Session.step, show s.pc = .requireRoot from ha]
    split
    · exact Or.inr (Or.inl ⟨rfl, _, rfl⟩)
    · rename_i heuid
      rw [not_not.mp heuid]
      exact Or.inr (Or.inr .requireRoot)
  | spawn result =>
    have hpc : s.pc = .spawnStopped := ha.1
    rw [hpc]
    cases result with
    | ok pid => exact Or.inr (Or.inr (.spawnStopped pid))
    | error err =>
      simp only [Session.step]
      cases cli.command with
      | run command => exact Or.inr (Or.inl ⟨rfl, _, rfl⟩)
      | attach pid secs => exact Or.inl hpc
  | waitpid status =>
    rw [show s.pc = .waitUntilStopped from ha.1]
    cases status with
    | stopped => exact Or.inr (Or.inr .waitUntilStopped)
    | other => exact Or.inl rfl
    | failed | ended => exact Or.inr (Or.inl ⟨rfl, _, rfl⟩)
  | kill ok =>
    rw [show s.pc = .checkAlive from ha.1]
    cases ok with
    | true => exact Or.inr (Or.inr .checkAlive)
    | false => exact Or.inr (Or.inl ⟨rfl, _, rfl⟩)
  | load result =>
    rw [show s.pc = .load from ha]
    cases result with
    | ok => exact Or.inr (Or.inr .load)
    | error err => exact Or.inr (Or.inl ⟨rfl, _, rfl⟩)
  | attach result =>
    cases hi : s.pc with
    | attach i =>
      simp only [Session.step, hi]
      split
      · cases result with
        | attached =>
          refine Or.inr (Or.inr ?_)
          simp only [attachFailure, Session.goOn]
          split
          · exact .attach i
          · exact .attachLast i
        | missing | notTracePoint | loadFailed | attachFailed => exact Or.inr (Or.inl ⟨rfl, _, rfl⟩)
      · exact Or.inl hi
    | _ => simp [Session.Allows, hi, SessionPc.isAttach] at ha
  | setTargetTgid result =>
    rw [show s.pc = .setTargetTgid from ha]
    cases result with
    | ok => exact Or.inr (Or.inr .setTargetTgid)
    | missing | failed => exact Or.inr (Or.inl ⟨rfl, _, rfl⟩)
  | captureAnchor realtime monotonic =>
    rw [show s.pc = .captureAnchor from ha]
    exact Or.inr (Or.inr (.captureAnchor realtime monotonic))
  | detach result =>
    rw [show s.pc = .resume from ha.1]
    cases result with
    | ok => exact Or.inr (Or.inr .resume)
    | error err => exact Or.inr (Or.inl ⟨rfl, _, rfl⟩)
  | installHandler =>
    rw [show s.pc = .installHandler from ha]
    exact Or.inr (Or.inr .installHandler)
  | setDeadline now =>
    rw [show s.pc = .setDeadline from ha.1]
    simp only [Session.step]
    cases deadlineFailure now cli.command with
    | none => exact Or.inr (Or.inr (.setDeadline now))
    | some err => exact Or.inr (Or.inl ⟨rfl, _, rfl⟩)
  | openRing result =>
    rw [show s.pc = .openRing from ha]
    cases result with
    | ok => exact Or.inr (Or.inr .openRing)
    | missing | failed => exact Or.inr (Or.inl ⟨rfl, _, rfl⟩)
  | next =>
    have hpc : s.pc = .drain := ha.1
    simp only [Session.step, Session.consume, hpc]
    split
    · exact Or.inr (Or.inr .drain)
    · exact Or.inl rfl
  | decode => exact Or.inl (Session.consume_pc (Drain.step_decode_ne ha.2))
  | shouldStop stop =>
    refine Or.inl ?_
    simp only [Session.step]
    cases cli.command <;> cases stop <;> exact Session.consume_pc (by simp [Drain.step])
  | poll => exact Or.inl (Session.consume_pc (by simp [Drain.step]))
  | writeTo result =>
    rw [show s.pc = .writeTo from ha]
    cases result with
    | ok => exact Or.inr (Or.inr .writeTo)
    | error err => exact Or.inr (Or.inl ⟨rfl, _, rfl⟩)
  | tracepoint st =>
    refine Or.inl ?_
    simp only [Session.step, Session.fire]
    split <;> rfl
  | commit i padding =>
    refine Or.inl ?_
    simp only [Session.step]
    split <;> rfl
  | trap | exit | reaped | released | sigint | deadline => exact Or.inl rfl

/-- The id is given by the command line or by `spawn`. -/
theorem Session.pid_step (h : ∀ pid, a ≠ .spawn (.ok pid)) : (s.step cli a).pid = s.pid := by
  unfold Session.step Session.fire
  repeat' split
  all_goals first | rfl | simp_all

def SessionAct.movesTarget : SessionAct → Bool
  | .spawn (.ok _) | .waitpid .ended | .detach (.ok _) | .shouldStop true | .trap | .exit | .reaped | .released => true
  | _ => false

theorem Session.target_step (h : a.movesTarget = false) : (s.step cli a).target = s.target := by
  unfold Session.step Session.fire
  repeat' split
  all_goals first | rfl | simp_all [SessionAct.movesTarget]

/-- The file is written by the last call. -/
theorem Session.file_step (h : ∀ result, a ≠ .writeTo (.ok result)) : (s.step cli a).file = s.file := by
  unfold Session.step Session.fire
  repeat' split
  all_goals first | rfl | simp_all

theorem Session.anchors_step (h : ∀ r m, a ≠ .captureAnchor r m) : (s.step cli a).anchors = s.anchors := by
  unfold Session.step Session.fire
  repeat' split
  all_goals first | rfl | simp_all

/-- A request to stop is not taken back. -/
theorem Session.stopRequested_step (h : s.stopRequested) : (s.step cli a).stopRequested := by
  unfold Session.step Session.fire
  repeat' split
  all_goals first | exact h | simp_all

theorem Session.deadlinePassed_step (h : s.deadlinePassed) : (s.step cli a).deadlinePassed := by
  unfold Session.step Session.fire
  repeat' split
  all_goals first | exact h | simp_all

/-! ### The setup -/

def allPrograms : List Program := tracepoints.map (·.program)

/-- How far the setup is when the command is at a call. -/
def Session.SetUp (s : Session) : Prop :=
  match s.pc with
  | .requireRoot | .spawnStopped | .waitUntilStopped | .checkAlive | .load =>
    s.attached = [] ∧ s.maps.targetTgid = 0
  | .attach i => i < tracepoints.length ∧ s.attached = allPrograms.take i ∧ s.maps.targetTgid = 0
  | .setTargetTgid => s.attached = allPrograms ∧ s.maps.targetTgid = 0
  | .captureAnchor | .resume | .installHandler | .setDeadline | .openRing | .drain | .writeTo | .done =>
    s.attached = allPrograms ∧ s.maps.targetTgid = s.pid
  | .failed _ => True

/-- What the child of `run` can do when the command is at a call. -/
def Session.Held (s : Session) : Prop :=
  match s.pc with
  | .requireRoot | .spawnStopped => s.target = .none
  | .waitUntilStopped => s.pid ≠ 0 ∧ (s.target = .execed ∨ s.target = .stopped ∨ s.target = .zombie)
  | .load | .attach _ | .setTargetTgid | .captureAnchor | .resume =>
    s.pid ≠ 0 ∧ (s.target = .stopped ∨ s.target = .zombie)
  | .openRing | .drain | .writeTo | .done => s.pid ≠ 0 ∧ (s.target = .running ∨ s.target = .zombie ∨ s.target = .none)
  | .checkAlive | .installHandler | .setDeadline => False
  | .failed _ => True

theorem Session.SetUp.of_eq {s' : Session} (h : s.SetUp) (hpc : s'.pc = s.pc) (hpid : s'.pid = s.pid)
    (hattached : s'.attached = s.attached) (htarget : s'.maps.targetTgid = s.maps.targetTgid) : s'.SetUp := by
  unfold Session.SetUp at h ⊢
  rw [hpc, hattached, htarget, hpid]
  exact h

theorem Session.SetUp.fire (h : s.SetUp) {st : Step} (hst : st.program?.isSome) : (s.fire st).SetUp := by
  unfold Session.fire
  split
  · exact h.of_eq rfl rfl rfl (Maps.target_step hst)
  · exact h

theorem Session.SetUp.consume (h : s.SetUp) (hpc : s.pc = .drain) (b : DrainAct) : (s.consume b).SetUp := by
  unfold Session.SetUp at h
  rw [hpc] at h
  unfold Session.SetUp Session.consume
  dsimp only
  split <;> rename_i hif <;> split at hif <;> simp_all

theorem Session.SetUp.attach (h : s.SetUp) (hpc : s.pc.isAttach) (result : AttachResult) :
    (s.step cli (.attach result)).SetUp := by
  cases hi : s.pc with
  | attach i =>
    unfold Session.SetUp at h
    rw [hi] at h
    obtain ⟨hlt, hattached, htarget⟩ := h
    simp only [Session.step, hi, List.getElem?_eq_getElem hlt]
    cases result with
    | attached =>
      have hnext : s.attached ++ [tracepoints[i].program] = allPrograms.take (i + 1) := by
        rw [hattached, List.take_add_one]
        simp [allPrograms, List.getElem?_eq_getElem hlt]
      simp only [attachFailure, Session.goOn]
      by_cases hmore : i + 1 < tracepoints.length
      · rw [if_pos hmore]
        exact ⟨hmore, hnext, htarget⟩
      · rw [if_neg hmore]
        refine ⟨hnext.trans (List.take_of_length_le ?_), htarget⟩
        rw [allPrograms, List.length_map]
        omega
    | missing | notTracePoint | loadFailed | attachFailed => trivial
  | _ => simp [hi, SessionPc.isAttach] at hpc

theorem Session.SetUp.step (h : s.SetUp) (ha : s.Allows cli a) : (s.step cli a).SetUp := by
  cases a with
  | geteuid euid =>
    unfold Session.SetUp at h
    rw [show s.pc = .requireRoot from ha] at h
    simp only [Session.step]
    split
    · trivial
    · cases cli.command <;> exact h
  | spawn result =>
    unfold Session.SetUp at h
    rw [show s.pc = .spawnStopped from ha.1] at h
    cases result with
    | ok pid => exact h
    | error err =>
      simp only [Session.step]
      cases cli.command with
      | run command => trivial
      | attach pid secs =>
        unfold Session.SetUp
        rw [show s.pc = .spawnStopped from ha.1]
        exact h
  | waitpid status =>
    unfold Session.SetUp at h
    rw [show s.pc = .waitUntilStopped from ha.1] at h
    cases status with
    | stopped | other => exact h
    | failed | ended => trivial
  | kill ok =>
    unfold Session.SetUp at h
    rw [show s.pc = .checkAlive from ha.1] at h
    cases ok with
    | true => exact h
    | false => trivial
  | load result =>
    unfold Session.SetUp at h
    rw [show s.pc = .load from ha] at h
    cases result with
    | ok => exact ⟨by decide, h⟩
    | error err => trivial
  | attach result => exact h.attach ha result
  | setTargetTgid result =>
    unfold Session.SetUp at h
    rw [show s.pc = .setTargetTgid from ha] at h
    cases result with
    | ok => exact ⟨h.1, rfl⟩
    | missing | failed => trivial
  | captureAnchor realtime monotonic =>
    unfold Session.SetUp at h
    rw [show s.pc = .captureAnchor from ha] at h
    simp only [Session.step]
    cases cli.command <;> exact h
  | detach result =>
    unfold Session.SetUp at h
    rw [show s.pc = .resume from ha.1] at h
    cases result with
    | ok => exact h
    | error err => trivial
  | installHandler =>
    unfold Session.SetUp at h
    rw [show s.pc = .installHandler from ha] at h
    exact h
  | setDeadline now =>
    unfold Session.SetUp at h
    rw [show s.pc = .setDeadline from ha.1] at h
    simp only [Session.step]
    cases deadlineFailure now cli.command with
    | none => exact h
    | some err => trivial
  | openRing result =>
    unfold Session.SetUp at h
    rw [show s.pc = .openRing from ha] at h
    cases result with
    | ok => exact h
    | missing | failed => trivial
  | next => exact h.consume ha.1 _
  | decode => exact h.consume ha.1 _
  | shouldStop stop =>
    simp only [Session.step]
    cases cli.command with
    | run command =>
      cases stop with
      | true =>
        have hreaped : Session.SetUp { s with target := .none } := h.of_eq rfl rfl rfl rfl
        exact hreaped.consume ha.1 _
      | false => exact h.consume ha.1 _
    | attach pid secs => exact h.consume ha.1 _
  | poll => exact h.consume ha.1 _
  | writeTo result =>
    unfold Session.SetUp at h
    rw [show s.pc = .writeTo from ha] at h
    cases result with
    | ok => exact h
    | error err => trivial
  | tracepoint st => exact h.fire ha.1
  | commit i padding =>
    simp only [Session.step]
    split
    · exact h.of_eq rfl rfl rfl rfl
    · exact h
  | trap | exit | reaped | released | sigint | deadline => exact h.of_eq rfl rfl rfl rfl

/-! ### The child -/

theorem Session.Held.of_eq {s' : Session} (h : s.Held) (hpc : s'.pc = s.pc) (hpid : s'.pid = s.pid)
    (htarget : s'.target = s.target) : s'.Held := by
  unfold Session.Held at h ⊢
  rw [hpc, hpid, htarget]
  exact h

theorem Session.Held.consume (h : s.Held) (hpc : s.pc = .drain) (b : DrainAct) : (s.consume b).Held := by
  unfold Session.Held at h
  rw [hpc] at h
  unfold Session.Held Session.consume
  dsimp only
  split <;> rename_i hif <;> split at hif <;> simp_all

theorem Session.Held.attach (h : s.Held) (hpc : s.pc.isAttach) (result : AttachResult) :
    (s.step cli (.attach result)).Held := by
  cases hi : s.pc with
  | attach i =>
    have hheld := h
    unfold Session.Held at hheld
    rw [hi] at hheld
    simp only [Session.step, hi]
    split
    · cases result with
      | attached =>
        simp only [attachFailure, Session.goOn]
        split <;> exact hheld
      | missing | notTracePoint | loadFailed | attachFailed => trivial
    · exact h
  | _ => simp [hi, SessionPc.isAttach] at hpc

/-- The process comes to its trap or to its end, or is let go by a command that is over, while the command is where it
    is. -/
theorem Session.Held.move (h : s.Held) {target : Target} (hmove : (s.target = .execed ∧ target = .stopped) ∨
    ((s.target = .execed ∨ s.target = .stopped ∨ s.target = .running) ∧ target = .zombie) ∨
    (s.target = .stopped ∧ s.pc.isOver)) : Session.Held { s with target := target } := by
  unfold Session.Held at h ⊢
  rcases hmove with ⟨hexeced, rfl⟩ | ⟨hlive, rfl⟩ | ⟨hstopped, hover⟩
  · cases hpc : s.pc <;> simp [hpc, hexeced] at h ⊢
    exact h
  · cases hpc : s.pc <;> simp only [hpc] at h ⊢
    case requireRoot | spawnStopped => simp [h] at hlive
    all_goals simp_all
  · cases hpc : s.pc <;> simp [hpc, hstopped, SessionPc.isOver] at h hover ⊢

theorem Session.Held.step {command : List String} (hcmd : cli.command = .run command) (h : s.Held)
    (ha : s.Allows cli a) : (s.step cli a).Held := by
  cases a with
  | geteuid euid =>
    unfold Session.Held at h
    rw [show s.pc = .requireRoot from ha] at h
    simp only [Session.step, hcmd]
    split
    · trivial
    · exact h
  | spawn result =>
    cases result with
    | ok pid => exact ⟨ha.2, Or.inl rfl⟩
    | error err =>
      simp only [Session.step, hcmd]
      trivial
  | waitpid status =>
    unfold Session.Held at h
    rw [show s.pc = .waitUntilStopped from ha.1] at h
    cases status with
    | stopped => exact ⟨h.1, Or.inl ha.2⟩
    | other => exact h
    | failed | ended => trivial
  | kill ok =>
    unfold Session.Held at h
    rw [show s.pc = .checkAlive from ha.1] at h
    exact h.elim
  | load result =>
    unfold Session.Held at h
    rw [show s.pc = .load from ha] at h
    cases result with
    | ok => exact h
    | error err => trivial
  | attach result => exact h.attach ha result
  | setTargetTgid result =>
    unfold Session.Held at h
    rw [show s.pc = .setTargetTgid from ha] at h
    cases result with
    | ok => exact h
    | missing | failed => trivial
  | captureAnchor realtime monotonic =>
    unfold Session.Held at h
    rw [show s.pc = .captureAnchor from ha] at h
    simp only [Session.step, hcmd]
    exact h
  | detach result =>
    unfold Session.Held at h
    rw [show s.pc = .resume from ha.1] at h
    cases result with
    | ok => exact ⟨h.1, Or.inl rfl⟩
    | error err => trivial
  | installHandler =>
    unfold Session.Held at h
    rw [show s.pc = .installHandler from ha] at h
    exact h.elim
  | setDeadline now =>
    unfold Session.Held at h
    rw [show s.pc = .setDeadline from ha.1] at h
    exact h.elim
  | openRing result =>
    unfold Session.Held at h
    rw [show s.pc = .openRing from ha] at h
    cases result with
    | ok => exact h
    | missing | failed => trivial
  | next => exact h.consume ha.1 _
  | decode => exact h.consume ha.1 _
  | shouldStop stop =>
    simp only [Session.step, hcmd]
    cases stop with
    | true =>
      unfold Session.Held at h
      rw [show s.pc = .drain from ha.1] at h
      have hreaped : Session.Held { s with target := .none } := by
        unfold Session.Held
        rw [show s.pc = .drain from ha.1]
        exact ⟨h.1, Or.inr (Or.inr rfl)⟩
      exact hreaped.consume ha.1 _
    | false => exact h.consume ha.1 _
  | poll => exact h.consume ha.1 _
  | writeTo result =>
    unfold Session.Held at h
    rw [show s.pc = .writeTo from ha] at h
    cases result with
    | ok => exact h
    | error err => trivial
  | trap => exact h.move (Or.inl ⟨ha, rfl⟩)
  | exit => exact h.move (Or.inr (Or.inl ⟨ha.1, rfl⟩))
  | reaped => simp [hcmd, Session.Allows, Command.isAttach] at ha
  | released => exact h.move (Or.inr (Or.inr ha))
  | tracepoint st =>
    simp only [Session.step, Session.fire]
    split
    · exact h.of_eq rfl rfl rfl
    · exact h
  | commit i padding =>
    simp only [Session.step]
    split
    · exact h.of_eq rfl rfl rfl
    · exact h
  | sigint | deadline => exact h.of_eq rfl rfl rfl

end Whyslow
