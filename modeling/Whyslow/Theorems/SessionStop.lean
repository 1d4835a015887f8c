import Whyslow.Theorems.SessionTarget

/-! How a session ends. Once there is a reason to stop (the child of `run` has exited, or `attach` was interrupted or is
    past its deadline), the drain is on its way to its return: what is left to do is two steps for each record that it
    has not taken, and a last look at the reason. Only records that come in meanwhile add to it. -/

namespace Whyslow
open Runs

/-! ### What is left to do -/

def DrainPc.weight : DrainPc → Nat
  | .poll => 4
  | .next false => 3
  | .decode false _ => 2
  | .shouldStop => 2
  | .next true => 1
  | .decode true _ => 0
  | .returned => 0

/-- The steps to the return of a drain that is told to stop, if nothing is added. -/
def Drain.left (d : Drain) : Nat := 2 * (d.ring.records.length - d.ring.consumed) + d.pc.weight

section Left
variable {d : Drain}

theorem Consumed.le_length (h : Consumed d) : d.ring.consumed ≤ d.ring.records.length := by
  refine h.le.trans ?_
  generalize d.ring.records = records
  induction records with
  | nil => exact le_rfl
  | cons r records ih =>
    cases r with
    | none => exact Nat.zero_le _
    | some item => exact Nat.succ_le_succ ih

theorem Drain.left_next (h : d.pc.isNext) : (d.step .next).left + 1 ≤ d.left := by
  cases hpc : d.pc with
  | next last =>
    simp only [Drain.step, hpc]
    cases d.ring.next with
    | some item => cases last <;> simp [Drain.left, DrainPc.weight, hpc]
    | none => cases last <;> simp [Drain.left, DrainPc.weight, hpc]
  | _ => simp [hpc, DrainPc.isNext] at h

theorem Drain.left_decode (hc : Consumed d) (h : d.pc.isDecode) : (d.step .decode).left + 1 ≤ d.left := by
  cases hpc : d.pc with
  | decode last item =>
    have hlt : d.ring.consumed < d.ring.records.length := by
      have hitem := hc.item last item hpc
      rw [hc.next_eq, RingBuf.next] at hitem
      by_contra hge
      rw [List.getElem?_eq_none_iff.mpr (Nat.le_of_not_lt hge)] at hitem
      cases hitem
    simp only [Drain.step, hpc]
    cases last <;> simp only [Drain.left, DrainPc.weight, hpc] <;> omega
  | _ => simp [hpc, DrainPc.isDecode] at h

theorem Drain.left_stop (h : d.pc = .shouldStop) : (d.step (.shouldStop true)).left + 1 ≤ d.left := by
  simp [Drain.step, Drain.left, h, DrainPc.weight]

theorem Drain.left_poll (h : d.pc = .poll) : (d.step .poll).left + 1 ≤ d.left := by
  simp [Drain.step, Drain.left, h, DrainPc.weight]

theorem Drain.left_reserve (hc : Consumed d) : (d.step .reserve).left ≤ d.left + 2 := by
  have := hc.le_length
  simp only [Drain.step, Drain.left, List.length_append, List.length_singleton]
  omega

theorem Drain.left_commit (i : Nat) (item : List UInt8) : (d.step (.commit i item)).left = d.left := by
  simp [Drain.step, Drain.left]

theorem Drain.isLast_step {b : DrainAct} (hb : d.Allows b) (h : d.pc.isLast) : (d.step b).pc.isLast := by
  cases b with
  | reserve | commit => exact h
  | next =>
    cases hpc : d.pc with
    | next last =>
      rw [hpc] at h
      obtain rfl : last = true := h
      simp only [Drain.step, hpc]
      cases d.ring.next <;> rfl
    | _ => simp [Drain.Allows, hpc, DrainPc.isNext] at hb
  | decode =>
    cases hpc : d.pc with
    | decode last item =>
      rw [hpc] at h
      simp only [Drain.step, hpc]
      exact h
    | _ => simp [Drain.Allows, hpc, DrainPc.isDecode] at hb
  | shouldStop stop =>
    rw [show d.pc = .shouldStop from hb] at h
    cases h
  | poll =>
    rw [show d.pc = .poll from hb] at h
    cases h

end Left

/-! ### Reasons to stop -/

/-- There is a reason to stop that stays one. -/
def Session.Stops (s : Session) : Command → Prop
  | .run _ => s.target = .zombie
  | .attach _ _ => s.stopRequested ∨ s.deadlinePassed

/-- The command is at its drain or behind it. -/
def SessionPc.isLate : SessionPc → Bool
  | .drain | .writeTo | .done | .failed _ => true
  | _ => false

/-- The session is on its way to its end. -/
structure Session.Stopping (cli : Cli) (s : Session) : Prop where
  tape : s.Tape
  late : s.pc.isLate
  stops : s.drain.pc.isLast ∨ s.Stops cli.command

section Stopping
variable {cli : Cli} {s : Session} {a : SessionAct}

theorem Session.isLate_step (ha : s.Allows cli a) (h : s.pc.isLate) : (s.step cli a).pc.isLate := by
  rcases Session.pc_cases ha with hpc | ⟨-, err, hpc⟩ | hcall
  · rwa [hpc]
  · rw [hpc]
    rfl
  · generalize s.pc = pc, (s.step cli a).pc = pc' at hcall h ⊢
    cases hcall <;> first | rfl | cases h

theorem Session.Stops.step (h : s.Stops cli.command) (ha : s.Allows cli a) (hlate : s.pc.isLate) :
    (s.step cli a).drain.pc.isLast ∨ (s.step cli a).Stops cli.command := by
  cases hcmd : cli.command with
  | attach pid secs =>
    rw [hcmd] at h
    exact Or.inr (h.imp Session.stopRequested_step Session.deadlinePassed_step)
  | run command =>
    rw [hcmd] at h
    have hzombie : s.target = .zombie := h
    cases a with
    | shouldStop stop =>
      cases stop with
      | true =>
        refine Or.inl ?_
        simp only [Session.step, hcmd]
        rfl
      | false => exact Or.inr ((Session.target_step rfl).trans hzombie)
    | spawn result =>
      rw [show s.pc = .spawnStopped from ha.1] at hlate
      cases hlate
    | waitpid status =>
      rw [show s.pc = .waitUntilStopped from ha.1] at hlate
      cases hlate
    | detach result =>
      rw [show s.pc = .resume from ha.1] at hlate
      cases hlate
    | trap => cases hzombie.symm.trans ha
    | exit => exact Or.inr rfl
    | reaped => simp [Session.Allows, hcmd, Command.isAttach] at ha
    | released => cases hzombie.symm.trans ha.1
    | _ => exact Or.inr ((Session.target_step rfl).trans hzombie)

theorem Session.Stopping.step (h : s.Stopping cli) (ha : s.Allows cli a) : (s.step cli a).Stopping cli := by
  refine ⟨h.tape.step ha, Session.isLate_step ha h.late, ?_⟩
  rcases h.stops with hlast | hstops
  · refine Or.inl ?_
    rcases Session.drain_cases ha with hdrain | ⟨b, hb, hdrain⟩
    · rwa [hdrain]
    · rw [hdrain]
      exact Drain.isLast_step hb hlast
  · exact hstops.step ha h.late

/-- With a reason to stop the answer is yes. -/
theorem Session.Stopping.answer (h : s.Stopping cli) {stop : Bool} (ha : s.Allows cli (.shouldStop stop)) : stop = true := by
  have hpc : s.drain.pc = .shouldStop := ha.2.1
  rcases h.stops with hlast | hstops
  · rw [hpc] at hlast
    cases hlast
  · have hanswer := ha.2.2
    cases hcmd : cli.command with
    | run command =>
      rw [hcmd] at hanswer hstops
      rw [show stop = decide (s.target = .zombie) from hanswer]
      exact decide_eq_true hstops
    | attach pid secs =>
      rw [hcmd] at hanswer hstops
      have hflags : (s.stopRequested || s.deadlinePassed) = true := by
        rcases hstops with h | h <;> simp [h]
      simpa [Session.StopAnswers, hflags] using hanswer

/-- The drain is not started before its call, and a call that is under way has not returned. -/
structure Session.Draining (s : Session) : Prop where
  started : s.pc.isLate = false → s.drain.pc = .next false
  running : s.pc = .drain → s.drain.pc ≠ .returned

theorem Session.Draining.start (cli : Cli) (n : Sizes) (target : Target) : (cli.start n target).Draining where
  started _ := rfl
  running h := by cases h

theorem Session.Draining.step (h : s.Draining) (ha : s.Allows cli a) : (s.step cli a).Draining := by
  by_cases hdrain : s.pc = .drain
  · refine ⟨fun hlate => ?_, fun hpc => ?_⟩
    · rw [Session.isLate_step ha (by rw [hdrain]; rfl)] at hlate
      cases hlate
    · have hnot := h.running hdrain
      rcases Session.step_cases ha with ⟨-, -, hd⟩ | ⟨st, -, -, hd⟩ | ⟨_, _, _, -, -, -, -, hd⟩ |
        ⟨b, -, -, -, -, -, hd, hpc'⟩
      · rwa [hd]
      · rw [hd]
        split <;> exact hnot
      · rwa [hd]
      · rw [hd]
        intro hret
        rw [if_pos hret] at hpc'
        cases hpc.symm.trans hpc'
  · have hsame := (Session.drain_step_of_ne ha hdrain).1
    have hearly : (s.step cli a).pc.isLate = false ∨ (s.step cli a).pc = .drain → s.pc.isLate = false := by
      rintro (hpc | hpc)
      · exact Bool.eq_false_iff.mpr fun hlate => Bool.eq_false_iff.mp hpc (Session.isLate_step ha hlate)
      · rcases Session.pc_cases ha with hpc' | ⟨-, err, hpc'⟩ | hcall
        · exact absurd (hpc'.symm.trans hpc) hdrain
        · cases hpc.symm.trans hpc'
        · rw [hpc] at hcall
          generalize s.pc = pc at hcall ⊢
          generalize hpc' : SessionPc.drain = pc' at hcall
          cases hcall with
          | openRing => rfl
          | requireRoot | captureAnchor => cases hcmd : cli.command <;> rw [hcmd] at hpc' <;> cases hpc'
          | _ => cases hpc'
    refine ⟨fun hlate => ?_, fun hpc => ?_⟩
    · rw [hsame]
      exact h.started (hearly (Or.inl hlate))
    · rw [hsame, h.started (hearly (Or.inr hpc))]
      simp

/-! ### The bound -/

def SessionAct.isDrain : SessionAct → Bool
  | .next | .decode | .shouldStop _ | .poll => true
  | _ => false

def SessionAct.isTracepoint : SessionAct → Bool
  | .tracepoint _ => true
  | _ => false

/-- What a step may add to what is left to do, with itself. -/
def SessionAct.credit (a : SessionAct) : Nat :=
  if a.isDrain then 0 else if a.isTracepoint then 3 else 1

theorem sum_credit (l : List SessionAct) : (l.map SessionAct.credit).sum + l.countP SessionAct.isDrain =
    l.length + 2 * l.countP SessionAct.isTracepoint := by
  induction l with
  | nil => rfl
  | cons a l ih =>
    simp only [List.map_cons, List.sum_cons, List.countP_cons, List.length_cons]
    cases a <;> simp only [SessionAct.credit, SessionAct.isDrain, SessionAct.isTracepoint, if_true, if_false,
      Bool.false_eq_true] <;> omega

theorem Session.Stopping.left_step (h : s.Stopping cli) (ha : s.Allows cli a) :
    (s.step cli a).drain.left + 1 ≤ s.drain.left + a.credit := by
  have hc := h.tape.consumed
  cases a with
  | next => exact Drain.left_next ha.2
  | decode => exact Drain.left_decode hc ha.2
  | shouldStop stop =>
    obtain rfl := h.answer ha
    refine le_trans (le_of_eq ?_) (Drain.left_stop ha.2.1)
    simp only [Session.step]
    cases cli.command <;> rfl
  | poll => exact Drain.left_poll ha.2
  | tracepoint st =>
    have hreserve := Drain.left_reserve hc
    have hcredit : (SessionAct.tracepoint st).credit = 3 := rfl
    simp only [Session.step, Session.fire, hcredit]
    split
    · dsimp only
      split <;> omega
    · omega
  | commit i padding =>
    simp only [Session.step]
    split
    · rw [Drain.left_commit]
      exact le_rfl
    · exact le_rfl
  | writeTo result => cases result <;> exact le_rfl
  | trap | exit | reaped | released | sigint | deadline => exact le_rfl
  | attach result =>
    have hlate := h.late
    cases hpc : s.pc <;> simp [Session.Allows, hpc, SessionPc.isAttach, SessionPc.isLate] at ha hlate
  | _ =>
    have hlate := h.late
    simp_all [Session.Allows, SessionPc.isLate]

end Stopping

/-- A drain that is under way and told to stop has a next step. -/
theorem Session.Stopping.exists_next {cli : Cli} {s : Session} (h : s.Stopping cli) (hd : s.Draining) (hpc : s.pc = .drain) :
    ∃ a : SessionAct, a.isDrain ∧ s.Allows cli a := by
  cases hdrain : s.drain.pc with
  | next last => exact ⟨.next, rfl, hpc, by rw [Drain.Allows, hdrain]; rfl⟩
  | decode last item => exact ⟨.decode, rfl, hpc, by rw [Drain.Allows, hdrain]; rfl⟩
  | shouldStop =>
    refine ⟨.shouldStop true, rfl, hpc, hdrain, ?_⟩
    have hstops := h.stops.resolve_left (by simp [hdrain, DrainPc.isLast])
    cases hcmd : cli.command with
    | run command =>
      rw [hcmd] at hstops
      have hzombie : s.target = .zombie := hstops
      exact (decide_eq_true hzombie).symm
    | attach pid secs =>
      rw [hcmd] at hstops
      have hflags : (s.stopRequested || s.deadlinePassed) = true := by
        rcases hstops with h | h <;> simp [h]
      simp [Session.StopAnswers, hflags]
  | poll => exact ⟨.poll, rfl, hpc, hdrain⟩
  | returned => exact absurd hdrain (hd.running hpc)

section Run
variable {cli : Cli} {n : Sizes} {target : Target} {l l' : List SessionAct}
  (hrun : Allowed (Session.step cli) (Session.Allows cli) (cli.start n target) (l ++ l'))
include hrun

/-- A session ends promptly. From any state of a drain with a reason to stop, the command takes at most two steps for each
    record it has not released yet and each program that runs from then on, and four more, before the drain has
    returned; and until then it always has a next step. -/
theorem session_stops_promptly (hpc : (sessionAt cli n target (l ++ l') l.length).pc = .drain)
    (hstops : (sessionAt cli n target (l ++ l') l.length).Stops cli.command) :
    l'.countP SessionAct.isDrain ≤
      2 * ((sessionAt cli n target (l ++ l') l.length).drain.ring.records.length -
        (sessionAt cli n target (l ++ l') l.length).drain.ring.consumed) + 4 + 2 * l'.countP SessionAct.isTracepoint ∧
    ((sessionAt cli n target (l ++ l') (l ++ l').length).pc = .drain →
      ∃ a, a.isDrain ∧ (sessionAt cli n target (l ++ l') (l ++ l').length).Allows cli a) := by
  have hmid : sessionAt cli n target (l ++ l') l.length = l.foldl (Session.step cli) (cli.start n target) :=
    stateAt_append 0
  have hend : sessionAt cli n target (l ++ l') (l ++ l').length =
      stateAt (Session.step cli) (l.foldl (Session.step cli) (cli.start n target)) l' l'.length := by
    rw [List.length_append]
    exact stateAt_append l'.length
  have hstopping : (l.foldl (Session.step cli) (cli.start n target)).Stopping cli := by
    rw [← hmid]
    exact ⟨tape_at hrun l.length, by rw [hpc]; rfl, Or.inr hstops⟩
  have hlater := hrun.of_append
  refine ⟨?_, fun hpc' => ?_⟩
  · have hbound := (hlater.and_inv hstopping fun _ _ hs ha => hs.step ha).length_le
      (μ := fun s : Session => s.drain.left) fun s a h => h.1.left_step h.2
    have hsum := sum_credit l'
    have hweight : ∀ pc : DrainPc, pc.weight ≤ 4 := by
      intro pc
      cases pc with
      | next last | decode last => cases last <;> simp [DrainPc.weight]
      | shouldStop | poll | returned => simp [DrainPc.weight]
    have := hweight (l.foldl (Session.step cli) (cli.start n target)).drain.pc
    rw [hmid]
    simp only [Drain.left] at hbound
    omega
  · rw [hend] at hpc' ⊢
    have hdraining : (sessionAt cli n target (l ++ l') (l ++ l').length).Draining :=
      hrun.induction (Session.Draining.start cli n target) (fun _ _ hs ha => hs.step ha) _
    rw [hend] at hdraining
    exact (hlater.induction hstopping (fun _ _ hs ha => hs.step ha) l'.length).exists_next hdraining hpc'

end Run

/-- The child has exited with its two records taken; three more steps of the drain are enough. -/
theorem session_stops_promptly_tracedRun : (tracedAt 31).pc = .drain ∧ (tracedAt 31).Stops tracedCli.command ∧
    (tracedRun.drop 31).countP SessionAct.isDrain = 3 ∧ (tracedRun.drop 31).countP SessionAct.isDrain ≤ 4 := by
  have hpc : (tracedAt 31).pc = .drain := by decide +kernel
  have hstops : (tracedAt 31).target = .zombie := by decide +kernel
  have hrun : Allowed (Session.step tracedCli) (Session.Allows tracedCli) (tracedCli.start Sizes.source .none)
      (tracedRun.take 31 ++ tracedRun.drop 31) := by
    rw [List.take_append_drop]
    exact tracedRun_allowed
  have h := session_stops_promptly hrun (by rw [List.take_append_drop]; exact hpc)
    (by rw [List.take_append_drop]; exact hstops)
  exact ⟨hpc, hstops, by decide +kernel, h.1.trans (by decide +kernel)⟩

end Whyslow
