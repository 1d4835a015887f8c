import Whyslow.Lib.Runs
import Whyslow.Ebpf

/-! What the programs do, said once. A step is taken apart into halves: a context switch is a switch-out
    followed by a switch-in, and every other step is one half. A half starts a span in one of the three
    start maps, or completes one there and hands an event to the ring buffer, or does neither. All later
    results are about runs of halves (`Maps.step_eq_halves`, `Maps.run_eq_halves`). -/

namespace Whyslow
open Runs

inductive Half where
  | setTargetTgid (tgid : UInt32)
  | switchOut (h : Helpers) (evt : TraceEventRawSchedSwitch)
  | switchIn (h : Helpers) (evt : TraceEventRawSchedSwitch)
  | futexEnter (h : Helpers) (evt : TraceEventRawSysEnter)
  | futexExit (h : Helpers)
  | blockRqIssue (h : Helpers) (evt : TraceEventRawBlockRq)
  | blockRqComplete (h : Helpers) (evt : TraceEventRawBlockRqCompletion)
  deriving DecidableEq

/-- A program that cannot read its record has no half. -/
def Step.halves : Step → List Half
  | .setTargetTgid tgid => [.setTargetTgid tgid]
  | .schedSwitch h (some evt) => [.switchOut h evt, .switchIn h evt]
  | .futexEnter h (some evt) => [.futexEnter h evt]
  | .futexExit h => [.futexExit h]
  | .blockRqIssue h (some evt) => [.blockRqIssue h evt]
  | .blockRqComplete h (some evt) => [.blockRqComplete h evt]
  | .schedSwitch _ none | .futexEnter _ none | .blockRqIssue _ none | .blockRqComplete _ none => []

/-! ### The three start maps -/

/-- A switch-out of the target in a state other than running starts a span under the outgoing thread; a
    switch-in completes the incoming thread's. -/
def Half.blockAct (m : Maps) : Half → SpanAct UInt32 BlockStart
  | .switchOut h evt =>
    if m.targetTgid ≠ 0 ∧ evt.prevState ≠ taskRunning ∧ h.currentTgid = m.targetTgid then
      .start evt.prevPid.toUInt32 { ts := h.ktimeGetNs, tgid := h.currentTgid, comm := evt.prevComm }
    else .none
  | .switchIn _ evt => if m.targetTgid ≠ 0 then .complete evt.nextPid.toUInt32 else .none
  | _ => .none

/-- A futex call of the target starts a span under the calling thread; any return completes the current
    thread's. -/
def Half.futexAct (m : Maps) : Half → SpanAct UInt32 FutexStart
  | .futexEnter h evt =>
    if m.targetTgid ≠ 0 ∧ h.currentTgid = m.targetTgid then
      .start h.currentTid
        { ts := h.ktimeGetNs, uaddr := evt.uaddr, op := evt.op, tgid := h.currentTgid, comm := h.comm }
    else .none
  | .futexExit h => .complete h.currentTid
  | _ => .none

/-- A request the target issues starts a span under its packed key; any completion completes its key's. -/
def Half.blockIoAct (m : Maps) : Half → SpanAct UInt64 BlockIoStart
  | .blockRqIssue h evt =>
    if m.targetTgid ≠ 0 ∧ h.currentTgid = m.targetTgid then
      .start (packBlockKey evt.dev evt.sector)
        { ts := h.ktimeGetNs, tgid := h.currentTgid, tid := h.currentTid, comm := h.comm }
    else .none
  | .blockRqComplete _ evt => .complete (packBlockKey evt.dev evt.sector)
  | _ => .none

/-! ### Events -/

def Half.ringFull : Half → Bool
  | .setTargetTgid _ => false
  | .switchOut h _ | .switchIn h _ | .futexEnter h _ | .futexExit h | .blockRqIssue h _ | .blockRqComplete h _ =>
    h.ringFull

def Half.ktime? : Half → Option UInt64
  | .setTargetTgid _ => none
  | .switchOut h _ | .switchIn h _ | .futexEnter h _ | .futexExit h | .blockRqIssue h _ | .blockRqComplete h _ =>
    some h.ktimeGetNs

def schedBlockEvent (h : Helpers) (evt : TraceEventRawSchedSwitch) (start : BlockStart) : Event :=
  Event.new h.ktimeGetNs (Words.saturatingSub h.ktimeGetNs start.ts) 0 start.tgid evt.nextPid.toUInt32
    eventSchedBlock start.comm

def futexEvent (h : Helpers) (start : FutexStart) (eventType : UInt8) : Event :=
  Event.new h.ktimeGetNs (Words.saturatingSub h.ktimeGetNs start.ts) start.uaddr start.tgid h.currentTid
    eventType start.comm

def blockIoEvent (h : Helpers) (evt : TraceEventRawBlockRqCompletion) (start : BlockIoStart) : Event :=
  Event.new h.ktimeGetNs (Words.saturatingSub h.ktimeGetNs start.ts) (packBlockKey evt.dev evt.sector) start.tgid
    start.tid eventBlockIo start.comm

def Half.produces (m : Maps) : Half → Option Event
  | .switchIn h evt =>
    if m.targetTgid ≠ 0 then (m.blockStart.get evt.nextPid.toUInt32).map (schedBlockEvent h evt) else none
  | .futexExit h =>
    (m.futexStart.get h.currentTid).bind fun start => (futexEventType start.op).map (futexEvent h start)
  | .blockRqComplete h evt => (m.blockIoStart.get (packBlockKey evt.dev evt.sector)).map (blockIoEvent h evt)
  | _ => none

/-- The event a half writes: the one it produces, unless the ring buffer is full. -/
def Half.writes (m : Maps) (a : Half) : Option Event := if a.ringFull then none else a.produces m

def Half.target (m : Maps) : Half → UInt32
  | .setTargetTgid tgid => tgid
  | _ => m.targetTgid

def Maps.half (m : Maps) (a : Half) : Maps where
  targetTgid := a.target m
  blockStart := (a.blockAct m).apply m.blockStart
  futexStart := (a.futexAct m).apply m.futexStart
  blockIoStart := (a.blockIoAct m).apply m.blockIoStart
  events := m.events ++ (a.writes m).toList

/-! ### A step is its halves -/

theorem Maps.emit_eq (m : Maps) (h : Helpers) (ev : Event) :
    m.emit h ev = { m with events := m.events ++ (if h.ringFull then none else some ev).toList } := by
  unfold Maps.emit
  split <;> simp

theorem Maps.half_none {m : Maps} {a : Half} (ht : a.target m = m.targetTgid) (hb : a.blockAct m = .none)
    (hf : a.futexAct m = .none) (hi : a.blockIoAct m = .none) (hw : a.produces m = none) : m.half a = m := by
  have hw' : a.writes m = none := by simp [Half.writes, hw]
  simp only [Maps.half, ht, hb, hf, hi, hw', SpanAct.apply, Option.toList_none, List.append_nil]

theorem Maps.half_switchOut (m : Maps) (h : Helpers) (evt : TraceEventRawSchedSwitch) (ht : m.targetTgid ≠ 0) :
    m.half (.switchOut h evt) =
      if evt.prevState ≠ taskRunning then
        if h.currentTgid = m.targetTgid then
          { m with
            blockStart := m.blockStart.put evt.prevPid.toUInt32 ⟨h.ktimeGetNs, h.currentTgid, evt.prevComm⟩ }
        else m
      else m := by
  split
  · rename_i hs
    split
    · rename_i hg
      simp [Maps.half, Half.target, Half.blockAct, Half.futexAct, Half.blockIoAct, Half.writes, Half.produces,
        SpanAct.apply, ht, hs, hg]
    · rename_i hg
      exact Maps.half_none rfl (if_neg fun h => hg h.2.2) rfl rfl rfl
  · rename_i hs
    exact Maps.half_none rfl (if_neg fun h => hs h.2.1) rfl rfl rfl

theorem Maps.half_switchIn (m : Maps) (h : Helpers) (evt : TraceEventRawSchedSwitch) (ht : m.targetTgid ≠ 0) :
    m.half (.switchIn h evt) =
      match m.blockStart.get evt.nextPid.toUInt32 with
      | some start =>
        { m with blockStart := m.blockStart.remove evt.nextPid.toUInt32 }.emit h (schedBlockEvent h evt start)
      | none => m := by
  cases hget : m.blockStart.get evt.nextPid.toUInt32 with
  | none =>
    simp [Maps.half, Half.target, Half.blockAct, Half.futexAct, Half.blockIoAct, Half.writes, Half.produces,
      SpanAct.apply, ht, hget, BoundedMap.remove_of_get_none hget]
  | some start =>
    simp [Maps.half, Half.target, Half.blockAct, Half.futexAct, Half.blockIoAct, Half.writes, Half.produces,
      SpanAct.apply, ht, hget, Maps.emit_eq, Half.ringFull]

theorem schedSwitch_eq_halves (m : Maps) (h : Helpers) (evt : TraceEventRawSchedSwitch) :
    (trySchedSwitch h (some evt) m).2 = (m.half (.switchOut h evt)).half (.switchIn h evt) := by
  by_cases ht : m.targetTgid = 0
  · have hout : m.half (.switchOut h evt) = m := Maps.half_none rfl (if_neg fun h => h.1 ht) rfl rfl rfl
    have hin : m.half (.switchIn h evt) = m :=
      Maps.half_none rfl (if_neg fun h => h ht) rfl rfl (if_neg fun h => h ht)
    rw [hout, hin]
    simp [trySchedSwitch, ht]
  · have ht' : (m.half (.switchOut h evt)).targetTgid ≠ 0 := ht
    rw [Maps.half_switchIn _ h evt ht']
    simp only [trySchedSwitch, ht, if_false, ← Maps.half_switchOut m h evt ht]
    cases (m.half (.switchOut h evt)).blockStart.get evt.nextPid.toUInt32 <;> rfl

theorem futexEnter_eq_half (m : Maps) (h : Helpers) (evt : TraceEventRawSysEnter) :
    (tryFutexEnter h (some evt) m).2 = m.half (.futexEnter h evt) := by
  by_cases hg : m.targetTgid ≠ 0 ∧ h.currentTgid = m.targetTgid
  · have hg' : ¬(m.targetTgid = 0 ∨ h.currentTgid ≠ m.targetTgid) := by
      rintro (h0 | h1)
      · exact hg.1 h0
      · exact h1 hg.2
    simp only [tryFutexEnter, if_neg hg', Maps.half, Half.target, Half.blockAct, Half.futexAct, if_pos hg,
      Half.blockIoAct, Half.writes, Half.produces, SpanAct.apply, ite_self, Option.toList_none, List.append_nil]
  · have hg' : m.targetTgid = 0 ∨ h.currentTgid ≠ m.targetTgid := by tauto
    have hsame : m.half (.futexEnter h evt) = m := Maps.half_none rfl rfl (if_neg hg) rfl rfl
    rw [hsame]
    simp only [tryFutexEnter, if_pos hg']

theorem futexExit_eq_half (m : Maps) (h : Helpers) : (tryFutexExit h m).2 = m.half (.futexExit h) := by
  cases hget : m.futexStart.get h.currentTid with
  | none =>
    simp [tryFutexExit, Maps.half, Half.target, Half.blockAct, Half.futexAct, Half.blockIoAct, Half.writes,
      Half.produces, SpanAct.apply, hget, BoundedMap.remove_of_get_none hget]
  | some start =>
    cases hty : futexEventType start.op <;>
      simp [tryFutexExit, Maps.half, Half.target, Half.blockAct, Half.futexAct, Half.blockIoAct, Half.writes,
        Half.produces, SpanAct.apply, hget, hty, Maps.emit_eq, Half.ringFull, futexEvent]

theorem blockRqIssue_eq_half (m : Maps) (h : Helpers) (evt : TraceEventRawBlockRq) :
    (tryBlockRqIssue h (some evt) m).2 = m.half (.blockRqIssue h evt) := by
  by_cases hg : m.targetTgid ≠ 0 ∧ h.currentTgid = m.targetTgid
  · have hg' : ¬(m.targetTgid = 0 ∨ h.currentTgid ≠ m.targetTgid) := by
      rintro (h0 | h1)
      · exact hg.1 h0
      · exact h1 hg.2
    simp only [tryBlockRqIssue, if_neg hg', Maps.half, Half.target, Half.blockAct, Half.blockIoAct, if_pos hg,
      Half.futexAct, Half.writes, Half.produces, SpanAct.apply, ite_self, Option.toList_none, List.append_nil]
  · have hg' : m.targetTgid = 0 ∨ h.currentTgid ≠ m.targetTgid := by tauto
    have hsame : m.half (.blockRqIssue h evt) = m := Maps.half_none rfl rfl rfl (if_neg hg) rfl
    rw [hsame]
    simp only [tryBlockRqIssue, if_pos hg']

theorem blockRqComplete_eq_half (m : Maps) (h : Helpers) (evt : TraceEventRawBlockRqCompletion) :
    (tryBlockRqComplete h (some evt) m).2 = m.half (.blockRqComplete h evt) := by
  cases hget : m.blockIoStart.get (packBlockKey evt.dev evt.sector) with
  | none =>
    simp [tryBlockRqComplete, Maps.half, Half.target, Half.blockAct, Half.futexAct, Half.blockIoAct, Half.writes,
      Half.produces, SpanAct.apply, hget, BoundedMap.remove_of_get_none hget]
  | some start =>
    simp [tryBlockRqComplete, Maps.half, Half.target, Half.blockAct, Half.futexAct, Half.blockIoAct, Half.writes,
      Half.produces, SpanAct.apply, hget, Maps.emit_eq, Half.ringFull, blockIoEvent]

theorem Maps.step_eq_halves (m : Maps) (st : Step) : m.step st = st.halves.foldl Maps.half m := by
  match st with
  | .setTargetTgid tgid =>
    simp [Maps.step, Step.halves, Maps.half, Half.target, Half.blockAct, Half.futexAct, Half.blockIoAct,
      Half.writes, Half.produces, SpanAct.apply]
  | .schedSwitch h (some evt) => exact schedSwitch_eq_halves m h evt
  | .futexEnter h (some evt) => exact futexEnter_eq_half m h evt
  | .futexExit h => exact futexExit_eq_half m h
  | .blockRqIssue h (some evt) => exact blockRqIssue_eq_half m h evt
  | .blockRqComplete h (some evt) => exact blockRqComplete_eq_half m h evt
  | .schedSwitch h none =>
    simp only [Maps.step, Step.halves, List.foldl_nil, trySchedSwitch]
    split <;> rfl
  | .futexEnter h none =>
    simp only [Maps.step, Step.halves, List.foldl_nil, tryFutexEnter]
    split <;> rfl
  | .blockRqIssue h none =>
    simp only [Maps.step, Step.halves, List.foldl_nil, tryBlockRqIssue]
    split <;> rfl
  | .blockRqComplete h none => rfl

def halves (steps : List Step) : List Half := steps.flatMap Step.halves

theorem Maps.foldl_step_eq_halves (m : Maps) (steps : List Step) :
    steps.foldl Maps.step m = (halves steps).foldl Maps.half m := by
  induction steps generalizing m with
  | nil => rfl
  | cons st steps ih =>
    rw [List.foldl_cons, ih, Maps.step_eq_halves, halves, halves, List.flatMap_cons, List.foldl_append]

/-- The maps before half `i` of the run of `steps` from load. -/
def mapsAt (n : Sizes) (steps : List Step) (i : Nat) : Maps :=
  stateAt Maps.half (Maps.loaded n) (halves steps) i

theorem Maps.run_eq_halves (n : Sizes) (steps : List Step) :
    Maps.run n steps = mapsAt n steps (halves steps).length := by
  rw [mapsAt, stateAt_length, Maps.run, Maps.foldl_step_eq_halves]

/-! ### Contexts -/

def Helpers.inThread (ts : UInt64) (tgid tid : UInt32) : Helpers := ⟨ts, Words.join tgid tid, none, false⟩

@[simp] theorem Helpers.currentTgid_inThread (ts : UInt64) (tgid tid : UInt32) :
    (Helpers.inThread ts tgid tid).currentTgid = tgid := Words.upper_join tgid tid

@[simp] theorem Helpers.currentTid_inThread (ts : UInt64) (tgid tid : UInt32) :
    (Helpers.inThread ts tgid tid).currentTid = tid := Words.lower_join tgid tid

def noComm : Comm := Vector.replicate taskCommLen 0

def switch (prev : Int32) (prevState : Int64) (next : Int32) : Option TraceEventRawSchedSwitch :=
  some ⟨noComm, prev, prevState, next⟩

def futexArgs (uaddr op : UInt64) : Option TraceEventRawSysEnter := some ⟨#v[uaddr, op, 0, 0, 0, 0]⟩

end Whyslow
