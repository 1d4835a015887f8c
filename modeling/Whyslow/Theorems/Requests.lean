import Whyslow.Theorems.Threads

/-! Block requests and the events of their completions. The block layer knows requests, the programs only know their
    packed `(dev, sector)`: an issue of the target overwrites the entry of its sector and a completion takes it,
    whichever request it is of. A request gets its own event when no other one for its sector interferes. -/

namespace Whyslow
open Runs

/-! ### The block layer -/

/-- A request, with its place on a device and the thread that submits it; `id` tells requests apart. -/
structure Request where
  id : Nat
  dev : UInt32
  sector : UInt64
  tgid : UInt32
  tid : UInt32
  deriving DecidableEq

inductive IoAct where
  | issue (r : Request) (h : Helpers)
  | complete (r : Request) (h : Helpers)
  | other (st : Step)
  deriving DecidableEq

def IoAct.step : IoAct → Step
  | .issue r h => .blockRqIssue h (some ⟨r.dev, r.sector⟩)
  | .complete r h => .blockRqComplete h (some ⟨r.dev, r.sector⟩)
  | .other st => st

/-- The requests issued so far, and those of them that are not completed. -/
structure BlockLayer where
  issued : List Request
  inFlight : List Request

def BlockLayer.empty : BlockLayer := ⟨[], []⟩

/-- A program that is no block tracepoint and does not set the target. -/
def Step.Unrelated : Step → Prop
  | .schedSwitch _ _ | .futexEnter _ _ | .futexExit _ => True
  | .setTargetTgid _ | .blockRqIssue _ _ | .blockRqComplete _ _ => False

/-- A request is issued once, in the context of its thread and on a sector that fits in 32 bits, and completed once
    after that. -/
def BlockLayer.Allows (b : BlockLayer) : IoAct → Prop
  | .issue r h => r ∉ b.issued ∧ r.sector.toNat < 2 ^ 32 ∧ h.currentTgid = r.tgid ∧ h.currentTid = r.tid
  | .complete r _ => r ∈ b.inFlight
  | .other st => st.Unrelated

instance : (st : Step) → Decidable st.Unrelated
  | .schedSwitch _ _ | .futexEnter _ _ | .futexExit _ => isTrue trivial
  | .setTargetTgid _ | .blockRqIssue _ _ | .blockRqComplete _ _ => isFalse id

instance BlockLayer.decidableAllows (b : BlockLayer) : (a : IoAct) → Decidable (b.Allows a)
  | .issue _ _ => inferInstanceAs (Decidable (_ ∧ _ ∧ _ ∧ _))
  | .complete r _ => inferInstanceAs (Decidable (r ∈ b.inFlight))
  | .other st => inferInstanceAs (Decidable st.Unrelated)

def BlockLayer.next (b : BlockLayer) : IoAct → BlockLayer
  | .issue r _ => ⟨r :: b.issued, r :: b.inFlight⟩
  | .complete r _ => { b with inFlight := b.inFlight.filter (· ≠ r) }
  | .other _ => b

def layerAt (acts : List IoAct) (i : Nat) : BlockLayer := stateAt BlockLayer.next .empty acts i

def ioMapsAt (n : Sizes) (T : UInt32) (acts : List IoAct) (i : Nat) : Maps :=
  stateAt Maps.step ((Maps.loaded n).step (.setTargetTgid T)) (acts.map IoAct.step) i

/-- A run of the block layer in which every issue of the target finds a slot and every completion finds room. -/
structure IoRun (n : Sizes) (T : UInt32) (acts : List IoAct) : Prop where
  target : T ≠ 0
  allows : Allowed BlockLayer.next BlockLayer.Allows .empty acts
  slots : ∀ (i : Nat) r h, acts[i]? = some (.issue r h) → r.tgid = T →
    (ioMapsAt n T acts i).blockIoStart.HasSlot (packBlockKey r.dev r.sector)
  ring : ∀ (i : Nat) r h, acts[i]? = some (.complete r h) → h.ringFull = false

def Request.SamePlace (r r' : Request) : Prop := r.dev = r'.dev ∧ r.sector = r'.sector

/-! ### Requests in flight -/

section Layer
variable {acts : List IoAct} {r : Request} {i j p : Nat} {h h' : Helpers}

theorem layerAt_succ {a : IoAct} (ha : acts[i]? = some a) : layerAt acts (i + 1) = (layerAt acts i).next a :=
  stateAt_succ ha

theorem mem_issued_next {b : BlockLayer} (a : IoAct) (hr : r ∈ b.issued) : r ∈ (b.next a).issued := by
  cases a with
  | issue r' h => exact List.mem_cons_of_mem _ hr
  | complete r' h => exact hr
  | other st => exact hr

theorem mem_issued_of_le (hij : i ≤ j) (hr : r ∈ (layerAt acts i).issued) : r ∈ (layerAt acts j).issued := by
  exact stateAt_stays (P := fun b : BlockLayer => r ∈ b.issued) hij hr fun _ _ _ a _ hk => mem_issued_next a hk

theorem mem_issued_of_issue (hij : i < j) (hissue : acts[i]? = some (.issue r h)) : r ∈ (layerAt acts j).issued := by
  refine mem_issued_of_le hij ?_
  rw [layerAt_succ hissue]
  exact List.mem_cons_self

/-- A request that is issued and no longer in flight does not come back. -/
theorem not_mem_inFlight_of_le (hallow : Allowed BlockLayer.next BlockLayer.Allows .empty acts) (hij : i ≤ j)
    (hissued : r ∈ (layerAt acts i).issued) (hr : r ∉ (layerAt acts i).inFlight) : r ∉ (layerAt acts j).inFlight := by
  refine stateAt_stays (P := fun b : BlockLayer => r ∉ b.inFlight) hij hr ?_
  intro k hik _ a ha hk
  cases a with
  | issue r' h =>
    have hfresh := (hallow.at ha).1
    have hne : r ≠ r' := fun he => hfresh (he ▸ mem_issued_of_le hik hissued)
    exact List.not_mem_cons_of_ne_of_not_mem hne hk
  | complete r' h => exact fun hm => hk (List.mem_filter.mp hm).1
  | other st => exact hk

theorem complete_unique (hallow : Allowed BlockLayer.next BlockLayer.Allows .empty acts) (hpi : p < i) (hij : i < j)
    (hissue : acts[p]? = some (.issue r h)) (hi : acts[i]? = some (.complete r h')) :
    ∀ g, acts[j]? ≠ some (.complete r g) := by
  intro g hj
  refine not_mem_inFlight_of_le hallow hij ?_ ?_ (hallow.at hj)
  · exact mem_issued_of_issue (by omega) hissue
  · rw [layerAt_succ hi]
    exact fun hm => by simp [BlockLayer.next] at hm

theorem mem_inFlight (hij : i < j) (hissue : acts[i]? = some (.issue r h))
    (hno : ∀ k, i < k → k < j → ∀ g, acts[k]? ≠ some (.complete r g)) : r ∈ (layerAt acts j).inFlight := by
  refine stateAt_stays (P := fun b : BlockLayer => r ∈ b.inFlight) hij ?_ ?_
  · rw [stateAt_succ hissue]
    exact List.mem_cons_self
  · intro k hik hkj a ha hk
    cases a with
    | issue r' h' => exact List.mem_cons_of_mem _ hk
    | complete r' h' =>
      have hne : r ≠ r' := fun he => hno k hik hkj h' (he ▸ ha)
      exact List.mem_filter.mpr ⟨hk, decide_eq_true hne⟩
    | other st => exact hk

theorem exists_issue (hr : r ∈ (layerAt acts j).inFlight) : ∃ i < j, ∃ h, acts[i]? = some (.issue r h) := by
  induction j with
  | zero => cases hr
  | succ j ih =>
    suffices hor : r ∈ (layerAt acts j).inFlight ∨ ∃ h, acts[j]? = some (.issue r h) by
      rcases hor with hr | ⟨h, hj⟩
      · obtain ⟨i, hi, hissue⟩ := ih hr
        exact ⟨i, by omega, hissue⟩
      · exact ⟨j, by omega, h, hj⟩
    cases ha : acts[j]? with
    | none =>
      rw [layerAt, stateAt_succ_of_none ha] at hr
      exact Or.inl hr
    | some a =>
      rw [layerAt_succ ha] at hr
      cases a with
      | issue r' h =>
        rcases List.mem_cons.mp hr with rfl | hr
        · exact Or.inr ⟨h, rfl⟩
        · exact Or.inl hr
      | complete r' h => exact Or.inl (List.mem_filter.mp hr).1
      | other st => exact Or.inl hr

end Layer

/-! ### The maps -/

def Step.blockIoAct (m : Maps) : Step → SpanAct UInt64 BlockIoStart
  | .blockRqIssue h (some evt) => (Half.blockRqIssue h evt).blockIoAct m
  | .blockRqComplete h (some evt) => (Half.blockRqComplete h evt).blockIoAct m
  | _ => .none

theorem blockIoStart_step (m : Maps) (st : Step) : (m.step st).blockIoStart = (st.blockIoAct m).apply m.blockIoStart := by
  rw [Maps.step_eq_halves]
  match st with
  | .setTargetTgid _ | .schedSwitch _ (some _) | .schedSwitch _ none | .futexEnter _ (some _) | .futexEnter _ none
  | .futexExit _ | .blockRqIssue _ (some _) | .blockRqIssue _ none | .blockRqComplete _ (some _)
  | .blockRqComplete _ none => rfl

def requestSpans : Spans Maps.step UInt64 BlockIoStart := ⟨(·.blockIoStart), fun m st => st.blockIoAct m, blockIoStart_step⟩

section Run
variable {n : Sizes} {T : UInt32} {acts : List IoAct} {r : Request} {i j c : Nat} {h h' : Helpers}

theorem getElem?_steps {a : IoAct} (ha : acts[i]? = some a) : (acts.map IoAct.step)[i]? = some a.step := by
  rw [List.getElem?_map, ha]
  rfl

theorem exists_act {st : Step} (hst : (acts.map IoAct.step)[i]? = some st) : ∃ a, acts[i]? = some a ∧ a.step = st := by
  rw [List.getElem?_map] at hst
  exact Option.map_eq_some_iff.mp hst

theorem IoRun.target_eq (hrun : IoRun n T acts) (i : Nat) : (ioMapsAt n T acts i).targetTgid = T := by
  refine stateAt_induction (P := fun m : Maps => m.targetTgid = T) rfl ?_ i
  intro m st hst hm
  obtain ⟨a, ha, rfl⟩ := List.mem_map.mp hst
  obtain ⟨p, hp⟩ := List.mem_iff_getElem?.mp ha
  have hallow := hrun.allows.at hp
  rw [Maps.step_eq_halves]
  match a with
  | .issue _ _ => exact hm
  | .complete _ _ => exact hm
  | .other (.schedSwitch _ (some _)) => exact hm
  | .other (.schedSwitch _ none) => exact hm
  | .other (.futexEnter _ (some _)) => exact hm
  | .other (.futexEnter _ none) => exact hm
  | .other (.futexExit _) => exact hm

theorem IoRun.act_start (hrun : IoRun n T acts) {st : Step} (hst : (acts.map IoAct.step)[i]? = some st) {k : UInt64}
    {v : BlockIoStart} (hact : st.blockIoAct (ioMapsAt n T acts i) = .start k v) :
    ∃ r h, acts[i]? = some (.issue r h) ∧ r.tgid = T ∧ k = packBlockKey r.dev r.sector := by
  obtain ⟨a, ha, rfl⟩ := exists_act hst
  have hallow := hrun.allows.at ha
  match a with
  | .issue r h =>
    obtain ⟨h', evt, he, -, hg, hk, -⟩ := blockIoAct_start (a := .blockRqIssue h ⟨r.dev, r.sector⟩) hact
    cases he
    exact ⟨r, h, ha, hallow.2.2.1.symm.trans (hg.trans (hrun.target_eq i)), hk⟩
  | .complete r h => cases hact
  | .other (.schedSwitch _ _) => cases hact
  | .other (.futexEnter _ _) => cases hact
  | .other (.futexExit _) => cases hact

theorem IoRun.act_complete (hrun : IoRun n T acts) {st : Step} (hst : (acts.map IoAct.step)[i]? = some st) {k : UInt64}
    (hact : st.blockIoAct (ioMapsAt n T acts i) = .complete k) :
    ∃ r h, acts[i]? = some (.complete r h) ∧ k = packBlockKey r.dev r.sector := by
  obtain ⟨a, ha, rfl⟩ := exists_act hst
  have hallow := hrun.allows.at ha
  match a with
  | .issue r h => cases (blockIoAct_complete (a := .blockRqIssue h ⟨r.dev, r.sector⟩)).mp hact
  | .complete r h =>
    cases hact
    exact ⟨r, h, ha, rfl⟩
  | .other (.schedSwitch _ _) => cases hact
  | .other (.futexEnter _ _) => cases hact
  | .other (.futexExit _) => cases hact

def Request.start (r : Request) (h : Helpers) : BlockIoStart := ⟨h.ktimeGetNs, r.tgid, r.tid, h.comm⟩

theorem IoRun.issue_opens (hrun : IoRun n T acts) (hissue : acts[i]? = some (.issue r h)) (hr : r.tgid = T) :
    requestSpans.Opens (ioMapsAt n T acts i) (IoAct.issue r h).step (packBlockKey r.dev r.sector) (r.start h) := by
  obtain ⟨-, -, htgid, htid⟩ := hrun.allows.at hissue
  refine ⟨?_, hrun.slots i r h hissue hr⟩
  have hg : (ioMapsAt n T acts i).targetTgid ≠ 0 ∧ h.currentTgid = (ioMapsAt n T acts i).targetTgid := by
    rw [hrun.target_eq i]
    exact ⟨hrun.target, htgid.trans hr⟩
  exact (if_pos hg).trans (by rw [Request.start, htgid, htid])

theorem IoRun.samePlace (hrun : IoRun n T acts) {r' : Request} (hissue : acts[i]? = some (.issue r h))
    (hissue' : acts[j]? = some (.issue r' h'))
    (hkey : packBlockKey r.dev r.sector = packBlockKey r'.dev r'.sector) : r.SamePlace r' := by
  obtain ⟨-, hlt, -⟩ := hrun.allows.at hissue
  obtain ⟨-, hlt', -⟩ := hrun.allows.at hissue'
  obtain ⟨hdev, hsector⟩ := packBlockKey_eq_iff.mp hkey
  rw [Nat.mod_eq_of_lt hlt, Nat.mod_eq_of_lt hlt'] at hsector
  exact ⟨hdev, UInt64.toNat_inj.mp hsector⟩

/-! ### Own events -/

/-- While `r` is in flight, from act `i` to act `c`, the target issues no other request for its place and no other
    request for it completes. -/
def Undisturbed (T : UInt32) (acts : List IoAct) (r : Request) (i c : Nat) : Prop :=
  ∀ j, i < j → j < c →
    (∀ r' g, acts[j]? = some (.issue r' g) → r'.tgid = T → ¬r'.SamePlace r) ∧
    (∀ r' g, acts[j]? = some (.complete r' g) → r' ≠ r → ¬r'.SamePlace r)

/-- A request of the target that is undisturbed until its completion still has its entry then. -/
theorem IoRun.get_of_undisturbed (hrun : IoRun n T acts) (hic : i < c) (hissue : acts[i]? = some (.issue r h))
    (hc : acts[c]? = some (.complete r h')) (hr : r.tgid = T) (hquiet : Undisturbed T acts r i c) :
    (ioMapsAt n T acts c).blockIoStart.get (packBlockKey r.dev r.sector) = some (r.start h) := by
  refine (requestSpans.get_eq_some_iff (fun _ => rfl) c).mpr
    ⟨i, hic, _, getElem?_steps hissue, hrun.issue_opens hissue hr, fun j hij hjc st hst => ⟨fun hact => ?_, ?_⟩⟩
  · obtain ⟨r', g, hj, hkey⟩ := hrun.act_complete hst hact
    have hne : r' ≠ r := fun he => complete_unique hrun.allows hij hjc hissue (he ▸ hj) h' hc
    obtain ⟨q, -, g', hissue'⟩ := exists_issue (hrun.allows.at hj)
    exact (hquiet j hij hjc).2 r' g hj hne (hrun.samePlace hissue' hissue hkey.symm)
  · intro w hopen
    obtain ⟨r', g, hj, hr', hkey⟩ := hrun.act_start hst hopen.1
    exact (hquiet j hij hjc).1 r' g hj hr' (hrun.samePlace hj hissue hkey.symm)

/-- With no request of the target in flight for the place of a request, there is no entry for it. -/
theorem IoRun.get_of_no_target (hrun : IoRun n T acts) (hc : acts[c]? = some (.complete r h'))
    (hnone : ∀ r' ∈ (layerAt acts c).inFlight, r'.tgid = T → ¬r'.SamePlace r) :
    (ioMapsAt n T acts c).blockIoStart.get (packBlockKey r.dev r.sector) = none := by
  refine Option.eq_none_iff_forall_ne_some.mpr ?_
  intro v hv
  obtain ⟨j, hjc, st, hst, hopen, hrest⟩ := (requestSpans.get_eq_some_iff (fun _ => rfl) c).mp hv
  obtain ⟨r', g, hj, hr', hkey⟩ := hrun.act_start hst hopen.1
  obtain ⟨q, -, g', hissue⟩ := exists_issue (hrun.allows.at hc)
  -- The request that started the entry is in flight: its completion would have taken the entry.
  refine hnone r' (mem_inFlight hjc hj fun k hjk hkc g'' hk => ?_) hr' (hrun.samePlace hj hissue hkey.symm)
  refine (hrest k hjk hkc _ (getElem?_steps hk)).1 ?_
  rw [hkey]
  rfl

end Run

theorem events_complete (m : Maps) (h : Helpers) (evt : TraceEventRawBlockRqCompletion) (hroom : h.ringFull = false) :
    (m.step (.blockRqComplete h (some evt))).events =
      m.events ++ ((m.blockIoStart.get (packBlockKey evt.dev evt.sector)).map (blockIoEvent h evt)).toList := by
  rw [Maps.step_eq_halves]
  show m.events ++ (Half.writes m (.blockRqComplete h evt)).toList = _
  have hfull : (Half.blockRqComplete h evt).ringFull = false := hroom
  rw [Half.writes, hfull]
  rfl

/-- In every run of the block layer: the completion of a request of the target that was undisturbed writes one event,
    with the thread and the latency of that request; the completion of another process's request, with none of the
    target in flight for its place, writes none. -/
theorem completion_event_own (n : Sizes) {T : UInt32} {acts : List IoAct} (hrun : IoRun n T acts) {c : Nat}
    {r : Request} {h' : Helpers} (hc : acts[c]? = some (.complete r h')) :
    ∃ i < c, ∃ h, acts[i]? = some (.issue r h) ∧
      (r.tgid = T → Undisturbed T acts r i c → ∃ ev,
        (ioMapsAt n T acts (c + 1)).events = (ioMapsAt n T acts c).events ++ [ev] ∧ ev.eventType = eventBlockIo ∧
        ev.pid = r.tgid ∧ ev.tid = r.tid ∧ ev.key = packBlockKey r.dev r.sector ∧ ev.timestampNs = h'.ktimeGetNs ∧
        ev.durationNs = Words.saturatingSub h'.ktimeGetNs h.ktimeGetNs) ∧
      (r.tgid ≠ T → (∀ r' ∈ (layerAt acts c).inFlight, r'.tgid = T → ¬r'.SamePlace r) →
        (ioMapsAt n T acts (c + 1)).events = (ioMapsAt n T acts c).events) := by
  obtain ⟨i, hic, h, hissue⟩ := exists_issue (hrun.allows.at hc)
  have hevents : (ioMapsAt n T acts (c + 1)).events = (ioMapsAt n T acts c).events ++
      (((ioMapsAt n T acts c).blockIoStart.get (packBlockKey r.dev r.sector)).map
        (blockIoEvent h' ⟨r.dev, r.sector⟩)).toList := by
    rw [ioMapsAt, stateAt_succ (getElem?_steps hc)]
    exact events_complete _ h' ⟨r.dev, r.sector⟩ (hrun.ring c r h' hc)
  refine ⟨i, hic, h, hissue, ?_, ?_⟩
  · intro hr hquiet
    rw [hevents, hrun.get_of_undisturbed hic hissue hc hr hquiet]
    exact ⟨_, rfl, rfl, rfl, rfl, rfl, rfl, rfl⟩
  · intro _ hnone
    rw [hevents, hrun.get_of_no_target hc hnone]
    exact List.append_nil _

/-- Requests of the threads 8 and 9 of the target 7 for one sector. -/
def firstRequest : Request := ⟨1, 8, 2048, 7, 8⟩
def secondRequest : Request := ⟨2, 8, 2048, 7, 9⟩

def serialRun : List IoAct :=
  [.issue firstRequest (.inThread 10 7 8), .complete firstRequest (.inThread 30 0 0),
    .issue secondRequest (.inThread 40 7 9), .complete secondRequest (.inThread 50 0 0)]

def overlappingRun : List IoAct :=
  [.issue firstRequest (.inThread 10 7 8), .issue secondRequest (.inThread 20 7 9),
    .complete firstRequest (.inThread 30 0 0), .complete secondRequest (.inThread 40 0 0)]

theorem ioRun_serialRun : IoRun Sizes.source 7 serialRun where
  target := by decide
  allows := by decide
  slots i r h hi _ := by
    match i, hi with
    | 0, hi => cases hi; decide
    | 2, hi => cases hi; decide
    | 3, hi => cases hi
  ring i r h hi := by
    match i, hi with
    | 1, hi => cases hi; rfl
    | 3, hi => cases hi; rfl

theorem completion_event_own_serialRun : ∃ ev, (ioMapsAt Sizes.source 7 serialRun 4).events =
    (ioMapsAt Sizes.source 7 serialRun 3).events ++ [ev] ∧ ev.tid = 9 ∧ ev.durationNs = 10 := by
  obtain ⟨i, hi, h, hissue, hown, -⟩ := completion_event_own Sizes.source ioRun_serialRun (c := 3) rfl
  obtain rfl : i = 2 := by
    match i, hissue with
    | 2, _ => rfl
  cases hissue
  obtain ⟨ev, hev, -, -, htid, -, -, hdur⟩ := hown rfl fun j h1 h2 => by omega
  exact ⟨ev, hev, htid, hdur⟩

/-- In `overlappingRun` the completion of the first request writes the thread and the latency of the second, and the
    completion of the second writes nothing. -/
theorem overlappingRun_events : IoRun Sizes.source 7 overlappingRun ∧
    (ioMapsAt Sizes.source 7 overlappingRun 2).events = [] ∧
    (ioMapsAt Sizes.source 7 overlappingRun 3).events =
      [⟨30, 10, packBlockKey 8 2048, 7, secondRequest.tid, eventBlockIo, noComm⟩] ∧
    (ioMapsAt Sizes.source 7 overlappingRun 4).events = (ioMapsAt Sizes.source 7 overlappingRun 3).events := by
  refine ⟨⟨by decide, by decide, ?_, ?_⟩, by decide, by decide, by decide⟩
  · intro i r h hi _
    match i, hi with
    | 0, hi => cases hi; decide
    | 1, hi => cases hi; decide
    | 2, hi => cases hi
    | 3, hi => cases hi
  · intro i r h hi
    match i, hi with
    | 2, hi => cases hi; rfl
    | 3, hi => cases hi; rfl

end Whyslow
