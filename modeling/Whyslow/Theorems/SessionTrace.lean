import Whyslow.Theorems.Session

/-! What is in the file. Of a session the maps see the calls of `set_target_tgid` and the programs that are attached
    (`Session.view`), and run as they do on their own. The ring buffer carries the events they write in their order, and
    the file holds the first of them, with at least those that were committed at any time before the drain returned. -/

namespace Whyslow
open Runs

/-- What the maps see of a step. -/
def Session.view (s : Session) : SessionAct → Option Step
  | .setTargetTgid .ok => some (.setTargetTgid s.pid)
  | .tracepoint st => if ∃ prog ∈ s.attached, st.program? = some prog then some st else none
  | _ => none

/-- The steps of the maps in a session. -/
def Cli.probes (cli : Cli) (s : Session) (l : List SessionAct) : List Step :=
  project (Session.step cli) Session.view s l

def sessionAt (cli : Cli) (n : Sizes) (target : Target) (l : List SessionAct) (i : Nat) : Session :=
  stateAt (Session.step cli) (cli.start n target) l i

section Steps
variable {cli : Cli} {s : Session} {a : SessionAct}

/-- What a step does to the maps and to the ring buffer: nothing; a program runs or the target is set; or a record is
    committed or the drain goes on. -/
theorem Session.step_cases (ha : s.Allows cli a) :
    (s.view a = none ∧ (s.step cli a).maps = s.maps ∧ (s.step cli a).drain = s.drain) ∨
    (∃ st, s.view a = some st ∧ (s.step cli a).maps = s.maps.step st ∧
      (s.step cli a).drain =
        if (s.maps.step st).events.length = s.maps.events.length then s.drain else s.drain.step .reserve) ∨
    (∃ i ev padding, s.view a = none ∧ s.maps.events[i]? = some ev ∧ s.drain.ring.records[i]? = some none ∧
      (s.step cli a).maps = s.maps ∧ (s.step cli a).drain = s.drain.step (.commit i (ev.bytes padding))) ∨
    (∃ b, s.view a = none ∧ s.pc = .drain ∧ s.drain.Allows b ∧
      (b = .next ∨ b = .decode ∨ b = .poll ∨ ∃ stop, b = .shouldStop stop ∧ a = .shouldStop stop) ∧
      (s.step cli a).maps = s.maps ∧ (s.step cli a).drain = s.drain.step b ∧
      (s.step cli a).pc = if (s.drain.step b).pc = .returned then .writeTo else s.pc) := by
  cases a with
  | geteuid euid =>
    refine Or.inl ⟨rfl, ?_⟩
    simp only [Session.step]
    split <;> exact ⟨rfl, rfl⟩
  | spawn result =>
    refine Or.inl ⟨rfl, ?_⟩
    cases result with
    | ok pid => exact ⟨rfl, rfl⟩
    | error err =>
      simp only [Session.step]
      cases cli.command <;> exact ⟨rfl, rfl⟩
  | waitpid status =>
    refine Or.inl ⟨rfl, ?_⟩
    cases status <;> simp [Session.step]
  | kill ok => exact Or.inl ⟨rfl, by simp [Session.step], by simp [Session.step]⟩
  | load result =>
    refine Or.inl ⟨rfl, ?_⟩
    cases result <;> exact ⟨rfl, rfl⟩
  | attach result =>
    refine Or.inl ⟨rfl, ?_⟩
    simp only [Session.step]
    split
    · split
      · cases result <;> simp
      · exact ⟨rfl, rfl⟩
    · exact ⟨rfl, rfl⟩
  | setTargetTgid result =>
    cases result with
    | ok => exact Or.inr (Or.inl ⟨_, rfl, rfl, (if_pos rfl).symm⟩)
    | missing | failed => exact Or.inl ⟨rfl, rfl, rfl⟩
  | captureAnchor realtime monotonic => exact Or.inl ⟨rfl, rfl, rfl⟩
  | detach result =>
    refine Or.inl ⟨rfl, ?_⟩
    cases result <;> exact ⟨rfl, rfl⟩
  | installHandler => exact Or.inl ⟨rfl, rfl, rfl⟩
  | setDeadline now => exact Or.inl ⟨rfl, by simp [Session.step], by simp [Session.step]⟩
  | openRing result => exact Or.inl ⟨rfl, by simp [Session.step], by simp [Session.step]⟩
  | next => exact Or.inr (Or.inr (Or.inr ⟨_, rfl, ha.1, ha.2, Or.inl rfl, rfl, rfl, rfl⟩))
  | decode => exact Or.inr (Or.inr (Or.inr ⟨_, rfl, ha.1, ha.2, Or.inr (Or.inl rfl), rfl, rfl, rfl⟩))
  | shouldStop stop =>
    refine Or.inr (Or.inr (Or.inr ⟨_, rfl, ha.1, ha.2.1, Or.inr (Or.inr (Or.inr ⟨stop, rfl, rfl⟩)), ?_⟩))
    simp only [Session.step]
    cases cli.command with
    | run command => cases stop <;> exact ⟨rfl, rfl, rfl⟩
    | attach pid secs => exact ⟨rfl, rfl, rfl⟩
  | poll => exact Or.inr (Or.inr (Or.inr ⟨_, rfl, ha.1, ha.2, Or.inr (Or.inr (Or.inl rfl)), rfl, rfl, rfl⟩))
  | writeTo result =>
    refine Or.inl ⟨rfl, ?_⟩
    cases result <;> exact ⟨rfl, rfl⟩
  | trap | exit | reaped | released | sigint | deadline => exact Or.inl ⟨rfl, rfl, rfl⟩
  | tracepoint st =>
    simp only [Session.step, Session.fire, Session.view]
    split
    · exact Or.inr (Or.inl ⟨st, rfl, rfl, rfl⟩)
    · exact Or.inl ⟨rfl, rfl, rfl⟩
  | commit i padding =>
    simp only [Session.step]
    cases hev : s.maps.events[i]? with
    | some ev => exact Or.inr (Or.inr (Or.inl ⟨i, ev, padding, rfl, hev, ha, rfl, rfl⟩))
    | none => exact Or.inl ⟨rfl, rfl, rfl⟩

theorem Session.maps_step (ha : s.Allows cli a) :
    (s.step cli a).maps = (s.view a).elim s.maps (Maps.step s.maps) := by
  rcases Session.step_cases ha with ⟨hview, hmaps, -⟩ | ⟨st, hview, hmaps, -⟩ | ⟨_, _, _, hview, -, -, hmaps, -⟩ |
    ⟨_, hview, -, -, -, hmaps, -⟩ <;> rw [hview, hmaps] <;> rfl

end Steps

/-- The maps run on what they see. -/
theorem sessionAt_maps {cli : Cli} {n : Sizes} {target : Target} {l : List SessionAct}
    (hrun : Allowed (Session.step cli) (Session.Allows cli) (cli.start n target) l) (i : Nat) :
    (sessionAt cli n target l i).maps = Maps.run n (cli.probes (cli.start n target) (l.take i)) :=
  (hrun.take i).foldl_project fun _ _ ha => Session.maps_step ha

/-! ### Records and events -/

/-- The records are those of the events, committed or not. -/
def RecordsOf (records : List (Option (List UInt8))) (events : List Event) : Prop :=
  List.Forall₂ (fun r ev => ∀ item, r = some item → ∃ padding, item = Event.bytes ev padding) records events

namespace RecordsOf
variable {records : List (Option (List UInt8))} {events : List Event}

theorem length_eq (h : RecordsOf records events) : records.length = events.length := List.Forall₂.length_eq h

theorem reserve (h : RecordsOf records events) (ev : Event) : RecordsOf (records ++ [none]) (events ++ [ev]) :=
  List.rel_append h (List.Forall₂.cons (fun _ hitem => by cases hitem) List.Forall₂.nil)

theorem commit (h : RecordsOf records events) {i : Nat} {ev : Event} (hev : events[i]? = some ev)
    (padding : Vector UInt8 4) : RecordsOf (records.set i (some (ev.bytes padding))) events := by
  induction h generalizing i with
  | nil => exact List.Forall₂.nil
  | cons hr hrest ih =>
    cases i with
    | zero =>
      obtain rfl := Option.some.inj hev
      refine List.Forall₂.cons ?_ hrest
      rintro item ⟨⟩
      exact ⟨padding, rfl⟩
    | succ i => exact List.Forall₂.cons hr (ih hev)

/-- The committed records at the front decode to the events at the front. -/
theorem decoded (h : RecordsOf records events) {k : Nat} (hk : k ≤ (committed records).length) :
    (((committed records).take k).filterMap fun item => (decodeEvent item).map TraceEvent.ofEvent) =
      (events.take k).map TraceEvent.ofEvent := by
  induction h generalizing k with
  | nil => simp [committed]
  | @cons r ev records events hr hrest ih =>
    cases k with
    | zero => rfl
    | succ k =>
      cases r with
      | none => simp [committed] at hk
      | some item =>
        obtain ⟨padding, rfl⟩ := hr item rfl
        have hrest := ih (Nat.le_of_succ_le_succ hk)
        simp only [committed, List.take_succ_cons, List.filterMap_cons, decodeEvent_bytes, Option.map_some, List.map_cons,
          hrest]

end RecordsOf

/-- The ring buffer carries what the maps wrote, and the drain has taken the first of it. -/
structure Session.Tape (s : Session) : Prop where
  carries : RecordsOf s.drain.ring.records s.maps.events
  consumed : Consumed s.drain

namespace Session.Tape
variable {cli : Cli} {s : Session} {a : SessionAct}

theorem start (cli : Cli) (n : Sizes) (target : Target) : (cli.start n target).Tape where
  carries := List.Forall₂.nil
  consumed := Consumed.start []

theorem events_eq (h : s.Tape) : s.drain.events = (s.maps.events.take s.drain.ring.consumed).map TraceEvent.ofEvent := by
  rw [h.consumed.events, h.carries.decoded h.consumed.le]

theorem records_step {d : Drain} {b : DrainAct} (hreserve : b ≠ .reserve) (hcommit : ∀ i item, b ≠ .commit i item) :
    (d.step b).ring.records = d.ring.records := by
  cases b with
  | reserve => exact absurd rfl hreserve
  | commit i item => exact absurd rfl (hcommit i item)
  | next =>
    simp only [Drain.step]
    split
    · split <;> rfl
    · rfl
  | decode =>
    simp only [Drain.step]
    split <;> rfl
  | shouldStop stop => rfl
  | poll => rfl

theorem step (h : s.Tape) (ha : s.Allows cli a) : (s.step cli a).Tape := by
  rcases Session.step_cases ha with ⟨-, hmaps, hdrain⟩ | ⟨st, -, hmaps, hdrain⟩ |
    ⟨i, ev, padding, -, hev, hnone, hmaps, hdrain⟩ | ⟨b, -, -, hb, hkind, hmaps, hdrain, -⟩
  · exact ⟨by rw [hmaps, hdrain]; exact h.carries, by rw [hdrain]; exact h.consumed⟩
  · obtain ⟨ev, hev⟩ := Maps.events_step s.maps st
    cases ev with
    | none =>
      have hsame : (s.maps.step st).events = s.maps.events := hev.trans (List.append_nil _)
      rw [hsame, if_pos rfl] at hdrain
      refine ⟨?_, by rw [hdrain]; exact h.consumed⟩
      rw [hmaps, hsame, hdrain]
      exact h.carries
    | some ev =>
      have hmore : (s.maps.step st).events = s.maps.events ++ [ev] := hev
      rw [if_neg (by simp [hmore])] at hdrain
      refine ⟨?_, by rw [hdrain]; exact h.consumed.step trivial⟩
      rw [hmaps, hmore, hdrain]
      exact h.carries.reserve ev
  · refine ⟨?_, by rw [hdrain]; exact h.consumed.step hnone⟩
    rw [hmaps, hdrain]
    exact h.carries.commit hev padding
  · refine ⟨?_, by rw [hdrain]; exact h.consumed.step hb⟩
    have hrecords : (s.drain.step b).ring.records = s.drain.ring.records := by
      rcases hkind with rfl | rfl | rfl | ⟨stop, rfl, -⟩ <;> exact records_step (by simp) (by simp)
    rw [hmaps, hdrain, hrecords]
    exact h.carries

end Session.Tape

/-! ### The file -/

section File
variable {cli : Cli} {s : Session} {a : SessionAct}

/-- The drain has returned to the command. -/
def Session.IsDrained (s : Session) : Prop := s.pc = .writeTo ∨ s.pc = .done

/-- The drain takes no step once the command is past it. -/
theorem Session.drain_step_of_ne (ha : s.Allows cli a) (hpc : s.pc ≠ .drain) :
    (s.step cli a).drain.pc = s.drain.pc ∧ (s.step cli a).drain.events = s.drain.events := by
  rcases Session.step_cases ha with ⟨-, -, hdrain⟩ | ⟨st, -, -, hdrain⟩ | ⟨_, _, _, -, -, -, -, hdrain⟩ |
    ⟨_, -, hdrain, -⟩
  · rw [hdrain]
    exact ⟨rfl, rfl⟩
  · rw [hdrain]
    split <;> exact ⟨rfl, rfl⟩
  · rw [hdrain]
    exact ⟨rfl, rfl⟩
  · exact absurd hdrain hpc

/-- The file holds what the drain returned, and is there when the command is done. -/
structure Session.Filed (s : Session) : Prop where
  returned : s.IsDrained → s.drain.pc = .returned
  file : s.file = if s.pc = .done then some ⟨s.anchors.1, s.anchors.2, s.drain.events⟩ else none

theorem Session.Filed.start (cli : Cli) (n : Sizes) (target : Target) : (cli.start n target).Filed where
  returned h := by simp [Session.IsDrained, Cli.start] at h
  file := rfl

theorem Session.Filed.step (h : s.Filed) (ha : s.Allows cli a) : (s.step cli a).Filed := by
  by_cases hwrite : ∃ result, a = .writeTo (.ok result)
  · obtain ⟨result, rfl⟩ := hwrite
    exact ⟨fun _ => h.returned (Or.inl ha), rfl⟩
  have hfile : (s.step cli a).file = s.file := Session.file_step (not_exists.mp hwrite)
  rcases Session.pc_cases ha with hpc | ⟨hover, err, hpc⟩ | hcall
  · by_cases hdrain : s.pc = .drain
    · refine ⟨?_, ?_⟩
      · rintro (h' | h') <;> rw [hpc, hdrain] at h' <;> cases h'
      · rw [hfile, h.file, hpc, if_neg (by simp [hdrain]), if_neg (by simp [hdrain])]
    · obtain ⟨hsame, hevents⟩ := Session.drain_step_of_ne ha hdrain
      refine ⟨?_, ?_⟩
      · intro hd
        rw [hsame]
        exact h.returned (by rwa [Session.IsDrained, hpc] at hd)
      · rw [hfile, h.file, hpc, hevents]
        by_cases hdone : s.pc = .done
        · have hanchors : (s.step cli a).anchors = s.anchors := by
            refine Session.anchors_step ?_
            rintro r m rfl
            cases hdone.symm.trans ha
          rw [hanchors]
        · rw [if_neg hdone, if_neg hdone]
  · refine ⟨?_, ?_⟩
    · rintro (h' | h') <;> rw [hpc] at h' <;> cases h'
    · have hdone : s.pc ≠ .done := fun hdone => by
        rw [hdone] at hover
        cases hover
      rw [hfile, h.file, hpc, if_neg hdone, if_neg (by simp)]
  · have hcases : (a = .next ∧ s.pc = .drain ∧ (s.step cli a).pc = .writeTo) ∨
        (s.pc ≠ .done ∧ (s.step cli a).pc ≠ .writeTo ∧ (s.step cli a).pc ≠ .done) := by
      generalize s.pc = pc, (s.step cli a).pc = pc' at hcall ⊢
      cases hcall with
      | drain => exact Or.inl ⟨rfl, rfl, rfl⟩
      | writeTo => exact absurd ⟨_, rfl⟩ hwrite
      | requireRoot | captureAnchor => exact Or.inr (by cases cli.command <;> simp)
      | _ => exact Or.inr (by simp)
    rcases hcases with ⟨rfl, hdrain, hpc⟩ | ⟨hdone, hpc⟩
    · refine ⟨fun _ => ?_, ?_⟩
      · by_contra hret
        cases hdrain.symm.trans ((Session.consume_pc hret).symm.trans hpc)
      · rw [hfile, h.file, hpc, hdrain, if_neg (by simp), if_neg (by simp)]
    · refine ⟨fun hd => absurd hd (not_or.mpr hpc), ?_⟩
      rw [hfile, h.file, if_neg hdone, if_neg hpc.2]

end File

/-! ### What is not lost -/

/-- At least `c` records are committed from the first on, and a drain that has returned has taken them. -/
structure Drain.Reaches (d : Drain) (c : Nat) : Prop where
  committed : c ≤ (committed d.ring.records).length
  returned : d.pc = .returned → c ≤ d.ring.consumed

theorem Drain.Reaches.step {d : Drain} {b : DrainAct} {c : Nat} (h : d.Reaches c) (hc : Consumed d) (hb : d.Allows b) :
    (d.step b).Reaches c := by
  refine ⟨h.committed.trans (committed_step hb).length_le, ?_⟩
  intro hret
  rcases returned_cases hret with hbefore | ⟨rfl, hpc, hnone, -⟩
  · have hsame : (d.step b).ring.consumed = d.ring.consumed := by
      cases b with
      | reserve | commit => rfl
      | next | decode => simp [Drain.step, hbefore]
      | shouldStop stop => rfl
      | poll => rfl
    rw [hsame]
    exact h.returned hbefore
  · have hend : (Whyslow.committed d.ring.records)[d.ring.consumed]? = none := hc.next_eq.trans hnone
    have hsame : (d.step .next).ring.consumed = d.ring.consumed := by simp [Drain.step, hpc, hnone]
    rw [hsame]
    exact h.committed.trans (List.getElem?_eq_none_iff.mp hend)

section Lost
variable {cli : Cli} {s : Session} {a : SessionAct}

/-- What the session does to the drain is a step of it or none. -/
theorem Session.drain_cases (ha : s.Allows cli a) :
    (s.step cli a).drain = s.drain ∨ ∃ b, s.drain.Allows b ∧ (s.step cli a).drain = s.drain.step b := by
  rcases Session.step_cases ha with ⟨-, -, hdrain⟩ | ⟨st, -, -, hdrain⟩ | ⟨i, ev, padding, -, -, hnone, -, hdrain⟩ |
    ⟨b, -, -, hb, -, -, hdrain, -⟩
  · exact Or.inl hdrain
  · split at hdrain
    · exact Or.inl hdrain
    · exact Or.inr ⟨.reserve, trivial, hdrain⟩
  · exact Or.inr ⟨.commit i (ev.bytes padding), hnone, hdrain⟩
  · exact Or.inr ⟨b, hb, hdrain⟩

theorem Session.reaches_step {c : Nat} (h : s.drain.Reaches c) (ht : s.Tape) (ha : s.Allows cli a) :
    (s.step cli a).drain.Reaches c := by
  rcases Session.drain_cases ha with hdrain | ⟨b, hb, hdrain⟩
  · rw [hdrain]
    exact h
  · rw [hdrain]
    exact h.step ht.consumed hb

/-- A committed record stays. -/
theorem Drain.record_step {d : Drain} {b : DrainAct} (hb : d.Allows b) {i : Nat} {item : List UInt8}
    (h : d.ring.records[i]? = some (some item)) : (d.step b).ring.records[i]? = some (some item) := by
  cases b with
  | reserve =>
    show (d.ring.records ++ [none])[i]? = _
    rw [List.getElem?_append_left (List.getElem?_eq_some_iff.mp h).1]
    exact h
  | commit k bytes =>
    show (d.ring.records.set k (some bytes))[i]? = _
    have hne : k ≠ i := by
      rintro rfl
      cases h.symm.trans hb
    rw [List.getElem?_set_ne hne]
    exact h
  | next => rw [Session.Tape.records_step (by simp) (by simp)]; exact h
  | decode => rw [Session.Tape.records_step (by simp) (by simp)]; exact h
  | shouldStop stop => exact h
  | poll => exact h

end Lost

/-! ### Sessions -/

section Run
variable {cli : Cli} {n : Sizes} {target : Target} {l : List SessionAct}
  (hrun : Allowed (Session.step cli) (Session.Allows cli) (cli.start n target) l)
include hrun

theorem tape_at (i : Nat) : (sessionAt cli n target l i).Tape :=
  hrun.induction (Session.Tape.start cli n target) (fun _ _ hs ha => hs.step ha) i

theorem filed_at (i : Nat) : (sessionAt cli n target l i).Filed :=
  hrun.induction (Session.Filed.start cli n target) (fun _ _ hs ha => hs.step ha) i

theorem reaches_at {i j c : Nat} (hij : i ≤ j) (h : (sessionAt cli n target l i).drain.Reaches c) :
    (sessionAt cli n target l j).drain.Reaches c :=
  stateAt_stays (P := fun s : Session => s.drain.Reaches c) hij h fun k _ _ _ ha hk =>
    Session.reaches_step hk (tape_at hrun k) (hrun.at ha)

theorem record_at {i j k : Nat} (hij : i ≤ j) {item : List UInt8}
    (h : (sessionAt cli n target l i).drain.ring.records[k]? = some (some item)) :
    (sessionAt cli n target l j).drain.ring.records[k]? = some (some item) := by
  refine stateAt_stays (P := fun s : Session => s.drain.ring.records[k]? = some (some item)) hij h ?_
  intro m _ _ a ha hm
  rcases Session.drain_cases (hrun.at ha) with hdrain | ⟨b, hb, hdrain⟩
  · rw [hdrain]
    exact hm
  · rw [hdrain]
    exact Drain.record_step hb hm

theorem events_prefix_at {i j : Nat} (hij : i ≤ j) :
    (sessionAt cli n target l i).maps.events <+: (sessionAt cli n target l j).maps.events := by
  refine stateAt_stays (P := fun s : Session => (sessionAt cli n target l i).maps.events <+: s.maps.events) hij
    List.prefix_rfl ?_
  intro k _ _ a ha hk
  rw [Session.maps_step (hrun.at ha)]
  cases hview : (stateAt (Session.step cli) (cli.start n target) l k).view a with
  | none => exact hk
  | some st =>
    obtain ⟨ev, hev⟩ := Maps.events_step (stateAt (Session.step cli) (cli.start n target) l k).maps st
    exact hk.trans (hev ▸ List.prefix_append _ _)

theorem done_of_file {trace : TraceFile} {i : Nat} (hfile : (sessionAt cli n target l i).file = some trace) :
    (sessionAt cli n target l i).pc = .done := by
  rw [(filed_at hrun i).file] at hfile
  by_contra hpc
  rw [if_neg hpc] at hfile
  cases hfile

theorem returned_of_file {trace : TraceFile} {i : Nat} (hfile : (sessionAt cli n target l i).file = some trace) :
    (sessionAt cli n target l i).drain.pc = .returned ∧
      trace = ⟨(sessionAt cli n target l i).anchors.1, (sessionAt cli n target l i).anchors.2,
        (sessionAt cli n target l i).drain.events⟩ := by
  have hdone := done_of_file hrun hfile
  rw [(filed_at hrun i).file, if_pos hdone] at hfile
  exact ⟨(filed_at hrun i).returned (Or.inr hdone), (Option.some.inj hfile).symm⟩

theorem exists_take_of_file {trace : TraceFile} (hfile : (sessionAt cli n target l l.length).file = some trace) :
    ∃ k, trace.events = ((sessionAt cli n target l l.length).maps.events.take k).map TraceEvent.ofEvent ∧
      ∀ j c, (sessionAt cli n target l j).drain.pc ≠ .returned →
        c ≤ (committed (sessionAt cli n target l j).drain.ring.records).length → c ≤ k := by
  obtain ⟨hret, htrace⟩ := returned_of_file hrun hfile
  refine ⟨(sessionAt cli n target l l.length).drain.ring.consumed, ?_, ?_⟩
  · rw [htrace]
    exact (tape_at hrun l.length).events_eq
  · intro j c hpc hc
    rcases Nat.lt_or_ge l.length j with hj | hj
    · have hsame : sessionAt cli n target l j = sessionAt cli n target l l.length :=
        (stateAt_of_length_le hj.le).trans (stateAt_of_length_le le_rfl).symm
      rw [hsame] at hpc
      exact absurd hret hpc
    · exact (reaches_at hrun hj ⟨hc, fun h => absurd h hpc⟩).returned hret

/-- The file of a session, whichever steps the kernel takes in between, holds the first of the events that the attached
    programs write from the maps they share, in the order they were written in and each of them once. Those that were
    committed, with all before them, at any time before the drain returned are among them. -/
theorem session_file {trace : TraceFile} (hfile : (sessionAt cli n target l l.length).file = some trace) :
    (∃ k, trace.events =
      ((Maps.run n (cli.probes (cli.start n target) l)).events.take k).map TraceEvent.ofEvent) ∧
    ∀ j, (sessionAt cli n target l j).drain.pc ≠ .returned →
      ((Maps.run n (cli.probes (cli.start n target) (l.take j))).events.take
        (committed (sessionAt cli n target l j).drain.ring.records).length).map TraceEvent.ofEvent <+: trace.events := by
  obtain ⟨k, hk, hall⟩ := exists_take_of_file hrun hfile
  have hmaps := sessionAt_maps hrun l.length
  rw [List.take_length] at hmaps
  refine ⟨⟨k, by rw [← hmaps]; exact hk⟩, ?_⟩
  intro j hpc
  have hle := hall j _ hpc le_rfl
  rw [← sessionAt_maps hrun j, hk]
  refine List.IsPrefix.map _ ?_
  rcases Nat.lt_or_ge l.length j with hj | hj
  · have hsame : sessionAt cli n target l j = sessionAt cli n target l l.length :=
      (stateAt_of_length_le hj.le).trans (stateAt_of_length_le le_rfl).symm
    rw [hsame] at hle ⊢
    exact List.take_prefix_take_left hle
  · refine List.prefix_take_iff.mpr ⟨(List.take_prefix _ _).trans (events_prefix_at hrun hj), ?_⟩
    exact (List.length_take_le _ _).trans hle

end Run

/-! ### The end of the child -/

def DrainPc.isLast : DrainPc → Bool
  | .next last | .decode last _ => last
  | .returned => true
  | .shouldStop | .poll => false

section Over
variable {cli : Cli} {s : Session} {a : SessionAct}

/-- The last drain comes behind an answer of `should_stop`. -/
theorem Session.stop_of_isLast (ha : s.Allows cli a) (hlast : (s.step cli a).drain.pc.isLast)
    (hnot : s.drain.pc.isLast = false) : a = .shouldStop true := by
  refine by_contra fun hne => Bool.eq_false_iff.mp ?_ hlast
  rcases Session.step_cases ha with ⟨-, -, hdrain⟩ | ⟨st, -, -, hdrain⟩ | ⟨i, ev, padding, -, -, -, -, hdrain⟩ |
    ⟨b, -, -, -, hkind, -, hdrain, -⟩
  · rw [hdrain]
    exact hnot
  · rw [hdrain]
    split <;> exact hnot
  · rw [hdrain]
    exact hnot
  · rw [hdrain]
    rcases hkind with rfl | rfl | rfl | ⟨stop, rfl, rfl⟩
    · simp only [Drain.step]
      split
      · rename_i last hpc
        simp only [hpc, DrainPc.isLast] at hnot
        split <;> simp [hnot, DrainPc.isLast]
      · exact hnot
    · simp only [Drain.step]
      split
      · rename_i last item hpc
        simpa [hpc, DrainPc.isLast] using hnot
      · exact hnot
    · rfl
    · cases stop with
      | true => exact absurd rfl hne
      | false => rfl

/-- The child has been let run. -/
def SessionPc.isFree : SessionPc → Bool
  | .openRing | .drain | .writeTo | .done => true
  | _ => false

theorem Session.Held.target_of_isFree (h : s.Held) (hpc : s.pc.isFree) :
    s.target = .running ∨ s.target = .zombie ∨ s.target = .none := by
  unfold Session.Held at h
  cases hcase : s.pc <;> simp only [hcase] at h hpc
  case openRing | drain | writeTo | done => exact h.2
  all_goals cases hpc

/-- The child is let run by `resume`, and its end is an exit. -/
theorem Session.free_cases {command : List String} (hcmd : cli.command = .run command) (hheld : s.Held)
    (ha : s.Allows cli a) (hfree : (s.step cli a).pc.isFree) :
    (s.step cli a).target = .running ∨ (s.pc.isFree ∧
      ((s.step cli a).target = s.target ∨ s.target = .zombie ∨ a = .exit ∧ s.target = .running)) := by
  have hbefore : a = .detach (.ok ()) ∨ s.pc.isFree := by
    rcases Session.pc_cases ha with hpc | ⟨-, err, hpc⟩ | hcall
    · exact Or.inr (by rwa [hpc] at hfree)
    · rw [hpc] at hfree
      cases hfree
    · unfold Session.Held at hheld
      generalize s.pc = pc, (s.step cli a).pc = pc' at hcall hfree hheld ⊢
      cases hcall with
      | resume => exact Or.inl rfl
      | installHandler | setDeadline => exact hheld.elim
      | openRing | drain | writeTo => exact Or.inr rfl
      | requireRoot | captureAnchor =>
        rw [hcmd] at hfree
        cases hfree
      | _ => cases hfree
  rcases hbefore with rfl | hbefore
  · exact Or.inl rfl
  have htarget := hheld.target_of_isFree hbefore
  cases a with
  | spawn result =>
    rw [show s.pc = .spawnStopped from ha.1] at hbefore
    cases hbefore
  | waitpid status =>
    rw [show s.pc = .waitUntilStopped from ha.1] at hbefore
    cases hbefore
  | detach result =>
    rw [show s.pc = .resume from ha.1] at hbefore
    cases hbefore
  | shouldStop stop =>
    have hstop := ha.2.2
    simp only [Session.StopAnswers, hcmd] at hstop
    cases stop with
    | true => exact Or.inr ⟨hbefore, Or.inr (Or.inl (by simpa using hstop))⟩
    | false => exact Or.inr ⟨hbefore, Or.inl (Session.target_step rfl)⟩
  | exit =>
    refine Or.inr ⟨hbefore, Or.inr (Or.inr ⟨rfl, ?_⟩)⟩
    have hlive := ha.1
    rcases htarget with h | h | h
    · exact h
    · simp [h] at hlive
    · simp [h] at hlive
  | trap => simp [show s.target = .execed from ha] at htarget
  | reaped => simp [Session.Allows, hcmd, Command.isAttach] at ha
  | released => exact Or.inl rfl
  | _ => exact Or.inr ⟨hbefore, Or.inl (Session.target_step rfl)⟩

end Over

theorem exists_stop {cli : Cli} {n : Sizes} {target : Target} {l : List SessionAct}
    (hrun : Allowed (Session.step cli) (Session.Allows cli) (cli.start n target) l) {i : Nat}
    (hlast : (sessionAt cli n target l i).drain.pc.isLast) : ∃ j < i, l[j]? = some (.shouldStop true) := by
  have hstart : ¬(cli.start n target).drain.pc.isLast := by simp [Cli.start, Drain.start, DrainPc.isLast]
  obtain ⟨j, hj, a, ha, hnot, hstep⟩ :=
    exists_step_of_stateAt (P := fun s : Session => s.drain.pc.isLast) hstart hlast
  obtain rfl := Session.stop_of_isLast (hrun.at ha) hstep (Bool.eq_false_iff.mpr hnot)
  exact ⟨j, hj, ha⟩

/-- What was committed at the exit still is, and what was not is the completion of a request. -/
theorem isSome_record_of_exit {cli : Cli} {n : Sizes} {target : Target} {l : List SessionAct}
    (hrun : Allowed (Session.step cli) (Session.Allows cli) (cli.start n target) l) {e j i : Nat}
    (hexit : l[e]? = some .exit) (hej : e ≤ j) (hi : i < (sessionAt cli n target l e).maps.events.length)
    (hio : ∀ ev, (sessionAt cli n target l e).maps.events[i]? = some ev → ev.eventType = eventBlockIo →
      (sessionAt cli n target l j).drain.ring.records[i]? ≠ some none) :
    (((sessionAt cli n target l j).drain.ring.records[i]?).join).isSome := by
  have hlen : i < (sessionAt cli n target l e).drain.ring.records.length := by
    rwa [(tape_at hrun e).carries.length_eq]
  obtain ⟨r, hrec⟩ : ∃ r, (sessionAt cli n target l e).drain.ring.records[i]? = some r :=
    ⟨_, List.getElem?_eq_getElem hlen⟩
  cases r with
  | some item =>
    rw [record_at hrun hej hrec]
    rfl
  | none =>
    have hkind := (hrun.at hexit).2 i hlen hrec
    have hev := List.getElem?_eq_getElem hi
    rw [show (stateAt (Session.step cli) (cli.start n target) l e).maps.events[i]? = _ from hev] at hkind
    have hne := hio _ hev (by simpa using hkind)
    have hlater : i < (sessionAt cli n target l j).drain.ring.records.length := by
      rw [(tape_at hrun j).carries.length_eq]
      exact hi.trans_le (events_prefix_at hrun hej).length_le
    rw [List.getElem?_eq_getElem hlater] at hne ⊢
    exact Option.isSome_iff_ne_none.mpr fun h => hne (congrArg some h)

section Child
variable {cli : Cli} {command : List String} {n : Sizes} {target : Target} {l : List SessionAct}
  (hcmd : cli.command = .run command)
  (hrun : Allowed (Session.step cli) (Session.Allows cli) (cli.start n target) l)
include hcmd hrun

theorem held_at (i : Nat) : (sessionAt cli n target l i).Held := by
  have hstart : (cli.start n target).Held := by simp [Session.Held, Cli.start, hcmd]
  exact hrun.induction hstart (fun _ _ hs ha => hs.step hcmd ha) i

/-- A child that is found to have exited was running before. -/
theorem exists_exit {j : Nat} (hfree : (sessionAt cli n target l j).pc.isFree)
    (hover : (sessionAt cli n target l j).target ≠ .running) :
    ∃ e < j, l[e]? = some .exit ∧ (sessionAt cli n target l e).target = .running := by
  have hstart : ¬((cli.start n target).pc.isFree ∧ (cli.start n target).target ≠ .running) := by
    simp [Cli.start, SessionPc.isFree]
  obtain ⟨e, he, a, ha, hnot, hfree', hover'⟩ :=
    exists_step_of_stateAt (P := fun s : Session => s.pc.isFree ∧ s.target ≠ .running) hstart ⟨hfree, hover⟩
  rcases Session.free_cases hcmd (held_at hcmd hrun e) (hrun.at ha) hfree' with hrunning | ⟨hbefore, hsame | hzombie | ⟨rfl, h⟩⟩
  · exact absurd hrunning hover'
  · exact absurd ⟨hbefore, fun h => hover' (hsame.trans h)⟩ hnot
  · exact absurd ⟨hbefore, fun h => by cases hzombie.symm.trans h⟩ hnot
  · exact ⟨e, he, ha, h⟩

/-- The file of `whyslow run` is written only behind the exit of the child and an answer of `has_exited` that says so. It
    then holds all that the programs wrote up to the exit, unless at that answer the completion of a request was still
    being recorded. -/
theorem run_file_complete {trace : TraceFile} (hfile : (sessionAt cli n target l l.length).file = some trace) :
    ∃ e j, e < j ∧ l[e]? = some .exit ∧ (sessionAt cli n target l e).target = .running ∧
      l[j]? = some (.shouldStop true) ∧
      ((∀ (i : Nat) ev, (sessionAt cli n target l e).maps.events[i]? = some ev → ev.eventType = eventBlockIo →
        (sessionAt cli n target l j).drain.ring.records[i]? ≠ some none) →
      (Maps.run n (cli.probes (cli.start n target) (l.take e))).events.map TraceEvent.ofEvent <+: trace.events) := by
  obtain ⟨hret, -⟩ := returned_of_file hrun hfile
  obtain ⟨j, -, hstop⟩ := exists_stop hrun (i := l.length) (by rw [hret]; rfl)
  obtain ⟨hpc, hdrain, hanswer⟩ := hrun.at hstop
  simp only [Session.StopAnswers, hcmd] at hanswer
  have hzombie : (sessionAt cli n target l j).target = .zombie := by simpa [sessionAt] using hanswer
  obtain ⟨e, hej, hexit, hrunning⟩ := exists_exit hcmd hrun (j := j)
    (by rw [show (sessionAt cli n target l j).pc = .drain from hpc]; rfl) (by simp [hzombie])
  refine ⟨e, j, hej, hexit, hrunning, hstop, ?_⟩
  intro hio
  have hcommitted := fun i hi => isSome_record_of_exit hrun hexit hej.le (i := i) hi (hio i)
  obtain ⟨k, hk, hall⟩ := exists_take_of_file hrun hfile
  have hdrain' : (sessionAt cli n target l j).drain.pc ≠ .returned := by
    rw [show (sessionAt cli n target l j).drain.pc = .shouldStop from hdrain]
    simp
  have hle : (sessionAt cli n target l e).maps.events.length ≤ k := by
    refine hall j _ hdrain' ?_
    rcases Nat.eq_zero_or_pos (sessionAt cli n target l e).maps.events.length with h0 | hpos
    · rw [h0]
      exact Nat.zero_le _
    · have := lt_length_committed (k := (sessionAt cli n target l e).maps.events.length - 1) fun i hi =>
        hcommitted i (by omega)
      omega
  have hej' : e ≤ l.length := (List.getElem?_eq_some_iff.mp hexit).1.le
  rw [← sessionAt_maps hrun e, hk]
  exact (List.prefix_take_iff.mpr ⟨events_prefix_at hrun hej', hle⟩).map _

end Child

/-! A child that sleeps in a futex wait and exits while the drain looks for its records, which are committed out of
    order. -/

def tracedCli : Cli := ⟨.run ["worker"], "whyslow.trace.json"⟩

def tracedSetup : List SessionAct :=
  [.geteuid 0, .spawn (.ok 7), .trap, .waitpid .stopped, .load (.ok ()), .attach .attached, .attach .attached,
    .attach .attached, .attach .attached, .attach .attached, .setTargetTgid .ok, .captureAnchor 1000 100,
    .detach (.ok ()), .openRing .ok]

def tracedWait : List SessionAct :=
  [.next, .tracepoint (.futexEnter (.inThread 110 7 7) (futexArgs 0x1000 128)), .shouldStop false,
    .tracepoint (.schedSwitch (.inThread 120 7 7) (switch 7 1 0)),
    .tracepoint (.schedSwitch (.inThread 140 0 0) (switch 0 0 7)), .tracepoint (.futexExit (.inThread 150 7 7))]

def tracedDrain : List SessionAct :=
  [.commit 1 (Vector.replicate 4 0), .poll, .next, .commit 0 (Vector.replicate 4 0), .shouldStop false, .poll, .next,
    .decode, .next, .decode, .exit, .next, .shouldStop true, .next, .writeTo (.ok ())]

def tracedRun : List SessionAct := tracedSetup ++ (tracedWait ++ tracedDrain)

def tracedAt (i : Nat) : Session := sessionAt tracedCli Sizes.source .none tracedRun i

def tracedFile : TraceFile :=
  ⟨1000, 100, [⟨140, 20, 0, 7, 7, eventSchedBlock, ""⟩, ⟨150, 40, 0x1000, 7, 7, eventFutexWait, ""⟩]⟩

theorem tracedRun_allowed :
    Allowed (Session.step tracedCli) (Session.Allows tracedCli) (tracedCli.start Sizes.source .none) tracedRun := by
  decide +kernel

theorem tracedAt_file : (tracedAt tracedRun.length).file = some tracedFile := by
  decide +kernel

theorem session_file_tracedRun :
    (∃ k, tracedFile.events = ((Maps.run Sizes.source (tracedCli.probes (tracedCli.start Sizes.source .none)
      tracedRun)).events.take k).map TraceEvent.ofEvent) ∧ (committed (tracedAt 24).drain.ring.records).length = 2 ∧
    ((Maps.run Sizes.source (tracedCli.probes (tracedCli.start Sizes.source .none) (tracedRun.take 24))).events.take
      (committed (tracedAt 24).drain.ring.records).length).map TraceEvent.ofEvent <+: tracedFile.events := by
  have h := session_file tracedRun_allowed tracedAt_file
  exact ⟨h.1, by decide +kernel, h.2 24 (by decide +kernel)⟩

theorem tracedAt_events : (tracedAt tracedRun.length).maps.events =
    [⟨140, 20, 0, 7, 7, eventSchedBlock, noComm⟩, ⟨150, 40, 0x1000, 7, 7, eventFutexWait, noComm⟩] := by
  decide +kernel

theorem run_file_complete_tracedRun : ∃ e : Nat, tracedRun[e]? = some .exit ∧ (tracedAt e).target = .running ∧
    (Maps.run Sizes.source (tracedCli.probes (tracedCli.start Sizes.source .none) (tracedRun.take e))).events.map
      TraceEvent.ofEvent <+: tracedFile.events := by
  obtain ⟨e, j, -, hexit, hrunning, -, hall⟩ := run_file_complete rfl tracedRun_allowed tracedAt_file
  refine ⟨e, hexit, hrunning, hall ?_⟩
  intro i ev hev hio
  have hsub := (events_prefix_at tracedRun_allowed (List.getElem?_eq_some_iff.mp hexit).1.le).subset
    (List.mem_of_getElem? hev)
  rw [show (sessionAt tracedCli Sizes.source .none tracedRun tracedRun.length).maps.events = _ from tracedAt_events] at hsub
  rcases List.mem_cons.mp hsub with rfl | hsub
  · cases hio
  · rw [List.mem_singleton.mp hsub] at hio
    cases hio

end Whyslow
