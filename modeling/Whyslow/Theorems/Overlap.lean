import Whyslow.Theorems.Pairing

/-! The spans of one source do not overlap. A completion takes the entry of its key out of the map, so the entry the
    next completion of the key finds was made after it; an event begins when its entry was made. -/

namespace Whyslow
open Runs

/-- Both events are stalls of one thread, or futex calls of one thread, or requests under one key. -/
def SameSource (ev ev' : Event) : Prop :=
  (ev.eventType = eventSchedBlock ∧ ev'.eventType = eventSchedBlock ∧ ev.tid = ev'.tid) ∨
  ((ev.eventType = eventFutexWait ∨ ev.eventType = eventFutexWake) ∧
    (ev'.eventType = eventFutexWait ∨ ev'.eventType = eventFutexWake) ∧ ev.tid = ev'.tid) ∨
  (ev.eventType = eventBlockIo ∧ ev'.eventType = eventBlockIo ∧ ev.key = ev'.key)

def Event.begins (ev : Event) : Nat := ev.timestampNs.toNat - ev.durationNs.toNat

/-! ### What a completion takes out -/

section Completions
variable {m : Maps} {a : Half} {ev : Event}

theorem blockAct_of_produces (h : a.produces m = some ev) (hty : ev.eventType = eventSchedBlock) :
    a.blockAct m = .complete ev.tid := by
  obtain ⟨_, _, _, rfl, ht, -, rfl⟩ := produces_stall h hty
  exact if_pos ht

theorem futexAct_of_produces (h : a.produces m = some ev)
    (hty : ev.eventType = eventFutexWait ∨ ev.eventType = eventFutexWake) : a.futexAct m = .complete ev.tid := by
  obtain ⟨_, _, _, rfl, -, -, rfl⟩ := produces_call h hty
  rfl

theorem blockIoAct_of_produces (h : a.produces m = some ev) (hty : ev.eventType = eventBlockIo) :
    a.blockIoAct m = .complete ev.key := by
  obtain ⟨_, _, _, rfl, -, rfl⟩ := produces_blockIo h hty
  rfl

end Completions

/-! ### Where an event begins -/

/-- `ev`, made at half `i`, begins at the clock reading of half `j`, later than every earlier event of its source. -/
structure BeginsAt (n : Sizes) (steps : List Step) (ev : Event) (j i : Nat) : Prop where
  lt : j < i
  start : ∃ b ts, (halves steps)[j]? = some b ∧ b.ktime? = some ts ∧
    ev.durationNs = Words.saturatingSub ev.timestampNs ts
  last : ∀ i' a ev', i' < i → (halves steps)[i']? = some a → a.produces (mapsAt n steps i') = some ev' →
    SameSource ev' ev → i' < j

/-- The entry that a completion finds was made after every earlier completion of its key. -/
theorem beginsAt_of_openSince {K V : Type} [DecidableEq K] (M : Spans Maps.half K V) {n : Sizes} {steps : List Step}
    {ev : Event} {j i : Nat} {k : K} {v : V} {ts : UInt64} (hopen : M.OpenSince (Maps.loaded n) (halves steps) j i k v)
    (htime : ∀ m b, M.Opens m b k v → b.ktime? = some ts)
    (hdur : ev.durationNs = Words.saturatingSub ev.timestampNs ts)
    (hsame : ∀ m a ev', a.produces m = some ev' → SameSource ev' ev → M.act m a = .complete k) :
    BeginsAt n steps ev j i := by
  obtain ⟨b, hb, hopens, -⟩ := hopen.2
  refine ⟨hopen.1, ⟨b, ts, hb, htime _ b hopens, hdur⟩, ?_⟩
  intro i' a ev' hi' ha hp hs
  exact hopen.after_complete M hi' ha (hsame _ a ev' hp hs)

theorem exists_beginsAt {n : Sizes} {steps : List Step} {i : Nat} {a : Half} {ev : Event}
    (hp : a.produces (mapsAt n steps i) = some ev) : ∃ j, BeginsAt n steps ev j i := by
  rcases produces_cases hp with ⟨h, evt, v, rfl, -, hget, rfl⟩ | ⟨h, v, type, rfl, hget, htype, rfl⟩ |
    ⟨h, evt, v, rfl, hget, rfl⟩
  · obtain ⟨j, hopen⟩ := (blockSpans.get_eq_some_iff (fun _ => rfl) i).mp hget
    refine ⟨j, beginsAt_of_openSince blockSpans hopen (fun _ _ => opens_block_ktime) rfl ?_⟩
    intro m a ev' hp' hsame
    rcases hsame with ⟨hty, -, htid⟩ | ⟨-, hty, -⟩ | ⟨-, hty, -⟩
    · exact (blockAct_of_produces hp' hty).trans (congrArg _ htid)
    · rcases hty with hty | hty <;> cases hty
    · cases hty
  · obtain ⟨j, hopen⟩ := (futexSpans.get_eq_some_iff (fun _ => rfl) i).mp hget
    refine ⟨j, beginsAt_of_openSince futexSpans hopen (fun _ _ => opens_futex_ktime) rfl ?_⟩
    intro m a ev' hp' hsame
    rcases hsame with ⟨-, hty, -⟩ | ⟨hty, -, htid⟩ | ⟨-, hty, -⟩
    · exact absurd hty (futexEventType_ne htype).1
    · exact (futexAct_of_produces hp' hty).trans (congrArg _ htid)
    · exact absurd hty (futexEventType_ne htype).2
  · obtain ⟨j, hopen⟩ := (blockIoSpans.get_eq_some_iff (fun _ => rfl) i).mp hget
    refine ⟨j, beginsAt_of_openSince blockIoSpans hopen (fun _ _ => opens_blockIo_ktime) rfl ?_⟩
    intro m a ev' hp' hsame
    rcases hsame with ⟨-, hty, -⟩ | ⟨-, hty, -⟩ | ⟨hty, -, hkey⟩
    · cases hty
    · rcases hty with hty | hty <;> cases hty
    · exact (blockIoAct_of_produces hp' hty).trans (congrArg _ hkey)

/-- With a clock that does not go back no span saturates, and an event begins when its start was made. -/
theorem BeginsAt.begins {n : Sizes} {steps : List Step} (hclock : ClockNonDecreasing steps) {ev : Event} {j i : Nat}
    (h : BeginsAt n steps ev j i) {a : Half} (ha : (halves steps)[i]? = some a)
    (hp : a.produces (mapsAt n steps i) = some ev) :
    ∃ b ts, (halves steps)[j]? = some b ∧ b.ktime? = some ts ∧ ev.begins = ts.toNat ∧
      ev.durationNs.toNat ≤ ev.timestampNs.toNat := by
  obtain ⟨b, ts, hb, hts, hdur⟩ := h.start
  have hle := hclock.le h.lt hb ha hts (produces_ktime hp)
  refine ⟨b, ts, hb, hts, ?_, ?_⟩ <;> simp only [Event.begins, hdur, Words.saturatingSub_toNat] <;> omega

/-! ### Sums of spans -/

/-- Spans that follow each other within a period are together no longer than it. -/
theorem sum_durations_le {events : List Event} {a b : Nat}
    (hspan : ∀ ev ∈ events, ev.durationNs.toNat ≤ ev.timestampNs.toNat)
    (hpair : events.Pairwise fun ev ev' => ev.timestampNs.toNat ≤ ev'.begins)
    (hin : ∀ ev ∈ events, a ≤ ev.begins ∧ ev.timestampNs.toNat ≤ b) :
    (events.map fun ev => ev.durationNs.toNat).sum ≤ b - a := by
  induction events generalizing a with
  | nil => simp
  | cons ev events ih =>
    obtain ⟨hfirst, hrest⟩ := List.pairwise_cons.mp hpair
    have htail := ih (a := ev.timestampNs.toNat) (fun x hx => hspan x (List.mem_cons_of_mem _ hx)) hrest
      fun x hx => ⟨hfirst x hx, (hin x (List.mem_cons_of_mem _ hx)).2⟩
    have hev := hin ev List.mem_cons_self
    have hdur := hspan ev List.mem_cons_self
    unfold Event.begins at hev
    rw [List.map_cons, List.sum_cons]
    omega

/-- The stalls of `tid` whose spans lie between `a` and `b`. -/
def stallsWithin (events : List Event) (tid : UInt32) (a b : Nat) : List Event :=
  events.filter fun ev => ev.eventType = eventSchedBlock ∧ ev.tid = tid ∧ a ≤ ev.begins ∧ ev.timestampNs.toNat ≤ b

/-- In every run with a clock that does not go back, of any sizes of the maps and any drops: no event is longer than
    its end, of two events of one source the one written first ends before the other begins, and the stalls of a
    thread within a period are together no longer than the period. -/
theorem run_spans_apart (n : Sizes) {steps : List Step} (hclock : ClockNonDecreasing steps) :
    (∀ ev ∈ (Maps.run n steps).events, ev.durationNs.toNat ≤ ev.timestampNs.toNat) ∧
    (Maps.run n steps).events.Pairwise (fun ev ev' => SameSource ev ev' →
      ev.timestampNs.toNat ≤ ev'.timestampNs.toNat - ev'.durationNs.toNat) ∧
    ∀ tid a b, ((stallsWithin (Maps.run n steps).events tid a b).map fun ev => ev.durationNs.toNat).sum ≤ b - a := by
  have hspan : ∀ ev ∈ (Maps.run n steps).events, ev.durationNs.toNat ≤ ev.timestampNs.toNat := by
    intro ev hev
    rw [Maps.run_eq_halves] at hev
    obtain ⟨i, -, a, ha, hw⟩ := (mem_log_iff Maps.events (fun _ _ => rfl) rfl).mp hev
    have hp := writes_produces hw
    obtain ⟨j, hj⟩ := exists_beginsAt hp
    obtain ⟨_, _, -, -, -, hle⟩ := hj.begins hclock ha hp
    exact hle
  have hpair : (Maps.run n steps).events.Pairwise fun ev ev' => SameSource ev ev' →
      ev.timestampNs.toNat ≤ ev'.begins := by
    rw [Maps.run_eq_halves]
    refine pairwise_log Maps.events (fun _ _ => rfl) rfl ?_ _
    intro i i' a a' ev ev' hii' ha ha' hw hw' hsame
    have hp := writes_produces hw
    have hp' := writes_produces hw'
    obtain ⟨j, hj⟩ := exists_beginsAt hp'
    obtain ⟨b, ts, hb, hts, hbegins, -⟩ := hj.begins hclock ha' hp'
    rw [hbegins]
    exact hclock.le (hj.last i a ev hii' ha hp hsame) ha hb (produces_ktime hp) hts
  refine ⟨hspan, hpair, ?_⟩
  intro tid a b
  refine sum_durations_le ?_ ?_ ?_
  · intro ev hev
    exact hspan ev (List.mem_filter.mp hev).1
  · refine (hpair.filter _).imp_of_mem ?_
    intro ev ev' hev hev' h
    obtain ⟨hty, htid, -⟩ := of_decide_eq_true (List.mem_filter.mp hev).2
    obtain ⟨hty', htid', -⟩ := of_decide_eq_true (List.mem_filter.mp hev').2
    exact h (Or.inl ⟨hty, hty', htid.trans htid'.symm⟩)
  · intro ev hev
    exact (of_decide_eq_true (List.mem_filter.mp hev).2).2.2

/-- Thread 8 of the target sleeps twice, from 10 to 30 and from 30 to 45. -/
def twoSleeps : List Step :=
  sleepRun ++ [.schedSwitch (.inThread 30 7 8) (switch 8 1 0), .schedSwitch (.inThread 45 0 0) (switch 0 0 8)]

theorem run_spans_apart_twoSleeps : ClockNonDecreasing twoSleeps ∧
    (Maps.run Sizes.source twoSleeps).events.map (fun ev => (ev.begins, ev.timestampNs)) = [(10, 30), (30, 45)] ∧
    ((stallsWithin (Maps.run Sizes.source twoSleeps).events 8 10 45).map fun ev => ev.durationNs.toNat).sum ≤ 45 - 10 := by
  have hclock : ClockNonDecreasing twoSleeps := by decide
  exact ⟨hclock, by decide, (run_spans_apart Sizes.source hclock).2.2 8 10 45⟩

end Whyslow
