import Whyslow.Theorems.Attribution
import Whyslow.Theorems.Transport

/-! Block keys. The probes pack the device and the sector of a request into one word, at its issue and at its
    completion, and the report unpacks them where it prints a request. A key is the device and the sector modulo 2^32,
    so the report shows the request that completed, up to sectors that do not fit in 32 bits. -/

namespace Whyslow
open Extremum Runs

/-! ### The codec -/

theorem unpackBlockKey_eq (key : UInt64) : unpackBlockKey key = (Words.upper key, Words.lower key) := rfl

theorem unpackBlockKey_packBlockKey (dev : UInt32) (sector : UInt64) :
    unpackBlockKey (packBlockKey dev sector) = (dev, UInt32.ofNat (sector.toNat % 2 ^ 32)) := by
  have hlow : Words.lower sector = UInt32.ofNat (sector.toNat % 2 ^ 32) := by
    rw [← Words.lower_toNat, UInt32.ofNat_toNat]
  rw [unpackBlockKey_eq, packBlockKey_eq_join, Words.upper_join, Words.lower_join, hlow]

theorem packBlockKey_unpackBlockKey (key : UInt64) :
    packBlockKey (unpackBlockKey key).1 (unpackBlockKey key).2.toUInt64 = key := by
  rw [packBlockKey_eq_join, unpackBlockKey_eq, Words.lower_toUInt64, Words.join_upper_lower]

/-! ### The requests of a run -/

/-- The event `io` of a request: thread `io.tid` issues it at half `j` and `evt` completes it at half `i`, on the same
    device and at the same sector modulo 2^32, with no completion there in between. -/
structure Served (n : Sizes) (steps : List Step) (io : TraceEvent) (evt : TraceEventRawBlockRqCompletion)
    (j i : Nat) : Prop where
  lt : j < i
  issue : ∃ h evt', (halves steps)[j]? = some (.blockRqIssue h evt') ∧ h.currentTid = io.tid ∧ evt'.dev = evt.dev ∧
    evt'.sector.toNat % 2 ^ 32 = evt.sector.toNat % 2 ^ 32
  complete : ∃ h, WrittenAt n steps io i (.blockRqComplete h evt)
  within : ∀ k, j < k → k < i → ∀ a, (halves steps)[k]? = some a → a.completedKey? ≠ some io.key
  key : io.key = packBlockKey evt.dev evt.sector

theorem Recorded.served_context {n : Sizes} {steps : List Step} {events : List TraceEvent}
    (hrec : Recorded n steps events) {io : TraceEvent} (hio : io ∈ events) (hty : io.eventType = eventBlockIo) :
    ∃ evt j i, Served n steps io evt j i ∧ ((halves steps)[j]?).bind Half.context? = some (io.tid, io.pid) := by
  obtain ⟨i, a, hw⟩ := hrec.mem_iff.mp hio
  obtain ⟨ev, hp, rfl, -⟩ := hw.produces
  obtain ⟨h, evt, v, rfl, hget, rfl⟩ := produces_blockIo hp hty
  obtain ⟨j, hj, b, hb, hopen, hrest⟩ := (blockIoSpans.get_eq_some_iff (fun _ => rfl) i).mp hget
  obtain ⟨h', evt', rfl, -, -, hkey, rfl⟩ := blockIoAct_start hopen.1
  obtain ⟨hdev, hsector⟩ := packBlockKey_eq_iff.mp hkey
  refine ⟨evt, j, i, ⟨hj, ⟨h', evt', hb, rfl, hdev.symm, hsector.symm⟩, ⟨h, hw⟩, ?_, rfl⟩, ?_⟩
  · intro k hjk hki a ha hcomplete
    exact (hrest k hjk hki a ha).1 (blockIoAct_complete.mpr hcomplete)
  · rw [hb]
    rfl

theorem Recorded.served {n : Sizes} {steps : List Step} {events : List TraceEvent} (hrec : Recorded n steps events)
    {io : TraceEvent} (hio : io ∈ events) (hty : io.eventType = eventBlockIo) :
    ∃ evt j i, Served n steps io evt j i := by
  obtain ⟨evt, j, i, hserved, -⟩ := hrec.served_context hio hty
  exact ⟨evt, j, i, hserved⟩

/-! ### The requests of a report -/

/-- The device and the sector a line shows. -/
def Line.request? : Line → Option (String × UInt32)
  | .blockedOnBlockIo _ _ _ dev sector | .priorBlockIo _ _ dev sector => some (dev, sector)
  | .blockedOnFutex _ _ _ _ | .blockedUnknown _ _ _ | .wokenBy _ | .priorFutex _ _ _ => none

/-- What a line for `e` shows: the two halves of its key, if `e` is a request. -/
def TraceEvent.request? (host : Host) (e : TraceEvent) : Option (String × UInt32) :=
  if e.eventType = eventBlockIo then some (resolveDev host (unpackBlockKey e.key).1, (unpackBlockKey e.key).2) else none

theorem TraceEvent.request?_of_ne {host : Host} {e : TraceEvent} (h : e.eventType ≠ eventBlockIo) :
    e.request? host = none := if_neg h

theorem request?_pathLine {host : Host} {e : TraceEvent} (h : e.eventType = eventFutexWake ∨
    e.eventType = eventFutexWait ∨ e.eventType = eventBlockIo) : (pathLine host .new e).request? = e.request? host := by
  rcases h with h | h | h
  · rw [pathLine_wake h, TraceEvent.request?_of_ne (by rw [h]; decide)]
    rfl
  · rw [pathLine_wait h, TraceEvent.request?_of_ne (by rw [h]; decide)]
    rfl
  · rw [pathLine_blockIo h, TraceEvent.request?, if_pos h, (DevNames.faithful_new host).name_eq]
    rfl

theorem request?_headline {host : Host} {wall : UInt64} {b e : TraceEvent}
    (h : e.eventType = eventFutexWait ∨ e.eventType = eventBlockIo) :
    (headline host .new wall b (some e)).request? = e.request? host := by
  rcases h with h | h
  · rw [headline, if_pos h, TraceEvent.request?_of_ne (by rw [h]; decide)]
    rfl
  · rw [headline, if_neg (by rw [h]; decide), TraceEvent.request?, if_pos h, (DevNames.faithful_new host).name_eq]
    rfl

section Types
variable {events : List TraceEvent} {wakes : Nat} {b e e' : TraceEvent} {path : List TraceEvent}

theorem ResumeEvent.eventType (h : ResumeEvent events b e) :
    e.eventType = eventFutexWait ∨ e.eventType = eventBlockIo := by
  rcases h with h | h
  · exact Or.inl h.1.prop.1
  · exact Or.inr h.1.prop.1

theorem Hop.eventType (h : Hop events wakes e e') :
    e'.eventType = eventFutexWake ∨ e'.eventType = eventFutexWait ∨ e'.eventType = eventBlockIo := by
  rcases h with ⟨-, h⟩ | ⟨-, -, h | h⟩
  · exact Or.inl (IsLastMax.prop h).1
  · exact Or.inr (Or.inl h.1.prop.1)
  · exact Or.inr (Or.inr h.1.prop.1)

theorem MaximalPath.eventType (h : MaximalPath events wakes (e :: path)) : ∀ x ∈ path,
    x.eventType = eventFutexWake ∨ x.eventType = eventFutexWait ∨ x.eventType = eventBlockIo := by
  induction path generalizing wakes e with
  | nil =>
    intro x hx
    cases hx
  | cons y path ih =>
    intro x hx
    rcases List.mem_cons.mp hx with rfl | hx
    · exact h.1.eventType
    · exact ih h.2 x hx

end Types

/-- The lines of a chain show the requests of its path, each at its own place. -/
theorem request?_chainLines {host : Host} {trace : TraceFile} {b : TraceEvent} {path : List TraceEvent}
    (hpath : StallPath trace.events b path) (k : Nat) :
    ((chainLines host .new trace b path)[k]?).bind Line.request? = (path[k]?).bind (TraceEvent.request? host) := by
  rcases stallPath_iff.mp hpath with ⟨rfl, -⟩ | ⟨e, p, rfl, he, hmax⟩
  · cases k <;> rfl
  · cases k with
    | zero => exact request?_headline he.eventType
    | succ k =>
      rw [chainLines, List.tail_cons, List.getElem?_cons_succ, List.getElem?_cons_succ, List.getElem?_map]
      cases hx : p[k]? with
      | none => rfl
      | some x => exact request?_pathLine (hmax.eventType x (List.mem_of_getElem? hx))

theorem Served.request? {n : Sizes} {steps : List Step} {io : TraceEvent} {evt : TraceEventRawBlockRqCompletion}
    {j i : Nat} (h : Served n steps io evt j i) (hty : io.eventType = eventBlockIo) (host : Host) :
    io.request? host = some (resolveDev host evt.dev, UInt32.ofNat (evt.sector.toNat % 2 ^ 32)) := by
  rw [TraceEvent.request?, if_pos hty, h.key, unpackBlockKey_packBlockKey]

/-- The name of a device is what its link under `/sys/dev/block` points at, or its numbers. -/
theorem resolveDev_eq_iff {host : Host} {dev : UInt32} {name : String} : resolveDev host dev = name ↔
    host.readLink ("/sys/dev/block/" ++ toString (dev >>> 20) ++ ":" ++ toString (dev &&& 0xFFFFF)) = some name ∨
    (host.readLink ("/sys/dev/block/" ++ toString (dev >>> 20) ++ ":" ++ toString (dev &&& 0xFFFFF)) = none ∧
      name = "dev" ++ toString (dev >>> 20) ++ ":" ++ toString (dev &&& 0xFFFFF)) := by
  unfold resolveDev
  dsimp only
  cases host.readLink ("/sys/dev/block/" ++ toString (dev >>> 20) ++ ":" ++ toString (dev &&& 0xFFFFF)) with
  | none => simp [eq_comm]
  | some link => simp

theorem exists_stallPath_of_mem_explain {host : Host} {trace : TraceFile} {slowest : Nat} {chain : Chain}
    (h : chain ∈ explain host trace slowest) : ∃ b ∈ trace.events, b.eventType = eventSchedBlock ∧
      ∃ path, StallPath trace.events b path ∧ (∀ e ∈ path, e ∈ trace.events) ∧
        chain.lines = chainLines host .new trace b path := by
  rw [explain_eq_map] at h
  obtain ⟨b, hb, rfl⟩ := List.mem_map.mp h
  have hstall := List.mem_filter.mp (List.mem_mergeSort.mp (List.mem_of_mem_take hb))
  obtain ⟨path, hpath, hmem, -, hlines⟩ := exists_stallPath host trace b .new
  exact ⟨b, hstall.1, of_decide_eq_true hstall.2, path, hpath, hmem, hlines⟩

/-- A key gives back the device and the sector modulo 2^32, every word is the key of its halves, and two requests share
    a key exactly when these two agree. In a report on a recorded run the lines that show a request are those of the
    `BLOCK_IO` events on the path of the stall, and each shows the request whose completion wrote the event: its device,
    by the name the host links to its numbers or else by these, and its sector, if it fits. -/
theorem blockKey_shows_completed :
    (∀ dev sector, unpackBlockKey (packBlockKey dev sector) = (dev, UInt32.ofNat (sector.toNat % 2 ^ 32))) ∧
    (∀ key, packBlockKey (unpackBlockKey key).1 (unpackBlockKey key).2.toUInt64 = key) ∧
    (∀ dev dev' sector sector', packBlockKey dev sector = packBlockKey dev' sector' ↔
      dev = dev' ∧ sector.toNat % 2 ^ 32 = sector'.toNat % 2 ^ 32) ∧
    ∀ (n : Sizes) (steps : List Step) (trace : TraceFile), Recorded n steps trace.events → ∀ host slowest,
      ∀ chain ∈ explain host trace slowest, ∃ b ∈ trace.events, b.eventType = eventSchedBlock ∧
        ∃ path, StallPath trace.events b path ∧ ∀ k : Nat,
          (∀ shown, (chain.lines[k]?).bind Line.request? = some shown →
            ∃ io, path[k]? = some io ∧ io.eventType = eventBlockIo) ∧
          ∀ io, path[k]? = some io → io.eventType = eventBlockIo →
            ∃ shown evt j i, (chain.lines[k]?).bind Line.request? = some shown ∧ Served n steps io evt j i ∧
              (host.readLink ("/sys/dev/block/" ++ toString (evt.dev >>> 20) ++ ":" ++ toString (evt.dev &&& 0xFFFFF)) =
                  some shown.1 ∨
                (host.readLink ("/sys/dev/block/" ++ toString (evt.dev >>> 20) ++ ":" ++
                    toString (evt.dev &&& 0xFFFFF)) = none ∧
                  shown.1 = "dev" ++ toString (evt.dev >>> 20) ++ ":" ++ toString (evt.dev &&& 0xFFFFF))) ∧
              shown.2.toNat = evt.sector.toNat % 2 ^ 32 ∧
              (evt.sector.toNat < 2 ^ 32 → shown.2.toNat = evt.sector.toNat) := by
  refine ⟨unpackBlockKey_packBlockKey, packBlockKey_unpackBlockKey, fun _ _ _ _ => packBlockKey_eq_iff, ?_⟩
  intro n steps trace hrec host slowest chain hchain
  obtain ⟨b, hb, hbt, path, hpath, hmem, hlines⟩ := exists_stallPath_of_mem_explain hchain
  refine ⟨b, hb, hbt, path, hpath, ?_⟩
  intro k
  rw [hlines, request?_chainLines hpath]
  refine ⟨?_, ?_⟩
  · intro shown hshown
    obtain ⟨io, hio, hreq⟩ := Option.bind_eq_some_iff.mp hshown
    refine ⟨io, hio, ?_⟩
    by_contra hne
    rw [TraceEvent.request?_of_ne hne] at hreq
    cases hreq
  · intro io hio hty
    obtain ⟨evt, j, i, hserved⟩ := hrec.served (hmem io (List.mem_of_getElem? hio)) hty
    have hsector : (UInt32.ofNat (evt.sector.toNat % 2 ^ 32)).toNat = evt.sector.toNat % 2 ^ 32 :=
      UInt32.toNat_ofNat_of_lt' (Nat.mod_lt _ (by decide))
    refine ⟨(_, UInt32.ofNat (evt.sector.toNat % 2 ^ 32)), evt, j, i, ?_, hserved, resolveDev_eq_iff.mp rfl,
      hsector, ?_⟩
    · rw [hio]
      exact hserved.request? hty host
    · intro hlt
      rw [hsector, Nat.mod_eq_of_lt hlt]

/-- Thread 8 of the target 7 reads sector 64 of device 8:0, off-CPU until the read completes. -/
def readRun : List Step :=
  [.setTargetTgid 7, .blockRqIssue (.inThread 10 7 8) (some ⟨8388608, 64⟩),
    .schedSwitch (.inThread 20 7 8) (switch 8 1 0), .blockRqComplete (.inThread 30 0 0) (some ⟨8388608, 64⟩),
    .schedSwitch (.inThread 40 0 0) (switch 0 0 8)]

theorem blockKey_shows_completed_readRun : Recorded Sizes.source readRun (traceOf readRun).events ∧
    explain sdaHost (traceOf readRun) 1 = [⟨[.blockedOnBlockIo 20 8 20 "sda" 64]⟩] ∧
    ∃ io evt j i, Served Sizes.source readRun io evt j i ∧
      sdaHost.readLink ("/sys/dev/block/" ++ toString (evt.dev >>> 20) ++ ":" ++ toString (evt.dev &&& 0xFFFFF)) =
        some "sda" ∧
      evt.sector.toNat < 2 ^ 32 ∧ (64 : UInt32).toNat = evt.sector.toNat := by
  have hrec := recorded_traceOf readRun
  have hexplain : explain sdaHost (traceOf readRun) 1 = [⟨[.blockedOnBlockIo 20 8 20 "sda" 64]⟩] := by decide +kernel
  refine ⟨hrec, hexplain, ?_⟩
  have hchain : (⟨[.blockedOnBlockIo 20 8 20 "sda" 64]⟩ : Chain) ∈ explain sdaHost (traceOf readRun) 1 := by
    rw [hexplain]
    exact List.mem_singleton_self _
  obtain ⟨b, -, -, path, -, hlines⟩ := blockKey_shows_completed.2.2.2 _ readRun _ hrec sdaHost 1 _ hchain
  obtain ⟨io, hio, hty⟩ := (hlines 0).1 ("sda", 64) rfl
  obtain ⟨shown, evt, j, i, hshown, hserved, hdev, -, hsector⟩ := (hlines 0).2 io hio hty
  obtain rfl : shown = ("sda", 64) := Option.some.inj (hshown.symm.trans rfl)
  -- the run completes one request
  have hone : evt = ⟨8388608, 64⟩ := by
    obtain ⟨h, hw⟩ := hserved.complete
    have hhalf : h = .inThread 30 0 0 ∧ evt = ⟨8388608, 64⟩ := by
      simpa [readRun, halves, Step.halves, switch] using List.mem_of_getElem? hw.half
    exact hhalf.2
  have hlt : evt.sector.toNat < 2 ^ 32 := by
    rw [hone]
    decide
  refine ⟨io, evt, j, i, hserved, hdev.resolve_right ?_, hlt, hsector hlt⟩
  rw [hone]
  decide +kernel

end Whyslow
