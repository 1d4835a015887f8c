import Whyslow.Theorems.Chain

/-! The wall clock of the headlines. `wall_ns_for` adds in a wider type and cuts the sum off at zero, but not at the end
    of 64 bits: there the narrowing wraps around. Up to that end it is the clamped sum, and the headlines keep the order
    of the stalls. -/

namespace Whyslow

/-- The wall time of `s`, in a type without bounds. -/
def TraceFile.wallAt (trace : TraceFile) (s : Nat) : Int :=
  (trace.realtimeAnchorNs.toNat : Int) + s - trace.monotonicAnchorNs.toNat

/-- The wall time of `s`, clamped to 64 bits. -/
def TraceFile.clampedWall (trace : TraceFile) (s : Nat) : Int := max 0 (min (trace.wallAt s) (2 ^ 64 - 1))

/-- The wall time of `s` is not past the end of 64 bits. -/
def TraceFile.InRange (trace : TraceFile) (s : Nat) : Prop :=
  trace.realtimeAnchorNs.toNat + s < trace.monotonicAnchorNs.toNat + 2 ^ 64

section WallNs
variable {trace : TraceFile} {s s' : UInt64}

theorem wallNsFor_toNat (trace : TraceFile) (s : UInt64) :
    (trace.wallNsFor s).toNat = (max (trace.wallAt s.toNat) 0).toNat % 2 ^ 64 := by
  unfold TraceFile.wallNsFor TraceFile.wallAt
  rw [UInt64.toNat_ofNat', add_sub_assoc]

/-- `wall_ns_for` is the clamped sum exactly where the sum is not past the end of 64 bits. -/
theorem wallNsFor_eq_clamped_iff :
    ((trace.wallNsFor s).toNat : Int) = trace.clampedWall s.toNat ↔ trace.InRange s.toNat := by
  have hr := trace.realtimeAnchorNs.toNat_lt
  have hs := s.toNat_lt
  rw [wallNsFor_toNat]
  unfold TraceFile.clampedWall TraceFile.wallAt TraceFile.InRange
  omega

/-- Behind the anchor nothing is cut off at zero. -/
theorem wallNsFor_eq_wallAt (hanchor : trace.monotonicAnchorNs.toNat ≤ s.toNat) (h : trace.InRange s.toNat) :
    ((trace.wallNsFor s).toNat : Int) = trace.wallAt s.toNat := by
  rw [wallNsFor_toNat]
  unfold TraceFile.InRange at h
  unfold TraceFile.wallAt
  omega

theorem wallNsFor_le (h : trace.InRange s'.toNat) (hle : s.toNat ≤ s'.toNat) :
    trace.wallNsFor s ≤ trace.wallNsFor s' := by
  rw [UInt64.le_iff_toNat_le, wallNsFor_toNat, wallNsFor_toNat]
  unfold TraceFile.InRange at h
  unfold TraceFile.wallAt
  omega

end WallNs

/-! ### Headlines -/

def Line.wall? : Line → Option UInt64
  | .blockedOnFutex wall _ _ _ | .blockedOnBlockIo wall _ _ _ _ | .blockedUnknown wall _ _ => some wall
  | .wokenBy _ | .priorFutex _ _ _ | .priorBlockIo _ _ _ _ => none

/-- The wall time in the headline of a stall. -/
def headlineWall (host : Host) (trace : TraceFile) (names : DevNames) (b : TraceEvent) : Option UInt64 :=
  (explainOneStall host b trace (Typed.partition trace.events) names).1.lines.head?.bind Line.wall?

theorem headlineWall_eq (host : Host) (trace : TraceFile) (names : DevNames) (b : TraceEvent) :
    headlineWall host trace names b = some (trace.wallNsFor (Words.saturatingSub b.timestampNs b.durationNs)) := by
  obtain ⟨path, -, -, -, hlines⟩ := exists_stallPath host trace b names
  rw [headlineWall, hlines, chainLines, List.head?_cons, Option.bind_some]
  cases path.head? with
  | none => rfl
  | some e =>
    unfold headline
    dsimp only
    split <;> rfl

/-- `wall_ns_for` is the clamped sum exactly where the sum is not past the end of 64 bits. The wall times of two
    headlines are the clamped sums, in the order of the starts of the stalls, exactly when that of the later start is
    not past it. -/
theorem headlines_in_order_iff (host : Host) (trace : TraceFile) (names names' : DevNames) :
    (∀ s : UInt64, ((trace.wallNsFor s).toNat : Int) = trace.clampedWall s.toNat ↔ trace.InRange s.toNat) ∧
    ∀ b b' : TraceEvent, b.starts ≤ b'.starts →
      ((∃ wall wall', headlineWall host trace names b = some wall ∧ headlineWall host trace names' b' = some wall' ∧
        wall ≤ wall' ∧ (wall.toNat : Int) = trace.clampedWall b.starts ∧
        (wall'.toNat : Int) = trace.clampedWall b'.starts) ↔ trace.InRange b'.starts) := by
  refine ⟨fun s => wallNsFor_eq_clamped_iff, ?_⟩
  intro b b' hle
  have hs : (Words.saturatingSub b.timestampNs b.durationNs).toNat = b.starts := Words.saturatingSub_toNat _ _
  have hs' : (Words.saturatingSub b'.timestampNs b'.durationNs).toNat = b'.starts := Words.saturatingSub_toNat _ _
  rw [headlineWall_eq, headlineWall_eq, ← hs, ← hs']
  rw [← hs, ← hs'] at hle
  refine ⟨?_, ?_⟩
  · rintro ⟨wall, wall', -, ⟨⟩, -, -, hclamped⟩
    exact wallNsFor_eq_clamped_iff.mp hclamped
  · intro h
    have hearlier : trace.InRange (Words.saturatingSub b.timestampNs b.durationNs).toNat := by
      unfold TraceFile.InRange at h ⊢
      omega
    exact ⟨_, _, rfl, rfl, wallNsFor_le h hle, wallNsFor_eq_clamped_iff.mpr hearlier, wallNsFor_eq_clamped_iff.mpr h⟩

/-- A stall from 0 to 10. -/
def firstStall : TraceEvent := ⟨10, 10, 0, 7, 8, eventSchedBlock, ""⟩

/-- A stall from 1 to 11. -/
def secondStall : TraceEvent := ⟨11, 10, 0, 7, 9, eventSchedBlock, ""⟩

/-- A trace whose realtime anchor is the last of 64 bits. -/
def lastInstant : TraceFile := ⟨18446744073709551615, 0, [firstStall, secondStall]⟩

/-- In `lastInstant` the later stall has a wall time that is wrapped around, before that of the earlier one. -/
theorem lastInstant_out_of_order : firstStall.starts ≤ secondStall.starts ∧
    (∀ host names names', ∃ wall wall', headlineWall host lastInstant names firstStall = some wall ∧
      headlineWall host lastInstant names' secondStall = some wall' ∧ wall' < wall) ∧
    ((lastInstant.wallNsFor 1).toNat : Int) = 0 ∧ lastInstant.clampedWall 1 = 2 ^ 64 - 1 := by
  refine ⟨by decide, ?_, by decide, by decide⟩
  intro host names names'
  exact ⟨_, _, headlineWall_eq host lastInstant names firstStall, headlineWall_eq host lastInstant names' secondStall,
    by decide⟩

/-- A trace with the anchors of an ordinary machine. -/
def ordinaryAnchors : TraceFile := ⟨1700000000000000000, 5, [firstStall, secondStall]⟩

theorem headlines_in_order_iff_ordinaryAnchors : firstStall.starts ≤ secondStall.starts ∧
    ordinaryAnchors.InRange secondStall.starts ∧
    ∀ host names names', ∃ wall wall', headlineWall host ordinaryAnchors names firstStall = some wall ∧
      headlineWall host ordinaryAnchors names' secondStall = some wall' ∧ wall ≤ wall' ∧
      (wall.toNat : Int) = ordinaryAnchors.clampedWall firstStall.starts ∧
      (wall'.toNat : Int) = ordinaryAnchors.clampedWall secondStall.starts := by
  have hle : firstStall.starts ≤ secondStall.starts := by decide
  have hin : ordinaryAnchors.InRange secondStall.starts := by
    unfold TraceFile.InRange
    decide
  refine ⟨hle, hin, ?_⟩
  intro host names names'
  exact ((headlines_in_order_iff host ordinaryAnchors names names').2 firstStall secondStall hle).mpr hin

end Whyslow
