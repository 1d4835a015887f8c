import Whyslow.Lib.Words

/-! The event schema of `whyslow-common`, shared by the probes and the correlation engine. -/

namespace Whyslow

-- `durationNs` is the time off-CPU, the span of the futex call or the latency of the request; `key` is
-- zero, the address of the futex or the packed `(dev, sector)`.
def eventSchedBlock : UInt8 := 0
def eventFutexWait : UInt8 := 1
def eventFutexWake : UInt8 := 2
def eventBlockIo : UInt8 := 3

def taskCommLen : Nat := 16

abbrev Comm := Vector UInt8 taskCommLen

/-- The record written to the ring buffer, stamped at the end of the span it describes. -/
@[ext]
structure Event where
  timestampNs : UInt64
  durationNs : UInt64
  key : UInt64
  pid : UInt32
  tid : UInt32
  eventType : UInt8
  comm : Comm
  deriving DecidableEq

def Event.new (timestampNs durationNs key : UInt64) (pid tid : UInt32) (eventType : UInt8) (comm : Comm) : Event :=
  { timestampNs, durationNs, key, pid, tid, eventType, comm }

def packBlockKey (dev : UInt32) (sector : UInt64) : UInt64 := (dev.toUInt64 <<< 32) ||| (sector &&& 0xFFFFFFFF)

def unpackBlockKey (key : UInt64) : UInt32 × UInt32 := ((key >>> 32).toUInt32, (key &&& 0xFFFFFFFF).toUInt32)

theorem packBlockKey_eq_join (dev : UInt32) (sector : UInt64) :
    packBlockKey dev sector = Words.join dev (Words.lower sector) := by
  have hlow : (sector &&& 0xFFFFFFFF) = (Words.lower sector).toUInt64 := by
    apply UInt64.toNat_inj.mp
    rw [UInt32.toNat_toUInt64, Words.lower_toNat]
    simp only [UInt64.toNat_and, UInt64.reduceToNat]
    exact Nat.and_two_pow_sub_one_eq_mod _ 32
  simp only [packBlockKey, Words.join, hlow]

/-- Two requests share a key exactly when they are on one device, at sectors equal modulo 2^32. -/
theorem packBlockKey_eq_iff {dev dev' : UInt32} {sector sector' : UInt64} :
    packBlockKey dev sector = packBlockKey dev' sector' ↔
      dev = dev' ∧ sector.toNat % 2 ^ 32 = sector'.toNat % 2 ^ 32 := by
  rw [packBlockKey_eq_join, packBlockKey_eq_join]
  refine ⟨fun h => ⟨?_, ?_⟩, fun h => ?_⟩
  · simpa using congrArg Words.upper h
  · have := congrArg (fun w => (Words.lower w).toNat) h
    simpa only [Words.lower_join, Words.lower_toNat] using this
  · have hlow : Words.lower sector = Words.lower sector' := by
      apply UInt32.toNat_inj.mp
      rw [Words.lower_toNat, Words.lower_toNat]
      exact h.2
    rw [h.1, hlow]

end Whyslow
