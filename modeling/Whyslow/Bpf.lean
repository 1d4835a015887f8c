import Whyslow.Lib.Runs
import Whyslow.Trace

/-! The ring buffer between the probes and `whyslow-cli` (`bpf.rs`): the layout of a record, and `drain_ring_buffer` as
    steps between those of the producers, which go on while it runs. -/

namespace Whyslow

/-! ### Records -/

/-- `size_of::<Event>()`: three bytes of padding before `comm`, four behind it. -/
def eventSize : Nat := 56

/-- The bytes `emit` writes; the last four are padding of any value. -/
def Event.bytes (ev : Event) (padding : Vector UInt8 4) : List UInt8 :=
  Words.toBytes 8 ev.timestampNs.toNat ++ (Words.toBytes 8 ev.durationNs.toNat ++ (Words.toBytes 8 ev.key.toNat ++
    (Words.toBytes 4 ev.pid.toNat ++ (Words.toBytes 4 ev.tid.toNat ++
      (ev.eventType :: 0 :: 0 :: 0 :: (ev.comm.toList ++ padding.toList))))))

def field (item : List UInt8) (offset width : Nat) : Nat := Words.ofBytes ((item.drop offset).take width)

def decodeEvent (item : List UInt8) : Option Event :=
  if item.length ≠ eventSize then none
  else some
    { timestampNs := UInt64.ofNat (field item 0 8)
      durationNs := UInt64.ofNat (field item 8 8)
      key := UInt64.ofNat (field item 16 8)
      pid := UInt32.ofNat (field item 24 4)
      tid := UInt32.ofNat (field item 28 4)
      eventType := item.getD 32 0
      comm := Vector.ofFn fun i => item.getD (36 + i) 0 }

/-! ### `drain_ring_buffer` -/

/-- The records in the order they were reserved in; `none` is one that is not committed yet. The consumer has released
    the first `consumed` of them. -/
structure RingBuf where
  records : List (Option (List UInt8))
  consumed : Nat
  deriving DecidableEq

def RingBuf.next (ring : RingBuf) : Option (List UInt8) := (ring.records[ring.consumed]?).join

/-- Where `drain_ring_buffer` is: at a call of `next` in the loop or in the last drain, with an item in hand, at
    `should_stop`, at `poll`, or after its return. -/
inductive DrainPc where
  | next (last : Bool)
  | decode (last : Bool) (item : List UInt8)
  | shouldStop
  | poll
  | returned
  deriving DecidableEq

def DrainPc.isNext : DrainPc → Bool
  | .next _ => true
  | _ => false

def DrainPc.isDecode : DrainPc → Bool
  | .decode _ _ => true
  | _ => false

structure Drain where
  ring : RingBuf
  events : List TraceEvent
  pc : DrainPc
  deriving DecidableEq

/-- A producer on any CPU reserves a record or commits one, or `drain_ring_buffer` takes its next step. -/
inductive DrainAct where
  | reserve
  | commit (i : Nat) (item : List UInt8)
  | next
  | decode
  | shouldStop (stop : Bool)
  | poll
  deriving DecidableEq

def Drain.start (records : List (Option (List UInt8))) : Drain := ⟨⟨records, 0⟩, [], .next false⟩

def Drain.Allows (s : Drain) : DrainAct → Prop
  | .reserve => True
  | .commit i _ => s.ring.records[i]? = some none
  | .next => s.pc.isNext
  | .decode => s.pc.isDecode
  | .shouldStop _ => s.pc = .shouldStop
  | .poll => s.pc = .poll

instance Drain.decidableAllows (s : Drain) : (a : DrainAct) → Decidable (s.Allows a)
  | .reserve => isTrue trivial
  | .commit i _ => inferInstanceAs (Decidable (s.ring.records[i]? = some none))
  | .next => inferInstanceAs (Decidable (s.pc.isNext = true))
  | .decode => inferInstanceAs (Decidable (s.pc.isDecode = true))
  | .shouldStop _ => inferInstanceAs (Decidable (s.pc = .shouldStop))
  | .poll => inferInstanceAs (Decidable (s.pc = .poll))

def Drain.push (events : List TraceEvent) (item : List UInt8) : List TraceEvent :=
  match decodeEvent item with
  | some ev => events ++ [TraceEvent.ofEvent ev]
  | none => events

def Drain.step (s : Drain) : DrainAct → Drain
  | .reserve => { s with ring.records := s.ring.records ++ [none] }
  | .commit i item => { s with ring.records := s.ring.records.set i (some item) }
  | .next =>
    match s.pc with
    | .next last =>
      match s.ring.next with
      | some item => { s with pc := .decode last item }
      | none => { s with pc := if last then .returned else .shouldStop }
    | _ => s
  | .decode =>
    match s.pc with
    -- The item is dropped at the end of the body of the loop, which releases the record.
    | .decode last item =>
      { ring := { s.ring with consumed := s.ring.consumed + 1 }, events := Drain.push s.events item, pc := .next last }
    | _ => s
  | .shouldStop stop => { s with pc := if stop then .next true else .poll }
  | .poll => { s with pc := .next false }

end Whyslow
