import Whyslow.Common

/-! The trace file of `whyslow-cli` (`trace.rs`): the owned form of the events and the clock anchors. -/

namespace Whyslow

/-! ### `String::from_utf8_lossy` -/

def isContinuation (b : UInt8) : Bool := 0x80 ≤ b && b ≤ 0xBF

/-- The second bytes that may follow the first byte of a three-byte character. -/
def isSecondOfThree (b₀ b₁ : UInt8) : Bool :=
  if b₀ = 0xE0 then 0xA0 ≤ b₁ && b₁ ≤ 0xBF
  else if b₀ = 0xED then 0x80 ≤ b₁ && b₁ ≤ 0x9F
  else isContinuation b₁

def isSecondOfFour (b₀ b₁ : UInt8) : Bool :=
  if b₀ = 0xF0 then 0x90 ≤ b₁ && b₁ ≤ 0xBF
  else if b₀ = 0xF4 then 0x80 ≤ b₁ && b₁ ≤ 0x8F
  else isContinuation b₁

def utf8Char (first : Nat) (rest : List UInt8) : Char :=
  Char.ofNat (rest.foldl (fun n b => n * 64 + b.toNat % 64) first)

def replacementChar : Char := Char.ofNat 0xFFFD

/-- The character that starts with `b₀` and the number of further bytes it takes. The bytes of an
    ill-formed sequence up to the one that breaks it become one replacement character. -/
def decodeOne (b₀ : UInt8) (rest : List UInt8) : Char × Nat :=
  if b₀ < 0x80 then (utf8Char b₀.toNat [], 0)
  else if 0xC2 ≤ b₀ && b₀ ≤ 0xDF then
    match rest with
    | [] => (replacementChar, 0)
    | b₁ :: _ => if isContinuation b₁ then (utf8Char (b₀.toNat % 32) [b₁], 1) else (replacementChar, 0)
  else if 0xE0 ≤ b₀ && b₀ ≤ 0xEF then
    match rest with
    | [] => (replacementChar, 0)
    | [b₁] => (replacementChar, if isSecondOfThree b₀ b₁ then 1 else 0)
    | b₁ :: b₂ :: _ =>
      if !isSecondOfThree b₀ b₁ then (replacementChar, 0)
      else if !isContinuation b₂ then (replacementChar, 1)
      else (utf8Char (b₀.toNat % 16) [b₁, b₂], 2)
  else if 0xF0 ≤ b₀ && b₀ ≤ 0xF4 then
    match rest with
    | [] => (replacementChar, 0)
    | [b₁] => (replacementChar, if isSecondOfFour b₀ b₁ then 1 else 0)
    | [b₁, b₂] => (replacementChar, if !isSecondOfFour b₀ b₁ then 0 else if isContinuation b₂ then 2 else 1)
    | b₁ :: b₂ :: b₃ :: _ =>
      if !isSecondOfFour b₀ b₁ then (replacementChar, 0)
      else if !isContinuation b₂ then (replacementChar, 1)
      else if !isContinuation b₃ then (replacementChar, 2)
      else (utf8Char (b₀.toNat % 8) [b₁, b₂, b₃], 3)
  else (replacementChar, 0)

def utf8Lossy : Nat → List UInt8 → List Char
  | _, [] => []
  | skip + 1, _ :: rest => utf8Lossy skip rest
  | 0, b₀ :: rest => (decodeOne b₀ rest).1 :: utf8Lossy (decodeOne b₀ rest).2 rest

def fromUtf8Lossy (bytes : List UInt8) : String := String.ofList (utf8Lossy 0 bytes)

/-! ### Events and files -/

/-- The owned mirror of `Event`, with the command name as text. -/
structure TraceEvent where
  timestampNs : UInt64
  durationNs : UInt64
  key : UInt64
  pid : UInt32
  tid : UInt32
  eventType : UInt8
  comm : String
  deriving DecidableEq

/-- `TraceEvent::from`: the command name ends at its first NUL, or is all of `comm`. -/
def TraceEvent.ofEvent (ev : Event) : TraceEvent :=
  let commEnd := (ev.comm.toList.findIdx? (· = 0)).getD ev.comm.toList.length
  { timestampNs := ev.timestampNs
    durationNs := ev.durationNs
    key := ev.key
    pid := ev.pid
    tid := ev.tid
    eventType := ev.eventType
    comm := fromUtf8Lossy (ev.comm.toList.take commEnd) }

structure TraceFile where
  realtimeAnchorNs : UInt64
  monotonicAnchorNs : UInt64
  events : List TraceEvent
  deriving DecidableEq

/-- The sum is taken in a wider signed type, cut off below at zero, and narrowed to 64 bits. -/
def TraceFile.wallNsFor (trace : TraceFile) (eventTsNs : UInt64) : UInt64 :=
  let delta : Int := (eventTsNs.toNat : Int) - trace.monotonicAnchorNs.toNat
  UInt64.ofNat (max ((trace.realtimeAnchorNs.toNat : Int) + delta) 0).toNat

end Whyslow
