import Whyslow.Bpf
import Whyslow.Theorems.Utf8

/-! The records of the ring buffer. A record is laid out as an event if it has the fields of the event, little-endian,
    at the offsets of `repr(C)`; what is between them is padding. `decode_event` returns the event a record is laid out
    as, and every record of the size of an event is laid out as one. -/

namespace Whyslow

structure LaidOut (ev : Event) (item : List UInt8) : Prop where
  size : item.length = eventSize
  timestampNs : (item.drop 0).take 8 = Words.toBytes 8 ev.timestampNs.toNat
  durationNs : (item.drop 8).take 8 = Words.toBytes 8 ev.durationNs.toNat
  key : (item.drop 16).take 8 = Words.toBytes 8 ev.key.toNat
  pid : (item.drop 24).take 4 = Words.toBytes 4 ev.pid.toNat
  tid : (item.drop 28).take 4 = Words.toBytes 4 ev.tid.toNat
  eventType : (item.drop 32).take 1 = [ev.eventType]
  comm : (item.drop 36).take 16 = ev.comm.toList

/-- The record of an event with the three bytes of `_pad` and the four behind `comm`. -/
def Event.record (ev : Event) (pad : Vector UInt8 3) (padding : Vector UInt8 4) : List UInt8 :=
  Words.toBytes 8 ev.timestampNs.toNat ++ (Words.toBytes 8 ev.durationNs.toNat ++ (Words.toBytes 8 ev.key.toNat ++
    (Words.toBytes 4 ev.pid.toNat ++ (Words.toBytes 4 ev.tid.toNat ++
      ([ev.eventType] ++ (pad.toList ++ (ev.comm.toList ++ padding.toList)))))))

/-- The offsets of the padding. -/
def IsPadding (k : Nat) : Prop := (33 ≤ k ∧ k < 36) ∨ (52 ≤ k ∧ k < 56)

/-! ### Writing -/

section Record
variable (ev : Event) (pad : Vector UInt8 3) (padding : Vector UInt8 4)

theorem length_record : (ev.record pad padding).length = eventSize := by
  have hcomm : (Vector.toList ev.comm).length = 16 := Vector.length_toList
  simp only [Event.record, List.length_append, List.length_singleton, Words.length_toBytes, hcomm, Vector.length_toList]
  rfl

theorem drop_add_left {l₁ : List UInt8} {width : Nat} (h : l₁.length = width) (offset : Nat) (l : List UInt8) :
    (l₁ ++ l).drop (width + offset) = l.drop offset := by
  rw [← List.drop_drop, List.drop_left' h]

theorem laidOut_record : LaidOut ev (ev.record pad padding) := by
  have h8 : ∀ n, (Words.toBytes 8 n).length = 8 := Words.length_toBytes 8
  have h4 : ∀ n, (Words.toBytes 4 n).length = 4 := Words.length_toBytes 4
  have h1 : [ev.eventType].length = 1 := rfl
  have h3 : pad.toList.length = 3 := Vector.length_toList
  have h16 : (Vector.toList ev.comm).length = 16 := Vector.length_toList
  refine ⟨length_record ev pad padding, ?_, ?_, ?_, ?_, ?_, ?_, ?_⟩
  · rw [Event.record, List.drop_zero, List.take_left' (h8 _)]
  · rw [Event.record, drop_add_left (h8 _) 0, List.drop_zero, List.take_left' (h8 _)]
  · rw [Event.record, drop_add_left (h8 _) 8, drop_add_left (h8 _) 0, List.drop_zero, List.take_left' (h8 _)]
  · rw [Event.record, drop_add_left (h8 _) 16, drop_add_left (h8 _) 8, drop_add_left (h8 _) 0, List.drop_zero,
      List.take_left' (h4 _)]
  · rw [Event.record, drop_add_left (h8 _) 20, drop_add_left (h8 _) 12, drop_add_left (h8 _) 4,
      drop_add_left (h4 _) 0, List.drop_zero, List.take_left' (h4 _)]
  · rw [Event.record, drop_add_left (h8 _) 24, drop_add_left (h8 _) 16, drop_add_left (h8 _) 8,
      drop_add_left (h4 _) 4, drop_add_left (h4 _) 0, List.drop_zero, List.take_left' h1]
  · rw [Event.record, drop_add_left (h8 _) 28, drop_add_left (h8 _) 20, drop_add_left (h8 _) 12,
      drop_add_left (h4 _) 8, drop_add_left (h4 _) 4, drop_add_left h1 3, drop_add_left h3 0, List.drop_zero,
      List.take_left' h16]

theorem bytes_eq_record : ev.bytes padding = ev.record (Vector.replicate 3 0) padding := rfl

end Record

/-! ### Reading -/

section Reading
variable {ev : Event} {item item' : List UInt8} {offset width k : Nat}

theorem getElem?_take_drop (hk : k < width) : ((item.drop offset).take width)[k]? = item[offset + k]? := by
  rw [List.getElem?_take_of_lt hk, List.getElem?_drop]

theorem take_drop_eq_ofFn (h : offset + width ≤ item.length) :
    (item.drop offset).take width = List.ofFn fun i : Fin width => item.getD (offset + i) 0 := by
  refine List.ext_getElem ?_ ?_
  · rw [List.length_take, List.length_drop, List.length_ofFn]
    omega
  · intro i hi hi'
    have hlt : offset + i < item.length := by
      rw [List.length_ofFn] at hi'
      omega
    rw [List.getElem_take, List.getElem_drop, List.getElem_ofFn, List.getD_eq_getElem _ _ hlt]

theorem length_take_drop (h : offset + width ≤ item.length) : ((item.drop offset).take width).length = width := by
  rw [List.length_take, List.length_drop]
  omega

theorem toBytes_field (h : offset + width ≤ item.length) :
    Words.toBytes width (field item offset width) = (item.drop offset).take width := by
  have hbytes := Words.toBytes_ofBytes ((item.drop offset).take width)
  rw [length_take_drop h] at hbytes
  exact hbytes

theorem field_lt (h : offset + width ≤ item.length) : field item offset width < 256 ^ width := by
  have hlt := Words.ofBytes_lt ((item.drop offset).take width)
  rw [length_take_drop h] at hlt
  exact hlt

theorem toBytes_field_uint64 (h : offset + 8 ≤ item.length) :
    Words.toBytes 8 (UInt64.ofNat (field item offset 8)).toNat = (item.drop offset).take 8 := by
  rw [UInt64.toNat_ofNat_of_lt' (field_lt h), toBytes_field h]

theorem toBytes_field_uint32 (h : offset + 4 ≤ item.length) :
    Words.toBytes 4 (UInt32.ofNat (field item offset 4)).toNat = (item.drop offset).take 4 := by
  rw [UInt32.toNat_ofNat_of_lt' (field_lt h), toBytes_field h]

theorem decodeEvent_isSome_iff : (decodeEvent item).isSome ↔ item.length = eventSize := by
  unfold decodeEvent
  split
  · rename_i h
    simp [h]
  · rename_i h
    simp [not_not.mp h]

theorem LaidOut.decodeEvent (h : LaidOut ev item) : decodeEvent item = some ev := by
  have htype : item.getD 32 0 = ev.eventType := by
    have hget : ((item.drop 32).take 1)[0]? = item[32 + 0]? := getElem?_take_drop (by decide)
    rw [h.eventType] at hget
    rw [List.getD_eq_getElem?_getD, ← Nat.add_zero 32, ← hget]
    rfl
  have hcomm : (Vector.ofFn fun i : Fin taskCommLen => item.getD (36 + i) 0) = ev.comm := by
    ext i hi
    have hget : ((item.drop 36).take 16)[i]? = item[36 + i]? := getElem?_take_drop hi
    rw [h.comm] at hget
    rw [Vector.getElem_ofFn, List.getD_eq_getElem?_getD, ← hget]
    simp [Vector.getElem?_eq_getElem hi]
  unfold Whyslow.decodeEvent field
  rw [if_neg (not_not.mpr h.size), h.timestampNs, h.durationNs, h.key, h.pid, h.tid, htype, hcomm]
  simp only [Words.ofBytes_toBytes_uint64, Words.ofBytes_toBytes_uint32]

theorem laidOut_of_decodeEvent (h : decodeEvent item = some ev) : LaidOut ev item := by
  unfold decodeEvent at h
  split at h
  · cases h
  · rename_i hsize
    obtain rfl := Option.some.inj h
    have hsize : item.length = 56 := not_not.mp hsize
    refine ⟨hsize, ?_, ?_, ?_, ?_, ?_, ?_, ?_⟩
    · exact (toBytes_field_uint64 (by omega)).symm
    · exact (toBytes_field_uint64 (by omega)).symm
    · exact (toBytes_field_uint64 (by omega)).symm
    · exact (toBytes_field_uint32 (by omega)).symm
    · exact (toBytes_field_uint32 (by omega)).symm
    · exact take_drop_eq_ofFn (by omega)
    · rw [take_drop_eq_ofFn (by omega), Vector.toList_ofFn]
      rfl

theorem getElem?_of_take_drop (h : (item.drop offset).take width = (item'.drop offset).take width) (ho : offset ≤ k)
    (hk : k < offset + width) : item[k]? = item'[k]? := by
  have hlt : k - offset < width := by omega
  have heq : offset + (k - offset) = k := by omega
  rw [← heq, ← getElem?_take_drop hlt, ← getElem?_take_drop hlt, h]

/-- Two records of one event differ in the padding only. -/
theorem LaidOut.getElem? (h : LaidOut ev item) (h' : LaidOut ev item') (hk : ¬IsPadding k) : item[k]? = item'[k]? := by
  unfold IsPadding at hk
  rcases Nat.lt_or_ge k 8 with h0 | h8
  · exact getElem?_of_take_drop (h.timestampNs.trans h'.timestampNs.symm) (Nat.zero_le k) (by omega)
  rcases Nat.lt_or_ge k 16 with hlt | h16
  · exact getElem?_of_take_drop (h.durationNs.trans h'.durationNs.symm) h8 hlt
  rcases Nat.lt_or_ge k 24 with hlt | h24
  · exact getElem?_of_take_drop (h.key.trans h'.key.symm) h16 hlt
  rcases Nat.lt_or_ge k 28 with hlt | h28
  · exact getElem?_of_take_drop (h.pid.trans h'.pid.symm) h24 hlt
  rcases Nat.lt_or_ge k 32 with hlt | h32
  · exact getElem?_of_take_drop (h.tid.trans h'.tid.symm) h28 hlt
  rcases Nat.lt_or_ge k 33 with hlt | h33
  · exact getElem?_of_take_drop (h.eventType.trans h'.eventType.symm) h32 hlt
  rcases Nat.lt_or_ge k 52 with hlt | h52
  · exact getElem?_of_take_drop (h.comm.trans h'.comm.symm) (by omega) hlt
  · have hout : eventSize ≤ k := by
      unfold eventSize
      omega
    rw [List.getElem?_eq_none (h.size.trans_le hout), List.getElem?_eq_none (h'.size.trans_le hout)]

end Reading

theorem decodeEvent_record (ev : Event) (pad : Vector UInt8 3) (padding : Vector UInt8 4) :
    decodeEvent (ev.record pad padding) = some ev := (laidOut_record ev pad padding).decodeEvent

/-- Every event `emit` writes is read back as it was. -/
theorem decodeEvent_bytes (ev : Event) (padding : Vector UInt8 4) : decodeEvent (ev.bytes padding) = some ev := by
  rw [bytes_eq_record, decodeEvent_record]

/-! ### Command names -/

/-- The bytes of the command name, up to the first NUL. -/
def Event.commName (ev : Event) : List UInt8 := ev.comm.toList.takeWhile (· ≠ 0)

theorem take_findIdx?_eq_takeWhile (l : List UInt8) :
    l.take ((l.findIdx? (· = 0)).getD l.length) = l.takeWhile (· ≠ 0) := by
  induction l with
  | nil => rfl
  | cons b l ih =>
    by_cases hb : b = 0
    · simp [List.findIdx?_cons, hb]
    · cases hi : l.findIdx? (· = 0) with
      | none =>
        rw [hi] at ih
        simpa [List.findIdx?_cons, hb, hi] using ih
      | some i =>
        rw [hi] at ih
        simpa [List.findIdx?_cons, hb, hi] using ih

theorem ofEvent_comm (ev : Event) : (TraceEvent.ofEvent ev).comm = fromUtf8Lossy ev.commName := by
  rw [Event.commName, ← take_findIdx?_eq_takeWhile]
  rfl

/-- The wire format goes round. Whatever the padding, a record gives back the fields of its event, and its command name
    if that is valid UTF-8; a byte string is a record if and only if it has the size of one, and the event it gives
    writes it again, up to the padding. -/
theorem wire_roundTrip :
    (∀ (ev : Event) (pad : Vector UInt8 3) (padding : Vector UInt8 4), LaidOut ev (ev.record pad padding) ∧
      ∃ e, (decodeEvent (ev.record pad padding)).map TraceEvent.ofEvent = some e ∧ e.timestampNs = ev.timestampNs ∧
        e.durationNs = ev.durationNs ∧ e.key = ev.key ∧ e.pid = ev.pid ∧ e.tid = ev.tid ∧ e.eventType = ev.eventType ∧
        (ev.commName.toByteArray.IsValidUTF8 → e.comm.toByteArray = ev.commName.toByteArray)) ∧
    (∀ item, (decodeEvent item).isSome ↔ item.length = 56) ∧
    ∀ item ev, decodeEvent item = some ev → ∀ (pad : Vector UInt8 3) (padding : Vector UInt8 4) (k : Nat),
      ¬IsPadding k → (ev.record pad padding)[k]? = item[k]? := by
  refine ⟨?_, fun item => decodeEvent_isSome_iff, ?_⟩
  · intro ev pad padding
    refine ⟨laidOut_record ev pad padding, TraceEvent.ofEvent ev, ?_, rfl, rfl, rfl, rfl, rfl, rfl, ?_⟩
    · rw [decodeEvent_record]
      rfl
    · intro hvalid
      rw [ofEvent_comm]
      exact toByteArray_fromUtf8Lossy hvalid
  · intro item ev h pad padding k hk
    exact (laidOut_record ev pad padding).getElem? (laidOut_of_decodeEvent h) hk

/-- An event of a thread named "é", with a byte behind the NUL. -/
def accented : Event :=
  .new 40 10 0x1000 7 8 eventFutexWait #v[0xC3, 0xA9, 0, 0x41, 0, 0, 0, 0, 0, 0, 0, 0, 0, 0, 0, 0]

theorem wire_roundTrip_accented : ∃ e, (decodeEvent (accented.record #v[1, 2, 3] #v[4, 5, 6, 7])).map
    TraceEvent.ofEvent = some e ∧ e.key = 0x1000 ∧ e.comm = "é" := by
  have hname : accented.commName = "é".toList.flatMap String.utf8EncodeChar := by decide
  have hbytes : accented.commName.toByteArray = "é".toByteArray := by
    rw [hname]
    rfl
  obtain ⟨-, e, hdec, -, -, hkey, -, -, -, hcomm⟩ := wire_roundTrip.1 accented #v[1, 2, 3] #v[4, 5, 6, 7]
  have hvalid : accented.commName.toByteArray.IsValidUTF8 := ⟨['é'], congrArg List.toByteArray hname⟩
  exact ⟨e, hdec, hkey, String.toByteArray_inj.mp ((hcomm hvalid).trans hbytes)⟩

end Whyslow
