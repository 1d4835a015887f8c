import Mathlib

/-! Machine words: saturating subtraction, two 32-bit words in one 64-bit word, and words as bytes in memory. -/

namespace Words

def saturatingSub (a b : UInt64) : UInt64 := if b ≤ a then a - b else 0

@[simp] theorem saturatingSub_toNat (a b : UInt64) : (saturatingSub a b).toNat = a.toNat - b.toNat := by
  unfold saturatingSub
  split
  · rename_i h
    exact UInt64.toNat_sub_of_le _ _ h
  · rename_i h
    rw [UInt64.le_iff_toNat_le] at h
    simp only [UInt64.toNat_zero]
    omega

/-- Subtraction that fails below zero. -/
def checkedSub (a b : UInt64) : Option UInt64 := if b ≤ a then some (a - b) else none

theorem checkedSub_eq_some {a b : UInt64} (h : b ≤ a) : checkedSub a b = some (a - b) := if_pos h

theorem saturatingSub_eq_sub {a b : UInt64} (h : b ≤ a) : saturatingSub a b = a - b := if_pos h

def join (hi lo : UInt32) : UInt64 := (hi.toUInt64 <<< 32) ||| lo.toUInt64

def upper (w : UInt64) : UInt32 := (w >>> 32).toUInt32

def lower (w : UInt64) : UInt32 := (w &&& 0xFFFFFFFF).toUInt32

theorem join_toNat (hi lo : UInt32) : (join hi lo).toNat = hi.toNat * 2 ^ 32 + lo.toNat := by
  have hlo : lo.toNat < 2 ^ 32 := lo.toNat_lt
  have hhi : hi.toNat < 2 ^ 32 := hi.toNat_lt
  have hshift : hi.toNat <<< 32 < 2 ^ 64 := by
    rw [Nat.shiftLeft_eq]
    omega
  have hmod : hi.toNat <<< (32 % 64) % 2 ^ 64 = hi.toNat <<< 32 := Nat.mod_eq_of_lt hshift
  simp only [join, UInt64.toNat_or, UInt64.toNat_shiftLeft, UInt32.toNat_toUInt64, UInt64.reduceToNat]
  rw [hmod, ← Nat.shiftLeft_add_eq_or_of_lt hlo, Nat.shiftLeft_eq]

theorem upper_toNat (w : UInt64) : (upper w).toNat = w.toNat / 2 ^ 32 := by
  have hw : w.toNat < 2 ^ 64 := w.toNat_lt
  have hshift : w.toNat >>> (32 % 64) = w.toNat / 2 ^ 32 := Nat.shiftRight_eq_div_pow _ _
  simp only [upper, UInt64.toNat_toUInt32, UInt64.toNat_shiftRight, UInt64.reduceToNat]
  rw [hshift]
  exact Nat.mod_eq_of_lt (by omega)

theorem lower_toNat (w : UInt64) : (lower w).toNat = w.toNat % 2 ^ 32 := by
  have hand : w.toNat &&& 4294967295 = w.toNat % 2 ^ 32 := Nat.and_two_pow_sub_one_eq_mod _ 32
  simp only [lower, UInt64.toNat_toUInt32, UInt64.toNat_and, UInt64.reduceToNat]
  rw [hand]
  exact Nat.mod_mod _ _

@[simp] theorem upper_join (hi lo : UInt32) : upper (join hi lo) = hi := by
  apply UInt32.toNat_inj.mp
  have hlo : lo.toNat < 2 ^ 32 := lo.toNat_lt
  rw [upper_toNat, join_toNat]
  omega

@[simp] theorem lower_join (hi lo : UInt32) : lower (join hi lo) = lo := by
  apply UInt32.toNat_inj.mp
  have hlo : lo.toNat < 2 ^ 32 := lo.toNat_lt
  rw [lower_toNat, join_toNat]
  omega

@[simp] theorem lower_toUInt64 (w : UInt32) : lower w.toUInt64 = w := by
  apply UInt32.toNat_inj.mp
  rw [lower_toNat, UInt32.toNat_toUInt64]
  exact Nat.mod_eq_of_lt w.toNat_lt

theorem join_upper_lower (w : UInt64) : join (upper w) (lower w) = w := by
  apply UInt64.toNat_inj.mp
  rw [join_toNat, upper_toNat, lower_toNat]
  omega

/-! ### Little-endian bytes -/

def ofBytes : List UInt8 → Nat
  | [] => 0
  | b :: bytes => b.toNat + 256 * ofBytes bytes

def toBytes : Nat → Nat → List UInt8
  | 0, _ => []
  | width + 1, n => UInt8.ofNat n :: toBytes width (n / 256)

@[simp] theorem length_toBytes (width n : Nat) : (toBytes width n).length = width := by
  induction width generalizing n with
  | zero => rfl
  | succ width ih => rw [toBytes, List.length_cons, ih]

theorem ofBytes_toBytes (width n : Nat) : ofBytes (toBytes width n) = n % 256 ^ width := by
  induction width generalizing n with
  | zero => rw [pow_zero, Nat.mod_one, toBytes, ofBytes]
  | succ width ih =>
    have hbyte : (UInt8.ofNat n).toNat = n % 256 := UInt8.toNat_ofNat'
    rw [toBytes, ofBytes, ih, hbyte, pow_succ, mul_comm (256 ^ width), Nat.mod_mul]

theorem ofBytes_toBytes_uint64 (w : UInt64) : UInt64.ofNat (ofBytes (toBytes 8 w.toNat)) = w := by
  have hw : w.toNat < 256 ^ 8 := w.toNat_lt
  rw [ofBytes_toBytes, Nat.mod_eq_of_lt hw, UInt64.ofNat_toNat]

theorem ofBytes_toBytes_uint32 (w : UInt32) : UInt32.ofNat (ofBytes (toBytes 4 w.toNat)) = w := by
  have hw : w.toNat < 256 ^ 4 := w.toNat_lt
  rw [ofBytes_toBytes, Nat.mod_eq_of_lt hw, UInt32.ofNat_toNat]

theorem ofBytes_lt (l : List UInt8) : ofBytes l < 256 ^ l.length := by
  induction l with
  | nil => decide
  | cons b l ih =>
    have hb := b.toNat_lt
    rw [ofBytes, List.length_cons, pow_succ]
    omega

theorem toBytes_ofBytes (l : List UInt8) : toBytes l.length (ofBytes l) = l := by
  induction l with
  | nil => rfl
  | cons b l ih =>
    have hb := b.toNat_lt
    have hhead : UInt8.ofNat (ofBytes (b :: l)) = b := by
      apply UInt8.toNat_inj.mp
      rw [UInt8.toNat_ofNat', ofBytes]
      omega
    have htail : ofBytes (b :: l) / 256 = ofBytes l := by
      rw [ofBytes]
      omega
    rw [List.length_cons, toBytes, hhead, htail, ih]

end Words
