import Whyslow.Trace

/-! `String::from_utf8_lossy` on well-formed input: it reads back the characters that were encoded, one after the
    other, so that a command name that is valid UTF-8 comes out as it is. -/

namespace Whyslow

/-! ### Bytes -/

theorem isContinuation_iff {b : UInt8} : isContinuation b = true ↔ 128 ≤ b.toNat ∧ b.toNat ≤ 191 := by
  rw [isContinuation, Bool.and_eq_true, decide_eq_true_eq, decide_eq_true_eq, UInt8.le_iff_toNat_le,
    UInt8.le_iff_toNat_le]
  rfl

theorem isSecondOfThree_iff {b₀ b₁ : UInt8} : isSecondOfThree b₀ b₁ = true ↔ (128 ≤ b₁.toNat ∧ b₁.toNat ≤ 191) ∧
    (b₀.toNat = 224 → 160 ≤ b₁.toNat) ∧ (b₀.toNat = 237 → b₁.toNat ≤ 159) := by
  have hE0 : b₀ = 0xE0 ↔ b₀.toNat = 224 := UInt8.toNat_inj.symm
  have hED : b₀ = 0xED ↔ b₀.toNat = 237 := UInt8.toNat_inj.symm
  simp only [isSecondOfThree, hE0, hED]
  split
  · simp only [Bool.and_eq_true, decide_eq_true_eq, UInt8.le_iff_toNat_le, UInt8.reduceToNat]
    omega
  · split
    · simp only [Bool.and_eq_true, decide_eq_true_eq, UInt8.le_iff_toNat_le, UInt8.reduceToNat]
      omega
    · rw [isContinuation_iff]
      omega

theorem isSecondOfFour_iff {b₀ b₁ : UInt8} : isSecondOfFour b₀ b₁ = true ↔ (128 ≤ b₁.toNat ∧ b₁.toNat ≤ 191) ∧
    (b₀.toNat = 240 → 144 ≤ b₁.toNat) ∧ (b₀.toNat = 244 → b₁.toNat ≤ 143) := by
  have hF0 : b₀ = 0xF0 ↔ b₀.toNat = 240 := UInt8.toNat_inj.symm
  have hF4 : b₀ = 0xF4 ↔ b₀.toNat = 244 := UInt8.toNat_inj.symm
  simp only [isSecondOfFour, hF0, hF4]
  split
  · simp only [Bool.and_eq_true, decide_eq_true_eq, UInt8.le_iff_toNat_le, UInt8.reduceToNat]
    omega
  · split
    · simp only [Bool.and_eq_true, decide_eq_true_eq, UInt8.le_iff_toNat_le, UInt8.reduceToNat]
      omega
    · rw [isContinuation_iff]
      omega

theorem between_iff {lo b hi : UInt8} :
    (decide (lo ≤ b) && decide (b ≤ hi)) = true ↔ lo.toNat ≤ b.toNat ∧ b.toNat ≤ hi.toNat := by
  rw [Bool.and_eq_true, decide_eq_true_eq, decide_eq_true_eq, UInt8.le_iff_toNat_le, UInt8.le_iff_toNat_le]

theorem startsOne_iff {b : UInt8} : b < 0x80 ↔ b.toNat < 128 := UInt8.lt_iff_toNat_lt

theorem startsTwo_iff {b : UInt8} :
    (decide (0xC2 ≤ b) && decide (b ≤ 0xDF)) = true ↔ 194 ≤ b.toNat ∧ b.toNat ≤ 223 := between_iff

theorem startsThree_iff {b : UInt8} :
    (decide (0xE0 ≤ b) && decide (b ≤ 0xEF)) = true ↔ 224 ≤ b.toNat ∧ b.toNat ≤ 239 := between_iff

theorem startsFour_iff {b : UInt8} :
    (decide (0xF0 ≤ b) && decide (b ≤ 0xF4)) = true ↔ 240 ≤ b.toNat ∧ b.toNat ≤ 244 := between_iff

/-! ### One character -/

section One
variable {b₀ b₁ b₂ b₃ : UInt8} {rest : List UInt8}

theorem decodeOne_one (h : b₀.toNat < 128) : decodeOne b₀ rest = (Char.ofNat b₀.toNat, 0) :=
  if_pos (startsOne_iff.mpr h)

theorem decodeOne_two (h₀ : 194 ≤ b₀.toNat ∧ b₀.toNat ≤ 223) (h₁ : isContinuation b₁ = true) :
    decodeOne b₀ (b₁ :: rest) = (Char.ofNat (b₀.toNat % 32 * 64 + b₁.toNat % 64), 1) := by
  have hone : ¬b₀ < 0x80 := by
    rw [startsOne_iff]
    omega
  unfold decodeOne
  rw [if_neg hone, if_pos (startsTwo_iff.mpr h₀)]
  dsimp only
  rw [if_pos h₁]
  rfl

theorem decodeOne_three (h₀ : 224 ≤ b₀.toNat ∧ b₀.toNat ≤ 239) (h₁ : isSecondOfThree b₀ b₁ = true)
    (h₂ : isContinuation b₂ = true) : decodeOne b₀ (b₁ :: b₂ :: rest) =
      (Char.ofNat ((b₀.toNat % 16 * 64 + b₁.toNat % 64) * 64 + b₂.toNat % 64), 2) := by
  have hone : ¬b₀ < 0x80 := by
    rw [startsOne_iff]
    omega
  have htwo : ¬(decide (0xC2 ≤ b₀) && decide (b₀ ≤ 0xDF)) = true := by
    rw [startsTwo_iff]
    omega
  unfold decodeOne
  rw [if_neg hone, if_neg htwo, if_pos (startsThree_iff.mpr h₀)]
  dsimp only
  rw [h₁, h₂, if_neg (by decide), if_neg (by decide)]
  rfl

theorem decodeOne_four (h₀ : 240 ≤ b₀.toNat ∧ b₀.toNat ≤ 244) (h₁ : isSecondOfFour b₀ b₁ = true)
    (h₂ : isContinuation b₂ = true) (h₃ : isContinuation b₃ = true) : decodeOne b₀ (b₁ :: b₂ :: b₃ :: rest) =
      (Char.ofNat (((b₀.toNat % 8 * 64 + b₁.toNat % 64) * 64 + b₂.toNat % 64) * 64 + b₃.toNat % 64), 3) := by
  have hone : ¬b₀ < 0x80 := by
    rw [startsOne_iff]
    omega
  have htwo : ¬(decide (0xC2 ≤ b₀) && decide (b₀ ≤ 0xDF)) = true := by
    rw [startsTwo_iff]
    omega
  have hthree : ¬(decide (0xE0 ≤ b₀) && decide (b₀ ≤ 0xEF)) = true := by
    rw [startsThree_iff]
    omega
  unfold decodeOne
  rw [if_neg hone, if_neg htwo, if_neg hthree, if_pos (startsFour_iff.mpr h₀)]
  dsimp only
  rw [h₁, h₂, h₃, if_neg (by decide), if_neg (by decide), if_neg (by decide)]
  rfl

end One

section Encoded
variable {v : Nat} {rest : List UInt8}

theorem toNat_byte {n : Nat} (h : n < 256) : (UInt8.ofNat n).toNat = n := UInt8.toNat_ofNat_of_lt' h

theorem decodeOne_encoded_one (h : v ≤ 0x7f) : decodeOne (UInt8.ofNat v) rest = (Char.ofNat v, 0) := by
  have h₀ : (UInt8.ofNat v).toNat = v := toNat_byte (by omega)
  rw [decodeOne_one (by omega), h₀]

theorem decodeOne_encoded_two (hlo : 0x7f < v) (hhi : v ≤ 0x7ff) :
    decodeOne (UInt8.ofNat (v / 64 % 0x20 + 0xc0)) (UInt8.ofNat (v % 0x40 + 0x80) :: rest) = (Char.ofNat v, 1) := by
  have h₀ : (UInt8.ofNat (v / 64 % 0x20 + 0xc0)).toNat = v / 64 % 0x20 + 0xc0 := toNat_byte (by omega)
  have h₁ : (UInt8.ofNat (v % 0x40 + 0x80)).toNat = v % 0x40 + 0x80 := toNat_byte (by omega)
  have hval : (v / 64 % 0x20 + 0xc0) % 32 * 64 + (v % 0x40 + 0x80) % 64 = v := by omega
  rw [decodeOne_two (by omega) (isContinuation_iff.mpr (by omega)), h₀, h₁, hval]

-- The second byte is in its range because `v` is no surrogate and needs three bytes.
theorem decodeOne_encoded_three (hlo : 0x7ff < v) (hhi : v ≤ 0xffff) (hscalar : v < 0xd800 ∨ 0xdfff < v) :
    decodeOne (UInt8.ofNat (v / 4096 % 0x10 + 0xe0))
      (UInt8.ofNat (v / 64 % 0x40 + 0x80) :: UInt8.ofNat (v % 0x40 + 0x80) :: rest) = (Char.ofNat v, 2) := by
  have h₀ : (UInt8.ofNat (v / 4096 % 0x10 + 0xe0)).toNat = v / 4096 % 0x10 + 0xe0 := toNat_byte (by omega)
  have h₁ : (UInt8.ofNat (v / 64 % 0x40 + 0x80)).toNat = v / 64 % 0x40 + 0x80 := toNat_byte (by omega)
  have h₂ : (UInt8.ofNat (v % 0x40 + 0x80)).toNat = v % 0x40 + 0x80 := toNat_byte (by omega)
  have hval : ((v / 4096 % 0x10 + 0xe0) % 16 * 64 + (v / 64 % 0x40 + 0x80) % 64) * 64 + (v % 0x40 + 0x80) % 64 = v := by
    omega
  rw [decodeOne_three (by omega) (isSecondOfThree_iff.mpr (by omega)) (isContinuation_iff.mpr (by omega)), h₀, h₁, h₂,
    hval]

theorem decodeOne_encoded_four (hlo : 0xffff < v) (hhi : v < 0x110000) :
    decodeOne (UInt8.ofNat (v / 262144 % 0x08 + 0xf0)) (UInt8.ofNat (v / 4096 % 0x40 + 0x80) ::
      UInt8.ofNat (v / 64 % 0x40 + 0x80) :: UInt8.ofNat (v % 0x40 + 0x80) :: rest) = (Char.ofNat v, 3) := by
  have h₀ : (UInt8.ofNat (v / 262144 % 0x08 + 0xf0)).toNat = v / 262144 % 0x08 + 0xf0 := toNat_byte (by omega)
  have h₁ : (UInt8.ofNat (v / 4096 % 0x40 + 0x80)).toNat = v / 4096 % 0x40 + 0x80 := toNat_byte (by omega)
  have h₂ : (UInt8.ofNat (v / 64 % 0x40 + 0x80)).toNat = v / 64 % 0x40 + 0x80 := toNat_byte (by omega)
  have h₃ : (UInt8.ofNat (v % 0x40 + 0x80)).toNat = v % 0x40 + 0x80 := toNat_byte (by omega)
  have hval : (((v / 262144 % 0x08 + 0xf0) % 8 * 64 + (v / 4096 % 0x40 + 0x80) % 64) * 64 +
      (v / 64 % 0x40 + 0x80) % 64) * 64 + (v % 0x40 + 0x80) % 64 = v := by omega
  rw [decodeOne_four (by omega) (isSecondOfFour_iff.mpr (by omega)) (isContinuation_iff.mpr (by omega))
    (isContinuation_iff.mpr (by omega)), h₀, h₁, h₂, h₃, hval]

end Encoded

/-! ### Texts -/

theorem utf8Lossy_encodeChar (c : Char) (rest : List UInt8) :
    utf8Lossy 0 (String.utf8EncodeChar c ++ rest) = c :: utf8Lossy 0 rest := by
  obtain ⟨v, hv⟩ : ∃ v, v = c.val.toNat := ⟨_, rfl⟩
  have hc : Char.ofNat v = c := hv ▸ Char.ofNat_toNat c
  have hvalid : v < 0xd800 ∨ (0xdfff < v ∧ v < 0x110000) := hv ▸ c.valid
  unfold String.utf8EncodeChar
  dsimp only
  rw [← hv]
  split
  · rename_i hone
    rw [List.singleton_append, utf8Lossy, decodeOne_encoded_one hone, hc]
  · split
    · rename_i hone htwo
      rw [List.cons_append, List.singleton_append, utf8Lossy, decodeOne_encoded_two (by omega) htwo, hc]
      rfl
    · split
      · rename_i htwo hthree
        rw [List.cons_append, List.cons_append, List.singleton_append, utf8Lossy,
          decodeOne_encoded_three (by omega) hthree (by omega), hc]
        rfl
      · rw [List.cons_append, List.cons_append, List.cons_append, List.singleton_append, utf8Lossy,
          decodeOne_encoded_four (by omega) (by omega), hc]
        rfl

theorem utf8Lossy_flatMap (text : List Char) : utf8Lossy 0 (text.flatMap String.utf8EncodeChar) = text := by
  induction text with
  | nil => rfl
  | cons c text ih => rw [List.flatMap_cons, utf8Lossy_encodeChar, ih]

/-- Valid UTF-8 is kept as it is. -/
theorem toByteArray_fromUtf8Lossy {bytes : List UInt8} (h : bytes.toByteArray.IsValidUTF8) :
    (fromUtf8Lossy bytes).toByteArray = bytes.toByteArray := by
  obtain ⟨text, htext⟩ := h
  obtain rfl := List.toByteArray_inj.mp htext
  rw [fromUtf8Lossy, utf8Lossy_flatMap, String.toByteArray_ofList]
  rfl

end Whyslow
