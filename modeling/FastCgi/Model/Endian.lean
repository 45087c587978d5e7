/-
Module: FastCgi.Model.Endian
Layer: Model
Purpose: Network byte order as the two servers compute it on a little-endian
  host: `hton16`/`hton32` (type.h, and `htobe16`/`htobe32` behind Endian.h),
  and the loads and stores that `memcpy` performs on the fixed-width integers.
Trusted boundary: none
Main exports: Bytes, hton16, hton32, ntoh16, ntoh32, ntoh16_loadUInt16,
  ntoh32_loadUInt32
-/
import Mathlib.Algebra.Ring.Nat
import Mathlib.Data.List.Basic

namespace FastCgi

/-- A byte string: `std::string`, or the bytes of a socket stream. -/
abbrev Bytes := List UInt8

/-- Byte swap of a 16-bit value, as the macro in type.h writes it. -/
def hton16 (a : UInt16) : UInt16 :=
  ((a &&& 0xff00) >>> 8) ||| ((a &&& 0x00ff) <<< 8)

/-- Byte swap of a 32-bit value, as the macro in type.h writes it. -/
def hton32 (a : UInt32) : UInt32 :=
  ((a &&& 0xff000000) >>> 24) ||| ((a &&& 0x00ff0000) >>> 8) |||
    ((a &&& 0x0000ff00) <<< 8) ||| ((a &&& 0x000000ff) <<< 24)

/-- `#define ntoh16 hton16`. -/
def ntoh16 : UInt16 → UInt16 := hton16

/-- `#define ntoh32 hton32`. -/
def ntoh32 : UInt32 → UInt32 := hton32

/-- The 16-bit integer whose memory holds these two bytes. -/
def loadUInt16 (b0 b1 : UInt8) : UInt16 :=
  UInt16.ofNat (b0.toNat + 2 ^ 8 * b1.toNat)

/-- The 32-bit integer whose memory holds these four bytes. -/
def loadUInt32 (b0 b1 b2 b3 : UInt8) : UInt32 :=
  UInt32.ofNat (b0.toNat + 2 ^ 8 * b1.toNat + 2 ^ 16 * b2.toNat + 2 ^ 24 * b3.toNat)

/-- The two bytes of a 16-bit integer in memory. -/
def storeUInt16 (a : UInt16) : Bytes :=
  [a.toUInt8, (a >>> 8).toUInt8]

/-- The four bytes of a 32-bit integer in memory. -/
def storeUInt32 (a : UInt32) : Bytes :=
  [a.toUInt8, (a >>> 8).toUInt8, (a >>> 16).toUInt8, (a >>> 24).toUInt8]

/-- Masking with a shifted byte keeps that byte in place. -/
theorem and_byteMask (value shift : Nat) :
    value &&& ((2 ^ 8 - 1) <<< shift) = (value >>> shift % 2 ^ 8) <<< shift := by
  apply Nat.eq_of_testBit_eq
  intro position
  rw [Nat.testBit_and, Nat.testBit_shiftLeft, Nat.testBit_shiftLeft, Nat.testBit_mod_two_pow,
    Nat.testBit_two_pow_sub_one, Nat.testBit_shiftRight]
  by_cases above : shift ≤ position
  · simp [above, Nat.add_sub_cancel' above, Bool.and_comm]
  · simp [above]

/-- Joining a low part with a higher part that starts above it is addition. -/
theorem or_shifted_eq_add (low high shift : Nat) (below : low < 2 ^ shift) :
    low ||| high * 2 ^ shift = low + high * 2 ^ shift := by
  have joined := Nat.shiftLeft_add_eq_or_of_lt below high
  rw [Nat.shiftLeft_eq] at joined
  rw [Nat.or_comm, ← joined, Nat.add_comm]

theorem hton16_toNat (a : UInt16) :
    (hton16 a).toNat = a.toNat / 2 ^ 8 + a.toNat % 2 ^ 8 * 2 ^ 8 := by
  have small := a.toNat_lt
  have high : a.toNat &&& 0xff00 = (a.toNat >>> 8 % 2 ^ 8) <<< 8 := and_byteMask a.toNat 8
  have low : a.toNat &&& 0xff = (a.toNat >>> 0 % 2 ^ 8) <<< 0 := and_byteMask a.toNat 0
  simp only [hton16, UInt16.toNat_or, UInt16.toNat_and, UInt16.toNat_shiftRight,
    UInt16.toNat_shiftLeft, UInt16.reduceToNat, high, low, Nat.shiftLeft_eq,
    Nat.shiftRight_eq_div_pow, Nat.reduceMod, Nat.pow_zero, Nat.div_one, Nat.mul_one]
  have first : a.toNat / 2 ^ 8 % 2 ^ 8 * 2 ^ 8 / 2 ^ 8 = a.toNat / 2 ^ 8 := by omega
  have second : a.toNat % 2 ^ 8 * 2 ^ 8 % 2 ^ 16 = a.toNat % 2 ^ 8 * 2 ^ 8 := by omega
  rw [first, second, or_shifted_eq_add _ _ 8 (by omega)]

theorem hton32_toNat (a : UInt32) :
    (hton32 a).toNat =
      a.toNat / 2 ^ 24 + a.toNat / 2 ^ 16 % 2 ^ 8 * 2 ^ 8 +
        a.toNat / 2 ^ 8 % 2 ^ 8 * 2 ^ 16 + a.toNat % 2 ^ 8 * 2 ^ 24 := by
  have small := a.toNat_lt
  have mask3 : a.toNat &&& 0xff000000 = (a.toNat >>> 24 % 2 ^ 8) <<< 24 := by
    rw [← and_byteMask a.toNat 24]
    rfl
  have mask2 : a.toNat &&& 0xff0000 = (a.toNat >>> 16 % 2 ^ 8) <<< 16 := by
    rw [← and_byteMask a.toNat 16]
    rfl
  have mask1 : a.toNat &&& 0xff00 = (a.toNat >>> 8 % 2 ^ 8) <<< 8 := and_byteMask a.toNat 8
  have mask0 : a.toNat &&& 0xff = (a.toNat >>> 0 % 2 ^ 8) <<< 0 := and_byteMask a.toNat 0
  simp only [hton32, UInt32.toNat_or, UInt32.toNat_and, UInt32.toNat_shiftRight,
    UInt32.toNat_shiftLeft, UInt32.reduceToNat, mask3, mask2, mask1, mask0, Nat.shiftLeft_eq,
    Nat.shiftRight_eq_div_pow, Nat.reduceMod, Nat.pow_zero, Nat.div_one, Nat.mul_one]
  clear mask3 mask2 mask1 mask0
  generalize a.toNat = n at small ⊢
  -- Each masked and shifted byte lands in its own place.
  have byte3 : n / 2 ^ 24 % 2 ^ 8 * 2 ^ 24 / 2 ^ 24 = n / 2 ^ 24 := by
    rw [Nat.mul_div_cancel _ (by decide), Nat.mod_eq_of_lt (by omega)]
  have byte2 : n / 2 ^ 16 % 2 ^ 8 * 2 ^ 16 / 2 ^ 8 = n / 2 ^ 16 % 2 ^ 8 * 2 ^ 8 := by
    rw [Nat.mul_div_assoc _ (by decide)]
    rfl
  have byte1 : n / 2 ^ 8 % 2 ^ 8 * 2 ^ 8 * 2 ^ 8 % 2 ^ 32 = n / 2 ^ 8 % 2 ^ 8 * 2 ^ 16 := by
    rw [Nat.mul_assoc, Nat.mod_eq_of_lt (by omega)]
    rfl
  have byte0 : n % 2 ^ 8 * 2 ^ 24 % 2 ^ 32 = n % 2 ^ 8 * 2 ^ 24 :=
    Nat.mod_eq_of_lt (by omega)
  have join2 := or_shifted_eq_add (n / 2 ^ 24) (n / 2 ^ 16 % 2 ^ 8) 8 (by omega)
  have join1 := or_shifted_eq_add (n / 2 ^ 24 + n / 2 ^ 16 % 2 ^ 8 * 2 ^ 8)
    (n / 2 ^ 8 % 2 ^ 8) 16 (by omega)
  have join0 := or_shifted_eq_add
    (n / 2 ^ 24 + n / 2 ^ 16 % 2 ^ 8 * 2 ^ 8 + n / 2 ^ 8 % 2 ^ 8 * 2 ^ 16)
    (n % 2 ^ 8) 24 (by omega)
  rw [byte3, byte2, byte1, byte0, join2, join1, join0]

/-- Two bytes read from the network, as a number: the first is the high one. -/
theorem ntoh16_loadUInt16 (b0 b1 : UInt8) :
    (ntoh16 (loadUInt16 b0 b1)).toNat = 2 ^ 8 * b0.toNat + b1.toNat := by
  have bound0 := b0.toNat_lt
  have bound1 := b1.toNat_lt
  rw [ntoh16, hton16_toNat, loadUInt16, UInt16.toNat_ofNat', Nat.mod_eq_of_lt (by omega)]
  omega

/-- Four bytes read from the network, as a number: the first is the high one. -/
theorem ntoh32_loadUInt32 (b0 b1 b2 b3 : UInt8) :
    (ntoh32 (loadUInt32 b0 b1 b2 b3)).toNat =
      2 ^ 24 * b0.toNat + 2 ^ 16 * b1.toNat + 2 ^ 8 * b2.toNat + b3.toNat := by
  have bound0 := b0.toNat_lt
  have bound1 := b1.toNat_lt
  have bound2 := b2.toNat_lt
  have bound3 := b3.toNat_lt
  rw [ntoh32, hton32_toNat, loadUInt32, UInt32.toNat_ofNat', Nat.mod_eq_of_lt (by omega)]
  omega

end FastCgi
