import Mathlib.Data.List.Basic

/-! Reflected cyclic redundancy checks of any width and polynomial: the remainder bit by bit,
and byte by byte from a table. -/
namespace JcaFirmware.Foundation.Crc

variable {w : Nat} (poly : BitVec w)

def bitStep (crc : BitVec w) : BitVec w := if crc.getLsbD 0 then (crc >>> 1) ^^^ poly else crc >>> 1

def bits : Nat → BitVec w → BitVec w
  | 0, crc => crc
  | n + 1, crc => bits n (bitStep poly crc)

/-- One byte into the remainder, from its lowest bit on. -/
def byteStep (crc : BitVec w) (c : UInt8) : BitVec w := bits poly 8 (crc ^^^ c.toBitVec.setWidth w)

theorem xor_cancel (a b p : BitVec w) : a ^^^ b = (a ^^^ p) ^^^ (b ^^^ p) := by
  rw [BitVec.xor_assoc,BitVec.xor_comm b p,← BitVec.xor_assoc p p b,BitVec.xor_self,BitVec.zero_xor]

theorem bitStep_xor (a b : BitVec w) : bitStep poly (a ^^^ b) = bitStep poly a ^^^ bitStep poly b := by
  unfold bitStep
  rw [BitVec.getLsbD_xor,BitVec.ushiftRight_xor_distrib]
  cases a.getLsbD 0 <;> cases b.getLsbD 0
  · rfl
  · exact BitVec.xor_assoc _ _ _
  · change a >>> 1 ^^^ b >>> 1 ^^^ poly = (a >>> 1 ^^^ poly) ^^^ b >>> 1
    rw [BitVec.xor_assoc,BitVec.xor_assoc,BitVec.xor_comm poly]
  · exact xor_cancel _ _ poly

/-- Division by the polynomial is linear. -/
theorem bits_xor (n : Nat) (a b : BitVec w) : bits poly n (a ^^^ b) = bits poly n a ^^^ bits poly n b := by
  induction n generalizing a b with
  | zero => rfl
  | succ n ih => rw [bits,bits,bits,bitStep_xor,ih]

/-- Bits that are clear only make room for the next ones. -/
theorem bits_clear (n : Nat) (a : BitVec w) (clear : ∀ i < n, a.getLsbD i = false) : bits poly n a = a >>> n := by
  induction n generalizing a with
  | zero => exact (BitVec.ushiftRight_zero a).symm
  | succ n ih =>
    have step : bitStep poly a = a >>> 1 := by
      rw [bitStep,clear 0 (Nat.succ_pos n),if_neg Bool.false_ne_true]
    rw [bits,step,ih,← BitVec.shiftRight_add,Nat.add_comm]
    intro i inside
    rw [BitVec.getLsbD_ushiftRight]
    exact clear (1 + i) (by omega)

/-- The low bits of a remainder, alone. -/
def low (n : Nat) (a : BitVec w) : BitVec w := (a.setWidth n).setWidth w

theorem getLsbD_low (n i : Nat) (a : BitVec w) : (low n a).getLsbD i = (decide (i < n) && a.getLsbD i) := by
  rw [low,BitVec.getLsbD_setWidth,BitVec.getLsbD_setWidth]
  by_cases inside : i < w
  · simp [inside]
  · simp [BitVec.getLsbD_of_ge a i (by omega)]

theorem low_shift (n : Nat) (a : BitVec w) : low n a >>> n = 0#w := by
  apply BitVec.eq_of_getLsbD_eq
  intro i _
  have past : decide (n + i < n) = false := by simp
  rw [BitVec.getLsbD_ushiftRight,getLsbD_low,past,Bool.false_and,BitVec.getLsbD_zero]

/-- Some bits of a division need the low bits only, of the rest nothing but its place. -/
theorem bits_split (n : Nat) (a : BitVec w) : bits poly n a = (a >>> n) ^^^ bits poly n (low n a) := by
  have parts : a = (a ^^^ low n a) ^^^ low n a := by
    rw [BitVec.xor_assoc,BitVec.xor_self,BitVec.xor_zero]
  have high : bits poly n (a ^^^ low n a) = a >>> n := by
    rw [bits_clear,BitVec.ushiftRight_xor_distrib,low_shift,BitVec.xor_zero]
    intro i inside
    rw [BitVec.getLsbD_xor,getLsbD_low,decide_eq_true inside,Bool.true_and,Bool.xor_self]
  rw [← high,← bits_xor,← parts]

/-- A byte at a time: the table holds the division of each byte. -/
theorem byteStep_table (wide : 8 ≤ w) (crc : BitVec w) (c : UInt8) : byteStep poly crc c =
    (crc >>> 8) ^^^ bits poly 8 ((c.toBitVec ^^^ crc.setWidth 8).setWidth w) := by
  have shifted : c.toBitVec.setWidth w >>> 8 = 0#w := by
    apply BitVec.eq_of_getLsbD_eq
    intro i _
    rw [BitVec.getLsbD_ushiftRight,BitVec.getLsbD_setWidth,BitVec.getLsbD_of_ge _ _ (by omega)]
    simp
  have own : (c.toBitVec.setWidth w).setWidth 8 = c.toBitVec := BitVec.setWidth_setWidth_of_le _ wide
  rw [byteStep,bits_split,BitVec.ushiftRight_xor_distrib,shifted,BitVec.xor_zero,low,BitVec.setWidth_xor,own,
    BitVec.xor_comm c.toBitVec]

end JcaFirmware.Foundation.Crc
