import Mathlib.Data.List.GetD
import Mathlib.Algebra.Group.Nat.Defs
import Mathlib.Tactic.SplitIfs

/-! Memories of bytes: reading and writing runs of addresses, and numbers in the byte
order of the processor. -/
namespace JcaFirmware.Foundation

abbrev Bytes := Nat → UInt8

namespace Bytes

def read (m : Bytes) (addr len : Nat) : List UInt8 := (List.range len).map fun i => m (addr + i)

def write (m : Bytes) (addr : Nat) (bytes : List UInt8) : Bytes := fun a =>
  if addr ≤ a ∧ a < addr + bytes.length then bytes.getD (a - addr) 0 else m a

@[simp] theorem length_read (m : Bytes) (addr len : Nat) : (m.read addr len).length = len := by
  rw [read,List.length_map,List.length_range]

theorem read_congr {m m' : Bytes} {addr len : Nat} (same : ∀ a, addr ≤ a → a < addr + len → m a = m' a) :
    m.read addr len = m'.read addr len := by
  apply List.map_congr_left
  intro i member
  have inside := List.mem_range.mp member
  exact same (addr + i) (Nat.le_add_right _ _) (by omega)

theorem write_outside (m : Bytes) {addr : Nat} {bytes : List UInt8} {a : Nat} (outside : a < addr ∨ addr + bytes.length ≤ a) :
    m.write addr bytes a = m a := by
  rw [write,if_neg (by omega)]

/-- What was written is read again, -/
theorem read_write (m : Bytes) (addr : Nat) (bytes : List UInt8) : (m.write addr bytes).read addr bytes.length = bytes := by
  apply List.ext_getElem (length_read _ _ _)
  intro i _ inside
  simp only [read,List.getElem_map,List.getElem_range]
  rw [write,if_pos (by omega),Nat.add_sub_cancel_left,List.getD_eq_getElem _ _ inside]

/-- and nothing else is changed. -/
theorem read_write_apart (m : Bytes) {addr addr' len : Nat} {bytes : List UInt8}
    (apart : addr + bytes.length ≤ addr' ∨ addr' + len ≤ addr) : (m.write addr bytes).read addr' len = m.read addr' len := by
  apply read_congr
  intro a low high
  exact write_outside m (by omega)

theorem read_add (m : Bytes) (addr len more : Nat) :
    m.read addr (len + more) = m.read addr len ++ m.read (addr + len) more := by
  apply List.ext_getElem
  · simp only [length_read,List.length_append]
  · intro i low high
    simp only [read,List.getElem_append,List.getElem_map,List.getElem_range,List.length_map,List.length_range]
    split_ifs
    · rfl
    · congr 1
      omega

theorem take_read (m : Bytes) {addr len count : Nat} (inside : count ≤ len) :
    (m.read addr len).take count = m.read addr count := by
  have split := m.read_add addr count (len - count)
  rw [Nat.add_sub_cancel' inside] at split
  rw [split,List.take_left' (m.length_read addr count)]

theorem getD_read (m : Bytes) {addr len i : Nat} (inside : i < len) : (m.read addr len).getD i 0 = m (addr + i) := by
  rw [List.getD_eq_getElem _ _ (by rwa [length_read])]
  simp only [read,List.getElem_map,List.getElem_range]

theorem read_replicate {m : Bytes} {addr len : Nat} {b : UInt8} (same : ∀ a, addr ≤ a → a < addr + len → m a = b) :
    m.read addr len = List.replicate len b := by
  rw [List.eq_replicate_iff,length_read]
  refine ⟨rfl,fun c member => ?_⟩
  obtain ⟨i,inside,rfl⟩ := List.mem_map.mp member
  exact same _ (Nat.le_add_right _ _) (by have := List.mem_range.mp inside; omega)

theorem write_get (m : Bytes) {addr a : Nat} {bytes : List UInt8} (low : addr ≤ a) (high : a < addr + bytes.length) :
    m.write addr bytes a = bytes.getD (a - addr) 0 := by
  rw [write,if_pos ⟨low,high⟩]

/-- The memory from an address on. -/
def shift (m : Bytes) (addr : Nat) : Bytes := fun a => m (addr + a)

theorem shift_write (m : Bytes) {base addr : Nat} (low : base ≤ addr) (bytes : List UInt8) :
    (m.write addr bytes).shift base = (m.shift base).write (addr - base) bytes := by
  funext a
  simp only [shift,write]
  by_cases inside : addr ≤ base + a ∧ base + a < addr + bytes.length
  · rw [if_pos inside,if_pos (by omega)]
    congr 1
    omega
  · rw [if_neg inside,if_neg (by omega)]

theorem shift_read (m : Bytes) (base addr len : Nat) : (m.shift base).read addr len = m.read (base + addr) len := by
  apply List.map_congr_left
  intro i _
  rw [shift,Nat.add_assoc]

theorem read_moved (m : Bytes) (base addr len : Nat) : read (fun a => m (a - base)) (base + addr) len = m.read addr len := by
  rw [← shift_read]
  congr 1
  funext a
  rw [shift,Nat.add_sub_cancel_left]

theorem write_nil (m : Bytes) (addr : Nat) : m.write addr [] = m := by
  funext a
  exact write_outside m (by rw [List.length_nil]; omega)

theorem write_append (m : Bytes) (addr : Nat) (first second : List UInt8) :
    (m.write addr first).write (addr + first.length) second = m.write addr (first ++ second) := by
  funext a
  simp only [write,List.length_append]
  by_cases low : addr ≤ a ∧ a < addr + first.length
  · have inside : a - addr < first.length := by omega
    rw [if_neg (by omega),if_pos low,if_pos (by omega),List.getD_append _ _ _ _ inside]
  · by_cases high : addr + first.length ≤ a ∧ a < addr + first.length + second.length
    · rw [if_pos high,if_pos (by omega),List.getD_append_right _ _ _ _ (by omega)]
      congr 1
      omega
    · rw [if_neg high,if_neg low,if_neg (by omega)]

end Bytes

section LittleEndian

def bytesOf : Nat → Nat → List UInt8
  | 0, _ => []
  | width + 1, n => UInt8.ofNat n :: bytesOf width (n / 256)

def numberOf : List UInt8 → Nat
  | [] => 0
  | b :: bytes => b.toNat + 256 * numberOf bytes

@[simp] theorem length_bytesOf (width n : Nat) : (bytesOf width n).length = width := by
  induction width generalizing n with
  | zero => rfl
  | succ width ih => rw [bytesOf,List.length_cons,ih]

theorem numberOf_bytesOf {width n : Nat} (fits : n < 256 ^ width) : numberOf (bytesOf width n) = n := by
  induction width generalizing n with
  | zero =>
    rw [Nat.pow_zero,Nat.lt_one_iff] at fits
    rw [fits]
    rfl
  | succ width ih =>
    have rest : n / 256 < 256 ^ width := Nat.div_lt_of_lt_mul (by rwa [← Nat.pow_succ'])
    have low : (UInt8.ofNat n).toNat = n % 256 := UInt8.toNat_ofNat'
    rw [bytesOf,numberOf,ih rest,low]
    exact Nat.mod_add_div n 256

end LittleEndian

end JcaFirmware.Foundation
