import Mathlib.Data.List.Basic
import Mathlib.Tactic.Set
import JcaFirmware.Foundation.Memory

/-! Loops over the elements of memory: each turn reads an element and writes the next one of the result, also in place. -/
namespace JcaFirmware.Foundation
namespace Bytes

theorem write_read (m : Bytes) (addr len : Nat) : m.write addr (m.read addr len) = m := by
  funext a
  by_cases inside : addr ≤ a ∧ a < addr + len
  · rw [write_get _ inside.1 (by rw [length_read]; exact inside.2),getD_read _ (by omega)]
    congr 1
    omega
  · apply write_outside
    rw [length_read]
    omega

theorem write_comm (m : Bytes) {addr addr' : Nat} {bytes bytes' : List UInt8}
    (apart : addr + bytes.length ≤ addr' ∨ addr' + bytes'.length ≤ addr) :
    (m.write addr bytes).write addr' bytes' = (m.write addr' bytes').write addr bytes := by
  funext a
  by_cases first : addr ≤ a ∧ a < addr + bytes.length
  · rw [write_outside _ (by omega),write_get _ first.1 first.2,write_get _ first.1 first.2]
  · rw [write_outside (m.write addr' bytes') (by omega)]
    by_cases second : addr' ≤ a ∧ a < addr' + bytes'.length
    · rw [write_get _ second.1 second.2,write_get _ second.1 second.2]
    · rw [write_outside _ (by omega),write_outside _ (by omega),write_outside _ (by omega)]

/-- The second of two writes to one place is what stays. -/
theorem write_write (m : Bytes) {addr : Nat} {bytes bytes' : List UInt8} (same : bytes.length = bytes'.length) :
    (m.write addr bytes).write addr bytes' = m.write addr bytes' := by
  funext a
  by_cases inside : addr ≤ a ∧ a < addr + bytes'.length
  · rw [write_get _ inside.1 inside.2,write_get _ inside.1 inside.2]
  · rw [write_outside _ (by omega),write_outside _ (by omega),write_outside _ (by omega)]

section Loops
variable (f : UInt8 → UInt8 → UInt8) {k output input other : Nat}

theorem length_zipWith_read (m m' : Bytes) (addr addr' len : Nat) :
    (List.zipWith f (m.read addr len) (m'.read addr' len)).length = len := by
  rw [List.length_zipWith,length_read,length_read,Nat.min_self]

theorem zipWith_read_add (m : Bytes) (addr addr' len more : Nat) :
    List.zipWith f (m.read addr (len + more)) (m.read addr' (len + more)) =
      List.zipWith f (m.read addr len) (m.read addr' len) ++ List.zipWith f (m.read (addr + len) more) (m.read (addr' + len) more) := by
  rw [read_add,read_add,List.zipWith_append (by rw [length_read,length_read])]

/-- Combining two runs element by element is combining them at once: no turn writes what a later one reads. -/
theorem foldl_zipWith {n : Nat} (later : output ≤ input ∨ input + k * n ≤ output)
    (apart : output + k * n ≤ other ∨ other + k * n ≤ output) (m : Bytes) :
    (List.range n).foldl
        (fun m i => m.write (output + k * i) (List.zipWith f (m.read (input + k * i) k) (m.read (other + k * i) k))) m =
      m.write output (List.zipWith f (m.read input (k * n)) (m.read other (k * n))) := by
  induction n with
  | zero => rw [List.range_zero,List.foldl_nil,Nat.mul_zero]; exact (write_nil m output).symm
  | succ n ih =>
    rw [Nat.mul_succ] at later apart ⊢
    rw [List.range_succ,List.foldl_append,List.foldl_cons,List.foldl_nil,ih (by omega) (by omega),zipWith_read_add]
    rw [← write_append,length_zipWith_read]
    congr 2
    · apply read_write_apart
      rw [length_zipWith_read]
      omega
    · apply read_write_apart
      rw [length_zipWith_read]
      omega

/-- The same, with an element of `kept` stored over the other run in every turn. -/
theorem foldl_zipWith_store {n : Nat} {kept : List UInt8} (whole : kept.length = k * n) (later : output ≤ input ∨ input + k * n ≤ output)
    (apart : output + k * n ≤ other ∨ other + k * n ≤ output) (apart' : input + k * n ≤ other ∨ other + k * n ≤ input) (m : Bytes) :
    (List.range n).foldl
        (fun m i => (m.write (output + k * i) (List.zipWith f (m.read (input + k * i) k) (m.read (other + k * i) k))).write
          (other + k * i) ((kept.drop (k * i)).take k)) m =
      (m.write output (List.zipWith f (m.read input (k * n)) (m.read other (k * n)))).write other kept := by
  induction n generalizing kept with
  | zero =>
    rw [Nat.mul_zero] at whole
    rw [List.range_zero,List.foldl_nil,List.length_eq_zero_iff.mp whole,Nat.mul_zero,write_nil]
    exact (write_nil m output).symm
  | succ n ih =>
    rw [Nat.mul_succ] at whole later apart apart' ⊢
    have front : (kept.take (k * n)).length = k * n := by rw [List.length_take]; omega
    have last : (kept.drop (k * n)).take k = kept.drop (k * n) := by
      apply List.take_of_length_le
      rw [List.length_drop]
      omega
    -- the turns before the last one see only the front of `kept`
    have before : (List.range n).foldl
          (fun m i => (m.write (output + k * i) (List.zipWith f (m.read (input + k * i) k) (m.read (other + k * i) k))).write
            (other + k * i) ((kept.drop (k * i)).take k)) m =
        (m.write output (List.zipWith f (m.read input (k * n)) (m.read other (k * n)))).write other (kept.take (k * n)) := by
      rw [← ih front (by omega) (by omega) (by omega)]
      apply List.foldl_ext
      intro m i member
      have inside : k * i + k ≤ k * n := by
        rw [← Nat.mul_succ]
        exact Nat.mul_le_mul_left k (List.mem_range.mp member)
      rw [List.drop_take,List.take_take,Nat.min_eq_left (by omega)]
    rw [List.range_succ,List.foldl_append,List.foldl_cons,List.foldl_nil,before,last,zipWith_read_add]
    set values := List.zipWith f (m.read input (k * n)) (m.read other (k * n)) with valuesEq
    have count : values.length = k * n := length_zipWith_read f m m input other (k * n)
    have reads (addr : Nat) (free : output + k * n ≤ addr ∨ addr + k ≤ output) (free' : other + k * n ≤ addr ∨ addr + k ≤ other) :
        ((m.write output values).write other (kept.take (k * n))).read addr k = m.read addr k := by
      rw [read_write_apart _ (by rw [front]; exact free'),read_write_apart _ (by rw [count]; exact free)]
    rw [reads (input + k * n) (by omega) (by omega),reads (other + k * n) (by omega) (by omega)]
    rw [write_comm (m.write output values) (by rw [front,length_zipWith_read]; omega)]
    have placed := write_append m output values (List.zipWith f (m.read (input + k * n) k) (m.read (other + k * n) k))
    rw [count] at placed
    rw [placed]
    have joined := write_append (m.write output (values ++ List.zipWith f (m.read (input + k * n) k) (m.read (other + k * n) k)))
      other (kept.take (k * n)) (kept.drop (k * n))
    rw [front,List.take_append_drop] at joined
    exact joined

end Loops

end Bytes
end JcaFirmware.Foundation
