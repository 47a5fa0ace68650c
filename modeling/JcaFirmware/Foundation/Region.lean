import JcaFirmware.Foundation.Memory

/-! Regions of a memory, and the check of a write request against its region in
an arithmetic that wraps around. -/
namespace JcaFirmware.Foundation

structure Region where
  addr : Nat
  size : Nat
deriving DecidableEq, Repr

namespace Region

/-- The run of addresses lies in the region. -/
def Contains (r : Region) (addr len : Nat) : Prop := r.addr ≤ addr ∧ addr + len ≤ r.addr + r.size

instance (r : Region) (addr len : Nat) : Decidable (r.Contains addr len) := inferInstanceAs (Decidable (_ ∧ _))

def Apart (r other : Region) : Prop := r.addr + r.size ≤ other.addr ∨ other.addr + other.size ≤ r.addr

instance (r other : Region) : Decidable (r.Apart other) := inferInstanceAs (Decidable (_ ∨ _))

/-- A write inside a region leaves the others alone. -/
theorem Contains.read_apart {r other : Region} {addr : Nat} {bytes : List UInt8} (inside : r.Contains addr bytes.length)
    (apart : r.Apart other) (m : Bytes) : (m.write addr bytes).read other.addr other.size = m.read other.addr other.size := by
  obtain ⟨low,high⟩ := inside
  apply Bytes.read_write_apart
  rcases apart with before | behind
  · exact Or.inl (Nat.le_trans high before)
  · exact Or.inr (Nat.le_trans behind low)

section Checked

variable {r : Region} {modulus offset len : Nat} (space : r.addr + r.size < modulus)

include space

/-- As long as its end can be counted, a request that is no longer than the region stays inside it, -/
theorem contains_of_checked (counted : offset + len < modulus) (checked : (offset + len) % modulus ≤ r.size) :
    r.Contains ((r.addr + offset) % modulus) len := by
  rw [Nat.mod_eq_of_lt counted] at checked
  have placed : (r.addr + offset) % modulus = r.addr + offset := Nat.mod_eq_of_lt (by omega)
  rw [Contains,placed]
  omega

/-- and one whose end wraps around never does: it starts below the region or ends above it. -/
theorem not_contains_of_wrapped (small : offset < modulus) (wrapped : modulus ≤ offset + len) :
    ¬ r.Contains ((r.addr + offset) % modulus) len := by
  rintro ⟨low,high⟩
  by_cases placed : r.addr + offset < modulus
  · rw [Nat.mod_eq_of_lt placed] at high
    omega
  · have below : (r.addr + offset) % modulus = r.addr + offset - modulus := by
      rw [Nat.mod_eq_sub_mod (Nat.le_of_not_lt placed),Nat.mod_eq_of_lt (by omega)]
    omega

end Checked

end Region

end JcaFirmware.Foundation
