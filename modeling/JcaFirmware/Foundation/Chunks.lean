import Mathlib.Algebra.Order.Floor.Div
import Mathlib.Data.List.Basic

/-! A list cut into pieces of one size, of which the last are shorter or empty, and how
many of them a list needs. -/
namespace JcaFirmware.Foundation.Chunks

variable {α : Type*} {size : Nat}

def pieces (size : Nat) : Nat → List α → List (List α)
  | 0, _ => []
  | count + 1, l => l.take size :: pieces size count (l.drop size)

theorem flatten_pieces (size count : Nat) (l : List α) : (pieces size count l).flatten = l.take (count * size) := by
  induction count generalizing l with
  | zero => rw [pieces,List.flatten_nil,Nat.zero_mul,List.take_zero]
  | succ count ih =>
    rw [pieces,List.flatten_cons,ih,Nat.succ_mul,Nat.add_comm,List.take_add]

/-- Pieces that are enough for a list hold all of it. -/
theorem flatten_of_le {count : Nat} {l : List α} (enough : l.length ≤ count * size) : (pieces size count l).flatten = l := by
  rw [flatten_pieces,List.take_of_length_le enough]

theorem length_le_of_mem {count : Nat} {l piece : List α} (member : piece ∈ pieces size count l) : piece.length ≤ size := by
  induction count generalizing l with
  | zero => exact absurd member List.not_mem_nil
  | succ count ih =>
    rw [pieces,List.mem_cons] at member
    rcases member with rfl | member
    · exact List.length_take_le size l
    · exact ih member

theorem ceilDiv_step (positive : 0 < size) {left : Nat} (more : 0 < left) : left ⌈/⌉ size = (left - size) ⌈/⌉ size + 1 := by
  rcases Nat.lt_or_ge left size with short | full
  · have last : left ⌈/⌉ size = 1 := Nat.div_eq_of_lt_le (by omega) (by omega)
    rw [last,Nat.sub_eq_zero_of_le (Nat.le_of_lt short),zero_ceilDiv]
  · rw [Nat.ceilDiv_eq_add_pred_div,Nat.ceilDiv_eq_add_pred_div,← Nat.add_div_right _ positive]
    congr 1
    omega

theorem le_ceilDiv_mul (positive : 0 < size) (total : Nat) : total ≤ max 1 (total ⌈/⌉ size) * size :=
  calc total ≤ size * (total ⌈/⌉ size) := le_smul_ceilDiv positive
    _ = total ⌈/⌉ size * size := Nat.mul_comm _ _
    _ ≤ max 1 (total ⌈/⌉ size) * size := Nat.mul_le_mul_right size (Nat.le_max_right _ _)

end JcaFirmware.Foundation.Chunks
