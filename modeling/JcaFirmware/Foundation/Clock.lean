import Mathlib.Order.Basic
import Mathlib.Algebra.Order.Group.Nat
import Mathlib.Data.List.Basic

/-! Clocks that wrap. The time that passes is a number without bound, of which a clock shows the remainder; times less than one
round apart are compared rightly exactly if they fall into the same round. -/
namespace JcaFirmware.Foundation.Clock

variable {round t deadline : Nat}

/-- Times less than a round apart fall into the same round, or into two that follow each other. -/
theorem div_cases (le : t ≤ deadline) (near : deadline < t + round) :
    t / round = deadline / round ∨ t / round + 1 = deadline / round := by
  have pos : 0 < round := by omega
  have low : t / round ≤ deadline / round := Nat.div_le_div_right le
  have high : deadline / round ≤ t / round + 1 := by
    have top : (t + round) / round = t / round + 1 := Nat.add_div_right t pos
    rw [← top]
    exact Nat.div_le_div_right (Nat.le_of_lt near)
  omega

theorem before_iff (before : t < deadline) (near : deadline < t + round) :
    t % round < deadline % round ↔ t / round = deadline / round := by
  have own := Nat.div_add_mod t round
  have other := Nat.div_add_mod deadline round
  rcases div_cases (Nat.le_of_lt before) near with same | next
  · rw [← same] at other
    exact iff_of_true (by omega) same
  · rw [← next,Nat.mul_succ] at other
    exact iff_of_false (by omega) (by omega)

theorem reached_iff (reached : deadline ≤ t) (near : t < deadline + round) :
    ¬ t % round < deadline % round ↔ t / round = deadline / round := by
  have own := Nat.div_add_mod t round
  have other := Nat.div_add_mod deadline round
  rcases div_cases reached near with same | next
  · rw [← same] at own
    exact iff_of_true (by omega) same.symm
  · rw [← next,Nat.mul_succ] at own
    exact iff_of_false (by omega) (by omega)

section Watching

variable {α : Type} (time : α → Nat) (round deadline : Nat)

/-- Up to the first one at the deadline or behind it, all are in the round of the deadline. -/
def Together : List α → Prop
  | [] => True
  | a :: rest => time a / round = deadline / round ∧ (time a < deadline → Together rest)

instance : (calls : List α) → Decidable (Together time round deadline calls)
  | [] => isTrue trivial
  | _ :: rest =>
    have : Decidable (Together time round deadline rest) := instDecidableTogether rest
    inferInstanceAs (Decidable (_ ∧ (_ → _)))

end Watching

/-- Looks at a clock, from a time on and never further apart than `gap`, notice the deadline at the first look that is at it or
behind it, exactly if all these looks are in its round. -/
theorem findIdx_iff {α : Type} {time : α → Nat} {round gap : Nat} (short : gap < round) {since deadline : Nat} (le : since ≤ deadline)
    (near : deadline < since + round) {calls : List α}
    (regular : List.IsChain (fun a b => a ≤ b ∧ b ≤ a + gap) (since :: calls.map time)) :
    calls.findIdx? (fun a => !decide (time a % round < deadline % round)) = calls.findIdx? (fun a => decide (deadline ≤ time a)) ↔
      Together time round deadline calls := by
  induction calls generalizing since with
  | nil => exact iff_of_true rfl trivial
  | cons a rest ih =>
    rw [List.map_cons,List.isChain_cons_cons] at regular
    obtain ⟨⟨low,high⟩,others⟩ := regular
    rw [List.findIdx?_cons,List.findIdx?_cons,Together]
    by_cases early : time a < deadline
    · have seen := before_iff early (by omega : deadline < time a + round)
      have following := ih (Nat.le_of_lt early) (by omega) others
      rw [decide_eq_false (Nat.not_le.mpr early),← seen]
      by_cases held : time a % round < deadline % round
      · rw [decide_eq_true held]
        simp [held,early,← following,Option.map_inj_right]
      · rw [decide_eq_false held]
        cases rest.findIdx? fun a => decide (deadline ≤ time a) <;> simp [held]
    · have late := Nat.not_lt.mp early
      have seen := reached_iff late (by omega : time a < deadline + round)
      rw [decide_eq_true late,← seen]
      by_cases held : time a % round < deadline % round
      · rw [decide_eq_true held]
        simp [held]
      · rw [decide_eq_false held]
        simp [held,early]

end JcaFirmware.Foundation.Clock
