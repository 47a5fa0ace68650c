import Mathlib.Algebra.Group.Nat.Defs
import Mathlib.Data.Nat.Log

/-! Halving search in a range of `2 ^ k` positions. The test may compare the
middle with the best position so far, so it need not be monotone: what the
search returns is described by the probes on its way. -/
namespace JcaFirmware.Foundation.Bisection

/-- The search in `lo, …, lo + 2 ^ k - 1`, where `lo` is the best position so far. -/
def search (test : Nat → Nat → Bool) : Nat → Nat → Nat
  | 0, lo => lo
  | k + 1, lo => if test lo (lo + 2 ^ k) then search test k (lo + 2 ^ k) else search test k lo

variable {test : Nat → Nat → Bool}

theorem search_pass {k lo : Nat} (pass : test lo (lo + 2 ^ k) = true) :
    search test (k + 1) lo = search test k (lo + 2 ^ k) := by
  rw [search,if_pos pass]

theorem search_fail {k lo : Nat} (fail : test lo (lo + 2 ^ k) = false) :
    search test (k + 1) lo = search test k lo := by
  rw [search,if_neg (by simp [fail])]

theorem le_search (test : Nat → Nat → Bool) (k lo : Nat) : lo ≤ search test k lo := by
  induction k generalizing lo with
  | zero => exact Nat.le_refl lo
  | succ k ih =>
    cases probed : test lo (lo + 2 ^ k) with
    | true =>
      rw [search_pass probed]
      exact Nat.le_trans (Nat.le_add_right lo _) (ih _)
    | false =>
      rw [search_fail probed]
      exact ih lo

theorem search_lt (test : Nat → Nat → Bool) (k lo : Nat) : search test k lo < lo + 2 ^ k := by
  induction k generalizing lo with
  | zero => exact Nat.lt_succ_self lo
  | succ k ih =>
    have first := ih lo
    have second := ih (lo + 2 ^ k)
    rw [Nat.pow_succ]
    cases probed : test lo (lo + 2 ^ k) with
    | true =>
      rw [search_pass probed]
      omega
    | false =>
      rw [search_fail probed]
      omega

/-- The search ends at `target` when the probes up to it pass and those beyond it fail. -/
theorem search_eq {k lo target : Nat} (above : lo ≤ target) (below : target < lo + 2 ^ k)
    (low : ∀ a p, lo ≤ a → a < p → p ≤ target → test a p = true)
    (high : ∀ a p, lo ≤ a → a ≤ target → target < p → p < lo + 2 ^ k → test a p = false) :
    search test k lo = target := by
  induction k generalizing lo with
  | zero => exact Nat.le_antisymm above (Nat.lt_succ_iff.mp below)
  | succ k ih =>
    have width : 0 < 2 ^ k := Nat.two_pow_pos k
    rw [Nat.pow_succ] at below high
    by_cases reached : lo + 2 ^ k ≤ target
    · rw [search_pass (low lo _ (Nat.le_refl lo) (by omega) reached)]
      apply ih reached (by omega)
      · intro a p past
        exact low a p (by omega)
      · intro a p past before beyond inside
        exact high a p (by omega) before beyond (by omega)
    · rw [search_fail (high lo _ (Nat.le_refl lo) above (by omega) (by omega))]
      apply ih above (by omega) low
      intro a p past before beyond inside
      exact high a p past before beyond (by omega)

/-- Where the probes up to `target` pass, the search comes to the first probe
beyond it: with `gap` positions left there, the one `2 ^ log2 gap` before the end. -/
theorem search_overshoot {k lo target gap : Nat} (above : lo ≤ target) (left : target + gap + 1 = lo + 2 ^ k)
    (some : 0 < gap) (low : ∀ a p, lo ≤ a → a < p → p ≤ target → test a p = true) :
    search test k lo = search test (gap.log2 + 1) (lo + 2 ^ k - 2 ^ (gap.log2 + 1)) := by
  have nonzero : gap ≠ 0 := Nat.ne_of_gt some
  induction k generalizing lo with
  | zero =>
    simp only [Nat.pow_zero] at left
    omega
  | succ k ih =>
    have width : 0 < 2 ^ k := Nat.two_pow_pos k
    have double : 2 ^ (k + 1) = 2 ^ k + 2 ^ k := by rw [Nat.pow_succ,Nat.mul_two]
    by_cases reached : lo + 2 ^ k ≤ target
    · have top : lo + 2 ^ (k + 1) = lo + 2 ^ k + 2 ^ k := by omega
      rw [search_pass (low lo _ (Nat.le_refl lo) (by omega) reached),top]
      apply ih reached (by omega)
      intro a p past
      exact low a p (by omega)
    · have this : gap.log2 = k := by
        apply (Nat.log2_eq_iff nonzero).mpr
        omega
      rw [this,Nat.add_sub_cancel]

end JcaFirmware.Foundation.Bisection
