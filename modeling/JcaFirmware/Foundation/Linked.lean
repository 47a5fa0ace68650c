import Mathlib.Data.List.Basic
import Mathlib.Data.List.Nodup
import Mathlib.Logic.Function.Basic

/-! Doubly linked segments given by two successor maps, as in a list linked
through array indices. `Segment next prev p l q` says that the cells of `l` are
linked in this order, `p` standing before the first and `q` after the last. -/
namespace JcaFirmware.Foundation.Linked

variable {ι : Type}

def first (q : ι) : List ι → ι
  | [] => q
  | i :: _ => i

def last : ι → List ι → ι
  | p, [] => p
  | _, i :: l => last i l

def Segment (next prev : ι → ι) : ι → List ι → ι → Prop
  | _, [], _ => True
  | p, i :: l, q => prev i = p ∧ next i = first q l ∧ Segment next prev i l q

theorem first_append (a b : List ι) (q : ι) : first q (a ++ b) = first (first q b) a := by
  cases a <;> rfl

theorem last_append (a b : List ι) (p : ι) : last p (a ++ b) = last (last p a) b := by
  induction a generalizing p with
  | nil => rfl
  | cons i a ih => exact ih i

theorem first_mem (q : ι) (l : List ι) (filled : l ≠ []) : first q l ∈ l := by
  cases l with
  | nil => exact absurd rfl filled
  | cons i l => simp [first]

theorem last_mem (p : ι) (l : List ι) (filled : l ≠ []) : last p l ∈ l := by
  induction l generalizing p with
  | nil => exact absurd rfl filled
  | cons i l ih =>
    cases l with
    | nil => simp [last]
    | cons j l => exact List.mem_cons_of_mem i (ih i (by simp))

theorem segment_append (next prev : ι → ι) (p q : ι) (a b : List ι) :
    Segment next prev p (a ++ b) q ↔
      Segment next prev p a (first q b) ∧ Segment next prev (last p a) b q := by
  induction a generalizing p with
  | nil => simp [Segment,last]
  | cons i a ih => simp only [List.cons_append,Segment,ih,first_append,last,and_assoc]

theorem segment_congr {next prev next' prev' : ι → ι} {p q : ι} {l : List ι}
    (sameNext : ∀ i ∈ l, next' i = next i) (samePrev : ∀ i ∈ l, prev' i = prev i)
    (linked : Segment next prev p l q) : Segment next' prev' p l q := by
  induction l generalizing p with
  | nil => trivial
  | cons i l ih =>
    obtain ⟨before,after,rest⟩ := linked
    refine ⟨?_,?_,?_⟩
    · rw [samePrev i (by simp),before]
    · rw [sameNext i (by simp),after]
    · exact ih (fun j member => sameNext j (by simp [member]))
        (fun j member => samePrev j (by simp [member])) rest

variable [DecidableEq ι]

/-- Redirecting the last cell of a segment changes only what follows it. -/
theorem segment_update_next (next prev : ι → ι) (p q q' : ι) (l : List ι) (distinct : l.Nodup)
    (linked : Segment next prev p l q) :
    Segment (Function.update next (last p l) q') prev p l q' := by
  induction l generalizing p with
  | nil => trivial
  | cons i l ih =>
    obtain ⟨before,after,rest⟩ := linked
    obtain ⟨absent,tail⟩ := List.nodup_cons.mp distinct
    refine ⟨before,?_,ih i tail rest⟩
    cases l with
    | nil => exact Function.update_self i q' next
    | cons j l =>
      have other : i ≠ last i (j :: l) := by
        intro same
        exact absent (by rw [same]; exact last_mem i (j :: l) (by simp))
      exact (Function.update_of_ne other q' next).trans after

theorem segment_update_prev (next prev : ι → ι) (p p' q i : ι) (l : List ι) (distinct : (i :: l).Nodup)
    (linked : Segment next prev p (i :: l) q) :
    Segment next (Function.update prev i p') p' (i :: l) q := by
  obtain ⟨_,after,rest⟩ := linked
  have absent := (List.nodup_cons.mp distinct).1
  refine ⟨Function.update_self i p' prev,after,?_⟩
  refine segment_congr (fun _ _ => rfl) ?_ rest
  intro j member
  have other : j ≠ i := fun same => absent (same ▸ member)
  exact Function.update_of_ne other p' prev

/-- Taking a cell out: its predecessor and its successor, where there are any,
are joined; the cell's own links do not matter any more. -/
theorem segment_remove (next prev next' prev' : ι → ι) (p q i : ι) (a c : List ι)
    (distinct : (a ++ i :: c).Nodup) (linked : Segment next prev p (a ++ i :: c) q)
    (joinNext : ∀ j ∈ a ++ c, next' j = if a ≠ [] ∧ j = last p a then first q c else next j)
    (joinPrev : ∀ j ∈ a ++ c, prev' j = if c ≠ [] ∧ j = first q c then last p a else prev j) :
    Segment next' prev' p (a ++ c) q := by
  obtain ⟨before,_,_,after⟩ := (segment_append next prev p q a (i :: c)).mp linked
  obtain ⟨aDistinct,icDistinct,apart⟩ := List.nodup_append.mp distinct
  have cDistinct := (List.nodup_cons.mp icDistinct).2
  have disjoint : ∀ j ∈ a, j ∉ c := fun j inA inC => apart j inA j (by simp [inC]) rfl
  refine (segment_append next' prev' p q a c).mpr ⟨?_,?_⟩
  · refine segment_congr ?_ ?_ (segment_update_next next prev p _ (first q c) a aDistinct before)
    · intro j member
      have filled : a ≠ [] := List.ne_nil_of_mem member
      rw [joinNext j (by simp [member]),Function.update_apply]
      simp only [ne_eq,filled,not_false_eq_true,true_and]
    · intro j member
      have other : ¬ (c ≠ [] ∧ j = first q c) :=
        fun ⟨filled,same⟩ => disjoint j member (same ▸ first_mem q c filled)
      rw [joinPrev j (by simp [member]),if_neg other]
  · cases c with
    | nil => trivial
    | cons k c =>
      refine segment_congr ?_ ?_ (segment_update_prev next prev i (last p a) q k c cDistinct after)
      · intro j member
        have other : ¬ (a ≠ [] ∧ j = last p a) :=
          fun ⟨filled,same⟩ => disjoint j (same ▸ last_mem p a filled) member
        rw [joinNext j (by simp [member]),if_neg other]
      · intro j member
        rw [joinPrev j (by simp [member]),Function.update_apply]
        simp only [ne_eq,List.cons_ne_nil,not_false_eq_true,true_and,first]

theorem segment_concat (next prev next' prev' : ι → ι) (p q i : ι) (a : List ι)
    (distinct : a.Nodup) (linked : Segment next prev p a q)
    (joinNext : ∀ j ∈ a, next' j = if j = last p a then i else next j)
    (joinPrev : ∀ j ∈ a, prev' j = prev j) (final : next' i = q) (back : prev' i = last p a) :
    Segment next' prev' p (a ++ [i]) q := by
  refine (segment_append next' prev' p q a [i]).mpr ⟨?_,back,final,trivial⟩
  refine segment_congr ?_ joinPrev (segment_update_next next prev p q i a distinct linked)
  intro j member
  rw [joinNext j member,Function.update_apply]

end JcaFirmware.Foundation.Linked
