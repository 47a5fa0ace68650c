import Mathlib.Data.List.Basic
import Mathlib.Order.Basic

/-! The first least element of a list under a key, given by the split of the
list at it. -/
namespace JcaFirmware.Foundation

variable {α κ : Type} [PartialOrder κ] {key : α → κ}

structure FirstMin (key : α → κ) (l pre : List α) (x : α) (post : List α) : Prop where
  split : l = pre ++ x :: post
  before : ∀ y ∈ pre, key x < key y
  behind : ∀ y ∈ post, key x ≤ key y

namespace FirstMin

variable {l pre post : List α} {x y : α}

theorem mem (first : FirstMin key l pre x post) : x ∈ l := by
  simp [first.split]

theorem least (first : FirstMin key l pre x post) : ∀ y ∈ l, key x ≤ key y := by
  intro y member
  rw [first.split] at member
  rcases List.mem_append.mp member with earlier | later
  · exact (first.before y earlier).le
  · rcases List.mem_cons.mp later with rfl | behind
    · exact le_rfl
    · exact first.behind y behind

theorem key_eq (first : FirstMin key l pre x post) (member : y ∈ l) (least : ∀ z ∈ l, key y ≤ key z) :
    key x = key y := le_antisymm (first.least y member) (least x first.mem)

theorem map {β : Type} (f : β → α) {l pre post : List β} {x : β}
    (first : FirstMin (fun b => key (f b)) l pre x post) :
    FirstMin key (l.map f) (pre.map f) (f x) (post.map f) := by
  refine ⟨by rw [first.split,List.map_append,List.map_cons],?_,?_⟩
  · simpa using first.before
  · simpa using first.behind

/-- The head of a list is its first least element when no key is below it. -/
theorem head (least : ∀ y ∈ l, key x ≤ key y) : FirstMin key (x :: l) [] x l :=
  ⟨rfl,by simp,least⟩

/-- A list that loses its first least element loses its head only if the head
has that key. -/
theorem removed_head (first : FirstMin key (y :: l) pre x post) (same : pre ++ post = l) : key y = key x := by
  classical
  by_contra other
  have split := first.split
  cases pre with
  | nil => exact other (congrArg key (List.cons.inj split).1)
  | cons z pre =>
    obtain ⟨rfl,tail⟩ := List.cons.inj split
    have counted := congrArg (List.countP fun w => key w = key x) (same.trans tail)
    simp [other] at counted

end FirstMin

end JcaFirmware.Foundation
