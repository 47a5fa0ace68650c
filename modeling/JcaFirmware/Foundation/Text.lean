import Mathlib.Data.List.Basic
import Mathlib.Data.List.Infix

/-! Texts in buffers of bounded room. An append says whether the whole string went in;
a caller that does not ask can still rely on what fits, and on what is already there. -/
namespace JcaFirmware.Foundation.Text

variable {α : Type} {room : Nat} {append : List α → List α → Bool × List α}

/-- An append stores all of the string where it fits, and no more than a part of it
where it does not, which it reports. -/
structure Bounded (room : Nat) (append : List α → List α → Bool × List α) : Prop where
  fits : ∀ text str, (text ++ str).length ≤ room → append text str = (true,text ++ str)
  full : ∀ text str, room < (text ++ str).length → ∃ part, part <+: str ∧ append text str = (false,text ++ part)

def appendWithin (room : Nat) (text str : List α) : Bool × List α :=
  if (text ++ str).length ≤ room then (true,text ++ str) else (false,text ++ str.take (room - text.length))

theorem appendWithin_bounded : Bounded room (appendWithin (α := α) room) where
  fits _ _ within := if_pos within
  full _ str past := ⟨_,List.take_prefix _ str,if_neg (Nat.not_le_of_lt past)⟩

/-- Appends in a row whose results nobody looks at. -/
def appendAll (append : List α → List α → Bool × List α) (text : List α) (strs : List (List α)) : List α :=
  strs.foldl (fun text str => (append text str).2) text

theorem Bounded.starts (bounded : Bounded room append) (text str : List α) : text <+: (append text str).2 := by
  rcases Nat.lt_or_ge room (text ++ str).length with past | within
  · obtain ⟨part,_,partly⟩ := bounded.full text str past
    rw [partly]
    exact List.prefix_append text part
  · rw [bounded.fits text str within]
    exact List.prefix_append text str

theorem Bounded.starts_all (bounded : Bounded room append) (text : List α) (strs : List (List α)) :
    text <+: appendAll append text strs := by
  induction strs generalizing text with
  | nil => exact List.prefix_refl text
  | cons str strs ih => exact (bounded.starts text str).trans (ih (append text str).2)

theorem Bounded.fits_all (bounded : Bounded room append) (text : List α) (strs : List (List α))
    (within : (text ++ strs.flatten).length ≤ room) : appendAll append text strs = text ++ strs.flatten := by
  induction strs generalizing text with
  | nil => exact (List.append_nil text).symm
  | cons str strs ih =>
    rw [List.flatten_cons,← List.append_assoc] at within ⊢
    have first : (text ++ str).length ≤ room := by
      rw [List.length_append] at within
      exact Nat.le_of_add_right_le within
    rw [← ih (text ++ str) within]
    change appendAll append (append text str).2 strs = _
    rw [bounded.fits text str first]

end JcaFirmware.Foundation.Text
