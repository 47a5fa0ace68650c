import Mathlib.Data.List.Basic
import Mathlib.Data.List.GetD
import Mathlib.Data.List.Nodup
import Mathlib.Data.Nat.Init
import Mathlib.Logic.Function.Basic

/-! Ring buffers over an array of `n` slots. `window` lists the slots between a
read and a write index in reading order; `Holds` describes an array that is
written round and round by one writer, whatever the reader does. -/
namespace JcaFirmware.Foundation.Ring

variable {α : Type}

def next (n i : Nat) : Nat := if i + 1 = n then 0 else i + 1

def gap (n rd wr : Nat) : Nat := if rd ≤ wr then wr - rd else wr + n - rd

def slot (n rd k : Nat) : Nat := if rd + k < n then rd + k else rd + k - n

def window (n rd wr : Nat) : List Nat := (List.range (gap n rd wr)).map (slot n rd)

def contents (n : Nat) (slots : Nat → α) (rd wr : Nat) : List α := (window n rd wr).map slots

theorem next_lt {n i : Nat} (inside : i < n) : next n i < n := by
  unfold next
  split <;> omega

theorem next_inj {n i j : Nat} (same : next n i = next n j) : i = j := by
  unfold next at same
  split_ifs at same <;> omega

theorem next_eq_mod {n i : Nat} (inside : i < n) : next n i = (i + 1) % n := by
  unfold next
  split
  · simp [*]
  · exact (Nat.mod_eq_of_lt (by omega)).symm

theorem next_mod (n k : Nat) (pos : 0 < n) : next n (k % n) = (k + 1) % n := by
  rw [next_eq_mod (Nat.mod_lt k pos),Nat.mod_add_mod]

theorem mod_ne {n i k : Nat} (before : i < k) (within : k < i + n) : i % n ≠ k % n := by
  intro same
  have divides := Nat.dvd_of_mod_eq_zero (Nat.sub_mod_eq_zero_of_mod_eq same.symm)
  have := Nat.le_of_dvd (by omega) divides
  omega

theorem gap_lt {n rd wr : Nat} (rdIn : rd < n) (wrIn : wr < n) : gap n rd wr < n := by
  unfold gap
  split <;> omega

theorem slot_gap {n rd i : Nat} (inside : i < n) (rdIn : rd < n) : slot n rd (gap n rd i) = i := by
  unfold slot gap
  split_ifs <;> omega

theorem slot_next {n rd k : Nat} (bound : k + 1 < n) :
    slot n (next n rd) k = slot n rd (k + 1) := by
  unfold slot next
  split_ifs <;> omega

theorem window_length (n rd wr : Nat) : (window n rd wr).length = gap n rd wr := by
  simp [window]

theorem window_self (n rd : Nat) : window n rd rd = [] := by
  simp [window,gap]

theorem mem_window {n rd wr i : Nat} (rdIn : rd < n) (wrIn : wr < n) (member : i ∈ window n rd wr) :
    i < n ∧ i ≠ wr := by
  obtain ⟨k,bound,rfl⟩ := List.mem_map.mp member
  have limit := List.mem_range.mp bound
  have size := gap_lt rdIn wrIn
  unfold gap at limit size
  unfold slot
  split at limit <;> split <;> omega

theorem window_push {n rd wr : Nat} (rdIn : rd < n) (wrIn : wr < n) (room : next n wr ≠ rd) :
    window n rd (next n wr) = window n rd wr ++ [wr] := by
  have size : gap n rd (next n wr) = gap n rd wr + 1 := by
    unfold next at *
    unfold gap
    split_ifs at room ⊢ <;> omega
  rw [window,size,List.range_succ,List.map_append,List.map_singleton,slot_gap wrIn rdIn]
  rfl

theorem window_pop {n rd wr : Nat} (rdIn : rd < n) (wrIn : wr < n) (distinct : rd ≠ wr) :
    window n rd wr = rd :: window n (next n rd) wr := by
  have size : gap n rd wr = gap n (next n rd) wr + 1 := by
    unfold next gap
    split <;> split <;> split <;> omega
  have limit := gap_lt (next_lt rdIn) wrIn
  rw [window,size,List.range_succ_eq_map,List.map_cons,List.map_map]
  congr 1
  · simp [slot,rdIn]
  · apply List.map_congr_left
    intro k member
    have kLt := List.mem_range.mp member
    exact (slot_next (by omega)).symm

theorem window_nodup {n rd wr : Nat} (rdIn : rd < n) (wrIn : wr < n) : (window n rd wr).Nodup := by
  have size := gap_lt rdIn wrIn
  apply List.Nodup.map_on _ List.nodup_range
  intro k member k' member' same
  have bound := List.mem_range.mp member
  have bound' := List.mem_range.mp member'
  unfold slot at same
  split_ifs at same <;> omega

/-- The window between two running numbers less than a round apart. -/
theorem window_mod {n : Nat} (pos : 0 < n) {first last : Nat} (ordered : first ≤ last) (near : last < first + n) :
    window n (first % n) (last % n) = (List.range' first (last - first)).map (· % n) := by
  induction last, ordered using Nat.le_induction with
  | base => rw [window_self,Nat.sub_self,List.range'_zero,List.map_nil]
  | succ last ordered ih =>
    have room : next n (last % n) ≠ first % n := by
      rw [next_mod n last pos]
      exact (mod_ne (by omega) near).symm
    rw [← next_mod n last pos,window_push (Nat.mod_lt _ pos) (Nat.mod_lt _ pos) room,ih (by omega),Nat.sub_add_comm ordered,
      List.range'_concat,List.map_append,List.map_singleton,Nat.one_mul,Nat.add_sub_cancel' ordered]

theorem contents_push {n rd wr : Nat} (slots : Nat → α) (a : α) (rdIn : rd < n) (wrIn : wr < n)
    (room : next n wr ≠ rd) :
    contents n (Function.update slots wr a) rd (next n wr) = contents n slots rd wr ++ [a] := by
  unfold contents
  rw [window_push rdIn wrIn room,List.map_append,List.map_singleton,Function.update_self]
  congr 1
  apply List.map_congr_left
  intro i member
  exact Function.update_of_ne (mem_window rdIn wrIn member).2 a slots

theorem contents_pop {n rd wr : Nat} (slots : Nat → α) (rdIn : rd < n) (wrIn : wr < n)
    (distinct : rd ≠ wr) :
    contents n slots rd wr = slots rd :: contents n slots (next n rd) wr := by
  unfold contents
  rw [window_pop rdIn wrIn distinct,List.map_cons]

/-- After `items` have been written in turn from slot 0 on, the last `n` of them
are in place, slots never reached are still blank, and `pos` is written next. -/
structure Holds (n : Nat) (blank slots : Nat → α) (pos : Nat) (items : List α) : Prop where
  pos_eq : pos = items.length % n
  live : ∀ i (bound : i < items.length), items.length ≤ i + n → slots (i % n) = items[i]
  fresh : ∀ j, j < n → items.length ≤ j → slots j = blank j

theorem Holds.start (n : Nat) (blank : Nat → α) : Holds n blank blank 0 [] :=
  ⟨by simp,fun _ bound => absurd bound (Nat.not_lt_zero _),fun _ _ _ => rfl⟩

theorem Holds.push {n pos : Nat} {blank slots : Nat → α} {items : List α} (pos_n : 0 < n)
    (holds : Holds n blank slots pos items) (a : α) :
    Holds n blank (Function.update slots pos a) (next n pos) (items ++ [a]) := by
  refine ⟨?_,?_,?_⟩
  · rw [holds.pos_eq,next_mod _ _ pos_n,List.length_append,List.length_singleton]
  · intro i bound recent
    rw [List.length_append,List.length_singleton] at bound recent
    by_cases newest : i = items.length
    · subst newest
      rw [← holds.pos_eq,Function.update_self,List.getElem_concat_length rfl]
    · have older : i < items.length := by omega
      have apart : i % n ≠ pos := holds.pos_eq ▸ mod_ne older (by omega)
      rw [Function.update_of_ne apart,holds.live i older (by omega),List.getElem_append_left older]
  · intro j inside unreached
    rw [List.length_append,List.length_singleton] at unreached
    have apart : j ≠ pos := by
      rw [holds.pos_eq,Nat.mod_eq_of_lt (by omega)]
      omega
    rw [Function.update_of_ne apart]
    exact holds.fresh j inside (by omega)

end JcaFirmware.Foundation.Ring
