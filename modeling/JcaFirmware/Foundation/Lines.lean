import Mathlib.Data.List.Basic
import Mathlib.Data.List.Induction
import Mathlib.Data.List.TakeWhile

/-! Streams that arrive one character at a time, cut into lines by the characters that end them. -/
namespace JcaFirmware.Foundation.Lines

variable {α : Type} (ends : α → Bool)

/-- The lines that have ended, and what has arrived since. -/
structure Cut (α : Type) where
  done : List (List α)
  tail : List α

def Cut.next (cut : Cut α) (c : α) : Cut α :=
  if ends c then ⟨cut.done ++ [cut.tail],[]⟩ else ⟨cut.done,cut.tail ++ [c]⟩

def cut (stream : List α) : Cut α := stream.foldl (Cut.next ends) ⟨[],[]⟩

theorem cut_concat (stream : List α) (c : α) : cut ends (stream ++ [c]) = (cut ends stream).next ends c := by
  rw [cut,List.foldl_append]
  rfl

theorem Cut.next_plain {cut : Cut α} (plain : ∀ c ∈ cut.tail, ends c = false) (c : α) : ∀ d ∈ (cut.next ends c).tail, ends d = false := by
  rw [next]
  split_ifs with last
  · exact fun _ => nofun
  · intro d member
    rcases List.mem_append.mp member with own | new
    · exact plain d own
    · rw [List.mem_singleton.mp new]
      exact Bool.eq_false_iff.mpr last

theorem foldl_next_splitOnP (stream : List α) {cut : Cut α} (plain : ∀ c ∈ cut.tail, ends c = false) :
    (stream.foldl (Cut.next ends) cut).done ++ [(stream.foldl (Cut.next ends) cut).tail] =
      cut.done ++ (cut.tail ++ stream).splitOnP ends := by
  induction stream generalizing cut with
  | nil => rw [List.append_nil,List.splitOnP_eq_singleton plain,List.foldl_nil]
  | cons c stream ih =>
    rw [List.foldl_cons,ih (Cut.next_plain ends plain c)]
    by_cases last : ends c = true
    · rw [Cut.next,if_pos last,List.splitOnP_append_cons_of_forall_mem plain c last,List.nil_append,List.append_assoc,List.singleton_append]
    · rw [Cut.next,if_neg last,List.append_assoc,List.singleton_append]

theorem cut_splitOnP (stream : List α) : (cut ends stream).done ++ [(cut ends stream).tail] = stream.splitOnP ends :=
  foldl_next_splitOnP ends stream (by simp)

/-- What has ended is all of the stream but its last piece. -/
theorem cut_done (stream : List α) : (cut ends stream).done = (stream.splitOnP ends).dropLast := by
  rw [← cut_splitOnP,List.dropLast_concat]

theorem cut_tail_plain (stream : List α) : ∀ c ∈ (cut ends stream).tail, ends c = false := by
  induction stream using List.reverseRecOn with
  | nil => exact fun _ => nofun
  | append_singleton stream c ih =>
    rw [cut_concat]
    exact Cut.next_plain ends ih c

end JcaFirmware.Foundation.Lines
