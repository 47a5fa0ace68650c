import Mathlib.Data.List.Perm.Subperm
import JcaFirmware.MultiSms

/-! The length `ms_get` returns. It counts all used slots with the id, while the text takes
one slot for each part number; both loops are set against each other here, with the
assertion of the second. -/
namespace JcaFirmware.MultiSms
open Foundation

section Functions

def used (id : UInt8) (s : Msms) : List Slot := s.filter fun slot => slot.len ≠ 0 ∧ slot.id = id

def countOf (id : UInt8) (s : Msms) : Nat := (((used id s).getLast?.map Slot.total).getD 0).toNat

/-- The loop of `ms_get` that joins the parts behind `text`; without a part it gives up. -/
def joinParts (id : UInt8) (s : Msms) (len : Nat) : List UInt8 → List UInt8 → Except String (Option (List UInt8))
  | [], text => .ok (some text)
  | order :: rest, text =>
    match msFindInBuf id order s with
    | none => .ok none
    | some slot =>
      let text := text ++ (slot.buffer.getD []).take slot.len
      if text.length ≤ len then joinParts id s len rest text else .error "ms_get() OVERFLOW "

/-- `ms_get` with its assertion. -/
def msGetAsserted (id : UInt8) (memory : Bool) (s : Msms) : Except String (Option (Nat × List UInt8)) :=
  let len := ((used id s).map Slot.len).sum
  if len = 0 then .ok none
  else if memory = false then .ok none
  else do
    let text ← joinParts id s len (orders (countOf id s)) []
    .ok (text.map fun text => (len,text))

end Functions

section Lists

variable {α β : Type} {find : α → Option β} {l : List α} {found : List β}

theorem mapM_some_iff : l.mapM find = some found ↔ l.map find = found.map some := by
  induction l generalizing found with
  | nil => cases found <;> simp
  | cons a l ih =>
    rw [List.mapM_cons]
    cases here : find a with
    | none => cases found <;> simp [here]
    | some b =>
      cases rest : l.mapM find with
      | none =>
        cases found with
        | nil => simp
        | cons c found =>
          have := (@ih found).not.mp (by simp [rest])
          simp [here,this]
      | some others =>
        have same := ih.mp rest
        cases found with
        | nil => simp
        | cons c found =>
          have lists : others = found ↔ others.map some = found.map some :=
            (List.map_inj_right fun _ _ => Option.some.inj).symm
          simp [here,same,lists]

theorem mapM_exists (all : ∀ a ∈ l, (find a).isSome) : ∃ found, l.mapM find = some found := by
  refine ⟨l.filterMap find,mapM_some_iff.mpr ?_⟩
  induction l with
  | nil => rfl
  | cons a l ih =>
    obtain ⟨b,here⟩ := Option.isSome_iff_exists.mp (all a (by simp))
    rw [List.map_cons,List.filterMap_cons_some here,List.map_cons,here,ih fun c member => all c (by simp [member])]

theorem mem_mapM (all : l.mapM find = some found) {b : β} : b ∈ found ↔ ∃ a ∈ l, find a = some b := by
  have same := congrArg (some b ∈ ·) (mapM_some_iff.mp all)
  simpa using same.symm

theorem map_mapM (all : l.mapM find = some found) {key : β → α} (keyed : ∀ a b, find a = some b → key b = a) :
    found.map key = l := by
  have same := mapM_some_iff.mp all
  induction l generalizing found with
  | nil =>
    cases found with
    | nil => rfl
    | cons b found => cases same
  | cons a l ih =>
    cases found with
    | nil => cases same
    | cons b found =>
      obtain ⟨here,rest⟩ := List.cons.inj same
      rw [List.map_cons,keyed a b here,ih (mapM_some_iff.mpr rest) rest]

theorem subperm_append {l₁ l₂ : List α} (sub : l₁.Subperm l₂) : ∃ rest, l₂.Perm (l₁ ++ rest) := by
  obtain ⟨l,same,inside⟩ := sub
  obtain ⟨rest,split⟩ := inside.exists_perm_append
  exact ⟨rest,split.trans (same.append_right rest)⟩

end Lists

section Lengths

def total (parts : List Slot) : Nat := (parts.map Slot.len).sum

theorem total_append (parts more : List Slot) : total (parts ++ more) = total parts + total more := by
  rw [total,List.map_append,List.sum_append,total,total]

theorem total_perm {parts others : List Slot} (same : parts.Perm others) : total parts = total others :=
  (same.map _).sum_nat

theorem total_filter (parts : List Slot) : total (parts.filter fun slot => slot.len ≠ 0) = total parts := by
  induction parts with
  | nil => rfl
  | cons slot parts ih =>
    by_cases empty : slot.len = 0
    · simpa [total,empty] using ih
    · simpa [total,empty] using ih

theorem total_zero {parts : List Slot} (none : total parts = 0) (solid : ∀ slot ∈ parts, slot.len ≠ 0) : parts = [] := by
  cases parts with
  | nil => rfl
  | cons slot parts =>
    have := solid slot (by simp)
    simp [total] at none
    omega

end Lengths

section Joining

variable {id : UInt8} {s : Msms}

theorem find_slot {order : UInt8} {slot : Slot} (found : msFindInBuf id order s = some slot) :
    slot ∈ s ∧ slot.id = id ∧ slot.orderNum = order := by
  have holds := List.find?_some found
  exact ⟨List.mem_of_find?_eq_some found,(of_decide_eq_true holds).1,(of_decide_eq_true holds).2.1⟩

/-- Parts with different numbers are different slots, so they are not longer than all
the used slots together. -/
theorem total_rest {parts : List Slot} (apart : (parts.map Slot.orderNum).Nodup) (own : ∀ slot ∈ parts, slot ∈ s ∧ slot.id = id) :
    ∃ rest, (used id s).Perm ((parts.filter fun slot => slot.len ≠ 0) ++ rest) := by
  apply subperm_append
  apply ((List.Nodup.of_map _ apart).filter _).subperm
  intro slot member
  obtain ⟨present,solid⟩ := List.mem_filter.mp member
  obtain ⟨inside,mine⟩ := own slot present
  exact List.mem_filter.mpr ⟨inside,decide_eq_true ⟨of_decide_eq_true solid,mine⟩⟩

theorem total_le {parts : List Slot} (apart : (parts.map Slot.orderNum).Nodup) (own : ∀ slot ∈ parts, slot ∈ s ∧ slot.id = id) :
    total parts ≤ total (used id s) := by
  obtain ⟨rest,same⟩ := total_rest apart own
  rw [total_perm same,total_append,total_filter]
  exact Nat.le_add_right _ _

def textOf (parts : List Slot) : List UInt8 := parts.flatMap fun slot => (slot.buffer.getD []).take slot.len

theorem length_textOf (valid : Valid s) {parts : List Slot} (own : ∀ slot ∈ parts, slot ∈ s ∧ slot.id = id) :
    (textOf parts).length = total parts := by
  induction parts with
  | nil => rfl
  | cons slot parts ih =>
    have filled := valid.filled slot (own slot (by simp)).1
    have rest := ih fun other member => own other (by simp [member])
    rw [textOf,List.flatMap_cons,← textOf,List.length_append,rest,List.length_take,← filled,Nat.min_self,total,total,
      List.map_cons,List.sum_cons]

/-- The loop has joined `parts` and goes on: its assertion holds at every part. -/
theorem joinParts_eq (valid : Valid s) (rest : List UInt8) : ∀ parts : List Slot,
    (parts.map Slot.orderNum ++ rest).Nodup → (∀ slot ∈ parts, slot ∈ s ∧ slot.id = id) →
    joinParts id s (total (used id s)) rest (textOf parts) =
      .ok ((rest.mapM fun order => msFindInBuf id order s).map fun more => textOf (parts ++ more)) := by
  induction rest with
  | nil =>
    intro parts _ _
    simp [joinParts]
  | cons order rest ih =>
    intro parts apart own
    rw [joinParts,List.mapM_cons]
    cases found : msFindInBuf id order s with
    | none => rfl
    | some slot =>
      obtain ⟨inside,mine,number⟩ := find_slot found
      have next : (parts ++ [slot]).map Slot.orderNum ++ rest = parts.map Slot.orderNum ++ order :: rest := by
        simp [number]
      have all : ∀ other ∈ parts ++ [slot], other ∈ s ∧ other.id = id := by
        intro other member
        rcases List.mem_append.mp member with old | new
        · exact own other old
        · exact List.mem_singleton.mp new ▸ ⟨inside,mine⟩
      have fits : (textOf (parts ++ [slot])).length ≤ total (used id s) := by
        rw [length_textOf valid all]
        exact total_le (List.nodup_append.mp (next ▸ apart)).1 all
      have grown : textOf parts ++ (slot.buffer.getD []).take slot.len = textOf (parts ++ [slot]) := by
        simp [textOf]
      dsimp only
      rw [grown,if_pos fits,ih (parts ++ [slot]) (next ▸ apart) all]
      cases rest.mapM fun order => msFindInBuf id order s <;> simp

theorem countOf_lt (id : UInt8) (s : Msms) : countOf id s < 256 := UInt8.toNat_lt _

theorem msGet_eq (id : UInt8) (memory : Bool) (s : Msms) :
    msGet id memory s =
      if total (used id s) = 0 then none
      else if memory = false then none
      else ((orders (countOf id s)).mapM fun order => msFindInBuf id order s).map fun parts => (total (used id s),textOf parts) := by
  unfold msGet total countOf textOf used
  dsimp only
  split_ifs
  · rfl
  · rfl
  · generalize (orders _).mapM (m := Option) _ = found
    cases found <;> rfl

/-- The assertion of `ms_get` never fails, and the length may be that of other slots than the text. -/
theorem msGetAsserted_eq (valid : Valid s) (id : UInt8) (memory : Bool) :
    msGetAsserted id memory s = .ok (msGet id memory s) := by
  have joined : joinParts id s (total (used id s)) (orders (countOf id s)) [] = _ :=
    joinParts_eq valid (orders (countOf id s)) [] (orders_nodup (countOf_lt id s)) (by simp)
  rw [msGet_eq,msGetAsserted]
  change (if total (used id s) = 0 then _ else if memory = false then _ else
    joinParts id s (total (used id s)) (orders (countOf id s)) [] >>= _) = _
  rw [joined]
  split_ifs
  · rfl
  · rfl
  · cases (orders (countOf id s)).mapM fun order => msFindInBuf id order s <;> rfl

def Complete (id : UInt8) (s : Msms) : Prop := ∀ order ∈ orders (countOf id s), (msFindInBuf id order s).isSome

structure EachOnce (id : UInt8) (s : Msms) : Prop where
  apart : ((used id s).map Slot.orderNum).Nodup
  taken : ∀ slot ∈ used id s, slot.orderNum ∈ orders (countOf id s) ∧ msFindInBuf id slot.orderNum s = some slot

theorem found_parts {parts : List Slot} (found : (orders (countOf id s)).mapM (fun order => msFindInBuf id order s) = some parts) :
    (parts.map Slot.orderNum).Nodup ∧ ∀ slot ∈ parts, slot ∈ s ∧ slot.id = id := by
  have numbers : parts.map Slot.orderNum = orders (countOf id s) :=
    map_mapM found fun _ _ here => (find_slot here).2.2
  refine ⟨numbers ▸ orders_nodup (countOf_lt id s),fun slot member => ?_⟩
  obtain ⟨order,_,here⟩ := (mem_mapM found).mp member
  exact ⟨(find_slot here).1,(find_slot here).2.1⟩

theorem total_used_iff {parts : List Slot} (found : (orders (countOf id s)).mapM (fun order => msFindInBuf id order s) = some parts) :
    total (used id s) = total parts ↔ EachOnce id s := by
  obtain ⟨apart,own⟩ := found_parts found
  have solid : ∀ slot ∈ used id s, slot.len ≠ 0 := fun slot member =>
    (of_decide_eq_true (List.mem_filter.mp member).2).1
  constructor
  · intro same
    obtain ⟨rest,split⟩ := total_rest apart own
    have none : rest = [] := by
      refine total_zero ?_ fun slot member => solid slot (split.mem_iff.mpr (List.mem_append_right _ member))
      have sums := total_perm split
      rw [total_append,total_filter] at sums
      omega
    rw [none,List.append_nil] at split
    refine ⟨?_,fun slot member => ?_⟩
    · rw [(split.map _).nodup_iff]
      exact apart.sublist (List.filter_sublist.map _)
    · obtain ⟨order,inside,here⟩ := (mem_mapM found).mp (List.mem_filter.mp (split.mem_iff.mp member)).1
      obtain rfl := (find_slot here).2.2
      exact ⟨inside,here⟩
  · intro once
    have inside : used id s ⊆ parts.filter fun slot => slot.len ≠ 0 := by
      intro slot member
      obtain ⟨order,here⟩ := once.taken slot member
      exact List.mem_filter.mpr ⟨(mem_mapM found).mpr ⟨_,order,here⟩,decide_eq_true (solid slot member)⟩
    obtain ⟨rest,split⟩ := subperm_append ((List.Nodup.of_map _ once.apart).subperm inside)
    have sums := total_perm split
    have bound := total_le apart own
    rw [total_append,total_filter] at sums
    omega

theorem msGet_eq_some {memory : Bool} {len : Nat} {text : List UInt8} :
    msGet id memory s = some (len,text) ↔ memory = true ∧ len = total (used id s) ∧ len ≠ 0 ∧
      ∃ parts, (orders (countOf id s)).mapM (fun order => msFindInBuf id order s) = some parts ∧ text = textOf parts := by
  rw [msGet_eq]
  by_cases empty : total (used id s) = 0
  · rw [if_pos empty]
    constructor
    · intro none
      cases none
    · rintro ⟨_,same,some,_⟩
      exact absurd (same.trans empty) some
  · rw [if_neg empty]
    cases memory with
    | false => simp
    | true =>
      cases (orders (countOf id s)).mapM fun order => msFindInBuf id order s with
      | none => simp
      | some parts =>
        constructor
        · intro got
          obtain ⟨rfl,rfl⟩ := Prod.mk.inj (Option.some.inj got)
          exact ⟨rfl,rfl,empty,parts,rfl,rfl⟩
        · rintro ⟨_,rfl,_,others,same,rfl⟩
          obtain rfl := Option.some.inj same
          rfl

/-- The assertion holds, and a length that is returned is that of the text. -/
def Honest (id : UInt8) (s : Msms) : Prop :=
  ∀ memory, ∃ result, msGetAsserted id memory s = .ok result ∧ ∀ len text, result = some (len,text) → len = text.length

/-- In every state that is reached, `ms_get` is honest about an id exactly when a part of it
is missing or each of its used slots is taken once. -/
theorem honest_iff (ops : List Op) (id : UInt8) :
    Honest id (Run.run step initial ops) ↔
      (Complete id (Run.run step initial ops) → EachOnce id (Run.run step initial ops)) := by
  have valid := run_valid ops
  generalize Run.run step initial ops = s at valid
  constructor
  · intro honest complete
    obtain ⟨parts,found⟩ := mapM_exists complete
    obtain ⟨apart,own⟩ := found_parts found
    apply (total_used_iff found).mp
    by_cases empty : total (used id s) = 0
    · have bound := total_le apart own
      omega
    · obtain ⟨result,ran,same⟩ := honest true
      have got := msGet_eq_some.mpr ⟨rfl,rfl,empty,parts,found,rfl⟩
      rw [msGetAsserted_eq valid,got] at ran
      rw [same _ _ (Except.ok.inj ran).symm,length_textOf valid own]
  · intro once memory
    refine ⟨_,msGetAsserted_eq valid id memory,fun len text got => ?_⟩
    obtain ⟨_,rfl,_,parts,found,rfl⟩ := msGet_eq_some.mp got
    have complete : Complete id s := by
      intro order member
      have present : msFindInBuf id order s ∈ parts.map some := by
        rw [← mapM_some_iff.mp found]
        exact List.mem_map_of_mem member
      obtain ⟨slot,_,here⟩ := List.mem_map.mp present
      rw [← here]
      rfl
    rw [length_textOf valid (found_parts found).2]
    exact (total_used_iff found).mpr (once complete)

/-- The first part comes twice and is counted twice. -/
theorem repeated_longer :
    msGetAsserted 7 true (Run.run step initial [.incomming firstPart true,.incomming firstPart true,.incomming secondPart true]) =
        .ok (some (5,[0x61,0x62,0x63])) ∧
      ¬ Honest 7 (Run.run step initial [.incomming firstPart true,.incomming firstPart true,.incomming secondPart true]) := by
  have got : msGetAsserted 7 true
      (Run.run step initial [.incomming firstPart true,.incomming firstPart true,.incomming secondPart true]) =
        .ok (some (5,[0x61,0x62,0x63])) := by rfl
  refine ⟨got,fun honest => ?_⟩
  obtain ⟨result,ran,same⟩ := honest true
  rw [got] at ran
  exact absurd (same _ _ (Except.ok.inj ran).symm) (by decide)

end Joining

end JcaFirmware.MultiSms
