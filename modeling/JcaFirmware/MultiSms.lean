import Mathlib.Algebra.GroupWithZero.Nat
import Mathlib.Data.List.Perm.Basic
import Mathlib.Data.List.Nodup
import JcaFirmware.Foundation.Run

/-! Parts of long messages (`modem/multi_sms.c`, `modem_sms_read` of `modem/modem_sms.c`):
they wait in ten slots until all with their reference id are there. -/
namespace JcaFirmware.MultiSms
open Foundation

-- The program does not keep the sender of a part; it stands here for what is said about it.
/-- A `msms_t`. -/
structure Slot where
  buffer : Option (List UInt8)
  orderNum : UInt8
  total : UInt8
  id : UInt8
  len : Nat
  sender : List UInt8
deriving DecidableEq, Repr

structure Part where
  text : List UInt8
  id : UInt8
  order : UInt8
  total : UInt8
  sender : List UInt8
deriving DecidableEq, Repr

inductive Status
  | error
  | wait
  | done
deriving DecidableEq, Repr

abbrev Msms := List Slot

section Functions

def msmsBufLen : Nat := 10

def smsPartMax : Nat := 160

def initial : Msms := List.replicate msmsBufLen ⟨none,0,0,0,0,[]⟩

def msInit (s : Msms) : Msms := s.map fun slot => {slot with len := 0, buffer := none}

example : msInit initial = initial := by decide

/-- The buffers of all other ids are erased, if none is empty. -/
def msGetFreeBuf (id : UInt8) (s : Msms) : Option Nat × Msms :=
  match s.findIdx? (·.len = 0) with
  | some i => (some i,s)
  | none =>
    let s := s.map fun slot => if slot.id ≠ id then {slot with buffer := none, len := 0} else slot
    (s.findIdx? (·.len = 0),s)

/-- Of a found slot its contents are given in place of its index. -/
def msFindInBuf (id order : UInt8) (s : Msms) : Option Slot :=
  s.find? fun slot => slot.id = id ∧ slot.orderNum = order ∧ slot.buffer.isSome

def orders (total : Nat) : List UInt8 := (List.range total).map fun i => UInt8.ofNat (i + 1)

def slotOf (part : Part) : Slot := ⟨some part.text,part.order,part.total,part.id,part.text.length,part.sender⟩

/-- The loop that checks if all parts are received. -/
def allReceived (id total : UInt8) (s : Msms) : Status :=
  if (orders total.toNat).all fun order => (msFindInBuf id order s).isSome then .done else .wait

-- `memory` is the outcome of the allocation.
def msIncomming (part : Part) (memory : Bool) (s : Msms) : Status × Msms :=
  match msGetFreeBuf part.id s with
  | (none,s) => (.error,s)
  | (some i,s) =>
    if smsPartMax < part.text.length then (.error,s)
    else if memory = false then (.error,s.modify i fun slot => {slot with buffer := none})
    else
      let s := s.modify i fun _ => slotOf part
      (allReceived part.id part.total s,s)

/-- The length that is returned and the text, unless it is 0. -/
def msGet (id : UInt8) (memory : Bool) (s : Msms) : Option (Nat × List UInt8) :=
  let used := s.filter fun slot => slot.len ≠ 0 ∧ slot.id = id
  let len := (used.map Slot.len).sum
  let num := (used.getLast?.map Slot.total).getD 0
  if len = 0 then none
  else if memory = false then none
  else
    match (orders num.toNat).mapM fun order => msFindInBuf id order s with
    | none => none
    | some parts => some (len,parts.flatMap fun slot => (slot.buffer.getD []).take slot.len)

def freed (slot : Slot) : Slot := {slot with id := 0, orderNum := 0, buffer := none, len := 0}

def msDelete (id : UInt8) (s : Msms) : Msms := s.map fun slot => if slot.id = id then freed slot else slot

inductive Op
  | incomming (part : Part) (memory : Bool)
  | delete (id : UInt8)
deriving DecidableEq, Repr

def step (s : Msms) : Op → Msms
  | .incomming part memory => (msIncomming part memory s).2
  | .delete id => msDelete id s

end Functions

section Slots

def held (id : UInt8) (s : Msms) : List Slot := s.filter fun slot => slot.id = id ∧ slot.buffer.isSome

def buffered (s : Msms) : Nat := (s.filter fun slot => slot.len ≠ 0).length

structure Valid (s : Msms) : Prop where
  size : s.length = msmsBufLen
  filled : ∀ slot ∈ s, slot.len = (slot.buffer.getD []).length

variable {s : Msms}

theorem valid_initial : Valid initial where
  size := List.length_replicate
  filled := by
    intro slot member
    rw [List.eq_of_mem_replicate member]
    rfl

theorem Valid.map (valid : Valid s) {change : Slot → Slot}
    (kept : ∀ slot, slot.len = (slot.buffer.getD []).length → (change slot).len = ((change slot).buffer.getD []).length) :
    Valid (s.map change) where
  size := (List.length_map _).trans valid.size
  filled := by
    intro slot member
    obtain ⟨old,present,rfl⟩ := List.mem_map.mp member
    exact kept old (valid.filled old present)

theorem Valid.modify (valid : Valid s) (i : Nat) {change : Slot → Slot}
    (kept : ∀ slot ∈ s, slot.len = 0 → (change slot).len = ((change slot).buffer.getD []).length)
    (free : ∀ slot, s[i]? = some slot → slot.len = 0) : Valid (s.modify i change) where
  size := (List.length_modify _ _ _).trans valid.size
  filled := by
    intro slot member
    obtain ⟨j,found⟩ := List.mem_iff_getElem?.mp member
    rw [List.getElem?_modify] at found
    obtain ⟨old,present,rfl⟩ := Option.map_eq_some_iff.mp found
    have inside := List.mem_of_getElem? present
    by_cases here : i = j
    · subst here
      rw [if_pos rfl]
      exact kept old inside (free old present)
    · rw [if_neg here]
      exact valid.filled old inside

/-- The search leaves the slots as they are, or erases those of other ids. -/
theorem msGetFreeBuf_cases (id : UInt8) (s : Msms) :
    (∃ i, s.findIdx? (·.len = 0) = some i ∧ msGetFreeBuf id s = (some i,s)) ∨
      s.findIdx? (·.len = 0) = none ∧ ∃ s', msGetFreeBuf id s = (s'.findIdx? (·.len = 0),s') ∧
        s' = s.map fun slot => if slot.id ≠ id then {slot with buffer := none, len := 0} else slot := by
  rw [msGetFreeBuf]
  cases found : s.findIdx? (·.len = 0) with
  | some i => exact Or.inl ⟨i,rfl,rfl⟩
  | none => exact Or.inr ⟨rfl,_,rfl,rfl⟩

theorem findIdx?_empty {i : Nat} (found : s.findIdx? (·.len = 0) = some i) (slot : Slot) (here : s[i]? = some slot) :
    slot.len = 0 := by
  obtain ⟨inside,empty,_⟩ := List.findIdx?_eq_some_iff_getElem.mp found
  obtain ⟨_,rfl⟩ := List.getElem?_eq_some_iff.mp here
  exact of_decide_eq_true empty

theorem msGetFreeBuf_empty {id : UInt8} {i : Nat} (found : (msGetFreeBuf id s).1 = some i) (slot : Slot)
    (here : (msGetFreeBuf id s).2[i]? = some slot) : slot.len = 0 := by
  rcases msGetFreeBuf_cases id s with ⟨j,first,same⟩ | ⟨_,s',same,_⟩
  · rw [same] at found here
    obtain rfl := Option.some.inj found
    exact findIdx?_empty first slot here
  · rw [same] at found here
    exact findIdx?_empty found slot here

theorem msGetFreeBuf_valid (valid : Valid s) (id : UInt8) : Valid (msGetFreeBuf id s).2 := by
  rcases msGetFreeBuf_cases id s with ⟨_,_,same⟩ | ⟨_,_,same,rfl⟩
  · rw [same]
    exact valid
  · rw [same]
    apply valid.map
    intro slot filled
    split_ifs
    · rfl
    · exact filled

theorem msIncomming_cases (part : Part) (memory : Bool) (s : Msms) :
    msIncomming part memory s = (.error,(msGetFreeBuf part.id s).2) ∨
      ∃ i, (msGetFreeBuf part.id s).1 = some i ∧
        (msIncomming part memory s = (.error,(msGetFreeBuf part.id s).2.modify i fun slot => {slot with buffer := none}) ∨
          ∃ s', s' = (msGetFreeBuf part.id s).2.modify i (fun _ => slotOf part) ∧ part.text.length ≤ smsPartMax ∧
            msIncomming part memory s = (allReceived part.id part.total s',s')) := by
  rw [msIncomming]
  obtain ⟨found,s'⟩ := msGetFreeBuf part.id s
  cases found with
  | none => exact Or.inl rfl
  | some i =>
    dsimp only
    split_ifs with long full
    · exact Or.inl rfl
    · exact Or.inr ⟨i,rfl,Or.inl rfl⟩
    · exact Or.inr ⟨i,rfl,Or.inr ⟨_,rfl,by omega,rfl⟩⟩

theorem Valid.step (valid : Valid s) (op : Op) : Valid (step s op) := by
  cases op with
  | incomming part memory =>
    have searched := msGetFreeBuf_valid valid part.id
    rw [MultiSms.step]
    rcases msIncomming_cases part memory s with same | ⟨i,found,same | ⟨s',rfl,_,same⟩⟩
    · rw [same]
      exact searched
    · rw [same]
      exact searched.modify i (fun _ _ empty => empty) (msGetFreeBuf_empty found)
    · rw [same]
      exact searched.modify i (fun _ _ _ => rfl) (msGetFreeBuf_empty found)
  | delete id =>
    apply valid.map
    intro slot filled
    split_ifs
    · rfl
    · exact filled

theorem run_valid (ops : List Op) : Valid (Run.run step initial ops) :=
  Run.run_invariant step (fun _ _ => True) Valid (fun _ op valid _ => valid.step op) initial ops valid_initial
    (Run.admits_of_forall _ _ _ _ fun _ _ _ => trivial)

end Slots

section Lists

variable {α : Type} {p : α → Bool} {l : List α} {i : Nat} {a : α} {f : α → α}

theorem modify_split (here : l[i]? = some a) :
    ∃ first rest, l = first ++ a :: rest ∧ l.modify i f = first ++ f a :: rest := by
  obtain ⟨inside,rfl⟩ := List.getElem?_eq_some_iff.mp here
  refine ⟨l.take i,l.drop (i + 1),?_,List.modify_eq_take_cons_drop inside⟩
  rw [← List.drop_eq_getElem_cons inside,List.take_append_drop]

theorem filter_modify (here : l[i]? = some a) (out : p a = false) (still : p (f a) = false) :
    (l.modify i f).filter p = l.filter p := by
  obtain ⟨first,rest,rfl,changed⟩ := @modify_split α l i a f here
  rw [changed,List.filter_append,List.filter_append,List.filter_cons_of_neg (by simp [still]),
    List.filter_cons_of_neg (by simp [out])]

theorem filter_modify_perm (here : l[i]? = some a) (out : p a = false) (comes : p (f a) = true) :
    ((l.modify i f).filter p).Perm (f a :: l.filter p) := by
  obtain ⟨first,rest,rfl,changed⟩ := @modify_split α l i a f here
  rw [changed,List.filter_append,List.filter_append,List.filter_cons_of_pos comes,List.filter_cons_of_neg (by simp [out])]
  exact List.perm_middle

theorem mapM_map_some {β γ : Type} {find : β → Option γ} {key : α → β} {value : α → γ} {l : List α}
    (found : ∀ a ∈ l, find (key a) = some (value a)) : (l.map key).mapM find = some (l.map value) := by
  induction l with
  | nil => rfl
  | cons a l ih =>
    rw [List.map_cons,List.mapM_cons,found a List.mem_cons_self,ih fun b member => found b (List.mem_cons_of_mem a member)]
    rfl

theorem mem_of_mapM_some {β : Type} {find : α → Option β} {l : List α} {found : List β} (all : l.mapM find = some found) {b : β}
    (member : b ∈ found) : ∃ a ∈ l, find a = some b := by
  induction l generalizing found with
  | nil =>
    obtain rfl := Option.some.inj all
    exact absurd member List.not_mem_nil
  | cons a l ih =>
    rw [List.mapM_cons] at all
    obtain ⟨first,here,rest⟩ := Option.bind_eq_some_iff.mp all
    obtain ⟨others,later,same⟩ := Option.bind_eq_some_iff.mp rest
    obtain rfl := Option.some.inj same
    rcases List.mem_cons.mp member with rfl | other
    · exact ⟨a,List.mem_cons_self,here⟩
    · obtain ⟨c,present,same⟩ := ih later other
      exact ⟨c,List.mem_cons_of_mem _ present,same⟩

theorem exists_flatMap {β γ : Type} {holds : β → Prop} {f : α → List γ} {g : β → List γ} {l : List α}
    (each : ∀ a ∈ l, ∃ b, holds b ∧ g b = f a) : ∃ bs : List β, (∀ b ∈ bs, holds b) ∧ l.flatMap f = bs.flatMap g := by
  induction l with
  | nil => exact ⟨[],fun b member => absurd member List.not_mem_nil,rfl⟩
  | cons a l ih =>
    obtain ⟨b,here,same⟩ := each a List.mem_cons_self
    obtain ⟨bs,all,rest⟩ := ih fun c member => each c (List.mem_cons_of_mem a member)
    refine ⟨b :: bs,fun c member => ?_,?_⟩
    · rcases List.mem_cons.mp member with rfl | later
      · exact here
      · exact all c later
    · rw [List.flatMap_cons,List.flatMap_cons,same,rest]

end Lists

section Assembly

structure Message (id : UInt8) (parts : List Part) : Prop where
  nonempty : parts ≠ []
  few : parts.length ≤ msmsBufLen
  numbered : parts.map Part.order = orders parts.length
  own : ∀ part ∈ parts, part.id = id ∧ part.total = UInt8.ofNat parts.length
  texts : ∀ part ∈ parts, part.text ≠ [] ∧ part.text.length ≤ smsPartMax

def own (id : UInt8) : Op → Option Part
  | .incomming part _ => if part.id = id then some part else none
  | .delete _ => none

/-- A part comes while not all the slots are in use. -/
def HasRoom (s : Msms) : Op → Prop
  | .incomming _ _ => buffered s < msmsBufLen
  | .delete _ => True

instance (s : Msms) : (op : Op) → Decidable (HasRoom s op)
  | .incomming _ _ => inferInstanceAs (Decidable (_ < _))
  | .delete _ => isTrue trivial

/-- The parts of a message come in any order, between any others. -/
structure Arrives (id : UInt8) (parts : List Part) (s : Msms) (ops : List Op) : Prop where
  all : (ops.filterMap (own id)).Perm parts
  memory : ∀ part memory, .incomming part memory ∈ ops → part.id = id → memory = true
  kept : .delete id ∉ ops
  room : Run.Admits step HasRoom s ops

/-- What a message has in the slots is what has come of it. -/
structure Waiting (id : UInt8) (arrived : List Part) (s : Msms) : Prop extends Valid s where
  held : (held id s).Perm (arrived.map slotOf)
  solid : ∀ part ∈ arrived, part.text ≠ []

variable {id : UInt8} {arrived : List Part} {s : Msms}

theorem msGetFreeBuf_room (valid : Valid s) (room : buffered s < msmsBufLen) (other : UInt8) :
    ∃ i slot, s[i]? = some slot ∧ slot.len = 0 ∧ msGetFreeBuf other s = (some i,s) := by
  rcases msGetFreeBuf_cases other s with ⟨i,found,same⟩ | ⟨full,_⟩
  · obtain ⟨inside,_⟩ := List.findIdx?_eq_some_iff_getElem.mp found
    have here := List.getElem?_eq_getElem inside
    exact ⟨i,s[i],here,findIdx?_empty found _ here,same⟩
  · have used : s.filter (fun slot => slot.len ≠ 0) = s := by
      apply List.filter_eq_self.mpr
      intro slot member
      have busy := List.findIdx?_eq_none_iff.mp full slot member
      simpa using busy
    rw [buffered,used,valid.size] at room
    exact absurd room (Nat.lt_irrefl _)

theorem held_msDelete_other (s : Msms) {other : UInt8} (different : other ≠ id) : held id (msDelete other s) = held id s := by
  induction s with
  | nil => rfl
  | cons slot s ih =>
    rw [msDelete,List.map_cons,← msDelete,held,held]
    by_cases there : slot.id = other
    · have apart : slot.id ≠ id := fun mine => different (there.symm.trans mine)
      rw [if_pos there,List.filter_cons_of_neg (by simp [freed]),List.filter_cons_of_neg (by simp [apart])]
      exact ih
    · rw [if_neg there,List.filter_cons,List.filter_cons]
      split_ifs
      · exact congrArg _ ih
      · exact ih

theorem Waiting.len_ne_zero (waiting : Waiting id arrived s) {slot : Slot} (member : slot ∈ MultiSms.held id s) : slot.len ≠ 0 := by
  obtain ⟨part,present,rfl⟩ := List.mem_map.mp (waiting.held.mem_iff.mp member)
  exact fun none => waiting.solid part present (List.length_eq_zero_iff.mp none)

theorem Waiting.not_held (waiting : Waiting id arrived s) {i : Nat} {slot : Slot} (here : s[i]? = some slot) (empty : slot.len = 0) :
    decide (slot.id = id ∧ slot.buffer.isSome) = false := by
  apply decide_eq_false
  intro holds
  exact waiting.len_ne_zero (List.mem_filter.mpr ⟨List.mem_of_getElem? here,decide_eq_true holds⟩) empty

theorem Waiting.other (waiting : Waiting id arrived s) {op : Op} (foreign : own id op = none) (kept : op ≠ .delete id)
    (room : HasRoom s op) : Waiting id arrived (step s op) := by
  have valid := waiting.toValid.step op
  suffices same : MultiSms.held id (step s op) = MultiSms.held id s from ⟨valid,by rw [same]; exact waiting.held,waiting.solid⟩
  cases op with
  | incomming part memory =>
    obtain ⟨i,slot,here,empty,search⟩ := msGetFreeBuf_room waiting.toValid room part.id
    have out := waiting.not_held here empty
    have apart : part.id ≠ id := by
      intro same
      rw [own,if_pos same] at foreign
      cases foreign
    rw [step]
    rcases msIncomming_cases part memory s with same | ⟨j,found,same | ⟨s',rfl,_,same⟩⟩
    · rw [same,search]
    · rw [search] at found same
      obtain rfl := Option.some.inj found
      rw [same]
      exact filter_modify here out (decide_eq_false fun holds => Bool.noConfusion holds.2)
    · rw [search] at found same
      obtain rfl := Option.some.inj found
      rw [same]
      exact filter_modify here out (decide_eq_false fun holds => apart holds.1)
  | delete other =>
    exact held_msDelete_other s fun same => kept (by rw [same])

theorem Waiting.part (waiting : Waiting id arrived s) {part : Part} (mine : part.id = id)
    (text : part.text ≠ [] ∧ part.text.length ≤ smsPartMax) (room : buffered s < msmsBufLen) :
    ∃ s', msIncomming part true s = (allReceived id part.total s',s') ∧ Waiting id (part :: arrived) s' := by
  have valid := waiting.toValid.step (.incomming part true)
  obtain ⟨i,slot,here,empty,search⟩ := msGetFreeBuf_room waiting.toValid room part.id
  have stored : msIncomming part true s =
      (allReceived id part.total (s.modify i fun _ => slotOf part),s.modify i fun _ => slotOf part) := by
    rw [msIncomming,search]
    dsimp only
    rw [if_neg (by omega),if_neg Bool.noConfusion,mine]
  rw [step,stored] at valid
  refine ⟨_,stored,valid,?_,?_⟩
  · refine (filter_modify_perm here (waiting.not_held here empty) (decide_eq_true ⟨mine,rfl⟩)).trans ?_
    exact waiting.held.cons (slotOf part)
  · intro other member
    rcases List.mem_cons.mp member with rfl | old
    · exact text.1
    · exact waiting.solid other old

theorem msFindInBuf_eq (id order : UInt8) (s : Msms) :
    msFindInBuf id order s = (MultiSms.held id s).find? fun slot => slot.orderNum = order := by
  rw [msFindInBuf,MultiSms.held,List.find?_filter]
  congr 1
  funext slot
  by_cases mine : slot.id = id <;> by_cases order : slot.orderNum = order <;> simp [mine,order]

theorem Waiting.find (waiting : Waiting id arrived s) (apart : (arrived.map Part.order).Nodup) {part : Part}
    (member : part ∈ arrived) : msFindInBuf id part.order s = some (slotOf part) := by
  have present : slotOf part ∈ MultiSms.held id s := waiting.held.mem_iff.mpr (List.mem_map_of_mem member)
  have found : ((MultiSms.held id s).find? fun slot => slot.orderNum = part.order).isSome :=
    List.find?_isSome.mpr ⟨slotOf part,present,decide_eq_true rfl⟩
  obtain ⟨slot,first⟩ := Option.isSome_iff_exists.mp found
  have order : slot.orderNum = part.order := by simpa using List.find?_some first
  obtain ⟨other,inside,rfl⟩ := List.mem_map.mp (waiting.held.mem_iff.mp (List.mem_of_find?_eq_some first))
  have same : other = part := List.inj_on_of_nodup_map apart inside member order
  rw [msFindInBuf_eq,first,same]

theorem Waiting.allReceived_iff (waiting : Waiting id arrived s) (total : UInt8) :
    allReceived id total s = .done ↔ ∀ order ∈ orders total.toNat, ∃ part ∈ arrived, part.order = order := by
  have found (order : UInt8) : (msFindInBuf id order s).isSome ↔ ∃ part ∈ arrived, part.order = order := by
    rw [msFindInBuf_eq,List.find?_isSome]
    constructor
    · rintro ⟨slot,member,same⟩
      obtain ⟨part,present,rfl⟩ := List.mem_map.mp (waiting.held.mem_iff.mp member)
      exact ⟨part,present,of_decide_eq_true same⟩
    · rintro ⟨part,present,same⟩
      exact ⟨slotOf part,waiting.held.mem_iff.mpr (List.mem_map_of_mem present),decide_eq_true same⟩
  rw [allReceived]
  split_ifs with all
  · exact ⟨fun _ order member => (found order).mp (List.all_eq_true.mp all order member),fun _ => rfl⟩
  · refine ⟨fun done => ?_,fun each => absurd ?_ all⟩
    · cases done
    · exact List.all_eq_true.mpr fun order member => (found order).mpr (each order member)

theorem orders_nodup {total : Nat} (small : total < 256) : (orders total).Nodup := by
  apply List.Nodup.map_on _ List.nodup_range
  intro i inside j inside' same
  have equal := congrArg UInt8.toNat same
  rw [List.mem_range] at inside inside'
  rw [UInt8.toNat_ofNat',UInt8.toNat_ofNat',Nat.mod_eq_of_lt (by omega),Nat.mod_eq_of_lt (by omega)] at equal
  omega

variable {parts : List Part} (message : Message id parts)
include message

theorem Message.total {part : Part} (member : part ∈ parts) : part.total.toNat = parts.length := by
  have few := message.few
  rw [(message.own part member).2,UInt8.toNat_ofNat',Nat.mod_eq_of_lt (by rw [msmsBufLen] at few; omega)]

theorem Message.apart {others : List Part} (same : others.Perm parts) : (others.map Part.order).Nodup := by
  have few := message.few
  rw [(same.map _).nodup_iff,message.numbered]
  exact orders_nodup (by rw [msmsBufLen] at few; omega)

/-- The last part to come completes the message. -/
theorem Message.status {part : Part} {rest : List Part} (waiting : Waiting id (part :: arrived) s)
    (all : (part :: arrived ++ rest).Perm parts) :
    allReceived id part.total s = if rest = [] then .done else .wait := by
  have member : part ∈ parts := all.mem_iff.mp List.mem_cons_self
  have numbers : orders part.total.toNat = parts.map Part.order := by rw [message.total member,message.numbered]
  have received := waiting.allReceived_iff part.total
  rw [numbers] at received
  split_ifs with last
  · subst last
    rw [List.append_nil] at all
    rw [received]
    intro order present
    obtain ⟨other,inside,rfl⟩ := List.mem_map.mp present
    exact ⟨other,all.mem_iff.mpr inside,rfl⟩
  · have missing : allReceived id part.total s ≠ .done := by
      intro done
      obtain ⟨other,later⟩ := List.exists_mem_of_ne_nil rest last
      have inside : other ∈ parts := all.mem_iff.mp (List.mem_append_right _ later)
      obtain ⟨same,sooner,equal⟩ := received.mp done other.order (List.mem_map_of_mem inside)
      have distinct := message.apart all
      rw [List.map_append,List.nodup_append] at distinct
      exact distinct.2.2 _ (List.mem_map_of_mem sooner) _ (List.mem_map_of_mem later) equal
    rw [allReceived] at missing ⊢
    split_ifs at missing ⊢
    · exact absurd rfl missing
    · rfl

theorem Message.waiting {ops : List Op} (waiting : Waiting id arrived s)
    (all : ∀ part ∈ ops.filterMap (MultiSms.own id), part ∈ parts)
    (memory : ∀ part memory, .incomming part memory ∈ ops → part.id = id → memory = true) (kept : .delete id ∉ ops)
    (room : Run.Admits step HasRoom s ops) :
    Waiting id ((ops.filterMap (MultiSms.own id)).reverse ++ arrived) (Run.run step s ops) := by
  induction ops generalizing arrived s with
  | nil => exact waiting
  | cons op ops ih =>
    obtain ⟨here,later⟩ := room
    rw [Run.run_cons]
    cases mine : MultiSms.own id op with
    | none =>
      rw [List.filterMap_cons_none mine] at all ⊢
      exact ih (waiting.other mine (fun same => kept (by rw [same]; exact List.mem_cons_self)) here) all
        (fun part memory' present => memory part memory' (List.mem_cons_of_mem _ present))
        (fun present => kept (List.mem_cons_of_mem _ present)) later
    | some part =>
      rw [List.filterMap_cons_some mine] at all ⊢
      cases op with
      | delete other => cases mine
      | incomming other alloc =>
        rw [MultiSms.own] at mine
        split_ifs at mine with same
        obtain rfl := Option.some.inj mine
        obtain rfl := memory other alloc List.mem_cons_self same
        obtain ⟨s',stored,next⟩ := waiting.part same (message.texts other (all other List.mem_cons_self)) here
        have stepped : step s (.incomming other true) = s' := by rw [step,stored]
        rw [stepped] at later ⊢
        rw [List.reverse_cons,List.append_assoc]
        exact ih next (fun part member => all part (List.mem_cons_of_mem _ member))
          (fun part memory' present => memory part memory' (List.mem_cons_of_mem _ present))
          (fun present => kept (List.mem_cons_of_mem _ present)) later

theorem Message.joined (waiting : Waiting id arrived s) (all : arrived.Perm parts) :
    msGet id true s = some ((parts.map fun part => part.text.length).sum,parts.flatMap Part.text) := by
  have used : (s.filter fun slot => slot.len ≠ 0 ∧ slot.id = id) = MultiSms.held id s := by
    apply List.filter_congr
    intro slot member
    rw [decide_eq_decide]
    constructor
    · rintro ⟨busy,mine⟩
      refine ⟨mine,?_⟩
      have filled := waiting.filled slot member
      cases buffer : slot.buffer with
      | none =>
        rw [buffer] at filled
        exact absurd filled busy
      | some text => rfl
    · rintro ⟨mine,some⟩
      exact ⟨waiting.len_ne_zero (List.mem_filter.mpr ⟨member,decide_eq_true ⟨mine,some⟩⟩),mine⟩
  have perm : (MultiSms.held id s).Perm (parts.map slotOf) := waiting.held.trans (all.map slotOf)
  have sum : ((MultiSms.held id s).map Slot.len).sum = (parts.map fun part => part.text.length).sum := by
    rw [(perm.map Slot.len).sum_nat,List.map_map]
    rfl
  have nonempty : MultiSms.held id s ≠ [] := fun none => message.nonempty (List.map_eq_nil_iff.mp (perm.symm.trans (by rw [none])).eq_nil)
  have num : ((MultiSms.held id s).getLast?.map Slot.total).getD 0 = UInt8.ofNat parts.length := by
    obtain ⟨part,member,same⟩ := List.mem_map.mp (perm.mem_iff.mp (List.getLast_mem nonempty))
    rw [List.getLast?_eq_getLast_of_ne_nil nonempty,← same]
    exact (message.own part member).2
  have few := message.few
  have count : (UInt8.ofNat parts.length).toNat = parts.length := by
    rw [UInt8.toNat_ofNat',Nat.mod_eq_of_lt (by rw [msmsBufLen] at few; omega)]
  have found : (parts.map Part.order).mapM (fun order => msFindInBuf id order s) = some (parts.map slotOf) :=
    mapM_map_some fun part member => waiting.find (message.apart all) (all.mem_iff.mpr member)
  have some : (parts.map fun part => part.text.length).sum ≠ 0 := by
    obtain ⟨part,member⟩ := List.exists_mem_of_ne_nil parts message.nonempty
    intro none
    have zero := List.sum_eq_zero_iff_forall_eq_nat.mp none _ (List.mem_map_of_mem member)
    exact (message.texts part member).1 (List.length_eq_zero_iff.mp zero)
  rw [msGet,used,sum,num,count,← message.numbered,found]
  dsimp only
  rw [if_neg some,if_neg Bool.noConfusion,List.flatMap_map]
  simp only [slotOf,Option.getD_some,List.take_length]

omit message

theorem msDelete_frees (id : UInt8) (s : Msms) :
    List.Forall₂ (fun slot slot' => if slot.id = id then slot'.buffer = none ∧ slot'.len = 0 else slot' = slot) s (msDelete id s) := by
  rw [msDelete,List.forall₂_map_right_iff,List.forall₂_same]
  intro slot _
  split_ifs
  · exact ⟨rfl,rfl⟩
  · rfl

/-- A message that comes in parts is complete with the last of them, and is read and deleted as a whole. -/
theorem message_assembled {id : UInt8} {parts : List Part} {before ops : List Op} (message : Message id parts)
    (fresh : held id (Run.run step initial before) = []) (arrives : Arrives id parts (Run.run step initial before) ops) :
    (∀ first part memory rest, ops = first ++ .incomming part memory :: rest → part.id = id →
      (msIncomming part memory (Run.run step (Run.run step initial before) first)).1 =
        if rest.filterMap (own id) = [] then .done else .wait) ∧
    msGet id true (Run.run step (Run.run step initial before) ops) =
      some ((parts.map fun part => part.text.length).sum,parts.flatMap Part.text) ∧
    List.Forall₂ (fun slot slot' => if slot.id = id then slot'.buffer = none ∧ slot'.len = 0 else slot' = slot)
      (Run.run step (Run.run step initial before) ops) (msDelete id (Run.run step (Run.run step initial before) ops)) := by
  have valid := run_valid before
  generalize Run.run step initial before = s at valid fresh arrives
  obtain ⟨all,memory,kept,room⟩ := arrives
  have empty : Waiting id [] s := ⟨valid,by rw [fresh]; exact List.Perm.nil,fun part member => absurd member List.not_mem_nil⟩
  refine ⟨?_,?_,msDelete_frees id _⟩
  · rintro first part alloc rest rfl mine
    obtain ⟨sooner,here,_⟩ := (Run.admits_append step HasRoom s _ _).mp room
    have itself : own id (.incomming part alloc) = some part := if_pos mine
    obtain rfl := memory part alloc (List.mem_append_right _ List.mem_cons_self) mine
    rw [List.filterMap_append,List.filterMap_cons_some itself] at all
    have member : part ∈ parts := all.mem_iff.mp (List.mem_append_right _ List.mem_cons_self)
    have waiting := message.waiting empty (fun other present => all.mem_iff.mp (List.mem_append_left _ present))
      (fun other alloc present => memory other alloc (List.mem_append_left _ present))
      (fun present => kept (List.mem_append_left _ present)) sooner
    obtain ⟨s',stored,next⟩ := waiting.part mine (message.texts part member) here
    have together : (part :: ((first.filterMap (own id)).reverse ++ []) ++ rest.filterMap (own id)).Perm parts := by
      rw [List.append_nil,List.cons_append]
      exact (List.perm_middle.symm.trans ((List.reverse_perm _).append_right _)).trans all
    rw [stored]
    exact message.status next together
  · have waiting := message.waiting empty (fun part => all.mem_iff.mp) memory kept room
    rw [List.append_nil] at waiting
    exact message.joined waiting ((List.reverse_perm _).trans all)

def firstPart : Part := ⟨[0x61,0x62],7,1,2,[]⟩

def secondPart : Part := ⟨[0x63],7,2,2,[]⟩

def otherPart : Part := ⟨[0x64],8,1,2,[]⟩

/-- The second part comes first, and one of another message between. -/
theorem message_assembled_two :
    msGet 7 true (Run.run step (Run.run step initial []) [.incomming secondPart true,.incomming otherPart true,.incomming firstPart true]) =
      some (3,[0x61,0x62,0x63]) := by
  have arrives : Arrives 7 [firstPart,secondPart] (Run.run step initial [])
      [.incomming secondPart true,.incomming otherPart true,.incomming firstPart true] := by
    refine ⟨by decide,fun part memory member _ => ?_,by decide,by decide⟩
    simp only [List.mem_cons,Op.incomming.injEq,List.not_mem_nil,or_false] at member
    rcases member with ⟨_,allocated⟩ | ⟨_,allocated⟩ | ⟨_,allocated⟩ <;> exact allocated
  exact (message_assembled ⟨by decide,by decide,by decide,by decide,by decide⟩ (by decide) arrives).2.1

end Assembly

section Reading

/-- What the decoder finds in a message; `nr` of `count` parts. -/
structure Pdu where
  telNum : List UInt8
  content : List UInt8
  id : UInt8
  nr : UInt8
  count : UInt8
deriving DecidableEq, Repr

/-- The answers of the modem and of the decoder, and the outcomes of both allocations. -/
structure Reading where
  pdu : Pdu
  msgLen : Int
  ok : Bool
  memory : Bool
  joinMemory : Bool
deriving DecidableEq, Repr

structure Sms where
  telNum : List UInt8
  data : List UInt8
  len : Int
deriving DecidableEq, Repr

def partOf (pdu : Pdu) : Part := ⟨pdu.content,pdu.id,pdu.nr,pdu.count,pdu.telNum⟩

def modemSmsRead (r : Reading) (s : Msms) : Option Sms × Msms :=
  if r.ok = false ∨ r.msgLen < 0 then (none,s)
  else if r.pdu.count = 0 then (if 0 < r.msgLen then some ⟨r.pdu.telNum,r.pdu.content,r.msgLen⟩ else none,s)
  else
    match msIncomming (partOf r.pdu) r.memory s with
    | (.done,s) => ((msGet r.pdu.id r.joinMemory s).map fun (len,text) => ⟨r.pdu.telNum,text,len⟩,msDelete r.pdu.id s)
    | (_,s) => (none,s)

/-- The text is put together from what its sender has sent. -/
def FromSender (received : List Pdu) (sms : Sms) : Prop :=
  ∃ parts : List Pdu, (∀ pdu ∈ parts, pdu ∈ received ∧ pdu.telNum = sms.telNum) ∧ sms.data = parts.flatMap Pdu.content

/-- All that is kept with the reference id of a part is from its sender. -/
def OneSender (s : Msms) (r : Reading) : Prop := r.pdu.count ≠ 0 → ∀ slot ∈ held r.pdu.id s, slot.sender = r.pdu.telNum

instance (s : Msms) (r : Reading) : Decidable (OneSender s r) := inferInstanceAs (Decidable (_ → _))

structure Received (received : List Pdu) (s : Msms) : Prop extends Valid s where
  origin : ∀ slot ∈ s, ∀ text, slot.buffer = some text → ∃ pdu ∈ received, pdu.telNum = slot.sender ∧ pdu.content = text

variable {received : List Pdu} {s : Msms} {r : Reading}

theorem msIncomming_mem (part : Part) (memory : Bool) {slot : Slot} (member : slot ∈ (msIncomming part memory s).2)
    (some : slot.buffer.isSome) : slot = slotOf part ∨ slot ∈ s := by
  have searched {slot : Slot} (member : slot ∈ (msGetFreeBuf part.id s).2) (some : slot.buffer.isSome) : slot ∈ s := by
    rcases msGetFreeBuf_cases part.id s with ⟨_,_,same⟩ | ⟨_,s',same,rfl⟩
    · rwa [same] at member
    · rw [same] at member
      obtain ⟨old,present,rfl⟩ := List.mem_map.mp member
      split_ifs at some ⊢
      · cases some
      · exact present
  have changed {l : Msms} {i : Nat} {f : Slot → Slot} (member : slot ∈ l.modify i f) : slot ∈ l ∨ ∃ old, slot = f old := by
    obtain ⟨j,found⟩ := List.mem_iff_getElem?.mp member
    rw [List.getElem?_modify] at found
    obtain ⟨old,present,rfl⟩ := Option.map_eq_some_iff.mp found
    split_ifs
    · exact Or.inr ⟨old,rfl⟩
    · exact Or.inl (List.mem_of_getElem? present)
  rcases msIncomming_cases part memory s with same | ⟨i,_,same | ⟨s',rfl,_,same⟩⟩
  · rw [same] at member
    exact Or.inr (searched member some)
  · rw [same] at member
    rcases changed member with old | ⟨old,rfl⟩
    · exact Or.inr (searched old some)
    · cases some
  · rw [same] at member
    rcases changed member with old | ⟨old,rfl⟩
    · exact Or.inr (searched old some)
    · exact Or.inl rfl

theorem modemSmsRead_cases (r : Reading) (s : Msms) :
    modemSmsRead r s = (none,s) ∨
      (r.pdu.count = 0 ∧ modemSmsRead r s = (some ⟨r.pdu.telNum,r.pdu.content,r.msgLen⟩,s)) ∨
      r.pdu.count ≠ 0 ∧ ∃ s', s' = (msIncomming (partOf r.pdu) r.memory s).2 ∧
        (modemSmsRead r s = (none,s') ∨
          modemSmsRead r s = ((msGet r.pdu.id r.joinMemory s').map fun (len,text) => ⟨r.pdu.telNum,text,len⟩,msDelete r.pdu.id s')) := by
  rw [modemSmsRead]
  split_ifs with failed single long
  · exact Or.inl rfl
  · exact Or.inr (Or.inl ⟨single,rfl⟩)
  · exact Or.inl rfl
  · refine Or.inr (Or.inr ⟨single,_,rfl,?_⟩)
    obtain ⟨status,s'⟩ := msIncomming (partOf r.pdu) r.memory s
    cases status
    · exact Or.inl rfl
    · exact Or.inl rfl
    · exact Or.inr rfl

theorem msGet_mem {id : UInt8} {memory : Bool} {len : Nat} {text : List UInt8} (got : msGet id memory s = some (len,text)) :
    ∃ parts : List Slot, (∀ slot ∈ parts, slot ∈ held id s) ∧ text = parts.flatMap fun slot => (slot.buffer.getD []).take slot.len := by
  rw [msGet] at got
  split_ifs at got
  split at got
  · cases got
  · rename_i parts found
    obtain ⟨_,rfl⟩ := Prod.mk.inj (Option.some.inj got)
    refine ⟨parts,fun slot member => ?_,rfl⟩
    obtain ⟨order,_,here⟩ := mem_of_mapM_some found member
    rw [msFindInBuf_eq] at here
    exact List.mem_of_find?_eq_some here

theorem Received.incomming (kept : Received received s) (r : Reading) :
    Received (received ++ [r.pdu]) (msIncomming (partOf r.pdu) r.memory s).2 where
  toValid := kept.toValid.step (.incomming (partOf r.pdu) r.memory)
  origin := by
    intro slot member text some
    rcases msIncomming_mem (partOf r.pdu) r.memory member (by rw [some]; rfl) with rfl | old
    · exact ⟨r.pdu,List.mem_append_right _ List.mem_cons_self,rfl,Option.some.inj some⟩
    · obtain ⟨pdu,present,same⟩ := kept.origin slot old text some
      exact ⟨pdu,List.mem_append_left _ present,same⟩

theorem Received.delete (kept : Received received s) (id : UInt8) : Received received (msDelete id s) where
  toValid := kept.toValid.step (.delete id)
  origin := by
    intro slot member text some
    obtain ⟨old,present,rfl⟩ := List.mem_map.mp member
    split_ifs at some ⊢
    · cases some
    · exact kept.origin old present text some

theorem Received.step (kept : Received received s) (r : Reading) :
    Received (received ++ [r.pdu]) (modemSmsRead r s).2 := by
  have more : Received (received ++ [r.pdu]) s := ⟨kept.toValid,fun slot member text some => by
    obtain ⟨pdu,present,same⟩ := kept.origin slot member text some
    exact ⟨pdu,List.mem_append_left _ present,same⟩⟩
  rcases modemSmsRead_cases r s with same | ⟨_,same⟩ | ⟨_,s',rfl,same | same⟩
  · rw [same]
    exact more
  · rw [same]
    exact more
  · rw [same]
    exact kept.incomming r
  · rw [same]
    exact (kept.incomming r).delete r.pdu.id

theorem Received.fromSender (kept : Received received s) (one : OneSender s r) {sms : Sms} (read : (modemSmsRead r s).1 = some sms) :
    FromSender (received ++ [r.pdu]) sms := by
  have last : r.pdu ∈ received ++ [r.pdu] := List.mem_append_right _ List.mem_cons_self
  rcases modemSmsRead_cases r s with same | ⟨_,same⟩ | ⟨long,s',arrived,same | same⟩
  · rw [same] at read
    cases read
  · rw [same] at read
    obtain rfl := Option.some.inj read
    refine ⟨[r.pdu],fun pdu member => ?_,(List.flatMap_singleton _ _).symm⟩
    obtain rfl := List.mem_singleton.mp member
    exact ⟨last,rfl⟩
  · rw [same] at read
    cases read
  · rw [same] at read
    obtain ⟨⟨len,text⟩,got,rfl⟩ := Option.map_eq_some_iff.mp read
    obtain ⟨parts,holds,rfl⟩ := msGet_mem got
    have source : ∀ slot ∈ parts, ∃ pdu, (pdu ∈ received ++ [r.pdu] ∧ pdu.telNum = r.pdu.telNum) ∧
        pdu.content = (slot.buffer.getD []).take slot.len := by
      intro slot member
      obtain ⟨present,mine⟩ := List.mem_filter.mp (holds slot member)
      obtain ⟨mine,some⟩ := of_decide_eq_true mine
      have all := kept.incomming r
      rw [← arrived] at all
      have filled := all.filled slot present
      obtain ⟨text,buffer⟩ := Option.isSome_iff_exists.mp some
      obtain ⟨pdu,inside,sender,content⟩ := all.origin slot present text buffer
      have ours : slot.sender = r.pdu.telNum := by
        rw [arrived] at present
        rcases msIncomming_mem (partOf r.pdu) r.memory present some with rfl | old
        · rfl
        · exact one long slot (List.mem_filter.mpr ⟨old,decide_eq_true ⟨mine,some⟩⟩)
      refine ⟨pdu,⟨inside,sender.trans ours⟩,?_⟩
      rw [buffer,Option.getD_some] at filled ⊢
      rw [filled,List.take_length,content]
    exact exists_flatMap source

theorem run_received {readings : List Reading} (kept : Received received s) :
    Received (received ++ readings.map Reading.pdu) (Run.run (fun s r => (modemSmsRead r s).2) s readings) := by
  induction readings generalizing received s with
  | nil => rwa [List.map_nil,List.append_nil]
  | cons r readings ih =>
    have next := ih (kept.step r)
    rwa [List.append_assoc] at next

/-- After every run what is read is from one sender, if none of the parts that are kept with its id is from another one. -/
theorem read_from_sender (readings : List Reading) (r : Reading)
    (one : OneSender (Run.run (fun s r => (modemSmsRead r s).2) initial readings) r) (sms : Sms)
    (read : (modemSmsRead r (Run.run (fun s r => (modemSmsRead r s).2) initial readings)).1 = some sms) :
    FromSender ((readings ++ [r]).map Reading.pdu) sms := by
  have start : Received [] initial := ⟨valid_initial,fun slot member text some => by
    rw [List.eq_of_mem_replicate member] at some
    cases some⟩
  have kept := @run_received [] initial readings start
  rw [List.nil_append] at kept
  rw [List.map_append]
  exact kept.fromSender one read

def readingOf (telNum content : List UInt8) (nr : UInt8) : Reading := ⟨⟨telNum,content,7,nr,2⟩,content.length,true,true,true⟩

theorem read_from_sender_two :
    FromSender [⟨[0x41],[0x61],7,1,2⟩,⟨[0x41],[0x62],7,2,2⟩] ⟨[0x41],[0x61,0x62],2⟩ :=
  read_from_sender [readingOf [0x41] [0x61] 1] (readingOf [0x41] [0x62] 2) (by decide) ⟨[0x41],[0x61,0x62],2⟩ (by decide +kernel)

/-- Two senders with the same reference id: the first part of one and the second part of the other. -/
theorem senders_mixed :
    (modemSmsRead (readingOf [0x42] [0x62] 2) (modemSmsRead (readingOf [0x41] [0x61] 1) initial).2).1 = some ⟨[0x42],[0x61,0x62],2⟩ ∧
      ¬ FromSender [⟨[0x41],[0x61],7,1,2⟩,⟨[0x42],[0x62],7,2,2⟩] ⟨[0x42],[0x61,0x62],2⟩ := by
  refine ⟨by decide +kernel,?_⟩
  rintro ⟨parts,each,text⟩
  cases parts with
  | nil => cases text
  | cons pdu parts =>
    obtain ⟨present,sender⟩ := each pdu List.mem_cons_self
    simp only [List.mem_cons,List.not_mem_nil,or_false] at present
    rcases present with rfl | rfl
    · exact absurd sender (by decide)
    · exact absurd (List.cons.inj text).1 (by decide)

end Reading

end JcaFirmware.MultiSms
