import Mathlib.Data.List.Perm.Subperm
import JcaFirmware.EventBuf
import JcaFirmware.Foundation.Linked
import JcaFirmware.Foundation.Ring

/-! The chain of an event buffer. `Rep b l` is the representation invariant:
the used slots are those of `l`, linked in this order. Every operation is
described once, by what it does to `l` and to the records stored there. -/
namespace JcaFirmware.EventBuf
open Foundation.Linked

inductive Status | pending | processing | zombie
deriving DecidableEq, Repr

def Status.flag : Status → BitVec 4
  | .pending => flagUsed ||| flagActive
  | .processing => flagUsed ||| flagActive ||| flagProcessing
  | .zombie => flagUsed ||| flagActive ||| flagZombie

def statusOf (flag : BitVec 4) : Status :=
  if flag &&& flagZombie ≠ 0 then .zombie
  else if flag &&& flagProcessing ≠ 0 then .processing
  else .pending

/-- A stored event without its place in the array. -/
structure Record where
  event : Event
  prio : Nat
  user : Nat
  cnt : Nat
  status : Status
deriving DecidableEq, Repr

def Item.record (it : Item) : Record := ⟨it.event,it.prio,it.user,it.cnt,statusOf it.flag⟩

def record (b : Buf) (i : Nat) : Record := (b.items i).record

def nextOf (b : Buf) (i : Nat) : Nat := (b.items i).nextIndex

def prevOf (b : Buf) (i : Nat) : Nat := (b.items i).prevIndex

/-- The list of used slots, in the order of the links. -/
structure Chain (b : Buf) (l : List Nat) : Prop where
  distinct : l.Nodup
  used : ∀ i, i ∈ l ↔ i < b.size ∧ (b.items i).flag ≠ 0
  start : b.startIndex = first b.startIndex l
  final : b.lastIndex = last indexNil l
  linked : Segment (nextOf b) (prevOf b) indexNil l indexNil

structure Rep (b : Buf) (l : List Nat) : Prop extends Chain b l where
  size_pos : 0 < b.size
  size_le : b.size ≤ 255
  start_lt : b.startIndex < b.size
  idle : l = [] → nextOf b b.startIndex = indexNil
  status : ∀ i ∈ l, ∃ status : Status, (b.items i).flag = status.flag

theorem statusOf_flag (status : Status) : statusOf status.flag = status := by
  cases status <;> decide

theorem status_flag_ne_zero (status : Status) : status.flag ≠ 0 := by
  cases status <;> decide

section Access

variable {b : Buf} {i : Nat}

theorem ok_bind {α β : Type} (a : α) (f : α → Except Fault β) : (Except.ok a >>= f) = f a := rfl

theorem osAssert_true {condition : Prop} [Decidable condition] (holds : condition) (message : String) :
    osAssert condition message = .ok () := if_pos holds

theorem item_of_lt (inside : i < b.size) : b.item i = .ok (b.items i) := if_pos inside

theorem put_of_lt (inside : i < b.size) (it : Item) :
    b.put i it = .ok (b.set i it) := if_pos inside

theorem set_set (b : Buf) (i : Nat) (x y : Item) : (b.set i x).set i y = b.set i y := by
  simp [Buf.set]

theorem set_items_self (b : Buf) (i : Nat) (it : Item) : (b.set i it).items i = it := by
  simp [Buf.set]

theorem set_items_of_ne {j : Nat} (b : Buf) (it : Item) (other : j ≠ i) :
    (b.set i it).items j = b.items j := by
  simp [Buf.set,other]

end Access

section Membership

variable {b : Buf} {l : List Nat} {i : Nat}

theorem Chain.lt (chain : Chain b l) (member : i ∈ l) : i < b.size := ((chain.used i).mp member).1

theorem Rep.ne_nil (rep : Rep b l) (member : i ∈ l) : i ≠ indexNil := by
  have inside := rep.lt member
  have size := rep.size_le
  unfold indexNil
  omega

theorem Rep.last_nil (rep : Rep b l) : b.lastIndex = indexNil ↔ l = [] := by
  rw [rep.final]
  constructor
  · intro none
    by_contra filled
    exact rep.ne_nil (last_mem indexNil l filled) none
  · rintro rfl
    rfl

theorem Rep.split {a c : List Nat} (rep : Rep b (a ++ i :: c)) :
    i < b.size ∧ (b.items i).flag ≠ 0 ∧ nextOf b i = first indexNil c ∧ prevOf b i = last indexNil a := by
  obtain ⟨inside,flag⟩ := (rep.used i).mp (by simp)
  obtain ⟨_,back,ahead,_⟩ := (segment_append _ _ _ _ _ _).mp rep.linked
  exact ⟨inside,flag,ahead,back⟩

end Membership

theorem Rep.set {b : Buf} {l : List Nat} (rep : Rep b l) {i : Nat} (it : Item)
    (sameNext : it.nextIndex = nextOf b i) (samePrev : it.prevIndex = prevOf b i)
    (status : ∃ status : Status, it.flag = status.flag) (member : i ∈ l) : Rep (b.set i it) l := by
  have items (j : Nat) : (b.set i it).items j = if j = i then it else b.items j := by
    simp [Buf.set,Function.update_apply]
  have nextSame : nextOf (b.set i it) = nextOf b := by
    funext j
    by_cases here : j = i
    · simp [nextOf,items,here,sameNext]
    · simp [nextOf,items,here]
  have prevSame : prevOf (b.set i it) = prevOf b := by
    funext j
    by_cases here : j = i
    · simp [prevOf,items,here,samePrev]
    · simp [prevOf,items,here]
  obtain ⟨state,flag⟩ := status
  refine ⟨⟨rep.distinct,?_,rep.start,rep.final,?_⟩,rep.size_pos,rep.size_le,rep.start_lt,?_,?_⟩
  · intro j
    change j ∈ l ↔ j < b.size ∧ _
    by_cases here : j = i
    · subst here
      simpa [items,member,rep.lt member,flag] using status_flag_ne_zero state
    · simpa [items,here] using rep.used j
  · rw [nextSame,prevSame]
    exact rep.linked
  · intro empty
    exact absurd member (by simp [empty])
  · intro j inside
    by_cases here : j = i
    · exact ⟨state,by simpa [items,here] using flag⟩
    · simpa [items,here] using rep.status j inside

section Delete

variable {b : Buf} {a c : List Nat} {i : Nat}

/-- The buffer without the slot `i` that stands between `a` and `c`. -/
def unlinked (b : Buf) (a : List Nat) (i : Nat) (c : List Nat) : Buf :=
  {b with
    startIndex := first b.startIndex (a ++ c)
    lastIndex := last indexNil (a ++ c)
    items := fun j =>
      if j = i then {b.items i with flag := 0}
      else {b.items j with
        nextIndex := if a ≠ [] ∧ j = last indexNil a then first indexNil c else nextOf b j
        prevIndex := if c ≠ [] ∧ j = first indexNil c then last indexNil a else prevOf b j}}

theorem Rep.apart (rep : Rep b (a ++ i :: c)) : i ∉ a ∧ i ∉ c ∧ ∀ j ∈ a, j ∉ c := by
  obtain ⟨_,icDistinct,apart⟩ := List.nodup_append.mp rep.distinct
  refine ⟨?_,(List.nodup_cons.mp icDistinct).1,?_⟩
  · exact fun member => apart i member i (by simp) rfl
  · exact fun j inA inC => apart j inA j (by simp [inC]) rfl

theorem Rep.before (rep : Rep b (a ++ i :: c)) (filled : a ≠ []) :
    last indexNil a < b.size ∧ last indexNil a ≠ i := by
  have member := last_mem indexNil a filled
  exact ⟨rep.lt (List.mem_append_left _ member),fun same => rep.apart.1 (same ▸ member)⟩

theorem Rep.behind (rep : Rep b (a ++ i :: c)) (filled : c ≠ []) : b.lastIndex ≠ i := by
  have final := rep.final
  rw [last_append] at final
  have member := last_mem i c filled
  intro same
  exact rep.apart.2.1 (by rwa [← same,final])

theorem deleteItem_only (rep : Rep b [i]) : deleteItem b i = .ok (unlinked b [] i []) := by
  obtain ⟨inside,flag,_,_⟩ := Rep.split (a := []) rep
  have atStart : b.startIndex = i := rep.start
  have atEnd : b.lastIndex = i := rep.final
  simp only [deleteItem,osAssert,Buf.item,Buf.put,Buf.set,inside,flag,atStart,atEnd,if_true,if_false,ok_bind,
    ne_eq,not_true_eq_false]
  refine congrArg Except.ok ?_
  simp only [unlinked,Buf.mk.injEq,true_and]
  refine ⟨atStart.symm,rfl,?_⟩
  funext j
  by_cases here : j = i
  · subst here
    simp
  · simp [here,nextOf,prevOf]

theorem deleteItem_head {k : Nat} (rep : Rep b (i :: k :: c)) :
    deleteItem b i = .ok (unlinked b [] i (k :: c)) := by
  obtain ⟨inside,flag,ahead,_⟩ := Rep.split (a := []) rep
  have kIn : k < b.size := rep.lt (by simp)
  have kNe : k ≠ i := fun same => (Rep.apart (a := []) rep).2.1 (by simp [same])
  have atStart : b.startIndex = i := rep.start
  have atEnd : i ≠ b.lastIndex := (Rep.behind (a := []) rep (by simp)).symm
  have toK : (b.items i).nextIndex = k := ahead
  have fromK : (b.items k).prevIndex = i := (Rep.split (a := [i]) (i := k) rep).2.2.2
  simp only [deleteItem,osAssert,Buf.item,Buf.put,Buf.set,inside,kIn,flag,atStart,atEnd,toK,fromK,if_true,
    if_false,ok_bind,ne_eq,not_true_eq_false,not_false_eq_true,Function.update_of_ne kNe]
  refine congrArg Except.ok ?_
  simp only [unlinked,Buf.mk.injEq,true_and]
  refine ⟨rfl,rep.final,?_⟩
  funext j
  by_cases here : j = i
  · subst here
    simp [kNe.symm,toK]
  · by_cases head : j = k
    · subst head
      simp [here,nextOf,first,last]
    · simp [here,head,nextOf,prevOf,first]

theorem deleteItem_tail (rep : Rep b (a ++ [i])) (filled : a ≠ []) (notStart : i ≠ b.startIndex) :
    deleteItem b i = .ok (unlinked b a i []) := by
  obtain ⟨inside,flag,ahead,back⟩ := rep.split
  obtain ⟨pIn,pNe⟩ := rep.before filled
  have atEnd : b.lastIndex = i := by
    rw [rep.final,last_append]
    rfl
  have none : (b.items i).nextIndex = indexNil := ahead
  unfold prevOf at back
  simp only [deleteItem,osAssert,Buf.item,Buf.put,Buf.set,inside,pIn,flag,notStart,atEnd,none,back,if_true,
    if_false,ok_bind,ne_eq,not_false_eq_true,Function.update_of_ne pNe]
  refine congrArg Except.ok ?_
  simp only [unlinked,Buf.mk.injEq,true_and]
  refine ⟨?_,by simp,?_⟩
  · rw [rep.start]
    cases a with
    | nil => exact absurd rfl filled
    | cons x a => rfl
  · funext j
    by_cases here : j = i
    · subst here
      simp [pNe.symm,none,back]
    · by_cases tail : j = last indexNil a
      · subst tail
        simp [here,filled,prevOf,first]
      · simp [here,tail,nextOf,prevOf]

theorem deleteItem_inner {k : Nat} (rep : Rep b (a ++ i :: k :: c)) (filled : a ≠ [])
    (notStart : i ≠ b.startIndex) : deleteItem b i = .ok (unlinked b a i (k :: c)) := by
  obtain ⟨inside,flag,ahead,back⟩ := rep.split
  obtain ⟨pIn,pNe⟩ := rep.before filled
  have kIn : k < b.size := rep.lt (by simp)
  have kNe : k ≠ i := fun same => rep.apart.2.1 (by simp [same])
  have apartK : k ≠ last indexNil a :=
    fun same => rep.apart.2.2 k (same ▸ last_mem indexNil a filled) (by simp)
  have atEnd : b.lastIndex ≠ i := rep.behind (by simp)
  have toK : (b.items i).nextIndex = k := ahead
  unfold prevOf at back
  simp only [deleteItem,osAssert,Buf.item,Buf.put,Buf.set,inside,pIn,kIn,flag,notStart,atEnd,toK,back,if_true,
    if_false,ok_bind,ne_eq,not_false_eq_true,Function.update_of_ne pNe,Function.update_of_ne kNe,
    Function.update_of_ne apartK]
  refine congrArg Except.ok ?_
  simp only [unlinked,Buf.mk.injEq,true_and]
  refine ⟨?_,?_,?_⟩
  · rw [rep.start]
    cases a with
    | nil => exact absurd rfl filled
    | cons x a => rfl
  · rw [rep.final,last_append,last_append]
    rfl
  · funext j
    by_cases here : j = i
    · subst here
      simp [pNe.symm,kNe.symm,toK,back]
    · by_cases tail : j = last indexNil a
      · subst tail
        simp [here,filled,apartK.symm,prevOf,first]
      · by_cases head : j = k
        · subst head
          simp [here,tail,nextOf,first]
        · simp [here,tail,head,nextOf,prevOf,first]

theorem deleteItem_eq (rep : Rep b (a ++ i :: c)) : deleteItem b i = .ok (unlinked b a i c) := by
  cases a with
  | nil =>
    cases c with
    | nil => exact deleteItem_only rep
    | cons k c => exact deleteItem_head rep
  | cons x a =>
    have notStart : i ≠ b.startIndex := by
      have head : b.startIndex = x := rep.start
      exact fun same => rep.apart.1 (by simp [same,head])
    cases c with
    | nil => exact deleteItem_tail rep (by simp) notStart
    | cons k c => exact deleteItem_inner rep (by simp) notStart

theorem unlinked_rep (rep : Rep b (a ++ i :: c)) : Rep (unlinked b a i c) (a ++ c) := by
  obtain ⟨inside,flag,ahead,_⟩ := rep.split
  have absent : i ∉ a ++ c := (List.nodup_cons.mp (List.nodup_middle.mp rep.distinct)).1
  have other : ∀ j ∈ a ++ c, j ≠ i := fun j member same => absent (same ▸ member)
  have within : ∀ j ∈ a ++ c, j ∈ a ++ i :: c := by
    intro j member
    simp only [List.mem_append,List.mem_cons] at member ⊢
    tauto
  refine ⟨⟨?_,?_,?_,rfl,?_⟩,rep.size_pos,rep.size_le,?_,?_,?_⟩
  · exact (List.nodup_cons.mp (List.nodup_middle.mp rep.distinct)).2
  · intro j
    by_cases here : j = i
    · subst here
      simp [absent,unlinked]
    · have same := rep.used j
      simp only [List.mem_append,List.mem_cons,here,false_or] at same
      simpa [unlinked,here] using same
  · unfold unlinked
    cases a ++ c <;> rfl
  · refine segment_remove (nextOf b) (prevOf b) _ _ _ _ i a c rep.distinct rep.linked ?_ ?_
    · intro j member
      simp [nextOf,unlinked,other j member]
    · intro j member
      simp [prevOf,unlinked,other j member]
  · change first b.startIndex (a ++ c) < b.size
    by_cases empty : a ++ c = []
    · rw [empty]
      exact rep.start_lt
    · exact rep.lt (within _ (first_mem _ _ empty))
  · intro empty
    obtain ⟨rfl,rfl⟩ := List.append_eq_nil_iff.mp empty
    have atStart : b.startIndex = i := rep.start
    simpa [unlinked,nextOf,first,atStart] using ahead
  · intro j member
    simpa [unlinked,other j member] using rep.status j (within j member)

theorem unlinked_record {j : Nat} (other : j ≠ i) : record (unlinked b a i c) j = record b j := by
  simp [record,Item.record,unlinked,other]

theorem unlinked_next : nextOf (unlinked b a i c) i = nextOf b i := by
  simp [nextOf,unlinked]

end Delete

/-- What a loop body does with one record: the accumulator it leaves, the record
it keeps, if any, and whether it leaves the loop. -/
structure Verdict (σ : Type) where
  acc : σ
  keep : Option Record
  leave : Bool

/-- The loop over the stored records, without the array. -/
def walk {σ : Type} (visit : σ → Nat → Record → Verdict σ) :
    σ → List (Nat × Record) → σ × List Record × Bool
  | s, [] => (s,[],false)
  | s, (i,r) :: rest =>
    let v := visit s i r
    if v.leave then (v.acc,v.keep.toList ++ rest.map Prod.snd,true)
    else
      let later := walk visit v.acc rest
      (later.1,v.keep.toList ++ later.2.1,later.2.2)

def entries (b : Buf) (l : List Nat) : List (Nat × Record) := l.map fun i => (i,record b i)

/-- From `b` to `b'` the slot `i` between `a` and `c` was kept or deleted, and
no other record was touched. -/
structure Effect (b b' : Buf) (a : List Nat) (i : Nat) (c kept : List Nat) : Prop where
  rep : Rep b' (a ++ (kept ++ c))
  frame : ∀ j ∈ a ++ c, record b' j = record b j
  ahead : nextOf b' i = first indexNil c
  size : b'.size = b.size

/-- A body does on the array what `visit` does on the record. -/
def Follows {σ : Type} (body : Nat → Buf → σ → Except Fault (Buf × σ × Bool))
    (visit : σ → Nat → Record → Verdict σ) : Prop :=
  ∀ b a i c s, Rep b (a ++ i :: c) → ∃ b' kept,
    body i b s = .ok (b',(visit s i (record b i)).acc,(visit s i (record b i)).leave) ∧
    kept.map (record b') = (visit s i (record b i)).keep.toList ∧ Effect b b' a i c kept

def Skips {σ : Type} (body : Nat → Buf → σ → Except Fault (Buf × σ × Bool)) : Prop :=
  ∀ b i s, i < b.size → (b.items i).flag = 0 → body i b s = .ok (b,s,false)

section Step

variable {b : Buf} {a c : List Nat} {i : Nat}

theorem effect_same (rep : Rep b (a ++ i :: c)) : Effect b b a i c [i] :=
  ⟨rep,fun _ _ => rfl,rep.split.2.2.1,rfl⟩

theorem effect_set (rep : Rep b (a ++ i :: c)) (it : Item) (sameNext : it.nextIndex = nextOf b i)
    (samePrev : it.prevIndex = prevOf b i) (status : ∃ status : Status, it.flag = status.flag) :
    Effect b (b.set i it) a i c [i] := by
  have absent : i ∉ a ++ c := (List.nodup_cons.mp (List.nodup_middle.mp rep.distinct)).1
  refine ⟨rep.set it sameNext samePrev status (by simp),?_,?_,rfl⟩
  · intro j member
    have other : j ≠ i := fun same => absent (same ▸ member)
    rw [record,set_items_of_ne b it other,record]
  · rw [nextOf,set_items_self,sameNext,rep.split.2.2.1]

theorem effect_delete (rep : Rep b (a ++ i :: c)) : Effect b (unlinked b a i c) a i c [] := by
  have absent : i ∉ a ++ c := (List.nodup_cons.mp (List.nodup_middle.mp rep.distinct)).1
  refine ⟨unlinked_rep rep,?_,?_,rfl⟩
  · exact fun j member => unlinked_record fun same => absent (same ▸ member)
  · rw [unlinked_next,rep.split.2.2.1]

theorem Effect.trans {b' b'' : Buf} {kept : List Nat} (first : Effect b b' a i c [i])
    (second : Effect b' b'' a i c kept) : Effect b b'' a i c kept :=
  ⟨second.rep,fun j member => (second.frame j member).trans (first.frame j member),second.ahead,
    second.size.trans first.size⟩

end Step

section Traversal

variable {σ : Type} {body : Nat → Buf → σ → Except Fault (Buf × σ × Bool)}
  {visit : σ → Nat → Record → Verdict σ} {advance : Buf → Nat → Except Fault Unit}

/-- The outcome of a loop in terms of the records; `kept` are the slots left of `l`. -/
structure Outcome (visit : σ → Nat → Record → Verdict σ) (b : Buf) (s : σ) (l kept : List Nat)
    (w : Walked σ) : Prop where
  records : kept.map (record w.buf) = (walk visit s (entries b l)).2.1
  acc : w.acc = (walk visit s (entries b l)).1
  complete : w.complete = !(walk visit s (entries b l)).2.2
  inside : w.index < w.buf.size
  size : w.buf.size = b.size

theorem entries_congr {b b' : Buf} {l : List Nat} (same : ∀ j ∈ l, record b' j = record b j) :
    entries b' l = entries b l :=
  List.map_congr_left fun j member => by rw [same j member]

theorem entries_records (b : Buf) (l : List Nat) : (entries b l).map Prod.snd = l.map (record b) := by
  simp [entries,Function.comp_def]

/-- The loop invariant: in front of `index` stand the slots already passed and
kept, behind it the part of the chain the loop has not seen. -/
theorem traverse_rep (follows : Follows body visit)
    (advances : ∀ b i, i < b.size → advance b i = .ok ()) (c : List Nat) :
    ∀ rounds a i b s visited, Rep b (a ++ i :: c) → c.length < rounds →
      ∃ w kept, traverse body advance rounds i visited b s = .ok w ∧ Rep w.buf (a ++ kept) ∧
        (∀ j ∈ a, record w.buf j = record b j) ∧ Outcome visit b s (i :: c) kept w ∧
        (w.complete = true → w.visited = visited ++ i :: c) := by
  induction c with
  | nil =>
    intro rounds a i b s visited rep enough
    obtain ⟨rounds,rfl⟩ := Nat.exists_eq_succ_of_ne_zero (Nat.ne_of_gt enough)
    obtain ⟨b',kept,done,stored,effect⟩ := follows b a i [] s rep
    have inside : i < b'.size := effect.size ▸ rep.split.1
    have none : (b'.items i).nextIndex = indexNil := effect.ahead
    have final := effect.rep
    have frame := effect.frame
    rw [List.append_nil] at final frame
    cases leave : (visit s i (record b i)).leave with
    | true =>
      refine ⟨⟨b',(visit s i (record b i)).acc,i,visited ++ [i],false⟩,kept,?_,final,frame,?_,by simp⟩
      · simp only [traverse,done,ok_bind,leave,if_true]
      · exact ⟨by simp [entries,walk,leave,stored],by simp [entries,walk,leave],
          by simp [entries,walk,leave],inside,effect.size⟩
    | false =>
      refine ⟨⟨b',(visit s i (record b i)).acc,i,visited ++ [i],true⟩,kept,?_,final,frame,?_,by simp⟩
      · simp only [traverse,done,ok_bind,leave,item_of_lt inside,none,if_true,Bool.false_eq_true,if_false]
      · exact ⟨by simp [entries,walk,leave,stored],by simp [entries,walk,leave],
          by simp [entries,walk,leave],inside,effect.size⟩
  | cons k c ih =>
    intro rounds a i b s visited rep enough
    obtain ⟨rounds,rfl⟩ := Nat.exists_eq_succ_of_ne_zero (Nat.ne_of_gt (Nat.zero_lt_of_lt enough))
    obtain ⟨b',kept,done,stored,effect⟩ := follows b a i (k :: c) s rep
    have inside : i < b'.size := effect.size ▸ rep.split.1
    have toK : (b'.items i).nextIndex = k := effect.ahead
    have kIn : k < b'.size := effect.rep.lt (by simp)
    have kNe : k ≠ indexNil := effect.rep.ne_nil (by simp)
    have unseen : ∀ j ∈ k :: c, record b' j = record b j :=
      fun j member => effect.frame j (List.mem_append_right a member)
    cases leave : (visit s i (record b i)).leave with
    | true =>
      refine ⟨⟨b',(visit s i (record b i)).acc,i,visited ++ [i],false⟩,kept ++ k :: c,?_,effect.rep,
        fun j member => effect.frame j (by simp [member]),?_,by simp⟩
      · simp only [traverse,done,ok_bind,leave,if_true]
      · refine ⟨?_,by simp [entries,walk,leave],by simp [entries,walk,leave],inside,effect.size⟩
        rw [List.map_append,stored,List.map_congr_left unseen,← entries_records]
        simp [entries,walk,leave]
    | false =>
      have passed := effect.rep
      rw [← List.append_assoc] at passed
      obtain ⟨w,later,ran,final,frame,out,visits⟩ :=
        ih rounds (a ++ kept) k b' (visit s i (record b i)).acc (visited ++ [i]) passed
          (by simpa using enough)
      rw [List.append_assoc] at final
      have before : kept.map (record w.buf) = kept.map (record b') :=
        List.map_congr_left fun j member => frame j (by simp [member])
      have walked : walk visit s (entries b (i :: k :: c)) =
          ((walk visit (visit s i (record b i)).acc (entries b' (k :: c))).1,
            (visit s i (record b i)).keep.toList ++
              (walk visit (visit s i (record b i)).acc (entries b' (k :: c))).2.1,
            (walk visit (visit s i (record b i)).acc (entries b' (k :: c))).2.2) := by
        rw [entries_congr unseen]
        simp [entries,walk,leave]
      refine ⟨w,kept ++ later,?_,final,?_,⟨?_,?_,?_,out.inside,out.size.trans effect.size⟩,?_⟩
      · simp only [traverse,done,ok_bind,leave,item_of_lt inside,toK,kNe,advances b' k kIn,ran,
          Bool.false_eq_true,if_false]
      · intro j member
        rw [frame j (by simp [member]),effect.frame j (by simp [member])]
      · rw [List.map_append,before,stored,out.records,walked]
      · rw [walked,out.acc]
      · rw [walked,out.complete]
      · intro complete
        rw [visits complete,List.append_assoc]
        rfl

theorem Rep.length_le {b : Buf} {l : List Nat} (rep : Rep b l) : l.length ≤ b.size := by
  have subset : l ⊆ List.range b.size := fun i member => List.mem_range.mpr (rep.lt member)
  simpa using (rep.distinct.subperm subset).length_le

theorem walkBuf_filled {b : Buf} {l : List Nat} (rep : Rep b l) (filled : l ≠ [])
    (follows : Follows body visit) (advances : ∀ b i, i < b.size → advance b i = .ok ()) (s : σ) :
    ∃ w kept, walkBuf body advance b s = .ok w ∧ Rep w.buf kept ∧ Outcome visit b s l kept w ∧
      (w.complete = true → w.visited = l) := by
  cases l with
  | nil => exact absurd rfl filled
  | cons i c =>
    have start : b.startIndex = i := rep.start
    obtain ⟨w,kept,ran,final,_,out,visits⟩ :=
      traverse_rep follows advances c b.size [] i b s [] rep rep.length_le
    exact ⟨w,kept,by rw [walkBuf,start,ran],final,out,visits⟩

theorem walkBuf_empty {b : Buf} (rep : Rep b []) (skips : Skips body) (s : σ) :
    walkBuf body advance b s = .ok ⟨b,s,b.startIndex,[b.startIndex],true⟩ := by
  have unused : (b.items b.startIndex).flag = 0 := by
    by_contra flag
    exact absurd ((rep.used b.startIndex).mpr ⟨rep.start_lt,flag⟩) (by simp)
  have none : (b.items b.startIndex).nextIndex = indexNil := rep.idle rfl
  obtain ⟨rounds,size⟩ := Nat.exists_eq_succ_of_ne_zero (Nat.ne_of_gt rep.size_pos)
  simp only [walkBuf,size,traverse,skips b b.startIndex s rep.start_lt unused,ok_bind,
    item_of_lt rep.start_lt,none,if_true,Bool.false_eq_true,if_false,List.nil_append]

theorem walkBuf_rep {b : Buf} {l : List Nat} (rep : Rep b l) (follows : Follows body visit)
    (skips : Skips body) (advances : ∀ b i, i < b.size → advance b i = .ok ()) (s : σ) :
    ∃ w kept, walkBuf body advance b s = .ok w ∧ Rep w.buf kept ∧ Outcome visit b s l kept w ∧
      (w.complete = true → ∀ i ∈ l, w.visited.count i = 1) := by
  by_cases filled : l = []
  · subst filled
    exact ⟨_,[],walkBuf_empty rep skips s,rep,⟨rfl,rfl,rfl,rep.start_lt,rfl⟩,by simp⟩
  · obtain ⟨w,kept,ran,final,out,visits⟩ := walkBuf_filled rep filled follows advances s
    refine ⟨w,kept,ran,final,out,?_⟩
    intro complete i member
    rw [visits complete]
    exact List.count_eq_one_of_mem rep.distinct member

end Traversal

end JcaFirmware.EventBuf
