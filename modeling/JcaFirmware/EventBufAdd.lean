import JcaFirmware.EventBufOperation

/-! Initialising an event buffer and adding to it: the search for a free slot,
the eviction of a record, and the new record at the end of the chain. -/
namespace JcaFirmware.EventBuf
open Foundation Foundation.Linked

theorem init_rep (items : Nat → Item) (size : Nat) (pos : 0 < size) (le : size ≤ 255) :
    Rep (init items size) [] := by
  refine ⟨⟨List.nodup_nil,?_,rfl,rfl,trivial⟩,pos,le,pos,?_,?_⟩
  · intro i
    have cleared (inside : i < size) : ((init items size).items i).flag = 0 := by
      simp [init,inside]
    constructor
    · exact fun member => absurd member (by simp)
    · exact fun ⟨inside,flag⟩ => absurd (cleared inside) flag
  · intro _
    simp [nextOf,init,pos]
  · exact fun i member => absurd member (by simp)

theorem Rep.withTest {b : Buf} {l : List Nat} (rep : Rep b l) (test : Nat) :
    Rep {b with testIndex := test} l :=
  ⟨⟨rep.distinct,rep.used,rep.start,rep.final,rep.linked⟩,rep.size_pos,rep.size_le,rep.start_lt,rep.idle,
    rep.status⟩

def nextTest (b : Buf) : Nat :=
  if b.size ≤ (b.testIndex + 1) % 256 then 0 else (b.testIndex + 1) % 256

theorem nextTest_lt {b : Buf} (pos : 0 < b.size) : nextTest b < b.size := by
  unfold nextTest
  split <;> omega

theorem bufFindFree_step {b : Buf} (pos : 0 < b.size) (rounds : Nat) :
    bufFindFree (rounds + 1) b =
      if (b.items (nextTest b)).flag = 0 then .ok (nextTest b,{b with testIndex := nextTest b})
      else bufFindFree rounds {b with testIndex := nextTest b} := by
  have reads : Buf.item {b with testIndex := nextTest b} (nextTest b) = .ok (b.items (nextTest b)) :=
    item_of_lt (b := {b with testIndex := nextTest b}) (nextTest_lt pos)
  change (Buf.item {b with testIndex := nextTest b} (nextTest b) >>= _) = _
  rw [reads,ok_bind]
  rfl

/-- The search visits consecutive slots of the array, as a ring; it fails only
when all the slots it visited are used. -/
theorem bufFindFree_spec (rounds : Nat) : ∀ b, 0 < b.size → b.size ≤ 255 → rounds ≤ b.size →
    ∃ index test, bufFindFree rounds b = .ok (index,{b with testIndex := test}) ∧
      ((index < b.size ∧ (b.items index).flag = 0) ∨
        index = indexNil ∧ ∀ k < rounds, (b.items (Ring.slot b.size (nextTest b) k)).flag ≠ 0) := by
  induction rounds with
  | zero =>
    intro b pos le enough
    exact ⟨indexNil,b.testIndex,rfl,Or.inr ⟨rfl,fun k bound => absurd bound (Nat.not_lt_zero k)⟩⟩
  | succ rounds ih =>
    intro b pos le enough
    have inside := nextTest_lt pos
    have looked := bufFindFree_step pos rounds
    by_cases free : (b.items (nextTest b)).flag = 0
    · exact ⟨nextTest b,nextTest b,by rw [looked,if_pos free],Or.inl ⟨inside,free⟩⟩
    · obtain ⟨index,test,ran,found⟩ := ih {b with testIndex := nextTest b} pos le (Nat.le_of_succ_le enough)
      refine ⟨index,test,by rw [looked,if_neg free,ran],?_⟩
      rcases found with hit | ⟨none,used⟩
      · exact Or.inl hit
      · refine Or.inr ⟨none,?_⟩
        have ahead : nextTest {b with testIndex := nextTest b} = Ring.next b.size (nextTest b) := by
          change (if b.size ≤ (nextTest b + 1) % 256 then 0 else (nextTest b + 1) % 256) = _
          rw [Nat.mod_eq_of_lt (by omega)]
          unfold Ring.next
          split <;> split <;> omega
        intro k bound
        cases k with
        | zero => simpa [Ring.slot,inside] using free
        | succ k =>
          have later := used k (by omega)
          rw [ahead] at later
          rwa [← Ring.slot_next (by omega)]

theorem bufFindFree_full {b : Buf} (pos : 0 < b.size) (le : b.size ≤ 255) :
    ∃ index test, bufFindFree b.size b = .ok (index,{b with testIndex := test}) ∧
      ((index < b.size ∧ (b.items index).flag = 0) ∨
        index = indexNil ∧ ∀ i < b.size, (b.items i).flag ≠ 0) := by
  obtain ⟨index,test,ran,found⟩ := bufFindFree_spec b.size b pos le (Nat.le_refl _)
  refine ⟨index,test,ran,found.imp_right ?_⟩
  rintro ⟨none,used⟩
  refine ⟨none,fun i inside => ?_⟩
  have start := nextTest_lt pos
  have hit := used (Ring.gap b.size (nextTest b) i) (Ring.gap_lt start inside)
  rwa [Ring.slot_gap inside start] at hit

theorem lowestPrio_walk (s : Search) (es : List (Nat × Record)) :
    (walk lowestPrioVisit s es).1.found = s.found := by
  induction es generalizing s with
  | nil => rfl
  | cons e es ih => exact ih _

theorem oldestPrio_walk (s : Search) (es : List (Nat × Record)) (i : Nat) (none : s.found = none)
    (found : (walk oldestPrioVisit s es).1.found = some i) : i ∈ es.map Prod.fst := by
  induction es generalizing s with
  | nil => simp [walk,none] at found
  | cons e es ih =>
    by_cases low : e.2.prio = s.lowestPrio
    · simp only [walk,oldestPrioVisit,low,if_true] at found
      simp [Option.some.inj found]
    · simp only [walk,oldestPrioVisit,low,if_false,Bool.false_eq_true] at found
      exact List.mem_cons_of_mem _ (ih s none found)

theorem bufReplacePrio_eq {b : Buf} {l : List Nat} (rep : Rep b l) (filled : l ≠ []) (prio : Nat) :
    ∃ s : Search, s = (walk lowestPrioVisit ⟨prioHi,none⟩ (entries b l)).1 ∧ s.found = none ∧
      bufReplacePrio b prio =
        if prio < s.lowestPrio then .ok indexNil
        else if s.lowestPrio = prio then .ok b.startIndex
        else .ok ((walk oldestPrioVisit s (entries b l)).1.found.getD indexNil) := by
  obtain ⟨lowest,_,ranLowest,_,outLowest,_⟩ :=
    walkBuf_filled rep filled lowestPrio_follows unchecked_passes ⟨prioHi,none⟩
  have notFound : lowest.acc.found = none := by
    rw [outLowest.acc,lowestPrio_walk]
  obtain ⟨oldest,_,ranOldest,_,outOldest,_⟩ :=
    walkBuf_filled rep filled oldestPrio_follows unchecked_passes lowest.acc
  refine ⟨lowest.acc,outLowest.acc,notFound,?_⟩
  unfold bufReplacePrio
  rw [ranLowest,ok_bind,notFound]
  dsimp only
  rw [ranOldest,ok_bind,outOldest.acc]

theorem bufReplacePrio_spec {b : Buf} {l : List Nat} (rep : Rep b l) (filled : l ≠ []) (prio : Nat) :
    ∃ index, bufReplacePrio b prio = .ok index ∧ (index = indexNil ∨ index ∈ l) := by
  obtain ⟨s,_,notFound,ran⟩ := bufReplacePrio_eq rep filled prio
  rw [ran]
  split_ifs
  · exact ⟨_,rfl,Or.inl rfl⟩
  · refine ⟨_,rfl,Or.inr ?_⟩
    rw [rep.start]
    exact first_mem _ _ filled
  · refine ⟨_,rfl,?_⟩
    cases found : (walk oldestPrioVisit s (entries b l)).1.found with
    | none => exact Or.inl rfl
    | some i =>
      right
      have member := oldestPrio_walk _ _ i notFound found
      simpa [entries,Function.comp_def] using member

def Full (b : Buf) : Prop := ∀ i < b.size, (b.items i).flag ≠ 0

/-- What the choice of a slot leaves behind: no slot and an unchanged chain, a
free slot and an unchanged chain, or the slot of the one record it evicted. -/
inductive Chosen (b : Buf) (l : List Nat) (index : Nat) : List Nat → Prop
  | refused (none : index = indexNil) : Chosen b l index l
  | free (unused : (b.items index).flag = 0) : Chosen b l index l
  | evicted (a c : List Nat) (full : Full b) (at_ : l = a ++ index :: c) : Chosen b l index (a ++ c)

/-- The choice of a slot once the search has found none free. -/
theorem writeIndex_replaced {b searched : Buf} {prio replaced : Nat} (used : b.lastIndex ≠ indexNil)
    (none : bufFindFree b.size b = .ok (indexNil,searched))
    (found : bufReplacePrio searched prio = .ok replaced) :
    writeIndex b prio = if replaced ≠ indexNil then
        deleteItem searched replaced >>= fun b => .ok (replaced,b)
      else .ok (indexNil,searched) := by
  rw [writeIndex,if_neg used,none,ok_bind]
  simp only [ne_eq,not_true_eq_false,if_false,found,ok_bind]

theorem writeIndex_spec {b : Buf} {l : List Nat} (rep : Rep b l) (prio : Nat) :
    ∃ index b' l', writeIndex b prio = .ok (index,b') ∧ Rep b' l' ∧ Chosen b l index l' ∧
      b'.size = b.size ∧ (∀ j ∈ l', record b' j = record b j) ∧
      (index ≠ indexNil → index < b.size ∧ index ∉ l' ∧ (l' = [] → b'.startIndex = index)) := by
  by_cases none : b.lastIndex = indexNil
  · have empty := rep.last_nil.mp none
    subst empty
    have startNe : b.startIndex ≠ indexNil := by
      have inside := rep.start_lt
      have size := rep.size_le
      unfold indexNil
      omega
    have unused : (b.items b.startIndex).flag = 0 := by
      by_contra flag
      exact absurd ((rep.used b.startIndex).mpr ⟨rep.start_lt,flag⟩) (by simp)
    refine ⟨b.startIndex,b,[],?_,rep,.free unused,rfl,fun _ _ => rfl,fun _ => ⟨rep.start_lt,by simp,fun _ => rfl⟩⟩
    rw [writeIndex,if_pos none,osAssert_true startNe,ok_bind]
  · have filled : l ≠ [] := fun empty => none (rep.last_nil.mpr empty)
    obtain ⟨index,test,searched,found⟩ := bufFindFree_full rep.size_pos rep.size_le
    have rep' := rep.withTest test
    rcases found with ⟨inside,unused⟩ | ⟨missing,full⟩
    · have ne : index ≠ indexNil := by
        have size := rep.size_le
        unfold indexNil
        omega
      refine ⟨index,{b with testIndex := test},l,?_,rep',.free unused,rfl,fun _ _ => rfl,fun _ => ⟨inside,?_,?_⟩⟩
      · rw [writeIndex,if_neg none,searched,ok_bind]
        exact if_pos ne
      · exact fun member => ((rep.used index).mp member).2 unused
      · exact fun empty => absurd empty filled
    · obtain ⟨replaced,ran,which⟩ := bufReplacePrio_spec rep' filled prio
      have run := writeIndex_replaced none (missing ▸ searched) ran
      by_cases keep : replaced = indexNil
      · refine ⟨indexNil,{b with testIndex := test},l,?_,rep',.refused rfl,rfl,fun _ _ => rfl,
          fun absurd_ => absurd rfl absurd_⟩
        rw [run,if_neg (not_not_intro keep)]
      · obtain ⟨a,c,split⟩ := List.append_of_mem (which.resolve_left keep)
        subst split
        have absent : replaced ∉ a ++ c := (List.nodup_cons.mp (List.nodup_middle.mp rep.distinct)).1
        refine ⟨replaced,unlinked {b with testIndex := test} a replaced c,a ++ c,?_,unlinked_rep rep',
          .evicted a c full rfl,rfl,?_,fun _ => ⟨rep.lt (by simp),absent,?_⟩⟩
        · rw [run,if_pos keep,deleteItem_eq rep',ok_bind]
        · exact fun j member => unlinked_record fun same => absent (same ▸ member)
        · intro empty
          obtain ⟨rfl,rfl⟩ := List.append_eq_nil_iff.mp empty
          exact rep.start

/-- The buffer with `it` in the free slot `index`, at the end of the chain. -/
def appended (b : Buf) (index : Nat) (it : Item) : Buf :=
  {b with
    lastIndex := index
    items := fun j =>
      if j = index then {it with nextIndex := indexNil, prevIndex := b.lastIndex}
      else {b.items j with
        nextIndex := if b.lastIndex ≠ indexNil ∧ j = b.lastIndex then index else nextOf b j}}

theorem storeLast_eq {b : Buf} {l : List Nat} (rep : Rep b l) {index : Nat} (it : Item)
    (inside : index < b.size) (absent : index ∉ l) : storeLast b index it = .ok (appended b index it) := by
  have size := rep.size_le
  have indexNe : indexNil ≠ index := by
    unfold indexNil
    omega
  by_cases empty : b.lastIndex = indexNil
  · simp only [storeLast,Buf.put,Buf.item,Buf.set,osAssert,inside,if_true,if_false,ok_bind,empty,ne_eq,
      not_true_eq_false,indexNe,not_false_eq_true,Function.update_self,Function.update_idem]
    refine congrArg Except.ok ?_
    simp only [appended,Buf.mk.injEq,true_and]
    funext j
    by_cases here : j = index
    · subst here
      simp [empty]
    · simp [here,empty,nextOf]
  · have filled : l ≠ [] := fun none => empty (rep.last_nil.mpr none)
    have lastIn : b.lastIndex < b.size := rep.final ▸ rep.lt (last_mem _ _ filled)
    have lastNe : b.lastIndex ≠ index := by
      rintro rfl
      exact absent (rep.final ▸ last_mem _ _ filled)
    simp only [storeLast,Buf.put,Buf.item,Buf.set,osAssert,inside,lastIn,if_true,ok_bind,empty,ne_eq,
      lastNe,lastNe.symm,indexNe,not_false_eq_true,Function.update_self,Function.update_of_ne]
    refine congrArg Except.ok ?_
    simp only [appended,Buf.mk.injEq,true_and]
    funext j
    by_cases here : j = index
    · subst here
      simp
    · by_cases tail : j = b.lastIndex
      · subst tail
        simp [here,empty]
      · simp [here,tail,nextOf]

theorem appended_rep {b : Buf} {l : List Nat} (rep : Rep b l) {index : Nat} (it : Item)
    (inside : index < b.size) (absent : index ∉ l) (start : l = [] → b.startIndex = index)
    (status : ∃ status : Status, it.flag = status.flag) : Rep (appended b index it) (l ++ [index]) := by
  have other : ∀ j ∈ l, j ≠ index := fun j member same => absent (same ▸ member)
  obtain ⟨state,flag⟩ := status
  refine ⟨⟨?_,?_,?_,?_,?_⟩,rep.size_pos,rep.size_le,rep.start_lt,?_,?_⟩
  · exact rep.distinct.append (List.nodup_singleton index) (by simpa using absent)
  · intro j
    by_cases here : j = index
    · subst here
      simpa [appended,inside,flag] using status_flag_ne_zero state
    · simpa [appended,here] using rep.used j
  · rw [first_append]
    by_cases empty : l = []
    · subst empty
      exact start rfl
    · change b.startIndex = _
      have old := rep.start
      cases l with
      | nil => exact absurd rfl empty
      | cons i l => exact old
  · rw [last_append]
    rfl
  · refine segment_concat (nextOf b) (prevOf b) _ _ _ _ index l rep.distinct rep.linked ?_ ?_ ?_ ?_
    · intro j member
      have lastNe : b.lastIndex ≠ indexNil := fun none => List.ne_nil_of_mem member (rep.last_nil.mp none)
      rw [rep.final] at lastNe
      simp [nextOf,appended,other j member,lastNe,rep.final]
    · intro j member
      simp [prevOf,appended,other j member]
    · simp [nextOf,appended]
    · simp [prevOf,appended,rep.final]
  · intro empty
    simp at empty
  · intro j member
    by_cases here : j = index
    · subst here
      exact ⟨state,by simpa [appended] using flag⟩
    · have old : j ∈ l := by simpa [here] using member
      simpa [appended,here] using rep.status j old

theorem appended_record {b : Buf} {index j : Nat} (it : Item) (other : j ≠ index) :
    record (appended b index it) j = record b j := by
  simp [record,Item.record,appended,other]

def newRecord (event : Event) (prio user : Nat) : Record := ⟨event,prio % 16,user,0,.pending⟩

/-- The second half of an add: the record goes to the slot that was chosen. -/
theorem addEvent_stored {b b' : Buf} {l : List Nat} {prio user index : Nat} (e : Event) (somebody : user ≠ userNone)
    (chose : writeIndex b prio = .ok (index,b')) (found : index ≠ indexNil) (rep : Rep b' l)
    (inside : index < b'.size) (absent : index ∉ l) (start : l = [] → b'.startIndex = index) :
    ∃ b'', addEvent b (some e) prio user = .ok (true,b'') ∧ Rep b'' (l ++ [index]) ∧ b''.size = b'.size ∧
      (l ++ [index]).map (record b'') = l.map (record b') ++ [newRecord e prio user] := by
  let it : Item := ⟨e,indexNil,0,prio % 16,flagUsed ||| flagActive,user,0⟩
  refine ⟨appended b' index it,?_,appended_rep rep it inside absent start ⟨.pending,rfl⟩,rfl,?_⟩
  · rw [addEvent,if_neg somebody,chose,ok_bind]
    change (if index = indexNil then _ else _) = _
    rw [if_neg found,storeLast_eq rep it inside absent,ok_bind]
  · rw [List.map_append]
    congr 1
    · exact List.map_congr_left fun j member => appended_record it fun same => absent (same ▸ member)
    · simp [record,Item.record,appended,newRecord,it]
      decide

/-- An add fails without touching a record, or appends the new record, evicting
one record of a full buffer if it has to. -/
theorem addEvent_rep {b : Buf} {l : List Nat} (rep : Rep b l) (event : Option Event) (prio user : Nat) :
    ∃ result b' l', addEvent b event prio user = .ok (result,b') ∧ Rep b' l' ∧ b'.size = b.size ∧
      ((result = false ∧ l'.map (record b') = l.map (record b)) ∨
        result = true ∧ user ≠ userNone ∧ ∃ e, event = some e ∧
          (l'.map (record b') = l.map (record b) ++ [newRecord e prio user] ∨
            Full b ∧ ∃ a i c, l = a ++ i :: c ∧
              l'.map (record b') = (a ++ c).map (record b) ++ [newRecord e prio user])) := by
  cases event with
  | none => exact ⟨false,b,l,rfl,rep,rfl,Or.inl ⟨rfl,rfl⟩⟩
  | some e =>
    by_cases nobody : user = userNone
    · exact ⟨false,b,l,by rw [addEvent,if_pos nobody],rep,rfl,Or.inl ⟨rfl,rfl⟩⟩
    · obtain ⟨index,b',l',chose,rep',chosen,size,frame,placed⟩ := writeIndex_spec rep prio
      have kept : l'.map (record b') = l'.map (record b) := List.map_congr_left frame
      by_cases refused : index = indexNil
      · refine ⟨false,b',l',?_,rep',size,Or.inl ⟨rfl,?_⟩⟩
        · rw [addEvent,if_neg nobody,chose,ok_bind]
          exact if_pos refused
        · cases chosen with
          | refused _ => exact kept
          | free _ => exact kept
          | evicted a c _ split =>
            subst split
            exact absurd refused (rep.ne_nil (by simp))
      · obtain ⟨inside,absent,start⟩ := placed refused
        obtain ⟨b'',added,stored,size',records⟩ :=
          addEvent_stored e nobody chose refused rep' (size ▸ inside) absent start
        rw [kept] at records
        refine ⟨true,b'',_,added,stored,size'.trans size,Or.inr ⟨rfl,nobody,e,rfl,?_⟩⟩
        cases chosen with
        | refused none => exact absurd none refused
        | free _ => exact Or.inl records
        | evicted a c full split => exact Or.inr ⟨full,a,index,c,split,records⟩

end JcaFirmware.EventBuf
