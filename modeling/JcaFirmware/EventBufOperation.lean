import JcaFirmware.EventBufChain

/-! Each operation of the event buffer on a represented buffer: it succeeds, the
result is represented again, and the records change as the `Visit` says. -/
namespace JcaFirmware.EventBuf
open Foundation.Linked

theorem item_active (it : Item) (status : Status) (flag : it.flag = status.flag) : itemActive it = true := by
  rw [itemActive,flag]
  cases status <;> decide

theorem item_inCommunication (it : Item) (status : Status) (flag : it.flag = status.flag) :
    itemInCommunication it = decide (status ≠ .pending) := by
  rw [itemInCommunication,flag]
  cases status <;> decide

theorem record_of (it : Item) (status : Status) (flag : it.flag = status.flag) :
    it.record = ⟨it.event,it.prio,it.user,it.cnt,status⟩ := by
  rw [Item.record,flag,statusOf_flag]

def restoreVisit (retryLimit : Nat) (result : Bool) (_ : Nat) (r : Record) : Verdict Bool :=
  if r.status = .pending then ⟨result,some r,false⟩
  else if retryLimit = unlimited then ⟨result,some {r with status := .pending},false⟩
  else if retryLimit ≤ (r.cnt + 1) % 256 then ⟨false,none,false⟩
  else ⟨result,some {r with cnt := (r.cnt + 1) % 256, status := .pending},false⟩

def doneVisit (delivered : Bool) (s : Unit) (_ : Nat) (r : Record) : Verdict Unit :=
  if r.status = .processing then
    if delivered then ⟨s,none,false⟩ else ⟨s,some {r with status := .zombie},false⟩
  else ⟨s,some r,false⟩

def getVisit (q : Request) (_ : Nat) (r : Record) : Verdict Request :=
  if r.status = .pending then
    let q := q.fill r.event r.prio r.user
    if q.user = r.user then ⟨q,some {r with status := .processing},true⟩ else ⟨q,some r,false⟩
  else ⟨q,some r,false⟩

def forEachVisit (pfunc : List Event → Event → Bool) (calls : List Event) (_ : Nat) (r : Record) :
    Verdict (List Event) :=
  if pfunc calls r.event = false then ⟨calls ++ [r.event],none,false⟩
  else ⟨calls ++ [r.event],some r,false⟩

def emptyVisit (s : Bool) (_ : Nat) (r : Record) : Verdict Bool :=
  if r.status = .pending then ⟨false,some r,true⟩ else ⟨s,some r,false⟩

def infoVisit (s : Unit) (_ : Nat) (r : Record) : Verdict Unit := ⟨s,some r,false⟩

def lowestPrioVisit (s : Search) (_ : Nat) (r : Record) : Verdict Search :=
  ⟨{s with lowestPrio := if r.prio < s.lowestPrio then r.prio else s.lowestPrio},some r,false⟩

def oldestPrioVisit (s : Search) (i : Nat) (r : Record) : Verdict Search :=
  if r.prio = s.lowestPrio then ⟨{s with found := some i},some r,true⟩ else ⟨s,some r,false⟩

theorem record_set (b : Buf) (i : Nat) (it : Item) : record (b.set i it) i = it.record := by
  rw [record,set_items_self]

theorem flag_cleared (status : Status) :
    status.flag &&& ~~~(flagProcessing ||| flagZombie) = Status.pending.flag := by
  cases status <;> decide

/-- What a loop meets in a slot of the chain. -/
theorem Rep.visited {b : Buf} {a c : List Nat} {i : Nat} (rep : Rep b (a ++ i :: c)) :
    i < b.size ∧ ∃ status, (b.items i).flag = status.flag ∧
      record b i = ⟨(b.items i).event,(b.items i).prio,(b.items i).user,(b.items i).cnt,status⟩ := by
  obtain ⟨status,flag⟩ := rep.status i (by simp)
  exact ⟨rep.split.1,status,flag,record_of _ status flag⟩

theorem restore_follows (retryLimit : Nat) : Follows (restoreBody retryLimit) (restoreVisit retryLimit) := by
  intro b a i c s rep
  obtain ⟨inside,status,flag,known⟩ := rep.visited
  have comm := item_inCommunication _ status flag
  by_cases waits : status = .pending
  · refine ⟨b,[i],?_,?_,effect_same rep⟩
    · simp [restoreBody,item_of_lt inside,ok_bind,comm,restoreVisit,known,waits]
    · simp [restoreVisit,known,waits]
  let cleared := {b.items i with flag := (b.items i).flag &&& ~~~(flagProcessing ||| flagZombie)}
  have clear : cleared.flag = Status.pending.flag := by
    change (b.items i).flag &&& _ = _
    rw [flag,flag_cleared]
  have active := item_active cleared .pending clear
  by_cases forever : retryLimit = unlimited
  · refine ⟨b.set i cleared,[i],?_,?_,effect_set rep cleared rfl rfl ⟨_,clear⟩⟩
    · simp [restoreBody,item_of_lt inside,ok_bind,comm,put_of_lt inside,restoreVisit,known,waits,forever,
        cleared]
    · simp [restoreVisit,known,waits,forever,record_set,record_of cleared .pending clear,cleared]
  let counted := {cleared with cnt := (cleared.cnt + 1) % 256}
  have effect := effect_set rep counted rfl rfl ⟨.pending,clear⟩
  have stored : Rep (b.set i counted) (a ++ i :: c) := effect.rep
  have run : restoreBody retryLimit i b s =
      if retryLimit ≤ counted.cnt then deleteItem (b.set i counted) i >>= fun b => .ok (b,false,false)
      else .ok (b.set i counted,s,false) := by
    have inside' : i < (b.set i cleared).size := inside
    simp only [restoreBody,item_of_lt inside,ok_bind,comm,waits,put_of_lt inside,if_true,ne_eq,
      not_false_eq_true,decide_true]
    rw [if_pos ⟨active,forever⟩,put_of_lt inside',ok_bind,set_set]
  by_cases given : retryLimit ≤ counted.cnt
  · have verdict : restoreVisit retryLimit s i (record b i) = ⟨false,none,false⟩ := by
      rw [restoreVisit,known,if_neg waits,if_neg forever]
      exact if_pos given
    refine ⟨_,[],?_,?_,effect.trans (effect_delete stored)⟩
    · rw [run,if_pos given,deleteItem_eq stored,ok_bind,verdict]
    · rw [verdict]
      rfl
  · have verdict : restoreVisit retryLimit s i (record b i) = ⟨s,some counted.record,false⟩ := by
      rw [restoreVisit,known,if_neg waits,if_neg forever,record_of counted .pending clear]
      exact if_neg given
    refine ⟨b.set i counted,[i],?_,?_,effect⟩
    · rw [run,if_neg given,verdict]
    · rw [verdict,List.map_singleton,record_set]
      rfl

theorem done_follows (delivered : Bool) : Follows (doneBody delivered) (doneVisit delivered) := by
  intro b a i c s rep
  obtain ⟨inside,status,flag,known⟩ := rep.visited
  have processed : (b.items i).flag &&& flagProcessing ≠ 0 ↔ status = .processing := by
    rw [flag]
    cases status <;> decide
  by_cases sent : status = .processing
  · let cleared := {b.items i with flag := (b.items i).flag &&& ~~~flagProcessing}
    have clear : cleared.flag = Status.pending.flag := by
      change (b.items i).flag &&& _ = _
      rw [flag,sent]
      decide
    have active := item_active cleared .pending clear
    have inside' : i < (b.set i cleared).size := inside
    have effect := effect_set rep cleared rfl rfl ⟨.pending,clear⟩
    have stored : Rep (b.set i cleared) (a ++ i :: c) := effect.rep
    cases delivered with
    | true =>
      refine ⟨_,[],?_,?_,effect.trans (effect_delete stored)⟩
      · simp only [doneBody,item_of_lt inside,ok_bind,if_pos (processed.mpr sent),put_of_lt inside,if_true]
        rw [if_pos active,deleteItem_eq stored,ok_bind]
        simp [doneVisit,known,sent]
      · simp [doneVisit,known,sent]
    | false =>
      let zombie := {cleared with flag := cleared.flag ||| flagZombie}
      have marked : zombie.flag = Status.zombie.flag := by
        change cleared.flag ||| _ = _
        rw [clear]
        decide
      refine ⟨b.set i zombie,[i],?_,?_,effect_set rep zombie rfl rfl ⟨.zombie,marked⟩⟩
      · simp only [doneBody,item_of_lt inside,ok_bind,if_pos (processed.mpr sent),put_of_lt inside,
          Bool.false_eq_true,if_false]
        rw [if_pos active,put_of_lt inside',ok_bind,set_set]
        simp [doneVisit,known,sent,zombie,cleared]
      · simp [doneVisit,known,sent,record_set,record_of zombie .zombie marked,zombie,cleared]
  · refine ⟨b,[i],?_,?_,effect_same rep⟩
    · simp only [doneBody,item_of_lt inside,ok_bind,if_neg (fun set => sent (processed.mp set))]
      simp [doneVisit,known,sent]
    · simp [doneVisit,known,sent]

theorem get_follows : Follows getBody getVisit := by
  intro b a i c q rep
  obtain ⟨inside,status,flag,known⟩ := rep.visited
  have comm := item_inCommunication _ status flag
  have active := item_active _ status flag
  by_cases waits : status = .pending
  · let marked := {b.items i with flag := (b.items i).flag ||| flagProcessing}
    have flag' : marked.flag = Status.processing.flag := by
      change (b.items i).flag ||| _ = _
      rw [flag,waits]
      decide
    by_cases matched : (q.fill (b.items i).event (b.items i).prio (b.items i).user).user = (b.items i).user
    · refine ⟨b.set i marked,[i],?_,?_,effect_set rep marked rfl rfl ⟨_,flag'⟩⟩
      · simp [getBody,item_of_lt inside,ok_bind,active,comm,waits,matched,put_of_lt inside,getVisit,known,marked]
      · simp [getVisit,known,waits,matched,record_set,record_of marked _ flag',marked]
    · refine ⟨b,[i],?_,?_,effect_same rep⟩
      · simp [getBody,item_of_lt inside,ok_bind,active,comm,waits,matched,getVisit,known]
      · simp [getVisit,known,waits,matched]
  · refine ⟨b,[i],?_,?_,effect_same rep⟩
    · simp [getBody,item_of_lt inside,ok_bind,comm,waits,getVisit,known]
    · simp [getVisit,known,waits]

theorem forEach_follows (pfunc : List Event → Event → Bool) :
    Follows (forEachBody pfunc) (forEachVisit pfunc) := by
  intro b a i c calls rep
  obtain ⟨inside,status,flag,known⟩ := rep.visited
  have used : (b.items i).flag &&& flagUsed ≠ 0 := by
    rw [flag]
    cases status <;> decide
  cases answer : pfunc calls (b.items i).event with
  | false =>
    refine ⟨_,[],?_,?_,effect_delete rep⟩
    · simp only [forEachBody,item_of_lt inside,ok_bind,if_pos used,answer,if_true,deleteItem_eq rep]
      simp [forEachVisit,known,answer]
    · simp [forEachVisit,known,answer]
  | true =>
    refine ⟨b,[i],?_,?_,effect_same rep⟩
    · simp only [forEachBody,item_of_lt inside,ok_bind,if_pos used,answer]
      simp [forEachVisit,known,answer]
    · simp [forEachVisit,known,answer]

theorem empty_follows : Follows emptyBody emptyVisit := by
  intro b a i c s rep
  obtain ⟨inside,status,flag,known⟩ := rep.visited
  refine ⟨b,[i],?_,?_,effect_same rep⟩
  · by_cases waits : status = .pending <;>
      simp [emptyBody,item_of_lt inside,ok_bind,item_active _ status flag,
        item_inCommunication _ status flag,waits,emptyVisit,known]
  · by_cases waits : status = .pending <;> simp [emptyVisit,known,waits]

theorem info_follows : Follows infoBody infoVisit := by
  intro b a i c s rep
  exact ⟨b,[i],by simp only [infoBody,item_of_lt (rep.split.1),ok_bind,infoVisit],rfl,effect_same rep⟩

theorem lowestPrio_follows : Follows lowestPrioBody lowestPrioVisit := by
  intro b a i c s rep
  refine ⟨b,[i],?_,rfl,effect_same rep⟩
  simp only [lowestPrioBody,item_of_lt rep.split.1,ok_bind,if_neg rep.split.2.1]
  rfl

theorem oldestPrio_follows : Follows oldestPrioBody oldestPrioVisit := by
  intro b a i c s rep
  refine ⟨b,[i],?_,?_,effect_same rep⟩
  · by_cases low : (b.items i).prio = s.lowestPrio <;>
      simp [oldestPrioBody,item_of_lt rep.split.1,ok_bind,oldestPrioVisit,record,Item.record,low]
  · by_cases low : (b.items i).prio = s.lowestPrio <;>
      simp [oldestPrioVisit,record,Item.record,low]

theorem unchecked_passes (b : Buf) (i : Nat) (_ : i < b.size) : unchecked b i = .ok () := rfl

theorem inRange_passes (message : String) (b : Buf) (i : Nat) (inside : i < b.size) :
    inRange message b i = .ok () := osAssert_true inside message

section Skips

theorem item_unused (it : Item) (flag : it.flag = 0) :
    itemActive it = false ∧ itemInCommunication it = false ∧ it.flag &&& flagProcessing = 0 ∧
      it.flag &&& flagUsed = 0 := by
  rw [itemActive,itemInCommunication,flag]
  decide

theorem restore_skips (retryLimit : Nat) : Skips (restoreBody retryLimit) := by
  intro b i s inside flag
  simp [restoreBody,item_of_lt inside,ok_bind,(item_unused _ flag).2.1]

theorem done_skips (delivered : Bool) : Skips (doneBody delivered) := by
  intro b i s inside flag
  simp [doneBody,item_of_lt inside,ok_bind,(item_unused _ flag).2.2.1]

theorem get_skips : Skips getBody := by
  intro b i s inside flag
  simp [getBody,item_of_lt inside,ok_bind,(item_unused _ flag).1]

theorem forEach_skips (pfunc : List Event → Event → Bool) : Skips (forEachBody pfunc) := by
  intro b i s inside flag
  simp [forEachBody,item_of_lt inside,ok_bind,(item_unused _ flag).2.2.2]

theorem empty_skips : Skips emptyBody := by
  intro b i s inside flag
  simp [emptyBody,item_of_lt inside,ok_bind,(item_unused _ flag).1]

theorem info_skips : Skips infoBody := by
  intro b i s inside flag
  simp [infoBody,item_of_lt inside,ok_bind]

end Skips

end JcaFirmware.EventBuf
