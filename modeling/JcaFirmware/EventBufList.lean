import JcaFirmware.EventBufAdd

/-! The event buffer as an ordered list of records. `records` reads the list off
the array; the operations are restated as functions and relations on it. -/
namespace JcaFirmware.EventBuf
open Foundation.Linked

def follow (b : Buf) : Nat → Nat → List Nat
  | 0, _ => []
  | rounds + 1, i => i :: if nextOf b i = indexNil then [] else follow b rounds (nextOf b i)

/-- The used slots in the order of the links. -/
def chain (b : Buf) : List Nat :=
  if b.lastIndex = indexNil then [] else follow b b.size b.startIndex

def records (b : Buf) : List Record := (chain b).map (record b)

theorem follow_eq (b : Buf) (c : List Nat) : ∀ rounds p i,
    Segment (nextOf b) (prevOf b) p (i :: c) indexNil → (∀ j ∈ c, j ≠ indexNil) → c.length < rounds →
      follow b rounds i = i :: c := by
  induction c with
  | nil =>
    intro rounds p i linked _ enough
    obtain ⟨rounds,rfl⟩ := Nat.exists_eq_succ_of_ne_zero (Nat.ne_of_gt enough)
    have none : nextOf b i = indexNil := linked.2.1
    rw [follow,if_pos none]
  | cons k c ih =>
    intro rounds p i linked valid enough
    obtain ⟨rounds,rfl⟩ := Nat.exists_eq_succ_of_ne_zero (Nat.ne_of_gt (Nat.zero_lt_of_lt enough))
    obtain ⟨_,ahead,rest⟩ := linked
    have toK : nextOf b i = k := ahead
    rw [follow,toK,if_neg (valid k (by simp)),
      ih rounds i k rest (fun j member => valid j (by simp [member])) (by simpa using enough)]

theorem Rep.chain_eq {b : Buf} {l : List Nat} (rep : Rep b l) : chain b = l := by
  unfold chain
  split_ifs with none
  · exact (rep.last_nil.mp none).symm
  · cases l with
    | nil => exact absurd (rep.last_nil.mpr rfl) none
    | cons i c =>
      have start : b.startIndex = i := rep.start
      rw [start]
      exact follow_eq b c b.size indexNil i rep.linked (fun j member => rep.ne_nil (by simp [member]))
        rep.length_le

theorem Rep.records_eq {b : Buf} {l : List Nat} (rep : Rep b l) : records b = l.map (record b) := by
  rw [records,rep.chain_eq]

def doneRecord (delivered : Bool) (r : Record) : Option Record :=
  if r.status = .processing then if delivered then none else some {r with status := .zombie} else some r

def retryRecord (retryLimit : Nat) (r : Record) : Option Record :=
  if r.status = .pending then some r
  else if retryLimit ≤ r.cnt + 1 then none
  else some {r with cnt := r.cnt + 1, status := .pending}

/-- One record under a restore; `EVENT_BUF_UNLIMITED` counts nothing. -/
def restoreRecord (retryLimit : Nat) (r : Record) : Option Record :=
  if retryLimit = unlimited then some {r with status := .pending} else retryRecord retryLimit r

def Request.report (q : Request) (r : Record) : Request :=
  ⟨q.event.map fun _ => r.event,r.user,q.prio.map fun _ => r.prio⟩

def Wanted (user : Nat) (r : Record) : Prop := r.status = .pending ∧ (user = userNone ∨ r.user = user)

section Walk

variable {σ : Type}

/-- A loop that is never left and decides each record by itself filters the list. -/
theorem walk_filterMap (visit : σ → Nat → Record → Verdict σ) (f : Record → Option Record)
    (s : σ) (es : List (Nat × Record))
    (decided : ∀ s, ∀ e ∈ es, (visit s e.1 e.2).keep = f e.2 ∧ (visit s e.1 e.2).leave = false) :
    (walk visit s es).2 = ((es.map Prod.snd).filterMap f,false) := by
  induction es generalizing s with
  | nil => rfl
  | cons e es ih =>
    obtain ⟨keep,stay⟩ := decided s e (by simp)
    have rest := ih (visit s e.1 e.2).acc fun s e' member => decided s e' (by simp [member])
    simp only [walk,stay,Bool.false_eq_true,if_false,rest,keep,List.map_cons]
    cases found : f e.2 <;> simp [found]

theorem forEach_walk (pfunc : List Event → Event → Bool) (calls : List Event) (es : List (Nat × Record)) :
    (walk (forEachVisit pfunc) calls es).2.1.Sublist (es.map Prod.snd) := by
  induction es generalizing calls with
  | nil => exact List.Sublist.slnil
  | cons e es ih =>
    cases answer : pfunc calls e.2.event with
    | false =>
      simp only [walk,forEachVisit,answer,if_true,Bool.false_eq_true,if_false]
      exact (ih _).cons _
    | true =>
      simp only [walk,forEachVisit,answer,Bool.true_eq_false,if_false,Bool.false_eq_true]
      exact (ih _).cons_cons _

theorem restoreVisit_eq (retryLimit : Nat) (result : Bool) (i : Nat) (r : Record) (bounded : r.cnt < 254) :
    restoreVisit retryLimit result i r =
      ⟨result && (restoreRecord retryLimit r).isSome,restoreRecord retryLimit r,false⟩ := by
  have plain : (r.cnt + 1) % 256 = r.cnt + 1 := Nat.mod_eq_of_lt (by omega)
  unfold restoreVisit restoreRecord retryRecord
  rw [plain]
  by_cases pending : r.status = .pending
  · have same : {r with status := .pending} = r := by rw [← pending]
    simp [pending,same]
  · split_ifs <;> simp

theorem restore_walk (retryLimit : Nat) (result : Bool) (es : List (Nat × Record))
    (bounded : ∀ e ∈ es, e.2.cnt < 254) :
    (walk (restoreVisit retryLimit) result es).1 =
      (result && (es.map Prod.snd).all fun r => (restoreRecord retryLimit r).isSome) := by
  induction es generalizing result with
  | nil => simp [walk]
  | cons e es ih =>
    have head := restoreVisit_eq retryLimit result e.1 e.2 (bounded e (by simp))
    simp only [walk,head,Bool.false_eq_true,if_false,ih _ fun e' member => bounded e' (by simp [member]),
      List.map_cons,List.all_cons,Bool.and_assoc]

theorem getVisit_hit (q : Request) (i : Nat) (r : Record) (wanted : Wanted q.user r) :
    getVisit q i r = ⟨q.report r,some {r with status := .processing},true⟩ := by
  obtain ⟨pending,user⟩ := wanted
  by_cases any : q.user = userNone
  · simp [getVisit,pending,Request.fill,Request.report,any]
  · have same : r.user = q.user := user.resolve_left any
    simp [getVisit,pending,Request.fill,Request.report,same]

theorem getVisit_miss (q : Request) (i : Nat) (r : Record) (other : ¬ Wanted q.user r) :
    ∃ q', getVisit q i r = ⟨q',some r,false⟩ ∧ q'.user = q.user ∧ q'.report = q.report := by
  by_cases pending : r.status = .pending
  · have any : q.user ≠ userNone := fun none => other ⟨pending,Or.inl none⟩
    have apart : q.user ≠ r.user := fun same => other ⟨pending,Or.inr same.symm⟩
    refine ⟨q.fill r.event r.prio r.user,?_,?_,?_⟩
    · simp [getVisit,pending,Request.fill,any,apart]
    · simp [Request.fill,any]
    · funext r'
      simp [Request.fill,Request.report,Function.comp_def]
  · exact ⟨q,by rw [getVisit,if_neg pending],rfl,rfl⟩

theorem get_walk (q : Request) (es : List (Nat × Record)) :
    ((walk getVisit q es).2.2 = true ∧ ∃ pre r post, es.map Prod.snd = pre ++ r :: post ∧
        Wanted q.user r ∧ (∀ r' ∈ pre, ¬ Wanted q.user r') ∧
        (walk getVisit q es).2.1 = pre ++ {r with status := .processing} :: post ∧
        (walk getVisit q es).1 = q.report r) ∨
      ((walk getVisit q es).2.2 = false ∧ (∀ r ∈ es.map Prod.snd, ¬ Wanted q.user r) ∧
        (walk getVisit q es).2.1 = es.map Prod.snd ∧ (walk getVisit q es).1.user = q.user) := by
  induction es generalizing q with
  | nil => exact Or.inr ⟨rfl,by simp,rfl,rfl⟩
  | cons e es ih =>
    by_cases wanted : Wanted q.user e.2
    · have hit := getVisit_hit q e.1 e.2 wanted
      refine Or.inl ⟨?_,[],e.2,es.map Prod.snd,rfl,wanted,by simp,?_,?_⟩
      · simp only [walk,hit,if_true]
      · simp only [walk,hit,if_true]
        rfl
      · simp only [walk,hit,if_true]
    · obtain ⟨q',miss,user,report⟩ := getVisit_miss q e.1 e.2 wanted
      have later : walk getVisit q (e :: es) =
          ((walk getVisit q' es).1,e.2 :: (walk getVisit q' es).2.1,(walk getVisit q' es).2.2) := by
        simp only [walk,miss,Bool.false_eq_true,if_false]
        rfl
      rw [later]
      rcases ih q' with ⟨left,pre,r,post,split,found,before,kept,acc⟩ | ⟨passed,none,kept,same⟩
      · refine Or.inl ⟨left,e.2 :: pre,r,post,?_,user ▸ found,?_,?_,?_⟩
        · rw [List.map_cons,split,List.cons_append]
        · intro r' member
          rcases List.mem_cons.mp member with rfl | earlier
          · exact wanted
          · exact user ▸ before r' earlier
        · rw [kept,List.cons_append]
        · rw [acc,report]
      · refine Or.inr ⟨passed,?_,by rw [kept,List.map_cons],same.trans user⟩
        intro r member
        rcases List.mem_cons.mp member with rfl | later
        · exact wanted
        · exact user ▸ none r later

end Walk

/-- What every operation keeps: the chain, and retry counts below any limit
that still counts. -/
structure Sound (b : Buf) : Prop where
  chained : ∃ l, Rep b l
  retries : ∀ r ∈ records b, r.cnt < 254

theorem Sound.rep {b : Buf} (sound : Sound b) : Rep b (chain b) := by
  obtain ⟨l,rep⟩ := sound.chained
  rwa [rep.chain_eq]

theorem Rep.sound {b b' : Buf} {l : List Nat} (rep : Rep b' l) (sound : Sound b)
    (old : ∀ r ∈ records b', r ∈ records b ∨ r.cnt < 254) : Sound b' := by
  refine ⟨⟨l,rep⟩,?_⟩
  intro r member
  exact (old r member).elim (sound.retries r) id

theorem entries_eq (b : Buf) : (entries b (chain b)).map Prod.snd = records b :=
  entries_records b (chain b)

/-- Every used slot is seen once by a loop that runs to its end. -/
def Traversed {σ : Type} (b : Buf) (ran : Except Fault (Walked σ)) : Prop :=
  ∃ w, ran = .ok w ∧ (w.complete = true → ∀ i < b.size, (b.items i).flag ≠ 0 → w.visited.count i = 1)

section Loop

variable {σ : Type} {body : Nat → Buf → σ → Except Fault (Buf × σ × Bool)}
  {visit : σ → Nat → Record → Verdict σ} {advance : Buf → Nat → Except Fault Unit}

theorem walkBuf_records {b : Buf} (sound : Sound b) (follows : Follows body visit) (skips : Skips body)
    (advances : ∀ b i, i < b.size → advance b i = .ok ()) (s : σ) :
    ∃ w l, walkBuf body advance b s = .ok w ∧ Rep w.buf l ∧ w.index < w.buf.size ∧ w.buf.size = b.size ∧
      (w.acc,records w.buf,!w.complete) = walk visit s (entries b (chain b)) := by
  obtain ⟨w,kept,ran,rep,out,_⟩ := walkBuf_rep sound.rep follows skips advances s
  refine ⟨w,kept,ran,rep,out.inside,out.size,?_⟩
  rw [rep.records_eq,out.records,out.acc,out.complete,Bool.not_not]

theorem walkBuf_traversed {b : Buf} (sound : Sound b) (follows : Follows body visit) (skips : Skips body)
    (advances : ∀ b i, i < b.size → advance b i = .ok ()) (s : σ) :
    Traversed b (walkBuf body advance b s) := by
  obtain ⟨w,_,ran,_,_,visits⟩ := walkBuf_rep sound.rep follows skips advances s
  refine ⟨w,ran,?_⟩
  intro complete i inside used
  exact visits complete i ((sound.rep.used i).mpr ⟨inside,used⟩)

end Loop

theorem doneEvents_spec {b : Buf} (sound : Sound b) (delivered : Bool) :
    ∃ b', doneEvents b delivered = .ok b' ∧ Sound b' ∧
      records b' = (records b).filterMap (doneRecord delivered) := by
  obtain ⟨w,l,ran,rep,_,_,out⟩ :=
    walkBuf_records sound (done_follows delivered) (done_skips delivered) unchecked_passes ()
  have decided := walk_filterMap (doneVisit delivered) (doneRecord delivered) () (entries b (chain b)) (by
    intro s e _
    unfold doneVisit doneRecord
    split_ifs <;> exact ⟨rfl,rfl⟩)
  rw [entries_eq,← out] at decided
  have same : records w.buf = (records b).filterMap (doneRecord delivered) := congrArg Prod.fst decided
  refine ⟨w.buf,?_,rep.sound sound ?_,same⟩
  · rw [doneEvents,doneWalk,ran,ok_bind]
  · intro r member
    rw [same] at member
    obtain ⟨r₀,old,becomes⟩ := List.mem_filterMap.mp member
    right
    have limit := sound.retries r₀ old
    unfold doneRecord at becomes
    split_ifs at becomes <;> cases becomes <;> exact limit

theorem restoreRecord_bounded {retryLimit : Nat} {r r' : Record} (byte : retryLimit ≤ 255)
    (bounded : r.cnt < 254) (becomes : restoreRecord retryLimit r = some r') : r'.cnt < 254 := by
  unfold restoreRecord retryRecord unlimited at becomes
  split_ifs at becomes <;> cases becomes
  · exact bounded
  · exact bounded
  · change r.cnt + 1 < 254
    omega

theorem restoreEvents_spec {b : Buf} (sound : Sound b) (retryLimit : Nat) (byte : retryLimit ≤ 255) :
    ∃ result b', restoreEvents b retryLimit = .ok (result,b') ∧ Sound b' ∧
      records b' = (records b).filterMap (restoreRecord retryLimit) ∧
      result = (records b).all fun r => (restoreRecord retryLimit r).isSome := by
  have bounded : ∀ e ∈ entries b (chain b), e.2.cnt < 254 := by
    intro e member
    apply sound.retries
    rw [← entries_eq]
    exact List.mem_map_of_mem member
  obtain ⟨w,l,ran,rep,_,_,out⟩ :=
    walkBuf_records sound (restore_follows retryLimit) (restore_skips retryLimit) unchecked_passes true
  have decided := walk_filterMap (restoreVisit retryLimit) (restoreRecord retryLimit) true
    (entries b (chain b)) fun s e member => by rw [restoreVisit_eq _ s e.1 e.2 (bounded e member)]; simp
  have answer := restore_walk retryLimit true (entries b (chain b)) bounded
  rw [entries_eq,← out] at decided answer
  have same : records w.buf = (records b).filterMap (restoreRecord retryLimit) := congrArg Prod.fst decided
  refine ⟨w.acc,w.buf,?_,rep.sound sound ?_,same,by rw [← Bool.true_and (List.all _ _)]; exact answer⟩
  · rw [restoreEvents,restoreWalk,ran,ok_bind]
  · intro r member
    rw [same] at member
    obtain ⟨r₀,old,becomes⟩ := List.mem_filterMap.mp member
    exact Or.inr (restoreRecord_bounded byte (sound.retries r₀ old) becomes)

/-- The outcome of a search for the oldest pending record of a user. -/
def Gets (old new : List Record) (q q' : Request) (result : Bool) : Prop :=
  (result = true ∧ ∃ pre r post, old = pre ++ r :: post ∧ Wanted q.user r ∧ (∀ r' ∈ pre, ¬ Wanted q.user r') ∧
      new = pre ++ {r with status := .processing} :: post ∧ q' = q.report r) ∨
    (result = false ∧ (∀ r ∈ old, ¬ Wanted q.user r) ∧ new = old)

theorem Gets.retries {old new : List Record} {q q' : Request} {result : Bool}
    (gets : Gets old new q q' result) (bounded : ∀ r ∈ old, r.cnt < 254) : ∀ r ∈ new, r.cnt < 254 := by
  rcases gets with ⟨_,pre,r,post,rfl,_,_,rfl,_⟩ | ⟨_,_,rfl⟩
  · intro r' member
    rcases List.mem_append.mp member with before | after
    · exact bounded r' (by simp [before])
    · rcases List.mem_cons.mp after with rfl | behind
      · exact bounded r (by simp)
      · exact bounded r' (by simp [behind])
  · exact bounded

theorem getEvent_spec {b : Buf} (sound : Sound b) (event : Option Event) (user : Nat) (prio : Option Nat) :
    ∃ result q b', getEvent b event (some user) prio = .ok (result,q,b') ∧ Sound b' ∧
      Gets (records b) (records b') ⟨event,user,prio⟩ q result := by
  obtain ⟨w,l,ran,rep,_,_,out⟩ :=
    walkBuf_records sound get_follows get_skips unchecked_passes ⟨event,user,prio⟩
  have found := get_walk ⟨event,user,prio⟩ (entries b (chain b))
  rw [entries_eq,← out] at found
  have gets : Gets (records b) (records w.buf) ⟨event,user,prio⟩ w.acc (!w.complete) :=
    found.imp id fun ⟨passed,missing,same,_⟩ => ⟨passed,missing,same⟩
  refine ⟨!w.complete,w.acc,w.buf,?_,⟨⟨l,rep⟩,gets.retries sound.retries⟩,gets⟩
  rw [getEvent,getWalk,ran,ok_bind]

theorem forEach_spec {b : Buf} (sound : Sound b) (pfunc : List Event → Event → Bool) :
    ∃ b', forEach b pfunc = .ok b' ∧ Sound b' ∧ (records b').Sublist (records b) := by
  obtain ⟨w,l,ran,rep,_,_,out⟩ :=
    walkBuf_records sound (forEach_follows pfunc) (forEach_skips pfunc) (inRange_passes _) []
  have sub := forEach_walk pfunc [] (entries b (chain b))
  rw [entries_eq,← out] at sub
  refine ⟨w.buf,?_,rep.sound sound fun r member => Or.inl (sub.subset member),sub⟩
  rw [forEach,forEachWalk,ran,ok_bind]

/-- The outcome of an add: nothing, or the new record at the end and at most
one other gone, from a buffer that had no slot left. -/
def Adds (capacity : Nat) (old new : List Record) (event : Option Event) (prio user : Nat)
    (result : Bool) : Prop :=
  (result = false ∧ new = old) ∨
    result = true ∧ user ≠ userNone ∧ ∃ e, event = some e ∧
      (new = old ++ [newRecord e prio user] ∨
        old.length = capacity ∧ ∃ pre r post, old = pre ++ r :: post ∧
          new = pre ++ post ++ [newRecord e prio user])

theorem full_length {b : Buf} {l : List Nat} (rep : Rep b l) (full : Full b) : l.length = b.size := by
  have subset : List.range b.size ⊆ l := fun i member =>
    (rep.used i).mpr ⟨List.mem_range.mp member,full i (List.mem_range.mp member)⟩
  have least : b.size ≤ l.length := by simpa using (List.nodup_range.subperm subset).length_le
  exact Nat.le_antisymm rep.length_le least

theorem Adds.all {capacity prio user : Nat} {old new : List Record} {event : Option Event} {result : Bool}
    {property : Record → Prop} (adds : Adds capacity old new event prio user result) (before : ∀ r ∈ old, property r)
    (fresh : ∀ e, event = some e → user ≠ userNone → property (newRecord e prio user)) : ∀ r ∈ new, property r := by
  rcases adds with ⟨_,rfl⟩ | ⟨_,somebody,e,given,rfl | ⟨_,pre,r,post,rfl,rfl⟩⟩
  · exact before
  · intro r member
    rcases List.mem_append.mp member with kept | new
    · exact before r kept
    · exact List.mem_singleton.mp new ▸ fresh e given somebody
  · intro r' member
    rcases List.mem_append.mp member with kept | new
    · exact before r' (by simp only [List.mem_append,List.mem_cons] at kept ⊢; tauto)
    · exact List.mem_singleton.mp new ▸ fresh e given somebody

theorem Adds.retries {capacity prio user : Nat} {old new : List Record} {event : Option Event} {result : Bool}
    (adds : Adds capacity old new event prio user result) (bounded : ∀ r ∈ old, r.cnt < 254) :
    ∀ r ∈ new, r.cnt < 254 :=
  adds.all bounded fun _ _ _ => Nat.zero_lt_succ _

theorem addEvent_spec {b : Buf} (sound : Sound b) (event : Option Event) (prio user : Nat) :
    ∃ result b', addEvent b event prio user = .ok (result,b') ∧ Sound b' ∧
      Adds b.size (records b) (records b') event prio user result := by
  obtain ⟨result,b',l',added,rep',_,what⟩ := addEvent_rep sound.rep event prio user
  have adds : Adds b.size (records b) (records b') event prio user result := by
    rw [rep'.records_eq]
    refine what.imp id fun ⟨yes,somebody,e,given,how⟩ => ⟨yes,somebody,e,given,how.imp id ?_⟩
    rintro ⟨full,a,i,c,split,new⟩
    refine ⟨by rw [records,List.length_map,full_length sound.rep full],a.map (record b),record b i,
      c.map (record b),?_,by rw [new,List.map_append]⟩
    rw [records,split,List.map_append,List.map_cons]
  exact ⟨result,b',added,⟨⟨l',rep'⟩,adds.retries sound.retries⟩,adds⟩

theorem init_sound (items : Nat → Item) (size : Nat) (pos : 0 < size) (le : size ≤ 255) :
    Sound (init items size) ∧ records (init items size) = [] := by
  have none : records (init items size) = [] := (init_rep items size pos le).records_eq
  refine ⟨⟨⟨[],init_rep items size pos le⟩,?_⟩,none⟩
  intro r member
  rw [none] at member
  exact absurd member List.not_mem_nil

theorem empty_walk (es : List (Nat × Record)) :
    (walk emptyVisit true es).1 = (es.map Prod.snd).all fun r => r.status ≠ .pending := by
  induction es with
  | nil => rfl
  | cons e es ih =>
    by_cases pending : e.2.status = .pending
    · simp [walk,emptyVisit,pending]
    · simpa [walk,emptyVisit,pending] using ih

theorem empty_spec {b : Buf} (sound : Sound b) :
    empty b = .ok ((records b).all fun r => r.status ≠ .pending) := by
  obtain ⟨w,_,ran,_,_,_,out⟩ := walkBuf_records sound empty_follows empty_skips (inRange_passes _) true
  have answer := empty_walk (entries b (chain b))
  rw [entries_eq,← out] at answer
  rw [empty,emptyWalk,ran,ok_bind,← answer]

theorem infoSlots_ok {b : Buf} {index : Nat} (inside : index < b.size) :
    ∀ rounds ≤ b.size, infoSlots b index rounds = .ok () := by
  intro rounds enough
  induction rounds with
  | zero => rfl
  | succ rounds ih =>
    have within : b.size - (rounds + 1) < b.size := by omega
    rw [infoSlots,osAssert_true inside,ok_bind,item_of_lt within,ok_bind,ih (Nat.le_of_succ_le enough)]

theorem info_spec {b : Buf} (sound : Sound b) : info b = .ok () := by
  obtain ⟨w,_,ran,_,inside,size,_⟩ := walkBuf_records sound info_follows info_skips unchecked_passes ()
  rw [info,infoWalk,ran,ok_bind]
  exact infoSlots_ok (size ▸ inside) b.size (Nat.le_refl _)

end JcaFirmware.EventBuf
