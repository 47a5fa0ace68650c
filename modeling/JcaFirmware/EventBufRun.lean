import JcaFirmware.EventBufList
import JcaFirmware.Foundation.Run

/-! Whole runs on an event buffer: from `init` on, any sequence of operations
keeps the links, stays inside the array and acts on the list of records as an
ordered queue with states. -/
namespace JcaFirmware.EventBuf
open Foundation

/-- An `eb_ptr_t` that can be a buffer's size. -/
abbrev BufSize := {size : Nat // 0 < size ∧ size ≤ 255}

inductive Op
  | init (items : Nat → Item) (size : BufSize)
  | addEvent (event : Option Event) (prio user : Nat)
  | getEvent (event : Option Event) (user prio : Option Nat)
  | doneEvents (delivered : Bool)
  | restoreEvents (retryLimit : UInt8)
  | forEach (pfunc : List Event → Event → Bool)
  | empty
  | info

def Op.apply (b : Buf) : Op → Except Fault Buf
  | .init items size => .ok (EventBuf.init items size)
  | .addEvent event prio user => do
    let (_,b) ← EventBuf.addEvent b event prio user
    .ok b
  | .getEvent event user prio => do
    let (_,_,b) ← EventBuf.getEvent b event user prio
    .ok b
  | .doneEvents delivered => EventBuf.doneEvents b delivered
  | .restoreEvents retryLimit => do
    let (_,b) ← EventBuf.restoreEvents b retryLimit.toNat
    .ok b
  | .forEach pfunc => EventBuf.forEach b pfunc
  | .empty => do
    let _ ← EventBuf.empty b
    .ok b
  | .info => do
    EventBuf.info b
    .ok b

def runOps (b : Buf) (ops : List Op) : Except Fault Buf := ops.foldlM Op.apply b

def Op.isGet : Op → Bool
  | .getEvent .. => true
  | _ => false

def processing (rs : List Record) : List Record := rs.filter fun r => r.status = .processing

theorem processing_filterMap (f : Record → Option Record)
    (only : ∀ r r', f r = some r' → r'.status = .processing → r' = r) (rs : List Record) :
    (processing (rs.filterMap f)).Sublist (processing rs) := by
  induction rs with
  | nil => exact List.Sublist.slnil
  | cons r rs ih =>
    unfold processing at ih ⊢
    cases becomes : f r with
    | none =>
      rw [List.filterMap_cons_none becomes]
      exact ih.trans ((List.sublist_cons_self r rs).filter _)
    | some r' =>
      rw [List.filterMap_cons_some becomes]
      by_cases sent : r'.status = .processing
      · obtain rfl := only r r' becomes sent
        simpa [sent] using ih
      · rw [List.filter_cons_of_neg (by simpa using sent)]
        exact ih.trans ((List.sublist_cons_self r rs).filter _)

theorem processing_adds {capacity prio user : Nat} {old new : List Record} {event : Option Event}
    {result : Bool} (adds : Adds capacity old new event prio user result) :
    (processing new).Sublist (processing old) := by
  unfold processing
  rcases adds with ⟨_,rfl⟩ | ⟨_,_,e,_,rfl | ⟨_,pre,r,post,rfl,rfl⟩⟩
  · exact List.Sublist.refl _
  · simp [newRecord]
  · have shorter : (pre ++ post).Sublist (pre ++ r :: post) :=
      (List.Sublist.refl pre).append (List.sublist_cons_self r post)
    simpa [newRecord] using shorter.filter fun r => r.status = .processing

/-- One operation succeeds, keeps the invariant, and puts no record into
processing unless it is a get. -/
theorem apply_sound {b : Buf} (sound : Sound b) (op : Op) :
    ∃ b', op.apply b = .ok b' ∧ Sound b' ∧
      (op.isGet = false → (processing (records b')).Sublist (processing (records b))) := by
  cases op with
  | init items size =>
    obtain ⟨start,none⟩ := init_sound items size size.2.1 size.2.2
    refine ⟨_,rfl,start,fun _ => ?_⟩
    rw [none]
    exact List.nil_sublist _
  | addEvent event prio user =>
    obtain ⟨_,b',ran,after,adds⟩ := addEvent_spec sound event prio user
    exact ⟨b',by rw [Op.apply,ran,ok_bind],after,fun _ => processing_adds adds⟩
  | getEvent event user prio =>
    cases user with
    | none => exact ⟨b,rfl,sound,fun _ => List.Sublist.refl _⟩
    | some user =>
      obtain ⟨_,_,b',ran,after,_⟩ := getEvent_spec sound event user prio
      exact ⟨b',by rw [Op.apply,ran,ok_bind],after,by simp [Op.isGet]⟩
  | doneEvents delivered =>
    obtain ⟨b',ran,after,same⟩ := doneEvents_spec sound delivered
    refine ⟨b',ran,after,fun _ => ?_⟩
    rw [same]
    refine processing_filterMap _ ?_ _
    intro r r' becomes sent
    unfold doneRecord at becomes
    split_ifs at becomes <;> cases becomes
    · exact absurd sent (by simp)
    · rfl
  | restoreEvents retryLimit =>
    obtain ⟨_,b',ran,after,same,_⟩ := restoreEvents_spec sound retryLimit.toNat
      (Nat.le_of_lt_succ retryLimit.toNat_lt)
    refine ⟨b',by rw [Op.apply,ran,ok_bind],after,fun _ => ?_⟩
    rw [same]
    refine processing_filterMap _ ?_ _
    intro r r' becomes sent
    unfold restoreRecord retryRecord at becomes
    split_ifs at becomes <;> cases becomes
    · exact absurd sent (by simp)
    · rfl
    · exact absurd sent (by simp)
  | forEach pfunc =>
    obtain ⟨b',ran,after,sub⟩ := forEach_spec sound pfunc
    exact ⟨b',ran,after,fun _ => sub.filter _⟩
  | empty => exact ⟨b,by rw [Op.apply,empty_spec sound,ok_bind],sound,fun _ => List.Sublist.refl _⟩
  | info => exact ⟨b,by rw [Op.apply,info_spec sound,ok_bind],sound,fun _ => List.Sublist.refl _⟩

theorem runOps_sound {b : Buf} (sound : Sound b) (ops : List Op) : ∃ b', runOps b ops = .ok b' ∧ Sound b' :=
  Run.foldlM_invariant Op.apply Sound (fun _ => True)
    (fun _ op sound _ => by
      obtain ⟨b',ran,after,_⟩ := apply_sound sound op
      exact ⟨b',ran,after⟩)
    b ops sound fun _ _ => trivial

theorem reachable_sound (items : Nat → Item) (size : BufSize) (ops : List Op) :
    ∃ b, runOps (init items size) ops = .ok b ∧ Sound b :=
  runOps_sound (init_sound items size size.2.1 size.2.2).1 ops

theorem runOps_processing {b : Buf} (sound : Sound b) (ops : List Op) (noGet : ∀ op ∈ ops, op.isGet = false) :
    ∃ b', runOps b ops = .ok b' ∧ (processing (records b')).Sublist (processing (records b)) := by
  obtain ⟨b',ran,_,sub⟩ := Run.foldlM_invariant Op.apply
    (fun b' => Sound b' ∧ (processing (records b')).Sublist (processing (records b))) (fun op => op.isGet = false)
    (fun b₁ op ⟨sound,sub⟩ other => by
      obtain ⟨b₂,ran,after,less⟩ := apply_sound sound op
      exact ⟨b₂,ran,after,(less other).trans sub⟩)
    b ops ⟨sound,List.Sublist.refl _⟩ noGet
  exact ⟨b',ran,sub⟩

/-- The links of a buffer: NIL is the last index of an empty one only, and some
list without repetition holds exactly the used slots and is linked both ways. -/
structure WellFormed (b : Buf) : Prop where
  nil_iff : b.lastIndex = indexNil ↔ ∀ i < b.size, (b.items i).flag = 0
  chained : ∃ l, Chain b l

theorem Sound.wellFormed {b : Buf} (sound : Sound b) : WellFormed b := by
  have rep := sound.rep
  refine ⟨?_,⟨_,rep.toChain⟩⟩
  rw [rep.last_nil]
  constructor
  · intro none i inside
    by_contra flag
    have member := (rep.used i).mpr ⟨inside,flag⟩
    rw [none] at member
    exact List.not_mem_nil member
  · intro clear
    rw [List.eq_nil_iff_forall_not_mem]
    intro i member
    obtain ⟨inside,flag⟩ := (rep.used i).mp member
    exact flag (clear i inside)

/-- All loops along the chain, those that search, that mark and that delete. -/
structure AllTraversed (b : Buf) : Prop where
  restore : ∀ retryLimit : UInt8, Traversed b (restoreWalk b retryLimit.toNat)
  done : ∀ delivered, Traversed b (doneWalk b delivered)
  get : ∀ q, Traversed b (getWalk b q)
  forEach : ∀ pfunc, Traversed b (forEachWalk b pfunc)
  empty : Traversed b (emptyWalk b)
  info : Traversed b (infoWalk b)
  lowestPrio : ∀ s, Traversed b (walkBuf lowestPrioBody unchecked b s)
  oldestPrio : ∀ s, Traversed b (walkBuf oldestPrioBody unchecked b s)

theorem search_traversed {b : Buf} (sound : Sound b) {σ : Type}
    {body : Nat → Buf → σ → Except Fault (Buf × σ × Bool)} {visit : σ → Nat → Record → Verdict σ}
    (follows : Follows body visit)
    (looks : ∀ i s, i < b.size → ∃ s' leave, body i b s = .ok (b,s',leave)) (s : σ) :
    Traversed b (walkBuf body unchecked b s) := by
  have rep := sound.rep
  by_cases filled : chain b = []
  · obtain ⟨s',leave,looked⟩ := looks b.startIndex s rep.start_lt
    have none : (b.items b.startIndex).nextIndex = indexNil := rep.idle filled
    have unused : ∀ i < b.size, (b.items i).flag = 0 := by
      rw [← sound.wellFormed.nil_iff,rep.last_nil]
      exact filled
    obtain ⟨rounds,size⟩ := Nat.exists_eq_succ_of_ne_zero (Nat.ne_of_gt rep.size_pos)
    refine ⟨⟨b,s',b.startIndex,[b.startIndex],!leave⟩,?_,fun _ i inside used => absurd (unused i inside) used⟩
    cases leave <;>
      simp [walkBuf,size,traverse,looked,ok_bind,item_of_lt rep.start_lt,none]
  · obtain ⟨w,_,ran,_,_,visits⟩ := walkBuf_filled rep filled follows unchecked_passes s
    refine ⟨w,ran,?_⟩
    intro complete i inside used
    rw [visits complete]
    exact List.count_eq_one_of_mem rep.distinct ((rep.used i).mpr ⟨inside,used⟩)

theorem Sound.allTraversed {b : Buf} (sound : Sound b) : AllTraversed b where
  restore _ := walkBuf_traversed sound (restore_follows _) (restore_skips _) unchecked_passes true
  done _ := walkBuf_traversed sound (done_follows _) (done_skips _) unchecked_passes ()
  get q := walkBuf_traversed sound get_follows get_skips unchecked_passes q
  forEach _ := walkBuf_traversed sound (forEach_follows _) (forEach_skips _) (inRange_passes _) []
  empty := walkBuf_traversed sound empty_follows empty_skips (inRange_passes _) true
  info := walkBuf_traversed sound info_follows info_skips unchecked_passes ()
  lowestPrio := search_traversed sound lowestPrio_follows fun i s inside => by
    rw [lowestPrioBody,item_of_lt inside,ok_bind]
    split_ifs <;> exact ⟨_,_,rfl⟩
  oldestPrio := search_traversed sound oldestPrio_follows fun i s inside => by
    rw [oldestPrioBody,item_of_lt inside,ok_bind]
    split_ifs <;> exact ⟨_,_,rfl⟩

/-- No operation faults in any run, and its buffer is well formed at every end. -/
theorem run_wellFormed (items : Nat → Item) (size : BufSize) (ops : List Op) :
    ∃ b, runOps (init items size) ops = .ok b ∧ WellFormed b ∧ AllTraversed b := by
  obtain ⟨b,ran,sound⟩ := reachable_sound items size ops
  exact ⟨b,ran,sound.wellFormed,sound.allTraversed⟩

/-- The operations as operations on the list of records; `restored` is what a
restore makes of one record. After a get, only the records it left in
processing can be met in processing until the next get. -/
structure Refines (restored : Nat → Record → Option Record) (b : Buf) : Prop where
  add : ∀ event prio user, ∃ result b', addEvent b event prio user = .ok (result,b') ∧
    Adds b.size (records b) (records b') event prio user result
  get : ∀ event user prio, ∃ result q b', getEvent b event (some user) prio = .ok (result,q,b') ∧
    Gets (records b) (records b') ⟨event,user,prio⟩ q result
  done : ∀ delivered, ∃ b', doneEvents b delivered = .ok b' ∧
    records b' = (records b).filterMap (doneRecord delivered)
  restore : ∀ retryLimit : UInt8, ∃ result b', restoreEvents b retryLimit.toNat = .ok (result,b') ∧
    records b' = (records b).filterMap (restored retryLimit.toNat)
  between : ∀ ops, (∀ op ∈ ops, op.isGet = false) → ∃ b', runOps b ops = .ok b' ∧
    (processing (records b')).Sublist (processing (records b))

theorem Sound.refines {b : Buf} (sound : Sound b) : Refines restoreRecord b where
  add event prio user := by
    obtain ⟨result,b',ran,_,adds⟩ := addEvent_spec sound event prio user
    exact ⟨result,b',ran,adds⟩
  get event user prio := by
    obtain ⟨result,q,b',ran,_,gets⟩ := getEvent_spec sound event user prio
    exact ⟨result,q,b',ran,gets⟩
  done delivered := by
    obtain ⟨b',ran,_,same⟩ := doneEvents_spec sound delivered
    exact ⟨b',ran,same⟩
  restore retryLimit := by
    obtain ⟨result,b',ran,_,same,_⟩ := restoreEvents_spec sound retryLimit.toNat
      (Nat.le_of_lt_succ retryLimit.toNat_lt)
    exact ⟨result,b',ran,same⟩
  between := runOps_processing sound

theorem run_refines (items : Nat → Item) (size : BufSize) (ops : List Op) :
    ∃ b, runOps (init items size) ops = .ok b ∧ Refines restoreRecord b := by
  obtain ⟨b,ran,sound⟩ := reachable_sound items size ops
  exact ⟨b,ran,sound.refines⟩

def waiting : Record := newRecord Event.erased prioStd 7

def emptySlots (_ : Nat) : Item := ⟨Event.erased,indexNil,indexNil,0,0,0,0⟩

/-- Restoring without a retry limit counts nothing: the buffer does not refine
the list on which every restore counts. -/
theorem restore_unlimited_counts_nothing :
    ¬ ∀ (items : Nat → Item) (size : BufSize) (ops : List Op),
      ∃ b, runOps (init items size) ops = .ok b ∧ Refines retryRecord b := by
  intro counting
  obtain ⟨b,ran,refines⟩ := counting emptySlots ⟨2,by decide⟩
    [.addEvent (some Event.erased) prioStd 7,.getEvent none (some 7) none]
  obtain ⟨result,b',restored,same⟩ := refines.restore 255
  have seen : (do
      let b ← runOps (init emptySlots 2)
        [.addEvent (some Event.erased) prioStd 7,.getEvent none (some 7) none]
      let (_,b') ← restoreEvents b 255
      .ok (records b,records b')) = .ok ([{waiting with status := .processing}],[waiting]) := by rfl
  rw [ran,ok_bind] at seen
  change (restoreEvents b (255 : UInt8).toNat >>= _) = _ at seen
  rw [restored,ok_bind] at seen
  obtain ⟨before,after⟩ := Prod.mk.inj (Except.ok.inj seen)
  rw [before,after] at same
  exact absurd same (by decide)

end JcaFirmware.EventBuf
