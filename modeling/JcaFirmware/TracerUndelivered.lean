import JcaFirmware.TracerRecovery

/-! The undelivered points of the tracer ring over stores, reads, acknowledged
reads and a restart. In a history they are the last ones stored; the restart
finds the oldest of them unless the newest record is in slot 0. -/
namespace JcaFirmware.TracerUndelivered
open Foundation TracerUpload TracerRecovery
open TracerBuffer hiding Input Inv step start

section Marks

/-- What `tracer_buf_delivered_all` leaves in a slot it comes to. -/
def markSlot (readable written : Nat → Bool) (flash : Nat → TracerBuf) (slot : Nat) : TracerBuf :=
  match tracerBufLoad flash (readable slot) slot with
  | some b => if written slot then marked b else slotOf flash slot
  | none => slotOf flash slot

theorem load_congr {flash flash' : Nat → TracerBuf} {slot : Nat} (same : slotOf flash slot = slotOf flash' slot)
    (readable : Bool) : tracerBufLoad flash readable slot = tracerBufLoad flash' readable slot := by
  unfold slotOf at same
  unfold tracerBufLoad
  rw [same]

theorem markSlot_congr {flash flash' : Nat → TracerBuf} {slot : Nat} (readable written : Nat → Bool)
    (same : slotOf flash slot = slotOf flash' slot) :
    markSlot readable written flash slot = markSlot readable written flash' slot := by
  rw [markSlot,markSlot,load_congr same,same]

-- One round of the loop.
def deliverOne (readable written : Nat → Bool) (s : Statics) : Statics :=
  {s with
    flash := match tracerBufLoad s.flash (readable s.lastUndelivered) s.lastUndelivered with
      | some b =>
        (tracerBufSave s.flash (written s.lastUndelivered) s.lastUndelivered
          {b with flags := b.flags ||| tracerFlagDelivered}).2
      | none => s.flash
    lastUndelivered := bufIncPtr s.lastUndelivered}

theorem deliver_succ (readable written : Nat → Bool) (rounds : Nat) (s : Statics) :
    deliver readable written (rounds + 1) s =
      if s.lastUndelivered = s.readPtr then s else deliver readable written rounds (deliverOne readable written s) := rfl

theorem save_failed (flash : Nat → TracerBuf) (slot : Nat) (b : TracerBuf) :
    tracerBufSave flash false slot b = (false,flash) := by
  unfold tracerBufSave
  split <;> rfl

theorem deliverOne_slot (readable written : Nat → Bool) {s : Statics} (inside : s.lastUndelivered < bufStoreLimit) :
    slotOf (deliverOne readable written s).flash =
      Function.update (slotOf s.flash) s.lastUndelivered (markSlot readable written s.flash s.lastUndelivered) := by
  have untouched : Function.update (slotOf s.flash) s.lastUndelivered (slotOf s.flash s.lastUndelivered) =
      slotOf s.flash := Function.update_eq_self _ _
  unfold deliverOne markSlot
  dsimp only
  cases tracerBufLoad s.flash (readable s.lastUndelivered) s.lastUndelivered with
  | none => exact untouched.symm
  | some b =>
    cases written s.lastUndelivered with
    | false =>
      dsimp only
      rw [save_failed,if_neg (by simp)]
      exact untouched.symm
    | true =>
      dsimp only
      rw [save_slot s.flash inside,if_pos rfl]
      exact slotOf_update s.flash _ _

theorem deliver_spec (readable written : Nat → Bool) (rounds : Nat) (s : Statics)
    (lastIn : s.lastUndelivered < bufStoreLimit) (readIn : s.readPtr < bufStoreLimit)
    (enough : (Ring.window bufStoreLimit s.lastUndelivered s.readPtr).length ≤ rounds) :
    ∃ flash, deliver readable written rounds s = {s with flash := flash, lastUndelivered := s.readPtr} ∧
      ∀ j, slotOf flash j = if j ∈ Ring.window bufStoreLimit s.lastUndelivered s.readPtr then
        markSlot readable written s.flash j else slotOf s.flash j := by
  have settled {t : Statics} (same : t.lastUndelivered = t.readPtr) : t = {t with lastUndelivered := t.readPtr} := by
    cases t with
    | mk buffer last => exact congrArg (Statics.mk buffer) same
  induction rounds generalizing s with
  | zero =>
    have none := List.eq_nil_of_length_eq_zero (Nat.le_zero.mp enough)
    have done : s.lastUndelivered = s.readPtr := by
      by_contra distinct
      rw [Ring.window_pop lastIn readIn distinct] at none
      exact absurd none (by simp)
    refine ⟨s.flash,settled done,fun j => ?_⟩
    rw [none,if_neg List.not_mem_nil]
  | succ rounds ih =>
    rw [deliver_succ]
    by_cases done : s.lastUndelivered = s.readPtr
    · rw [if_pos done]
      refine ⟨s.flash,settled done,fun j => ?_⟩
      rw [done,Ring.window_self,if_neg List.not_mem_nil]
    · rw [if_neg done]
      have pop := Ring.window_pop lastIn readIn done
      have distinct := Ring.window_nodup lastIn readIn
      have nextIn := bufIncPtr_lt lastIn
      rw [← bufIncPtr_eq lastIn] at pop
      rw [pop] at enough distinct ⊢
      obtain ⟨flash,ran,slots⟩ := ih (deliverOne readable written s) nextIn readIn (by
        rw [List.length_cons] at enough
        exact Nat.le_of_succ_le_succ enough)
      refine ⟨flash,ran,fun j => (slots j).trans ?_⟩
      change (if j ∈ Ring.window bufStoreLimit (bufIncPtr s.lastUndelivered) s.readPtr then _ else _) = _
      have here := deliverOne_slot readable written lastIn
      by_cases first : j = s.lastUndelivered
      · subst first
        rw [if_neg (List.nodup_cons.mp distinct).1,if_pos List.mem_cons_self,here,Function.update_self]
      · have same : slotOf (deliverOne readable written s).flash j = slotOf s.flash j := by
          rw [here,Function.update_of_ne first]
        by_cases later : j ∈ Ring.window bufStoreLimit (bufIncPtr s.lastUndelivered) s.readPtr
        · rw [if_pos later,if_pos (List.mem_cons_of_mem _ later)]
          exact markSlot_congr readable written same
        · rw [if_neg later,if_neg (by simp [first,later]),same]

end Marks

/-- The points with their flags after the first `d` have been delivered. -/
def marks (d : Nat) (stored : List TracerBuf) : List TracerBuf :=
  stored.mapIdx fun i b => if i < d then marked b else b

/-- Point `i` is in the ring without the delivered flag. -/
def waits (h : History) (i : Nat) : Bool :=
  decide (i < h.stored.length) && decide (h.stored.length ≤ i + bufStoreLimit) &&
    undelivered (slotOf h.ring.flash (i % bufStoreLimit))

def undeliveredCount (h : History) : Nat := (List.range h.stored.length).countP (waits h)

/-- After the step fewer points are undelivered than the ring holds. -/
def Fewer (h : History) (input : Input) : Prop := undeliveredCount (step h input) < bufStoreLimit

/-- The restart goes on with the oldest undelivered point, and with the last info word. -/
structure RecoversRead (h : History) (r : Initialised) : Prop where
  oldest : ∀ i, waits h i = true → (∀ k, waits h k = true → i ≤ k) → r.ring.readPtr = i % bufStoreLimit
  done : (∀ i, waits h i = false) → r.ring.readPtr = h.stored.length % bufStoreLimit
  info : ∀ b, h.stored.getLast? = some b → r.info = b.info
  returned : ∀ allocs, Often allocs → ∀ i, waits h i = true → ∃ calls,
    nthRead allocs (fun _ => true) r.ring.toBuffer calls =
      some (i % bufStoreLimit,slotOf h.ring.flash (i % bufStoreLimit))
  empty : tracerBufEmpty r.ring.toBuffer = true → ∀ i, waits h i = false

def ReadRecovered (h : History) : Prop :=
  ∀ alloc, (restart h alloc).result = true → RecoversRead h (restart h alloc)

/-- The newest record is not in slot 0, or nothing of what the search skips there is missed. -/
def Probed (h : History) : Prop :=
  newestSlot h.stored.length ≠ 0 ∨ h.stored = [] ∨
    (slotOf h.ring.flash 0).info = 0 ∧ undelivered (slotOf h.ring.flash 0) = false

/-- The points before `d` are delivered, those before `rd` have been read. -/
structure Inv (flash : Nat → TracerBuf) (h : History) (d rd : Nat) : Prop where
  save : h.ring.savePtr = h.stored.length % bufStoreLimit
  read : h.ring.readPtr = rd % bufStoreLimit
  last : h.ring.lastUndelivered = d % bufStoreLimit
  ordered : d ≤ rd
  behind : rd ≤ h.stored.length
  near : h.stored.length < d + bufStoreLimit
  contents : Contents flash h.ring.flash (marks d h.stored)
  intact : ∀ b ∈ h.stored, b.chsum = tracerBufChecksum b
  plain : ∀ b ∈ h.stored, undelivered b = true

section Marked

theorem marks_length (d : Nat) (stored : List TracerBuf) : (marks d stored).length = stored.length :=
  List.length_mapIdx

theorem marks_get (d : Nat) (stored : List TracerBuf) (i : Nat) (bound : i < (marks d stored).length) :
    (marks d stored)[i] = if i < d then marked (stored.get ⟨i,marks_length d stored ▸ bound⟩)
      else stored.get ⟨i,marks_length d stored ▸ bound⟩ := List.getElem_mapIdx

theorem marks_concat {d : Nat} {stored : List TracerBuf} (before : d ≤ stored.length) (b : TracerBuf) :
    marks d (stored ++ [b]) = marks d stored ++ [b] := by
  rw [marks,List.mapIdx_concat,if_neg (Nat.not_lt.mpr before)]
  rfl

theorem marked_delivered (b : TracerBuf) : undelivered (marked b) = false := by
  have absorb : (b.flags ||| tracerFlagDelivered) &&& tracerFlagDelivered = tracerFlagDelivered := by
    apply UInt8.toBitVec_inj.mp
    rw [UInt8.toBitVec_and,UInt8.toBitVec_or]
    ext i bound
    rw [BitVec.getElem_and,BitVec.getElem_or]
    cases tracerFlagDelivered.toBitVec[i] <;> simp
  rw [undelivered,marked,TracerBuf.sealed,absorb]
  decide

theorem record_undelivered (p : Point) : undelivered p.record = true :=
  decide_eq_true (pointFlags_undelivered p.valid p.last)

end Marked

section Waiting

variable {flash : Nat → TracerBuf} {h : History} {d rd : Nat}

theorem waits_iff (contents : Contents flash h.ring.flash (marks d h.stored))
    (plain : ∀ b ∈ h.stored, undelivered b = true) (near : h.stored.length ≤ d + bufStoreLimit) (i : Nat) :
    waits h i = true ↔ d ≤ i ∧ i < h.stored.length := by
  rw [waits,Bool.and_eq_true,Bool.and_eq_true,decide_eq_true_iff,decide_eq_true_iff]
  constructor
  · rintro ⟨⟨bound,recent⟩,left⟩
    refine ⟨?_,bound⟩
    by_contra before
    rw [contents.ring.live i (by rwa [marks_length]) (by rwa [marks_length]),marks_get,if_pos (by omega),
      marked_delivered] at left
    exact absurd left (by simp)
  · rintro ⟨after,bound⟩
    refine ⟨⟨bound,by omega⟩,?_⟩
    rw [contents.ring.live i (by rwa [marks_length]) (by rw [marks_length]; omega),marks_get,if_neg (by omega)]
    exact plain _ (List.getElem_mem bound)

theorem countP_from (n d : Nat) : (List.range n).countP (fun i => decide (d ≤ i)) = n - d := by
  induction n with
  | zero => rw [List.range_zero,List.countP_nil,Nat.zero_sub]
  | succ n ih =>
    rw [List.range_succ,List.countP_append,ih,List.countP_singleton]
    by_cases after : d ≤ n
    · rw [if_pos (decide_eq_true after),Nat.sub_add_comm after]
    · rw [if_neg (by simpa using after)]
      omega

theorem undeliveredCount_eq (contents : Contents flash h.ring.flash (marks d h.stored))
    (plain : ∀ b ∈ h.stored, undelivered b = true) (near : h.stored.length ≤ d + bufStoreLimit) :
    undeliveredCount h = h.stored.length - d := by
  rw [undeliveredCount,← countP_from]
  apply List.countP_congr
  intro i member
  rw [waits_iff contents plain near i,decide_eq_true_iff]
  exact and_iff_left (List.mem_range.mp member)

end Waiting

section Steps

variable {flash : Nat → TracerBuf} {h : History} {d rd : Nat}

theorem start_inv (flash : Nat → TracerBuf) : Inv flash (start flash) 0 0 where
  save := rfl
  read := rfl
  last := rfl
  ordered := Nat.le_refl 0
  behind := Nat.le_refl 0
  near := (by decide : 0 < 0 + bufStoreLimit)
  contents := Contents.start flash
  intact _ member := absurd member List.not_mem_nil
  plain _ member := absurd member List.not_mem_nil

theorem store_inv (inv : Inv flash h d rd) (p : Point) (fewer : Fewer h (.store p)) :
    Inv flash (step h (.store p)) d rd := by
  unfold Fewer at fewer
  rw [store_eq h p inv.save] at fewer ⊢
  cases granted : p.alloc with
  | false => exact inv
  | true =>
    rw [granted,if_pos rfl] at fewer
    rw [if_pos rfl]
    have before : d ≤ h.stored.length := Nat.le_trans inv.ordered inv.behind
    have contents := inv.contents.push (sealed_intact ⟨p.track,p.point,p.position,p.info,p.flags,0⟩)
    rw [← marks_concat before,marks_length] at contents
    have intact : ∀ b ∈ h.stored ++ [p.record], b.chsum = tracerBufChecksum b := by
      intro b member
      rcases List.mem_append.mp member with old | new
      · exact inv.intact b old
      · rw [List.mem_singleton.mp new]
        exact sealed_intact _
    have plain : ∀ b ∈ h.stored ++ [p.record], undelivered b = true := by
      intro b member
      rcases List.mem_append.mp member with old | new
      · exact inv.plain b old
      · rw [List.mem_singleton.mp new]
        exact record_undelivered p
    have near := inv.near
    have longer : (h.stored ++ [p.record]).length = h.stored.length + 1 := by simp
    rw [undeliveredCount_eq (by exact contents) plain (by dsimp only; omega)] at fewer
    dsimp only at fewer
    refine ⟨?_,inv.read,inv.last,inv.ordered,?_,?_,contents,intact,plain⟩
    · dsimp only
      rw [longer]
    · exact Nat.le_trans inv.behind (by dsimp only; omega)
    · dsimp only
      omega

theorem read_inv (inv : Inv flash h d rd) (alloc readable : Bool) :
    ∃ rd', Inv flash (step h (.read alloc readable)) d rd' := by
  have pos : 0 < bufStoreLimit := by decide
  rw [step]
  rcases readNext_cases h.ring.toBuffer alloc readable with ⟨same,_⟩ | ⟨waiting,_,b,loaded,moved⟩
  · rw [same]
    exact ⟨rd,inv⟩
  · have ahead : rd < h.stored.length := by
      apply Nat.lt_of_le_of_ne inv.behind
      intro all
      exact waiting (by rw [inv.save,inv.read,all])
    rw [moved]
    refine ⟨rd + 1,inv.save,?_,inv.last,Nat.le_succ_of_le inv.ordered,ahead,inv.near,inv.contents,inv.intact,inv.plain⟩
    dsimp only
    rw [inv.read,bufIncPtr_eq (Nat.mod_lt _ pos),Ring.next_mod _ _ pos]

theorem deliver_contents {f f' : Nat → TracerBuf} {stored : List TracerBuf} (contents : Contents flash f (marks d stored))
    (intact : ∀ b ∈ stored, b.chsum = tracerBufChecksum b) (ordered : d ≤ rd) (behind : rd ≤ stored.length)
    (near : stored.length < d + bufStoreLimit)
    (slots : ∀ j, slotOf f' j = if j ∈ (List.range' d (rd - d)).map (· % bufStoreLimit) then
      markSlot (fun _ => true) (fun _ => true) f j else slotOf f j) :
    Contents flash f' (marks rd stored) := by
  have number {i k : Nat} (bound : i < stored.length) (recent : stored.length ≤ i + bufStoreLimit)
      (member : k ∈ List.range' d (rd - d)) (same : k % bufStoreLimit = i % bufStoreLimit) : k = i := by
    rw [List.mem_range'_1] at member
    rcases Nat.lt_trichotomy k i with before | equal | after
    · exact absurd same (Ring.mod_ne before (by omega))
    · exact equal
    · exact absurd same.symm (Ring.mod_ne after (by omega))
  refine ⟨⟨rfl,?_,?_⟩,?_⟩
  · intro i bound recent
    rw [marks_length] at bound recent
    have old := contents.ring.live i (by rwa [marks_length]) (by rwa [marks_length])
    have loaded := contents.load_live (by rwa [marks_length]) (by rwa [marks_length] : _ ≤ i + bufStoreLimit)
    rw [marks_get] at old loaded ⊢
    rw [slots]
    by_cases fresh : d ≤ i ∧ i < rd
    · have member : i % bufStoreLimit ∈ (List.range' d (rd - d)).map (· % bufStoreLimit) :=
        List.mem_map.mpr ⟨i,List.mem_range'_1.mpr (by omega),rfl⟩
      rw [if_neg (by omega)] at loaded
      rw [if_pos member,markSlot,← loadAll,loaded,if_pos fresh.2]
      rfl
    · have outside : i % bufStoreLimit ∉ (List.range' d (rd - d)).map (· % bufStoreLimit) := by
        intro found
        obtain ⟨k,member,same⟩ := List.mem_map.mp found
        rw [number bound recent member same] at member
        rw [List.mem_range'_1] at member
        omega
      rw [if_neg outside,old]
      by_cases before : i < d
      · rw [if_pos before,if_pos (by omega)]
      · rw [if_neg before,if_neg (by omega)]
  · intro j inside never
    rw [marks_length] at never
    have outside : j ∉ (List.range' d (rd - d)).map (· % bufStoreLimit) := by
      intro found
      obtain ⟨k,member,same⟩ := List.mem_map.mp found
      rw [List.mem_range'_1] at member
      rw [Nat.mod_eq_of_lt (by omega)] at same
      omega
    rw [slots,if_neg outside]
    exact contents.ring.fresh j inside (by rwa [marks_length])
  · intro b member
    obtain ⟨i,bound,rfl⟩ := List.mem_iff_getElem.mp member
    rw [marks_get]
    split
    · exact sealed_intact _
    · exact intact _ (List.getElem_mem _)

theorem delivered_inv (inv : Inv flash h d rd) (alloc : Bool) :
    ∃ d', Inv flash (step h (.delivered alloc)) d' rd := by
  have pos : 0 < bufStoreLimit := by decide
  cases alloc with
  | false => exact ⟨d,inv⟩
  | true =>
    have lastIn : h.ring.lastUndelivered < bufStoreLimit := by
      rw [inv.last]
      exact Nat.mod_lt _ pos
    have readIn : h.ring.readPtr < bufStoreLimit := by
      rw [inv.read]
      exact Nat.mod_lt _ pos
    have ordered := inv.ordered
    have behind := inv.behind
    have near := inv.near
    have window : Ring.window bufStoreLimit h.ring.lastUndelivered h.ring.readPtr =
        (List.range' d (rd - d)).map (· % bufStoreLimit) := by
      rw [inv.last,inv.read]
      exact Ring.window_mod pos ordered (by omega)
    have enough : (Ring.window bufStoreLimit h.ring.lastUndelivered h.ring.readPtr).length ≤ bufStoreLimit := by
      rw [Ring.window_length]
      exact Nat.le_of_lt (Ring.gap_lt lastIn readIn)
    obtain ⟨flash',ran,slots⟩ := deliver_spec (fun _ => true) (fun _ => true) bufStoreLimit h.ring lastIn readIn enough
    have stepped : step h (.delivered true) =
        {h with ring := {h.ring with flash := flash', lastUndelivered := h.ring.readPtr}} := by
      rw [step,tracerBufDeliveredAll,if_neg (by simp),ran]
    rw [stepped]
    rw [window] at slots
    exact ⟨rd,inv.save,inv.read,inv.read,Nat.le_refl rd,behind,by dsimp only; omega,
      deliver_contents inv.contents inv.intact ordered behind near slots,inv.intact,inv.plain⟩

theorem step_inv (inv : Inv flash h d rd) (input : Input) (fewer : Fewer h input) :
    ∃ d' rd', Inv flash (step h input) d' rd' := by
  cases input with
  | store p => exact ⟨d,rd,store_inv inv p fewer⟩
  | read alloc readable =>
    obtain ⟨rd',next⟩ := read_inv inv alloc readable
    exact ⟨d,rd',next⟩
  | delivered alloc =>
    obtain ⟨d',next⟩ := delivered_inv inv alloc
    exact ⟨d',rd,next⟩

theorem run_inv (flash : Nat → TracerBuf) (inputs : List Input)
    (fewer : Run.Admits step Fewer (start flash) inputs) :
    ∃ d rd, Inv flash (Run.run step (start flash) inputs) d rd :=
  Run.run_invariant step Fewer (fun h => ∃ d rd, Inv flash h d rd)
    (fun _ input ⟨_,_,inv⟩ allowed => step_inv inv input allowed) (start flash) inputs ⟨0,0,start_inv flash⟩ fewer

end Steps

theorem slotBack_newest {stored back : Nat} (back_le : back + 1 ≤ stored) (round : back < bufStoreLimit) :
    slotBack (newestSlot stored) back = (stored - 1 - back) % bufStoreLimit := by
  have limit : bufStoreLimit = 32768 := rfl
  rw [limit] at round
  rw [slotBack,newestSlot,limit]
  omega

theorem slotBack_blank {stored back : Nat} (some : 0 < stored) (beyond : stored ≤ back) (round : back < bufStoreLimit) :
    stored ≤ slotBack (newestSlot stored) back ∧ slotBack (newestSlot stored) back < bufStoreLimit := by
  have limit : bufStoreLimit = 32768 := rfl
  rw [limit] at round
  rw [slotBack,newestSlot,limit]
  omega

section Restart

variable {flash : Nat → TracerBuf} {h : History} {d rd : Nat}

/-- The test of the second search, by the numbers of the points. -/
theorem undeliveredAt_iff (inv : Inv flash h d rd) (empty : Blank flash) (lo : Nat) {back : Nat}
    (some : 0 < h.stored.length) (round : back < bufStoreLimit) :
    undeliveredAt (loadAll h.ring.flash) (newestSlot h.stored.length) lo back = true ↔
      back + 1 + d ≤ h.stored.length := by
  rw [undeliveredAt]
  by_cases beyond : h.stored.length ≤ back
  · obtain ⟨fresh,inside⟩ := slotBack_blank some beyond round
    rw [inv.contents.load_blank empty inside (by rwa [marks_length])]
    exact iff_of_false (by simp) (by omega)
  · rw [slotBack_newest (by omega) round,inv.contents.load_live (by rw [marks_length]; omega)
      (by rw [marks_length]; omega),marks_get]
    dsimp only
    by_cases before : h.stored.length - 1 - back < d
    · rw [if_pos before,marked_delivered]
      exact iff_of_false (by simp) (by omega)
    · rw [if_neg before]
      exact iff_of_true (inv.plain _ (List.getElem_mem _)) (by omega)

theorem search_undelivered (inv : Inv flash h d rd) (empty : Blank flash) (left : d < h.stored.length) :
    slotBack (newestSlot h.stored.length)
      (Bisection.search (undeliveredAt (loadAll h.ring.flash) (newestSlot h.stored.length)) 15 0) =
        d % bufStoreLimit := by
  have near := inv.near
  have some : 0 < h.stored.length := Nat.zero_lt_of_lt left
  have top : 0 + 2 ^ 15 = bufStoreLimit := rfl
  have oldest : Bisection.search (undeliveredAt (loadAll h.ring.flash) (newestSlot h.stored.length)) 15 0 =
      h.stored.length - 1 - d := by
    apply Bisection.search_eq (Nat.zero_le _) (by rw [top]; omega)
    · intro a p _ _ upto
      exact (undeliveredAt_iff inv empty a some (by omega)).mpr (by omega)
    · intro a p _ _ beyond inside
      rw [top] at inside
      exact Bool.eq_false_iff.mpr fun pass => absurd ((undeliveredAt_iff inv empty a some inside).mp pass) (by omega)
  have back : h.stored.length - 1 - (h.stored.length - 1 - d) = d := by omega
  rw [oldest,slotBack_newest (by omega) (by omega),back]

/-- What the restart finds once the first search has ended at the newest record. -/
theorem restart_found (inv : Inv flash h d rd) (empty : Blank flash) (some : 0 < h.stored.length)
    (ended : Bisection.search (newer (loadAll h.ring.flash)) 15 0 = newestSlot h.stored.length) :
    (newestSlot h.stored.length ≠ 0 → (restart h true).ring.readPtr = d % bufStoreLimit ∧
      (restart h true).info = (slotOf h.ring.flash (newestSlot h.stored.length)).info) ∧
    (d = h.stored.length → (restart h true).ring.readPtr = h.stored.length % bufStoreLimit) ∧
    (newestSlot h.stored.length = 0 → (restart h true).info = 0 ∧
      (restart h true).ring.readPtr = h.stored.length % bufStoreLimit) := by
  have length := marks_length d h.stored
  obtain ⟨first,_,loaded,_⟩ := inv.contents.load_slot (j := 0) (by decide) (by rwa [length])
  obtain ⟨b,held,there,slot⟩ := inv.contents.load_slot (newestSlot_lt h.stored.length)
    (Nat.lt_of_le_of_lt (Nat.mod_le _ _) (by omega))
  obtain ⟨save,⟨b',again,_,info⟩,none,zero⟩ := searchRecords_some loaded ended
  rw [there] at again
  cases again
  have position := (restart_save loaded ended).1
  rw [bufIncPtr_newest some] at position
  have unfound (invalid : (searchRecords (loadAll h.ring.flash)).lastUndelivered = ptrInvalid) :
      (restart h true).ring.readPtr = h.stored.length % bufStoreLimit := by
    rw [← position,restart_eq]
    dsimp only
    rw [if_pos invalid]
  have all (done : d = h.stored.length) : (restart h true).ring.readPtr = h.stored.length % bufStoreLimit := by
    apply unfound
    apply none
    intro j b' at_j
    have inside := load_inside at_j
    by_cases written : j < h.stored.length
    · obtain ⟨b'',number,same,_⟩ := inv.contents.load_slot inside (by rwa [length])
      rw [at_j] at same
      cases same
      obtain ⟨bound,rfl⟩ := List.getElem?_eq_some_iff.mp number
      rw [length] at bound
      rw [marks_get,if_pos (by omega),marked_delivered]
    · rw [inv.contents.load_blank empty inside (by rw [length]; omega)] at at_j
      exact absurd at_j (by simp)
  refine ⟨fun nonzero => ⟨?_,?_⟩,all,fun at_zero => ⟨?_,unfound (zero at_zero).2⟩⟩
  · rcases Nat.lt_or_eq_of_le (Nat.le_trans inv.ordered inv.behind) with left | done
    · have bottom := (undeliveredAt_iff inv empty 0 some (show 0 < bufStoreLimit by decide)).mpr (by omega)
      have here : slotBack (newestSlot h.stored.length) 0 = newestSlot h.stored.length := by
        rw [slotBack_newest some (by decide),newestSlot,Nat.sub_zero]
      rw [undeliveredAt,here,there] at bottom
      have last := (info nonzero).2 bottom
      rw [search_undelivered inv empty left] at last
      have valid : d % bufStoreLimit ≠ ptrInvalid := by
        have inside : d % bufStoreLimit < bufStoreLimit := Nat.mod_lt _ (by decide)
        exact fun same => absurd (same ▸ inside) (by decide)
      rw [restart_eq]
      dsimp only
      rw [last,if_neg valid]
    · rw [all done,done]
  · rw [slot,← (info nonzero).1,restart_eq]
  · rw [← (zero at_zero).1,restart_eq]

theorem unread_returned (inv : Inv flash h d rd) {s : Buffer} (same : s.flash = h.ring.flash)
    (read : s.readPtr = d % bufStoreLimit) (save : s.savePtr = h.stored.length % bufStoreLimit)
    {allocs : Nat → Bool} (often : Often allocs) {i : Nat} (after : d ≤ i) (bound : i < h.stored.length) :
    ∃ calls, nthRead allocs (fun _ => true) s calls =
      some (i % bufStoreLimit,slotOf h.ring.flash (i % bufStoreLimit)) := by
  have pos : 0 < bufStoreLimit := by decide
  have near := inv.near
  have inRing : InRing s := ⟨read ▸ Nat.mod_lt _ pos,save ▸ Nat.mod_lt _ pos⟩
  have loads (k : Nat) (late : d ≤ k) (inside : k < h.stored.length) : ∃ b,
      tracerBufLoad s.flash true (k % bufStoreLimit) = some b ∧ b = slotOf h.ring.flash (k % bufStoreLimit) := by
    rw [same]
    exact ⟨_,inv.contents.load_live (by rwa [marks_length]) (by rw [marks_length]; omega),
      (inv.contents.ring.live k (by rwa [marks_length]) (by rw [marks_length]; omega)).symm⟩
  have order : unread (afterReads allocs (fun _ => true) s 0) =
      (List.range' d (i - d)).map (· % bufStoreLimit) ++ i % bufStoreLimit ::
        (List.range' (i + 1) (h.stored.length - (i + 1))).map (· % bufStoreLimit) := by
    have split : List.range' d (h.stored.length - d) =
        List.range' d (i - d) ++ i :: List.range' (i + 1) (h.stored.length - (i + 1)) := by
      rw [← List.range'_succ,show i = d + (i - d) by omega,Nat.add_sub_cancel_left,List.range'_append_1]
      congr 1
      omega
    rw [afterReads,unread,read,save,Ring.window_mod pos (by omega) near,split,List.map_append,List.map_cons]
  obtain ⟨b,loaded,rfl⟩ := loads i after bound
  have before : ∀ j ∈ (List.range' d (i - d)).map (· % bufStoreLimit), Intact (fun _ => true) s.flash j := by
    intro j member
    obtain ⟨k,between,rfl⟩ := List.mem_map.mp member
    rw [List.mem_range'_1] at between
    obtain ⟨b,found,_⟩ := loads k (by omega) (by omega)
    exact Option.isSome_of_eq_some found
  obtain ⟨calls,returned,_⟩ := returned_of_intact inRing often order before loaded
  exact ⟨calls,returned⟩

theorem newest_info (inv : Inv flash h d rd) {b : TracerBuf} (newest : h.stored.getLast? = some b) :
    (slotOf h.ring.flash (newestSlot h.stored.length)).info = b.info := by
  have pos : 0 < bufStoreLimit := by decide
  rw [List.getLast?_eq_getElem?] at newest
  obtain ⟨bound,rfl⟩ := List.getElem?_eq_some_iff.mp newest
  rw [newestSlot,inv.contents.ring.live (h.stored.length - 1) (by rwa [marks_length]) (by rw [marks_length]; omega),
    marks_get]
  split <;> rfl

/-- The oldest undelivered point is behind the read index, if this and the counters are found. -/
theorem readRecovered_of (inv : Inv flash h d rd)
    (written : (restart h true).ring.savePtr = h.stored.length % bufStoreLimit)
    (read : (restart h true).ring.readPtr = d % bufStoreLimit)
    (info : ∀ b, h.stored.getLast? = some b → (restart h true).info = b.info) : ReadRecovered h := by
  have ordered := inv.ordered
  have behind := inv.behind
  have near := inv.near
  have waiting := waits_iff inv.contents inv.plain (Nat.le_of_lt near)
  have kept : (restart h true).ring.flash = h.ring.flash := by rw [restart_eq]
  intro alloc ok
  obtain rfl := restart_alloc ok
  refine ⟨?_,?_,info,?_,?_⟩
  · intro i left least
    have oldest := least d ((waiting d).mpr ⟨Nat.le_refl d,by have := (waiting i).mp left; omega⟩)
    rw [read,Nat.le_antisymm oldest ((waiting i).mp left).1]
  · intro none
    have done : d = h.stored.length := by
      by_contra left
      exact absurd ((waiting d).mpr ⟨Nat.le_refl d,by omega⟩) (by rw [none d]; simp)
    rw [read,done]
  · intro allocs often i left
    obtain ⟨after,bound⟩ := (waiting i).mp left
    exact unread_returned inv kept read written often after bound
  · intro exhausted i
    have same := of_decide_eq_true exhausted
    rw [read,written] at same
    rw [Bool.eq_false_iff]
    intro left
    obtain ⟨after,bound⟩ := (waiting i).mp left
    exact Ring.mod_ne (by omega) near same

/-- The newest point is delivered only where all are. -/
theorem Inv.all_delivered (inv : Inv flash h d rd) (some : 0 < h.stored.length)
    (delivered : undelivered (slotOf h.ring.flash (newestSlot h.stored.length)) = false) : d = h.stored.length := by
  have ordered := inv.ordered
  have behind := inv.behind
  have waiting := waits_iff inv.contents inv.plain (Nat.le_of_lt inv.near)
  by_contra left
  have waits := (waiting (h.stored.length - 1)).mpr (by omega)
  rw [TracerUndelivered.waits,← newestSlot,delivered,Bool.and_false] at waits
  exact absurd waits (by simp)

theorem readRecovered_iff (inv : Inv flash h d rd) (empty : Blank flash)
    (written : (restart h true).ring.savePtr = h.stored.length % bufStoreLimit) : ReadRecovered h ↔ Probed h := by
  have ordered := inv.ordered
  have behind := inv.behind
  have near := inv.near
  have recovers := readRecovered_of inv written
  rcases Nat.eq_zero_or_pos h.stored.length with none | some
  · have nothing := List.eq_nil_of_length_eq_zero none
    refine iff_of_true (recovers ?_ ?_) (Or.inr (Or.inl nothing))
    · have unloaded : loadAll h.ring.flash 0 = Option.none :=
        inv.contents.load_blank empty (by decide) (by rw [marks_length,none])
      have zero : d = 0 := by omega
      rw [restart_eq,searchRecords_none unloaded,zero]
      rfl
    · intro b newest
      rw [nothing] at newest
      exact absurd newest (by simp)
  · have ended : Bisection.search (newer (loadAll h.ring.flash)) 15 0 = newestSlot h.stored.length := by
      obtain ⟨first,_,loaded,_⟩ := inv.contents.load_slot (j := 0) (by decide) (by rwa [marks_length])
      have position := (restart_save loaded rfl).1
      rw [written,← bufIncPtr_newest some,bufIncPtr_eq (newestSlot_lt _),bufIncPtr_eq (search_inside _)] at position
      exact (Ring.next_inj position).symm
    obtain ⟨found,_,first⟩ := restart_found inv empty some ended
    by_cases zero : newestSlot h.stored.length = 0
    · obtain ⟨info,read⟩ := first zero
      constructor
      · intro recovered
        obtain ⟨b,newest⟩ := List.getLast?_isSome.mpr (List.ne_nil_of_length_pos some) |> Option.isSome_iff_exists.mp
        have recovery := recovered true (by rw [restart_eq])
        refine Or.inr (Or.inr ⟨?_,?_⟩)
        · rw [← zero,newest_info inv newest,← recovery.info b newest,info]
        · have missed := recovery.empty (decide_eq_true (read.trans written.symm)) (h.stored.length - 1)
          rwa [waits,decide_eq_true (by omega),decide_eq_true (by omega),Bool.and_self,Bool.true_and,← newestSlot,
            zero] at missed
      · rintro (nonzero | nothing | ⟨word,delivered⟩)
        · exact absurd zero nonzero
        · exact absurd nothing (List.ne_nil_of_length_pos some)
        · apply recovers
          · rw [read,inv.all_delivered some (by rwa [zero])]
          · intro b newest
            rw [info,← newest_info inv newest,zero,word]
    · obtain ⟨read,info⟩ := found zero
      refine iff_of_true (recovers read ?_) (Or.inl zero)
      intro b newest
      rw [info,newest_info inv newest]

end Restart

/-- In every history with room for the undelivered points, a restart that finds
the write position goes on with the oldest of them exactly when the newest record
is outside slot 0, or is delivered there and has the info word 0. -/
theorem init_read_iff (flash : Nat → TracerBuf) (empty : Blank flash) (inputs : List Input)
    (fewer : Run.Admits step Fewer (start flash) inputs)
    (written : (restart (Run.run step (start flash) inputs) true).ring.savePtr =
      (Run.run step (start flash) inputs).stored.length % bufStoreLimit) :
    ReadRecovered (Run.run step (start flash) inputs) ↔ Probed (Run.run step (start flash) inputs) := by
  obtain ⟨d,rd,inv⟩ := run_inv flash inputs fewer
  exact readRecovered_iff inv empty written

def points (n : Nat) : List Input := (List.replicate n onTrack).map Input.store

def firstPoint : List Input := points 1

theorem points_run (n : Nat) : ∃ ring, Run.run step (start erasedFlash) (points n) = ⟨ring,List.replicate n onTrack.record⟩ ∧
    Contents erasedFlash ring.flash (List.replicate n onTrack.record) := by
  obtain ⟨ring,ran,_,contents⟩ := stores_run (List.replicate n onTrack) (start erasedFlash) rfl (Contents.start erasedFlash)
  have stored : (start erasedFlash).stored ++ storedBy (List.replicate n onTrack) = List.replicate n onTrack.record := onTrack_stored n
  rw [stored] at ran contents
  exact ⟨ring,ran,contents⟩

theorem points_stored (n : Nat) : (Run.run step (start erasedFlash) (points n)).stored = List.replicate n onTrack.record := by
  obtain ⟨ring,ran,_⟩ := points_run n
  rw [ran]

theorem points_fewer {n : Nat} (few : n < bufStoreLimit) : Run.Admits step Fewer (start erasedFlash) (points n) := by
  induction n with
  | zero => trivial
  | succ n ih =>
    have last : points (n + 1) = points n ++ [.store onTrack] := by
      rw [points,List.replicate_succ',List.map_append,points]
      rfl
    have stored := points_stored (n + 1)
    rw [last,Run.run_append] at stored
    rw [last,Run.admits_append]
    refine ⟨ih (Nat.lt_of_succ_lt few),?_,trivial⟩
    have count := List.countP_le_length (p := waits (step (Run.run step (start erasedFlash) (points n)) (.store onTrack)))
      (l := List.range (step (Run.run step (start erasedFlash) (points n)) (.store onTrack)).stored.length)
    have length := congrArg List.length stored
    rw [List.length_replicate] at length
    rw [List.length_range] at count
    exact Nat.lt_of_le_of_lt (Nat.le_trans count (Nat.le_of_eq length)) few

theorem points_written {n : Nat} (few : n ≤ bufStoreLimit) : (restart (Run.run step (start erasedFlash) (points n)) true).ring.savePtr =
    (Run.run step (start erasedFlash) (points n)).stored.length % bufStoreLimit := by
  obtain ⟨ring,ran,contents⟩ := points_run n
  have recovered := writeRecovered_iff (h := ⟨ring,_⟩) contents erased_blank (onTrack_sorted n)
  have turned : (List.replicate n onTrack.record).length ≤ bufStoreLimit := by rwa [List.length_replicate]
  rw [ran]
  exact (recovered.mpr (Or.inl turned) true (by rw [restart_eq])).save

/-- A single undelivered point is in slot 0, and the restart takes the ring for empty. -/
theorem firstPoint_lost : Blank erasedFlash ∧ Run.Admits step Fewer (start erasedFlash) firstPoint ∧
    (restart (Run.run step (start erasedFlash) firstPoint) true).ring.savePtr =
      (Run.run step (start erasedFlash) firstPoint).stored.length % bufStoreLimit ∧
    ¬ ReadRecovered (Run.run step (start erasedFlash) firstPoint) := by
  have fewer := points_fewer (show 1 < bufStoreLimit by decide)
  have written := points_written (show 1 ≤ bufStoreLimit by decide)
  refine ⟨erased_blank,fewer,written,?_⟩
  obtain ⟨d,rd,inv⟩ := run_inv erasedFlash firstPoint fewer
  rw [readRecovered_iff inv erased_blank written,Probed,firstPoint,points_stored]
  rintro (nonzero | nothing | ⟨_,delivered⟩)
  · exact nonzero (by decide)
  · exact absurd nothing (by simp)
  · have slot : slotOf (Run.run step (start erasedFlash) (points 1)).ring.flash 0 = onTrack.record := by
      have once : points 1 = [.store onTrack] := rfl
      rw [once,Run.run_cons,store_eq _ onTrack rfl]
      rfl
    rw [slot,record_undelivered] at delivered
    exact absurd delivered (by simp)

/-- With a second point the restart goes on with the first. -/
theorem firstPoint_iff : ReadRecovered (Run.run step (start erasedFlash) (points 2)) ∧
    (ReadRecovered (Run.run step (start erasedFlash) firstPoint) ↔ Probed (Run.run step (start erasedFlash) firstPoint)) := by
  refine ⟨?_,init_read_iff erasedFlash erased_blank firstPoint (points_fewer (by decide)) (points_written (by decide))⟩
  apply (init_read_iff erasedFlash erased_blank (points 2) (points_fewer (by decide)) (points_written (by decide))).mpr
  rw [Probed,points_stored]
  exact Or.inl (by decide)

end JcaFirmware.TracerUndelivered
