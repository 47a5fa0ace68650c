import JcaFirmware.TracerBuffer

/-! Successive calls of `tracer_buf_read_next`. A slot that does not load is never
passed, so the calls return the records before the first such slot and no other. -/
namespace JcaFirmware.TracerUpload
open Foundation TracerBuffer

section Calls

variable (allocs readable : Nat → Bool)

/-- The ring after some calls; `allocs` answers the calls and `readable` the slots. -/
def afterReads (s : Buffer) : Nat → Buffer
  | 0 => s
  | calls + 1 =>
    let t := afterReads s calls
    (tracerBufReadNext t (allocs calls) (readable t.readPtr)).2

def nthRead (s : Buffer) (calls : Nat) : Option (Nat × TracerBuf) :=
  let t := afterReads allocs readable s calls
  (tracerBufReadNext t (allocs calls) (readable t.readPtr)).1

end Calls

/-- The record in the slot can be read and its checksum is right. -/
def Intact (readable : Nat → Bool) (flash : Nat → TracerBuf) (slot : Nat) : Prop :=
  (tracerBufLoad flash (readable slot) slot).isSome

def InRing (s : Buffer) : Prop := s.readPtr < bufStoreLimit ∧ s.savePtr < bufStoreLimit

def unread (s : Buffer) : List Nat := Ring.window bufStoreLimit s.readPtr s.savePtr

/-- The calls get their memory again and again. -/
def Often (allocs : Nat → Bool) : Prop := ∀ k, ∃ c, k ≤ c ∧ allocs c = true

theorem unread_cons {s : Buffer} (inRing : InRing s) (waiting : s.savePtr ≠ s.readPtr) :
    unread s = s.readPtr :: unread {s with readPtr := bufIncPtr s.readPtr} := by
  rw [unread,Ring.window_pop inRing.1 inRing.2 waiting.symm,← bufIncPtr_eq inRing.1]
  rfl

theorem unread_eq_cons {s : Buffer} (inRing : InRing s) {slot : Nat} {rest : List Nat}
    (order : unread s = slot :: rest) :
    s.savePtr ≠ s.readPtr ∧ s.readPtr = slot ∧ unread {s with readPtr := bufIncPtr s.readPtr} = rest := by
  have waiting : s.savePtr ≠ s.readPtr := by
    intro same
    rw [unread,same,Ring.window_self] at order
    exact absurd order (by simp)
  rw [unread_cons inRing waiting] at order
  exact ⟨waiting,List.cons.inj order⟩

theorem unread_nodup {s : Buffer} (inRing : InRing s) : (unread s).Nodup := Ring.window_nodup inRing.1 inRing.2

theorem bufIncPtr_lt {x : Nat} (inside : x < bufStoreLimit) : bufIncPtr x < bufStoreLimit := by
  rw [bufIncPtr_eq inside]
  exact Ring.next_lt inside

theorem readNext_cases (s : Buffer) (alloc readable : Bool) :
    (tracerBufReadNext s alloc readable = (none,s) ∧
      (s.savePtr = s.readPtr ∨ alloc = false ∨ tracerBufLoad s.flash readable s.readPtr = none)) ∨
    (s.savePtr ≠ s.readPtr ∧ alloc = true ∧ ∃ b, tracerBufLoad s.flash readable s.readPtr = some b ∧
      tracerBufReadNext s alloc readable = (some (s.readPtr,b),{s with readPtr := bufIncPtr s.readPtr})) := by
  unfold tracerBufReadNext
  split_ifs with empty failed
  · exact Or.inl ⟨rfl,Or.inl empty⟩
  · exact Or.inl ⟨rfl,Or.inr (Or.inl failed)⟩
  · cases loaded : tracerBufLoad s.flash readable s.readPtr with
    | none => exact Or.inl ⟨rfl,Or.inr (Or.inr rfl)⟩
    | some b => exact Or.inr ⟨empty,Bool.not_eq_false _ ▸ failed,b,rfl,rfl⟩

section Progress

variable {allocs readable : Nat → Bool} {s : Buffer}

theorem reads_cases (allocs readable : Nat → Bool) (s : Buffer) (calls : Nat) :
    (afterReads allocs readable s (calls + 1) = afterReads allocs readable s calls ∧
      nthRead allocs readable s calls = none) ∨
    ∃ t b, afterReads allocs readable s calls = t ∧ t.savePtr ≠ t.readPtr ∧
      tracerBufLoad t.flash (readable t.readPtr) t.readPtr = some b ∧
      nthRead allocs readable s calls = some (t.readPtr,b) ∧
      afterReads allocs readable s (calls + 1) = {t with readPtr := bufIncPtr t.readPtr} := by
  rw [afterReads,nthRead]
  generalize afterReads allocs readable s calls = t
  rcases readNext_cases t (allocs calls) (readable t.readPtr) with ⟨same,_⟩ | ⟨waiting,_,b,loaded,moved⟩
  · exact Or.inl ⟨by rw [same],by rw [same]⟩
  · exact Or.inr ⟨t,b,rfl,waiting,loaded,by rw [moved],by rw [moved]⟩

theorem afterReads_frame (allocs readable : Nat → Bool) (s : Buffer) (calls : Nat) :
    (afterReads allocs readable s calls).flash = s.flash ∧
    (afterReads allocs readable s calls).savePtr = s.savePtr := by
  induction calls with
  | zero => exact ⟨rfl,rfl⟩
  | succ calls ih =>
    rcases reads_cases allocs readable s calls with ⟨same,_⟩ | ⟨t,b,before,_,_,_,moved⟩
    · rw [same]
      exact ih
    · rw [moved,← before]
      exact ih

theorem afterReads_inRing (inRing : InRing s) (calls : Nat) : InRing (afterReads allocs readable s calls) := by
  induction calls with
  | zero => exact inRing
  | succ calls ih =>
    rcases reads_cases allocs readable s calls with ⟨same,_⟩ | ⟨t,b,before,_,_,_,moved⟩
    · rw [same]
      exact ih
    · rw [moved,← before]
      exact ⟨bufIncPtr_lt ih.1,ih.2⟩

/-- The next record, if intact, is returned as soon as a call gets its memory. -/
theorem reads_advance (inRing : InRing s) (often : Often allocs) {k slot : Nat} {rest : List Nat} {b : TracerBuf}
    (order : unread (afterReads allocs readable s k) = slot :: rest)
    (loaded : tracerBufLoad s.flash (readable slot) slot = some b) :
    ∃ c, nthRead allocs readable s c = some (slot,b) ∧ unread (afterReads allocs readable s (c + 1)) = rest := by
  obtain ⟨c,later,granted⟩ := often k
  obtain ⟨wait,rfl⟩ := Nat.exists_eq_add_of_le later
  induction wait generalizing k with
  | zero =>
    obtain ⟨waiting,here,after⟩ := unread_eq_cons (afterReads_inRing inRing k) order
    rw [← (afterReads_frame allocs readable s k).1,← here] at loaded
    rw [Nat.add_zero] at granted
    refine ⟨k,?_,?_⟩
    · rw [← here]
      simp [nthRead,tracerBufReadNext,waiting,granted,loaded]
    · rw [← after]
      simp [afterReads,tracerBufReadNext,waiting,granted,loaded]
  | succ wait ih =>
    rcases reads_cases allocs readable s k with ⟨same,_⟩ | ⟨t,b',before,_,found,returned,moved⟩
    · have shifted : k + 1 + wait = k + (wait + 1) := by omega
      exact ih (by rw [same,order]) (by omega) (by rw [shifted]; exact granted)
    · have at_t : InRing t := before ▸ afterReads_inRing inRing k
      rw [before] at order
      obtain ⟨_,here,after⟩ := unread_eq_cons at_t order
      rw [here,← before,(afterReads_frame allocs readable s k).1,loaded] at found
      cases found
      exact ⟨k,by rw [returned,here],by rw [moved,after]⟩

theorem returned_of_intact (inRing : InRing s) (often : Often allocs) {pre post : List Nat} {slot k : Nat}
    (order : unread (afterReads allocs readable s k) = pre ++ slot :: post)
    (before : ∀ i ∈ pre, Intact readable s.flash i) {b : TracerBuf}
    (loaded : tracerBufLoad s.flash (readable slot) slot = some b) :
    ∃ c, nthRead allocs readable s c = some (slot,b) ∧ unread (afterReads allocs readable s (c + 1)) = post := by
  induction pre generalizing k with
  | nil => exact reads_advance inRing often order loaded
  | cons i pre ih =>
    obtain ⟨b',first⟩ := Option.isSome_iff_exists.mp (before i (by simp))
    obtain ⟨c,_,rest⟩ := reads_advance inRing often order first
    exact ih rest fun i member => before i (List.mem_cons_of_mem _ member)

theorem reads_blocked (allocs : Nat → Bool) (inRing : InRing s) {pre post : List Nat} {bad : Nat} (order : unread s = pre ++ bad :: post)
    (broken : ¬ Intact readable s.flash bad) (calls : Nat) :
    ∃ left, unread (afterReads allocs readable s calls) = left ++ bad :: post := by
  induction calls with
  | zero => exact ⟨pre,order⟩
  | succ calls ih =>
    obtain ⟨left,ahead⟩ := ih
    rcases reads_cases allocs readable s calls with ⟨same,_⟩ | ⟨t,b,before,_,loaded,_,moved⟩
    · exact ⟨left,by rw [same,ahead]⟩
    · have at_t : InRing t := before ▸ afterReads_inRing inRing calls
      rw [before] at ahead
      cases left with
      | nil =>
        obtain ⟨_,here,_⟩ := unread_eq_cons at_t ahead
        refine absurd ?_ broken
        rw [Intact,← (afterReads_frame allocs readable s calls).1,before,← here,loaded]
        rfl
      | cons i left =>
        obtain ⟨_,_,rest⟩ := unread_eq_cons at_t ahead
        exact ⟨left,by rw [moved]; exact rest⟩

theorem not_returned (inRing : InRing s) {pre post : List Nat} {bad slot : Nat}
    (order : unread s = pre ++ bad :: post) (broken : ¬ Intact readable s.flash bad) (behind : slot ∈ post)
    (calls : Nat) (b : TracerBuf) : nthRead allocs readable s calls ≠ some (slot,b) := by
  intro returned
  rcases reads_cases allocs readable s calls with ⟨_,none⟩ | ⟨t,b',before,waiting,loaded,found,_⟩
  · rw [none] at returned
    exact absurd returned (by simp)
  · obtain ⟨left,ahead⟩ := reads_blocked allocs inRing order broken calls
    have at_t : InRing t := before ▸ afterReads_inRing inRing calls
    have distinct := unread_nodup at_t
    rw [found] at returned
    obtain ⟨here,_⟩ := Prod.mk.inj (Option.some.inj returned)
    rw [before] at ahead
    cases left with
    | nil =>
      rw [ahead] at distinct
      obtain ⟨_,same,_⟩ := unread_eq_cons at_t ahead
      rw [← here,same] at behind
      exact (List.nodup_cons.mp distinct).1 behind
    | cons i left =>
      rw [ahead] at distinct
      obtain ⟨_,same,_⟩ := unread_eq_cons at_t ahead
      rw [← here,same] at behind
      exact (List.nodup_cons.mp distinct).1 (by simp [behind])

/-- The calls return the record in the slot, if there is one, and go on to the next slot. -/
structure Uploaded (allocs readable : Nat → Bool) (s : Buffer) (slot : Nat) : Prop where
  returned : ∀ b, tracerBufLoad s.flash (readable slot) slot = some b → ∃ c, nthRead allocs readable s c = some (slot,b)
  passed : ∃ c, slot ∉ unread (afterReads allocs readable s c)

theorem uploaded_of_intact (inRing : InRing s) (often : Often allocs) {pre post : List Nat} {slot : Nat}
    (order : unread s = pre ++ slot :: post) (intact : ∀ i ∈ pre ++ [slot], Intact readable s.flash i) :
    Uploaded allocs readable s slot := by
  obtain ⟨b,loaded⟩ := Option.isSome_iff_exists.mp (intact slot (by simp))
  obtain ⟨c,returned,rest⟩ := returned_of_intact (k := 0) inRing often order
    (fun i member => intact i (List.mem_append_left _ member)) loaded
  refine ⟨fun b' loaded' => ⟨c,?_⟩,c + 1,?_⟩
  · rw [returned,← Option.some.inj (loaded.symm.trans loaded')]
  · have distinct := unread_nodup inRing
    rw [order] at distinct
    rw [rest]
    exact (List.nodup_cons.mp (List.nodup_append.mp distinct).2.1).1

/-- The slots that are passed are those before the first that does not load. -/
theorem uploaded_iff (inRing : InRing s) (often : Often allocs) {pre post : List Nat} {slot : Nat}
    (order : unread s = pre ++ slot :: post) :
    Uploaded allocs readable s slot ↔ ∀ i ∈ pre ++ [slot], Intact readable s.flash i := by
  refine ⟨fun uploaded bad member => ?_,uploaded_of_intact inRing often order⟩
  by_contra broken
  obtain ⟨c,passed⟩ := uploaded.passed
  apply passed
  rcases List.mem_append.mp member with before | here
  · obtain ⟨first,second,split⟩ := List.append_of_mem before
    have order' : unread s = first ++ bad :: (second ++ slot :: post) := by
      rw [order,split,List.append_assoc,List.cons_append]
    obtain ⟨left,ahead⟩ := reads_blocked allocs inRing order' broken c
    rw [ahead]
    simp
  · rw [List.mem_singleton.mp here] at broken
    obtain ⟨left,ahead⟩ := reads_blocked allocs inRing order broken c
    rw [ahead]
    simp

end Progress

/-- Every slot waiting in the ring is uploaded by calls that get their memory again and again. -/
def Served (readable : Nat → Bool) (s : Buffer) : Prop :=
  ∀ allocs, Often allocs → ∀ slot ∈ unread s, Uploaded allocs readable s slot

/-- `tracer_buf_read_next` serves the ring exactly when no slot waiting is unreadable or corrupt. -/
theorem served_iff (readable : Nat → Bool) (s : Buffer) (inRing : InRing s) :
    Served readable s ↔ ∀ slot ∈ unread s, Intact readable s.flash slot := by
  constructor
  · intro served slot member
    obtain ⟨pre,post,order⟩ := List.append_of_mem member
    have often : Often fun _ => true := fun k => ⟨k,Nat.le_refl k,rfl⟩
    have passed := (uploaded_iff inRing often order).mp (served _ often slot member)
    exact passed slot (by simp)
  · intro intact allocs often slot member
    obtain ⟨pre,post,order⟩ := List.append_of_mem member
    apply uploaded_of_intact inRing often order
    intro i near
    apply intact
    rw [order]
    rcases List.mem_append.mp near with before | here
    · exact List.mem_append_left _ before
    · exact List.mem_append_right _ (by simp [List.mem_singleton.mp here])

/-- Two points stored one after the other; the flash takes the first or refuses it. -/
def twoPoints (firstWritten : Bool) : Buffer :=
  let first := (tracerBufStorePosition ⟨0,0,erasedFlash⟩ true firstWritten (Vector.replicate 22 0) 1 1 0 0).2
  (tracerBufStorePosition first true true (Vector.replicate 22 0) 1 2 0 0).2

def writeFailed : Buffer := twoPoints false

theorem twoPoints_inRing (firstWritten : Bool) : InRing (twoPoints firstWritten) := by
  cases firstWritten <;> exact ⟨by decide,by decide⟩

theorem twoPoints_unread (firstWritten : Bool) : unread (twoPoints firstWritten) = [0,1] := by
  cases firstWritten <;> decide

theorem twoPoints_intact : ∀ slot ∈ unread (twoPoints true), Intact (fun _ => true) (twoPoints true).flash slot := by
  rw [twoPoints_unread]
  unfold Intact
  decide

theorem writeFailed_broken : ¬ Intact (fun _ => true) writeFailed.flash 0 := by
  unfold Intact
  decide

theorem writeFailed_stays : Intact (fun _ => true) writeFailed.flash 1 ∧ ¬ Served (fun _ => true) writeFailed ∧
    ∀ allocs c b, nthRead allocs (fun _ => true) writeFailed c ≠ some (1,b) := by
  refine ⟨by unfold Intact; decide,fun served => ?_,fun allocs c b => ?_⟩
  · have first : 0 ∈ unread writeFailed := by rw [writeFailed,twoPoints_unread]; simp
    exact writeFailed_broken ((served_iff _ _ (twoPoints_inRing false)).mp served 0 first)
  · have order : unread writeFailed = [] ++ 0 :: [1] := twoPoints_unread false
    exact not_returned (twoPoints_inRing false) order writeFailed_broken (by simp) c b

theorem writeFailed_iff : Served (fun _ => true) (twoPoints true) ∧
    (Served (fun _ => true) writeFailed ↔ ∀ slot ∈ unread writeFailed, Intact (fun _ => true) writeFailed.flash slot) :=
  ⟨(served_iff (fun _ => true) (twoPoints true) (twoPoints_inRing true)).mpr twoPoints_intact,
    served_iff (fun _ => true) writeFailed (twoPoints_inRing false)⟩

end JcaFirmware.TracerUpload
