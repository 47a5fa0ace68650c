import JcaFirmware.Foundation.Bisection
import JcaFirmware.TracerUpload

/-! Recovery of the tracer ring after a restart (`tracer_buf_init`): the save
index by one bisection over the track numbers, the read index by a second one
over the delivered flags. The flags are set by `tracer_buf_delivered_all`. -/
namespace JcaFirmware.TracerRecovery
open Foundation TracerBuffer TracerUpload

def tracerFlagDelivered : UInt8 := 1
def tracerFlagValid : UInt8 := 2
def tracerFlagLast : UInt8 := 4

def ptrInvalid : Nat := 0xFFFF

/-- The indices of the ring and the flash. -/
structure Statics extends Buffer where
  lastUndelivered : Nat

def undelivered (b : TracerBuf) : Bool := b.flags &&& tracerFlagDelivered = 0

/-- What the search for the newest record writes. -/
structure Newest where
  track : UInt16
  info : UInt32
  savePtr : Nat
  lastUndelivered : Nat

-- `while (i)`: the probe at `ptr`, then half the step up or down.
def searchNewest (load : Nat → Option TracerBuf) (i ptr : Nat) (s : Newest) : Newest :=
  if i = 0 then s
  else
    let i := i / 2
    let up := (ptr + i) % 2 ^ 16
    let down := (ptr + 2 ^ 16 - i) % 2 ^ 16
    match load ptr with
    | some b =>
      if s.track ≤ b.track then
        searchNewest load i up ⟨b.track,b.info,ptr,if undelivered b then ptr else s.lastUndelivered⟩
      else searchNewest load i down s
    | none => searchNewest load i down s
termination_by i

-- `ptr &= (BUF_STORE_LIMIT-1)`; the limit is a power of 2.
def maskPtr (ptr : Nat) : Nat := ptr % 2 ^ 16 % bufStoreLimit

def searchUndelivered (load : Nat → Option TracerBuf) (i ptr last : Nat) : Nat :=
  if i = 0 then last
  else
    let i := i / 2
    match load ptr with
    | some b =>
      if undelivered b then searchUndelivered load i (maskPtr (ptr + 2 ^ 16 - i)) ptr
      else searchUndelivered load i (maskPtr (ptr + i)) last
    | none => searchUndelivered load i (maskPtr (ptr + i)) last
termination_by i

def searchRecords (load : Nat → Option TracerBuf) : Newest :=
  match load 0 with
  | none => ⟨0,0,ptrInvalid,ptrInvalid⟩
  | some first =>
    let i := bufStoreLimit / 2
    let s := searchNewest load i i ⟨first.track,0,0,ptrInvalid⟩
    if s.lastUndelivered = ptrInvalid then s
    else {s with
      lastUndelivered := searchUndelivered load i (maskPtr (s.savePtr + 2 ^ 16 - i)) s.lastUndelivered}

/-- What `tracer_buf_init` returns, and writes through its pointers and to the indices. -/
structure Initialised where
  result : Bool
  track : UInt16
  info : UInt32
  ring : Statics

/-- `tracer_buf_init`; `readable` answers `flash_read_data` for each slot. -/
def tracerBufInit (s : Statics) (alloc : Bool) (readable : Nat → Bool) : Initialised :=
  if alloc = false then ⟨false,0,0,s⟩
  else
    let found := searchRecords fun slot => tracerBufLoad s.flash (readable slot) slot
    let save := if found.savePtr = ptrInvalid then 0 else bufIncPtr found.savePtr
    let last := if found.lastUndelivered = ptrInvalid then save else found.lastUndelivered
    ⟨true,found.track,found.info,{s with savePtr := save, lastUndelivered := last, readPtr := last}⟩

def marked (b : TracerBuf) : TracerBuf := TracerBuf.sealed {b with flags := b.flags ||| tracerFlagDelivered}

-- `while (buf_last_undelivered != buf_read_ptr)`, within the given rounds.
def deliver (readable written : Nat → Bool) : Nat → Statics → Statics
  | 0, s => s
  | rounds + 1, s =>
    if s.lastUndelivered = s.readPtr then s
    else
      let slot := s.lastUndelivered
      let flash := match tracerBufLoad s.flash (readable slot) slot with
        | some b =>
          (tracerBufSave s.flash (written slot) slot {b with flags := b.flags ||| tracerFlagDelivered}).2
        | none => s.flash
      deliver readable written rounds {s with flash := flash, lastUndelivered := bufIncPtr slot}

/-- `tracer_buf_delivered_all`: the limit's rounds lead past every slot. -/
def tracerBufDeliveredAll (s : Statics) (alloc : Bool) (readable written : Nat → Bool) : Bool × Statics :=
  if alloc = false then (false,s) else (true,deliver readable written bufStoreLimit s)

-- The rounds are the records left of the loop over `mem_id`.
def eraseLoop (written : Nat → Bool) : Nat → (Nat → TracerBuf) → Nat → TracerBuf
  | 0, flash => flash
  | rounds + 1, flash =>
    let slot := bufStoreLimit - (rounds + 1)
    if written slot then
      eraseLoop written rounds (Function.update flash (slot * saveGridSize) (erasedFlash slot))
    else flash

def tracerBufHardErase (s : Statics) (alloc : Bool) (written : Nat → Bool) : Bool × Statics :=
  if alloc = false then (false,s)
  else (true,{s with
    flash := eraseLoop written bufStoreLimit s.flash, savePtr := 0, lastUndelivered := 0, readPtr := 0})

section Searches

variable {load : Nat → Option TracerBuf}

/-- The test of the first search: the record loads, and its track is not before that at `lo`. -/
def newer (load : Nat → Option TracerBuf) (lo p : Nat) : Bool :=
  match load lo,load p with
  | some a,some b => a.track ≤ b.track
  | _,_ => false

theorem search_inside (test : Nat → Nat → Bool) : Bisection.search test 15 0 < bufStoreLimit :=
  Bisection.search_lt test 15 0

theorem searchNewest_stop (ptr : Nat) (s : Newest) : searchNewest load 0 ptr s = s := by
  rw [searchNewest,if_pos rfl]

theorem searchUndelivered_stop (ptr last : Nat) : searchUndelivered load 0 ptr last = last := by
  rw [searchUndelivered,if_pos rfl]

/-- The variables of the first search while `savePtr` is the best slot so far. -/
structure Tracks (load : Nat → Option TracerBuf) (s : Newest) : Prop where
  record : ∃ b, load s.savePtr = some b ∧ s.track = b.track ∧
    (s.savePtr ≠ 0 → s.info = b.info ∧ (undelivered b = true → s.lastUndelivered = s.savePtr))
  unmarked : s.lastUndelivered ≠ ptrInvalid → ∃ j b, load j = some b ∧ undelivered b = true
  untouched : s.savePtr = 0 → s.info = 0 ∧ s.lastUndelivered = ptrInvalid

theorem searchNewest_spec (k ptr : Nat) (s : Newest) (tracks : Tracks load s)
    (place : k ≠ 0 → ptr = s.savePtr + 2 ^ k / 2) (inside : s.savePtr + 2 ^ k ≤ bufStoreLimit) :
    Tracks load (searchNewest load (2 ^ k / 2) ptr s) ∧
      (searchNewest load (2 ^ k / 2) ptr s).savePtr = Bisection.search (newer load) k s.savePtr := by
  induction k generalizing ptr s with
  | zero =>
    rw [show 2 ^ 0 / 2 = 0 from rfl,searchNewest_stop]
    exact ⟨tracks,rfl⟩
  | succ k ih =>
    have width : 0 < 2 ^ k := Nat.two_pow_pos k
    have half : 2 ^ (k + 1) / 2 = 2 ^ k := by rw [Nat.pow_succ,Nat.mul_div_cancel _ (by decide)]
    have limit : bufStoreLimit < 2 ^ 16 := by decide
    rw [Nat.pow_succ] at inside
    have here : ptr = s.savePtr + 2 ^ k := by rw [place (Nat.succ_ne_zero k),half]
    obtain ⟨a,loaded,track,_⟩ := tracks.record
    have down (nonzero : k ≠ 0) : (ptr + 2 ^ 16 - 2 ^ k / 2) % 2 ^ 16 = s.savePtr + 2 ^ k / 2 := by
      obtain ⟨k,rfl⟩ := Nat.exists_eq_succ_of_ne_zero nonzero
      rw [Nat.pow_succ] at *
      omega
    have up : (ptr + 2 ^ k / 2) % 2 ^ 16 = ptr + 2 ^ k / 2 := Nat.mod_eq_of_lt (by omega)
    rw [half,searchNewest,if_neg (Nat.ne_of_gt width)]
    cases probed : load ptr with
    | none =>
      have fail : newer load s.savePtr (s.savePtr + 2 ^ k) = false := by
        rw [newer,loaded,← here,probed]
      rw [Bisection.search_fail fail]
      exact ih _ s tracks down (by omega)
    | some b =>
      have compared : newer load s.savePtr (s.savePtr + 2 ^ k) = decide (s.track ≤ b.track) := by
        rw [newer,loaded,← here,probed,track]
      dsimp only
      by_cases later : s.track ≤ b.track
      · rw [decide_eq_true later] at compared
        rw [if_pos later,Bisection.search_pass compared,← here]
        refine ih _ ⟨b.track,b.info,ptr,if undelivered b then ptr else s.lastUndelivered⟩ ⟨?_,?_,?_⟩
          (fun _ => up) (by dsimp only; omega)
        · exact ⟨b,probed,rfl,fun _ => ⟨rfl,fun kept => if_pos kept⟩⟩
        · intro found
          cases kept : undelivered b with
          | true => exact ⟨ptr,b,probed,kept⟩
          | false => exact tracks.unmarked (by simpa [kept] using found)
        · intro zero
          dsimp only at zero
          omega
      · rw [decide_eq_false later] at compared
        rw [if_neg later,Bisection.search_fail compared]
        exact ih _ s tracks down (by omega)

def slotBack (start back : Nat) : Nat := (start + bufStoreLimit - back) % bufStoreLimit

def undeliveredAt (load : Nat → Option TracerBuf) (start : Nat) (_ back : Nat) : Bool :=
  match load (slotBack start back) with
  | some b => undelivered b
  | none => false

theorem searchUndelivered_spec (load : Nat → Option TracerBuf) {start : Nat} (k lo ptr : Nat) (startIn : start < bufStoreLimit)
    (place : k ≠ 0 → ptr = slotBack start (lo + 2 ^ k / 2)) (inside : lo + 2 ^ k ≤ bufStoreLimit) :
    searchUndelivered load (2 ^ k / 2) ptr (slotBack start lo) =
      slotBack start (Bisection.search (undeliveredAt load start) k lo) := by
  induction k generalizing lo ptr with
  | zero => rw [show 2 ^ 0 / 2 = 0 from rfl,searchUndelivered_stop,Bisection.search]
  | succ k ih =>
    have width : 0 < 2 ^ k := Nat.two_pow_pos k
    have half : 2 ^ (k + 1) / 2 = 2 ^ k := by rw [Nat.pow_succ,Nat.mul_div_cancel _ (by decide)]
    have limit : bufStoreLimit = 32768 := rfl
    rw [Nat.pow_succ] at inside
    have here : ptr = slotBack start (lo + 2 ^ k) := by rw [place (Nat.succ_ne_zero k),half]
    have further : maskPtr (ptr + 2 ^ 16 - 2 ^ k / 2) = slotBack start (lo + 2 ^ k + 2 ^ k / 2) := by
      rw [here,maskPtr,slotBack,slotBack,limit]
      omega
    have nearer (nonzero : k ≠ 0) : maskPtr (ptr + 2 ^ k / 2) = slotBack start (lo + 2 ^ k / 2) := by
      obtain ⟨k,rfl⟩ := Nat.exists_eq_succ_of_ne_zero nonzero
      rw [Nat.pow_succ] at *
      rw [here,maskPtr,slotBack,slotBack,limit]
      omega
    rw [half,searchUndelivered,if_neg (Nat.ne_of_gt width)]
    cases probed : load ptr with
    | none =>
      have fail : undeliveredAt load start lo (lo + 2 ^ k) = false := by
        rw [undeliveredAt,← here,probed]
      rw [Bisection.search_fail fail]
      exact ih lo _ nearer (by omega)
    | some b =>
      have answer : undeliveredAt load start lo (lo + 2 ^ k) = undelivered b := by
        rw [undeliveredAt,← here,probed]
      dsimp only
      cases kept : undelivered b with
      | true =>
        rw [kept] at answer
        rw [Bisection.search_pass answer,if_pos rfl,further]
        have ended := ih (lo + 2 ^ k) _ (fun _ => rfl) (by omega)
        rwa [← here] at ended
      | false =>
        rw [kept] at answer
        rw [Bisection.search_fail answer,if_neg (by simp)]
        exact ih lo _ nearer (by omega)

theorem searchRecords_none (empty : load 0 = none) : searchRecords load = ⟨0,0,ptrInvalid,ptrInvalid⟩ := by
  rw [searchRecords,empty]

/-- What holds of the last undelivered slot so far and of every slot that loads
holds of the one found. -/
theorem searchNewest_last (found : Nat → Prop) (hit : ∀ j b, load j = some b → found j) (i ptr : Nat) (s : Newest)
    (last : found s.lastUndelivered) : found (searchNewest load i ptr s).lastUndelivered := by
  fun_induction searchNewest load i ptr s with
  | case1 ptr s => exact last
  | case2 i ptr s nonzero half up b probed later ih =>
    apply ih
    dsimp only
    split
    · exact hit ptr b probed
    · exact last
  | case3 i ptr s nonzero half down b probed older ih => exact ih last
  | case4 i ptr s nonzero half down failed ih => exact ih last

theorem searchUndelivered_last (found : Nat → Prop) (hit : ∀ j b, load j = some b → found j) (i ptr last : Nat)
    (start : found last) : found (searchUndelivered load i ptr last) := by
  fun_induction searchUndelivered load i ptr last with
  | case1 => exact start
  | case2 i ptr last nonzero half b probed kept ih => exact ih (hit ptr b probed)
  | case3 i ptr last nonzero half b probed gone ih => exact ih start
  | case4 i ptr last nonzero half failed ih => exact ih start

/-- Both searches together, from the slot `m` at which the first one ends. -/
theorem searchRecords_some {first : TracerBuf} {m : Nat} (loaded : load 0 = some first)
    (ended : Bisection.search (newer load) 15 0 = m) :
    (searchRecords load).savePtr = m ∧
    (∃ b, load m = some b ∧ (searchRecords load).track = b.track ∧
      (m ≠ 0 → (searchRecords load).info = b.info ∧ (undelivered b = true → (searchRecords load).lastUndelivered =
        slotBack m (Bisection.search (undeliveredAt load m) 15 0)))) ∧
    ((∀ j b, load j = some b → undelivered b = false) → (searchRecords load).lastUndelivered = ptrInvalid) ∧
    (m = 0 → (searchRecords load).info = 0 ∧ (searchRecords load).lastUndelivered = ptrInvalid) := by
  have half : bufStoreLimit / 2 = 2 ^ 15 / 2 := by decide
  have whole : 0 + 2 ^ 15 ≤ bufStoreLimit := by decide
  have inside : m < bufStoreLimit := ended ▸ search_inside (newer load)
  obtain ⟨tracks,save⟩ := searchNewest_spec 15 (2 ^ 15 / 2) ⟨first.track,0,0,ptrInvalid⟩
    ⟨⟨first,loaded,rfl,fun moved => absurd rfl moved⟩,fun found => absurd rfl found,fun _ => ⟨rfl,rfl⟩⟩ (fun _ => by simp) whole
  rw [ended] at save
  unfold searchRecords
  rw [loaded]
  dsimp only
  rw [half]
  generalize searchNewest load (2 ^ 15 / 2) (2 ^ 15 / 2) ⟨first.track,0,0,ptrInvalid⟩ = s at tracks save
  obtain ⟨b,kept,track,moved⟩ := tracks.record
  rw [save] at kept moved
  by_cases none : s.lastUndelivered = ptrInvalid
  · rw [if_pos none]
    refine ⟨save,⟨b,kept,track,fun nonzero => ⟨(moved nonzero).1,fun left => ?_⟩⟩,fun _ => none,fun zero => ?_⟩
    · have invalid : m = ptrInvalid := by rw [← (moved nonzero).2 left,none]
      rw [invalid] at inside
      exact absurd inside (by decide)
    · exact tracks.untouched (save.trans zero)
  · rw [if_neg none]
    refine ⟨save,⟨b,kept,track,fun nonzero => ⟨(moved nonzero).1,fun left => ?_⟩⟩,fun all => ?_,fun zero => ?_⟩
    · have here : slotBack m 0 = m := by
        rw [slotBack,Nat.sub_zero,Nat.add_mod_right,Nat.mod_eq_of_lt inside]
      have start : maskPtr (m + 2 ^ 16 - 2 ^ 15 / 2) = slotBack m (0 + 2 ^ 15 / 2) := by
        have limit : bufStoreLimit = 32768 := rfl
        rw [maskPtr,slotBack,limit]
        omega
      have found := searchUndelivered_spec load 15 0 _ inside (fun _ => start) (by decide)
      rw [here] at found
      dsimp only
      rw [save,(moved nonzero).2 left,found]
    · obtain ⟨j,b',at_j,left⟩ := tracks.unmarked none
      rw [all j b' at_j] at left
      exact absurd left (by simp)
    · exact absurd (tracks.untouched (save.trans zero)).2 none

theorem searchRecords_last (found : Nat → Prop) (hit : ∀ j b, load j = some b → found j) (invalid : found ptrInvalid) :
    found (searchRecords load).lastUndelivered := by
  unfold searchRecords
  cases load 0 with
  | none => exact invalid
  | some first =>
    have last := searchNewest_last found hit (bufStoreLimit / 2) (bufStoreLimit / 2) ⟨first.track,0,0,ptrInvalid⟩ invalid
    dsimp only
    split
    · exact last
    · exact searchUndelivered_last found hit _ _ _ last

end Searches

theorem load_inside {flash : Nat → TracerBuf} {readable : Bool} {j : Nat} {b : TracerBuf}
    (loaded : tracerBufLoad flash readable j = some b) : j < bufStoreLimit := by
  by_contra outside
  rw [tracerBufLoad,if_pos] at loaded
  · exact absurd loaded (by simp)
  · simp only [storageGpsRecordsSpace,saveGridSize,sizeofTracerBuf,bufStoreLimit] at outside ⊢
    omega

/-- Whatever is in the flash, the indices found are within the ring. -/
theorem tracerBufInit_inside (s : Statics) (alloc : Bool) (readable : Nat → Bool) (readIn : s.readPtr = s.lastUndelivered)
    (saveIn : s.savePtr < bufStoreLimit) (lastIn : s.lastUndelivered < bufStoreLimit) :
    (tracerBufInit s alloc readable).ring.flash = s.flash ∧
    (tracerBufInit s alloc readable).ring.readPtr = (tracerBufInit s alloc readable).ring.lastUndelivered ∧
    (tracerBufInit s alloc readable).ring.savePtr < bufStoreLimit ∧
    (tracerBufInit s alloc readable).ring.lastUndelivered < bufStoreLimit := by
  unfold tracerBufInit
  cases alloc with
  | false => exact ⟨rfl,readIn,saveIn,lastIn⟩
  | true =>
    rw [if_neg (by simp)]
    dsimp only
    have hit (j : Nat) (b : TracerBuf) (loaded : tracerBufLoad s.flash (readable j) j = some b) :
        j = ptrInvalid ∨ j < bufStoreLimit := Or.inr (load_inside loaded)
    have last := searchRecords_last (fun j => j = ptrInvalid ∨ j < bufStoreLimit) hit (Or.inl rfl)
    generalize searchRecords (fun slot => tracerBufLoad s.flash (readable slot) slot) = found at last
    have save : (if found.savePtr = ptrInvalid then 0 else bufIncPtr found.savePtr) < bufStoreLimit := by
      unfold bufIncPtr
      split_ifs <;> omega
    refine ⟨rfl,rfl,save,?_⟩
    split
    · exact save
    · exact last.resolve_left (by assumption)

/-- The flash of a ring into which `kept` has been written, over a flash without any record. -/
structure Contents (blank flash : Nat → TracerBuf) (kept : List TracerBuf) : Prop where
  ring : Ring.Holds bufStoreLimit (slotOf blank) (slotOf flash) (kept.length % bufStoreLimit) kept
  intact : ∀ b ∈ kept, b.chsum = tracerBufChecksum b

/-- No slot of the flash holds a record. -/
def Blank (flash : Nat → TracerBuf) : Prop :=
  ∀ j < bufStoreLimit, (slotOf flash j).chsum ≠ tracerBufChecksum (slotOf flash j)

def loadAll (flash : Nat → TracerBuf) (j : Nat) : Option TracerBuf := tracerBufLoad flash true j

/-- The number of the point in slot `j` after `n` stores. -/
def holder (n j : Nat) : Nat :=
  if j < n % bufStoreLimit then n / bufStoreLimit * bufStoreLimit + j
  else n / bufStoreLimit * bufStoreLimit + j - bufStoreLimit

theorem holder_spec {n j : Nat} (inside : j < bufStoreLimit) (written : j < n) :
    holder n j < n ∧ n ≤ holder n j + bufStoreLimit ∧ holder n j % bufStoreLimit = j := by
  have limit : bufStoreLimit = 32768 := rfl
  rw [limit] at inside
  rw [holder,limit]
  split <;> omega

section Recovered

variable {blank flash : Nat → TracerBuf} {kept : List TracerBuf}

theorem Contents.load_live (contents : Contents blank flash kept) {i : Nat} (bound : i < kept.length)
    (recent : kept.length ≤ i + bufStoreLimit) : loadAll flash (i % bufStoreLimit) = some kept[i] := by
  have slot := contents.ring.live i bound recent
  have intact := contents.intact kept[i] (List.getElem_mem bound)
  unfold slotOf at slot
  rw [loadAll,tracerBufLoad,if_neg (slot_fits (Nat.mod_lt i (by decide))),if_neg (by simp)]
  dsimp only
  rw [slot,if_neg (not_not.mpr intact)]

theorem Contents.load_blank (contents : Contents blank flash kept) (empty : Blank blank) {j : Nat}
    (inside : j < bufStoreLimit) (never : kept.length ≤ j) : loadAll flash j = none := by
  have slot := contents.ring.fresh j inside never
  have broken := empty j inside
  rw [← slot] at broken
  unfold slotOf at broken
  rw [loadAll,tracerBufLoad,if_neg (slot_fits inside),if_neg (by simp)]
  dsimp only
  rw [if_pos broken]

theorem Contents.load_slot (contents : Contents blank flash kept) {j : Nat} (inside : j < bufStoreLimit)
    (written : j < kept.length) :
    ∃ b, kept[holder kept.length j]? = some b ∧ loadAll flash j = some b ∧ slotOf flash j = b := by
  obtain ⟨bound,recent,place⟩ := holder_spec inside written
  refine ⟨kept[holder kept.length j],List.getElem?_eq_getElem bound,?_,?_⟩
  · rw [← contents.load_live bound recent,place]
  · rw [← contents.ring.live _ bound recent,place]

def Sorted (kept : List TracerBuf) : Prop := kept.Pairwise fun a b => a.track ≤ b.track

theorem Sorted.track_le (sorted : Sorted kept) {i k : Nat} (ordered : i ≤ k) {a b : TracerBuf}
    (first : kept[i]? = some a) (second : kept[k]? = some b) : a.track ≤ b.track := by
  obtain ⟨bound,rfl⟩ := List.getElem?_eq_some_iff.mp first
  obtain ⟨bound',rfl⟩ := List.getElem?_eq_some_iff.mp second
  rcases Nat.lt_or_eq_of_le ordered with before | same
  · exact List.pairwise_iff_getElem.mp sorted i k bound bound' before
  · simp only [same,UInt16.le_refl]

theorem newer_iff (contents : Contents blank flash kept) {lo p : Nat} (loIn : lo < bufStoreLimit)
    (pIn : p < bufStoreLimit) (loOld : lo < kept.length) (pOld : p < kept.length) :
    newer (loadAll flash) lo p = true ↔ (slotOf flash lo).track ≤ (slotOf flash p).track := by
  obtain ⟨a,_,loadedA,slotA⟩ := contents.load_slot loIn loOld
  obtain ⟨b,_,loadedB,slotB⟩ := contents.load_slot pIn pOld
  rw [newer,loadedA,loadedB,slotA,slotB]
  exact decide_eq_true_iff

theorem newer_later (contents : Contents blank flash kept) (sorted : Sorted kept) {lo p : Nat}
    (loIn : lo < bufStoreLimit) (pIn : p < bufStoreLimit) (loOld : lo < kept.length) (pOld : p < kept.length)
    (order : holder kept.length lo ≤ holder kept.length p) :
    (slotOf flash lo).track ≤ (slotOf flash p).track := by
  obtain ⟨a,heldA,_,slotA⟩ := contents.load_slot loIn loOld
  obtain ⟨b,heldB,_,slotB⟩ := contents.load_slot pIn pOld
  rw [slotA,slotB]
  exact sorted.track_le order heldA heldB

theorem newer_blank (contents : Contents blank flash kept) (empty : Blank blank) (lo : Nat) {p : Nat}
    (pIn : p < bufStoreLimit) (never : kept.length ≤ p) : newer (loadAll flash) lo p = false := by
  rw [newer,contents.load_blank empty pIn never]
  cases loadAll flash lo <;> rfl

/-- What the first search needs of a ring that has turned: the slots from the
write position on are a round older, and the first of them to be probed has an
older track than the slot it is compared with. -/
def Turns (flash : Nat → TracerBuf) (stored : Nat) : Prop :=
  stored ≤ bufStoreLimit ∨ stored % bufStoreLimit = 0 ∨
    let d := 2 ^ Nat.log2 (bufStoreLimit - stored % bufStoreLimit)
    (slotOf flash (bufStoreLimit - d)).track < (slotOf flash (bufStoreLimit - 2 * d)).track

def newestSlot (stored : Nat) : Nat := (stored - 1) % bufStoreLimit

theorem newest_eq {stored : Nat} (some : 0 < stored) : newestSlot stored =
    if stored % bufStoreLimit = 0 then bufStoreLimit - 1 else stored % bufStoreLimit - 1 := by
  have limit : bufStoreLimit = 32768 := rfl
  rw [newestSlot,limit]
  split <;> omega

theorem holder_mono {n i j : Nat} (ordered : i ≤ j) (upto : j < n % bufStoreLimit ∨ n % bufStoreLimit ≤ i) :
    holder n i ≤ holder n j := by
  have limit : bufStoreLimit = 32768 := rfl
  rw [limit] at upto
  rw [holder,holder,limit]
  split <;> split <;> omega

/-- A turned ring: the probes up to the newest slot pass, the others compare tracks a round apart. -/
theorem search_newest_turned (contents : Contents blank flash kept) (sorted : Sorted kept)
    (turned : bufStoreLimit < kept.length) (inner : kept.length % bufStoreLimit ≠ 0) :
    Bisection.search (newer (loadAll flash)) 15 0 = kept.length % bufStoreLimit - 1 ↔
      let d := 2 ^ Nat.log2 (bufStoreLimit - kept.length % bufStoreLimit)
      (slotOf flash (bufStoreLimit - d)).track < (slotOf flash (bufStoreLimit - 2 * d)).track := by
  have limit : bufStoreLimit = 32768 := rfl
  have writeIn : kept.length % bufStoreLimit < bufStoreLimit := Nat.mod_lt _ (by decide)
  generalize write : kept.length % bufStoreLimit = r at *
  have old (j : Nat) (inside : j < bufStoreLimit) : j < kept.length := Nat.lt_trans inside turned
  have low (a p : Nat) (_ : 0 ≤ a) (before : a < p) (upto : p ≤ r - 1) : newer (loadAll flash) a p = true := by
    apply (newer_iff contents (by omega) (by omega) (old a (by omega)) (old p (by omega))).mpr
    exact newer_later contents sorted (by omega) (by omega) (old a (by omega)) (old p (by omega))
      (holder_mono (Nat.le_of_lt before) (by omega))
  have left : r - 1 + (bufStoreLimit - r) + 1 = 0 + 2 ^ 15 := by
    rw [limit] at *
    omega
  have nonzero : bufStoreLimit - r ≠ 0 := by omega
  obtain ⟨least,most⟩ := (Nat.log2_eq_iff nonzero).mp rfl
  have overshoot := Bisection.search_overshoot (Nat.zero_le (r - 1)) left (by omega) low
  have top : 0 + 2 ^ 15 = bufStoreLimit := rfl
  generalize (bufStoreLimit - r).log2 = l at least most overshoot ⊢
  rw [top,Nat.pow_succ,Nat.mul_comm] at overshoot
  rw [Nat.pow_succ] at most
  have width : 0 < 2 ^ l := Nat.two_pow_pos l
  have halves : l < 15 := by
    apply (Nat.pow_lt_pow_iff_right (by decide : 1 < 2)).mp
    rw [← Nat.zero_add (2 ^ 15),top]
    omega
  have fits : 2 ^ (l + 1) ≤ 2 ^ 15 := Nat.pow_le_pow_right (by decide) halves
  rw [Nat.pow_succ,← Nat.zero_add (2 ^ 15),top] at fits
  have probe : bufStoreLimit - 2 * 2 ^ l + 2 ^ l = bufStoreLimit - 2 ^ l := by omega
  have compared := newer_iff contents (show bufStoreLimit - 2 * 2 ^ l < bufStoreLimit by omega)
    (show bufStoreLimit - 2 ^ l < bufStoreLimit by omega) (old _ (by omega)) (old _ (by omega))
  rw [overshoot]
  dsimp only
  by_cases older : (slotOf flash (bufStoreLimit - 2 ^ l)).track < (slotOf flash (bufStoreLimit - 2 * 2 ^ l)).track
  · -- The probe fails, and with it all between the newest slot and the probe.
    have fail : newer (loadAll flash) (bufStoreLimit - 2 * 2 ^ l) (bufStoreLimit - 2 * 2 ^ l + 2 ^ l) = false := by
      rw [probe]
      exact Bool.eq_false_iff.mpr fun pass => UInt16.not_le.mpr older (compared.mp pass)
    rw [Bisection.search_fail fail]
    refine iff_of_true ?_ older
    apply Bisection.search_eq (by omega) (by omega)
    · intro a q past
      exact low a q (Nat.zero_le a)
    · intro a q past before beyond inside
      have upper := newer_later contents sorted (show q < bufStoreLimit by omega)
        (show bufStoreLimit - 2 ^ l < bufStoreLimit by omega) (old q (by omega)) (old _ (by omega))
        (holder_mono (by omega) (by omega))
      have lower := newer_later contents sorted (show bufStoreLimit - 2 * 2 ^ l < bufStoreLimit by omega)
        (show a < bufStoreLimit by omega) (old _ (by omega)) (old a (by omega)) (holder_mono past (by omega))
      apply Bool.eq_false_iff.mpr
      intro pass
      have order := (newer_iff contents (by omega) (by omega) (old a (by omega)) (old q (by omega))).mp pass
      exact UInt16.not_le.mpr older (UInt16.le_trans lower (UInt16.le_trans order upper))
  · -- The probe passes, and the search never comes back to the newest slot.
    have pass : newer (loadAll flash) (bufStoreLimit - 2 * 2 ^ l) (bufStoreLimit - 2 * 2 ^ l + 2 ^ l) = true := by
      rw [probe]
      exact compared.mpr (UInt16.not_lt.mp older)
    rw [Bisection.search_pass pass,probe]
    refine iff_of_false (fun ended => ?_) older
    have far := Bisection.le_search (newer (loadAll flash)) l (bufStoreLimit - 2 ^ l)
    omega

/-- The first search ends at the newest record exactly when the ring has not
turned within a track as far as the probes can see. -/
theorem search_newest_iff (contents : Contents blank flash kept) (empty : Blank blank) (sorted : Sorted kept)
    (some : 0 < kept.length) :
    Bisection.search (newer (loadAll flash)) 15 0 = newestSlot kept.length ↔ Turns flash kept.length := by
  have limit : bufStoreLimit = 32768 := rfl
  have top : 0 + 2 ^ 15 = bufStoreLimit := rfl
  rw [newest_eq some]
  by_cases partly : kept.length < bufStoreLimit
  · -- Beyond the newest slot nothing loads.
    refine iff_of_true ?_ (Or.inl (Nat.le_of_lt partly))
    rw [Nat.mod_eq_of_lt partly,if_neg (Nat.ne_of_gt some)]
    apply Bisection.search_eq (Nat.zero_le _) (by rw [top]; omega)
    · intro a p _ before upto
      apply (newer_iff contents (by omega) (by omega) (by omega) (by omega)).mpr
      exact newer_later contents sorted (by omega) (by omega) (by omega) (by omega)
        (holder_mono (Nat.le_of_lt before) (by rw [Nat.mod_eq_of_lt partly]; omega))
    · intro a p _ _ beyond inside
      exact newer_blank contents empty a (by rwa [top] at inside) (by omega)
  · by_cases level : kept.length % bufStoreLimit = 0
    · -- The newest record is in the last slot, and the whole ring is in order.
      refine iff_of_true ?_ (Or.inr (Or.inl level))
      rw [if_pos level]
      apply Bisection.search_eq (Nat.zero_le _) (by rw [top]; omega)
      · intro a p _ before upto
        apply (newer_iff contents (by omega) (by omega) (by omega) (by omega)).mpr
        exact newer_later contents sorted (by omega) (by omega) (by omega) (by omega)
          (holder_mono (Nat.le_of_lt before) (by omega))
      · intro a p _ _ beyond inside
        rw [top] at inside
        omega
    · rw [if_neg level]
      have turned : bufStoreLimit < kept.length := by
        rw [limit] at *
        omega
      rw [search_newest_turned contents sorted turned level,Turns,or_iff_right (by omega),or_iff_right level]

end Recovered

/-- The flags `tracer_new_point` stores a point with. -/
def pointFlags (valid last : Bool) : UInt8 :=
  (if valid then tracerFlagValid else 0) ||| (if last then tracerFlagLast else 0)

theorem pointFlags_undelivered (valid last : Bool) : pointFlags valid last &&& tracerFlagDelivered = 0 := by
  cases valid <;> cases last <;> decide

/-- A call of `tracer_buf_store_position` by `tracer_new_point`. -/
structure Point where
  alloc : Bool
  position : Vector UInt8 22
  track : UInt16
  point : UInt16
  valid : Bool
  last : Bool
  info : UInt32

def Point.flags (p : Point) : UInt8 := pointFlags p.valid p.last

def Point.record (p : Point) : TracerBuf := TracerBuf.sealed ⟨p.track,p.point,p.position,p.info,p.flags,0⟩

/-- The ring, and the points stored into it. -/
structure History where
  ring : Statics
  stored : List TracerBuf

inductive Input
  | store (p : Point)
  | read (alloc readable : Bool)
  | delivered (alloc : Bool)

-- The flash takes every write, and answers `tracer_buf_delivered_all`.
def step (h : History) : Input → History
  | .store p =>
    let (ok,buffer) := tracerBufStorePosition h.ring.toBuffer p.alloc true p.position p.track p.point p.flags p.info
    ⟨{h.ring with toBuffer := buffer},if ok then h.stored ++ [p.record] else h.stored⟩
  | .read alloc readable =>
    let (_,buffer) := tracerBufReadNext h.ring.toBuffer alloc readable
    {h with ring := {h.ring with toBuffer := buffer}}
  | .delivered alloc => {h with ring := (tracerBufDeliveredAll h.ring alloc (fun _ => true) fun _ => true).2}

def start (flash : Nat → TracerBuf) : History := ⟨⟨⟨0,0,flash⟩,0⟩,[]⟩

def restart (h : History) (alloc : Bool) : Initialised := tracerBufInit h.ring alloc fun _ => true

/-- The next store goes behind the newest record and spares all but the oldest one. -/
structure RecoversWrite (h : History) (r : Initialised) : Prop where
  save : r.ring.savePtr = h.stored.length % bufStoreLimit
  track : ∀ b, h.stored.getLast? = some b → r.track = b.track
  spared : ∀ (p : Point) (written : Bool) (i : Nat) (bound : i < h.stored.length),
    h.stored.length < i + bufStoreLimit →
      slotOf (tracerBufStorePosition r.ring.toBuffer p.alloc written p.position p.track p.point p.flags p.info).2.flash
        (i % bufStoreLimit) = h.stored[i]

def WriteRecovered (h : History) : Prop :=
  ∀ alloc, (restart h alloc).result = true → RecoversWrite h (restart h alloc)

section Histories

variable {blank flash : Nat → TracerBuf} {kept : List TracerBuf}

theorem Contents.start (flash : Nat → TracerBuf) : Contents flash flash [] :=
  ⟨Ring.Holds.start bufStoreLimit (slotOf flash),fun _ member => absurd member List.not_mem_nil⟩

theorem Contents.push (contents : Contents blank flash kept) {b : TracerBuf} (intact : b.chsum = tracerBufChecksum b) :
    Contents blank (Function.update flash (kept.length % bufStoreLimit * saveGridSize) b) (kept ++ [b]) := by
  have pos : 0 < bufStoreLimit := by decide
  have ring := contents.ring.push pos b
  rw [← slotOf_update,Ring.next_mod _ _ pos] at ring
  refine ⟨?_,?_⟩
  · rw [List.length_append,List.length_singleton]
    exact ring
  · intro b' member
    rcases List.mem_append.mp member with old | new
    · exact contents.intact b' old
    · rwa [List.mem_singleton.mp new]

theorem store_eq (h : History) (p : Point) (save : h.ring.savePtr = h.stored.length % bufStoreLimit) :
    step h (.store p) = if p.alloc then
      ⟨{h.ring with
        flash := Function.update h.ring.flash (h.stored.length % bufStoreLimit * saveGridSize) p.record
        savePtr := (h.stored.length + 1) % bufStoreLimit},h.stored ++ [p.record]⟩
    else h := by
  have pos : 0 < bufStoreLimit := by decide
  have inside : h.ring.savePtr < bufStoreLimit := by
    rw [save]
    exact Nat.mod_lt _ pos
  rw [step]
  cases granted : p.alloc with
  | false => rfl
  | true =>
    simp only [tracerBufStorePosition,save_slot h.ring.flash inside,bufIncPtr_eq inside,Bool.true_eq_false,if_false,
      if_true]
    rw [save,Ring.next_mod _ _ pos]
    rfl

/-- What the calls store: a call without memory stores nothing. -/
def storedBy (points : List Point) : List TracerBuf := (points.filter Point.alloc).map Point.record

theorem stores_run (points : List Point) (h : History) (save : h.ring.savePtr = h.stored.length % bufStoreLimit)
    (contents : Contents blank h.ring.flash h.stored) :
    ∃ ring, Run.run step h (points.map Input.store) =
        ⟨ring,h.stored ++ storedBy points⟩ ∧
      ring.savePtr = (h.stored ++ storedBy points).length % bufStoreLimit ∧
      Contents blank ring.flash (h.stored ++ storedBy points) := by
  induction points generalizing h with
  | nil =>
    rw [show storedBy [] = [] from rfl,List.append_nil]
    exact ⟨h.ring,rfl,save,contents⟩
  | cons p points ih =>
    rw [List.map_cons,Run.run_cons,store_eq h p save]
    cases granted : p.alloc with
    | false =>
      rw [storedBy,List.filter_cons_of_neg (by simp [granted]),if_neg (by simp)]
      exact ih h save contents
    | true =>
      have more : h.stored ++ storedBy (p :: points) = h.stored ++ [p.record] ++ storedBy points := by
        rw [storedBy,List.filter_cons_of_pos granted,List.map_cons,List.append_cons,storedBy]
      rw [more,if_pos rfl]
      apply ih
      · rw [List.length_append,List.length_singleton]
      · exact contents.push (sealed_intact _)

end Histories

theorem restart_alloc {h : History} {alloc : Bool} (ok : (restart h alloc).result = true) : alloc = true := by
  cases alloc with
  | false => exact absurd ok (by simp [restart,tracerBufInit])
  | true => rfl

theorem restart_eq (h : History) : restart h true = ⟨true,(searchRecords (loadAll h.ring.flash)).track,
    (searchRecords (loadAll h.ring.flash)).info,
    let found := searchRecords (loadAll h.ring.flash)
    let save := if found.savePtr = ptrInvalid then 0 else bufIncPtr found.savePtr
    let last := if found.lastUndelivered = ptrInvalid then save else found.lastUndelivered
    {h.ring with savePtr := save, lastUndelivered := last, readPtr := last}⟩ := by
  rw [restart,tracerBufInit,if_neg (by simp)]
  rfl

theorem newestSlot_lt (stored : Nat) : newestSlot stored < bufStoreLimit := Nat.mod_lt _ (by decide)

theorem bufIncPtr_newest {stored : Nat} (some : 0 < stored) :
    bufIncPtr (newestSlot stored) = stored % bufStoreLimit := by
  have pos : 0 < bufStoreLimit := by decide
  rw [bufIncPtr_eq (newestSlot_lt stored),newestSlot,Ring.next_mod _ _ pos,Nat.sub_add_cancel some]

theorem restart_save {h : History} {first : TracerBuf} {m : Nat} (loaded : loadAll h.ring.flash 0 = some first)
    (ended : Bisection.search (newer (loadAll h.ring.flash)) 15 0 = m) :
    (restart h true).ring.savePtr = bufIncPtr m ∧
      ∃ b, loadAll h.ring.flash m = some b ∧ (restart h true).track = b.track := by
  obtain ⟨save,⟨b,kept,track,_⟩,_⟩ := searchRecords_some loaded ended
  have inside : m < bufStoreLimit := ended ▸ search_inside (newer (loadAll h.ring.flash))
  have valid : m ≠ ptrInvalid := fun same => absurd (same ▸ inside) (by decide)
  rw [restart_eq]
  refine ⟨?_,b,kept,track⟩
  dsimp only
  rw [save,if_neg valid]

theorem store_spares {blank : Nat → TracerBuf} {h : History} {r : Statics} (contents : Contents blank h.ring.flash h.stored)
    (flash : r.flash = h.ring.flash) (save : r.savePtr = h.stored.length % bufStoreLimit) (p : Point) (written : Bool)
    {i : Nat} (bound : i < h.stored.length) (recent : h.stored.length < i + bufStoreLimit) :
    slotOf (tracerBufStorePosition r.toBuffer p.alloc written p.position p.track p.point p.flags p.info).2.flash
      (i % bufStoreLimit) = h.stored[i] := by
  have kept := contents.ring.live i bound (Nat.le_of_lt recent)
  have apart := Ring.mod_ne bound recent
  rw [tracerBufStorePosition,tracerBufSave,save,if_neg (slot_fits (Nat.mod_lt _ (by decide)))]
  cases p.alloc with
  | false =>
    rw [← kept,← flash]
    rfl
  | true =>
    cases written with
    | false =>
      rw [← kept,← flash]
      rfl
    | true =>
      rw [if_neg (by simp),if_neg (by simp)]
      dsimp only
      rw [slotOf_update,Function.update_of_ne apart,flash,kept]

theorem writeRecovered_iff {blank : Nat → TracerBuf} {h : History} (contents : Contents blank h.ring.flash h.stored)
    (empty : Blank blank) (sorted : Sorted h.stored) : WriteRecovered h ↔ Turns h.ring.flash h.stored.length := by
  have pos : 0 < bufStoreLimit := by decide
  rcases Nat.eq_zero_or_pos h.stored.length with none | some
  · refine iff_of_true ?_ (Or.inl (by rw [none]; exact Nat.zero_le _))
    intro alloc ok
    obtain rfl := restart_alloc ok
    have unloaded : loadAll h.ring.flash 0 = Option.none := contents.load_blank empty pos (by rw [none])
    have save : (restart h true).ring.savePtr = h.stored.length % bufStoreLimit := by
      rw [restart_eq,searchRecords_none unloaded,none]
      rfl
    refine ⟨save,?_,?_⟩
    · intro b newest
      rw [List.eq_nil_of_length_eq_zero none] at newest
      exact absurd newest (by simp)
    · intro p written i bound
      omega
  · obtain ⟨first,_,loaded,_⟩ := contents.load_slot pos some
    rw [← search_newest_iff contents empty sorted some]
    obtain ⟨save,b,held,track⟩ := restart_save loaded rfl
    constructor
    · intro recovered
      have same := (recovered true (by rw [restart_eq])).save
      rw [save,← bufIncPtr_newest some,bufIncPtr_eq (newestSlot_lt _),bufIncPtr_eq (search_inside _)] at same
      exact Ring.next_inj same
    · intro ended alloc ok
      obtain rfl := restart_alloc ok
      rw [ended] at save held
      rw [bufIncPtr_newest some] at save
      refine ⟨save,?_,?_⟩
      · intro newest last
        have live := contents.load_live (i := h.stored.length - 1) (by omega) (by omega)
        rw [newestSlot,live] at held
        rw [List.getLast?_eq_getElem?,List.getElem?_eq_getElem (by omega)] at last
        rw [track,← Option.some.inj held,← Option.some.inj last]
      · intro p written i bound recent
        exact store_spares contents (by rw [restart_eq]) save p written bound recent

theorem storedBy_sorted {points : List Point} (ordered : points.Pairwise fun p q => p.track ≤ q.track) :
    Sorted (storedBy points) := by
  rw [Sorted,storedBy,List.pairwise_map]
  exact ordered.filter _

/-- After stores with tracks in order, a restart finds the write position exactly
when the ring has not turned within a track where the search looks. -/
theorem init_write_iff (flash : Nat → TracerBuf) (empty : Blank flash) (points : List Point)
    (ordered : points.Pairwise fun p q => p.track ≤ q.track) :
    WriteRecovered (Run.run step (start flash) (points.map Input.store)) ↔
      Turns (Run.run step (start flash) (points.map Input.store)).ring.flash
        (Run.run step (start flash) (points.map Input.store)).stored.length := by
  obtain ⟨ring,ran,save,contents⟩ := stores_run points (start flash) rfl (Contents.start flash)
  rw [ran]
  exact writeRecovered_iff contents empty (storedBy_sorted ordered)

theorem erased_blank : Blank erasedFlash := by
  intro j _
  rw [show slotOf erasedFlash j = erasedFlash 0 from rfl]
  decide

def onTrack : Point := ⟨true,Vector.replicate 22 0,1,1,true,false,0⟩

theorem onTrack_stored (n : Nat) : storedBy (List.replicate n onTrack) = List.replicate n onTrack.record := by
  rw [storedBy,List.filter_replicate_of_pos rfl,List.map_replicate]

theorem onTrack_sorted (n : Nat) : Sorted (List.replicate n onTrack.record) :=
  List.pairwise_replicate.mpr (Or.inr (UInt16.le_refl _))

/-- One track of 32769 points: the restart takes slot 32767 for the newest one. -/
theorem onTrack_lost : Blank erasedFlash ∧
    (List.replicate (bufStoreLimit + 1) onTrack).Pairwise (fun p q => p.track ≤ q.track) ∧
    ¬ WriteRecovered (Run.run step (start erasedFlash)
      ((List.replicate (bufStoreLimit + 1) onTrack).map Input.store)) := by
  refine ⟨erased_blank,List.pairwise_replicate.mpr (Or.inr (UInt16.le_refl _)),?_⟩
  obtain ⟨ring,ran,save,contents⟩ := stores_run (List.replicate (bufStoreLimit + 1) onTrack) (start erasedFlash) rfl
    (Contents.start erasedFlash)
  have stored : (start erasedFlash).stored ++ storedBy (List.replicate (bufStoreLimit + 1) onTrack) =
      List.replicate (bufStoreLimit + 1) onTrack.record := onTrack_stored _
  rw [stored] at ran contents
  have track (j : Nat) (inside : j < bufStoreLimit) : (slotOf ring.flash j).track = 1 := by
    obtain ⟨b,held,_,slot⟩ := contents.load_slot inside (by rw [List.length_replicate]; omega)
    rw [slot,List.eq_of_mem_replicate (List.mem_of_getElem? held)]
    rfl
  rw [ran,writeRecovered_iff contents erased_blank (onTrack_sorted _),Turns,List.length_replicate]
  rintro (small | level | older)
  · omega
  · exact absurd level (by decide)
  · dsimp only at older
    rw [track _ (by decide),track _ (by decide)] at older
    exact absurd older (by decide)

/-- With the next track in the slot where the ring turns, -/
def nextTrack : Point := {onTrack with track := 2}

def turning : List Point := List.replicate bufStoreLimit onTrack ++ [nextTrack]

theorem turning_stored : storedBy turning = List.replicate bufStoreLimit onTrack.record ++ [nextTrack.record] := by
  rw [turning,storedBy,List.filter_append,List.map_append,← storedBy,onTrack_stored]
  rfl

theorem turning_ordered : turning.Pairwise fun p q => p.track ≤ q.track := by
  refine List.pairwise_append.mpr ⟨List.pairwise_replicate.mpr (Or.inr (UInt16.le_refl _)),List.pairwise_singleton _ _,?_⟩
  intro p first q last
  rw [List.eq_of_mem_replicate first,List.mem_singleton.mp last]
  decide

/-- the restart finds it. -/
theorem onTrack_recovers : WriteRecovered (Run.run step (start erasedFlash) (turning.map Input.store)) := by
  apply (init_write_iff erasedFlash erased_blank turning turning_ordered).mpr
  obtain ⟨ring,ran,_,contents⟩ := stores_run turning (start erasedFlash) rfl (Contents.start erasedFlash)
  have stored : (start erasedFlash).stored ++ storedBy turning = List.replicate bufStoreLimit onTrack.record ++ [nextTrack.record] :=
    turning_stored
  have length : (List.replicate bufStoreLimit onTrack.record ++ [nextTrack.record]).length = bufStoreLimit + 1 := by
    rw [List.length_append,List.length_replicate,List.length_singleton]
  rw [stored] at ran contents
  have older : slotOf ring.flash 16384 = onTrack.record := by
    obtain ⟨b,held,_,slot⟩ := contents.load_slot (show 16384 < bufStoreLimit by decide) (by rw [length]; decide)
    rw [length,List.getElem?_append_left (by rw [List.length_replicate]; decide)] at held
    rw [slot,List.eq_of_mem_replicate (List.mem_of_getElem? held)]
  have newest : slotOf ring.flash 0 = nextTrack.record := by
    obtain ⟨b,held,_,slot⟩ := contents.load_slot (show 0 < bufStoreLimit by decide) (by rw [length]; decide)
    rw [length,List.getElem?_append_right (by rw [List.length_replicate]; decide),List.length_replicate] at held
    rw [slot]
    exact (Option.some.inj held).symm
  rw [ran]
  dsimp only
  rw [length]
  have probed : (slotOf ring.flash 16384).track < (slotOf ring.flash 0).track := by
    rw [older,newest]
    decide
  exact Or.inr (Or.inr probed)

end JcaFirmware.TracerRecovery
