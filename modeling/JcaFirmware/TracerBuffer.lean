import JcaFirmware.Foundation.Ring
import JcaFirmware.Foundation.Run

/-! The ring of tracked points in external flash (`app/tracer/tracer_buffer.c`):
32768 records of 32 bytes with a checksum, a save and a read index. Allocation
and the flash may fail in each call. -/
namespace JcaFirmware.TracerBuffer
open Foundation

def storageGpsRecordsSpace : Nat := 1024 * 1024
def saveGridSize : Nat := 32
def sizeofTracerBuf : Nat := 32
def bufStoreLimit : Nat := 32768
def tracerBufVersion : UInt8 := 1

example : bufStoreLimit = storageGpsRecordsSpace / saveGridSize := by decide

/-- `tracer_buf_t`; the position is the packed `gps_stamp_t`, which is only copied here. -/
structure TracerBuf where
  track : UInt16
  point : UInt16
  position : Vector UInt8 22
  info : UInt32
  flags : UInt8
  chsum : UInt8
deriving DecidableEq, Repr

def TracerBuf.bytes (b : TracerBuf) : List UInt8 :=
  [b.track.toUInt8,(b.track >>> 8).toUInt8,b.point.toUInt8,(b.point >>> 8).toUInt8] ++ b.position.toList ++
    [b.info.toUInt8,(b.info >>> 8).toUInt8,(b.info >>> 16).toUInt8,(b.info >>> 24).toUInt8,b.flags]

def tracerBufChecksum (b : TracerBuf) : UInt8 :=
  b.bytes.zipIdx.foldl (fun chsum (byte,i) => chsum + ((byte ^^^ UInt8.ofNat i) + tracerBufVersion)) 0

def TracerBuf.sealed (b : TracerBuf) : TracerBuf := {b with chsum := tracerBufChecksum b}

/-- `buf_read_ptr`, `buf_save_ptr` and the flash by byte offset. -/
structure Buffer where
  readPtr : Nat
  savePtr : Nat
  flash : Nat → TracerBuf

def bufIncPtr (x : Nat) : Nat := if bufStoreLimit ≤ x + 1 then 0 else x + 1

/-- `tracer_buf_save`; `written` is the answer of `flash_write_data`. -/
def tracerBufSave (flash : Nat → TracerBuf) (written : Bool) (memId : Nat) (b : TracerBuf) :
    Bool × (Nat → TracerBuf) :=
  if storageGpsRecordsSpace < memId * saveGridSize + sizeofTracerBuf then (false,flash)
  else if written = false then (false,flash)
  else (true,Function.update flash (memId * saveGridSize) b.sealed)

/-- `tracer_buf_load`; `readable` is the answer of `flash_read_data`. -/
def tracerBufLoad (flash : Nat → TracerBuf) (readable : Bool) (memId : Nat) : Option TracerBuf :=
  if storageGpsRecordsSpace < memId * saveGridSize + sizeofTracerBuf then none
  else if readable = false then none
  else
    let b := flash (memId * saveGridSize)
    if b.chsum ≠ tracerBufChecksum b then none else some b

def tracerBufStorePosition (s : Buffer) (alloc written : Bool) (position : Vector UInt8 22) (track point : UInt16)
    (flags : UInt8) (info : UInt32) : Bool × Buffer :=
  if alloc = false then (false,s)
  else
    let (_,flash) := tracerBufSave s.flash written s.savePtr ⟨track,point,position,info,flags,0⟩
    (true,{s with flash := flash, savePtr := bufIncPtr s.savePtr})

/-- `tracer_buf_read_next`: the slot and the record, or -1 with nothing read. -/
def tracerBufReadNext (s : Buffer) (alloc readable : Bool) : Option (Nat × TracerBuf) × Buffer :=
  if s.savePtr = s.readPtr then (none,s)
  else if alloc = false then (none,s)
  else
    match tracerBufLoad s.flash readable s.readPtr with
    | none => (none,s)
    | some b => (some (s.readPtr,b),{s with readPtr := bufIncPtr s.readPtr})

def tracerBufEmpty (s : Buffer) : Bool := s.readPtr = s.savePtr

/-- The ring with the points stored so far, the number of the store that wrote
each slot last, and what the reads returned under these numbers. -/
structure State where
  buffer : Buffer
  stored : List TracerBuf
  owner : Nat → Nat
  reads : List (Nat × TracerBuf)

inductive Input
  | store (alloc : Bool) (position : Vector UInt8 22) (track point : UInt16) (flags : UInt8) (info : UInt32)
  | read (alloc readable : Bool)

-- Here the flash takes every write it is given.
def step (s : State) : Input → State
  | .store alloc position track point flags info =>
    let (ok,buffer) := tracerBufStorePosition s.buffer alloc true position track point flags info
    if ok then {s with
      buffer := buffer
      stored := s.stored ++ [TracerBuf.sealed ⟨track,point,position,info,flags,0⟩]
      owner := Function.update s.owner s.buffer.savePtr s.stored.length}
    else {s with buffer := buffer}
  | .read alloc readable =>
    let (result,buffer) := tracerBufReadNext s.buffer alloc readable
    match result with
    | some (slot,b) => {s with buffer := buffer, reads := s.reads ++ [(s.owner slot,b)]}
    | none => {s with buffer := buffer}

def start (flash : Nat → TracerBuf) : State := ⟨⟨0,0,flash⟩,[],fun _ => 0,[]⟩

def Survives (s : State) (i : Nat) : Prop := i < s.stored.length ∧ s.stored.length ≤ i + bufStoreLimit

def WasRead (s : State) (i : Nat) : Prop := i ∈ s.reads.map Prod.fst

/-- An empty ring hides nothing that survives; what is read is what was stored,
in this order and once, and a point passed over no longer survives. -/
structure Honest (s : State) : Prop where
  empty : tracerBufEmpty s.buffer = true → ∀ i, Survives s i → WasRead s i
  genuine : ∀ i b, (i,b) ∈ s.reads → s.stored[i]? = some b
  order : (s.reads.map Prod.fst).Pairwise (· < ·)
  passed : ∀ i j, i < j → WasRead s j → Survives s i → WasRead s i

/-- A store does not put the save index on the read index. -/
def Room (s : State) : Input → Prop
  | .store true .. => Ring.next bufStoreLimit s.buffer.savePtr ≠ s.buffer.readPtr
  | _ => True

def slotOf (flash : Nat → TracerBuf) (j : Nat) : TracerBuf := flash (j * saveGridSize)

/-- The numbers read are those from 0 on, and the stores are less than a round ahead. -/
structure Inv (flash : Nat → TracerBuf) (s : State) : Prop where
  save : s.buffer.savePtr = s.stored.length % bufStoreLimit
  ring : Ring.Holds bufStoreLimit (slotOf flash) (slotOf s.buffer.flash) (s.stored.length % bufStoreLimit) s.stored
  owner : Ring.Holds bufStoreLimit (fun _ => 0) s.owner (s.stored.length % bufStoreLimit)
    (List.range s.stored.length)
  intact : ∀ b ∈ s.stored, b.chsum = tracerBufChecksum b
  read : s.buffer.readPtr = s.reads.length % bufStoreLimit
  counted : s.reads.map Prod.fst = List.range s.reads.length
  behind : s.reads.length ≤ s.stored.length
  near : s.stored.length < s.reads.length + bufStoreLimit
  genuine : ∀ i b, (i,b) ∈ s.reads → s.stored[i]? = some b

theorem start_inv (flash : Nat → TracerBuf) : Inv flash (start flash) where
  save := rfl
  ring := Ring.Holds.start bufStoreLimit (slotOf flash)
  owner := Ring.Holds.start bufStoreLimit fun _ => 0
  intact _ member := absurd member List.not_mem_nil
  read := rfl
  counted := rfl
  behind := Nat.le_refl 0
  near := (by decide : 0 < 0 + bufStoreLimit)
  genuine _ _ member := absurd member List.not_mem_nil

section Slots

theorem bufIncPtr_eq {x : Nat} (inside : x < bufStoreLimit) : bufIncPtr x = Ring.next bufStoreLimit x := by
  unfold bufIncPtr Ring.next
  split <;> split <;> omega

theorem slot_fits {j : Nat} (inside : j < bufStoreLimit) :
    ¬ storageGpsRecordsSpace < j * saveGridSize + sizeofTracerBuf := by
  simp only [storageGpsRecordsSpace,saveGridSize,sizeofTracerBuf,bufStoreLimit] at inside ⊢
  omega

theorem save_slot (flash : Nat → TracerBuf) {j : Nat} (inside : j < bufStoreLimit) (b : TracerBuf) :
    tracerBufSave flash true j b = (true,Function.update flash (j * saveGridSize) b.sealed) := by
  rw [tracerBufSave,if_neg (slot_fits inside)]
  rfl

theorem slotOf_update (flash : Nat → TracerBuf) (j : Nat) (b : TracerBuf) :
    slotOf (Function.update flash (j * saveGridSize) b) = Function.update (slotOf flash) j b := by
  have apart : Function.Injective (· * saveGridSize) := fun _ _ same => Nat.eq_of_mul_eq_mul_right (by decide) same
  exact Function.update_comp_eq_of_injective flash apart j b

theorem sealed_intact (b : TracerBuf) : b.sealed.chsum = tracerBufChecksum b.sealed := rfl

end Slots

theorem Inv.honest {flash : Nat → TracerBuf} {s : State} (inv : Inv flash s) : Honest s := by
  have read_iff (i : Nat) : WasRead s i ↔ i < s.reads.length := by
    rw [WasRead,inv.counted,List.mem_range]
  refine ⟨?_,inv.genuine,by rw [inv.counted]; exact List.pairwise_lt_range,?_⟩
  · intro empty i survives
    have same : s.reads.length % bufStoreLimit = s.stored.length % bufStoreLimit := by
      rw [← inv.read,← inv.save]
      exact of_decide_eq_true empty
    have all : s.reads.length = s.stored.length := by
      by_contra unread
      exact Ring.mod_ne (Nat.lt_of_le_of_ne inv.behind unread) inv.near same
    rw [read_iff,all]
    exact survives.1
  · intro i j before later _
    rw [read_iff] at later ⊢
    exact Nat.lt_trans before later

theorem store_step (s : State) (position : Vector UInt8 22) (track point : UInt16) (flags : UInt8) (info : UInt32)
    (inside : s.buffer.savePtr < bufStoreLimit) :
    step s (.store true position track point flags info) = {s with
      buffer := {s.buffer with
        flash := Function.update s.buffer.flash (s.buffer.savePtr * saveGridSize)
          (TracerBuf.sealed ⟨track,point,position,info,flags,0⟩)
        savePtr := Ring.next bufStoreLimit s.buffer.savePtr}
      stored := s.stored ++ [TracerBuf.sealed ⟨track,point,position,info,flags,0⟩]
      owner := Function.update s.owner s.buffer.savePtr s.stored.length} := by
  simp only [step,tracerBufStorePosition,save_slot s.buffer.flash inside,bufIncPtr_eq inside,Bool.true_eq_false,
    if_false,if_true]

theorem store_inv {flash : Nat → TracerBuf} {s : State} (inv : Inv flash s) (position : Vector UInt8 22)
    (track point : UInt16) (flags : UInt8) (info : UInt32)
    (room : Room s (.store true position track point flags info)) :
    Inv flash (step s (.store true position track point flags info)) := by
  have pos : 0 < bufStoreLimit := by decide
  have inside : s.buffer.savePtr < bufStoreLimit := by
    rw [inv.save]
    exact Nat.mod_lt _ pos
  have moved : Ring.next bufStoreLimit (s.stored.length % bufStoreLimit) = (s.stored.length + 1) % bufStoreLimit :=
    Ring.next_mod bufStoreLimit _ pos
  rw [store_step s position track point flags info inside]
  refine ⟨?_,?_,?_,?_,inv.read,inv.counted,?_,?_,?_⟩
  · dsimp only
    rw [inv.save,moved,List.length_append,List.length_singleton]
  · have ring := inv.ring.push pos (TracerBuf.sealed ⟨track,point,position,info,flags,0⟩)
    rw [← slotOf_update,moved,← inv.save] at ring
    simpa using ring
  · have owner := inv.owner.push pos s.stored.length
    rw [moved,← List.range_succ,← inv.save] at owner
    simpa using owner
  · intro b member
    rcases List.mem_append.mp member with old | new
    · exact inv.intact b old
    · rw [List.mem_singleton.mp new]
      exact sealed_intact _
  · simpa using Nat.le_succ_of_le inv.behind
  · rw [List.length_append,List.length_singleton]
    refine Nat.lt_of_le_of_ne inv.near fun closed => room ?_
    rw [inv.save,inv.read,moved,closed,Nat.add_mod_right]
  · intro i b member
    have old := inv.genuine i b member
    rw [List.getElem?_append_left (List.getElem?_eq_some_iff.mp old).1,old]

theorem read_cases (s : State) (alloc readable : Bool) :
    step s (.read alloc readable) = s ∨
      s.buffer.savePtr ≠ s.buffer.readPtr ∧ ∃ b, tracerBufLoad s.buffer.flash readable s.buffer.readPtr = some b ∧
        step s (.read alloc readable) = {s with
          buffer := {s.buffer with readPtr := bufIncPtr s.buffer.readPtr}
          reads := s.reads ++ [(s.owner s.buffer.readPtr,b)]} := by
  unfold step tracerBufReadNext
  dsimp only
  split_ifs with empty failed
  · exact Or.inl rfl
  · exact Or.inl rfl
  · cases loaded : tracerBufLoad s.buffer.flash readable s.buffer.readPtr with
    | none => exact Or.inl rfl
    | some b => exact Or.inr ⟨empty,b,rfl,rfl⟩

theorem tracerBufLoad_some {flash : Nat → TracerBuf} {readable : Bool} {j : Nat} {b : TracerBuf}
    (loaded : tracerBufLoad flash readable j = some b) : b = slotOf flash j := by
  unfold tracerBufLoad at loaded
  dsimp only at loaded
  split_ifs at loaded
  exact (Option.some.inj loaded).symm

theorem read_inv {flash : Nat → TracerBuf} {s : State} (inv : Inv flash s) (alloc readable : Bool) :
    Inv flash (step s (.read alloc readable)) := by
  rcases read_cases s alloc readable with same | ⟨unread,b,loaded,stepped⟩
  · rw [same]
    exact inv
  · have pos : 0 < bufStoreLimit := by decide
    have ahead : s.reads.length < s.stored.length := by
      refine Nat.lt_of_le_of_ne inv.behind fun all => unread ?_
      rw [inv.save,inv.read,all]
    have live := inv.ring.live s.reads.length ahead (Nat.le_of_lt inv.near)
    have number := inv.owner.live s.reads.length (by simpa using ahead) (by simpa using Nat.le_of_lt inv.near)
    rw [List.getElem_range] at number
    have record : b = s.stored[s.reads.length] := by
      rw [tracerBufLoad_some loaded,inv.read,live]
    have moved : bufIncPtr (s.reads.length % bufStoreLimit) = (s.reads.length + 1) % bufStoreLimit := by
      rw [bufIncPtr_eq (Nat.mod_lt _ pos),Ring.next_mod _ _ pos]
    rw [stepped,inv.read,number,moved]
    refine ⟨inv.save,inv.ring,inv.owner,inv.intact,?_,?_,?_,?_,?_⟩
    · rw [List.length_append,List.length_singleton]
    · rw [List.map_append,inv.counted,List.length_append,List.length_singleton,List.range_succ]
      rfl
    · rw [List.length_append,List.length_singleton]
      exact ahead
    · have near := inv.near
      simp only [List.length_append,List.length_singleton]
      omega
    · intro i b' member
      rcases List.mem_append.mp member with old | new
      · exact inv.genuine i b' old
      · cases List.mem_singleton.mp new
        rw [record,List.getElem?_eq_getElem ahead]

theorem store_closes {flash : Nat → TracerBuf} {s : State} (inv : Inv flash s) {input : Input}
    (full : ¬ Room s input) : ¬ Honest (step s input) := by
  have pos : 0 < bufStoreLimit := by decide
  cases input with
  | read alloc readable => exact absurd trivial full
  | store alloc position track point flags info =>
    cases alloc with
    | false => exact absurd trivial full
    | true =>
      intro honest
      have closed : Ring.next bufStoreLimit s.buffer.savePtr = s.buffer.readPtr := not_not.mp full
      rw [store_step s position track point flags info (by rw [inv.save]; exact Nat.mod_lt _ pos)] at honest
      have found := honest.empty (decide_eq_true closed.symm) s.stored.length ⟨by simp,by simp; decide⟩
      rw [WasRead,inv.counted,List.mem_range] at found
      exact absurd found (Nat.not_lt.mpr inv.behind)

theorem step_inv (flash : Nat → TracerBuf) (s : State) (input : Input) (inv : Inv flash s) (room : Room s input) :
    Inv flash (step s input) := by
  cases input with
  | read alloc readable => exact read_inv inv alloc readable
  | store alloc position track point flags info =>
    cases alloc with
    | false => exact inv
    | true => exact store_inv inv position track point flags info room

/-- The ring hides nothing all along a run exactly when no store of the run closes it. -/
theorem run_honest_iff (flash : Nat → TracerBuf) (inputs : List Input) :
    (∀ first rest, inputs = first ++ rest → Honest (Run.run step (start flash) first)) ↔
      Run.Admits step Room (start flash) inputs :=
  Run.always_iff_admits step Room (Inv flash) Honest (fun _ inv => inv.honest) (step_inv flash)
    (fun _ _ inv full => store_closes inv full) (start flash) inputs (start_inv flash)

def offline : Input := .store true (Vector.replicate 22 0) 1 0 0 0

def erasedFlash (_ : Nat) : TracerBuf := ⟨0xFFFF,0xFFFF,Vector.replicate 22 0xFF,0xFFFFFFFF,0xFF,0xFF⟩

theorem offline_run (n : Nat) : ∃ s, Run.run step (start erasedFlash) (List.replicate n offline) = s ∧
    s.stored.length = n ∧ s.buffer.savePtr = n % bufStoreLimit ∧ s.buffer.readPtr = 0 ∧ s.reads = [] := by
  have pos : 0 < bufStoreLimit := by decide
  induction n with
  | zero => exact ⟨_,rfl,rfl,rfl,rfl,rfl⟩
  | succ n ih =>
    obtain ⟨s,ran,stored,save,read,reads⟩ := ih
    refine ⟨step s offline,?_,?_⟩
    · rw [List.replicate_succ',Run.run_append,ran]
      rfl
    · rw [offline,store_step s _ _ _ _ _ (by rw [save]; exact Nat.mod_lt _ pos)]
      refine ⟨by simp [stored],?_,read,reads⟩
      rw [save,Ring.next_mod _ _ pos]

/-- After 32768 points without a read the ring looks empty. -/
theorem offline_hidden : ¬ Honest (Run.run step (start erasedFlash) (List.replicate bufStoreLimit offline)) := by
  obtain ⟨s,ran,stored,save,read,reads⟩ := offline_run bufStoreLimit
  rw [ran]
  intro honest
  have empty : tracerBufEmpty s.buffer = true := by
    rw [tracerBufEmpty,read,save,Nat.mod_self]
    decide
  have found := honest.empty empty 0 ⟨by rw [stored]; decide,by rw [stored]; decide⟩
  rw [WasRead,reads] at found
  exact List.not_mem_nil found

end JcaFirmware.TracerBuffer
