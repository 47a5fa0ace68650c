import JcaFirmware.Foundation.Region
import JcaFirmware.Cfg
import JcaFirmware.Bootloader
import JcaFirmware.IhexRoundTrip
import JcaFirmware.EventMemory
import JcaFirmware.TracerBuffer
import JcaFirmware.Update

/-! The regions of the external flash (`app/storage.c`, `bootloader/ext_storage.c`) and the
writes that are issued for what their callers can ask: data records of an iHEX, chunks
of an update, configuration items, and the positions of the two rings. -/
namespace JcaFirmware.StorageRegions
open Foundation Numeral CText IntelHex Ihex

section Layout

def addrCfg : Nat := 0

def addrGps : Nat := addrCfg + Cfg.storageCfgSpace

def addrEventMem : Nat := addrGps + TracerBuffer.storageGpsRecordsSpace

def addrLast : Nat := addrEventMem + EventMemory.storageEventMemSpace

def fwAddr : Nat := 4096 * 1024 - Update.fwMaxSize

example : addrLast ≤ fwAddr := by decide

def cfgRegion : Region := ⟨addrCfg,Cfg.storageCfgSpace⟩

def gpsRegion : Region := ⟨addrGps,TracerBuffer.storageGpsRecordsSpace⟩

def eventRegion : Region := ⟨addrEventMem,EventMemory.storageEventMemSpace⟩

def fwRegion : Region := ⟨fwAddr,Update.fwMaxSize⟩

def bootloaderRegion : Region := ⟨Bootloader.fwAddr,Bootloader.fwMaxSize⟩

example : bootloaderRegion = fwRegion := rfl

end Layout

/-- What is asked of `flash_write_data`. -/
structure Write where
  addr : Nat
  len : Nat
deriving DecidableEq, Repr

section Storage

/-- What the writing functions of `app/storage.c` do with a request for their region. -/
def storageWrite (region : Region) (offset len : Nat) : Option Write :=
  if region.size < (offset + len) % 2 ^ 32 then none else some ⟨(region.addr + offset) % 2 ^ 32,len⟩

def storageWriteFw (ready : Bool) (offset len : Nat) : Option Write :=
  if ready = false then none else storageWrite fwRegion offset len

def storageWriteCfg (ready : Bool) (offset len : Nat) : Option Write :=
  if ready = false then none else storageWrite cfgRegion offset len

-- These two do not look at `_storage_ready`.
def storageSaveGpsData (offset len : Nat) : Option Write := storageWrite gpsRegion offset len

def storageWriteEvent (offset len : Nat) : Option Write := storageWrite eventRegion offset len

def extStorageWriteData (ready : Bool) (addr len : Nat) : Option Write :=
  if ready = false then none
  else if addr < Bootloader.fwAddr ∨ Bootloader.fwAddr + Bootloader.fwMaxSize < (addr + len) % 2 ^ 32 then none
  else some ⟨addr,len⟩

inductive Interface
  | extStorageWriteData
  | storageWriteFw
  | storageWriteCfg
  | storageSaveGpsData
  | storageWriteEvent
deriving DecidableEq, Repr

def Interface.region : Interface → Region
  | .extStorageWriteData => bootloaderRegion
  | .storageWriteFw => fwRegion
  | .storageWriteCfg => cfgRegion
  | .storageSaveGpsData => gpsRegion
  | .storageWriteEvent => eventRegion

def Interface.issued (ready : Bool) : Interface → Nat → Nat → Option Write
  | .extStorageWriteData => StorageRegions.extStorageWriteData ready
  | .storageWriteFw => StorageRegions.storageWriteFw ready
  | .storageWriteCfg => StorageRegions.storageWriteCfg ready
  | .storageSaveGpsData => StorageRegions.storageSaveGpsData
  | .storageWriteEvent => StorageRegions.storageWriteEvent

end Storage

section Callers

/-- The values of `_event_memory_ptr`. -/
inductive Position : Nat → Prop
  | start : Position 0
  | init (rtcValid : Rtc → Bool) (flash : EventMemory.Flash) : Position (EventMemory.eventMemoryInit rtcValid flash).ptr
  | store {ptr : Nat} (before : Position ptr) : Position (EventMemory.ptrInc ptr)

/-- What the callers of an interface can pass. -/
inductive Passed : Interface → Nat → Nat → Prop
  | record {answer : Nat → List UInt8 → Bool} {lines : List (List UInt8)} {p : Parse (List Piece)} {addr : Nat} {data : List UInt8}
      (held : ∀ line ∈ lines, line.length < ihexBufSize) (parsed : ihexLinesAt (request answer) false lines ⟨0,[]⟩ = .ok p)
      (requested : (addr,data) ∈ p.state) : Passed .extStorageWriteData addr data.length
  | chunk {unitId : Nat} {u : Update.Statics} {data : List UInt8} {port : Nat} {written answer : Bool} {chunkId : Nat}
      (wrote : (Update.updatePacketRx unitId u data port written).wrote = some (chunkId,answer)) :
      Passed .storageWriteFw (chunkId * Update.updateChunkSize % 2 ^ 32) Update.updateChunkSize
  | cfg {id : Nat} {auth : UInt8} (access : Cfg.cfgTableAccessWrite id auth = true) :
      Passed .storageWriteCfg (id * Cfg.sizeofCfg) Cfg.sizeofCfg
  -- `mem_id` is an `u16`; the indices of the ring, and those that are erased, are smaller.
  | point (memId : UInt16) : Passed .storageSaveGpsData (memId.toNat * TracerBuffer.saveGridSize) TracerBuffer.sizeofTracerBuf
  | event {ptr : Nat} (position : Position ptr) : Passed .storageWriteEvent ptr EventMemory.sizeofEvent

end Callers

section Requests

theorem scanAt_llen {line : List UInt8} {type : UInt8} {addr llen : Nat} {data : List UInt8}
    (scanned : scanAt line = some (type,addr,llen,data)) : llen < 256 := by
  unfold scanAt at scanned
  dsimp only at scanned
  split_ifs at scanned
  cases scanned
  exact UInt8.toNat_lt _

/-- A line asks for one write at most, of as many bytes as its length byte can say. -/
theorem ihexParseAt_request {answer : Nat → List UInt8 → Bool} {line : List UInt8} {p p' : Parse (List Piece)} {ok : Bool}
    (parsed : ihexParseAt (request answer) false line p = .ok (ok,p')) :
    p'.state = p.state ∨ ∃ addr data, addr < 2 ^ 32 ∧ data.length < 256 ∧ p'.state = p.state ++ [(addr,data)] := by
  unfold ihexParseAt at parsed
  by_cases start : charAt line 0 ≠ 0x3A
  · rw [if_pos start] at parsed
    cases parsed
    exact Or.inl rfl
  · rw [if_neg start] at parsed
    cases scanned : scanAt line with
    | none =>
      rw [scanned] at parsed
      cases parsed
      exact Or.inl rfl
    | some record =>
      obtain ⟨type,addr,llen,data⟩ := record
      have short := scanAt_llen scanned
      rw [scanned] at parsed
      dsimp only at parsed
      by_cases isData : type = 0
      · rw [if_pos isData] at parsed
        cases parsed
        have length := List.length_take_le llen data
        exact Or.inr ⟨_,_,Nat.mod_lt _ (by decide),Nat.lt_of_le_of_lt length short,rfl⟩
      · rw [if_neg isData] at parsed
        split_ifs at parsed <;> cases parsed <;> exact Or.inl rfl

theorem ihexLinesAt_requests {answer : Nat → List UInt8 → Bool} {lines : List (List UInt8)} {p p' : Parse (List Piece)}
    (parsed : ihexLinesAt (request answer) false lines p = .ok p')
    (before : ∀ piece ∈ p.state, piece.1 < 2 ^ 32 ∧ piece.2.length < 256) :
    ∀ piece ∈ p'.state, piece.1 < 2 ^ 32 ∧ piece.2.length < 256 := by
  induction lines generalizing p with
  | nil =>
    cases parsed
    exact before
  | cons line lines ih =>
    rw [ihexLinesAt,List.foldlM_cons] at parsed
    cases first : ihexParseAt (request answer) false line p with
    | error fault =>
      rw [first] at parsed
      cases parsed
    | ok result =>
      obtain ⟨ok,next⟩ := result
      rw [first] at parsed
      apply ih parsed
      rcases ihexParseAt_request first with same | ⟨addr,data,small,short,more⟩
      · rw [same]
        exact before
      · intro piece member
        rw [more,List.mem_append,List.mem_singleton] at member
        rcases member with old | rfl
        · exact before piece old
        · exact ⟨small,short⟩

theorem u24At_lt (data : List UInt8) (k : Nat) : Update.u24At data k < 2 ^ 24 := by
  unfold Update.u24At
  have low := (data.getD k 0).toNat_lt
  have middle := (data.getD (k + 1) 0).toNat_lt
  have high := (data.getD (k + 2) 0).toNat_lt
  omega

theorem wrote_chunk {unitId : Nat} {u : Update.Statics} {data : List UInt8} {port : Nat} {written answer : Bool} {chunkId : Nat}
    (wrote : (Update.updatePacketRx unitId u data port written).wrote = some (chunkId,answer)) : chunkId < 2 ^ 24 := by
  have number {status : Nat} (chunk : Update.IsChunk unitId u data port status) : Update.chunkId u < 2 ^ 24 := by
    rw [← chunk.2.2.2.1]
    exact u24At_lt data 8
  rcases Update.rx_cases unitId u data port written with ignored | ⟨_,_,res⟩ | ⟨chunk,res⟩ | ⟨chunk,res⟩
  · rw [ignored] at wrote
    cases wrote
  · rw [res] at wrote
    cases wrote
  · rw [res] at wrote
    cases wrote
    exact number chunk
  · rw [res] at wrote
    cases wrote
    exact number chunk

theorem ptrInc_inside (ptr : Nat) :
    EventMemory.ptrInc ptr + EventMemory.eventMemSize ≤ EventMemory.storageEventMemSpace := by
  unfold EventMemory.ptrInc
  dsimp only
  split_ifs with closed
  · decide
  · simp only [EventMemory.eventMemSize,EventMemory.storageEventMemSpace] at closed ⊢
    omega

theorem initLoop_inside {rtcValid : Rtc → Bool} {flash : EventMemory.Flash} {before : EventMemory.Recovery}
    {rounds i cntMax ptrMax : Nat} (start : before.ptr + EventMemory.eventMemSize ≤ EventMemory.storageEventMemSpace)
    (left : i + EventMemory.eventMemSize * rounds ≤ EventMemory.storageEventMemSpace) :
    (EventMemory.initLoop rtcValid flash before rounds i cntMax ptrMax).ptr + EventMemory.eventMemSize ≤
      EventMemory.storageEventMemSpace := by
  induction rounds generalizing i cntMax ptrMax with
  | zero => exact ptrInc_inside ptrMax
  | succ rounds ih =>
    rw [Nat.mul_succ] at left
    rw [EventMemory.initLoop]
    cases EventMemory.storageReadEvent flash i with
    | none => exact start
    | some e =>
      dsimp only
      split_ifs
      · dsimp only
        omega
      · exact ih (by omega)
      · exact ih (by omega)

theorem Position.inside {ptr : Nat} (position : Position ptr) :
    ptr + EventMemory.eventMemSize ≤ EventMemory.storageEventMemSpace := by
  cases position with
  | start => decide
  | init rtcValid flash => exact initLoop_inside (by decide) (by decide)
  | store before => exact ptrInc_inside _

end Requests

section Connections

/-- Where the sums can be counted, the check is the one on numbers. -/
theorem storageWrite_counted {region : Region} {offset len : Nat} (space : region.addr + region.size < 2 ^ 32)
    (counted : offset + len < 2 ^ 32) :
    storageWrite region offset len = if region.size < offset + len then none else some ⟨region.addr + offset,len⟩ := by
  rw [storageWrite,Nat.mod_eq_of_lt counted]
  by_cases large : region.size < offset + len
  · rw [if_pos large,if_pos large]
  · rw [if_neg large,if_neg large,Nat.mod_eq_of_lt (by omega)]

/-- The bootloader writes what is issued, and nothing else. -/
theorem bootloader_writes (addr : Nat) (src : List UInt8) (s : Bootloader.State) :
    Bootloader.extStorageWriteData addr src s =
      (extStorageWriteData s.storageReady addr src.length).elim (false,s) fun w =>
        (true,{s with external := s.external.write w.addr src}) := by
  unfold Bootloader.extStorageWriteData extStorageWriteData
  split_ifs <;> rfl

theorem writeChunk_issues (chunk : Nat) (written : Bool) :
    Update.writeChunk chunk written =
      ((storageWriteFw true (chunk * Update.updateChunkSize % 2 ^ 32) Update.updateChunkSize).isSome && written) := by
  have issued : storageWriteFw true = storageWrite fwRegion := rfl
  rw [Update.writeChunk,Update.storageWriteFw,issued,storageWrite,fwRegion]
  dsimp only
  split_ifs <;> rfl

theorem storageWriteCfg_writes {offset : Nat} {src : List UInt8} (counted : offset + src.length < 2 ^ 32) (s : Cfg.Storage) :
    Cfg.storageWriteCfg offset src s =
      (storageWriteCfg s.ready offset src.length).elim (false,s) fun w => (true,{s with flash := s.flash.write w.addr src}) := by
  rw [Cfg.storageWriteCfg,storageWriteCfg,storageWrite_counted (by decide) counted]
  change _ = (if s.ready = false then none else if Cfg.storageCfgSpace < offset + src.length then none
    else some ⟨addrCfg + offset,src.length⟩ : Option Write).elim _ _
  rw [addrCfg,Nat.zero_add]
  split_ifs <;> rfl

theorem tracerBufSave_issues (flash : Nat → TracerBuffer.TracerBuf) (memId : UInt16) (b : TracerBuffer.TracerBuf) :
    (TracerBuffer.tracerBufSave flash true memId.toNat b).1 =
      (storageSaveGpsData (memId.toNat * TracerBuffer.saveGridSize) TracerBuffer.sizeofTracerBuf).isSome := by
  have counted : memId.toNat * TracerBuffer.saveGridSize + TracerBuffer.sizeofTracerBuf < 2 ^ 32 := by
    have small := memId.toNat_lt
    simp only [TracerBuffer.saveGridSize,TracerBuffer.sizeofTracerBuf]
    omega
  rw [TracerBuffer.tracerBufSave,storageSaveGpsData,storageWrite_counted (by decide) counted,gpsRegion,if_neg (by decide : ¬ true = false)]
  dsimp only
  split_ifs <;> rfl

/-- The assertion on the position never fails, and the next one is a position again. -/
theorem eventMemoryStore_issues {ptr : Nat} (position : Position ptr) (flash : EventMemory.Flash) (e : Event) :
    ∃ flash', EventMemory.eventMemoryStore ⟨ptr,flash⟩ e =
      .ok ((storageWriteEvent ptr EventMemory.sizeofEvent).isSome,⟨EventMemory.ptrInc ptr,flash'⟩) := by
  have inside := position.inside
  have asserted : ¬ EventMemory.storageEventMemSpace - EventMemory.eventMemSize < ptr := by omega
  have counted : ptr + EventMemory.sizeofEvent < 2 ^ 32 := by
    simp only [EventMemory.sizeofEvent,EventMemory.eventMemSize,EventMemory.storageEventMemSpace] at inside ⊢
    omega
  rw [EventMemory.eventMemoryStore,if_neg asserted,EventMemory.storageWriteEvent,storageWriteEvent,
    storageWrite_counted (by decide) counted,eventRegion]
  dsimp only
  split_ifs
  · exact ⟨_,rfl⟩
  · exact ⟨_,rfl⟩

end Connections

section Confinement

theorem region_space (i : Interface) : i.region.addr + i.region.size < 2 ^ 32 := by
  cases i <;> decide

theorem Passed.counted {i : Interface} {offset len : Nat} (passed : Passed i offset len)
    (inner : i ≠ .extStorageWriteData ∧ i ≠ .storageWriteFw) : offset + len < 2 ^ 32 := by
  cases passed with
  | record => exact absurd rfl inner.1
  | chunk => exact absurd rfl inner.2
  | cfg access =>
    obtain ⟨t,member,rfl,_⟩ := Cfg.accessWrite_iff.mp access
    exact Nat.lt_of_le_of_lt (Cfg.cfgTable_fits t member) (by decide)
  | point memId =>
    have small := memId.toNat_lt
    simp only [TracerBuffer.saveGridSize,TracerBuffer.sizeofTracerBuf]
    omega
  | event position =>
    have inside := position.inside
    simp only [EventMemory.sizeofEvent,EventMemory.eventMemSize,EventMemory.storageEventMemSpace] at inside ⊢
    omega

theorem storageWrite_contains {region : Region} {offset len : Nat} {w : Write} (space : region.addr + region.size < 2 ^ 32)
    (counted : offset + len < 2 ^ 32) (issued : storageWrite region offset len = some w) : region.Contains w.addr w.len := by
  unfold storageWrite at issued
  split_ifs at issued with large
  cases issued
  exact Region.contains_of_checked space counted (Nat.le_of_not_lt large)

theorem issued_contains {i : Interface} {ready : Bool} {offset len : Nat} {w : Write} (counted : offset + len < 2 ^ 32)
    (issued : i.issued ready offset len = some w) : i.region.Contains w.addr w.len := by
  cases i with
  | extStorageWriteData =>
    unfold Interface.issued extStorageWriteData at issued
    dsimp only at issued
    split_ifs at issued with _ refused
    cases issued
    rw [Nat.mod_eq_of_lt counted] at refused
    exact ⟨Nat.le_of_not_lt (not_or.mp refused).1,Nat.le_of_not_lt (not_or.mp refused).2⟩
  | storageWriteFw =>
    unfold Interface.issued storageWriteFw at issued
    dsimp only at issued
    split_ifs at issued
    exact storageWrite_contains (region_space .storageWriteFw) counted issued
  | storageWriteCfg =>
    unfold Interface.issued storageWriteCfg at issued
    dsimp only at issued
    split_ifs at issued
    exact storageWrite_contains (region_space .storageWriteCfg) counted issued
  | storageSaveGpsData => exact storageWrite_contains (region_space .storageSaveGpsData) counted issued
  | storageWriteEvent => exact storageWrite_contains (region_space .storageWriteEvent) counted issued

/-- A sum that wraps around is small, so that the check of the end lets it pass. -/
theorem issued_wrapped {i : Interface} {offset len : Nat} (passed : Passed i offset len) (wrapped : 2 ^ 32 ≤ offset + len) :
    ∃ w, i.issued true offset len = some w ∧ ¬ i.region.Contains w.addr w.len := by
  cases passed with
  | @record _ _ _ _ data held parsed requested =>
    obtain ⟨small,short⟩ := ihexLinesAt_requests parsed (fun _ member => absurd member List.not_mem_nil) _ requested
    dsimp only at small short
    have low : ¬ offset < Bootloader.fwAddr := by
      simp only [Bootloader.fwAddr,Bootloader.fwMaxSize]
      omega
    have high : ¬ Bootloader.fwAddr + Bootloader.fwMaxSize < (offset + data.length) % 2 ^ 32 := by
      simp only [Bootloader.fwAddr,Bootloader.fwMaxSize]
      omega
    refine ⟨⟨offset,data.length⟩,?_,?_⟩
    · unfold Interface.issued extStorageWriteData
      dsimp only
      rw [if_neg (by decide),if_neg (not_or.mpr ⟨low,high⟩)]
    · rintro ⟨_,above⟩
      exact absurd (Nat.le_trans wrapped above) (by decide)
  | @chunk _ _ _ _ _ _ chunkId wrote =>
    have bound := wrote_chunk wrote
    have low : ¬ fwRegion.size < (chunkId * Update.updateChunkSize % 2 ^ 32 + Update.updateChunkSize) % 2 ^ 32 := by
      simp only [fwRegion,Update.fwMaxSize,Update.updateChunkSize] at wrapped ⊢
      omega
    refine ⟨⟨_,_⟩,?_,Region.not_contains_of_wrapped (region_space .storageWriteFw) (Nat.mod_lt _ (by decide)) wrapped⟩
    unfold Interface.issued storageWriteFw
    dsimp only
    rw [if_neg (by decide),storageWrite,if_neg low]
    rfl
  | cfg access => exact absurd wrapped (Nat.not_le_of_lt ((Passed.cfg access).counted (by decide)))
  | point memId => exact absurd wrapped (Nat.not_le_of_lt ((Passed.point memId).counted (by decide)))
  | event position => exact absurd wrapped (Nat.not_le_of_lt ((Passed.event position).counted (by decide)))

/-- Every write that is issued for the request lies inside the region of its interface. -/
def Confined (i : Interface) (ready : Bool) (offset len : Nat) : Prop :=
  ∀ w, i.issued ready offset len = some w → i.region.Contains w.addr w.len

theorem confined_iff {i : Interface} {offset len : Nat} (passed : Passed i offset len) (ready : Bool) :
    Confined i ready offset len ↔ (ready = true → offset + len < 2 ^ 32) := by
  constructor
  · intro confined isReady
    rw [isReady] at confined
    by_contra wrapped
    obtain ⟨w,issued,outside⟩ := issued_wrapped passed (Nat.le_of_not_lt wrapped)
    exact outside (confined w issued)
  · intro counted w issued
    by_cases inner : i ≠ .extStorageWriteData ∧ i ≠ .storageWriteFw
    · exact issued_contains (passed.counted inner) issued
    · cases ready with
      | true => exact issued_contains (counted rfl) issued
      | false =>
        -- both of the others look at the flag first
        cases i with
        | extStorageWriteData => cases issued
        | storageWriteFw => cases issued
        | storageWriteCfg | storageSaveGpsData | storageWriteEvent => exact absurd (by decide) inner

theorem issued_len {i : Interface} {ready : Bool} {offset len : Nat} {w : Write} (issued : i.issued ready offset len = some w) :
    w.len = len := by
  cases i <;>
    simp only [Interface.issued,extStorageWriteData,storageWriteFw,storageWriteCfg,storageSaveGpsData,storageWriteEvent,
      storageWrite] at issued <;>
    split_ifs at issued <;> cases issued <;> rfl

theorem region_apart {i other : Interface} (different : i.region ≠ other.region) : i.region.Apart other.region := by
  revert different
  cases i <;> cases other <;> decide

/-- No region is overwritten through the interface of another one. -/
theorem Confined.others_kept {i other : Interface} {ready : Bool} {offset : Nat} {src : List UInt8} {w : Write}
    (confined : Confined i ready offset src.length) (issued : i.issued ready offset src.length = some w)
    (different : i.region ≠ other.region) (m : Bytes) :
    (m.write w.addr src).read other.region.addr other.region.size = m.read other.region.addr other.region.size := by
  have inside := confined w issued
  rw [issued_len issued] at inside
  exact inside.read_apart (region_apart different) m

def topLines : List (List UInt8) := [ascii ":02000004FFFFFC",ascii ":10FFF0000000000000000000000000000000000001"]

theorem topRecord_passed : Passed .extStorageWriteData 0xFFFFFFF0 16 := by
  have parsed : ihexLinesAt (request fun _ _ => true) false topLines ⟨0,[]⟩ =
      .ok ⟨0xFFFF0000,[(0xFFFFFFF0,List.replicate 16 0)]⟩ := by rfl
  exact Passed.record (by decide +kernel) parsed (List.mem_singleton.mpr rfl)

def topChunk : List UInt8 := [0xAA,0xF1,0,0,1,0,0,0,0xFF,0xFF,0xFF,2] ++ List.replicate 256 0

theorem topChunk_passed : Passed .storageWriteFw 0xFFFFFF00 256 := by
  have wrote : (Update.updatePacketRx 1 ⟨0,0,true,false,1,3333,0x1000000,0⟩ topChunk 3333 true).wrote = some (0xFFFFFF,true) := by
    decide +kernel
  exact Passed.chunk wrote

def firstChunk : List UInt8 := [0xAA,0xF1,0,0,1,0,0,0,0,0,0,2] ++ List.replicate 256 0

theorem firstChunk_passed : Passed .storageWriteFw 0 256 := by
  have wrote : (Update.updatePacketRx 1 ⟨0,0,true,false,1,3333,1,0⟩ firstChunk 3333 true).wrote = some (0,true) := by
    decide +kernel
  exact Passed.chunk wrote

/-- The first chunk is written where it belongs, the record at the top is not. -/
theorem confined_iff_topRecord : Confined .storageWriteFw true 0 256 ∧
    (Confined .extStorageWriteData true 0xFFFFFFF0 16 ↔ (true = true → 0xFFFFFFF0 + 16 < 2 ^ 32)) :=
  ⟨(confined_iff firstChunk_passed true).mpr fun _ => by decide,confined_iff topRecord_passed true⟩

theorem tops_escape : (Passed .extStorageWriteData 0xFFFFFFF0 16 ∧ ¬ Confined .extStorageWriteData true 0xFFFFFFF0 16) ∧
    Passed .storageWriteFw 0xFFFFFF00 256 ∧ ¬ Confined .storageWriteFw true 0xFFFFFF00 256 := by
  refine ⟨⟨topRecord_passed,fun confined => ?_⟩,topChunk_passed,fun confined => ?_⟩
  · exact absurd (confined ⟨0xFFFFFFF0,16⟩ (by decide)) (by decide)
  · exact absurd (confined ⟨0x3BFF00,256⟩ (by decide)) (by decide)

end Confinement

end JcaFirmware.StorageRegions
