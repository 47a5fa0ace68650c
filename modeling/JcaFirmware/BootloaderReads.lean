import JcaFirmware.Toolchain

/-! The bootloader over a flash whose reads may fail (`ext_storage_check_fw`,
`ext_storage_read_fw`, `main_flash_app`): what stands in the internal flash afterwards, and
when the application there is accepted. -/
namespace JcaFirmware.BootloaderReads
open Foundation Bootloader

section Functions

-- `reads` has the outcome of every read of the external flash, `n` is the number of the next one.
variable (sdk : Chsum) (reads : Nat → Bool) (s : State)

def sectorRead (n sector : Nat) : Option (List UInt8) := if reads n then some (Bootloader.sectorRead s sector) else none

/-- The checksum, with the number of reads made. -/
def chsumLoop : Nat → Nat → Nat → Nat → UInt32 → Option (UInt32 × Nat)
  | 0, n, _, _, fwChsum => some (fwChsum,n)
  | rounds + 1, n, sector, l, fwChsum =>
    if l = 0 then some (fwChsum,n)
    else
      match sectorRead reads s n (sector + 1) with
      | none => none
      | some buf =>
        let fwChsum := sdk.chsum32 (buf.take (if sectorSize < l then sectorSize else l)) fwChsum
        chsumLoop rounds (n + 1) (sector + 1) (l - sectorSize) fwChsum

def extStorageCheckFw : Option (List UInt8 × Nat) :=
  if s.storageReady = false then none
  else
    match sectorRead reads s 0 fwStartSector with
    | none => none
    | some container =>
      if containerValid sdk container = false then none
      else if containerCompatible container = false then none
      else if dataSize container < appMinSize ∨ appMaxSize < dataSize container then none
      else
        match chsumLoop sdk reads s (dataSize container) 1 fwStartSector (dataSize container) sdk.startValue with
        | none => none
        | some (fwChsum,n) => if fwChsum.toNat = dataChsum container then some (container,n) else none

def extStorageReadFw (n len offset : Nat) : Option (List UInt8) :=
  if len ≠ sectorSize ∨ offset % sectorSize ≠ 0 then none
  else sectorRead reads s n ((fwAddr + (offset + sectorSize)) / sectorSize)

-- Where the read fails the buffer still has the sector before, or what the stack had.
def flashLoop (size : Nat) : Nat → Nat → Nat → Nat → List UInt8 → Bytes → Bytes
  | 0, _, _, _, _, internal => internal
  | rounds + 1, n, i, dest, buf, internal =>
    if size ≤ i then internal
    else
      let buf := (extStorageReadFw reads s n sectorSize i).getD buf
      flashLoop size rounds (n + 1) (i + sectorSize) (dest + sectorSize) buf (internal.write dest buf)

/-- `main_flash_app`; `ready` is the answer of the flash to its initialisation, `buf` what is in the buffer at first. -/
def mainFlashApp (ready : Bool) (buf : List UInt8) : Bool × State :=
  let s := {s with storageReady := ready}
  if ready = false then (false,s)
  else
    match extStorageCheckFw sdk reads s with
    | none => (false,s)
    | some (container,n) =>
      let internal := flashLoop reads s (dataSize container) (dataSize container) n 0 appInfoPageAddr buf s.internal
      (true,{s with internal})

end Functions

section Checking

variable {sdk : Chsum} {reads : Nat → Bool} {s : State}

def sectors (size : Nat) : Nat := (size + 511) / 512

theorem sectors_more {l : Nat} (some : 0 < l) : sectors l = sectors (l - sectorSize) + 1 := by
  have size : sectorSize = 512 := rfl
  rw [sectors,sectors,size]
  omega

theorem chsumLoop_some {rounds n sector l : Nat} (enough : l ≤ rounds) {value fwChsum : UInt32} {m : Nat}
    (checked : chsumLoop sdk reads s rounds n sector l value = some (fwChsum,m)) :
    fwChsum = Bootloader.chsumLoop sdk s rounds sector l value ∧ m = n + sectors l := by
  induction rounds generalizing n sector l value with
  | zero =>
    obtain ⟨rfl,rfl⟩ := Prod.mk.inj (Option.some.inj checked)
    obtain rfl := Nat.le_zero.mp enough
    exact ⟨rfl,rfl⟩
  | succ rounds ih =>
    rw [chsumLoop] at checked
    rw [Bootloader.chsumLoop]
    by_cases done : l = 0
    · rw [if_pos done] at checked ⊢
      obtain ⟨rfl,rfl⟩ := Prod.mk.inj (Option.some.inj checked)
      rw [done]
      exact ⟨rfl,rfl⟩
    · rw [if_neg done] at checked ⊢
      have positive : 0 < sectorSize := by decide
      have more := @sectors_more l (by omega)
      cases read : reads n with
      | false =>
        rw [sectorRead,read] at checked
        cases checked
      | true =>
        rw [sectorRead,read,if_pos rfl] at checked
        obtain ⟨same,count⟩ := ih (by omega) checked
        refine ⟨same,?_⟩
        rw [count,more,Nat.add_assoc,Nat.add_comm 1]

/-- What a check that passes has found. -/
structure Accepted (sdk : Chsum) (s : State) : Prop where
  valid : containerValid sdk (s.external.read fwAddr sectorSize) = true
  low : appMinSize ≤ dataSize (s.external.read fwAddr sectorSize)
  high : dataSize (s.external.read fwAddr sectorSize) ≤ appMaxSize
  sum : (sdk.chsum32 (s.external.read (fwAddr + sectorSize) (dataSize (s.external.read fwAddr sectorSize))) sdk.startValue).toNat =
    dataChsum (s.external.read fwAddr sectorSize)

theorem extStorageCheckFw_some (runs : sdk.Runs) {container : List UInt8} {n : Nat}
    (found : extStorageCheckFw sdk reads s = some (container,n)) :
    container = s.external.read fwAddr sectorSize ∧ n = 1 + sectors (dataSize container) ∧ Accepted sdk s := by
  have first : fwStartSector * sectorSize = fwAddr := rfl
  have second : (fwStartSector + 1) * sectorSize = fwAddr + sectorSize := rfl
  have least : 0 < appMinSize := by decide
  rw [extStorageCheckFw] at found
  split_ifs at found with unready
  cases read : reads 0 with
  | false =>
    rw [sectorRead,read] at found
    cases found
  | true =>
    rw [sectorRead,read,if_pos rfl,Bootloader.sectorRead,first] at found
    dsimp only at found
    generalize held : s.external.read fwAddr sectorSize = header at found
    split_ifs at found with invalid foreign size
    cases checked : chsumLoop sdk reads s (dataSize header) 1 fwStartSector (dataSize header) sdk.startValue with
    | none =>
      rw [checked] at found
      cases found
    | some result =>
      obtain ⟨fwChsum,m⟩ := result
      rw [checked] at found
      dsimp only at found
      split_ifs at found with sum
      obtain ⟨rfl,rfl⟩ := Prod.mk.inj (Option.some.inj found)
      obtain ⟨same,count⟩ := chsumLoop_some (Nat.le_refl _) checked
      rw [chsumLoop_eq runs (Nat.le_refl _) (by omega),second] at same
      rw [same] at sum
      exact ⟨rfl,count,by rw [held]; simpa using invalid,by rw [held]; omega,by rw [held]; omega,by rw [held]; exact sum⟩

/-- Where its reads succeed the loop copies whole sectors. -/
theorem flashLoop_write {size rounds n i dest : Nat} (enough : size ≤ i + rounds) (aligned : i % sectorSize = 0)
    (good : ∀ j, i + j * sectorSize < size → reads (n + j) = true) (buf : List UInt8) (internal : Bytes) :
    flashLoop reads s size rounds n i dest buf internal =
      internal.write dest (s.external.read (fwAddr + sectorSize + i) (sectors (size - i) * sectorSize)) := by
  have nothing (internal : Bytes) (i dest l : Nat) (none : l = 0) :
      internal.write dest (s.external.read (fwAddr + sectorSize + i) (sectors l * sectorSize)) = internal := by
    have zero : sectors 0 = 0 := by decide
    rw [none,zero,Nat.zero_mul]
    exact internal.write_nil dest
  induction rounds generalizing n i dest buf internal with
  | zero => exact (nothing _ _ _ _ (by omega)).symm
  | succ rounds ih =>
    rw [flashLoop]
    by_cases done : size ≤ i
    · rw [if_pos done]
      exact (nothing _ _ _ _ (by omega)).symm
    · have positive : 0 < sectorSize := by decide
      have first : reads n = true := good 0 (by omega)
      have read : extStorageReadFw reads s n sectorSize i = some (s.external.read (fwAddr + sectorSize + i) sectorSize) := by
        rw [extStorageReadFw,if_neg (by simp [aligned]),sectorRead,first,if_pos rfl,Bootloader.sectorRead,sector_of_offset aligned]
      have length := s.external.length_read (fwAddr + sectorSize + i) sectorSize
      have next : size - (i + sectorSize) = size - i - sectorSize := by omega
      have count : sectors (size - i) * sectorSize = sectorSize + sectors (size - (i + sectorSize)) * sectorSize := by
        rw [sectors_more (by omega),Nat.succ_mul,next,Nat.add_comm]
      have later : ∀ j, i + sectorSize + j * sectorSize < size → reads (n + 1 + j) = true := by
        intro j inside
        have moved := good (j + 1) (by rw [Nat.succ_mul]; omega)
        rwa [Nat.add_assoc,Nat.add_comm 1]
      rw [if_neg done,read,Option.getD_some]
      dsimp only
      rw [ih (by omega) (by rw [Nat.add_mod_right,aligned]) later,count,Bytes.read_add,← Bytes.write_append,length,Nat.add_assoc _ i]

theorem chsumLoop_reliable (rounds n sector l : Nat) (value : UInt32) :
    ∃ m, chsumLoop sdk (fun _ => true) s rounds n sector l value = some (Bootloader.chsumLoop sdk s rounds sector l value,m) := by
  induction rounds generalizing n sector l value with
  | zero => exact ⟨n,rfl⟩
  | succ rounds ih =>
    rw [chsumLoop,Bootloader.chsumLoop]
    by_cases done : l = 0
    · rw [if_pos done,if_pos done]
      exact ⟨n,rfl⟩
    · rw [if_neg done,if_neg done,sectorRead,if_pos rfl]
      exact ih _ _ _ _

theorem flashLoop_reliable (size rounds n i dest : Nat) (buf : List UInt8) (internal : Bytes) :
    flashLoop (fun _ => true) s size rounds n i dest buf internal = Bootloader.flashLoop s size rounds i dest buf internal := by
  induction rounds generalizing n i dest buf internal with
  | zero => rfl
  | succ rounds ih =>
    have read : extStorageReadFw (fun _ => true) s n sectorSize i = Bootloader.extStorageReadFw s sectorSize i := by
      rw [extStorageReadFw,Bootloader.extStorageReadFw,sectorRead,if_pos rfl]
    rw [flashLoop,Bootloader.flashLoop,read]
    split_ifs
    · rfl
    · exact ih _ _ _ _ _

theorem extStorageCheckFw_reliable (sdk : Chsum) (s : State) :
    (extStorageCheckFw sdk (fun _ => true) s).map Prod.fst = Bootloader.extStorageCheckFw sdk s := by
  rw [extStorageCheckFw,Bootloader.extStorageCheckFw,sectorRead,if_pos rfl]
  dsimp only
  obtain ⟨m,summed⟩ := @chsumLoop_reliable sdk s (dataSize (Bootloader.sectorRead s fwStartSector)) 1 fwStartSector
    (dataSize (Bootloader.sectorRead s fwStartSector)) sdk.startValue
  rw [summed]
  dsimp only
  split_ifs <;> simp only [Option.map_some,Option.map_none]

/-- Without failures it is the bootloader over a flash that is always read. -/
theorem mainFlashApp_reliable (sdk : Chsum) (s : State) :
    mainFlashApp sdk (fun _ => true) s true (List.replicate sectorSize 0) = Bootloader.mainFlashApp sdk s := by
  have check := extStorageCheckFw_reliable sdk {s with storageReady := true}
  rw [mainFlashApp,Bootloader.mainFlashApp,extStorageInit]
  dsimp only
  rw [if_neg Bool.noConfusion,if_neg Bool.noConfusion,← check]
  cases extStorageCheckFw sdk (fun _ => true) {s with storageReady := true} with
  | none => rfl
  | some result =>
    obtain ⟨container,n⟩ := result
    dsimp only [Option.map_some]
    rw [flashLoop_reliable]

end Checking

section Booting

/-- The size of the data that the header tells of. -/
def headerSize (s : State) : Nat := dataSize (s.external.read fwAddr sectorSize)

def payloadAddr : Nat := fwAddr + sectorSize

/-- The size in the information page at the front of the payload, -/
def payloadSize (s : State) : Nat := numberOf (s.external.read payloadAddr 4)

/-- and the CRC. -/
def payloadCrc (s : State) : Nat := numberOf (s.external.read (payloadAddr + 4) 4)

/-- The payload would pass the check of the application. -/
structure Bootable (s : State) : Prop where
  low : appMinSize ≤ payloadSize s
  high : payloadSize s ≤ appMaxSize
  crc : (appCrc (s.external.read (payloadAddr + appInfoPageSize) (payloadSize s))).toNat = payloadCrc s

variable {sdk : Chsum} {reads : Nat → Bool} {s : State}

theorem copy_read (m m' : Bytes) {a b len i l : Nat} (inside : i + l ≤ len) :
    (m.write a (m'.read b len)).read (a + i) l = m'.read (b + i) l := by
  apply List.ext_getElem (by rw [Bytes.length_read,Bytes.length_read])
  intro j _ high
  rw [Bytes.length_read] at high
  simp only [Bytes.read,List.getElem_map,List.getElem_range]
  have length := Bytes.length_read m' b len
  rw [Bytes.write_get _ (by omega) (by rw [← Bytes.read,length]; omega),← Bytes.read,Bytes.getD_read _ (by omega)]
  congr 1
  omega

theorem mainFlashApp_true (runs : sdk.Runs) {ready : Bool} {buf : List UInt8} {s' : State}
    (flashed : mainFlashApp sdk reads s ready buf = (true,s')) :
    Accepted sdk s ∧ s'.external = s.external ∧
      s'.internal = flashLoop reads {s with storageReady := ready} (headerSize s) (headerSize s) (1 + sectors (headerSize s)) 0
        appInfoPageAddr buf s.internal := by
  rw [mainFlashApp] at flashed
  split_ifs at flashed with unready
  · exact absurd (Prod.mk.inj flashed).1 Bool.noConfusion
  · cases found : extStorageCheckFw sdk reads {s with storageReady := ready} with
    | none =>
      rw [found] at flashed
      exact absurd (Prod.mk.inj flashed).1 Bool.noConfusion
    | some result =>
      obtain ⟨container,n⟩ := result
      rw [found] at flashed
      obtain ⟨held,count,accepted⟩ := extStorageCheckFw_some runs found
      have size : dataSize container = headerSize s := by rw [held]; rfl
      have after := (Prod.mk.inj flashed).2
      rw [count,size] at after
      rw [← after]
      exact ⟨⟨accepted.valid,accepted.low,accepted.high,accepted.sum⟩,rfl,by dsimp only⟩

theorem mainFlashApp_false {ready : Bool} {buf : List UInt8} {s' : State}
    (refused : mainFlashApp sdk reads s ready buf = (false,s')) : s'.internal = s.internal := by
  rw [mainFlashApp] at refused
  split_ifs at refused with unready
  · obtain rfl := (Prod.mk.inj refused).2
    rfl
  · cases found : extStorageCheckFw sdk reads {s with storageReady := ready} with
    | none =>
      rw [found] at refused
      obtain rfl := (Prod.mk.inj refused).2
      rfl
    | some result =>
      rw [found] at refused
      exact absurd (Prod.mk.inj refused).1 Bool.noConfusion

/-- With the payload in the internal flash the check is one of the payload, if that tells of nothing behind it. -/
theorem mainAppOk_copied {s' : State} {len : Nat} (page : 8 ≤ len)
    (inside : payloadSize s ≤ appMaxSize → appInfoPageSize + payloadSize s ≤ len)
    (copied : s'.internal = s.internal.write appInfoPageAddr (s.external.read payloadAddr len)) : mainAppOk s' = true ↔ Bootable s := by
  have size : appInfoSize s' = payloadSize s := by
    have read := @copy_read s.internal s.external appInfoPageAddr payloadAddr len 0 4 (by omega)
    rw [Nat.add_zero,Nat.add_zero] at read
    rw [appInfoSize,copied,read,payloadSize]
  have crc : appInfoCrc s' = payloadCrc s := by
    rw [appInfoCrc,copied,copy_read _ _ (by omega),payloadCrc]
  have start : appStartAddr = appInfoPageAddr + appInfoPageSize := rfl
  rw [mainAppOk,size,crc]
  split_ifs with outside
  · refine iff_of_false id fun bootable => ?_
    have low := bootable.low
    have high := bootable.high
    omega
  · rw [copied,start,copy_read _ _ (inside (by omega)),decide_eq_true_iff]
    exact ⟨fun same => ⟨by omega,by omega,same⟩,fun bootable => bootable.crc⟩

/-- Only the payload of a good container is flashed, and it boots exactly if it is bootable itself. -/
theorem mainFlashApp_boots (runs : sdk.Runs) (reads : Nat → Bool) (ready : Bool) (buf : List UInt8) (s s' : State) :
    (mainFlashApp sdk reads s ready buf = (false,s') → s'.internal = s.internal) ∧
      (mainFlashApp sdk reads s ready buf = (true,s') → Accepted sdk s ∧
        ((∀ j < sectors (headerSize s), reads (1 + sectors (headerSize s) + j) = true) →
          s'.internal = s.internal.write appInfoPageAddr (s.external.read payloadAddr (sectors (headerSize s) * sectorSize)) ∧
          ((payloadSize s ≤ appMaxSize → appInfoPageSize + payloadSize s ≤ headerSize s) → (mainAppOk s' = true ↔ Bootable s)))) := by
  refine ⟨mainFlashApp_false,fun flashed => ?_⟩
  obtain ⟨accepted,_,looped⟩ := mainFlashApp_true runs flashed
  refine ⟨accepted,fun good => ?_⟩
  have size : sectorSize = 512 := rfl
  have least : appMinSize = 1024 := rfl
  have low : appMinSize ≤ headerSize s := accepted.low
  have whole : headerSize s ≤ sectors (headerSize s) * sectorSize := by rw [sectors,size]; omega
  rw [flashLoop_write (by omega) rfl (fun j inside => good j (by rw [sectors]; rw [size] at inside; omega)),Nat.sub_zero,
    Nat.add_zero] at looped
  exact ⟨looped,fun inside => mainAppOk_copied (by omega) (fun small => Nat.le_trans (inside small) whole) looped⟩

def codeBytes : List UInt8 := List.replicate 1024 0xFF

def infoBytes : List UInt8 := bytesOf 4 1024 ++ bytesOf 4 (appCrc codeBytes).toNat

/-- An information page and the code behind it. -/
def image : Bytes := Bytes.write (fun _ => 0xFF) 0 infoBytes

def imageHeader : List UInt8 := (AppContainer.containerOf [] image 1536).bytes

/-- The image in the external flash, in a container. -/
def imageFlash (internal : Bytes) : State := ⟨false,Bytes.write (fun a => image (a - payloadAddr)) fwAddr imageHeader,internal⟩

theorem image_size : numberOf (image.read 0 4) = 1024 := by
  have both := Bytes.read_write (fun _ => 0xFF) 0 infoBytes
  have first : image.read 0 4 = bytesOf 4 1024 := by
    rw [← @Bytes.take_read image 0 infoBytes.length 4 (by decide),image,both,infoBytes,List.take_left' (length_bytesOf _ _)]
  rw [first]
  exact numberOf_bytesOf (by decide)

theorem image_crc : numberOf (image.read 4 4) = (appCrc codeBytes).toNat := by
  have both := Bytes.read_write (fun _ => 0xFF) 0 infoBytes
  have length : infoBytes.length = 4 + 4 := by rw [infoBytes,List.length_append,length_bytesOf,length_bytesOf]
  have second : image.read (0 + 4) 4 = bytesOf 4 (appCrc codeBytes).toNat := by
    rw [length,Bytes.read_add,infoBytes] at both
    exact (List.append_inj both (by rw [Bytes.length_read,length_bytesOf])).2
  rw [← Nat.zero_add 4,second]
  exact numberOf_bytesOf (UInt32.toNat_lt _)

theorem image_code : image.read 512 1024 = codeBytes :=
  Bytes.read_replicate fun a low _ => Bytes.write_outside _ (Or.inr (by
    rw [infoBytes,List.length_append,length_bytesOf,length_bytesOf]
    omega))

theorem image_header (internal : Bytes) : (imageFlash internal).external.read fwAddr sectorSize = imageHeader := by
  have length : imageHeader.length = sectorSize := AppContainer.length_bytes _ _ _
  rw [← length]
  exact Bytes.read_write _ _ _

theorem image_headerSize (internal : Bytes) : headerSize (imageFlash internal) = 1536 := by
  rw [headerSize,image_header]
  exact @Toolchain.dataSize_bytes [] image 1536 (by decide)

theorem image_payload (internal : Bytes) (addr len : Nat) :
    (imageFlash internal).external.read (payloadAddr + addr) len = image.read addr len := by
  have length : imageHeader.length = sectorSize := AppContainer.length_bytes _ _ _
  have held : (imageFlash internal).external = Bytes.write (fun a => image (a - payloadAddr)) fwAddr imageHeader := rfl
  rw [← image.read_moved payloadAddr addr len,held]
  refine Bytes.read_congr fun a low _ => Bytes.write_outside _ (Or.inr ?_)
  rw [length]
  exact Nat.le_trans (Nat.le_add_right _ _) low

theorem image_payloadSize (internal : Bytes) : payloadSize (imageFlash internal) = 1024 := by
  rw [payloadSize,← Nat.add_zero payloadAddr,image_payload,image_size]

theorem image_accepted (internal : Bytes) : Accepted Toolchain.toolChsum (imageFlash internal) := by
  have header := image_header internal
  have size : dataSize imageHeader = 1536 := @Toolchain.dataSize_bytes [] image 1536 (by decide)
  have sum : dataChsum imageHeader = (AppContainer.chsum32 (image.read 0 1536) AppContainer.chsum32StartValue).toNat :=
    @Toolchain.dataChsum_bytes [] image 1536
  refine ⟨?_,?_,?_,?_⟩
  · rw [header]
    exact @Toolchain.containerValid_bytes [] image 1536 _ rfl rfl
  · rw [header,size]
    decide
  · rw [header,size]
    decide
  · have start : fwAddr + sectorSize = payloadAddr + 0 := rfl
    rw [header,size,sum,start,image_payload,Toolchain.toolChsum]

theorem image_bootable (internal : Bytes) : Bootable (imageFlash internal) := by
  have page : appInfoPageSize = 512 := rfl
  have bytes := image_payloadSize internal
  refine ⟨?_,?_,?_⟩
  · rw [bytes]
    decide
  · rw [bytes]
    decide
  · rw [bytes,payloadCrc,image_payload,image_payload,image_crc,page,image_code]

/-- Flashed, it boots. -/
theorem mainFlashApp_boots_image : ∃ s',
    mainFlashApp Toolchain.toolChsum (fun _ => true) (imageFlash fun _ => 0xFF) true (List.replicate sectorSize 0) = (true,s') ∧
      mainAppOk s' = true := by
  have accepted := image_accepted fun _ => 0xFF
  obtain ⟨s',ran,_⟩ := mainFlashApp_ok (Toolchain.chsum32_runs rfl) rfl accepted.valid accepted.low accepted.high accepted.sum
  have flashed := (mainFlashApp_reliable _ _).trans ran
  obtain ⟨_,boots⟩ := (mainFlashApp_boots (Toolchain.chsum32_runs rfl) (fun _ => true) true _ _ s').2 flashed
  refine ⟨s',flashed,((boots fun _ _ => rfl).2 fun _ => ?_).mpr (image_bootable _)⟩
  rw [image_payloadSize,image_headerSize]
  decide

def zeroHeader : List UInt8 := (AppContainer.containerOf [] (fun _ => 0) 1024).bytes

def zeroPayload : State := ⟨false,Bytes.write (fun _ => 0) fwAddr zeroHeader,fun _ => 0xFF⟩

theorem zeroPayload_held : zeroPayload.external.read fwAddr sectorSize = zeroHeader := by
  have length : zeroHeader.length = sectorSize := AppContainer.length_bytes _ _ _
  rw [← length]
  exact Bytes.read_write _ _ _

theorem zeroPayload_zeros {a : Nat} (above : fwAddr + sectorSize ≤ a) : zeroPayload.external a = 0 := by
  have length : zeroHeader.length = sectorSize := AppContainer.length_bytes _ _ _
  exact @Bytes.write_outside (fun _ => 0) fwAddr zeroHeader a (Or.inr (by rw [length]; exact above))

theorem zeroPayload_run : ∃ s',
    mainFlashApp Toolchain.toolChsum (fun _ => true) zeroPayload true (List.replicate sectorSize 0) = (true,s') ∧ appInfoSize s' = 0 := by
  have size : dataSize zeroHeader = 1024 := @Toolchain.dataSize_bytes [] (fun _ => 0) 1024 (by decide)
  have sum : dataChsum zeroHeader = (AppContainer.chsum32 (Bytes.read (fun _ => 0) 0 1024) AppContainer.chsum32StartValue).toNat :=
    @Toolchain.dataChsum_bytes [] (fun _ => 0) 1024
  have valid : containerValid Toolchain.toolChsum zeroHeader = true := @Toolchain.containerValid_bytes [] (fun _ => 0) 1024 _ rfl rfl
  have low : appMinSize ≤ 1024 := by decide
  have high : 1024 ≤ appMaxSize := by decide
  have payload : zeroPayload.external.read (fwAddr + sectorSize) 1024 = Bytes.read (fun _ => 0) 0 1024 := by
    rw [Bytes.read_replicate fun _ low _ => zeroPayload_zeros low,Bytes.read_replicate fun _ _ _ => rfl]
  obtain ⟨s',flashed,copied⟩ := @mainFlashApp_ok Toolchain.toolChsum zeroPayload (Toolchain.chsum32_runs rfl) zeroHeader zeroPayload_held
    valid (by rw [size]; exact low) (by rw [size]; exact high) (by rw [size,payload,sum,Toolchain.toolChsum])
  refine ⟨s',(mainFlashApp_reliable _ _).trans flashed,?_⟩
  have blank : s'.internal.read appInfoPageAddr 4 = List.replicate 4 0 := by
    apply Bytes.read_replicate
    intro a low high
    have byte := copied (a - appInfoPageAddr) (by omega)
    rw [Nat.add_sub_cancel' low] at byte
    rw [byte]
    exact zeroPayload_zeros (Nat.le_add_right _ _)
  rw [appInfoSize,blank]
  rfl

/-- It is flashed, and does not boot. -/
theorem zeroPayload_flashed : ∃ s',
    mainFlashApp Toolchain.toolChsum (fun _ => true) zeroPayload true (List.replicate sectorSize 0) = (true,s') ∧ mainAppOk s' = false := by
  obtain ⟨s',flashed,none⟩ := zeroPayload_run
  refine ⟨s',flashed,?_⟩
  rw [mainAppOk,none,if_pos (Or.inr (by decide))]

end Booting

end JcaFirmware.BootloaderReads
