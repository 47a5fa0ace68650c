import JcaFirmware.Ihex

/-! The bootloader (`main.c`, `ext_storage.c`, `container.c`, `app_info.[ch]`): it writes the
lines of an iHEX to the external flash, checks the container there, copies what is in it to
the internal flash, and checks the application before it runs it. Both flashes are
memories; the checksum of the SDK is a parameter. -/
namespace JcaFirmware.Bootloader
open Foundation IntelHex Ihex

section Layout

def kb : Nat := 1024

def blSize : Nat := 32 * kb

def appInfoPageSize : Nat := 512

def appMaxSize : Nat := 512 * kb - blSize - appInfoPageSize

def appMinSize : Nat := 1 * kb

def flashStartAddr : Nat := 0x8000000

def appInfoPageAddr : Nat := flashStartAddr + blSize

def appStartAddr : Nat := flashStartAddr + blSize + appInfoPageSize

def sectorSize : Nat := 512

def fwMaxSize : Nat := 256 * 1024

def fwAddr : Nat := 4096 * 1024 - fwMaxSize

def fwStartSector : Nat := fwAddr / sectorSize

end Layout

/-- What the SDK has for `chsum32`. -/
structure Chsum where
  chsum32 : List UInt8 → UInt32 → UInt32
  startValue : UInt32

structure State where
  storageReady : Bool
  external : Bytes
  internal : Bytes

section Storage

def extStorageInit (s : State) : Bool × State := (true,{s with storageReady := true})

def sectorRead (s : State) (sector : Nat) : List UInt8 := s.external.read (sector * sectorSize) sectorSize

def extStorageWriteData (addr : Nat) (src : List UInt8) (s : State) : Bool × State :=
  if s.storageReady = false then (false,s)
  else if addr < fwAddr ∨ fwAddr + fwMaxSize < (addr + src.length) % 2 ^ 32 then (false,s)
  else (true,{s with external := s.external.write addr src})

/-- `ihex_parse` of the bootloader, line by line. -/
def ihexFeed (lines : List (List UInt8)) (s : State) : Except String (Parse State) :=
  ihexLines (fun addr data s => .ok (extStorageWriteData addr data s)) false lines ⟨0,s⟩

variable (sdk : Chsum)

def sizeofContainerHdr : Nat := 512

def dataSize (container : List UInt8) : Nat := numberOf (container.take 4)

def dataChsum (container : List UInt8) : Nat := numberOf ((container.drop 4).take 4)

def hdrChsum (container : List UInt8) : Nat := numberOf ((container.drop 508).take 4)

def containerValid (data : List UInt8) : Bool :=
  if sizeofContainerHdr ≠ data.length then false
  else if hdrChsum data ≠ (sdk.chsum32 (data.take (data.length - 4)) sdk.startValue).toNat then false
  else true

def containerCompatible (_ : List UInt8) : Bool := true

-- The rounds bound the `while` over the sectors; there is one for every byte.
def chsumLoop (s : State) : Nat → Nat → Nat → UInt32 → UInt32
  | 0, _, _, fwChsum => fwChsum
  | rounds + 1, sector, l, fwChsum =>
    if l = 0 then fwChsum
    else
      let buf := sectorRead s (sector + 1)
      let fwChsum := sdk.chsum32 (buf.take (if sectorSize < l then sectorSize else l)) fwChsum
      chsumLoop s rounds (sector + 1) (l - sectorSize) fwChsum

/-- `ext_storage_check_fw`, with the container that it finds. -/
def extStorageCheckFw (s : State) : Option (List UInt8) :=
  if s.storageReady = false then none
  else
    let container := sectorRead s fwStartSector
    if containerValid sdk container = false then none
    else if containerCompatible container = false then none
    else if dataSize container < appMinSize ∨ appMaxSize < dataSize container then none
    else
      let fwChsum := chsumLoop sdk s (dataSize container) fwStartSector (dataSize container) sdk.startValue
      if fwChsum.toNat = dataChsum container then some container else none

def extStorageReadFw (s : State) (len offset : Nat) : Option (List UInt8) :=
  if len ≠ sectorSize ∨ offset % sectorSize ≠ 0 then none
  else some (sectorRead s ((fwAddr + (offset + sectorSize)) / sectorSize))

end Storage

section Application

variable (sdk : Chsum)

-- What cannot be read is not looked at: the buffer is written as it is.
/-- The loop of `main_flash_app`, with its `buf` and the internal flash. -/
def flashLoop (s : State) (size : Nat) : Nat → Nat → Nat → List UInt8 → Bytes → Bytes
  | 0, _, _, _, internal => internal
  | rounds + 1, i, dest, buf, internal =>
    if size ≤ i then internal
    else
      let buf := (extStorageReadFw s sectorSize i).getD buf
      flashLoop s size rounds (i + sectorSize) (dest + sectorSize) buf (internal.write dest buf)

def mainFlashApp (s : State) : Bool × State :=
  let (ok,s) := extStorageInit s
  if ok = false then (false,s)
  else
    match extStorageCheckFw sdk s with
    | none => (false,s)
    | some container =>
      let internal := flashLoop s (dataSize container) (dataSize container) 0 appInfoPageAddr
        (List.replicate sectorSize 0) s.internal
      (true,{s with internal})

/-- The rounds of `app_crc` for one byte. -/
def crcByte (crc : UInt32) (b : UInt8) : UInt32 :=
  (fun crc : UInt32 => (crc >>> 1) ^^^ (0xEDB88320 &&& (0 - (crc &&& 1))))^[8] (crc ^^^ b.toUInt32)

def appCrc (data : List UInt8) : UInt32 := ~~~ data.foldl crcByte 0xFFFFFFFF

/-- `APP_INFO.size` and `APP_INFO.crc`. -/
def appInfoSize (s : State) : Nat := numberOf (s.internal.read appInfoPageAddr 4)

def appInfoCrc (s : State) : Nat := numberOf (s.internal.read (appInfoPageAddr + 4) 4)

def mainAppOk (s : State) : Bool :=
  if appMaxSize < appInfoSize s ∨ appInfoSize s < appMinSize then false
  else (appCrc (s.internal.read appStartAddr (appInfoSize s))).toNat = appInfoCrc s

end Application

section Writing

theorem feed_write {pieces : List Piece} {base : Nat} (ascending : Ascending base pieces) (above : fwAddr ≤ base)
    (fits : endOf base pieces ≤ fwAddr + fwMaxSize) {s : State} (ready : s.storageReady = true) :
    feed (fun addr data s => .ok (extStorageWriteData addr data s)) pieces s =
      .ok {s with external := place s.external pieces} := by
  refine feed_follows _ (fun _ m => {s with external := m}) (fun base m addr data low order inside => ⟨true,?_⟩) ascending above
    fits s.external
  have small : fwAddr + fwMaxSize < 2 ^ 32 := by decide
  have whole : (addr + data.length) % 2 ^ 32 = addr + data.length := Nat.mod_eq_of_lt (by omega)
  rw [extStorageWriteData,if_neg (by simp [ready]),whole,if_neg (by omega)]

theorem ihexFeed_closed {lines : List (List UInt8)} {pieces : List Piece} (closed : Closed lines pieces)
    (ascending : Ascending fwAddr pieces) (fits : endOf fwAddr pieces ≤ fwAddr + fwMaxSize) {s : State}
    (ready : s.storageReady = true) :
    ihexFeed lines s = .ok ⟨0,{s with external := place s.external pieces}⟩ := by
  rw [ihexFeed,closed.feed,feed_write ascending (Nat.le_refl _) fits ready]
  rfl

end Writing

section Checking

variable {sdk : Chsum} {s : State}

/-- The checksum of some bytes goes on from that of the bytes before them. -/
def Chsum.Runs (sdk : Chsum) : Prop :=
  ∀ first second value, sdk.chsum32 (first ++ second) value = sdk.chsum32 second (sdk.chsum32 first value)

theorem chsumLoop_eq (runs : sdk.Runs) {rounds sector l : Nat} (enough : l ≤ rounds) (some : 0 < l) (value : UInt32) :
    chsumLoop sdk s rounds sector l value = sdk.chsum32 (s.external.read ((sector + 1) * sectorSize) l) value := by
  induction rounds generalizing sector l value with
  | zero => omega
  | succ rounds ih =>
    have positive : 0 < sectorSize := by decide
    rw [chsumLoop,if_neg (by omega),sectorRead]
    dsimp only
    by_cases more : sectorSize < l
    · have left : l = sectorSize + (l - sectorSize) := by omega
      have next : (sector + 1) * sectorSize + sectorSize = (sector + 1 + 1) * sectorSize := by rw [Nat.succ_mul (sector + 1)]
      rw [if_pos more,Bytes.take_read _ (Nat.le_refl _),ih (by omega) (by omega),← runs,← next,← Bytes.read_add,← left]
    · have done : l - sectorSize = 0 := by omega
      rw [if_neg more,Bytes.take_read _ (by omega),done]
      cases rounds with
      | zero => rfl
      | succ rounds => rw [chsumLoop,if_pos rfl]

theorem extStorageCheckFw_ok (runs : sdk.Runs) (ready : s.storageReady = true) {container : List UInt8}
    (held : s.external.read fwAddr sectorSize = container) (valid : containerValid sdk container = true)
    (low : appMinSize ≤ dataSize container) (high : dataSize container ≤ appMaxSize)
    (sum : (sdk.chsum32 (s.external.read (fwAddr + sectorSize) (dataSize container)) sdk.startValue).toNat = dataChsum container) :
    extStorageCheckFw sdk s = some container := by
  have positive : 0 < appMinSize := by decide
  have first : fwStartSector * sectorSize = fwAddr := rfl
  have second : (fwStartSector + 1) * sectorSize = fwAddr + sectorSize := rfl
  have found : sectorRead s fwStartSector = container := by rw [sectorRead,first,held]
  rw [extStorageCheckFw,if_neg (by simp [ready]),found]
  dsimp only
  rw [if_neg (by simp [valid]),if_neg (by simp [containerCompatible]),if_neg (by omega),
    chsumLoop_eq runs (Nat.le_refl _) (by omega),second,if_pos sum]

theorem sector_of_offset {i : Nat} (aligned : i % sectorSize = 0) :
    (fwAddr + (i + sectorSize)) / sectorSize * sectorSize = fwAddr + sectorSize + i := by
  have base : fwAddr % sectorSize = 0 := by decide
  have divides : sectorSize ∣ fwAddr + (i + sectorSize) := by
    apply Nat.dvd_of_mod_eq_zero
    rw [Nat.add_mod,base,Nat.add_mod_right,aligned]
    rfl
  rw [Nat.div_mul_cancel divides]
  omega

/-- The copied bytes are those behind the container, and none before them is touched. -/
theorem flashLoop_spec {size rounds i dest : Nat} (enough : size ≤ i + rounds) (aligned : i % sectorSize = 0) (buf : List UInt8)
    (internal : Bytes) (a : Nat) :
    (a < dest → flashLoop s size rounds i dest buf internal a = internal a) ∧
      (dest ≤ a → a + i < dest + size → flashLoop s size rounds i dest buf internal a = s.external (fwAddr + sectorSize + i + (a - dest))) := by
  induction rounds generalizing i dest buf internal with
  | zero => exact ⟨fun _ => rfl,fun _ _ => by omega⟩
  | succ rounds ih =>
    rw [flashLoop]
    by_cases done : size ≤ i
    · rw [if_pos done]
      exact ⟨fun _ => rfl,fun _ _ => by omega⟩
    · have positive : 0 < sectorSize := by decide
      have read : extStorageReadFw s sectorSize i = some (s.external.read (fwAddr + sectorSize + i) sectorSize) := by
        rw [extStorageReadFw,if_neg (by simp [aligned]),sectorRead,sector_of_offset aligned]
      have length := s.external.length_read (fwAddr + sectorSize + i) sectorSize
      obtain ⟨before,behind⟩ := @ih (i + sectorSize) (dest + sectorSize) (by omega) (by rw [Nat.add_mod_right,aligned])
        (s.external.read (fwAddr + sectorSize + i) sectorSize)
        (internal.write dest (s.external.read (fwAddr + sectorSize + i) sectorSize))
      rw [if_neg done,read,Option.getD_some]
      refine ⟨fun low => ?_,fun low high => ?_⟩
      · rw [before (by omega),internal.write_outside (Or.inl low)]
      · by_cases here : a < dest + sectorSize
        · rw [before here,internal.write_get low (by omega),Bytes.getD_read _ (by omega)]
        · have same : fwAddr + sectorSize + (i + sectorSize) + (a - (dest + sectorSize)) = fwAddr + sectorSize + i + (a - dest) := by
            omega
          rw [behind (by omega) (by omega),same]

theorem mainFlashApp_ok (runs : sdk.Runs) {container : List UInt8} (held : s.external.read fwAddr sectorSize = container)
    (valid : containerValid sdk container = true) (low : appMinSize ≤ dataSize container) (high : dataSize container ≤ appMaxSize)
    (sum : (sdk.chsum32 (s.external.read (fwAddr + sectorSize) (dataSize container)) sdk.startValue).toNat = dataChsum container) :
    ∃ s', mainFlashApp sdk s = (true,s') ∧
      ∀ a < dataSize container, s'.internal (appInfoPageAddr + a) = s.external (fwAddr + sectorSize + a) := by
  have found : extStorageCheckFw sdk {s with storageReady := true} = some container :=
    @extStorageCheckFw_ok sdk {s with storageReady := true} runs rfl container held valid low high sum
  refine ⟨{s with
    storageReady := true
    internal := flashLoop {s with storageReady := true} (dataSize container) (dataSize container) 0 appInfoPageAddr
      (List.replicate sectorSize 0) s.internal},?_,fun a inside => ?_⟩
  · rw [mainFlashApp,extStorageInit]
    dsimp only
    rw [if_neg Bool.noConfusion,found]
  · obtain ⟨_,copied⟩ := @flashLoop_spec {s with storageReady := true} (dataSize container) (dataSize container) 0 appInfoPageAddr
      (by omega) rfl (List.replicate sectorSize 0) s.internal (appInfoPageAddr + a)
    rw [Nat.add_zero,Nat.add_sub_cancel_left] at copied
    exact copied (Nat.le_add_right _ _) (by omega)

end Checking

end JcaFirmware.Bootloader
