import JcaFirmware.Foundation.Region
import JcaFirmware.IhexRoundTrip
import JcaFirmware.Toolchain

/-! The limits of size on the way of an application to the device: the range of the CRC tool, the
array of the container tool, the check of the bootloader, and its area in the external
flash. The records of the application may come in any layout. -/
namespace JcaFirmware.SizeLimits
open Foundation IntelHex Ihex AppCrc AppContainer

section Tool

def aesPageSize : Nat := 512

-- The rounds bound the `for` over the pages; there is one for every byte.
def cryptLoop (aesCryptCbc : List UInt8 → List UInt8) : Nat → List UInt8 → List UInt8
  | 0, data => data
  | rounds + 1, data =>
    if data = [] then []
    else aesCryptCbc (data.take aesPageSize) ++ cryptLoop aesCryptCbc rounds (data.drop aesPageSize)

variable (encrypt : Option (List UInt8 → List UInt8)) (fwName : List UInt8)

/-- The size with its padding, `(app_size+15) & ~15`, for the option `-e`. -/
def totalSize (appSize : Nat) : Nat := if encrypt.isSome then (appSize + 15) / 16 * 16 else appSize

/-- The data of the container; `aesCryptCbc` encrypts a page of it. -/
def dataOf (s : AppContainer.State) : List UInt8 :=
  let plain := s.fwData.read 0 (totalSize encrypt s.appSize)
  encrypt.elim plain fun aesCryptCbc => cryptLoop aesCryptCbc (totalSize encrypt s.appSize) plain

def headerOf (s : AppContainer.State) : ContainerHdr :=
  {containerOf fwName s.fwData (totalSize encrypt s.appSize) with
    dataChsum := chsum32 (dataOf encrypt s) chsum32StartValue
    aes := encrypt.isSome}

def output (s : AppContainer.State) : List (List UInt8) :=
  let o := (Output.mk 0 []).flush destRemapAddress (headerOf encrypt fwName s).bytes
  let o := o.flush (destRemapAddress + sizeofContainerHdr) (dataOf encrypt s)
  o.lines ++ [endLine]

def main (file : List UInt8) : Except String (List (List UInt8)) := do
  let (_,p) ← rxFeedAll loadBin true file ([],⟨0,AppContainer.start⟩)
  if (numberOf (p.state.fwData.read 0 4) + appInfoPageSize) % 2 ^ 32 ≠ p.state.appSize then .error "app size mismatch"
  else .ok (output encrypt fwName p.state)

theorem main_none (file : List UInt8) : main none fwName file = AppContainer.main fwName file := by
  rw [main,AppContainer.main]
  cases rxFeedAll loadBin true file ([],⟨0,AppContainer.start⟩) with
  | error fault => rfl
  | ok result => rfl

end Tool

section Counting

/-- The pieces that do not belong to the information page. -/
def codesOf (pieces : List Piece) : List Piece := pieces.filter fun piece => ¬ inInfoPage piece.1 piece.2.length

/-- What holds of the page in every pass: it is erased behind its data, which ends within it, unless a record wraps
around the end of the address space. -/
structure Page (s : AppCrc.State) : Prop where
  erased : ∀ b, s.infoSize ≤ b → s.appInfoPage b = 0xFF
  size : s.infoSize < appInfoPageSize ∨ 2 ^ 32 ≤ appInfoPageAddr + s.infoSize

theorem Page.device {s : AppCrc.State} (page : Page s) (device : s.deviceId ≠ 0xFFFF) : 9 ≤ s.infoSize := by
  by_contra short
  apply device
  have read : s.appInfoPage.read 8 2 = List.replicate 2 0xFF :=
    Bytes.read_replicate fun a low _ => page.erased a (by omega)
  rw [AppCrc.State.deviceId,read]
  rfl

theorem Page.write {s : AppCrc.State} (page : Page s) {addr : Nat} {data : List UInt8} (small : addr < 2 ^ 32)
    (short : data.length < 256) (info : inInfoPage addr data.length) :
    Page {s with
      appInfoPage := s.appInfoPage.write (addr - appInfoPageAddr) data
      infoSize := max s.infoSize (addr - appInfoPageAddr + data.length)} := by
  obtain ⟨low,below⟩ := info
  refine ⟨fun b behind => ?_,?_⟩
  · dsimp only at behind ⊢
    rw [Bytes.write_outside _ (Or.inr (by omega))]
    exact page.erased b (by omega)
  · have size := page.size
    have behind : appInfoPageAddr + appInfoPageSize = appStartAddr := rfl
    dsimp only
    by_cases wrapped : addr + data.length < 2 ^ 32
    · rw [Nat.mod_eq_of_lt wrapped] at below
      omega
    · omega

/-- What the first pass has counted of the pieces. -/
structure Counted (before after : AppCrc.State) (pieces : List Piece) : Prop where
  page : Page after
  more : before.infoSize ≤ after.infoSize
  range : ∀ piece ∈ codesOf pieces, appStartAddr ≤ piece.1 ∧ piece.1 + piece.2.length ≤ appStartAddr + appMaxSize
  size : after.appSize = endOf (appStartAddr + before.appSize) (codesOf pieces) - appStartAddr
  header : codesOf pieces ≠ [] → 9 ≤ after.infoSize

end Counting

section Printing

end Printing

section Loading

end Loading

section Accepted

variable {file : List UInt8} {pieces : List Piece} {lines : List (List UInt8)}

variable {encrypt : Option (List UInt8 → List UInt8)} {fwName : List UInt8} {container : List (List UInt8)}

end Accepted

section Produced

variable {encrypt : Option (List UInt8 → List UInt8)} (fwName : List UInt8)

end Produced

section Limits

/-- The data records that a reader of the lines finds. -/
def records (lines : List (List UInt8)) : List Piece :=
  (ihexLines (request fun _ _ => true) true lines ⟨0,[]⟩).toOption.elim [] Parse.state

def fwDataArray : Region := ⟨0,appMaxSize⟩

def firmwareArea : Region := ⟨Bootloader.fwAddr,Bootloader.fwMaxSize⟩

/-- The sizes agree: the container tool copies what it reads into its array, the size in the header it prints passes the
check of the bootloader (which bounds what it encrypts, too), and its records lie in the area of the bootloader. -/
structure Agree (lines container : List (List UInt8)) : Prop where
  array : ∀ piece ∈ records lines, fwDataArray.Contains (piece.1 - appInfoPageAddr) piece.2.length
  check : Bootloader.appMinSize ≤ Bootloader.dataSize ((image (records container)).read Bootloader.fwAddr Bootloader.sectorSize) ∧
    Bootloader.dataSize ((image (records container)).read Bootloader.fwAddr Bootloader.sectorSize) ≤ Bootloader.appMaxSize
  area : ∀ piece ∈ records container, firmwareArea.Contains piece.1 piece.2.length

variable {encrypt : Option (List UInt8 → List UInt8)} {fwName file : List UInt8} {pieces : List Piece}
  {lines container : List (List UInt8)}

theorem image_accepted {infos codes : List Piece} (app : Image infos codes) (fits : endOf appStartAddr codes ≤ appStartAddr + appMaxSize)
    (some : appStartAddr < dataEnd appStartAddr codes) (last : dataEnd appStartAddr codes = endOf appStartAddr codes)
    (holds : Holds file (infos ++ codes)) (short : file.length < maxFileSize) (fwName : List UInt8) :
    ∃ lines container, AppCrc.main file = .ok lines ∧ main none fwName (stream lines) = .ok container := by
  obtain ⟨lines,crc,held,ascending,ends⟩ := Toolchain.crc_output app fits some holds short
  obtain ⟨container,tool,_⟩ := AppContainer.main_ok fwName held ascending (by omega) (Toolchain.declared_size app fits some last)
  exact ⟨lines,container,crc,(main_none fwName _).trans tool⟩

end Limits

section Files
open Toolchain

/-- A header, and one byte of code. -/
def smallRecords : List Record :=
  [baseRecord,⟨.data,0x8000,[0xFF,0xFF,0xFF,0xFF,0xFF,0xFF,0xFF,0xFF,1,0,0,0,0,0,0xFF,0xFF]⟩,⟨.data,0x8200,[1]⟩]

end Files

end JcaFirmware.SizeLimits
