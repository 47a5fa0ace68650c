import JcaFirmware.AppCrc

/-! The container tool (`ut/app_container/main.c`, `ut/common/container.h`), without
encryption and with the output as iHEX: it puts the application behind a header, at
the place in the external flash where the bootloader looks for them. -/
namespace JcaFirmware.AppContainer
open Foundation CText IntelHex Ihex AppCrc

section Tool

def chsum32StartValue : UInt32 := 0x6B13FF7D

def destRemapAddress : Nat := 0x3C0000

def containerFwNameLen : Nat := 16

def chsum32 (data : List UInt8) (startValue : UInt32) : UInt32 :=
  data.foldl (fun value b => (value <<< 1) + ((value >>> 31) &&& 1) + b.toUInt32) startValue

structure State where
  fwData : Bytes
  destAddr : Nat
  appSize : Nat

def start : State := ⟨fun _ => 0xFF,0,0⟩

-- The end of `fw_data` is 512 bytes before that of the range; here it has none.
def loadBin (addr : Nat) (data : List UInt8) (s : State) : Except String (Bool × State) :=
  if addr < appInfoPageAddr ∨ appStartAddr + appMaxSize < (addr + data.length) % 2 ^ 32 then .error "data out of range"
  else
    let a := addr - appInfoPageAddr
    if a < s.destAddr then .error "cant skip back"
    else .ok (true,⟨s.fwData.write a data,a + data.length,a + data.length⟩)

structure ContainerHdr where
  dataSize : Nat
  dataChsum : UInt32
  generatedForHwNum : Nat
  deviceId : Nat
  hwVersionMin : Nat
  hwVersionMax : Nat
  fwName : List UInt8
  aes : Bool

/-- The header as it lies in memory, before its own checksum, -/
def ContainerHdr.body (c : ContainerHdr) : List UInt8 :=
  bytesOf 4 c.dataSize ++ (bytesOf 4 c.dataChsum.toNat ++ (bytesOf 4 c.generatedForHwNum ++ bytesOf 2 c.deviceId ++
    bytesOf 2 c.hwVersionMin ++ bytesOf 2 c.hwVersionMax ++ c.fwName ++ [if c.aes then 1 else 0] ++
    List.replicate (512 - 35 - 4) 0))

/-- and with it. -/
def ContainerHdr.bytes (c : ContainerHdr) : List UInt8 :=
  c.body ++ bytesOf 4 (chsum32 c.body chsum32StartValue).toNat

def sizeofContainerHdr : Nat := 512

/-- The header that `main` makes. -/
def containerOf (fwName : List UInt8) (fwData : Bytes) (appSize : Nat) : ContainerHdr where
  dataSize := appSize
  dataChsum := chsum32 (fwData.read 0 appSize) chsum32StartValue
  generatedForHwNum := 0
  deviceId := numberOf (fwData.read 8 2)
  hwVersionMin := numberOf (fwData.read 10 2)
  hwVersionMax := numberOf (fwData.read 12 2)
  fwName := strncpy containerFwNameLen fwName
  aes := false

/-- `main`: what it prints for the file on its input. -/
def main (fwName file : List UInt8) : Except String (List (List UInt8)) := do
  let (_,p) ← rxFeedAll loadBin true file ([],⟨0,start⟩)
  let s := p.state
  if (numberOf (s.fwData.read 0 4) + appInfoPageSize) % 2 ^ 32 ≠ s.appSize then .error "app size mismatch"
  else
    let o := (Output.mk 0 []).flush destRemapAddress (containerOf fwName s.fwData s.appSize).bytes
    let o := o.flush (destRemapAddress + sizeofContainerHdr) (s.fwData.read 0 s.appSize)
    .ok (o.lines ++ [endLine])

end Tool

section Container

theorem length_strncpy (n : Nat) (text : List UInt8) : (strncpy n text).length = n := by
  rw [strncpy,List.length_append,List.length_take,List.length_replicate]
  omega

theorem length_body (fwName : List UInt8) (fwData : Bytes) (appSize : Nat) :
    (containerOf fwName fwData appSize).body.length = 508 := by
  simp only [ContainerHdr.body,containerOf,List.length_append,length_bytesOf,length_strncpy,List.length_replicate,
    List.length_singleton,containerFwNameLen]

theorem length_bytes (fwName : List UInt8) (fwData : Bytes) (appSize : Nat) :
    (containerOf fwName fwData appSize).bytes.length = sizeofContainerHdr := by
  rw [ContainerHdr.bytes,List.length_append,length_body,length_bytesOf,sizeofContainerHdr]

/-- What the tool has of the pieces of a file. -/
def loaded (pieces : List Piece) : State where
  fwData := (image pieces).shift appInfoPageAddr
  destAddr := endOf appInfoPageAddr pieces - appInfoPageAddr
  appSize := endOf appInfoPageAddr pieces - appInfoPageAddr

theorem feed_load {pieces : List Piece} {base : Nat} (ascending : Ascending base pieces) (above : appInfoPageAddr ≤ base)
    (fits : endOf base pieces ≤ appStartAddr + appMaxSize) (m : Bytes) :
    feed loadBin pieces ⟨m.shift appInfoPageAddr,base - appInfoPageAddr,base - appInfoPageAddr⟩ =
      .ok ⟨(place m pieces).shift appInfoPageAddr,endOf base pieces - appInfoPageAddr,endOf base pieces - appInfoPageAddr⟩ := by
  refine feed_follows loadBin (fun ends m => ⟨m.shift appInfoPageAddr,ends - appInfoPageAddr,ends - appInfoPageAddr⟩)
    (fun base m addr data low order inside => ⟨true,?_⟩) ascending above fits m
  have small : appStartAddr + appMaxSize < 2 ^ 32 := by decide
  have whole : (addr + data.length) % 2 ^ 32 = addr + data.length := Nat.mod_eq_of_lt (by omega)
  have behind : addr - appInfoPageAddr + data.length = addr + data.length - appInfoPageAddr := by omega
  rw [loadBin,whole,if_neg (by omega)]
  dsimp only
  rw [if_neg (by omega),behind,← Bytes.shift_write m (by omega)]

variable {pieces : List Piece} {file : List UInt8} (fwName : List UInt8)

theorem rxFeedAll_load (holds : Holds file pieces) (ascending : Ascending appInfoPageAddr pieces)
    (fits : endOf appInfoPageAddr pieces ≤ appStartAddr + appMaxSize) :
    rxFeedAll loadBin true file ([],⟨0,start⟩) = .ok ([],⟨0,loaded pieces⟩) := by
  have fed : feed loadBin pieces start = .ok (loaded pieces) := feed_load ascending (Nat.le_refl _) fits fun _ => 0xFF
  rw [holds.feed,fed]
  rfl

theorem main_mismatch (holds : Holds file pieces) (ascending : Ascending appInfoPageAddr pieces)
    (fits : endOf appInfoPageAddr pieces ≤ appStartAddr + appMaxSize)
    (other : (numberOf ((loaded pieces).fwData.read 0 4) + appInfoPageSize) % 2 ^ 32 ≠ (loaded pieces).appSize) :
    main fwName file = .error "app size mismatch" := by
  rw [main,rxFeedAll_load holds ascending fits]
  dsimp only [bind,Except.bind]
  rw [if_pos other]

theorem main_ok (holds : Holds file pieces) (ascending : Ascending appInfoPageAddr pieces)
    (fits : endOf appInfoPageAddr pieces ≤ appStartAddr + appMaxSize)
    (size : numberOf ((loaded pieces).fwData.read 0 4) + appInfoPageSize = (loaded pieces).appSize) :
    ∃ lines, main fwName file = .ok lines ∧
      Closed lines (piecesOf destRemapAddress (containerOf fwName (loaded pieces).fwData (loaded pieces).appSize).bytes ++
        piecesOf (destRemapAddress + sizeofContainerHdr) ((loaded pieces).fwData.read 0 (loaded pieces).appSize)) := by
  have bound : (loaded pieces).appSize = endOf appInfoPageAddr pieces - appInfoPageAddr := rfl
  have small : destRemapAddress + sizeofContainerHdr + (appStartAddr + appMaxSize) < 2 ^ 32 := by decide
  have whole : (numberOf ((loaded pieces).fwData.read 0 4) + appInfoPageSize) % 2 ^ 32 = (loaded pieces).appSize := by
    rw [size]
    exact Nat.mod_eq_of_lt (by omega)
  have empty : (Output.mk 0 []).Places [] := Printed.nil 0
  have header : ((Output.mk 0 []).flush destRemapAddress (containerOf fwName (loaded pieces).fwData (loaded pieces).appSize).bytes).Places
      ([] ++ piecesOf destRemapAddress (containerOf fwName (loaded pieces).fwData (loaded pieces).appSize).bytes) :=
    Output.flush_places empty (by rw [length_bytes]; omega)
  rw [List.nil_append] at header
  have dataLength := Bytes.length_read (loaded pieces).fwData 0 (loaded pieces).appSize
  have data := @Output.flush_places _ _ header (destRemapAddress + sizeofContainerHdr)
    ((loaded pieces).fwData.read 0 (loaded pieces).appSize) (by omega)
  refine ⟨_,?_,data.closed⟩
  rw [main,rxFeedAll_load holds ascending fits]
  dsimp only [bind,Except.bind]
  rw [if_neg (not_not.mpr whole)]

end Container

end JcaFirmware.AppContainer
