import JcaFirmware.Ihex

/-! The CRC tool (`ut/app_crc/main.c`, `ut/common/app.h`). It reads the iHEX of an
application twice: for the size and the CRC of its code, and to print the file again
with both of them in the information page. -/
namespace JcaFirmware.AppCrc
open Foundation IntelHex Ihex

section Layout

def kb : Nat := 1024

def blSize : Nat := 32 * kb

def appInfoPageSize : Nat := 512

def appMaxSize : Nat := 512 * kb - blSize - appInfoPageSize

def flashStartAddr : Nat := 0x8000000

def appInfoPageAddr : Nat := flashStartAddr + blSize

def appStartAddr : Nat := flashStartAddr + blSize + appInfoPageSize

end Layout

section Tool

/-- The rounds of `_app_crc_calc` for one byte. -/
def crcByte (crc : UInt32) (b : UInt8) : UInt32 :=
  (fun crc : UInt32 => (crc >>> 1) ^^^ (0xEDB88320 &&& (0 - (crc &&& 1))))^[8] (crc ^^^ b.toUInt32)

/-- `_app_crc_calc`, with the register that it keeps. -/
def appCrcCalc (crc : UInt32) (data : List UInt8) : UInt32 := data.foldl crcByte crc

structure State where
  appInfoPage : Bytes
  crc : UInt32
  appSize : Nat
  infoSize : Nat
  destAddr : Nat

def start : State := ⟨fun _ => 0xFF,0xFFFFFFFF,0,0,0⟩

def inInfoPage (addr len : Nat) : Prop :=
  appInfoPageAddr ≤ addr ∧ (addr + len) % 2 ^ 32 < appInfoPageAddr + appInfoPageSize

instance (addr len : Nat) : Decidable (inInfoPage addr len) := inferInstanceAs (Decidable (_ ∧ _))

def State.deviceId (s : State) : Nat := numberOf (s.appInfoPage.read 8 2)

-- Of a gap every byte counts as one of erased flash.
def computeCrc (addr : Nat) (data : List UInt8) (s : State) : Except String (Bool × State) :=
  if inInfoPage addr data.length then
    let a := addr - appInfoPageAddr
    .ok (true,{s with appInfoPage := s.appInfoPage.write a data, infoSize := max s.infoSize (a + data.length)})
  else if addr < appStartAddr ∨ appStartAddr + appMaxSize < (addr + data.length) % 2 ^ 32 then .error "data out of range"
  else if s.deviceId = 0xFFFF ∨ s.infoSize = 0 then .error "data without info page"
  else if s.destAddr ≠ 0 ∧ addr < s.destAddr then .error "cant skip back"
  else
    let gap := if s.destAddr = 0 then 0 else addr - s.destAddr
    let destAddr := (addr + data.length) % 2 ^ 32
    .ok (true,{s with
      crc := appCrcCalc (appCrcCalc s.crc (List.replicate gap 0xFF)) data
      destAddr
      appSize := destAddr - appStartAddr})

def flushData (addr : Nat) (data : List UInt8) (o : Output) : Except String (Bool × Output) :=
  if inInfoPage addr data.length then .ok (true,o) else .ok (true,o.flush addr data)

def maxFileSize : Nat := 5 * 1024 * 1024

/-- The information page, with the size and the CRC. -/
def State.page (s : State) : Bytes :=
  (s.appInfoPage.write 0 (bytesOf 4 s.appSize)).write 4 (bytesOf 4 (~~~s.crc).toNat)

theorem State.page_size (s : State) : s.page.read 0 4 = bytesOf 4 s.appSize := by
  rw [State.page,Bytes.read_write_apart _ (by simp)]
  exact Bytes.read_write _ 0 (bytesOf 4 _)

theorem State.page_crc (s : State) : s.page.read 4 4 = bytesOf 4 (~~~s.crc).toNat := Bytes.read_write _ 4 (bytesOf 4 _)

/-- `main`: what it prints for the file on its input. -/
def main (file : List UInt8) : Except String (List (List UInt8)) := do
  if maxFileSize ≤ file.length then .error "size overflow"
  else
    let (ihexBuf,p) ← rxFeedAll computeCrc true file ([],⟨0,start⟩)
    let o := (Output.mk 0 []).flush appInfoPageAddr (p.state.page.read 0 p.state.infoSize)
    let (_,p) ← rxFeedAll flushData true file (ihexBuf,⟨p.addrHiword,o⟩)
    .ok (p.state.lines ++ [endLine])

end Tool

section Image

/-- An application: the data of its information page, and behind it that of its code. -/
structure Image (infos codes : List Piece) : Prop where
  infoPage : Ascending appInfoPageAddr infos
  inside : endOf appInfoPageAddr infos < appInfoPageAddr + appInfoPageSize
  header : appInfoPageAddr + 16 ≤ endOf appInfoPageAddr infos
  deviceId : numberOf ((image infos).read (appInfoPageAddr + 8) 2) ≠ 0xFFFF
  code : Ascending appStartAddr codes
  first : ∃ data others, codes = (appStartAddr,data) :: others

theorem inInfoPage_of {addr len : Nat} (low : appInfoPageAddr ≤ addr)
    (inside : addr + len < appInfoPageAddr + appInfoPageSize) : inInfoPage addr len := by
  have small : appInfoPageAddr + appInfoPageSize < 2 ^ 32 := by decide
  refine ⟨low,?_⟩
  rw [Nat.mod_eq_of_lt (by omega)]
  exact inside

theorem computeCrc_info {addr : Nat} {data : List UInt8} (low : appInfoPageAddr ≤ addr)
    (inside : addr + data.length < appInfoPageAddr + appInfoPageSize) (s : State) :
    computeCrc addr data s = .ok (true,{s with
      appInfoPage := s.appInfoPage.write (addr - appInfoPageAddr) data
      infoSize := max s.infoSize (addr - appInfoPageAddr + data.length)}) := by
  rw [computeCrc,if_pos (inInfoPage_of low inside)]

theorem not_inInfoPage {addr len : Nat} (low : appStartAddr ≤ addr) (fits : addr + len ≤ appStartAddr + appMaxSize) :
    ¬ inInfoPage addr len := by
  have small : appStartAddr + appMaxSize < 2 ^ 32 := by decide
  have behind : appInfoPageAddr + appInfoPageSize = appStartAddr := rfl
  rintro ⟨_,below⟩
  rw [Nat.mod_eq_of_lt (by omega)] at below
  omega

theorem computeCrc_code {addr : Nat} {data : List UInt8} (low : appStartAddr ≤ addr)
    (fits : addr + data.length ≤ appStartAddr + appMaxSize) {s : State} (device : s.deviceId ≠ 0xFFFF) (some : s.infoSize ≠ 0)
    (ahead : s.destAddr ≤ addr) :
    computeCrc addr data s = .ok (true,{s with
      crc := appCrcCalc (appCrcCalc s.crc (List.replicate (if s.destAddr = 0 then 0 else addr - s.destAddr) 0xFF)) data
      destAddr := addr + data.length
      appSize := addr + data.length - appStartAddr}) := by
  have small : appStartAddr + appMaxSize < 2 ^ 32 := by decide
  have whole : (addr + data.length) % 2 ^ 32 = addr + data.length := Nat.mod_eq_of_lt (by omega)
  rw [computeCrc,if_neg (not_inInfoPage low fits),whole,if_neg (by omega),if_neg (not_or.mpr ⟨device,some⟩),if_neg (by omega)]

theorem feed_infos {pieces : List Piece} {base : Nat} (ascending : Ascending base pieces) (above : appInfoPageAddr ≤ base)
    (inside : endOf base pieces < appInfoPageAddr + appInfoPageSize) (m : Bytes) (s : State) :
    feed computeCrc pieces {s with appInfoPage := m.shift appInfoPageAddr, infoSize := base - appInfoPageAddr} =
      .ok {s with
        appInfoPage := (place m pieces).shift appInfoPageAddr
        infoSize := endOf base pieces - appInfoPageAddr} := by
  refine feed_follows _ (fun ends m => {s with appInfoPage := m.shift appInfoPageAddr, infoSize := ends - appInfoPageAddr})
    (fun base m addr data low order below => ⟨true,?_⟩) ascending above (Nat.le_sub_one_of_lt inside) m
  have size : max (base - appInfoPageAddr) (addr - appInfoPageAddr + data.length) = addr + data.length - appInfoPageAddr := by
    omega
  rw [computeCrc_info (by omega) (by omega)]
  dsimp only
  rw [← Bytes.shift_write m (by omega),size]

/-- The CRC is that of the code with its gaps filled. -/
theorem feed_codes {pieces : List Piece} {base : Nat} (ascending : Ascending base pieces) (above : appStartAddr ≤ base)
    (fits : endOf base pieces ≤ appStartAddr + appMaxSize) {s : State} (device : s.deviceId ≠ 0xFFFF) (some : s.infoSize ≠ 0)
    (dest : s.destAddr = base) (size : s.appSize = base - appStartAddr) :
    feed computeCrc pieces s = .ok {s with
      crc := appCrcCalc s.crc (fill base pieces)
      destAddr := endOf base pieces
      appSize := endOf base pieces - appStartAddr} := by
  induction pieces generalizing base s with
  | nil =>
    rw [endOf,List.foldl_nil,← size,← dest]
    rfl
  | cons piece pieces ih =>
    obtain ⟨low,rest⟩ := ascending
    have last : piece.1 + piece.2.length ≤ endOf base (piece :: pieces) := rest.le_endOf
    have positive : 0 < appStartAddr := by decide
    have one := @computeCrc_code piece.1 piece.2 (by omega) (by omega) s device some (by omega)
    rw [if_neg (by omega),dest] at one
    have next := ih rest (by omega) fits device some
      (s := {s with
        crc := appCrcCalc (appCrcCalc s.crc (List.replicate (piece.1 - base) 0xFF)) piece.2
        destAddr := piece.1 + piece.2.length
        appSize := piece.1 + piece.2.length - appStartAddr}) rfl rfl
    have filled : appCrcCalc s.crc (fill base (piece :: pieces)) =
        appCrcCalc (appCrcCalc (appCrcCalc s.crc (List.replicate (piece.1 - base) 0xFF)) piece.2)
          (fill (piece.1 + piece.2.length) pieces) := by
      rw [fill,appCrcCalc,List.foldl_append,List.foldl_append]
      rfl
    rw [feed,List.foldlM_cons,one,filled]
    exact next

variable {infos codes : List Piece} {file : List UInt8}

/-- What the first pass finds. -/
def counted (infos codes : List Piece) : State where
  appInfoPage := (image infos).shift appInfoPageAddr
  crc := appCrcCalc 0xFFFFFFFF (fill appStartAddr codes)
  appSize := endOf appStartAddr codes - appStartAddr
  infoSize := endOf appInfoPageAddr infos - appInfoPageAddr
  destAddr := endOf appStartAddr codes

theorem Image.counted (app : Image infos codes) (fits : endOf appStartAddr codes ≤ appStartAddr + appMaxSize) :
    feed computeCrc (infos ++ codes) start = .ok (counted infos codes) := by
  obtain ⟨data,others,same⟩ := app.first
  have front : feed computeCrc infos start = .ok {start with
      appInfoPage := (image infos).shift appInfoPageAddr
      infoSize := endOf appInfoPageAddr infos - appInfoPageAddr} :=
    feed_infos app.infoPage (Nat.le_refl _) app.inside (fun _ => 0xFF) start
  have device : numberOf (((image infos).shift appInfoPageAddr).read 8 2) ≠ 0xFFFF := by
    rw [Bytes.shift_read]
    exact app.deviceId
  have some : endOf appInfoPageAddr infos - appInfoPageAddr ≠ 0 := by
    have header := app.header
    omega
  have code := app.code
  rw [same] at code fits
  have last : appStartAddr + data.length ≤ endOf appStartAddr ((appStartAddr,data) :: others) := code.2.le_endOf
  have one := @computeCrc_code appStartAddr data (Nat.le_refl _) (by omega)
    {start with
      appInfoPage := (image infos).shift appInfoPageAddr
      infoSize := endOf appInfoPageAddr infos - appInfoPageAddr} device some (Nat.zero_le _)
  have rest := feed_codes code.2 (Nat.le_add_right _ _) fits device some
    (s := ⟨(image infos).shift appInfoPageAddr,appCrcCalc 0xFFFFFFFF data,appStartAddr + data.length - appStartAddr,
      endOf appInfoPageAddr infos - appInfoPageAddr,appStartAddr + data.length⟩) rfl rfl
  have filled : appCrcCalc (appCrcCalc 0xFFFFFFFF data) (fill (appStartAddr + data.length) others) =
      appCrcCalc 0xFFFFFFFF (fill appStartAddr ((appStartAddr,data) :: others)) := by
    rw [fill,Nat.sub_self,appCrcCalc,appCrcCalc,appCrcCalc,List.replicate_zero,List.nil_append,List.foldl_append]
  rw [feed_append,front,AppCrc.counted,same,← filled]
  change feed computeCrc ((appStartAddr,data) :: others) _ = _
  rw [feed,List.foldlM_cons,one]
  exact rest

theorem flush_infos {pieces : List Piece} {base : Nat} (ascending : Ascending base pieces) (above : appInfoPageAddr ≤ base)
    (inside : endOf base pieces < appInfoPageAddr + appInfoPageSize) (o : Output) : feed flushData pieces o = .ok o := by
  refine feed_follows _ (fun _ _ => o) (fun base m addr data low order below => ⟨true,?_⟩) ascending above
    (Nat.le_sub_one_of_lt inside) fun _ => 0xFF
  rw [flushData,if_pos (inInfoPage_of (by omega) (by omega))]

theorem flush_codes {pieces : List Piece} {base : Nat} (ascending : Ascending base pieces) (above : appStartAddr ≤ base)
    (fits : endOf base pieces ≤ appStartAddr + appMaxSize) {o : Output} {printed : List Piece} (places : o.Places printed) :
    ∃ o', feed flushData pieces o = .ok o' ∧ o'.Places (printed ++ cutAll pieces) := by
  induction pieces generalizing base o printed with
  | nil => exact ⟨o,rfl,by rw [cutAll,List.flatMap_nil,List.append_nil]; exact places⟩
  | cons piece pieces ih =>
    obtain ⟨low,rest⟩ := ascending
    have last : piece.1 + piece.2.length ≤ endOf base (piece :: pieces) := rest.le_endOf
    have small : appStartAddr + appMaxSize < 2 ^ 32 := by decide
    have one : (o.flush piece.1 piece.2).Places (printed ++ piecesOf piece.1 piece.2) := Output.flush_places places (by omega)
    obtain ⟨o',fed,places'⟩ := ih rest (by omega) fits one
    refine ⟨o',?_,?_⟩
    · rw [feed,List.foldlM_cons,flushData,if_neg (not_inInfoPage (by omega) (by omega))]
      exact fed
    · rw [cutAll,List.flatMap_cons,← List.append_assoc]
      exact places'

/-- The information page as it is printed. -/
def pageBytes (infos codes : List Piece) : List UInt8 :=
  (counted infos codes).page.read 0 (endOf appInfoPageAddr infos - appInfoPageAddr)

def printed (infos codes : List Piece) : List Piece :=
  piecesOf appInfoPageAddr (pageBytes infos codes) ++ cutAll codes

theorem main_ok (app : Image infos codes) (fits : endOf appStartAddr codes ≤ appStartAddr + appMaxSize)
    (holds : Holds file (infos ++ codes)) (short : file.length < maxFileSize) :
    ∃ lines, main file = .ok lines ∧ Closed lines (printed infos codes) := by
  have small : appInfoPageAddr + appInfoPageSize < 2 ^ 32 := by decide
  have inside := app.inside
  have length : (pageBytes infos codes).length = endOf appInfoPageAddr infos - appInfoPageAddr := Bytes.length_read _ _ _
  have empty : (Output.mk 0 []).Places [] := Printed.nil 0
  have front : ((Output.mk 0 []).flush appInfoPageAddr (pageBytes infos codes)).Places
      ([] ++ piecesOf appInfoPageAddr (pageBytes infos codes)) := Output.flush_places empty (by omega)
  rw [List.nil_append] at front
  obtain ⟨o,fed,places⟩ := flush_codes app.code (Nat.le_refl _) fits front
  have first : rxFeedAll computeCrc true file ([],⟨0,start⟩) = .ok ([],⟨0,counted infos codes⟩) := by
    rw [holds.feed,app.counted fits]
    rfl
  have passed : feed flushData (infos ++ codes) ((Output.mk 0 []).flush appInfoPageAddr (pageBytes infos codes)) = .ok o := by
    rw [feed_append,flush_infos app.infoPage (Nat.le_refl _) app.inside]
    exact fed
  have second : rxFeedAll flushData true file ([],⟨0,(Output.mk 0 []).flush appInfoPageAddr (pageBytes infos codes)⟩) =
      .ok ([],⟨0,o⟩) := by
    rw [holds.feed,passed]
    rfl
  refine ⟨o.lines ++ [endLine],?_,places.closed⟩
  rw [main,if_neg (by omega),first]
  exact congrArg (fun rx : Except String (List UInt8 × Parse Output) => do
    let (_,p) ← rx
    Except.ok (p.state.lines ++ [endLine])) second

end Image

end JcaFirmware.AppCrc
