import JcaFirmware.AppContainer
import JcaFirmware.Bootloader

/-! The way of an application to the device: the CRC tool, the container tool and the
bootloader, one after the other. -/
namespace JcaFirmware.Toolchain
open Foundation IntelHex Ihex AppCrc AppContainer

section Printed

variable {infos codes : List Piece}

/-- The memory that the output of the CRC tool describes. -/
def described (infos codes : List Piece) : Bytes := image (printed infos codes)

theorem length_pageBytes (infos codes : List Piece) :
    (pageBytes infos codes).length = endOf appInfoPageAddr infos - appInfoPageAddr := Bytes.length_read _ _ _

theorem printed_spec (app : Image infos codes) (fits : endOf appStartAddr codes ≤ appStartAddr + appMaxSize)
    (some : appStartAddr < dataEnd appStartAddr codes) :
    Ascending appInfoPageAddr (printed infos codes) ∧ endOf appInfoPageAddr (printed infos codes) = dataEnd appStartAddr codes ∧
      ∀ m, place m (printed infos codes) = place (m.write appInfoPageAddr (pageBytes infos codes)) codes := by
  have header := app.header
  have inside := app.inside
  have length := length_pageBytes infos codes
  have behind : appInfoPageAddr + appInfoPageSize = appStartAddr := rfl
  have small : appStartAddr + appMaxSize < 2 ^ 32 := by decide
  have nonempty : pageBytes infos codes ≠ [] := List.length_pos_iff.mp (by omega)
  obtain ⟨front,frontEnd,frontPlaced⟩ := @piecesOf_spec appInfoPageAddr appInfoPageAddr (pageBytes infos codes) (by omega)
    (Nat.le_refl _) nonempty
  obtain ⟨back,backEnd,backPlaced⟩ := cutAll_spec app.code (by omega)
  have codesPrinted : cutAll codes ≠ [] := by
    intro none
    rw [none] at backEnd
    have same : appStartAddr = dataEnd appStartAddr codes := backEnd
    omega
  have next : Ascending (endOf appInfoPageAddr (piecesOf appInfoPageAddr (pageBytes infos codes))) (cutAll codes) := by
    rw [frontEnd]
    exact back.weaken (by omega)
  rw [printed,ascending_append]
  refine ⟨⟨front,next⟩,?_,fun m => ?_⟩
  · rw [endOf_append,endOf_congr codesPrinted _ appStartAddr,backEnd]
  · rw [place_append,frontPlaced,backPlaced]

variable (app : Image infos codes) (fits : endOf appStartAddr codes ≤ appStartAddr + appMaxSize)
  (some : appStartAddr < dataEnd appStartAddr codes)
include app fits some

theorem described_page {a : Nat} (inside : a < 16) : described infos codes (appInfoPageAddr + a) = (counted infos codes).page a := by
  obtain ⟨_,_,placed⟩ := printed_spec app fits some
  have header := app.header
  have length := length_pageBytes infos codes
  have before : appInfoPageAddr + 16 < appStartAddr := by decide
  rw [described,image,placed,app.code.place_outside _ (Or.inl (by omega)),
    Bytes.write_get _ (Nat.le_add_right _ _) (by omega),Nat.add_sub_cancel_left,pageBytes,Bytes.getD_read _ (by omega),Nat.zero_add]

theorem described_read (a len : Nat) (inside : a + len ≤ 16) :
    (described infos codes).read (appInfoPageAddr + a) len = (counted infos codes).page.read a len := by
  rw [← Bytes.shift_read]
  apply Bytes.read_congr
  intro b _ high
  exact described_page app fits some (by omega)

theorem described_size : numberOf ((described infos codes).read appInfoPageAddr 4) = endOf appStartAddr codes - appStartAddr := by
  have same := described_read app fits some 0 4 (by decide)
  have small : appMaxSize < 256 ^ 4 := by decide
  rw [Nat.add_zero,State.page_size] at same
  rw [same]
  apply numberOf_bytesOf
  change endOf appStartAddr codes - appStartAddr < 256 ^ 4
  omega

theorem described_crc : numberOf ((described infos codes).read (appInfoPageAddr + 4) 4) =
    (~~~ appCrcCalc 0xFFFFFFFF (fill appStartAddr codes)).toNat := by
  have same := described_read app fits some 4 4 (by decide)
  rw [same,State.page_crc]
  exact numberOf_bytesOf (UInt32.toNat_lt _)

theorem loaded_size : numberOf ((loaded (printed infos codes)).fwData.read 0 4) = endOf appStartAddr codes - appStartAddr := by
  have read : (loaded (printed infos codes)).fwData.read 0 4 = (described infos codes).read appInfoPageAddr 4 :=
    Bytes.shift_read _ _ _ _
  rw [read,described_size app fits some]

theorem loaded_appSize : (loaded (printed infos codes)).appSize = dataEnd appStartAddr codes - appInfoPageAddr := by
  rw [← (printed_spec app fits some).2.1]
  rfl

/-- The size in the header is that of what follows the information page, if the last data record holds data. -/
theorem declared_size (last : dataEnd appStartAddr codes = endOf appStartAddr codes) :
    numberOf ((loaded (printed infos codes)).fwData.read 0 4) + appInfoPageSize = (loaded (printed infos codes)).appSize := by
  have behind : appInfoPageAddr + appInfoPageSize = appStartAddr := rfl
  rw [loaded_size app fits some,loaded_appSize app fits some]
  omega

/-- What the container tool gets from the CRC tool. -/
theorem crc_output {file : List UInt8} (holds : Holds file (infos ++ codes)) (short : file.length < maxFileSize) :
    ∃ lines, AppCrc.main file = .ok lines ∧ Holds (stream lines) (printed infos codes) ∧
      Ascending appInfoPageAddr (printed infos codes) ∧ endOf appInfoPageAddr (printed infos codes) = dataEnd appStartAddr codes := by
  obtain ⟨ascending,ends,_⟩ := printed_spec app fits some
  obtain ⟨lines,run,closed⟩ := AppCrc.main_ok app fits holds short
  exact ⟨lines,run,⟨lines,stream_written lines,closed⟩,ascending,ends⟩

theorem described_code {a : Nat} (inside : appStartAddr ≤ a) : described infos codes a = image codes a := by
  obtain ⟨_,_,placed⟩ := printed_spec app fits some
  have header := app.header
  have page := app.inside
  have length := length_pageBytes infos codes
  have behind : appInfoPageAddr + appInfoPageSize = appStartAddr := rfl
  rw [described,image,placed]
  exact place_congr (Bytes.write_outside _ (Or.inr (by omega))) codes

end Printed

section Header

variable (fwName : List UInt8) (fwData : Bytes) {appSize : Nat}

theorem dataSize_bytes (fits : appSize < 2 ^ 32) : Bootloader.dataSize (containerOf fwName fwData appSize).bytes = appSize := by
  rw [Bootloader.dataSize,ContainerHdr.bytes,ContainerHdr.body,List.append_assoc,List.take_left' (length_bytesOf _ _)]
  exact numberOf_bytesOf fits

theorem dataChsum_bytes : Bootloader.dataChsum (containerOf fwName fwData appSize).bytes =
    (chsum32 (fwData.read 0 appSize) chsum32StartValue).toNat := by
  rw [Bootloader.dataChsum,ContainerHdr.bytes,ContainerHdr.body,List.append_assoc,List.append_assoc,
    List.drop_left' (length_bytesOf _ _),List.take_left' (length_bytesOf _ _)]
  exact numberOf_bytesOf (UInt32.toNat_lt _)

/-- The bootloader finds the header good, if its checksum is that of the tool. -/
theorem containerValid_bytes {sdk : Bootloader.Chsum} (chsum : sdk.chsum32 = chsum32) (startValue : sdk.startValue = chsum32StartValue) :
    Bootloader.containerValid sdk (containerOf fwName fwData appSize).bytes = true := by
  have length := length_bytes fwName fwData appSize
  have sizes : Bootloader.sizeofContainerHdr = sizeofContainerHdr := rfl
  have body := length_body fwName fwData appSize
  have sum : Bootloader.hdrChsum (containerOf fwName fwData appSize).bytes =
      (chsum32 (containerOf fwName fwData appSize).body chsum32StartValue).toNat := by
    rw [Bootloader.hdrChsum,ContainerHdr.bytes,List.drop_left' body,List.take_of_length_le (Nat.le_of_eq (length_bytesOf _ _))]
    exact numberOf_bytesOf (UInt32.toNat_lt _)
  have front : (containerOf fwName fwData appSize).bytes.take (sizeofContainerHdr - 4) = (containerOf fwName fwData appSize).body :=
    List.take_left' body
  rw [Bootloader.containerValid,sizes,if_neg (by rw [length]; exact not_not.mpr rfl),length,front,chsum,startValue,
    if_neg (not_not.mpr sum)]

end Header

section Update

theorem chsum32_runs {sdk : Bootloader.Chsum} (chsum : sdk.chsum32 = chsum32) : sdk.Runs := by
  intro first second value
  rw [chsum,chsum32,chsum32,chsum32,List.foldl_append]

theorem container_stored {header data : List UInt8} {lines : List (List UInt8)}
    (closed : Closed lines (piecesOf destRemapAddress header ++ piecesOf (destRemapAddress + sizeofContainerHdr) data))
    (length : header.length = sizeofContainerHdr) (nonempty : data ≠ []) (high : sizeofContainerHdr + data.length ≤ Bootloader.fwMaxSize)
    {s : Bootloader.State} (ready : s.storageReady = true) :
    ∃ external, Bootloader.ihexFeed lines s = .ok ⟨0,{s with external}⟩ ∧
      external.read Bootloader.fwAddr Bootloader.sectorSize = header ∧
      external.read (Bootloader.fwAddr + Bootloader.sectorSize) data.length = data := by
  have remap : destRemapAddress = Bootloader.fwAddr := rfl
  have sector : sizeofContainerHdr = Bootloader.sectorSize := rfl
  have small : Bootloader.fwAddr + Bootloader.fwMaxSize < 2 ^ 32 := by decide
  obtain ⟨front,frontEnd,frontPlaced⟩ := @piecesOf_spec destRemapAddress Bootloader.fwAddr header (by omega) (by omega)
    (List.length_pos_iff.mp (by rw [length]; decide))
  obtain ⟨back,backEnd,backPlaced⟩ := @piecesOf_spec (destRemapAddress + sizeofContainerHdr) (destRemapAddress + sizeofContainerHdr)
    data (by omega) (Nat.le_refl _) nonempty
  rw [length] at frontEnd
  have written := @Bootloader.ihexFeed_closed lines _ closed (ascending_append.mpr ⟨front,by rw [frontEnd]; exact back⟩)
    (by rw [endOf_append,frontEnd,backEnd]; omega) s ready
  rw [place_append,frontPlaced,backPlaced] at written
  refine ⟨_,written,?_,?_⟩
  · rw [Bytes.read_write_apart _ (Or.inr (by omega)),← remap,← sector,← length]
    exact Bytes.read_write _ _ _
  · rw [← remap,← sector]
    exact Bytes.read_write _ _ _

theorem container_flashed {sdk : Bootloader.Chsum} (chsum : sdk.chsum32 = chsum32) (startValue : sdk.startValue = chsum32StartValue)
    {fwName : List UInt8} {fwData : Bytes} {appSize : Nat} {lines : List (List UInt8)}
    (closed : Closed lines (piecesOf destRemapAddress (containerOf fwName fwData appSize).bytes ++
      piecesOf (destRemapAddress + sizeofContainerHdr) (fwData.read 0 appSize)))
    (low : Bootloader.appMinSize ≤ appSize) (high : sizeofContainerHdr + appSize ≤ Bootloader.fwMaxSize)
    {s : Bootloader.State} (ready : s.storageReady = true) :
    ∃ p s', Bootloader.ihexFeed lines s = .ok p ∧ Bootloader.mainFlashApp sdk p.state = (true,s') ∧
      ∀ a < appSize, s'.internal (Bootloader.appInfoPageAddr + a) = fwData a := by
  have positive : 0 < Bootloader.appMinSize := by decide
  have most : Bootloader.fwMaxSize ≤ Bootloader.appMaxSize := by decide
  have small : Bootloader.fwMaxSize < 2 ^ 32 := by decide
  have dataLength := Bytes.length_read fwData 0 appSize
  have dataSize := @dataSize_bytes fwName fwData appSize (by omega)
  obtain ⟨external,written,headerHeld,dataHeld⟩ := container_stored closed (length_bytes fwName fwData appSize)
    (List.length_pos_iff.mp (by omega)) (by omega) ready
  rw [dataLength] at dataHeld
  obtain ⟨s',flashed,copied⟩ := @Bootloader.mainFlashApp_ok sdk {s with external} (chsum32_runs chsum)
    (containerOf fwName fwData appSize).bytes headerHeld (containerValid_bytes fwName fwData chsum startValue)
    (by omega) (by omega) (by rw [dataSize,dataHeld,dataChsum_bytes,chsum,startValue])
  refine ⟨_,s',written,flashed,fun a inside => ?_⟩
  have byte : external (Bootloader.fwAddr + Bootloader.sectorSize + a) = fwData a := by
    rw [← Bytes.getD_read external inside,dataHeld,Bytes.getD_read _ inside,Nat.zero_add]
  exact (copied a (by omega)).trans byte

/-- The tools, the feeding of the lines to the bootloader, and `main_flash_app`. -/
def update (sdk : Bootloader.Chsum) (fwName file : List UInt8) (s : Bootloader.State) : Except String (Bool × Bootloader.State) := do
  let lines ← AppCrc.main file
  let lines ← AppContainer.main fwName (stream lines)
  let p ← Bootloader.ihexFeed lines (Bootloader.extStorageInit s).2
  .ok (Bootloader.mainFlashApp sdk p.state)

/-- The file of an application that fits: first the data of its information page, then that of its code. -/
structure Application (file : List UInt8) (infos codes : List Piece) : Prop extends Image infos codes where
  holds : Holds file (infos ++ codes)
  atLeast : appStartAddr + Bootloader.appMinSize ≤ dataEnd appStartAddr codes
  room : sizeofContainerHdr + appInfoPageSize + (dataEnd appStartAddr codes - appStartAddr) ≤ Bootloader.fwMaxSize

/-- The device runs the application: its check passes, on the bytes of the image. -/
def Delivered (sdk : Bootloader.Chsum) (fwName file : List UInt8) (s : Bootloader.State) (codes : List Piece) : Prop :=
  ∃ s', update sdk fwName file s = .ok (true,s') ∧ Bootloader.mainAppOk s' = true ∧
    ∀ a, appStartAddr ≤ a → a < dataEnd appStartAddr codes → s'.internal a = image codes a

variable {file : List UInt8} {infos codes : List Piece}

theorem mainAppOk_of {s : Bootloader.State} (app : Image infos codes) (fits : endOf appStartAddr codes ≤ appStartAddr + appMaxSize)
    (low : appStartAddr + Bootloader.appMinSize ≤ endOf appStartAddr codes) (some : appStartAddr < dataEnd appStartAddr codes)
    (same : ∀ a, appInfoPageAddr ≤ a → a < endOf appStartAddr codes → s.internal a = described infos codes a) :
    Bootloader.mainAppOk s = true := by
  have page : Bootloader.appInfoPageAddr = appInfoPageAddr := rfl
  have start : Bootloader.appStartAddr = appStartAddr := rfl
  have most : Bootloader.appMaxSize = appMaxSize := rfl
  have behind : appInfoPageAddr + appInfoPageSize = appStartAddr := rfl
  have header : 8 ≤ appInfoPageSize := by decide
  have least : 0 < Bootloader.appMinSize := by decide
  have size : Bootloader.appInfoSize s = endOf appStartAddr codes - appStartAddr := by
    rw [Bootloader.appInfoSize,page,← described_size app fits some]
    congr 1
    exact Bytes.read_congr fun a low high => same a low (by omega)
  have crc : Bootloader.appInfoCrc s = (~~~ appCrcCalc 0xFFFFFFFF (fill appStartAddr codes)).toNat := by
    rw [Bootloader.appInfoCrc,page,← described_crc app fits some]
    congr 1
    exact Bytes.read_congr fun a low high => same a (by omega) (by omega)
  have code : s.internal.read appStartAddr (endOf appStartAddr codes - appStartAddr) = fill appStartAddr codes := by
    rw [fill_eq app.code (fun _ _ => rfl)]
    exact Bytes.read_congr fun a low high => (same a (by omega) (by omega)).trans (described_code app fits some low)
  rw [Bootloader.mainAppOk,size,crc,start,code,if_neg (by omega)]
  exact decide_eq_true rfl

/-- An application is delivered, if its file is below the limit of the CRC tool and its last data record
holds data. -/
theorem delivered {sdk : Bootloader.Chsum} (chsum : sdk.chsum32 = chsum32) (startValue : sdk.startValue = chsum32StartValue)
    (app : Application file infos codes) (short : file.length < maxFileSize)
    (last : dataEnd appStartAddr codes = endOf appStartAddr codes) (fwName : List UInt8) (s : Bootloader.State) :
    Delivered sdk fwName file s codes := by
  have room := app.room
  have atLeast := app.atLeast
  have least : 0 < Bootloader.appMinSize := by decide
  have most : Bootloader.fwMaxSize ≤ appMaxSize := by decide
  have behind : appInfoPageAddr + appInfoPageSize = appStartAddr := rfl
  have page : Bootloader.appInfoPageAddr = appInfoPageAddr := rfl
  have fits : endOf appStartAddr codes ≤ appStartAddr + appMaxSize := by omega
  have some : appStartAddr < dataEnd appStartAddr codes := by omega
  obtain ⟨crcLines,crcRun,held,ascending,ends⟩ := crc_output app.toImage fits some app.holds short
  have whole := loaded_appSize app.toImage fits some
  obtain ⟨lines,run,closed⟩ := AppContainer.main_ok fwName held ascending (by omega) (declared_size app.toImage fits some last)
  obtain ⟨p,s',fed,flashed,copied⟩ := @container_flashed sdk chsum startValue fwName _ _ _ closed (by omega) (by omega)
    (Bootloader.extStorageInit s).2 rfl
  have same : ∀ a, appInfoPageAddr ≤ a → a < endOf appStartAddr codes → s'.internal a = described infos codes a := by
    intro a low high
    have byte : s'.internal (Bootloader.appInfoPageAddr + (a - appInfoPageAddr)) =
        described infos codes (appInfoPageAddr + (a - appInfoPageAddr)) := copied (a - appInfoPageAddr) (by omega)
    rwa [page,Nat.add_sub_cancel' low] at byte
  refine ⟨s',?_,mainAppOk_of app.toImage fits (by omega) some same,fun a low high => ?_⟩
  · rw [update,crcRun]
    dsimp only [bind,Except.bind]
    rw [run]
    dsimp only
    rw [fed]
    dsimp only
    rw [flashed]
  · exact (same a (by omega) (by omega)).trans (described_code app.toImage fits some low)

theorem refused_of_error {sdk : Bootloader.Chsum} {fwName : List UInt8} {s : Bootloader.State} {fault : String}
    (failed : update sdk fwName file s = .error fault) : ¬ Delivered sdk fwName file s codes := by
  rintro ⟨s',ok,_⟩
  rw [failed] at ok
  cases ok

theorem update_overflow (long : maxFileSize ≤ file.length) (sdk : Bootloader.Chsum) (fwName : List UInt8) (s : Bootloader.State) :
    update sdk fwName file s = .error "size overflow" := by
  rw [update,AppCrc.main,if_pos long]
  rfl

/-- An empty data record behind a gap counts for the CRC tool, but is not in what it prints. -/
theorem update_mismatch (app : Application file infos codes) (short : file.length < maxFileSize)
    (fits : endOf appStartAddr codes ≤ appStartAddr + appMaxSize) (other : dataEnd appStartAddr codes ≠ endOf appStartAddr codes)
    (sdk : Bootloader.Chsum) (fwName : List UInt8) (s : Bootloader.State) :
    update sdk fwName file s = .error "app size mismatch" := by
  have room := app.room
  have atLeast := app.atLeast
  have least : 0 < Bootloader.appMinSize := by decide
  have most : Bootloader.fwMaxSize ≤ appMaxSize := by decide
  have behind : appInfoPageAddr + appInfoPageSize = appStartAddr := rfl
  have small : appMaxSize + appInfoPageSize < 2 ^ 32 := by decide
  have some : appStartAddr < dataEnd appStartAddr codes := by omega
  have above := app.code.le_endOf
  obtain ⟨crcLines,crcRun,held,ascending,ends⟩ := crc_output app.toImage fits some app.holds short
  have different : (numberOf ((loaded (printed infos codes)).fwData.read 0 4) + appInfoPageSize) % 2 ^ 32 ≠
      (loaded (printed infos codes)).appSize := by
    rw [loaded_size app.toImage fits some,loaded_appSize app.toImage fits some,Nat.mod_eq_of_lt (by omega)]
    omega
  rw [update,crcRun]
  dsimp only [bind,Except.bind]
  rw [AppContainer.main_mismatch fwName held ascending (by omega) different]

end Update

section Files

def fileOf (rs : List Record) : List UInt8 := stream (rs.map print ++ [endLine])

def baseRecord : Record := ⟨.linear,0,[0x08,0x00]⟩

/-- A header, and two bytes of code with a gap between them. -/
def appRecords : List Record :=
  [baseRecord,⟨.data,0x8000,[0xFF,0xFF,0xFF,0xFF,0xFF,0xFF,0xFF,0xFF,1,0,0,0,0,0,0xFF,0xFF]⟩,⟨.data,0x8200,[1]⟩,
    ⟨.data,0x85FF,[2]⟩]

def appInfos : List Piece :=
  [(0x8008000,[0xFF,0xFF,0xFF,0xFF,0xFF,0xFF,0xFF,0xFF,1,0,0,0,0,0,0xFF,0xFF])]

def appCodes : List Piece := [(0x8008200,[1]),(0x80085FF,[2])]

/-- With so many address records behind it that no file of more bytes is read. -/
def longRecords : List Record := appRecords ++ List.replicate maxFileSize baseRecord

/-- With an empty data record behind a gap. -/
def gapRecords : List Record := appRecords ++ [⟨.data,0x8A00,[]⟩]

def gapCodes : List Piece := appCodes ++ [(0x8008A00,[])]

def toolChsum : Bootloader.Chsum := ⟨chsum32,chsum32StartValue⟩

def blank : Bootloader.State := ⟨true,fun _ => 0xFF,fun _ => 0xFF⟩

theorem length_fileOf (rs : List Record) : rs.length ≤ (fileOf rs).length := by
  have lines (lines : List (List UInt8)) : lines.length ≤ (stream lines).length := by
    induction lines with
    | nil => exact Nat.zero_le _
    | cons line lines ih =>
      have one : lineEnd.length = 2 := rfl
      rw [stream,List.flatMap_cons,List.length_append,List.length_append,one,List.length_cons,← stream]
      omega
  have all := lines (rs.map print ++ [endLine])
  rw [List.length_append,List.length_map] at all
  exact Nat.le_trans (Nat.le_add_right _ _) all

theorem fileOf_holds {rs : List Record} (valid : ∀ r ∈ rs, r.Valid ∧ r.kind ≠ .endOfFile ∧ r.data.length ≤ hexLineSize) :
    Holds (fileOf rs) (denote 0 rs).2 := ⟨_,stream_written _,closed_print valid⟩

theorem appRecords_valid : ∀ r ∈ appRecords, r.Valid ∧ r.kind ≠ .endOfFile ∧ r.data.length ≤ hexLineSize := by
  intro r member
  simp only [appRecords,List.mem_cons,List.not_mem_nil,or_false] at member
  rcases member with rfl | rfl | rfl | rfl <;>
    exact ⟨⟨by decide,by decide,by decide⟩,by decide,by decide⟩

theorem app_image {codes : List Piece} (code : Ascending 0x8008600 codes) : Image appInfos (appCodes ++ codes) where
  infoPage := ⟨Nat.le_refl _,trivial⟩
  inside := by decide
  header := by decide
  deviceId := by decide +kernel
  code := ⟨Nat.le_refl _,by decide,code⟩
  first := ⟨_,_,rfl⟩

theorem app_application : Application (fileOf appRecords) appInfos appCodes where
  toImage := @app_image [] trivial
  holds := fileOf_holds appRecords_valid
  atLeast := by decide
  room := by decide

theorem app_delivered : Delivered toolChsum [] (fileOf appRecords) blank appCodes :=
  delivered rfl rfl app_application (by decide +kernel) (by decide) [] blank

theorem baseRecord_valid : baseRecord.Valid ∧ baseRecord.kind ≠ .endOfFile ∧ baseRecord.data.length ≤ hexLineSize :=
  ⟨⟨by decide,by decide,fun _ => rfl⟩,by decide,by decide⟩

theorem denote_bases (base count : Nat) : (denote base (List.replicate count baseRecord)).2 = [] := by
  induction count generalizing base with
  | zero => rfl
  | succ count ih => exact ih _

theorem long_application : Application (fileOf longRecords) appInfos appCodes where
  toImage := @app_image [] trivial
  holds := by
    have pieces : (denote 0 longRecords).2 = appInfos ++ appCodes := by
      rw [longRecords,denote_append,denote_bases,List.append_nil]
      rfl
    rw [← pieces]
    refine fileOf_holds fun r member => ?_
    rcases List.mem_append.mp member with here | there
    · exact appRecords_valid r here
    · rw [List.eq_of_mem_replicate there]
      exact baseRecord_valid
  atLeast := by decide
  room := by decide

theorem gap_application : Application (fileOf gapRecords) appInfos gapCodes where
  toImage := app_image ⟨by decide,trivial⟩
  holds := by
    refine @fileOf_holds gapRecords fun r member => ?_
    rcases List.mem_append.mp member with here | there
    · exact appRecords_valid r here
    · rw [List.mem_singleton.mp there]
      exact ⟨⟨by decide,by decide,by decide⟩,by decide,by decide⟩
  atLeast := by decide
  room := by decide

/-- The two kinds of files that are not delivered. -/
theorem applications_refused :
    (Application (fileOf longRecords) appInfos appCodes ∧ ¬ Delivered toolChsum [] (fileOf longRecords) blank appCodes) ∧
      Application (fileOf gapRecords) appInfos gapCodes ∧ ¬ Delivered toolChsum [] (fileOf gapRecords) blank gapCodes := by
  have long : maxFileSize ≤ (fileOf longRecords).length := by
    refine Nat.le_trans ?_ (length_fileOf longRecords)
    rw [longRecords,List.length_append,List.length_replicate]
    exact Nat.le_add_left _ _
  refine ⟨⟨long_application,?_⟩,gap_application,?_⟩
  · exact refused_of_error (update_overflow long toolChsum [] blank)
  · exact refused_of_error (update_mismatch gap_application (by decide +kernel) (by decide) (by decide) toolChsum [] blank)

end Files

end JcaFirmware.Toolchain
