import JcaFirmware.Boot
import JcaFirmware.StorageRegions

/-! The firmware that an update over the network leaves in the external flash (`app/update.c` with `storage_write_fw`), for packets
that are lost, late, repeated and reordered at will. -/
namespace JcaFirmware.UpdateImage
open Foundation Update

section Code

/-- The module with the flash that it writes. -/
structure Unit where
  state : Update.State
  external : Bytes

/-- `res->data`. -/
def chunkData (data : List UInt8) : List UInt8 := (data.drop 12).take updateChunkSize

-- A write that fails is taken to change nothing.
def step (unitId : Nat) (s : Unit) (input : Input) : Unit where
  state := Update.step unitId s.state input
  external :=
    match input with
    | .packet data port written =>
      match (updatePacketRx unitId s.state.update data port written).wrote with
      | some (chunk,true) => s.external.write ((StorageRegions.fwAddr + chunk * updateChunkSize % 2 ^ 32) % 2 ^ 32) (chunkData data)
      | _ => s.external
    | _ => s.external

end Code

section Server
variable (unitId : Nat) (image : Bytes) (last : Nat)

/-- The server sends the chunks of one image, and says of the last one alone that it is. -/
structure Honest (data : List UInt8) : Prop where
  number : u24At data 8 ≤ last
  bytes : chunkData data = image.read (u24At data 8 * updateChunkSize) updateChunkSize
  done : (data.getD 11 0).toNat = updateChunkStatusDone → u24At data 8 = last

/-- A chunk that is taken is one of this server and the flash takes what is written; no answer to the request of the update comes while a
chunk is asked for. -/
def Fair (s : Unit) : Input → Prop
  | .packet data port written =>
    (IsChunk unitId s.state.update data port (data.getD 11 0).toNat → Honest image last data ∧ written = true) ∧
      (IsRes unitId s.state.update data port → s.state.update.phase ≠ 0 → s.state.task.asking = true → s.state.Has (chunkId s.state.update))
  | _ => True

/-- The flash has a chunk. -/
def Holds (external : Bytes) (chunk : Nat) : Prop :=
  external.read (StorageRegions.fwAddr + chunk * updateChunkSize) updateChunkSize = image.read (chunk * updateChunkSize) updateChunkSize

/-- The flash has all that was received, and with the update all of the image; nothing else is changed. -/
structure Delivered (before : Bytes) (s : Unit) : Prop where
  complete : Complete s.state
  held : ∀ chunk, s.state.Has chunk → Holds image s.external chunk
  flashed : s.state.flashes ≠ [] → ∀ chunk ≤ last, Holds image s.external chunk
  outside : ∀ a, a < StorageRegions.fwAddr ∨ StorageRegions.fwAddr + (last + 1) * updateChunkSize ≤ a → s.external a = before a

end Server

section Runs
variable {unitId : Nat} {image : Bytes} {last : Nat} {before : Bytes} {s : Unit}

theorem Holds.write {external : Bytes} {chunk : Nat} (holds : Holds image external chunk) (other : Nat) :
    Holds image (external.write (StorageRegions.fwAddr + other * updateChunkSize) (image.read (other * updateChunkSize) updateChunkSize)) chunk := by
  have size : updateChunkSize = 256 := rfl
  unfold Holds at holds ⊢
  by_cases same : other = chunk
  · subst same
    have length := image.length_read (other * updateChunkSize) updateChunkSize
    have again := Bytes.read_write external (StorageRegions.fwAddr + other * updateChunkSize) (image.read (other * updateChunkSize) updateChunkSize)
    rwa [length] at again
  · rw [Bytes.read_write_apart,holds]
    rw [Bytes.length_read,size]
    omega

theorem writeChunk_inside {chunk : Nat} (inside : chunk < 1024) : writeChunk chunk true = true := by
  have size : updateChunkSize = 256 := rfl
  have space : fwMaxSize = 1024 * 256 := rfl
  rw [writeChunk,storageWriteFw,size,space,if_neg]
  rw [Nat.mod_eq_of_lt (by omega),Nat.mod_eq_of_lt (by omega)]
  omega

theorem addr_eq {chunk : Nat} (inside : chunk < 1024) :
    (StorageRegions.fwAddr + chunk * updateChunkSize % 2 ^ 32) % 2 ^ 32 = StorageRegions.fwAddr + chunk * updateChunkSize := by
  have size : updateChunkSize = 256 := rfl
  have start : StorageRegions.fwAddr = 15360 * 256 := rfl
  rw [size,start,Nat.mod_eq_of_lt (show chunk * 256 < 2 ^ 32 by omega)]
  omega

theorem Fair.stepOk {data : List UInt8} {port : Nat} {written : Bool} (few : last < 1024) (fair : Fair unitId image last s (.packet data port written)) :
    StepOk unitId s.state (.packet data port written) := by
  have taken {status : Nat} (chunk : IsChunk unitId s.state.update data port status) : writeChunk (chunkId s.state.update) written = true := by
    obtain ⟨addressed,isChunk,whole,number,same⟩ := chunk
    obtain ⟨honest,rfl⟩ := fair.1 ⟨addressed,isChunk,whole,number,rfl⟩
    have upTo := honest.number
    rw [number] at upTo
    exact writeChunk_inside (by omega)
  exact ⟨fair.2,fun chunk _ => Or.inl (taken chunk),fun chunk => Or.inl (taken chunk)⟩

/-- A step that writes nothing takes nothing away. -/
theorem Delivered.quiet {s' : Unit} (delivered : Delivered image last before s) (complete : Complete s'.state)
    (received : ∀ chunk, s'.state.Has chunk → s.state.Has chunk) (flashes : s'.state.flashes = s.state.flashes)
    (external : s'.external = s.external) : Delivered image last before s' where
  complete := complete
  held chunk has := by
    rw [external]
    exact delivered.held chunk (received chunk has)
  flashed called := by
    rw [external]
    rw [flashes] at called
    exact delivered.flashed called
  outside := by
    rw [external]
    exact delivered.outside

/-- A chunk that is written is held with all the others, and it may be the last one. -/
theorem Delivered.chunk {s' : Unit} (delivered : Delivered image last before s) (few : last < 1024) {chunk : Nat} (inside : chunk ≤ last)
    (complete : Complete s'.state) (received : s'.state.received = s.state.received ++ [(chunk,true)])
    (flashes : s'.state.flashes = s.state.flashes ∨ chunk = last ∧ ∃ flash ∈ s'.state.flashes, flash = (chunk,s'.state.received))
    (external : s'.external = s.external.write (StorageRegions.fwAddr + chunk * updateChunkSize)
      (image.read (chunk * updateChunkSize) updateChunkSize)) : Delivered image last before s' := by
  have held (other : Nat) (has : s'.state.Has other) : Holds image s'.external other := by
    rw [external]
    rw [State.Has,received] at has
    rcases List.mem_append.mp has with earlier | now
    · exact (delivered.held other earlier).write chunk
    · obtain rfl := (Prod.mk.inj (List.mem_singleton.mp now)).1
      have length := image.length_read (other * updateChunkSize) updateChunkSize
      have again := s.external.read_write (StorageRegions.fwAddr + other * updateChunkSize) (image.read (other * updateChunkSize) updateChunkSize)
      rwa [length] at again
  refine ⟨complete,held,?_,?_⟩
  · intro called other upTo
    rcases flashes with same | ⟨done,flash,member,all⟩
    · rw [same] at called
      rw [external]
      exact (delivered.flashed called other upTo).write chunk
    · have there := complete.flashes flash member other (by rw [all]; omega)
      rw [all] at there
      exact held other there
  · intro a apart
    have size : updateChunkSize = 256 := rfl
    rw [external,Bytes.write_outside,delivered.outside a apart]
    rw [Bytes.length_read,size]
    rw [size] at apart
    omega

theorem step_delivered (few : last < 1024) (s : Unit) (input : Input) (delivered : Delivered image last before s)
    (fair : Fair unitId image last s input) : Delivered image last before (step unitId s input) := by
  cases input with
  | start env =>
    have complete := start_complete unitId delivered.complete env
    refine delivered.quiet complete ?_ ?_ rfl
    all_goals
      cases started : (updateStart s.state.update env).1
      all_goals simp [step,Update.step,started,State.Has]
  | task env => exact delivered.quiet (task_complete unitId delivered.complete env) (fun chunk has => has) rfl rfl
  | packet data port written =>
    have complete := step_complete unitId s.state _ delivered.complete (fair.stepOk few)
    rcases rx_cases unitId s.state.update data port written with same | ⟨_,rq,same⟩ | ⟨chunk,same⟩ | ⟨chunk,same⟩
    case inl =>
      refine delivered.quiet complete ?_ ?_ ?_
      all_goals simp [step,Update.step,same,State.Has,ignored]
    case inr.inl =>
      refine delivered.quiet complete ?_ ?_ ?_
      all_goals simp [step,Update.step,same,State.Has]
    all_goals
      obtain ⟨addressed,isChunk,whole,number,status⟩ := chunk
      obtain ⟨honest,rfl⟩ := fair.1 ⟨addressed,isChunk,whole,number,rfl⟩
      have upTo := honest.number
      have bytes := honest.bytes
      rw [number] at upTo bytes
      have addr := addr_eq (show chunkId s.state.update < 1024 by omega)
      rw [writeChunk_inside (by omega)] at same
      refine delivered.chunk few upTo complete ?_ ?_ ?_
    · simp [step,Update.step,same]
    · simp [step,Update.step,same]
    · simp only [step,same]
      rw [addr,bytes]
    · simp [step,Update.step,same]
    · have done := honest.done status
      rw [number] at done
      simp [step,Update.step,same,done]
    · simp only [step,same]
      rw [addr,bytes]

/-- The chunks of an image, one behind the other, are the image. -/
theorem read_chunks {external : Bytes} (held : ∀ chunk ≤ last, Holds image external chunk) {addr len : Nat}
    (inside : addr + len ≤ (last + 1) * updateChunkSize) : external.read (StorageRegions.fwAddr + addr) len = image.read addr len := by
  apply List.ext_getElem (by rw [Bytes.length_read,Bytes.length_read])
  intro i _ below
  rw [Bytes.length_read] at below
  have size : updateChunkSize = 256 := rfl
  rw [size] at inside
  -- byte `addr + i` is in chunk `(addr + i) / 256`
  have whole : (addr + i) / 256 * 256 + (addr + i) % 256 = addr + i := by omega
  have same := congrArg (fun bytes => bytes.getD ((addr + i) % 256) 0) (held ((addr + i) / 256) (by omega))
  rw [size,Bytes.getD_read _ (Nat.mod_lt _ (by omega)),Bytes.getD_read _ (Nat.mod_lt _ (by omega)),Nat.add_assoc,whole] at same
  simpa only [Bytes.read,List.getElem_map,List.getElem_range,Nat.add_assoc] using same

/-- A unit that has not been updated. -/
def fresh (before : Bytes) : Unit := ⟨Update.initial,before⟩

theorem run_delivered (few : last < 1024) {inputs : List Input} (fair : Run.Admits (step unitId) (Fair unitId image last) (fresh before) inputs) :
    Delivered image last before (Run.run (step unitId) (fresh before) inputs) := by
  refine Run.run_invariant (step unitId) (Fair unitId image last) (Delivered image last before) ?_ (fresh before) inputs ?_ fair
  · exact fun s input delivered fair => step_delivered few s input delivered fair
  · exact ⟨initial_complete,fun chunk has => absurd has List.not_mem_nil,fun called => absurd rfl called,fun _ _ => rfl⟩

end Runs

section Installation
variable {sdk : Bootloader.Chsum} {unitId : Nat} {image : Bytes} {last : Nat} {before : Bytes}

/-- The image where the bootloader looks for it. -/
def stored (image : Bytes) : Bootloader.State := ⟨false,fun a => image (a - StorageRegions.fwAddr),fun _ => 0⟩

theorem stored_read (image : Bytes) (addr len : Nat) : (stored image).external.read (Bootloader.fwAddr + addr) len = image.read addr len :=
  image.read_moved Bootloader.fwAddr addr len

/-- Only the container counts, not what is behind it. -/
theorem installable_read {s s' : Bootloader.State} {len : Nat}
    (same : ∀ addr count, addr + count ≤ len → s'.external.read (Bootloader.fwAddr + addr) count = s.external.read (Bootloader.fwAddr + addr) count)
    (whole : Bootloader.sectorSize + BootloaderReads.headerSize s ≤ len) (installable : Boot.Installable sdk s) :
    BootloaderReads.headerSize s' = BootloaderReads.headerSize s ∧ Boot.Installable sdk s' := by
  obtain ⟨⟨valid,low,high,sum⟩,⟨low',high',crc⟩,inside⟩ := installable
  have header : s'.external.read Bootloader.fwAddr Bootloader.sectorSize = s.external.read Bootloader.fwAddr Bootloader.sectorSize :=
    same 0 _ (by omega)
  have size : BootloaderReads.headerSize s' = BootloaderReads.headerSize s := by
    rw [BootloaderReads.headerSize,BootloaderReads.headerSize,header]
  have sector : Bootloader.sectorSize = 512 := rfl
  have page : Bootloader.appInfoPageSize = 512 := rfl
  have least : Bootloader.appMinSize = 1024 := rfl
  have atLeast : Bootloader.appMinSize ≤ BootloaderReads.headerSize s := low
  have code : s'.external.read (Bootloader.fwAddr + Bootloader.sectorSize) (BootloaderReads.headerSize s) =
      s.external.read (Bootloader.fwAddr + Bootloader.sectorSize) (BootloaderReads.headerSize s) := same _ _ whole
  have count : BootloaderReads.payloadSize s' = BootloaderReads.payloadSize s :=
    congrArg numberOf (same Bootloader.sectorSize 4 (by omega))
  have sum' : BootloaderReads.payloadCrc s' = BootloaderReads.payloadCrc s :=
    congrArg numberOf (same (Bootloader.sectorSize + 4) 4 (by omega))
  have body := same (Bootloader.sectorSize + Bootloader.appInfoPageSize) (BootloaderReads.payloadSize s) (by omega)
  refine ⟨size,⟨?_,?_,?_,?_⟩,⟨?_,?_,?_⟩,?_⟩
  · rw [header]
    exact valid
  · rw [header]
    exact low
  · rw [header]
    exact high
  · rw [header]
    exact (congrArg (fun bytes => (sdk.chsum32 bytes sdk.startValue).toNat) code).trans sum
  · rw [count]
    exact low'
  · rw [count]
    exact high'
  · rw [count,sum',← crc]
    exact congrArg (fun bytes => (Bootloader.appCrc bytes).toNat) body
  · rw [count,size]
    exact inside

/-- `main_flash`, and the boot behind it. -/
def restart (again : Bool) (buf : List UInt8) (image : Bytes) : List Boot.Input :=
  .wdogReset .flashRq :: Boot.undisturbed .userRq again buf (BootloaderReads.headerSize (stored image))

/-- The application of the image runs, and every byte of it is in the internal flash. -/
structure Installed (image : Bytes) (d : Boot.Device) : Prop where
  started : d.stage = .app
  ok : Bootloader.mainAppOk d.boot = true
  bytes : d.boot.internal.read Bootloader.appInfoPageAddr (BootloaderReads.headerSize (stored image)) =
    image.read Bootloader.sectorSize (BootloaderReads.headerSize (stored image))

theorem restart_installs (runs : sdk.Runs) {d : Boot.Device} (running : d.stage = .app) (few : d.bootloop < 5)
    (installable : Boot.Installable sdk d.boot) (size : BootloaderReads.headerSize d.boot = BootloaderReads.headerSize (stored image))
    (held : d.boot.external.read BootloaderReads.payloadAddr (BootloaderReads.headerSize (stored image)) =
      image.read Bootloader.sectorSize (BootloaderReads.headerSize (stored image))) (again : Bool) (buf : List UInt8) :
    Installed image (Run.run (Boot.step sdk) d (restart again buf image)) := by
  have reset : Boot.step sdk d (.wdogReset .flashRq) = {d with gpregBoot := .flashRq, stage := .off} := by
    unfold Boot.step
    exact if_pos running
  have ok := Boot.mainFlashApp_installs runs installable buf
  have copied := Boot.mainFlashApp_copies runs installable buf
  have inside : 0 + BootloaderReads.headerSize d.boot ≤ _ := (Nat.zero_add _).trans_le (Boot.headerSize_sectors d.boot)
  have moved := @BootloaderReads.copy_read d.boot.internal d.boot.external Bootloader.appInfoPageAddr BootloaderReads.payloadAddr _ _ _ inside
  rw [Nat.add_zero,Nat.add_zero,← copied,size,held] at moved
  have flashed := @Boot.main_flashes sdk {d with gpregBoot := .flashRq, stage := .off} runs .userRq (fun stay => nomatch stay.2) again buf
    (Or.inl ⟨rfl,rfl⟩) true fun _ => true
  rw [restart,Run.run_cons,reset,Boot.undisturbed_main rfl,← size,flashed]
  generalize (BootloaderReads.mainFlashApp sdk (fun _ => true) d.boot true buf).2 = boot at ok moved ⊢
  obtain ⟨started,same⟩ := @Boot.finish_runs
    {d with boot, addrHiword := 0, gpregBoot := Boot.bootRead .userRq .flashRq, stage := .off} again few ok
  exact ⟨started,(congrArg Bootloader.mainAppOk same).trans ok,by rw [same]; exact moved⟩

end Installation

section Session
variable {image before : Bytes}

/-- What is sent of an image of 8 chunks. -/
def chunkPacket (image : Bytes) (chunk : Nat) : List UInt8 :=
  [0xAA,0xF1,0,0,1,0,0,0,UInt8.ofNat chunk,0,0,if chunk = 7 then 1 else 2] ++ image.read (chunk * updateChunkSize) updateChunkSize

def requested : List Input := [.start ⟨true,1,some 4000,true,true⟩] ++ ticks 6

def chunks (image : Bytes) : List Input := (List.range 8).flatMap fun chunk => ticks 8 ++ [.packet (chunkPacket image chunk) 4000 true]

def session (image : Bytes) : List Input := requested ++ answer packetIdUpdateRes [0,0,0,0,0xFF,0,0,0] :: chunks image

theorem chunkPacket_honest {chunk : Nat} (inside : chunk < 8) : Honest image 7 (chunkPacket image chunk) := by
  have number : u24At (chunkPacket image chunk) 8 = chunk := by
    simp only [u24At,chunkPacket,List.cons_append,List.nil_append,List.getD_cons_succ,List.getD_cons_zero,UInt8.toNat_ofNat']
    change chunk % 256 + 0 + 0 = chunk
    omega
  refine ⟨?_,?_,?_⟩
  · omega
  · rw [number,chunkData,chunkPacket,List.cons_append,List.cons_append]
    exact List.take_of_length_le (Bytes.length_read _ _ _).le
  · intro done
    rw [number]
    change (if chunk = 7 then 1 else 2 : UInt8).toNat = updateChunkStatusDone at done
    split_ifs at done with last
    · exact last
    · exact absurd done (by decide)

theorem chunks_fair (s : Unit) {input : Input} (member : input ∈ chunks image) : Fair 1 image 7 s input := by
  obtain ⟨chunk,inside,member⟩ := List.mem_flatMap.mp member
  rcases List.mem_append.mp member with waiting | sent
  · rw [List.eq_of_mem_replicate waiting]
    trivial
  · rw [List.mem_singleton.mp sent]
    refine ⟨fun _ => ⟨chunkPacket_honest (List.mem_range.mp inside),rfl⟩,fun res => ?_⟩
    have other : u32At (chunkPacket image chunk) 0 = packetIdChunkRes := by simp [u32At,chunkPacket,packetIdChunkRes]
    exact absurd (other.symm.trans res.2) (by decide)

theorem session_fair : Run.Admits (step 1) (Fair 1 image 7) (fresh before) (session image) := by
  rw [session,Run.admits_append]
  refine ⟨⟨trivial,?_⟩,⟨fun chunk => ?_,fun _ counting => ?_⟩,?_⟩
  · refine Run.admits_of_forall _ _ _ _ fun s input member => ?_
    rw [List.eq_of_mem_replicate member]
    trivial
  · exact absurd chunk.2.1 (by decide)
  · exact absurd rfl counting
  · exact Run.admits_of_forall _ _ _ _ fun s input member => chunks_fair s member

def unitImage : Bytes := fun a => (Boot.unit .app).boot.external (Bootloader.fwAddr + a)

theorem unit_called : (Run.run (step 1) (fresh fun _ => 0) (session unitImage)).state.flashes ≠ [] := by decide +kernel

theorem unit_read (addr count : Nat) : (stored unitImage).external.read (Bootloader.fwAddr + addr) count =
    (Boot.unit .app).boot.external.read (Bootloader.fwAddr + addr) count := by
  rw [stored_read,← Bytes.shift_read]
  rfl

theorem unit_size : BootloaderReads.headerSize (stored unitImage) = 1536 := by
  rw [← Boot.unit_headerSize .app,BootloaderReads.headerSize,BootloaderReads.headerSize,← Nat.add_zero Bootloader.fwAddr,unit_read]

theorem unit_stored : Boot.Installable Toolchain.toolChsum (stored unitImage) :=
  (installable_read (fun addr count _ => unit_read addr count) (by rw [Boot.unit_headerSize]) (Boot.unit_installable .app)).2

/-- A unit that runs, with this in its external flash. -/
def running (external : Bytes) : Boot.Device where
  __ := Boot.unit .app
  boot := ⟨false,external,(Boot.unit .app).boot.internal⟩

theorem running_external (external : Bytes) : (running external).boot.external = external := rfl

end Session

section Results
variable {sdk : Bootloader.Chsum} {unitId : Nat} {image : Bytes} {last : Nat} {before : Bytes}

/-- Whatever is lost, late, repeated or reordered, once the firmware is installed the flash holds the image of the server, and nothing
else in it has changed. -/
theorem update_delivers (few : last < 1024) (inputs : List Input)
    (fair : Run.Admits (step unitId) (Fair unitId image last) (fresh before) inputs) :
    ((Run.run (step unitId) (fresh before) inputs).state.flashes ≠ [] →
      (Run.run (step unitId) (fresh before) inputs).external.read StorageRegions.fwAddr ((last + 1) * updateChunkSize) =
        image.read 0 ((last + 1) * updateChunkSize)) ∧
    ∀ a, a < StorageRegions.fwAddr ∨ StorageRegions.fwAddr + (last + 1) * updateChunkSize ≤ a →
      (Run.run (step unitId) (fresh before) inputs).external a = before a := by
  have delivered := run_delivered few fair
  refine ⟨fun called => ?_,delivered.outside⟩
  have whole := read_chunks (delivered.flashed called) (show 0 + (last + 1) * updateChunkSize ≤ _ by omega)
  rwa [Nat.add_zero] at whole

theorem update_delivers_unit : (Run.run (step 1) (fresh fun _ => 0) (session unitImage)).external.read StorageRegions.fwAddr
    ((7 + 1) * updateChunkSize) = unitImage.read 0 ((7 + 1) * updateChunkSize) :=
  (update_delivers (by decide) (session unitImage) session_fair).1 unit_called

/-- From the first request to the new application: what the server has is what runs behind the update. -/
theorem update_installs (runs : sdk.Runs) (few : last < 1024) (inputs : List Input)
    (fair : Run.Admits (step unitId) (Fair unitId image last) (fresh before) inputs)
    (called : (Run.run (step unitId) (fresh before) inputs).state.flashes ≠ []) (installable : Boot.Installable sdk (stored image))
    (whole : Bootloader.sectorSize + BootloaderReads.headerSize (stored image) ≤ (last + 1) * updateChunkSize) (d : Boot.Device)
    (running : d.stage = .app) (counted : d.bootloop < 5)
    (held : d.boot.external = (Run.run (step unitId) (fresh before) inputs).external) (again : Bool) (buf : List UInt8) :
    Installed image (Run.run (Boot.step sdk) d (restart again buf image)) := by
  have delivered := (run_delivered few fair).flashed called
  have same (addr count : Nat) (inside : addr + count ≤ (last + 1) * updateChunkSize) :
      d.boot.external.read (Bootloader.fwAddr + addr) count = (stored image).external.read (Bootloader.fwAddr + addr) count := by
    rw [held,stored_read]
    exact read_chunks delivered inside
  obtain ⟨size,installable⟩ := installable_read same whole installable
  refine restart_installs runs running counted installable size ?_ again buf
  exact (same Bootloader.sectorSize _ whole).trans (stored_read image _ _)

theorem update_installs_unit : Installed unitImage (Run.run (Boot.step Toolchain.toolChsum)
    (running (Run.run (step 1) (fresh fun _ => 0) (session unitImage)).external) (restart true [] unitImage)) := by
  have size : Bootloader.sectorSize + 1536 ≤ (7 + 1) * updateChunkSize := by decide
  rw [← unit_size] at size
  exact update_installs (Toolchain.chsum32_runs rfl) (by decide) (session unitImage) session_fair unit_called unit_stored size
    _ rfl (Nat.succ_pos 4) (running_external _) true []

end Results

end JcaFirmware.UpdateImage
