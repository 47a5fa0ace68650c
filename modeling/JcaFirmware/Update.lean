import JcaFirmware.Foundation.Run
import Mathlib.Algebra.Group.Nat.Defs

/-! Firmware update over the network (`app/update.c`): `update_task` asks for one
chunk after another, `update_packet_rx` takes the answers. Packets are inputs of
the run like any other, so that they may be lost, late, repeated or reordered;
the task runs in steps between which they can arrive. -/
namespace JcaFirmware.Update
open Foundation

def osTimerSecond : Nat := 1000
def serverTmout : Nat := 2000
def errLimit : Nat := 100

def packetIdUpdateRes : Nat := 0xF0AA
def packetIdChunkRes : Nat := 0xF1AA
def updateResultStart : Nat := 0xFF
def updateChunkSize : Nat := 256
def updateChunkStatusDone : Nat := 1
def updateChunkStatusOk : Nat := 2

def sizeofUpdateHdr : Nat := 8
def sizeofUpdateRes : Nat := 16
def sizeofUpdateResData : Nat := 268

def fwMaxSize : Nat := 256 * 1024

/-- The variables of the module that the protocol depends on. -/
structure Statics where
  taskTimer : Nat
  now : Nat
  updateRq : Bool
  packetAck : Bool
  serverIp : Nat
  serverPort : Nat
  phase : Nat
  errCnt : Nat
deriving DecidableEq, Repr

def dly (u : Statics) (sec : Nat) : Statics :=
  {u with taskTimer := (u.now + sec * osTimerSecond) % 2 ^ 32}

/-- A request of the unit, `update_rq_packet_t` or `update_rq_data_packet_t`. -/
inductive Packet
  | updateReq
  | getChunk (chunkId : Nat)
deriving DecidableEq, Repr

def chunkId (u : Statics) : Nat := if u.phase = 0 then 2 ^ 32 - 1 else u.phase - 1

/-- Where `update_task` stands; `wait` keeps the start of `_wait_for_ack`. -/
inductive Task
  | idle
  | connect
  | resolve
  | select
  | send (packet : Packet)
  | transmit (packet : Packet)
  | wait (packet : Packet) (start : Nat)
  | acked (packet : Packet)
deriving DecidableEq, Repr

/-- What one step of the task meets: the clock, `net_connect`, the address and,
if it can be parsed, the port that `net_get_target_ip` finds, `net_udp_tx`. -/
structure Env where
  now : Nat
  connected : Bool
  resolved : Nat × Option Nat
  sent : Bool

def updateTask (u : Statics) (env : Env) : Task → Statics × Task
  | .idle =>
    if u.updateRq = false then (u,.idle)
    else
      let u := if errLimit ≤ u.errCnt then {u with updateRq := false} else u
      let u := {u with now := env.now}
      if u.now < u.taskTimer then (u,.idle) else (dly u 1,.connect)
  | .connect => if env.connected = false then (dly u 30,.idle) else (u,.resolve)
  | .resolve =>
    if u.serverIp = 0 then
      let u := {u with serverIp := env.resolved.1, serverPort := env.resolved.2.getD u.serverPort}
      if u.serverIp = 0 ∨ u.serverPort = 0 then (dly {u with errCnt := u.errCnt + 1} 30,.idle)
      else (u,.select)
    else (u,.select)
  | .select => if u.phase = 0 then (u,.send .updateReq) else (u,.send (.getChunk (chunkId u)))
  | .send packet => ({u with packetAck := false},.transmit packet)
  | .transmit packet =>
    if env.sent = false then ({u with errCnt := u.errCnt + 1},.idle)
    else ({u with now := env.now},.wait packet env.now)
  | .wait packet start =>
    if u.now < (start + serverTmout) % 2 ^ 32 then
      let u := {u with now := env.now}
      if u.packetAck = false then (u,.wait packet start)
      else (dly {u with packetAck := false} 0,.acked packet)
    else
      let u := dly u 5
      ({u with errCnt := u.errCnt + 1},.idle)
  | .acked .updateReq => ({u with phase := u.phase + 1},.idle)
  | .acked (.getChunk _) => ({u with phase := u.phase + 1, errCnt := 0},.idle)

/-- What `update_start` meets: reading the address, what parsing it writes and
whether it is a target at all, reading the key. -/
structure StartEnv where
  addrRead : Bool
  ip : Nat
  port : Option Nat
  target : Bool
  keyRead : Bool

def updateStart (u : Statics) (env : StartEnv) : Bool × Statics :=
  if u.updateRq then (false,u)
  else if env.addrRead = false then (false,u)
  else
    let u := {u with serverIp := env.ip, serverPort := env.port.getD u.serverPort}
    if env.target = false then (false,u)
    else if env.keyRead = false then (false,u)
    else (true,{u with errCnt := 0, phase := 0, updateRq := true})

def u32At (data : List UInt8) (k : Nat) : Nat :=
  (data.getD k 0).toNat + 2 ^ 8 * (data.getD (k + 1) 0).toNat + 2 ^ 16 * (data.getD (k + 2) 0).toNat +
    2 ^ 24 * (data.getD (k + 3) 0).toNat

def u24At (data : List UInt8) (k : Nat) : Nat :=
  (data.getD k 0).toNat + 2 ^ 8 * (data.getD (k + 1) 0).toNat + 2 ^ 16 * (data.getD (k + 2) 0).toNat

/-- `storage_write_fw`; `written` says that the storage is ready and that the
flash takes the write. -/
def storageWriteFw (offset len : Nat) (written : Bool) : Bool :=
  if fwMaxSize < (offset + len) % 2 ^ 32 then false else written

/-- What the write of `_write_chunk` answers; `_write_chunk` itself only logs a failure. -/
def writeChunk (chunk : Nat) (written : Bool) : Bool :=
  storageWriteFw (chunk * updateChunkSize % 2 ^ 32) updateChunkSize written

/-- The result of `update_packet_rx`: the chunk it wrote, with the answer of the
storage, and whether it called `main_flash`. -/
structure Rx where
  handled : Bool
  update : Statics
  wrote : Option (Nat × Bool)
  flashed : Bool
deriving DecidableEq, Repr

def ignored (u : Statics) : Rx := ⟨false,u,none,false⟩

def updatePacketRx (unitId : Nat) (u : Statics) (data : List UInt8) (port : Nat) (written : Bool) : Rx :=
  if port ≠ u.serverPort then ignored u
  else if u.updateRq = false then ignored u
  else if data.length < sizeofUpdateHdr then ignored u
  else if u32At data 4 ≠ unitId then ignored u
  else if u32At data 0 = packetIdUpdateRes then
    if u.phase = 0 then
      if data.length < sizeofUpdateRes then ignored u
      else if u32At data 12 ≠ updateResultStart then ⟨true,{u with updateRq := false, packetAck := true},none,false⟩
      else ⟨true,{u with packetAck := true},none,false⟩
    else ⟨true,{u with packetAck := true},none,false⟩
  else if u32At data 0 = packetIdChunkRes then
    let chunk := chunkId u
    if data.length < sizeofUpdateResData then ignored u
    else if u24At data 8 ≠ chunk then ignored u
    else
      if (data.getD 11 0).toNat = updateChunkStatusOk then
        ⟨true,{u with packetAck := true},some (chunk,writeChunk chunk written),false⟩
      else if (data.getD 11 0).toNat = updateChunkStatusDone then
        ⟨true,{u with updateRq := false, packetAck := true},some (chunk,writeChunk chunk written),true⟩
      else ignored u
  else ignored u

/-- The module with its task, the chunks written in this update run and the
calls of `main_flash`, each with its chunk and the chunks written until then. -/
structure State where
  update : Statics
  task : Task
  received : List (Nat × Bool)
  flashes : List (Nat × List (Nat × Bool))

inductive Input
  | start (env : StartEnv)
  | task (env : Env)
  | packet (data : List UInt8) (port : Nat) (written : Bool)

def step (unitId : Nat) (s : State) : Input → State
  | .start env =>
    let (started,u) := updateStart s.update env
    if started then {s with update := u, received := []} else {s with update := u}
  | .task env =>
    let (u,task) := updateTask s.update env s.task
    {s with update := u, task := task}
  | .packet data port written =>
    let rx := updatePacketRx unitId s.update data port written
    let received := s.received ++ rx.wrote.toList
    {s with
      update := rx.update
      received := received
      flashes := if rx.flashed then s.flashes ++ [(chunkId s.update,received)] else s.flashes}

def initial : State := ⟨⟨0,0,false,false,0,0,0,0⟩,.idle,[],[]⟩

/-- The task has asked and waits for an answer, be it there already or not. -/
def Task.asking : Task → Bool
  | .transmit _ | .wait .. => true
  | _ => false

def Answered (s : State) : Prop :=
  s.task.asking = true ∧ s.update.packetAck = true ∨ ∃ packet, s.task = .acked packet

def State.Has (s : State) (chunk : Nat) : Prop := (chunk,true) ∈ s.received

/-- The update run has every chunk counted, the chunk asked for once its answer is
there and, whenever the new firmware was installed, every chunk up to the last one. -/
structure Complete (s : State) : Prop where
  counted : ∀ i, i + 1 < s.update.phase → s.Has i
  answered : Answered s → ∀ i, i + 1 = s.update.phase → s.Has i
  flashes : ∀ flash ∈ s.flashes, ∀ i ≤ flash.1, (i,true) ∈ flash.2

/-- The packet passes the tests on port, request, length and unit. -/
def Addressed (unitId : Nat) (u : Statics) (data : List UInt8) (port : Nat) : Prop :=
  port = u.serverPort ∧ u.updateRq = true ∧ sizeofUpdateHdr ≤ data.length ∧ u32At data 4 = unitId

def IsRes (unitId : Nat) (u : Statics) (data : List UInt8) (port : Nat) : Prop :=
  Addressed unitId u data port ∧ u32At data 0 = packetIdUpdateRes

/-- An answer to the chunk request of this phase, with this status. -/
def IsChunk (unitId : Nat) (u : Statics) (data : List UInt8) (port status : Nat) : Prop :=
  Addressed unitId u data port ∧ u32At data 0 = packetIdChunkRes ∧ sizeofUpdateResData ≤ data.length ∧
    u24At data 8 = chunkId u ∧ (data.getD 11 0).toNat = status

/-- Not taken, unless the chunk is there anyway: an answer to the update request for
one to a chunk request, and a chunk whose write failed for the answer or the last one. -/
def StepOk (unitId : Nat) (s : State) : Input → Prop
  | .packet data port written =>
    (IsRes unitId s.update data port → s.update.phase ≠ 0 → s.task.asking = true →
      s.Has (chunkId s.update)) ∧
    (IsChunk unitId s.update data port updateChunkStatusOk → s.task.asking = true →
      writeChunk (chunkId s.update) written = true ∨ s.Has (chunkId s.update)) ∧
    (IsChunk unitId s.update data port updateChunkStatusDone →
      writeChunk (chunkId s.update) written = true ∨ s.Has (chunkId s.update))
  | _ => True

theorem initial_complete : Complete initial := by
  refine ⟨?_,?_,?_⟩
  · exact fun i before => absurd before (Nat.not_lt_zero _)
  · exact fun _ i same => absurd same (Nat.succ_ne_zero i)
  · exact fun flash member => absurd member List.not_mem_nil

theorem start_cases (u : Statics) (env : StartEnv) :
    ((updateStart u env).1 = false ∧ (updateStart u env).2.phase = u.phase ∧
      (updateStart u env).2.packetAck = u.packetAck) ∨
    ((updateStart u env).1 = true ∧ (updateStart u env).2.phase = 0) := by
  unfold updateStart
  dsimp only
  split_ifs
  · exact Or.inl ⟨rfl,rfl,rfl⟩
  · exact Or.inl ⟨rfl,rfl,rfl⟩
  · exact Or.inl ⟨rfl,rfl,rfl⟩
  · exact Or.inl ⟨rfl,rfl,rfl⟩
  · exact Or.inr ⟨rfl,rfl⟩

theorem start_complete (unitId : Nat) {s : State} (complete : Complete s) (env : StartEnv) :
    Complete (step unitId s (.start env)) := by
  unfold step
  dsimp only
  rcases start_cases s.update env with ⟨refused,phase,ack⟩ | ⟨started,phase⟩
  · rw [refused]
    refine ⟨?_,?_,complete.flashes⟩
    · change ∀ i, i + 1 < (updateStart s.update env).2.phase → _
      rw [phase]
      exact complete.counted
    · change (s.task.asking = true ∧ (updateStart s.update env).2.packetAck = true ∨ _) →
        ∀ i, i + 1 = (updateStart s.update env).2.phase → _
      rw [phase,ack]
      exact complete.answered
  · rw [started]
    refine ⟨?_,?_,complete.flashes⟩
    · intro i before
      change i + 1 < (updateStart s.update env).2.phase at before
      omega
    · intro _ i same
      change i + 1 = (updateStart s.update env).2.phase at same
      omega

-- not by `rfl` alone: the kernel would count the milliseconds of `dly u 30` one by one
@[simp] theorem dly_phase (u : Statics) (sec : Nat) : (dly u sec).phase = u.phase := by
  unfold dly
  rfl

@[simp] theorem dly_packetAck (u : Statics) (sec : Nat) : (dly u sec).packetAck = u.packetAck := by
  unfold dly
  rfl

/-- A task step leaves the phase alone and answers nothing, or it counts the
chunk that has been answered. -/
theorem task_cases (u : Statics) (env : Env) (task : Task) :
    ((updateTask u env task).1.phase = u.phase ∧
      ((updateTask u env task).2.asking = true → (updateTask u env task).1.packetAck = true →
        task.asking = true ∧ u.packetAck = true) ∧
      ((∃ packet, (updateTask u env task).2 = .acked packet) → task.asking = true ∧ u.packetAck = true)) ∨
    (∃ packet, task = .acked packet) ∧ (updateTask u env task).1.phase = u.phase + 1 ∧
      (updateTask u env task).2 = .idle := by
  cases task with
  | acked packet =>
    right
    cases packet <;> exact ⟨⟨_,rfl⟩,rfl,rfl⟩
  | send packet =>
    -- from here on an answer counts, and none is there
    refine Or.inl ⟨rfl,fun _ ack => absurd ack Bool.false_ne_true,?_⟩
    rintro ⟨_,taken⟩
    exact absurd taken (by simp [updateTask])
  | transmit packet =>
    left
    unfold updateTask
    dsimp only
    split_ifs <;> simp [Task.asking]
  | wait packet start =>
    left
    unfold updateTask
    dsimp only
    split_ifs <;> simp_all [Task.asking]
  | idle | connect | resolve | select =>
    left
    unfold updateTask
    dsimp only
    split_ifs <;> simp [Task.asking]

theorem task_complete (unitId : Nat) {s : State} (complete : Complete s) (env : Env) :
    Complete (step unitId s (.task env)) := by
  unfold step
  dsimp only
  rcases task_cases s.update env s.task with ⟨phase,asking,acked⟩ | ⟨acked,phase,idle⟩
  · refine ⟨by rw [phase]; exact complete.counted,?_,complete.flashes⟩
    rw [phase]
    rintro (⟨asks,ack⟩ | taken)
    · exact complete.answered (Or.inl (asking asks ack))
    · exact complete.answered (Or.inl (acked taken))
  · refine ⟨?_,?_,complete.flashes⟩
    · rw [phase]
      intro i before
      rcases Nat.lt_or_eq_of_le (Nat.le_of_lt_succ before) with earlier | last
      · exact complete.counted i earlier
      · exact complete.answered (Or.inr acked) i last
    · rintro (⟨asks,_⟩ | ⟨packet,taken⟩)
      · rw [idle] at asks
        exact absurd asks Bool.false_ne_true
      · rw [idle] at taken
        exact absurd taken (by simp)

theorem chunkId_eq {u : Statics} {data : List UInt8} (same : u24At data 8 = chunkId u) :
    chunkId u + 1 = u.phase := by
  have small : u24At data 8 < 2 ^ 24 := by
    unfold u24At
    have := (data.getD 8 0).toNat_lt
    have := (data.getD (8 + 1) 0).toNat_lt
    have := (data.getD (8 + 2) 0).toNat_lt
    omega
  rw [same] at small
  unfold chunkId at *
  split at small
  · omega
  · rename_i counting
    rw [if_neg counting]
    omega

theorem rx_cases (unitId : Nat) (u : Statics) (data : List UInt8) (port : Nat) (written : Bool) :
    updatePacketRx unitId u data port written = ignored u ∨
    IsRes unitId u data port ∧
      (∃ updateRq, updatePacketRx unitId u data port written =
        ⟨true,{u with updateRq := updateRq, packetAck := true},none,false⟩) ∨
    IsChunk unitId u data port updateChunkStatusOk ∧
      updatePacketRx unitId u data port written =
        ⟨true,{u with packetAck := true},some (chunkId u,writeChunk (chunkId u) written),false⟩ ∨
    IsChunk unitId u data port updateChunkStatusDone ∧
      updatePacketRx unitId u data port written =
        ⟨true,{u with updateRq := false, packetAck := true},
          some (chunkId u,writeChunk (chunkId u) written),true⟩ := by
  rw [updatePacketRx]
  by_cases samePort : port ≠ u.serverPort
  · exact Or.inl (if_pos samePort)
  rw [if_neg samePort]
  by_cases requested : u.updateRq = false
  · exact Or.inl (if_pos requested)
  rw [if_neg requested]
  by_cases short : data.length < sizeofUpdateHdr
  · exact Or.inl (if_pos short)
  rw [if_neg short]
  by_cases sameUnit : u32At data 4 ≠ unitId
  · exact Or.inl (if_pos sameUnit)
  rw [if_neg sameUnit]
  have addressed : Addressed unitId u data port :=
    ⟨not_not.mp samePort,by simpa using requested,Nat.le_of_not_lt short,not_not.mp sameUnit⟩
  by_cases res : u32At data 0 = packetIdUpdateRes
  · rw [if_pos res]
    by_cases counting : u.phase = 0
    · rw [if_pos counting]
      by_cases shortRes : data.length < sizeofUpdateRes
      · exact Or.inl (if_pos shortRes)
      rw [if_neg shortRes]
      by_cases refused : u32At data 12 ≠ updateResultStart
      · exact Or.inr (Or.inl ⟨⟨addressed,res⟩,false,if_pos refused⟩)
      · exact Or.inr (Or.inl ⟨⟨addressed,res⟩,u.updateRq,if_neg refused⟩)
    · exact Or.inr (Or.inl ⟨⟨addressed,res⟩,u.updateRq,if_neg counting⟩)
  rw [if_neg res]
  by_cases chunkRes : u32At data 0 = packetIdChunkRes
  · rw [if_pos chunkRes]
    by_cases shortData : data.length < sizeofUpdateResData
    · exact Or.inl (if_pos shortData)
    rw [if_neg shortData]
    by_cases sameChunk : u24At data 8 ≠ chunkId u
    · exact Or.inl (if_pos sameChunk)
    rw [if_neg sameChunk]
    have chunk {status : Nat} (same : (data.getD 11 0).toNat = status) : IsChunk unitId u data port status :=
      ⟨addressed,chunkRes,Nat.le_of_not_lt shortData,not_not.mp sameChunk,same⟩
    by_cases ok : (data.getD 11 0).toNat = updateChunkStatusOk
    · exact Or.inr (Or.inr (Or.inl ⟨chunk ok,if_pos ok⟩))
    rw [if_neg ok]
    by_cases done : (data.getD 11 0).toNat = updateChunkStatusDone
    · exact Or.inr (Or.inr (Or.inr ⟨chunk done,if_pos done⟩))
    · exact Or.inl (if_neg done)
  · exact Or.inl (if_neg chunkRes)

theorem has_written {received : List (Nat × Bool)} {chunk : Nat} {ok : Bool}
    (there : ok = true ∨ (chunk,true) ∈ received) : (chunk,true) ∈ received ++ [(chunk,ok)] := by
  rcases there with written | earlier
  · exact List.mem_append_right _ (by rw [written]; exact List.mem_singleton_self _)
  · exact List.mem_append_left _ earlier

theorem Complete.upTo {s : State} (complete : Complete s) {data : List UInt8}
    (same : u24At data 8 = chunkId s.update) {ok : Bool}
    (there : (chunkId s.update,true) ∈ s.received ++ [(chunkId s.update,ok)]) :
    ∀ i ≤ chunkId s.update, (i,true) ∈ s.received ++ [(chunkId s.update,ok)] := by
  intro i upTo
  rcases Nat.lt_or_eq_of_le upTo with earlier | last
  · have phase := chunkId_eq same
    exact List.mem_append_left _ (complete.counted i (by omega))
  · rw [last]
    exact there

theorem packet_complete {unitId : Nat} {s : State} (complete : Complete s) {data : List UInt8} {port : Nat}
    {written : Bool} (ok : StepOk unitId s (.packet data port written)) :
    Complete (step unitId s (.packet data port written)) := by
  unfold step
  dsimp only
  obtain ⟨resOk,chunkOk,doneOk⟩ := ok
  rcases rx_cases unitId s.update data port written with same | ⟨res,rq,same⟩ | ⟨chunk,same⟩ | ⟨chunk,same⟩
  all_goals
    rw [same]
  case inl =>
    exact ⟨fun i before => List.mem_append_left _ (complete.counted i before),
      fun answered i last => List.mem_append_left _ (complete.answered answered i last),complete.flashes⟩
  case inr.inl =>
    refine ⟨fun i before => List.mem_append_left _ (complete.counted i before),?_,complete.flashes⟩
    intro answered i last
    change i + 1 = s.update.phase at last
    refine List.mem_append_left _ ?_
    rcases answered with ⟨asks,_⟩ | taken
    · have has := resOk res (by omega) asks
      have phase : chunkId s.update = i := by rw [chunkId,if_neg (by omega)]; omega
      rwa [phase] at has
    · exact complete.answered (Or.inr taken) i last
  case inr.inr.inl =>
    refine ⟨fun i before => List.mem_append_left _ (complete.counted i before),?_,complete.flashes⟩
    intro answered i last
    change i + 1 = s.update.phase at last
    rcases answered with ⟨asks,_⟩ | taken
    · have phase := chunkId_eq chunk.2.2.2.1
      have upTo := complete.upTo chunk.2.2.2.1 (has_written (chunkOk chunk asks))
      exact upTo i (by omega)
    · exact List.mem_append_left _ (complete.answered (Or.inr taken) i last)
  case inr.inr.inr =>
    have phase := chunkId_eq chunk.2.2.2.1
    have upTo := complete.upTo chunk.2.2.2.1 (has_written (doneOk chunk))
    refine ⟨fun i before => List.mem_append_left _ (complete.counted i before),?_,?_⟩
    · intro _ i last
      change i + 1 = s.update.phase at last
      exact upTo i (by omega)
    · intro flash member
      rcases List.mem_append.mp member with old | new
      · exact complete.flashes flash old
      · rw [List.mem_singleton.mp new]
        exact upTo

theorem rx_res {unitId : Nat} {u : Statics} {data : List UInt8} {port : Nat} (res : IsRes unitId u data port)
    (counting : u.phase ≠ 0) (written : Bool) :
    updatePacketRx unitId u data port written = ⟨true,{u with packetAck := true},none,false⟩ := by
  obtain ⟨⟨samePort,requested,long,sameUnit⟩,isRes⟩ := res
  rw [updatePacketRx,if_neg (not_not.mpr samePort),if_neg (by simp [requested]),
    if_neg (Nat.not_lt.mpr long),if_neg (not_not.mpr sameUnit),if_pos isRes,if_neg counting]

theorem rx_chunk {unitId : Nat} {u : Statics} {data : List UInt8} {port status : Nat}
    (chunk : IsChunk unitId u data port status) (written : Bool) :
    updatePacketRx unitId u data port written =
      if status = updateChunkStatusOk then
        ⟨true,{u with packetAck := true},some (chunkId u,writeChunk (chunkId u) written),false⟩
      else if status = updateChunkStatusDone then
        ⟨true,{u with updateRq := false, packetAck := true},
          some (chunkId u,writeChunk (chunkId u) written),true⟩
      else ignored u := by
  obtain ⟨⟨samePort,requested,long,sameUnit⟩,isChunk,whole,sameChunk,sameStatus⟩ := chunk
  have notRes : ¬ u32At data 0 = packetIdUpdateRes := by
    rw [isChunk]
    decide
  rw [updatePacketRx,if_neg (not_not.mpr samePort),if_neg (by simp [requested]),
    if_neg (Nat.not_lt.mpr long),if_neg (not_not.mpr sameUnit),if_neg notRes,if_pos isChunk,
    if_neg (Nat.not_lt.mpr whole),if_neg (not_not.mpr sameChunk),sameStatus]

/-- What `StepOk` leaves out breaks the update run at once. -/
theorem packet_broken {unitId : Nat} {s : State} {input : Input}
    (refused : ¬ StepOk unitId s input) : ¬ Complete (step unitId s input) := by
  intro complete
  apply refused
  cases input with
  | start env => trivial
  | task env => trivial
  | packet data port written =>
    refine ⟨?_,?_,?_⟩
    · intro res counting asks
      have phase : chunkId s.update + 1 = s.update.phase := by
        rw [chunkId,if_neg counting]
        omega
      have stepped : step unitId s (.packet data port written) =
          {s with update := {s.update with packetAck := true}} := by
        simp [step,rx_res res counting]
      rw [stepped] at complete
      exact complete.answered (Or.inl ⟨asks,rfl⟩) _ phase
    · intro chunk asks
      have stepped : step unitId s (.packet data port written) = {s with
          update := {s.update with packetAck := true}
          received := s.received ++ [(chunkId s.update,writeChunk (chunkId s.update) written)]} := by
        simp [step,rx_chunk chunk]
      rw [stepped] at complete
      have has := complete.answered (Or.inl ⟨asks,rfl⟩) _ (chunkId_eq chunk.2.2.2.1)
      rcases List.mem_append.mp has with earlier | now
      · exact Or.inr earlier
      · exact Or.inl (Prod.mk.inj (List.mem_singleton.mp now)).2.symm
    · intro chunk
      have stepped : (step unitId s (.packet data port written)).flashes = s.flashes ++
          [(chunkId s.update,s.received ++ [(chunkId s.update,writeChunk (chunkId s.update) written)])] := by
        simp [step,rx_chunk chunk,updateChunkStatusOk,updateChunkStatusDone]
      have has := complete.flashes (chunkId s.update,s.received ++ _)
        (by rw [stepped]; exact List.mem_append_right _ (List.mem_singleton_self _)) _ (Nat.le_refl _)
      rcases List.mem_append.mp has with earlier | now
      · exact Or.inr earlier
      · exact Or.inl (Prod.mk.inj (List.mem_singleton.mp now)).2.symm

theorem step_complete (unitId : Nat) (s : State) (input : Input) (complete : Complete s)
    (ok : StepOk unitId s input) : Complete (step unitId s input) := by
  cases input with
  | start env => exact start_complete unitId complete env
  | task env => exact task_complete unitId complete env
  | packet data port written => exact packet_complete complete ok

/-- The update is complete all along a run exactly when the run takes no other
answer for a chunk's and no chunk whose write failed. -/
theorem run_complete_iff (unitId : Nat) (inputs : List Input) :
    (∀ first rest, inputs = first ++ rest → Complete (Run.run (step unitId) initial first)) ↔
      Run.Admits (step unitId) (StepOk unitId) initial inputs :=
  Run.always_iff_admits (step unitId) (StepOk unitId) Complete Complete (fun _ complete => complete)
    (step_complete unitId) (fun _ _ _ refused => packet_broken refused) initial inputs initial_complete

def tick : Input := .task ⟨5000,true,(0,none),true⟩

/-- An answer of the server to unit 1: little-endian, `body` after the header. -/
def answer (packetId : Nat) (body : List UInt8) : Input :=
  .packet ([UInt8.ofNat packetId,UInt8.ofNat (packetId / 256),0,0,1,0,0,0] ++ body) 4000 true

def ticks (n : Nat) : List Input := List.replicate n tick

/-- The update request is answered twice and the second answer arrives while chunk 0
is asked for; the firmware is installed with chunk 1 alone. -/
def twiceAnswered : List Input :=
  [.start ⟨true,1,some 4000,true,true⟩] ++ ticks 6 ++ [answer packetIdUpdateRes [0,0,0,0,0xFF,0,0,0]] ++ ticks 8 ++
    [answer packetIdUpdateRes [0,0,0,0,0xFF,0,0,0]] ++ ticks 8 ++
    [answer packetIdChunkRes ([1,0,0,1] ++ List.replicate 256 0)]

theorem duplicate_skips_chunk :
    ∃ flash ∈ (Run.run (step 1) initial twiceAnswered).flashes, ∃ i ≤ flash.1, (i,true) ∉ flash.2 := by
  have flashes : (Run.run (step 1) initial twiceAnswered).flashes = [(1,[(1,true)])] := by decide +kernel
  rw [flashes]
  exact ⟨(1,[(1,true)]),List.mem_singleton_self _,0,by decide,by decide⟩

end JcaFirmware.Update
