import JcaFirmware.TracerH02
import JcaFirmware.TracerRecovery

/-! The tracker (`app/tracer/tracer.c`): the server setup, the tracking state
machine with its timers, and the upload of stored points. Each function takes
what its call meets outside of the module. The protocol is H02, the one built in.
`tracer_comm_process` stands in parts where it waits and other tasks go on. -/
namespace JcaFirmware.Tracer
open Foundation TracerUpload TracerH02
open TracerBuffer hiding State Input Inv step start
open TracerRecovery hiding Input Point step start

def osTimerSecond : Nat := 1000
def osTimerMinute : Nat := 60 * osTimerSecond

-- `os_timer_t` is 32 bits wide.
def timer (t : Nat) : Nat := t % 2 ^ 32

def sec (s : Nat) : Nat := timer (s * osTimerSecond)

def since (now past : Nat) : Nat := timer (now + 2 ^ 32 - past)

def tracerPeriodDynamic : Nat := 0
def tracerPeriodDynamicMax : Nat := 30
def tracerPeriodDynamicMin : Nat := 1
def tracerEndWaitPowerFail : Nat := 20 * osTimerSecond
def noFixProblemLimit : Nat := 30 * osTimerSecond
def noFixResetLimit : Nat := 100 * osTimerSecond

def tracerSendModeBulk : Nat := 1
def tracerSendModeOff : Nat := 2
def tracerStartModeKey : Nat := 1
def tracerStartModeShock : Nat := 2
def tracerUnitIdMax : Nat := 0x7FFFFFFE

/-- `tracer_param_t`. -/
structure Param where
  unitId : Nat
  period : Nat
  periodRoaming : Nat
  waitTime : Nat
  protocol : Nat
  startSpeed : Nat
  sendMode : Nat
  startMode : Nat
deriving DecidableEq, Repr

def paramDefault : Param := ⟨0,10,10,20,0,3,0,3⟩

structure Server where
  ip : Nat
  port : Nat
  p : Param

/-- The variables of the tracking state machine, with `SYSTEM_IO_TRACING`.
`SHOCK_DIRECTION_NONE` is `none`. -/
structure Track where
  pointTime : Nat
  storePeriod : Nat
  pointLast : Nat
  dynDir : Option Nat
  stopRq : Bool
  stopTmr : Nat
  startPending : Bool
  lastFixTmr : Nat
  noFixResetEnable : Bool
  point : UInt16
  track : UInt16
  userId : UInt8
  active : Bool
  ioTracing : Bool
  shockTraceActive : Bool
  shockStopRq : Bool
  shockStartTmr : Nat
  easyFix : Bool
  externalStart : Bool

/-- Where `tracer_comm_process` is: not running, in `net_connect`, or in
`wait_for_ack` since the given time. -/
inductive Phase
  | idle
  | connecting
  | waiting (start : Nat)
deriving DecidableEq, Repr

structure Comm where
  sleepTmr : Nat
  packetAck : Bool
  newTrackIdSet : UInt16
  sendRetry : Nat
  tmout : Nat
  h02 : H02
  ring : Statics
  phase : Phase

structure State where
  server : Server
  track : Track
  comm : Comm

/-- The configuration as read: the target, if readable, with the port within it
if it could be parsed; and the parameters. -/
structure Config where
  target : Option (Nat × Option Nat)
  param : Option Param

def Server.resolve (target : Option (Nat × Option Nat)) (s : Server) : Server :=
  match target with
  | some (ip,port) => {s with ip := ip, port := port.getD s.port}
  | none => s

def tracerServerReinit (unitId : Nat) (s : State) : State :=
  {s with
    server := {s.server with p := {s.server.p with unitId := unitId}}
    comm := {s.comm with h02 := reinit unitId {s.comm.h02 with packet := []}}}

def tracerReinit (cfg : Config) (s : State) : State :=
  let p := cfg.param.getD paramDefault
  let s := {s with
    server := {s.server.resolve cfg.target with p := p}
    track := {s.track with pointTime := 0, pointLast := 0, dynDir := none}}
  let s := tracerServerReinit p.unitId s
  {s with comm := {s.comm with packetAck := false}}

def tracerSetTrackId (id : UInt16) (now : Nat) (s : State) : State :=
  {s with comm := {s.comm with
    newTrackIdSet := if id = 0 then 1 else id
    sleepTmr := timer (now + osTimerSecond)}}

-- `saved` answers `cfg_write`.
def tracerSetId (id : Nat) (saved : Bool) (s : State) : Bool × State :=
  let s := {s with server := {s.server with p := {s.server.p with unitId := id}}}
  if tracerUnitIdMax < id then (false,s)
  else if saved = false then (false,s)
  else (true,tracerServerReinit id s)

def tracerServerSetupOk (s : State) : Bool := s.server.ip ≠ 0 && s.server.port ≠ 0 && s.server.p.unitId ≠ 0

def tracerIsActive (t : Track) : Bool := t.active || t.ioTracing

def tracerDeactivate (t : Track) : Track := {t with stopRq := false, active := false, ioTracing := false}

/-- What a call of the tracking functions meets outside of the module. -/
structure Env where
  now : Nat
  powerFail : Bool
  battery : Bool
  gpsFix : Bool
  gpsSpeed : Nat
  stampAge : Nat
  direction : Option Nat
  roaming : Bool
  position : Vector UInt8 22
  positionValid : Bool
  ioTrack : Bool
  inputs : UInt32
  alloc : Bool
  written : Bool

def tracerStartNow (now : Nat) (s : State) : Bool × State :=
  let t := s.track
  if t.stopTmr ≠ 0 then (false,{s with track := {t with stopTmr := 0}})
  else
    let t := {t with stopRq := false}
    if tracerIsActive t then (false,{s with track := t})
    else if tracerServerSetupOk s = false then
      if s.server.ip = 0 ∧ s.server.port ≠ 0 then (false,{s with track := {t with startPending := true}})
      else (false,{s with track := t})
    else (true,{s with track := {t with
      startPending := false, lastFixTmr := now, noFixResetEnable := true, point := 0
      pointTime := timer (now + 5 * osTimerSecond), pointLast := now, dynDir := none, active := true}})

def tracerStopNow (now : Nat) (s : State) : State :=
  if tracerIsActive s.track then
    if s.track.point = 0 then {s with track := tracerDeactivate s.track}
    else {s with track := {s.track with stopTmr := timer (now + sec s.server.p.waitTime)}}
  else s

def tracerStart (now : Nat) (s : State) : State :=
  let (started,s) := tracerStartNow now s
  if started then {s with track := {s.track with externalStart := true}} else s

def tracerKeyStart (now : Nat) (s : State) : State :=
  if s.server.p.startMode &&& tracerStartModeKey = 0 then s else tracerStart now s

def tracerStop (now : Nat) (s : State) : State :=
  let s := tracerStopNow now {s with track := {s.track with startPending := false}}
  {s with track := {s.track with externalStart := false}}

def tracerTest (now : Nat) (s : State) : Bool × State :=
  if tracerIsActive s.track then (true,s)
  else if tracerServerSetupOk s = false then (false,s)
  else
    let s := tracerStart now s
    let period := if s.server.p.period ≠ 0 then s.server.p.period else tracerPeriodDynamicMax
    (true,{s with track := {s.track with stopTmr := timer (now + 21 * sec period)}})

-- `tracer_end_mode` keeps its initial value, so that only the battery matters.
def tracerPowerStop (env : Env) : Bool := env.powerFail && env.battery

def tracerShockStart (env : Env) (state : Bool) (s : State) : State :=
  if state then
    if s.server.p.startMode &&& tracerStartModeShock = 0 then s
    else
      let t := if s.track.shockTraceActive = false ∧ tracerPowerStop env = false then
          {s.track with shockStartTmr := timer (env.now + 60 * osTimerSecond)}
        else s.track
      {s with track := {t with shockStopRq := false}}
  else if s.track.shockTraceActive then {s with track := {s.track with shockStopRq := true}}
  else s

def tracerShockTask (env : Env) (s : State) : State :=
  if s.track.externalStart then s
  else if tracerPowerStop env then
    if s.track.shockTraceActive then tracerStopNow env.now {s with track := {s.track with shockTraceActive := false}}
    else s
  else if env.now < s.track.shockStartTmr then
    if (s.track.easyFix && env.gpsFix) || s.server.p.startSpeed ≤ env.gpsSpeed then
      (tracerStartNow env.now {s with track := {s.track with shockStartTmr := 0, shockTraceActive := true}}).2
    else s
  else if s.track.shockStopRq ∧ env.gpsSpeed < 2 then
    tracerStopNow env.now {s with track := {s.track with shockTraceActive := false, shockStopRq := false}}
  else s

-- The part of `tracer_task` that retries a start the name lookup has held up.
def startPendingTask (env : Env) (s : State) : State :=
  if s.track.startPending = false then s
  else if tracerServerSetupOk s then tracerStart env.now {s with track := {s.track with startPending := false}}
  else if s.server.port = 0 then {s with track := {s.track with startPending := false}}
  else s

def tracerDynamicPoint (env : Env) (t : Track) : Bool :=
  t.point ≠ 0 && sec tracerPeriodDynamicMin ≤ since env.now t.pointLast &&
    env.direction.isSome && t.dynDir.isSome && env.direction ≠ t.dynDir

def pointInfo (env : Env) (t : Track) : UInt32 :=
  let inputs : UInt32 := (env.inputs &&& 0xFF) * 0x100
  (t.userId.toUInt32 &&& 0x7F) ||| (if env.ioTrack then 0x80 else 0) ||| inputs |||
    (if env.powerFail then 0x2000000 else 0)

-- The first point of a track raises its number and the system's signal.
def nextPoint (t : Track) : Track :=
  let t := if t.point = 0 then {t with track := t.track + 1, ioTracing := true} else t
  {t with point := t.point + 1}

def tracerNewPoint (env : Env) (s : State) : State :=
  let t := nextPoint s.track
  let (_,buffer) := tracerBufStorePosition s.comm.ring.toBuffer env.alloc env.written env.position t.track t.point
    (pointFlags env.positionValid t.stopRq) (pointInfo env t)
  {s with track := t, comm := {s.comm with ring := {s.comm.ring with toBuffer := buffer}}}

-- The end of the delay after a stop, and the quicker end on power failure.
def stopTimerTask (env : Env) (t : Track) : Track :=
  if t.stopTmr = 0 then t
  else
    let t := if t.stopTmr < env.now then
        {t with stopTmr := 0, stopRq := true, pointTime := timer (env.now + osTimerSecond)}
      else t
    if env.powerFail ∧ timer (env.now + tracerEndWaitPowerFail) < t.stopTmr then
      {t with stopTmr := timer (env.now + tracerEndWaitPowerFail)}
    else t

def fixTask (env : Env) (t : Track) : Track :=
  let lost := since env.now t.lastFixTmr
  let aged := osTimerMinute < env.stampAge ∧ env.stampAge < 10 * osTimerMinute
  if noFixProblemLimit < lost ∧ t.noFixResetEnable ∧ (aged ∨ noFixResetLimit < lost) then
    {t with noFixResetEnable := false}
  else t

-- The next point is due one period on; `tracer_store_period` is 16 bits wide.
def scheduleTask (env : Env) (p : Param) (t : Track) : Track :=
  let t := if p.period = tracerPeriodDynamic then
      {t with
        dynDir := env.direction <|> t.dynDir
        storePeriod := sec tracerPeriodDynamicMax % 2 ^ 16}
    else {t with storePeriod := sec (if env.roaming then p.periodRoaming else p.period) % 2 ^ 16}
  let t := {t with storePeriod := if t.storePeriod < osTimerSecond then osTimerSecond else t.storePeriod}
  let next := timer (t.pointTime + t.storePeriod)
  {t with pointTime := if next < env.now then timer (env.now + t.storePeriod) else next}

def timersTask (env : Env) (p : Param) (t : Track) : Track :=
  let t := if p.period = tracerPeriodDynamic ∧ tracerDynamicPoint env t then {t with pointTime := env.now} else t
  fixTask env (stopTimerTask env t)

-- A point is due; with a stop requested it is the last one.
def pointTask (env : Env) (s : State) : State :=
  let s := tracerNewPoint env {s with track := scheduleTask env s.server.p s.track}
  let t := {s.track with pointLast := env.now}
  {s with track := if t.stopRq then tracerDeactivate t else t}

-- The part of `tracer_task` for a running track.
def trackTask (env : Env) (s : State) : State :=
  if tracerIsActive s.track = false then s
  else
    let s := {s with track := timersTask env s.server.p s.track}
    if env.now < s.track.pointTime then s else pointTask env s

def tracerTask (env : Env) (s : State) : State :=
  trackTask env (startPendingTask env (tracerShockTask env s))

def tracerPacketRx (sdk : Sdk) (data : List UInt8) (port : Nat) (s : State) : Bool × State :=
  if port ≠ s.server.port then (false,s)
  else if packetReplyOk sdk s.comm.h02 data = false then (false,s)
  else (true,{s with comm := {s.comm with packetAck := true}})

/-- What a part of `tracer_comm_process` meets outside of the module. -/
structure CommEnv where
  now : Nat
  alloc : Bool
  readable : Nat → Bool
  written : Nat → Bool
  connected : Bool
  cfg : Config

def tracerCommSleep (now tm : Nat) (c : Comm) : Comm := {c with sleepTmr := timer (now + tm * osTimerSecond)}

def tmoutMax : Nat := 5 * osTimerSecond
def tmoutMin : Nat := 200
def maxSendRetry : Nat := 5

-- `wait_for_ack` ends with this.
def updateTmout (tmout : Nat) : Nat :=
  let tmout := timer (tmout + tmout / 2)
  if tmoutMax < tmout then tmoutMax else if tmout < tmoutMin then tmoutMin else tmout

-- The packet has not been sent, or not answered in time.
def sendFailed (now pause : Nat) (c : Comm) : Comm :=
  let c := {tracerCommSleep now pause c with phase := .idle}
  if c.sendRetry < maxSendRetry then {c with sendRetry := c.sendRetry + 1} else tracerCommSleep now 30 c

def ackMissing (now : Nat) (c : Comm) : Comm := sendFailed now 1 {c with tmout := updateTmout c.tmout}

/-- `tracer_comm_process` up to `net_connect` for a packet. The slot of the point
put into a packet stands beside the new state. -/
def commProcess (sdk : Sdk) (env : CommEnv) (s : State) : State × Option Nat :=
  let sleep (tm : Nat) (s : State) : State := {s with comm := tracerCommSleep env.now tm s.comm}
  if env.now < s.comm.sleepTmr then (s,none)
  else if s.comm.newTrackIdSet ≠ 0 ∧ tracerIsActive s.track = false then
    let (_,ring) := tracerBufHardErase s.comm.ring env.alloc env.written
    ({s with
      track := {s.track with track := s.comm.newTrackIdSet - 1}
      comm := {s.comm with ring := ring, newTrackIdSet := 0}},none)
  else
    let s := if tracerServerSetupOk s = false ∧ s.server.ip = 0 ∧ s.server.port ≠ 0 ∧ env.connected then
        {s with server := s.server.resolve env.cfg.target}
      else s
    if tracerServerSetupOk s = false then (sleep 60 s,none)
    else if packetReady s.comm.h02 then
      if s.server.p.sendMode = tracerSendModeOff then (sleep 60 s,none)
      else if s.server.p.sendMode = tracerSendModeBulk ∧ tracerIsActive s.track then (sleep 5 s,none)
      else ({s with comm := {s.comm with phase := .connecting}},none)
    else if tracerBufEmpty s.comm.ring.toBuffer then (sleep 5 s,none)
    else
      match tracerBufReadNext s.comm.ring.toBuffer env.alloc (env.readable s.comm.ring.readPtr) with
      | (some (slot,b),buffer) =>
        ({s with comm := {s.comm with
          h02 := newPoint sdk b s.comm.h02
          ring := {s.comm.ring with toBuffer := buffer}}},some slot)
      | (none,_) => (sleep 10 s,none)

/-- From the return of `net_connect` into `wait_for_ack`. The packet handed to
the network stands beside the new state. -/
def commConnected (env : CommEnv) (s : State) : State × Option (List UInt8) :=
  if env.connected = false then ({s with comm := sendFailed env.now 5 s.comm},none)
  else if s.server.ip = 0 ∨ s.server.port = 0 then
    let s := tracerReinit env.cfg s
    let c := tracerCommSleep env.now 60 s.comm
    ({s with comm := {c with h02 := packetDone c.h02, phase := .idle}},none)
  else
    let c := {s.comm with packetAck := false}
    let packet := c.h02.packet.take (packetSize c.h02)
    if env.now < timer (env.now + c.tmout) then ({s with comm := {c with phase := .waiting env.now}},some packet)
    else ({s with comm := ackMissing env.now c},some packet)

/-- A round of `wait_for_ack`, and what follows its end. -/
def commWake (env : CommEnv) (start : Nat) (s : State) : State :=
  if s.comm.packetAck then
    let (_,ring) := tracerBufDeliveredAll s.comm.ring env.alloc env.readable env.written
    {s with comm := {s.comm with
      packetAck := false, tmout := updateTmout (since env.now start), sendRetry := 0
      h02 := packetDone s.comm.h02, ring := ring, phase := .idle}}
  else if env.now < timer (start + s.comm.tmout) then s
  else {s with comm := ackMissing env.now s.comm}

def commStep (sdk : Sdk) (env : CommEnv) (s : State) : State × Option Nat :=
  match s.comm.phase with
  | .idle => commProcess sdk env s
  | .connecting => ((commConnected env s).1,none)
  | .waiting start => (commWake env start s,none)

def tracerInit (cfg : Config) (alloc : Bool) (readable : Nat → Bool) (s : State) : Bool × State :=
  let s := tracerReinit cfg s
  let r := tracerBufInit s.comm.ring alloc readable
  let t := {s.track with track := r.track}
  let t := if r.result then {t with userId := r.info.toUInt8 &&& 0x7F} else t
  (r.result,{s with track := t, comm := {s.comm with ring := r.ring}})

/-- The variables before `tracer_init`, over a flash of any content. -/
def statics (flash : Nat → TracerBuf) : State where
  server := ⟨0,0,paramDefault⟩
  track := ⟨0,0,0,none,false,0,false,0,true,0,0,0,false,false,false,false,0,false,false⟩
  comm := ⟨0,false,0,0,tmoutMax / 2,⟨0,0,[]⟩,⟨⟨0,0,flash⟩,0⟩,.idle⟩

/-- The calls of the module by other parts of the firmware; `tracer_task` and
`tracer_comm_process` come in their parts. -/
inductive Input
  | start (now : Nat)
  | keyStart (now : Nat)
  | stop (now : Nat)
  | test (now : Nat)
  | shockStart (env : Env) (state : Bool)
  | shockTask (env : Env)
  | startPendingTask (env : Env)
  | trackTask (env : Env)
  | reinit (cfg : Config)
  | setId (id : Nat) (saved : Bool)
  | setTrackId (id : UInt16) (now : Nat)
  | packetRx (data : List UInt8) (port : Nat)
  | comm (env : CommEnv)

/-- The state after the call, and the slot of a point put into a packet by it. -/
def Input.apply (sdk : Sdk) (s : State) : Input → State × Option Nat
  | .start now => (tracerStart now s,none)
  | .keyStart now => (tracerKeyStart now s,none)
  | .stop now => (tracerStop now s,none)
  | .test now => ((tracerTest now s).2,none)
  | .shockStart env state => (tracerShockStart env state s,none)
  | .shockTask env => (tracerShockTask env s,none)
  | .startPendingTask env => (Tracer.startPendingTask env s,none)
  | .trackTask env => (Tracer.trackTask env s,none)
  | .reinit cfg => (tracerReinit cfg s,none)
  | .setId id saved => ((tracerSetId id saved s).2,none)
  | .setTrackId id now => (tracerSetTrackId id now s,none)
  | .packetRx data port => ((tracerPacketRx sdk data port s).2,none)
  | .comm env => commStep sdk env s

-- A tick is a run of its three parts.
theorem tracerTask_run (sdk : Sdk) (env : Env) (s : State) :
    Run.run (fun s input => (Input.apply sdk s input).1) s [.shockTask env,.startPendingTask env,.trackTask env] =
      tracerTask env s := rfl

/-- The functions that start and stop a track leave the setup and the upload alone. -/
structure TrackOnly (s s' : State) : Prop where
  server : s'.server = s.server
  comm : s'.comm = s.comm

theorem tracerStartNow_only (now : Nat) (s : State) : TrackOnly s (tracerStartNow now s).2 := by
  unfold tracerStartNow
  dsimp only
  split_ifs <;> exact ⟨rfl,rfl⟩

theorem tracerStopNow_only (now : Nat) (s : State) : TrackOnly s (tracerStopNow now s) := by
  unfold tracerStopNow
  split_ifs <;> exact ⟨rfl,rfl⟩

theorem tracerStart_only (now : Nat) (s : State) : TrackOnly s (tracerStart now s) := by
  obtain ⟨server,comm⟩ := tracerStartNow_only now s
  unfold tracerStart
  dsimp only
  split_ifs
  · exact ⟨server,comm⟩
  · exact ⟨server,comm⟩

theorem tracerKeyStart_only (now : Nat) (s : State) : TrackOnly s (tracerKeyStart now s) := by
  unfold tracerKeyStart
  split_ifs
  · exact ⟨rfl,rfl⟩
  · exact tracerStart_only now s

theorem tracerStop_only (now : Nat) (s : State) : TrackOnly s (tracerStop now s) := by
  obtain ⟨server,comm⟩ := tracerStopNow_only now {s with track := {s.track with startPending := false}}
  exact ⟨server,comm⟩

theorem tracerTest_only (now : Nat) (s : State) : TrackOnly s (tracerTest now s).2 := by
  obtain ⟨server,comm⟩ := tracerStart_only now s
  unfold tracerTest
  split_ifs
  · exact ⟨rfl,rfl⟩
  · exact ⟨rfl,rfl⟩
  · exact ⟨server,comm⟩

theorem tracerShockStart_only (env : Env) (state : Bool) (s : State) : TrackOnly s (tracerShockStart env state s) := by
  unfold tracerShockStart
  dsimp only
  split_ifs <;> exact ⟨rfl,rfl⟩

theorem tracerShockTask_only (env : Env) (s : State) : TrackOnly s (tracerShockTask env s) := by
  unfold tracerShockTask
  split_ifs
  · exact ⟨rfl,rfl⟩
  · obtain ⟨server,comm⟩ := tracerStopNow_only env.now {s with track := {s.track with shockTraceActive := false}}
    exact ⟨server,comm⟩
  · exact ⟨rfl,rfl⟩
  · obtain ⟨server,comm⟩ := tracerStartNow_only env.now
      {s with track := {s.track with shockStartTmr := 0, shockTraceActive := true}}
    exact ⟨server,comm⟩
  · exact ⟨rfl,rfl⟩
  · obtain ⟨server,comm⟩ := tracerStopNow_only env.now
      {s with track := {s.track with shockTraceActive := false, shockStopRq := false}}
    exact ⟨server,comm⟩
  · exact ⟨rfl,rfl⟩

theorem startPendingTask_only (env : Env) (s : State) : TrackOnly s (startPendingTask env s) := by
  unfold startPendingTask
  split_ifs
  · exact ⟨rfl,rfl⟩
  · obtain ⟨server,comm⟩ := tracerStart_only env.now {s with track := {s.track with startPending := false}}
    exact ⟨server,comm⟩
  · exact ⟨rfl,rfl⟩
  · exact ⟨rfl,rfl⟩

/-- What storing a point does to the upload: nothing without memory, else a
record is written to the save index, if the flash takes it. -/
def Stores (env : Env) (c c' : Comm) : Prop :=
  c' = c ∨ ∃ b, undelivered b = true ∧ c' = {c with ring := {c.ring with
    savePtr := bufIncPtr c.ring.savePtr
    flash := (tracerBufSave c.ring.flash env.written c.ring.savePtr b).2}}

theorem tracerNewPoint_stores (env : Env) (s : State) :
    (tracerNewPoint env s).server = s.server ∧ Stores env s.comm (tracerNewPoint env s).comm := by
  refine ⟨rfl,?_⟩
  unfold tracerNewPoint tracerBufStorePosition
  cases env.alloc with
  | false => exact Or.inl rfl
  | true =>
    refine Or.inr ⟨⟨(nextPoint s.track).track,(nextPoint s.track).point,env.position,
      pointInfo env (nextPoint s.track),pointFlags env.positionValid (nextPoint s.track).stopRq,0⟩,?_,rfl⟩
    exact decide_eq_true (pointFlags_undelivered _ _)

theorem pointTask_stores (env : Env) (s : State) :
    (pointTask env s).server = s.server ∧ Stores env s.comm (pointTask env s).comm :=
  tracerNewPoint_stores env {s with track := scheduleTask env s.server.p s.track}

theorem trackTask_stores (env : Env) (s : State) :
    (trackTask env s).server = s.server ∧ Stores env s.comm (trackTask env s).comm := by
  unfold trackTask
  dsimp only
  split_ifs
  · exact ⟨rfl,Or.inl rfl⟩
  · exact ⟨rfl,Or.inl rfl⟩
  · exact pointTask_stores env {s with track := timersTask env s.server.p s.track}

end JcaFirmware.Tracer
