import JcaFirmware.TracerTrack

/-! When the points of a track are stored (`tracer_task` in `app/tracer/tracer.c`): the time that each call waits for,
and the one that it sets for the next point. -/
namespace JcaFirmware.TracerSchedule
open Foundation TracerUpload TracerH02 Tracer
open TracerComm (plainSdk unitOne)
open TracerBuffer hiding State Input Inv step start
open TracerRecovery hiding Input Point step start

section Call

variable (env : Env) (p : Param) (t : Track) (s : State)

/-- The delay of a stop ends with the call. -/
def DelayOver : Prop := t.stopTmr ≠ 0 ∧ t.stopTmr < env.now

instance : Decidable (DelayOver env t) := inferInstanceAs (Decidable (_ ∧ _))

/-- A change of the direction asks for a point. -/
def Turned : Prop := p.period = tracerPeriodDynamic ∧ tracerDynamicPoint env t = true

instance : Decidable (Turned env p t) := inferInstanceAs (Decidable (_ ∧ _))

/-- The time that the call waits for. -/
def dueTime : Nat :=
  if DelayOver env t then timer (env.now + osTimerSecond) else if Turned env p t then env.now else t.pointTime

/-- The seconds between two points that are configured. -/
def configured : Nat :=
  if p.period = tracerPeriodDynamic then tracerPeriodDynamicMax else if env.roaming then p.periodRoaming else p.period

/-- `tracer_store_period` for a number of seconds. -/
def storePeriodOf (seconds : Nat) : Nat :=
  if sec seconds % 2 ^ 16 < osTimerSecond then osTimerSecond else sec seconds % 2 ^ 16

/-- What a point that was due sets for the next one. -/
def nextTime (now period due : Nat) : Nat :=
  if timer (due + period) < now then timer (now + period) else timer (due + period)

/-- Where a call leaves the schedule of a track. -/
structure Leaves (t t' : Track) (pointTime : Nat) (point : UInt16) (pointLast : Nat) : Prop where
  pointTime : t'.pointTime = pointTime
  point : t'.point = point
  pointLast : t'.pointLast = pointLast

theorem stopTimerTask_leaves : Leaves t (stopTimerTask env t)
    (if DelayOver env t then timer (env.now + osTimerSecond) else t.pointTime) t.point t.pointLast := by
  unfold stopTimerTask
  dsimp only
  by_cases stopped : t.stopTmr = 0
  · have same : ¬ DelayOver env t := fun expired => expired.1 stopped
    rw [if_pos stopped,if_neg same]
    exact ⟨rfl,rfl,rfl⟩
  rw [if_neg stopped]
  by_cases past : t.stopTmr < env.now
  · have expired : DelayOver env t := ⟨stopped,past⟩
    rw [if_pos past,if_pos expired]
    split_ifs <;> exact ⟨rfl,rfl,rfl⟩
  · have same : ¬ DelayOver env t := fun expired => past expired.2
    rw [if_neg past,if_neg same]
    split_ifs <;> exact ⟨rfl,rfl,rfl⟩

theorem fixTask_leaves : Leaves t (fixTask env t) t.pointTime t.point t.pointLast := by
  unfold fixTask
  dsimp only
  split_ifs <;> exact ⟨rfl,rfl,rfl⟩

theorem timersTask_leaves : Leaves t (timersTask env p t) (dueTime env p t) t.point t.pointLast := by
  have turned (t₀ : Track) (stopTmr : t₀.stopTmr = t.stopTmr) (point : t₀.point = t.point) (last : t₀.pointLast = t.pointLast) :
      Leaves t (fixTask env (stopTimerTask env t₀))
        (if DelayOver env t then timer (env.now + osTimerSecond) else t₀.pointTime) t.point t.pointLast := by
    have stop := stopTimerTask_leaves env t₀
    have fix := fixTask_leaves env (stopTimerTask env t₀)
    have same : DelayOver env t₀ ↔ DelayOver env t := by rw [DelayOver,DelayOver,stopTmr]
    exact ⟨(fix.pointTime.trans stop.pointTime).trans (if_congr same rfl rfl),(fix.point.trans stop.point).trans point,
      (fix.pointLast.trans stop.pointLast).trans last⟩
  unfold timersTask dueTime
  dsimp only
  by_cases turn : Turned env p t
  · rw [if_pos turn,show (if p.period = tracerPeriodDynamic ∧ tracerDynamicPoint env t = true then {t with pointTime := env.now} else t) =
      {t with pointTime := env.now} from if_pos turn]
    exact turned _ rfl rfl rfl
  · rw [if_neg turn,show (if p.period = tracerPeriodDynamic ∧ tracerDynamicPoint env t = true then {t with pointTime := env.now} else t) =
      t from if_neg turn]
    exact turned t rfl rfl rfl

theorem scheduleTask_leaves : Leaves t (scheduleTask env p t) (nextTime env.now (storePeriodOf (configured env p)) t.pointTime)
    t.point t.pointLast := by
  unfold scheduleTask configured nextTime storePeriodOf
  dsimp only
  by_cases dynamic : p.period = tracerPeriodDynamic
  · rw [if_pos dynamic,if_pos dynamic]
    exact ⟨rfl,rfl,rfl⟩
  · rw [if_neg dynamic,if_neg dynamic]
    exact ⟨rfl,rfl,rfl⟩

theorem pointTask_leaves : Leaves s.track (pointTask env s).track
    (nextTime env.now (storePeriodOf (configured env s.server.p)) s.track.pointTime) (s.track.point + 1) env.now := by
  have scheduled := scheduleTask_leaves env s.server.p s.track
  have next (t : Track) : Leaves t (nextPoint t) t.pointTime (t.point + 1) t.pointLast := by
    unfold nextPoint
    dsimp only
    split_ifs <;> exact ⟨rfl,rfl,rfl⟩
  have stored := next (scheduleTask env s.server.p s.track)
  have track : (tracerNewPoint env {s with track := scheduleTask env s.server.p s.track}).track =
    nextPoint (scheduleTask env s.server.p s.track) := rfl
  have pointTime := stored.pointTime.trans scheduled.pointTime
  have point := stored.point.trans (congrArg (· + 1) scheduled.point)
  unfold pointTask
  dsimp only
  rw [track]
  split_ifs <;> exact ⟨pointTime,point,rfl⟩

/-- A call that comes too early leaves the schedule as it is. -/
theorem trackTask_early (active : tracerIsActive s.track = true) (early : env.now < dueTime env s.server.p s.track) :
    Leaves s.track (trackTask env s).track (dueTime env s.server.p s.track) s.track.point s.track.pointLast := by
  have timers := timersTask_leaves env s.server.p s.track
  rw [TracerTrack.trackTask_active env s active,timers.pointTime,if_pos early]
  exact timers

/-- A call at the due time or later stores a point. -/
theorem trackTask_due (active : tracerIsActive s.track = true) (due : dueTime env s.server.p s.track ≤ env.now) :
    Leaves s.track (trackTask env s).track
      (nextTime env.now (storePeriodOf (configured env s.server.p)) (dueTime env s.server.p s.track)) (s.track.point + 1) env.now := by
  have timers := timersTask_leaves env s.server.p s.track
  have stored := pointTask_leaves env {s with track := timersTask env s.server.p s.track}
  dsimp only at stored
  rw [timers.pointTime] at stored
  rw [TracerTrack.trackTask_active env s active,timers.pointTime,if_neg (Nat.not_lt.mpr due)]
  exact ⟨stored.pointTime,stored.point.trans (congrArg (· + 1) timers.point),stored.pointLast⟩

end Call

section Starts

/-- What a call leaves of the schedule: all of it, or that of a new track. -/
inductive Moves (now : Nat) (t t' : Track) : Prop
  | same (leaves : Leaves t t' t.pointTime t.point t.pointLast) (active : tracerIsActive t' = true → tracerIsActive t = true)
  | begun (idle : tracerIsActive t = false) (leaves : Leaves t t' (timer (now + 5 * osTimerSecond)) 0 now)

variable (now : Nat) (env : Env) (s : State)

theorem Moves.refl (t : Track) : Moves now t t := .same ⟨rfl,rfl,rfl⟩ id

/-- With other fields changed before it. -/
theorem Moves.from {now : Nat} {t t' t'' : Track} (moves : Moves now t' t'') (leaves : Leaves t t' t.pointTime t.point t.pointLast)
    (active : tracerIsActive t' = tracerIsActive t) : Moves now t t'' := by
  cases moves with
  | same own runs =>
    exact .same ⟨own.pointTime.trans leaves.pointTime,own.point.trans leaves.point,own.pointLast.trans leaves.pointLast⟩
      fun after => active.symm.trans (runs after)
  | begun idle own => exact .begun (active.symm.trans idle) ⟨own.pointTime,own.point,own.pointLast⟩

/-- With other fields changed behind it. -/
theorem Moves.to {now : Nat} {t t' t'' : Track} (moves : Moves now t t') (leaves : Leaves t' t'' t'.pointTime t'.point t'.pointLast)
    (active : tracerIsActive t'' = tracerIsActive t') : Moves now t t'' := by
  cases moves with
  | same own runs =>
    exact .same ⟨leaves.pointTime.trans own.pointTime,leaves.point.trans own.point,leaves.pointLast.trans own.pointLast⟩
      fun after => runs (active.symm.trans after)
  | begun idle own =>
    exact .begun idle ⟨leaves.pointTime.trans own.pointTime,leaves.point.trans own.point,leaves.pointLast.trans own.pointLast⟩

theorem tracerStartNow_moves : Moves now s.track (tracerStartNow now s).2.track := by
  unfold tracerStartNow
  dsimp only
  split_ifs with stopping active
  · exact .same ⟨rfl,rfl,rfl⟩ id
  · exact .same ⟨rfl,rfl,rfl⟩ id
  · exact .same ⟨rfl,rfl,rfl⟩ id
  · exact .same ⟨rfl,rfl,rfl⟩ id
  · exact .begun (Bool.eq_false_iff.mpr active) ⟨rfl,rfl,rfl⟩

theorem tracerStopNow_moves : Moves now s.track (tracerStopNow now s).track := by
  unfold tracerStopNow
  split_ifs with active
  · exact .same ⟨rfl,rfl,rfl⟩ fun _ => active
  · exact .same ⟨rfl,rfl,rfl⟩ id
  · exact .refl now s.track

theorem tracerStart_moves : Moves now s.track (tracerStart now s).track := by
  unfold tracerStart
  dsimp only
  split_ifs
  · exact (tracerStartNow_moves now s).to ⟨rfl,rfl,rfl⟩ rfl
  · exact tracerStartNow_moves now s

theorem tracerShockTask_moves : Moves env.now s.track (tracerShockTask env s).track := by
  have stops (t : Track) (leaves : Leaves s.track t s.track.pointTime s.track.point s.track.pointLast)
      (active : tracerIsActive t = tracerIsActive s.track) :
      Moves env.now s.track (tracerStopNow env.now {s with track := t}).track :=
    (tracerStopNow_moves env.now {s with track := t}).from leaves active
  unfold tracerShockTask
  split_ifs
  · exact .refl _ s.track
  · exact stops {s.track with shockTraceActive := false} ⟨rfl,rfl,rfl⟩ rfl
  · exact .refl _ s.track
  · exact (tracerStartNow_moves env.now {s with track := {s.track with shockStartTmr := 0, shockTraceActive := true}}).from
      ⟨rfl,rfl,rfl⟩ rfl
  · exact .refl _ s.track
  · exact stops {s.track with shockTraceActive := false, shockStopRq := false} ⟨rfl,rfl,rfl⟩ rfl
  · exact .refl _ s.track

theorem tracerKeyStart_moves : Moves now s.track (tracerKeyStart now s).track := by
  unfold tracerKeyStart
  split_ifs
  · exact .refl now s.track
  · exact tracerStart_moves now s

theorem tracerStop_moves : Moves now s.track (tracerStop now s).track := by
  have stopped := (tracerStopNow_moves now {s with track := {s.track with startPending := false}}).from
    (t := s.track) ⟨rfl,rfl,rfl⟩ rfl
  exact stopped.to ⟨rfl,rfl,rfl⟩ rfl

theorem tracerTest_moves : Moves now s.track (tracerTest now s).2.track := by
  unfold tracerTest
  split_ifs
  · exact .refl now s.track
  · exact .refl now s.track
  · exact (tracerStart_moves now s).to ⟨rfl,rfl,rfl⟩ rfl

theorem tracerShockStart_moves (state : Bool) : Moves now s.track (tracerShockStart env state s).track := by
  unfold tracerShockStart
  dsimp only
  split_ifs
  · exact .refl now s.track
  all_goals exact .same ⟨rfl,rfl,rfl⟩ id

theorem startPendingTask_moves : Moves env.now s.track (startPendingTask env s).track := by
  unfold startPendingTask
  split_ifs
  · exact .refl _ s.track
  · exact (tracerStart_moves env.now {s with track := {s.track with startPending := false}}).from ⟨rfl,rfl,rfl⟩ rfl
  · exact .same ⟨rfl,rfl,rfl⟩ id
  · exact .refl _ s.track

end Starts

section Fixed

/-- The state in which the call comes to the track. -/
def started (env : Env) (s : State) : State := startPendingTask env (tracerShockTask env s)

def due (env : Env) (s : State) : Nat := dueTime env s.server.p (started env s).track

def interval (env : Env) (s : State) : Nat := configured env s.server.p * osTimerSecond

def StoresPoint (env : Env) (s : State) : Prop := (tracerTask env s).track.point ≠ (started env s).track.point

/-- In a call with a track running a point is stored if it is due, and the next one is then due one configured period
after it. -/
structure OnSchedule (env : Env) (s : State) : Prop where
  kept : (started env s).track.pointTime = s.track.pointTime ∨
    (started env s).track.point = 0 ∧ (started env s).track.pointTime = timer (env.now + 5 * osTimerSecond)
  stored : tracerIsActive (started env s).track = true → (StoresPoint env s ↔ due env s ≤ env.now)
  next : tracerIsActive (started env s).track = true →
    (tracerTask env s).track.pointTime = if due env s ≤ env.now then due env s + interval env s else due env s

/-- The call is at most one period late. -/
def Punctual (s : State) (env : Env) : Prop := env.now ≤ due env s + interval env s

instance (s : State) (env : Env) : Decidable (Punctual s env) := inferInstanceAs (Decidable (_ ≤ _))

/-- A point is stored with a period that is kept in 16 bits, or exactly so late that the schedule is caught up with. -/
def Untruncated (s : State) (env : Env) : Prop :=
  tracerIsActive (started env s).track = true → due env s ≤ env.now →
    configured env s.server.p ≤ 65 ∨
      env.now = due env s + (interval env s - storePeriodOf (configured env s.server.p))

instance (s : State) (env : Env) : Decidable (Untruncated s env) := inferInstanceAs (Decidable (_ → _ → _))

section Arithmetic

variable {seconds now due : Nat}

theorem sec_eq (small : seconds ≤ 3600) : sec seconds = seconds * osTimerSecond :=
  Nat.mod_eq_of_lt (Nat.lt_of_le_of_lt (Nat.mul_le_mul_right _ small) (by decide))

theorem storePeriodOf_short (some : 1 ≤ seconds) (short : seconds ≤ 65) : storePeriodOf seconds = seconds * osTimerSecond := by
  rw [storePeriodOf,sec_eq (by omega),osTimerSecond,Nat.mod_eq_of_lt (by omega),if_neg (by omega)]

/-- A longer period loses more than it keeps. -/
theorem storePeriodOf_long (long : 65 < seconds) (small : seconds ≤ 3600) :
    2 * storePeriodOf seconds < seconds * osTimerSecond ∧ storePeriodOf seconds < 2 ^ 16 := by
  have lost : 1 ≤ seconds * 1000 / 2 ^ 16 := by omega
  rw [storePeriodOf,sec_eq small,osTimerSecond]
  split_ifs <;> omega

theorem nextTime_eq_iff (some : 1 ≤ seconds) (small : seconds ≤ 3600) (reached : due ≤ now)
    (punctual : now ≤ due + seconds * osTimerSecond) (clock : now + 3600 * osTimerSecond < 2 ^ 32) :
    nextTime now (storePeriodOf seconds) due = due + seconds * osTimerSecond ↔
      seconds ≤ 65 ∨ now = due + (seconds * osTimerSecond - storePeriodOf seconds) := by
  have second : osTimerSecond = 1000 := rfl
  unfold nextTime timer
  by_cases short : seconds ≤ 65
  · rw [storePeriodOf_short some short]
    rw [second] at clock punctual ⊢
    rw [Nat.mod_eq_of_lt (by omega),if_neg (by omega)]
    exact ⟨fun _ => Or.inl short,fun _ => rfl⟩
  · obtain ⟨loses,word⟩ := storePeriodOf_long (by omega) small
    generalize storePeriodOf seconds = period at loses word
    rw [second] at clock punctual loses ⊢
    rw [Nat.mod_eq_of_lt (by omega),Nat.mod_eq_of_lt (by omega)]
    split_ifs <;> omega

end Arithmetic

/-- Periods as they are accepted, other than the one of the dynamic mode. -/
structure FixedPeriod (p : Param) : Prop where
  some : 1 ≤ p.period ∧ 1 ≤ p.periodRoaming
  small : p.period ≤ 3600 ∧ p.periodRoaming ≤ 3600

theorem FixedPeriod.fixed {p : Param} (accepted : FixedPeriod p) : p.period ≠ tracerPeriodDynamic :=
  Nat.ne_of_gt accepted.some.1

theorem FixedPeriod.configured {p : Param} (accepted : FixedPeriod p) (env : Env) :
    1 ≤ configured env p ∧ configured env p ≤ 3600 := by
  rw [TracerSchedule.configured,if_neg accepted.fixed]
  split_ifs
  · exact ⟨accepted.some.2,accepted.small.2⟩
  · exact ⟨accepted.some.1,accepted.small.1⟩

theorem started_server (env : Env) (s : State) : (started env s).server = s.server :=
  (startPendingTask_only env (tracerShockTask env s)).server.trans (tracerShockTask_only env s).server

theorem tracerTask_server (env : Env) (s : State) : (tracerTask env s).server = s.server :=
  (trackTask_stores env (started env s)).1.trans (started_server env s)

/-- The schedule is the one from before, or that of a track that begins in the call. -/
theorem started_schedule (env : Env) (s : State) : (started env s).track.pointTime = s.track.pointTime ∨
    (started env s).track.point = 0 ∧ (started env s).track.pointTime = timer (env.now + 5 * osTimerSecond) := by
  have pending := startPendingTask_moves env (tracerShockTask env s)
  cases pending with
  | begun _ leaves => exact Or.inr ⟨leaves.point,leaves.pointTime⟩
  | same leaves =>
    cases tracerShockTask_moves env s with
    | begun _ before => exact Or.inr ⟨leaves.point.trans before.point,leaves.pointTime.trans before.pointTime⟩
    | same before => exact Or.inl (leaves.pointTime.trans before.pointTime)

section Step

variable {env : Env} {s : State}

theorem tracerTask_early (active : tracerIsActive (started env s).track = true) (early : ¬ due env s ≤ env.now) :
    ¬ StoresPoint env s ∧ (tracerTask env s).track.pointTime = due env s := by
  have left := trackTask_early env (started env s) active (by rw [started_server]; exact Nat.not_le.mp early)
  rw [started_server] at left
  exact ⟨not_not.mpr left.point,left.pointTime⟩

theorem tracerTask_due (active : tracerIsActive (started env s).track = true) (reached : due env s ≤ env.now) :
    StoresPoint env s ∧ (tracerTask env s).track.pointTime =
      nextTime env.now (storePeriodOf (configured env s.server.p)) (due env s) := by
  have left := trackTask_due env (started env s) active (by rw [started_server]; exact reached)
  rw [started_server] at left
  refine ⟨fun same => ?_,left.pointTime⟩
  have raised : (started env s).track.point + 1 = (started env s).track.point := left.point.symm.trans same
  exact absurd raised (by simp)

theorem onSchedule_iff (accepted : FixedPeriod s.server.p) (clock : env.now + 3600 * osTimerSecond < 2 ^ 32)
    (punctual : Punctual s env) : OnSchedule env s ↔ Untruncated s env := by
  obtain ⟨some,small⟩ := accepted.configured env
  constructor
  · intro onSchedule active reached
    have next := onSchedule.next active
    rw [if_pos reached,(tracerTask_due active reached).2] at next
    exact (nextTime_eq_iff some small reached punctual clock).mp next
  · intro untruncated
    refine ⟨started_schedule env s,fun active => ?_,fun active => ?_⟩
    · by_cases reached : due env s ≤ env.now
      · exact iff_of_true (tracerTask_due active reached).1 reached
      · exact iff_of_false (tracerTask_early active reached).1 reached
    · by_cases reached : due env s ≤ env.now
      · rw [if_pos reached,(tracerTask_due active reached).2]
        exact (nextTime_eq_iff some small reached punctual clock).mpr (untruncated active reached)
      · rw [if_neg reached]
        exact (tracerTask_early active reached).2

end Step

def tick (s : State) (env : Env) : State := tracerTask env s

/-- Over any calls that are punctual, the points of a fixed period are on schedule, exactly if none is stored with a
truncated period. -/
theorem period_kept_iff {s : State} (accepted : FixedPeriod s.server.p) {envs : List Env}
    (clock : ∀ env ∈ envs, env.now + 3600 * osTimerSecond < 2 ^ 32) (punctual : Run.Admits tick Punctual s envs) :
    (∀ before env rest, envs = before ++ env :: rest → OnSchedule env (Run.run tick s before)) ↔
      Run.Admits tick Untruncated s envs := by
  have server (before : List Env) : (Run.run tick s before).server = s.server :=
    Run.run_invariant tick (fun _ _ => True) (fun s' => s'.server = s.server)
      (fun s' env same _ => (tracerTask_server env s').trans same) s before rfl
      (Run.admits_of_forall _ _ _ _ fun _ _ _ => trivial)
  have step {before : List Env} {env : Env} {rest : List Env} (split : envs = before ++ env :: rest) :
      OnSchedule env (Run.run tick s before) ↔ Untruncated (Run.run tick s before) env := by
    refine onSchedule_iff (by rw [server]; exact accepted) (clock env (by rw [split]; simp)) ?_
    exact (Run.admits_iff tick Punctual s envs).mp punctual before env rest split
  rw [Run.admits_iff]
  exact forall₄_congr fun before env rest split => step split

end Fixed

section Others

variable (sdk : Sdk) (s : State)

/-- Nothing of the schedule, of the track, and of the period changes. -/
structure Untouched (s s' : State) : Prop where
  period : s'.server.p.period = s.server.p.period
  leaves : Leaves s.track s'.track s.track.pointTime s.track.point s.track.pointLast
  active : tracerIsActive s'.track = tracerIsActive s.track

theorem Untouched.refl : Untouched s s := ⟨rfl,⟨rfl,rfl,rfl⟩,rfl⟩

-- Stated once for any `comm`: in place the kernel would compare the timers in it.
theorem Untouched.comm (c : Comm) : Untouched s {s with comm := c} := ⟨rfl,⟨rfl,rfl,rfl⟩,rfl⟩

theorem tracerSetId_untouched (id : Nat) (saved : Bool) : Untouched s (tracerSetId id saved s).2 := by
  unfold tracerSetId
  dsimp only
  split_ifs
  · exact ⟨rfl,⟨rfl,rfl,rfl⟩,rfl⟩
  · exact ⟨rfl,⟨rfl,rfl,rfl⟩,rfl⟩
  · exact ⟨rfl,⟨rfl,rfl,rfl⟩,rfl⟩

theorem tracerPacketRx_untouched (data : List UInt8) (port : Nat) : Untouched s (tracerPacketRx sdk data port s).2 := by
  unfold tracerPacketRx
  split_ifs
  · exact .refl s
  · exact .refl s
  · exact .comm s _

theorem resolve_period (target : Option (Nat × Option Nat)) (server : Server) : (server.resolve target).p = server.p := by
  unfold Server.resolve
  split <;> rfl

theorem commProcess_untouched (env : CommEnv) : Untouched s (commProcess sdk env s).1 := by
  unfold commProcess
  dsimp only
  by_cases early : env.now < s.comm.sleepTmr
  · rw [if_pos early]
    exact .refl s
  rw [if_neg early]
  by_cases reset : s.comm.newTrackIdSet ≠ 0 ∧ tracerIsActive s.track = false
  · rw [if_pos reset]
    exact ⟨rfl,⟨rfl,rfl,rfl⟩,rfl⟩
  rw [if_neg reset]
  generalize resolved : (if tracerServerSetupOk s = false ∧ s.server.ip = 0 ∧ s.server.port ≠ 0 ∧ env.connected then
    {s with server := s.server.resolve env.cfg.target} else s) = s'
  have same : Untouched s s' := by
    rw [← resolved]
    split
    · exact ⟨congrArg Param.period (resolve_period env.cfg.target s.server),⟨rfl,rfl,rfl⟩,rfl⟩
    · exact .refl s
  have comm (c : Comm) : Untouched s {s' with comm := c} := ⟨same.period,same.leaves,same.active⟩
  split_ifs
  · exact comm _
  · exact comm _
  · exact comm _
  · exact comm _
  · exact comm _
  · split <;> exact comm _

theorem commConnected_untouched (env : CommEnv) (setup : env.connected = true → s.server.ip ≠ 0 ∧ s.server.port ≠ 0) :
    Untouched s (commConnected env s).1 := by
  unfold commConnected
  dsimp only
  by_cases failed : env.connected = false
  · rw [if_pos failed]
    exact .comm s _
  · obtain ⟨ip,port⟩ := setup (by simpa using failed)
    rw [if_neg failed,if_neg (not_or.mpr ⟨ip,port⟩)]
    split_ifs
    · exact .comm s _
    · exact .comm s _

theorem commWake_untouched (env : CommEnv) (t : Nat) : Untouched s (commWake env t s) := by
  unfold commWake
  split_ifs
  · exact .comm s _
  · exact .refl s
  · exact .comm s _

end Others

section Dynamic

/-- No reinit is asked for, nor comes from a connection that has lost its server. -/
def NoReinit (s : State) : Input → Prop
  | .reinit _ => False
  | .comm env => s.comm.phase = .connecting → env.connected = true → s.server.ip ≠ 0 ∧ s.server.port ≠ 0
  | _ => True

def timeOf : Input → Option Nat
  | .start now | .keyStart now | .stop now | .test now | .setTrackId _ now => some now
  | .shockStart env _ | .shockTask env | .startPendingTask env | .trackTask env => some env.now
  | .comm env => some env.now
  | .reinit _ | .setId _ _ | .packetRx _ _ => none

variable (sdk : Sdk)

/-- A run so far: `last` is the time of the last point, if the track has one, and `latest` that of the last call. -/
structure Watch where
  state : State
  last : Option Nat
  latest : Nat

def Begun (s s' : State) : Prop := tracerIsActive s.track = false ∧ tracerIsActive s'.track = true

instance (s s' : State) : Decidable (Begun s s') := inferInstanceAs (Decidable (_ ∧ _))

def storedAt (s s' : State) : Input → Option Nat
  | .trackTask env => if s'.track.point ≠ s.track.point then some env.now else none
  | _ => none

def watch (w : Watch) (input : Input) : Watch :=
  let s := TracerTrack.step sdk w.state input
  { state := s
    last := if Begun w.state s then none else storedAt w.state s input <|> w.last
    latest := (timeOf input).getD w.latest }

/-- The call stores no point within a second of the last one of the track, and does store one thirty seconds after it. -/
structure Spaced (w : Watch) (env : Env) : Prop where
  atLeast : ∀ u ∈ w.last, (trackTask env w.state).track.point ≠ w.state.track.point → u + 1000 ≤ env.now
  atMost : ∀ u ∈ w.last, tracerIsActive w.state.track = true → u + 30000 ≤ env.now →
    (trackTask env w.state).track.point ≠ w.state.track.point

/-- A stop delay ends within 29 s of the last point, and a point on schedule is stored within 29 s of its time, or after more
than 30 s. -/
def Steady (w : Watch) : Input → Prop
  | .trackTask env => tracerIsActive w.state.track = true →
      (DelayOver env w.state.track → ∀ u ∈ w.last, env.now ≤ u + 29000) ∧
      (¬ DelayOver env w.state.track → ¬ Turned env w.state.server.p w.state.track →
        env.now ≤ w.state.track.pointTime + 29000 ∨ w.state.track.pointTime + 30000 < env.now)
  | _ => True

structure Allowed (w : Watch) (input : Input) : Prop where
  clock : ∀ now ∈ timeOf input, w.latest ≤ now ∧ now + 60000 < 2 ^ 32
  noReinit : NoReinit w.state input
  steady : Steady w input

/-- The next point is due between one and thirty seconds after the last one. -/
structure Paced (w : Watch) (u : Nat) : Prop where
  own : w.state.track.pointLast = u
  past : u ≤ w.latest
  low : u + 1000 ≤ w.state.track.pointTime
  high : w.state.track.pointTime ≤ u + 30000

structure Inv (w : Watch) : Prop where
  dynamic : w.state.server.p.period = tracerPeriodDynamic
  paced : tracerIsActive w.state.track = true → ∀ u ∈ w.last, Paced w u

section Point

variable {env : Env} {s : State} {latest : Nat}

theorem dynamic_interval (dynamic : s.server.p.period = tracerPeriodDynamic) : storePeriodOf (configured env s.server.p) = 30000 := by
  rw [configured,if_pos dynamic]
  decide

/-- A change of the direction asks for a point no sooner than a second after the last one. -/
theorem Turned.apart (turned : Turned env s.server.p s.track) (past : s.track.pointLast ≤ env.now) :
    s.track.pointLast + 1000 ≤ env.now := by
  have asked := turned.2
  simp only [tracerDynamicPoint,Bool.and_eq_true,decide_eq_true_eq] at asked
  have second : sec tracerPeriodDynamicMin = 1000 := by decide
  have apart := asked.1.1.1.2
  rw [second,since,timer] at apart
  omega

/-- A point that is due sets the next one between one and thirty seconds from now. -/
theorem nextTime_bounds {now due : Nat} (reached : due ≤ now) (clock : now + 60000 < 2 ^ 32)
    (steady : now ≤ due + 29000 ∨ due + 30000 < now) : now + 1000 ≤ nextTime now 30000 due ∧ nextTime now 30000 due ≤ now + 30000 := by
  unfold nextTime timer
  split_ifs <;> omega

theorem due_delayed (expired : DelayOver env s.track) (clock : env.now + 60000 < 2 ^ 32) :
    dueTime env s.server.p s.track = env.now + 1000 := by
  rw [dueTime,if_pos expired,timer,osTimerSecond]
  omega

theorem due_reached (clock : env.now + 60000 < 2 ^ 32) :
    dueTime env s.server.p s.track ≤ env.now ↔
      ¬ DelayOver env s.track ∧ (Turned env s.server.p s.track ∨ s.track.pointTime ≤ env.now) := by
  by_cases expired : DelayOver env s.track
  · rw [due_delayed expired clock]
    exact iff_of_false (by omega) fun both => both.1 expired
  · by_cases turned : Turned env s.server.p s.track
    · rw [dueTime,if_neg expired,if_pos turned]
      exact iff_of_true (Nat.le_refl _) ⟨expired,Or.inl turned⟩
    · rw [dueTime,if_neg expired,if_neg turned]
      exact ⟨fun reached => ⟨expired,Or.inr reached⟩,fun both => both.2.resolve_left turned⟩

end Point

section Step

variable {sdk} {w : Watch} {env : Env}

/-- Whether the call stores a point. -/
theorem stores_iff (active : tracerIsActive w.state.track = true) :
    (trackTask env w.state).track.point ≠ w.state.track.point ↔ dueTime env w.state.server.p w.state.track ≤ env.now := by
  by_cases reached : dueTime env w.state.server.p w.state.track ≤ env.now
  · have stored := trackTask_due env w.state active reached
    refine iff_of_true (fun same => ?_) reached
    exact absurd (stored.point.symm.trans same) (by simp)
  · have left := trackTask_early env w.state active (Nat.not_le.mp reached)
    exact iff_of_false (not_not.mpr left.point) reached

theorem Inv.spaced (inv : Inv w) (allowed : Allowed w (.trackTask env)) : Spaced w env := by
  obtain ⟨monotone,clock⟩ := allowed.clock env.now rfl
  have idle (stopped : ¬ tracerIsActive w.state.track = true) : ¬ (trackTask env w.state).track.point ≠ w.state.track.point := by
    rw [TracerTrack.trackTask_idle env w.state (Bool.not_eq_true _ ▸ stopped)]
    exact not_not.mpr rfl
  refine ⟨fun u last stores => ?_,fun u last active late => ?_⟩
  · by_cases active : tracerIsActive w.state.track = true
    · have paced := inv.paced active u last
      rcases ((due_reached clock).mp ((stores_iff active).mp stores)).2 with turned | reached
      · have apart := turned.apart (by rw [paced.own]; exact Nat.le_trans paced.past monotone)
        rw [paced.own] at apart
        exact apart
      · exact Nat.le_trans paced.low reached
    · exact absurd stores (idle active)
  · have paced := inv.paced active u last
    refine (stores_iff active).mpr ((due_reached clock).mpr ⟨fun expired => ?_,Or.inr (Nat.le_trans paced.high late)⟩)
    have soon := (allowed.steady active).1 expired u last
    omega

/-- The last point of the track is that of the call, or that from before. -/
theorem watch_last {input : Input} {u : Nat} (last : u ∈ (watch sdk w input).last) :
    ¬ Begun w.state (TracerTrack.step sdk w.state input) ∧
      (storedAt w.state (TracerTrack.step sdk w.state input) input = some u ∨
        storedAt w.state (TracerTrack.step sdk w.state input) input = none ∧ u ∈ w.last) := by
  unfold watch at last
  dsimp only at last
  by_cases begun : Begun w.state (TracerTrack.step sdk w.state input)
  · rw [if_pos begun] at last
    exact nomatch last
  · rw [if_neg begun] at last
    cases stored : storedAt w.state (TracerTrack.step sdk w.state input) input with
    | none =>
      rw [stored] at last
      exact ⟨begun,Or.inr ⟨rfl,last⟩⟩
    | some now =>
      rw [stored] at last
      obtain rfl := Option.some.inj last
      exact ⟨begun,Or.inl rfl⟩

/-- A call that stores nothing keeps the last point, as long as no track begins. -/
theorem watch_last_kept {input : Input} (none : storedAt w.state (TracerTrack.step sdk w.state input) input = none) {u : Nat}
    (last : u ∈ (watch sdk w input).last) : ¬ Begun w.state (TracerTrack.step sdk w.state input) ∧ u ∈ w.last := by
  obtain ⟨begun,now | ⟨_,before⟩⟩ := watch_last last
  · exact nomatch none.symm.trans now
  · exact ⟨begun,before⟩

theorem Inv.trackTask (inv : Inv w) (allowed : Allowed w (.trackTask env)) : Inv (watch sdk w (.trackTask env)) := by
  obtain ⟨monotone,clock⟩ := allowed.clock env.now rfl
  have dynamic : (Tracer.trackTask env w.state).server.p.period = tracerPeriodDynamic := by
    rw [(trackTask_stores env w.state).1]
    exact inv.dynamic
  by_cases active : tracerIsActive w.state.track = true
  swap
  · have state : (watch sdk w (.trackTask env)).state = w.state := TracerTrack.trackTask_idle env w.state (Bool.not_eq_true _ ▸ active)
    refine ⟨dynamic,?_⟩
    rw [state]
    exact fun runs => absurd runs active
  obtain ⟨late,steady⟩ := allowed.steady active
  by_cases reached : dueTime env w.state.server.p w.state.track ≤ env.now
  · have stored := trackTask_due env w.state active reached
    have now : storedAt w.state (TracerTrack.step sdk w.state (.trackTask env)) (.trackTask env) = some env.now :=
      if_pos ((stores_iff active).mpr reached)
    obtain ⟨expired,_⟩ := (due_reached clock).mp reached
    have soon : env.now ≤ dueTime env w.state.server.p w.state.track + 29000 ∨ dueTime env w.state.server.p w.state.track + 30000 < env.now := by
      by_cases turned : Turned env w.state.server.p w.state.track
      · rw [dueTime,if_neg expired,if_pos turned]
        exact Or.inl (Nat.le_add_right _ _)
      · rw [dueTime,if_neg expired,if_neg turned]
        exact steady expired turned
    have time := stored.pointTime
    rw [dynamic_interval inv.dynamic] at time
    have next := nextTime_bounds reached clock soon
    rw [← time] at next
    refine ⟨dynamic,fun _ u last => ?_⟩
    obtain ⟨_,own | ⟨none,_⟩⟩ := watch_last last
    · obtain rfl := Option.some.inj (now.symm.trans own)
      exact ⟨stored.pointLast,Nat.le_refl _,next.1,next.2⟩
    · exact nomatch none.symm.trans now
  · have left := trackTask_early env w.state active (Nat.not_le.mp reached)
    have none : storedAt w.state (TracerTrack.step sdk w.state (.trackTask env)) (.trackTask env) = none :=
      if_neg (not_not.mpr left.point)
    refine ⟨dynamic,fun _ u last => ?_⟩
    obtain ⟨_,before⟩ := watch_last_kept none last
    have paced := inv.paced active u before
    have next : u + 1000 ≤ dueTime env w.state.server.p w.state.track ∧ dueTime env w.state.server.p w.state.track ≤ u + 30000 := by
      by_cases expired : DelayOver env w.state.track
      · have soon := late expired u before
        have past := paced.past
        rw [due_delayed expired clock]
        omega
      · have straight : ¬ Turned env w.state.server.p w.state.track := fun turned =>
          reached ((due_reached clock).mpr ⟨expired,Or.inl turned⟩)
        rw [dueTime,if_neg expired,if_neg straight]
        exact ⟨paced.low,paced.high⟩
    rw [← left.pointTime] at next
    exact ⟨left.pointLast.trans paced.own,Nat.le_trans paced.past monotone,next.1,next.2⟩

variable (sdk) in
/-- The calls other than the one for the track keep the period, and leave the schedule or begin a track. -/
theorem step_other {s : State} {input : Input} (other : ∀ env, input ≠ .trackTask env) (calm : NoReinit s input) :
    (TracerTrack.step sdk s input).server.p.period = s.server.p.period ∧
      ((∃ now ∈ timeOf input, Moves now s.track (TracerTrack.step sdk s input).track) ∨ Untouched s (TracerTrack.step sdk s input)) := by
  have only {s' : State} (same : TrackOnly s s') : s'.server.p.period = s.server.p.period := by rw [same.server]
  have kept {s' : State} (untouched : Untouched s s') : s'.server.p.period = s.server.p.period ∧
      ((∃ now ∈ timeOf input, Moves now s.track s'.track) ∨ Untouched s s') := ⟨untouched.period,Or.inr untouched⟩
  cases input with
  | trackTask env => exact absurd rfl (other env)
  | start now => exact ⟨only (tracerStart_only now s),Or.inl ⟨now,rfl,tracerStart_moves now s⟩⟩
  | keyStart now => exact ⟨only (tracerKeyStart_only now s),Or.inl ⟨now,rfl,tracerKeyStart_moves now s⟩⟩
  | stop now => exact ⟨only (tracerStop_only now s),Or.inl ⟨now,rfl,tracerStop_moves now s⟩⟩
  | test now => exact ⟨only (tracerTest_only now s),Or.inl ⟨now,rfl,tracerTest_moves now s⟩⟩
  | shockStart env state =>
    exact ⟨only (tracerShockStart_only env state s),Or.inl ⟨env.now,rfl,tracerShockStart_moves env.now env s state⟩⟩
  | shockTask env => exact ⟨only (tracerShockTask_only env s),Or.inl ⟨env.now,rfl,tracerShockTask_moves env s⟩⟩
  | startPendingTask env => exact ⟨only (startPendingTask_only env s),Or.inl ⟨env.now,rfl,startPendingTask_moves env s⟩⟩
  | reinit cfg => exact absurd calm id
  | setId id saved => exact kept (tracerSetId_untouched s id saved)
  | setTrackId id now => exact kept (.comm s _)
  | packetRx data port => exact kept (tracerPacketRx_untouched sdk s data port)
  | comm env =>
    refine kept ?_
    change Untouched s (commStep sdk env s).1
    unfold commStep
    cases phase : s.comm.phase with
    | idle => exact commProcess_untouched sdk s env
    | connecting => exact commConnected_untouched s env (calm phase)
    | waiting t => exact commWake_untouched s env t

theorem Inv.other (inv : Inv w) {input : Input} (other : ∀ env, input ≠ .trackTask env) (allowed : Allowed w input) :
    Inv (watch sdk w input) := by
  obtain ⟨period,moves⟩ := step_other sdk other allowed.noReinit
  have none : storedAt w.state (TracerTrack.step sdk w.state input) input = none := by
    cases input with
    | trackTask env => exact absurd rfl (other env)
    | start | keyStart | stop | test | shockStart | shockTask | startPendingTask | reinit | setId | setTrackId | packetRx | comm => rfl
  have later : w.latest ≤ (watch sdk w input).latest := by
    change w.latest ≤ (timeOf input).getD w.latest
    cases time : timeOf input with
    | none => exact Nat.le_refl _
    | some now => exact (allowed.clock now time).1
  -- Without a new track, all but the time of the call is as it was.
  have same (leaves : Leaves w.state.track (TracerTrack.step sdk w.state input).track w.state.track.pointTime w.state.track.point
      w.state.track.pointLast) (active : tracerIsActive (TracerTrack.step sdk w.state input).track = true →
      tracerIsActive w.state.track = true) : Inv (watch sdk w input) := by
    refine ⟨period.trans inv.dynamic,fun runs u last => ?_⟩
    have paced := inv.paced (active runs) u (watch_last_kept none last).2
    exact ⟨leaves.pointLast.trans paced.own,Nat.le_trans paced.past later,Nat.le_trans paced.low (Nat.le_of_eq leaves.pointTime.symm),
      Nat.le_trans (Nat.le_of_eq leaves.pointTime) paced.high⟩
  rcases moves with ⟨now,time,moves⟩ | untouched
  · cases moves with
    | same leaves active => exact same leaves active
    | begun idle => exact ⟨period.trans inv.dynamic,fun runs u last => absurd ⟨idle,runs⟩ (watch_last last).1⟩
  · exact same untouched.leaves fun runs => untouched.active.symm.trans runs

theorem watch_inv (w : Watch) (input : Input) (inv : Inv w) (allowed : Allowed w input) : Inv (watch sdk w input) := by
  by_cases other : ∀ env, input ≠ .trackTask env
  · exact inv.other other allowed
  · push Not at other
    obtain ⟨env,rfl⟩ := other
    exact inv.trackTask allowed

end Step

/-- Without a track, and with the dynamic period. -/
structure Waiting (s : State) : Prop where
  dynamic : s.server.p.period = tracerPeriodDynamic
  idle : tracerIsActive s.track = false

/-- In any run whose calls are steady, the points of a track are a second apart or more, and at most thirty seconds with what
the next call takes to come. -/
theorem points_spaced {s : State} (waiting : Waiting s) {inputs : List Input}
    (allowed : Run.Admits (watch sdk) Allowed ⟨s,none,0⟩ inputs) :
    ∀ before env rest, inputs = before ++ .trackTask env :: rest → Spaced (Run.run (watch sdk) ⟨s,none,0⟩ before) env := by
  rintro before env rest rfl
  have idle (active : tracerIsActive s.track = true) : False := Bool.noConfusion (waiting.idle.symm.trans active)
  have begins : Inv ⟨s,none,0⟩ := ⟨waiting.dynamic,fun active => (idle active).elim⟩
  obtain ⟨past,now,_⟩ := (Run.admits_append (watch sdk) Allowed _ before _).mp allowed
  exact (Run.run_invariant (watch sdk) Allowed Inv watch_inv _ before begins past).spaced now

end Dynamic

section Examples

def someEnv (now : Nat) (direction : Option Nat) : Env where
  now := now
  powerFail := false
  battery := false
  gpsFix := true
  gpsSpeed := 50
  stampAge := 0
  direction := direction
  roaming := false
  position := Vector.replicate 22 0
  positionValid := true
  ioTrack := false
  inputs := 0
  alloc := true
  written := true

/-- A track that is started with the period at the time 0. -/
def tracking (period : Nat) : State :=
  tracerStart 0 {statics erasedFlash with server := ⟨1,5013,{paramDefault with unitId := 1, period := period}⟩}

theorem period_kept_iff_minute :
    OnSchedule (someEnv 65000 none) (Run.run tick (tracking 60) [someEnv 4900 none,someEnv 5000 none]) :=
  (@period_kept_iff _ ⟨by decide,by decide⟩ [someEnv 4900 none,someEnv 5000 none,someEnv 65000 none] (by decide) (by decide +kernel)).mpr
    (by decide +kernel) _ _ [] rfl

/-- With a period of 100 s the next point is due after 34464 ms. -/
theorem period_truncated : (tick (tracking 100) (someEnv 5000 none)).track.pointTime = 5000 + 34464 ∧
    ¬ OnSchedule (someEnv 5000 none) (tracking 100) := by
  refine ⟨by decide +kernel,fun onSchedule => ?_⟩
  have next := onSchedule.next (by decide +kernel)
  revert next
  decide +kernel

def resting : State := {statics erasedFlash with server := ⟨1,5013,{paramDefault with unitId := 1, period := tracerPeriodDynamic}⟩}

theorem resting_waiting : Waiting resting := ⟨rfl,rfl⟩

def startAndPoint : List Input := [.start 0,.trackTask (someEnv 5000 none)]

theorem points_spaced_straight :
    Spaced (Run.run (watch plainSdk) ⟨resting,none,0⟩ startAndPoint) (someEnv 35100 none) := by
  have clock (now : Nat) (small : now + 60000 < 2 ^ 32) (latest : Nat) (later : latest ≤ now) :
      ∀ now' ∈ some now, latest ≤ now' ∧ now' + 60000 < 2 ^ 32 := by
    intro now' same
    obtain rfl := Option.some.inj same
    exact ⟨later,small⟩
  refine @points_spaced plainSdk _ resting_waiting (startAndPoint ++ [.trackTask (someEnv 35100 none)]) ?_ _ _ [] rfl
  refine ⟨⟨clock 0 (by decide) _ (by decide),trivial,trivial⟩,⟨clock 5000 (by decide) _ (by decide),trivial,fun _ => ?_⟩,
    ⟨clock 35100 (by decide) _ (by decide),trivial,fun _ => ?_⟩,trivial⟩
  · exact ⟨fun expired => absurd expired.1 (by decide +kernel),fun _ _ => by decide +kernel⟩
  · exact ⟨fun expired => absurd expired.1 (by decide +kernel),fun _ _ => by decide +kernel⟩

/-- After a call that is 29.5 s late the next point comes after half a second; and the end of a stop delay puts the last point
off beyond 30 s. -/
theorem points_not_spaced :
    ¬ Spaced (Run.run (watch plainSdk) ⟨resting,none,0⟩ (startAndPoint ++ [.trackTask (someEnv 64500 none)])) (someEnv 65000 none) ∧
    ¬ Spaced (Run.run (watch plainSdk) ⟨resting,none,0⟩ (startAndPoint ++ [.stop 14000,.trackTask (someEnv 34500 none)]))
      (someEnv 35200 none) := by
  constructor
  · intro spaced
    have apart := spaced.atLeast 64500 (by decide +kernel) (by decide +kernel)
    revert apart
    decide +kernel
  · intro spaced
    have stored := spaced.atMost 5000 (by decide +kernel) (by decide +kernel) (by decide +kernel)
    revert stored
    decide +kernel

end Examples

end JcaFirmware.TracerSchedule
