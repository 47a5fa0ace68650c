import JcaFirmware.TracerComm

/-! Starts and stops of a track. A stop leaves a timer or a request behind until
its delay is over and the last point is stored; a track that ends before leaves
them to the next one. -/
namespace JcaFirmware.TracerTrack
open Foundation TracerUpload TracerH02 Tracer
open TracerComm (plainSdk unitOne)
open TracerBuffer hiding State Input Inv step start
open TracerRecovery hiding Input Point step start

def step (sdk : Sdk) (s : State) (input : Input) : State := (input.apply sdk s).1

/-- Neither a stop timer nor a stop request is pending. -/
structure Quiet (t : Track) : Prop where
  timer : t.stopTmr = 0
  request : t.stopRq = false

/-- A track started by `tracer_start` and not asked to stop. -/
structure Fresh (t : Track) : Prop where
  active : t.active = true
  timer : t.stopTmr = 0
  request : t.stopRq = false
  external : t.externalStart = true

def Unstopped : Input → Prop
  | .stop _ => False
  | _ => True

/-- `tracer_start` begins a new track, which goes on until the next stop. -/
def Begins (sdk : Sdk) (s : State) : Prop :=
  ∀ now, tracerServerSetupOk s = true →
    (tracerStart now s).track.active = true ∧ (tracerStart now s).track.point = 0 ∧
    ∀ inputs, (∀ input ∈ inputs, Unstopped input) →
      tracerIsActive (Run.run (step sdk) (tracerStart now s) inputs).track = true

def Ready (sdk : Sdk) (s : State) : Prop :=
  tracerIsActive s.track = false → Quiet s.track ∧ Begins sdk s

/-- The stop of a track without a point, with a timer running. -/
def EndsEarly (t : Track) : Prop := tracerIsActive t = true ∧ t.point = 0 ∧ t.stopTmr ≠ 0

def shockStops (env : Env) (t : Track) : Prop :=
  t.externalStart = false ∧
    if tracerPowerStop env then t.shockTraceActive = true
    else t.shockStartTmr ≤ env.now ∧ t.shockStopRq = true ∧ env.gpsSpeed < 2

def pointDue (env : Env) (p : Param) (t : Track) : Prop :=
  t.pointTime ≤ env.now ∨ (p.period = tracerPeriodDynamic ∧ tracerDynamicPoint env t = true)

/-- The last point is stored while the timer of another stop is running. -/
def EndsTwice (env : Env) (p : Param) (t : Track) : Prop :=
  tracerIsActive t = true ∧ t.stopRq = true ∧ t.stopTmr ≠ 0 ∧ env.now ≤ t.stopTmr ∧ pointDue env p t ∧
    (env.powerFail = true → timer (env.now + tracerEndWaitPowerFail) ≠ 0)

/-- No track ends with a stop timer running. -/
def Clean (s : State) : Input → Prop
  | .stop _ => ¬ EndsEarly s.track
  | .shockTask env => shockStops env s.track → ¬ EndsEarly s.track
  | .trackTask env => ¬ EndsTwice env s.server.p s.track
  | _ => True

/-- A call that neither ends the track nor leaves anything of a stop to the next one. -/
structure Lasts (t t' : Track) : Prop where
  active : tracerIsActive t = true → tracerIsActive t' = true
  quiet : tracerIsActive t = false → Quiet t → tracerIsActive t' = false → Quiet t'
  fresh : Fresh t → Fresh t'

structure Alike (t t' : Track) : Prop where
  active : t'.active = t.active
  tracing : t'.ioTracing = t.ioTracing
  timer : t'.stopTmr = t.stopTmr
  request : t'.stopRq = t.stopRq
  external : t'.externalStart = t.externalStart

theorem Alike.lasts {t t' : Track} (alike : Alike t t') : Lasts t t' := by
  obtain ⟨active,tracing,timer,request,external⟩ := alike
  refine ⟨fun runs => ?_,fun _ quiet _ => ?_,fun fresh => ?_⟩
  · rw [tracerIsActive,active,tracing]
    exact runs
  · exact ⟨timer.trans quiet.timer,request.trans quiet.request⟩
  · exact ⟨active.trans fresh.active,timer.trans fresh.timer,request.trans fresh.request,external.trans fresh.external⟩

theorem Lasts.trans {t t' t'' : Track} (first : Lasts t t') (second : Lasts t' t'') : Lasts t t'' := by
  refine ⟨fun runs => second.active (first.active runs),fun idle quiet ended => ?_,
    fun fresh => second.fresh (first.fresh fresh)⟩
  cases between : tracerIsActive t' with
  | false => exact second.quiet between (first.quiet idle quiet between) ended
  | true => exact absurd ((second.active between).symm.trans ended) (by simp)

section Calls

variable (now : Nat) (env : Env) (s : State)

theorem fresh_active {t : Track} (fresh : Fresh t) : tracerIsActive t = true := by
  rw [tracerIsActive,fresh.active,Bool.true_or]

theorem tracerStartNow_lasts : Lasts s.track (tracerStartNow now s).2.track := by
  unfold tracerStartNow
  dsimp only
  split_ifs with stopping active setup unresolved
  · exact ⟨fun runs => runs,fun _ quiet => absurd quiet.timer stopping,fun fresh => absurd fresh.timer stopping⟩
  · exact ⟨fun runs => runs,fun idle => absurd (active.symm.trans idle) (by simp),
      fun fresh => ⟨fresh.active,fresh.timer,rfl,fresh.external⟩⟩
  · exact ⟨fun runs => runs,fun _ quiet _ => ⟨quiet.timer,rfl⟩,fun fresh => absurd (fresh_active fresh) active⟩
  · exact ⟨fun runs => runs,fun _ quiet _ => ⟨quiet.timer,rfl⟩,fun fresh => absurd (fresh_active fresh) active⟩
  · exact ⟨fun _ => rfl,fun _ quiet _ => ⟨quiet.timer,rfl⟩,fun fresh => absurd (fresh_active fresh) active⟩

theorem tracerStart_lasts : Lasts s.track (tracerStart now s).track := by
  have lasts := tracerStartNow_lasts now s
  unfold tracerStart
  dsimp only
  split_ifs
  · refine ⟨lasts.active,fun idle quiet ended => ?_,fun fresh => ?_⟩
    · have kept := lasts.quiet idle quiet ended
      exact ⟨kept.timer,kept.request⟩
    · have kept := lasts.fresh fresh
      exact ⟨kept.active,kept.timer,kept.request,rfl⟩
  · exact lasts

theorem tracerKeyStart_lasts : Lasts s.track (tracerKeyStart now s).track := by
  unfold tracerKeyStart
  split_ifs
  · exact Alike.lasts ⟨rfl,rfl,rfl,rfl,rfl⟩
  · exact tracerStart_lasts now s

theorem tracerStart_begins (idle : tracerIsActive s.track = false) (timer : s.track.stopTmr = 0)
    (setup : tracerServerSetupOk s = true) :
    Fresh (tracerStart now s).track ∧ (tracerStart now s).track.point = 0 := by
  have setup' : ¬ tracerServerSetupOk s = false := by simp [setup]
  have idle' : ¬ tracerIsActive {s.track with stopRq := false} = true := by
    rw [tracerIsActive] at idle ⊢
    simp [idle]
  unfold tracerStart tracerStartNow
  dsimp only
  rw [if_neg (not_not.mpr timer),if_neg idle',if_neg setup',if_pos rfl]
  exact ⟨⟨rfl,timer,rfl,rfl⟩,rfl⟩

theorem tracerTest_lasts : Lasts s.track (tracerTest now s).2.track := by
  unfold tracerTest
  split_ifs with active setup
  · exact Alike.lasts ⟨rfl,rfl,rfl,rfl,rfl⟩
  · exact Alike.lasts ⟨rfl,rfl,rfl,rfl,rfl⟩
  · have begins (quiet : Quiet s.track) := (tracerStart_begins now s (by simpa using active) quiet.timer
      (by simpa using setup)).1
    refine ⟨fun runs => absurd runs active,fun _ quiet ended => ?_,fun fresh => absurd (fresh_active fresh) active⟩
    exact absurd ((fresh_active (begins quiet)).symm.trans ended) (by simp)

theorem tracerShockStart_alike (state : Bool) : Alike s.track (tracerShockStart env state s).track := by
  unfold tracerShockStart
  dsimp only
  split_ifs <;> exact ⟨rfl,rfl,rfl,rfl,rfl⟩

theorem startPendingTask_lasts : Lasts s.track (startPendingTask env s).track := by
  unfold startPendingTask
  split_ifs
  · exact Alike.lasts ⟨rfl,rfl,rfl,rfl,rfl⟩
  · have alike : Alike s.track {s.track with startPending := false} := ⟨rfl,rfl,rfl,rfl,rfl⟩
    exact alike.lasts.trans (tracerStart_lasts env.now {s with track := {s.track with startPending := false}})
  · exact Alike.lasts ⟨rfl,rfl,rfl,rfl,rfl⟩
  · exact Alike.lasts ⟨rfl,rfl,rfl,rfl,rfl⟩

inductive Stops (t t' : Track) : Prop
  | ended (active : tracerIsActive t = true) (first : t.point = 0) (idle : tracerIsActive t' = false)
      (timer : t'.stopTmr = t.stopTmr) (request : t'.stopRq = false)
  | delayed (active : tracerIsActive t = true) (later : t.point ≠ 0) (active' : tracerIsActive t' = true)
  | idle (before : tracerIsActive t = false) (after : tracerIsActive t' = false) (timer : t'.stopTmr = t.stopTmr)
      (request : t'.stopRq = t.stopRq)

theorem tracerStopNow_stops : Stops s.track (tracerStopNow now s).track := by
  unfold tracerStopNow
  split_ifs with active first
  · exact .ended active first rfl rfl rfl
  · exact .delayed active first active
  · exact .idle (by simpa using active) (by simpa using active) rfl rfl

theorem tracerStop_stops : Stops s.track (tracerStop now s).track := by
  have stops := tracerStopNow_stops now {s with track := {s.track with startPending := false}}
  unfold tracerStop
  dsimp only
  cases stops with
  | ended active first idle timer request => exact .ended active first idle timer request
  | delayed active later active' => exact .delayed active later active'
  | idle before after timer request => exact .idle before after timer request

theorem tracerShockTask_cases :
    (¬ shockStops env s.track ∧ Lasts s.track (tracerShockTask env s).track) ∨
    (shockStops env s.track ∧ Stops s.track (tracerShockTask env s).track) := by
  have same : Alike s.track s.track := ⟨rfl,rfl,rfl,rfl,rfl⟩
  unfold tracerShockTask
  split_ifs with outside power traced early fast ending
  · exact Or.inl ⟨fun stops => absurd (outside.symm.trans stops.1) (by simp),same.lasts⟩
  · refine Or.inr ⟨⟨by simpa using outside,by rw [if_pos power]; exact traced⟩,?_⟩
    cases tracerStopNow_stops env.now {s with track := {s.track with shockTraceActive := false}} with
    | ended active first idle timer request => exact .ended active first idle timer request
    | delayed active later active' => exact .delayed active later active'
    | idle before after timer request => exact .idle before after timer request
  · refine Or.inl ⟨fun stops => traced ?_,same.lasts⟩
    have cause := stops.2
    rwa [if_pos power] at cause
  · refine Or.inl ⟨fun stops => ?_,?_⟩
    · have cause := stops.2
      rw [if_neg power] at cause
      exact absurd cause.1 (Nat.not_le.mpr early)
    · have alike : Alike s.track {s.track with shockStartTmr := 0, shockTraceActive := true} := ⟨rfl,rfl,rfl,rfl,rfl⟩
      exact alike.lasts.trans (tracerStartNow_lasts env.now
        {s with track := {s.track with shockStartTmr := 0, shockTraceActive := true}})
  · refine Or.inl ⟨fun stops => ?_,same.lasts⟩
    have cause := stops.2
    rw [if_neg power] at cause
    exact absurd cause.1 (Nat.not_le.mpr early)
  · refine Or.inr ⟨⟨by simpa using outside,?_⟩,?_⟩
    · rw [if_neg power]
      exact ⟨Nat.le_of_not_lt early,ending.1,ending.2⟩
    · cases tracerStopNow_stops env.now
        {s with track := {s.track with shockTraceActive := false, shockStopRq := false}} with
      | ended active first idle timer request => exact .ended active first idle timer request
      | delayed active later active' => exact .delayed active later active'
      | idle before after timer request => exact .idle before after timer request
  · refine Or.inl ⟨fun stops => ending ?_,same.lasts⟩
    have cause := stops.2
    rw [if_neg power] at cause
    exact ⟨cause.2.1,cause.2.2⟩

theorem fixTask_alike (t : Track) : Alike t (fixTask env t) ∧ (fixTask env t).pointTime = t.pointTime := by
  unfold fixTask
  dsimp only
  split_ifs <;> exact ⟨⟨rfl,rfl,rfl,rfl,rfl⟩,rfl⟩

/-- What the timers of a tick leave of a stop. -/
structure Timed (env : Env) (t t' : Track) : Prop where
  active : t'.active = t.active
  tracing : t'.ioTracing = t.ioTracing
  external : t'.externalStart = t.externalStart
  none : t.stopTmr = 0 → t'.stopTmr = 0 ∧ t'.stopRq = t.stopRq
  past : t.stopTmr < env.now → t'.stopTmr = 0
  running : t.stopTmr ≠ 0 → env.now ≤ t.stopTmr → t'.stopRq = t.stopRq ∧ t'.pointTime = t.pointTime ∧
    (t'.stopTmr ≠ 0 ↔ (env.powerFail = true → timer (env.now + tracerEndWaitPowerFail) ≠ 0))

theorem stopTimerTask_timed (t : Track) : Timed env t (stopTimerTask env t) := by
  unfold stopTimerTask
  by_cases stopped : t.stopTmr = 0
  · rw [if_pos stopped]
    exact ⟨rfl,rfl,rfl,fun _ => ⟨stopped,rfl⟩,fun _ => stopped,fun running => absurd stopped running⟩
  rw [if_neg stopped]
  dsimp only
  by_cases past : t.stopTmr < env.now
  · rw [if_pos past]
    dsimp only
    rw [if_neg fun quicker => Nat.not_lt_zero _ quicker.2]
    exact ⟨rfl,rfl,rfl,fun none => absurd none stopped,fun _ => rfl,fun _ early => absurd past (Nat.not_lt.mpr early)⟩
  rw [if_neg past]
  by_cases quicker : env.powerFail ∧ timer (env.now + tracerEndWaitPowerFail) < t.stopTmr
  · rw [if_pos quicker]
    refine ⟨rfl,rfl,rfl,fun none => absurd none stopped,fun late => absurd late past,fun _ _ => ⟨rfl,rfl,?_⟩⟩
    exact ⟨fun left _ => left,fun left => left quicker.1⟩
  · rw [if_neg quicker]
    refine ⟨rfl,rfl,rfl,fun none => absurd none stopped,fun late => absurd late past,fun _ _ => ⟨rfl,rfl,?_⟩⟩
    refine ⟨fun _ power zero => quicker ⟨power,?_⟩,fun _ => stopped⟩
    rw [zero]
    exact Nat.pos_of_ne_zero stopped

theorem timersTask_timed (p : Param) (t : Track) : ∃ t₀, Alike t t₀ ∧ t₀.point = t.point ∧
    (¬ env.now < t₀.pointTime ↔ pointDue env p t) ∧ Timed env t₀ (timersTask env p t) := by
  refine ⟨if p.period = tracerPeriodDynamic ∧ tracerDynamicPoint env t then {t with pointTime := env.now} else t,
    ?_,?_,?_,?_⟩
  · split_ifs <;> exact ⟨rfl,rfl,rfl,rfl,rfl⟩
  · split_ifs <;> rfl
  · unfold pointDue
    split_ifs with dynamic
    · exact iff_of_true (Nat.lt_irrefl _) (Or.inr dynamic)
    · rw [Nat.not_lt,or_iff_left dynamic]
  · unfold timersTask
    dsimp only
    generalize (if p.period = tracerPeriodDynamic ∧ tracerDynamicPoint env t = true then
      {t with pointTime := env.now} else t) = t₀
    have timed := stopTimerTask_timed env t₀
    obtain ⟨alike,point⟩ := fixTask_alike env (stopTimerTask env t₀)
    obtain ⟨active,tracing,timer,request,external⟩ := alike
    refine ⟨active.trans timed.active,tracing.trans timed.tracing,external.trans timed.external,?_,?_,?_⟩
    · rw [timer,request]
      exact timed.none
    · rw [timer]
      exact timed.past
    · rw [timer,request,point]
      exact timed.running

theorem scheduleTask_alike (p : Param) (t : Track) : Alike t (scheduleTask env p t) := by
  unfold scheduleTask
  dsimp only
  split_ifs <;> exact ⟨rfl,rfl,rfl,rfl,rfl⟩

theorem nextPoint_lasts (t : Track) : Lasts t (nextPoint t) ∧
    (nextPoint t).stopTmr = t.stopTmr ∧ (nextPoint t).stopRq = t.stopRq := by
  unfold nextPoint
  dsimp only
  split_ifs
  · refine ⟨⟨fun _ => ?_,fun _ quiet _ => ⟨quiet.timer,quiet.request⟩,fun fresh => ?_⟩,rfl,rfl⟩
    · rw [tracerIsActive,Bool.or_true]
    · exact ⟨fresh.active,fresh.timer,fresh.request,fresh.external⟩
  · exact ⟨Alike.lasts ⟨rfl,rfl,rfl,rfl,rfl⟩,rfl,rfl⟩

/-- A due point ends the track when a stop has been requested. -/
theorem pointTask_cases :
    (s.track.stopRq = true ∧ tracerIsActive (pointTask env s).track = false ∧ (pointTask env s).track.stopRq = false ∧
      (pointTask env s).track.stopTmr = s.track.stopTmr) ∨
    (s.track.stopRq = false ∧ Lasts s.track (pointTask env s).track) := by
  have scheduled := scheduleTask_alike env s.server.p s.track
  obtain ⟨lasts,timer,request⟩ := nextPoint_lasts (scheduleTask env s.server.p s.track)
  have track : (tracerNewPoint env {s with track := scheduleTask env s.server.p s.track}).track =
    nextPoint (scheduleTask env s.server.p s.track) := rfl
  have lasts := scheduled.lasts.trans lasts
  rw [scheduled.timer] at timer
  rw [scheduled.request] at request
  unfold pointTask
  dsimp only
  rw [track]
  generalize nextPoint (scheduleTask env s.server.p s.track) = t at lasts timer request
  have alike : Alike t {t with pointLast := env.now} := ⟨rfl,rfl,rfl,rfl,rfl⟩
  split_ifs with asked
  · exact Or.inl ⟨request.symm.trans asked,rfl,rfl,timer⟩
  · exact Or.inr ⟨request.symm.trans (Bool.not_eq_true _ ▸ asked),lasts.trans alike.lasts⟩

theorem Timed.fresh {env : Env} {t t' : Track} (timed : Timed env t t') (fresh : Fresh t) : Fresh t' := by
  obtain ⟨timer,request⟩ := timed.none fresh.timer
  exact ⟨timed.active.trans fresh.active,timer,request.trans fresh.request,timed.external.trans fresh.external⟩

/-- What a tick does to a running track: it ends it with a timer running, or leaves nothing. -/
inductive Ticks (env : Env) (p : Param) (t t' : Track) : Prop
  | cut (twice : EndsTwice env p t) (idle : tracerIsActive t' = false) (timer : t'.stopTmr ≠ 0)
  | clean (once : ¬ EndsTwice env p t) (quiet : tracerIsActive t' = false → Quiet t') (fresh : Fresh t → Fresh t')

/-- After the timers of a tick the last point is due, with a timer still running. -/
theorem timersTask_ends (p : Param) {t : Track} (active : tracerIsActive t = true) :
    EndsTwice env p t ↔ (timersTask env p t).stopRq = true ∧ ¬ env.now < (timersTask env p t).pointTime ∧
      (timersTask env p t).stopTmr ≠ 0 := by
  obtain ⟨t₀,alike,_,due,timed⟩ := timersTask_timed env p t
  have start := alike.timer
  constructor
  · rintro ⟨_,asked,running,early,dueNow,power⟩
    rw [← start] at running early
    obtain ⟨request,point,left⟩ := timed.running running early
    rw [point]
    exact ⟨request.trans (alike.request.trans asked),due.mpr dueNow,left.mpr power⟩
  · rintro ⟨asked,reached,left⟩
    have running : t₀.stopTmr ≠ 0 := fun none => left (timed.none none).1
    have early : env.now ≤ t₀.stopTmr := Nat.le_of_not_lt fun past => left (timed.past past)
    obtain ⟨request,point,power⟩ := timed.running running early
    rw [point] at reached
    rw [start] at running early
    exact ⟨active,(alike.request.symm.trans request.symm).trans asked,running,early,due.mp reached,power.mp left⟩

theorem timersTask_lasts (p : Param) (t : Track) :
    (tracerIsActive t = true → tracerIsActive (timersTask env p t) = true) ∧ (Fresh t → Fresh (timersTask env p t)) := by
  obtain ⟨t₀,alike,_,_,timed⟩ := timersTask_timed env p t
  refine ⟨fun active => ?_,fun fresh => timed.fresh (alike.lasts.fresh fresh)⟩
  rw [tracerIsActive,timed.active,timed.tracing,alike.active,alike.tracing]
  exact active

theorem trackTask_active (active : tracerIsActive s.track = true) :
    trackTask env s = if env.now < (timersTask env s.server.p s.track).pointTime then
      {s with track := timersTask env s.server.p s.track}
    else pointTask env {s with track := timersTask env s.server.p s.track} := by
  rw [trackTask,if_neg (by rw [active]; simp)]

theorem trackTask_ticks (active : tracerIsActive s.track = true) :
    Ticks env s.server.p s.track (trackTask env s).track := by
  obtain ⟨runs,fresh'⟩ := timersTask_lasts env s.server.p s.track
  have ends := timersTask_ends env s.server.p active
  have still := runs active
  have due := pointTask_cases env {s with track := timersTask env s.server.p s.track}
  rw [trackTask_active env s active]
  generalize pointTask env {s with track := timersTask env s.server.p s.track} = s' at due ⊢
  dsimp only at due
  generalize timersTask env s.server.p s.track = t₁ at still fresh' ends due ⊢
  split_ifs with early
  · exact .clean (fun twice => (ends.mp twice).2.1 early) (fun idle => absurd (still.symm.trans idle) (by simp)) fresh'
  · rcases due with ⟨asked,idle,request,timer⟩ | ⟨unasked,lasts⟩
    · by_cases left : t₁.stopTmr = 0
      · refine .clean (fun twice => (ends.mp twice).2.2 left) (fun _ => ⟨timer.trans left,request⟩) fun fresh => ?_
        exact absurd (asked.symm.trans (fresh' fresh).request) (by simp)
      · exact .cut (ends.mpr ⟨asked,early,left⟩) idle (timer.trans_ne left)
    · refine .clean (fun twice => ?_) (fun idle => ?_) fun fresh => lasts.fresh (fresh' fresh)
      · exact absurd ((ends.mp twice).1.symm.trans unasked) (by simp)
      · exact absurd ((lasts.active still).symm.trans idle) (by simp)

theorem trackTask_idle (idle : tracerIsActive s.track = false) : trackTask env s = s := by
  rw [trackTask,if_pos idle]

end Calls

section Upload

variable (sdk : Sdk) (env : CommEnv) (s : State)

theorem Alike.refl (t : Track) : Alike t t := ⟨rfl,rfl,rfl,rfl,rfl⟩

theorem tracerServerReinit_track (unitId : Nat) : (tracerServerReinit unitId s).track = s.track := by
  rw [tracerServerReinit]

theorem tracerReinit_alike (cfg : Config) : Alike s.track (tracerReinit cfg s).track := by
  unfold tracerReinit
  dsimp only
  rw [tracerServerReinit_track]
  exact ⟨rfl,rfl,rfl,rfl,rfl⟩

theorem tracerSetId_alike (id : Nat) (saved : Bool) : Alike s.track (tracerSetId id saved s).2.track := by
  unfold tracerSetId
  dsimp only
  split_ifs
  · exact .refl s.track
  · exact .refl s.track
  · rw [tracerServerReinit_track]
    exact .refl s.track

theorem tracerSetTrackId_alike (id : UInt16) (now : Nat) : Alike s.track (tracerSetTrackId id now s).track := by
  rw [tracerSetTrackId]
  exact .refl s.track

theorem tracerPacketRx_alike (data : List UInt8) (port : Nat) :
    Alike s.track (tracerPacketRx sdk data port s).2.track := by
  unfold tracerPacketRx
  split_ifs <;> exact .refl s.track

-- Stated once for any `comm`: in place the kernel would compare the timers in it.
theorem Alike.comm {α : Type} (s : State) (c : Comm) (out : α) : Alike s.track ({s with comm := c},out).1.track :=
  ⟨rfl,rfl,rfl,rfl,rfl⟩

theorem commProcess_alike : Alike s.track (commProcess sdk env s).1.track := by
  unfold commProcess
  dsimp only
  by_cases early : env.now < s.comm.sleepTmr
  · rw [if_pos early]
    exact .refl s.track
  rw [if_neg early]
  by_cases reset : s.comm.newTrackIdSet ≠ 0 ∧ tracerIsActive s.track = false
  · rw [if_pos reset]
    exact ⟨rfl,rfl,rfl,rfl,rfl⟩
  rw [if_neg reset]
  generalize resolved : (if tracerServerSetupOk s = false ∧ s.server.ip = 0 ∧ s.server.port ≠ 0 ∧ env.connected then
    {s with server := s.server.resolve env.cfg.target} else s) = s'
  have track : s'.track = s.track := by
    rw [← resolved]
    split <;> rfl
  rw [← track]
  split_ifs
  · exact .comm s' _ _
  · exact .comm s' _ _
  · exact .comm s' _ _
  · exact .comm s' _ _
  · exact .comm s' _ _
  · split <;> exact .comm s' _ _

theorem commConnected_alike : Alike s.track (commConnected env s).1.track := by
  unfold commConnected
  dsimp only
  split_ifs
  · exact .refl s.track
  · exact tracerReinit_alike s env.cfg
  · exact .refl s.track
  · exact .refl s.track

theorem commWake_alike (t : Nat) : Alike s.track (commWake env t s).track := by
  unfold commWake
  split_ifs <;> exact .refl s.track

theorem commStep_alike : Alike s.track (commStep sdk env s).1.track := by
  unfold commStep
  cases s.comm.phase with
  | idle => exact commProcess_alike sdk env s
  | connecting => exact commConnected_alike env s
  | waiting t => exact commWake_alike env s t

end Upload

section Life

variable (sdk : Sdk)

/-- Between tracks nothing of a stop is pending. -/
def Inv (s : State) : Prop := tracerIsActive s.track = false → Quiet s.track

theorem Lasts.inv {s s' : State} (lasts : Lasts s.track s'.track) (inv : Inv s) : Inv s' := by
  intro idle
  cases before : tracerIsActive s.track with
  | false => exact lasts.quiet before (inv before) idle
  | true => exact absurd ((lasts.active before).symm.trans idle) (by simp)

theorem Stops.inv {s s' : State} (stops : Stops s.track s'.track) (inv : Inv s) (late : ¬ EndsEarly s.track) :
    Inv s' := by
  intro idle
  cases stops with
  | ended active first _ timer request =>
    have past : s.track.stopTmr = 0 := by
      by_contra running
      exact late ⟨active,first,running⟩
    exact ⟨timer.trans past,request⟩
  | delayed _ _ active => exact absurd (active.symm.trans idle) (by simp)
  | idle before _ timer request => exact ⟨timer.trans (inv before).timer,request.trans (inv before).request⟩

theorem Stops.early {t t' : Track} (stops : Stops t t') (early : EndsEarly t) :
    tracerIsActive t' = false ∧ t'.stopTmr ≠ 0 := by
  obtain ⟨runs,first,running⟩ := early
  cases stops with
  | ended _ _ idle timer _ => exact ⟨idle,timer.trans_ne running⟩
  | delayed _ later _ => exact absurd first later
  | idle before _ _ _ => exact absurd (runs.symm.trans before) (by simp)

def Plain : Input → Prop
  | .stop _ => False
  | .shockTask _ => False
  | .trackTask _ => False
  | _ => True

theorem step_lasts (s : State) {input : Input} (plain : Plain input) : Lasts s.track (step sdk s input).track := by
  cases input with
  | start now => exact tracerStart_lasts now s
  | keyStart now => exact tracerKeyStart_lasts now s
  | stop now => exact plain.elim
  | test now => exact tracerTest_lasts now s
  | shockStart env state => exact (tracerShockStart_alike env s state).lasts
  | shockTask env => exact plain.elim
  | startPendingTask env => exact startPendingTask_lasts env s
  | trackTask env => exact plain.elim
  | reinit cfg => exact (tracerReinit_alike s cfg).lasts
  | setId id saved => exact (tracerSetId_alike s id saved).lasts
  | setTrackId id now => exact (tracerSetTrackId_alike s id now).lasts
  | packetRx data port => exact (tracerPacketRx_alike sdk s data port).lasts
  | comm env => exact (commStep_alike sdk env s).lasts

theorem step_inv (s : State) (input : Input) (inv : Inv s) (clean : Clean s input) : Inv (step sdk s input) := by
  cases input with
  | stop now => exact (tracerStop_stops now s).inv inv clean
  | shockTask env =>
    rcases tracerShockTask_cases env s with ⟨_,lasts⟩ | ⟨stopped,stops⟩
    · exact lasts.inv inv
    · exact stops.inv inv (clean stopped)
  | trackTask env =>
    cases active : tracerIsActive s.track with
    | false =>
      have same : step sdk s (.trackTask env) = s := trackTask_idle env s active
      rw [same]
      exact inv
    | true =>
      cases trackTask_ticks env s active with
      | cut twice _ _ => exact absurd twice clean
      | clean _ quiet _ => exact quiet
  | _ =>
    apply Lasts.inv _ inv
    apply step_lasts
    trivial

/-- A stop out of turn leaves its timer, or that of another one, to the next track. -/
theorem step_unready (s : State) (input : Input) (unclean : ¬ Clean s input) : ¬ Ready sdk (step sdk s input) := by
  have left {s' : State} (idle : tracerIsActive s'.track = false) (running : s'.track.stopTmr ≠ 0) : ¬ Ready sdk s' :=
    fun ready => running (ready idle).1.timer
  cases input with
  | stop now =>
    obtain ⟨idle,running⟩ := (tracerStop_stops now s).early (not_not.mp unclean)
    exact left idle running
  | shockTask env =>
    obtain ⟨stopped,early⟩ := Classical.not_imp.mp unclean
    rcases tracerShockTask_cases env s with ⟨unstopped,_⟩ | ⟨_,stops⟩
    · exact absurd stopped unstopped
    · obtain ⟨idle,running⟩ := stops.early (not_not.mp early)
      exact left idle running
  | trackTask env =>
    have twice : EndsTwice env s.server.p s.track := not_not.mp unclean
    cases trackTask_ticks env s twice.1 with
    | cut _ idle running => exact left idle running
    | clean once _ _ => exact absurd twice once
  | _ => exact absurd trivial unclean

theorem step_fresh (s : State) (input : Input) (fresh : Fresh s.track) (unstopped : Unstopped input) :
    Fresh (step sdk s input).track := by
  cases input with
  | stop now => exact unstopped.elim
  | shockTask env =>
    rcases tracerShockTask_cases env s with ⟨_,lasts⟩ | ⟨stopped,_⟩
    · exact lasts.fresh fresh
    · exact absurd (fresh.external.symm.trans stopped.1) (by simp)
  | trackTask env =>
    cases trackTask_ticks env s (fresh_active fresh) with
    | cut twice _ _ => exact absurd fresh.timer twice.2.2.1
    | clean _ _ kept => exact kept fresh
  | _ =>
    apply Lasts.fresh _ fresh
    apply step_lasts
    trivial

theorem Inv.ready {s : State} (inv : Inv s) : Ready sdk s := by
  intro idle
  refine ⟨inv idle,fun now setup => ?_⟩
  obtain ⟨fresh,first⟩ := tracerStart_begins now s idle (inv idle).timer setup
  refine ⟨fresh.active,first,fun inputs unstopped => fresh_active ?_⟩
  exact Run.run_invariant (step sdk) (fun _ input => Unstopped input) (fun s => Fresh s.track) (step_fresh sdk) _
    inputs fresh (Run.admits_of_forall (step sdk) _ _ inputs fun _ input member => unstopped input member)

def booted (cfg : Config) (alloc : Bool) (readable : Nat → Bool) (flash : Nat → TracerBuf) : State :=
  (tracerInit cfg alloc readable (statics flash)).2

theorem booted_inv (cfg : Config) (alloc : Bool) (readable : Nat → Bool) (flash : Nat → TracerBuf) :
    Inv (booted cfg alloc readable flash) := by
  have alike := tracerReinit_alike (statics flash) cfg
  intro _
  unfold booted tracerInit
  dsimp only
  split_ifs
  · exact ⟨alike.timer,alike.request⟩
  · exact ⟨alike.timer,alike.request⟩

/-- All along a run every start begins a track exactly when no track of the run
ends with a stop timer running. -/
theorem run_ready_iff (cfg : Config) (alloc : Bool) (readable : Nat → Bool) (flash : Nat → TracerBuf)
    (inputs : List Input) :
    (∀ first rest, inputs = first ++ rest →
      Ready sdk (Run.run (step sdk) (booted cfg alloc readable flash) first)) ↔
      Run.Admits (step sdk) Clean (booted cfg alloc readable flash) inputs :=
  Run.always_iff_admits (step sdk) Clean Inv (Ready sdk) (fun _ inv => inv.ready sdk) (step_inv sdk)
    (fun s input _ unclean => step_unready sdk s input unclean) _ inputs (booted_inv cfg alloc readable flash)

end Life

def bootedOne : State := booted unitOne true (fun _ => true) erasedFlash

/-- A test track stopped before its first point. -/
def testThenStop : State := Run.run (step plainSdk) bootedOne [.test 1000,.stop 2000]

/-- The end of the test track remains as a stop timer, and takes the next start. -/
theorem testThenStop_lost : ¬ Ready plainSdk testThenStop ∧ tracerServerSetupOk testThenStop = true ∧
    tracerIsActive (tracerStart 3000 testThenStop).track = false := by
  refine ⟨fun ready => ?_,by decide +kernel,by decide +kernel⟩
  have idle : tracerIsActive testThenStop.track = false := by decide +kernel
  have running : testThenStop.track.stopTmr = 211000 := by decide +kernel
  exact absurd (running.symm.trans (ready idle).1.timer) (by simp)

end JcaFirmware.TracerTrack
