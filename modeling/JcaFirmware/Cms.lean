import JcaFirmware.EventBufRun

/-! The central-station client (`app/cms/cms_main.c`): events wait in an event
buffer and are sent one at a time through a protocol (`cms_proto.h`). The
protocol is a parameter with its own state; what the environment decides in a
call (clock, connection, the uninitialised locals) is an input of it. -/
namespace JcaFirmware.Cms
open EventBuf Foundation

inductive Reply | none | ack | nak
deriving DecidableEq, Repr

structure Proto (π : Type) where
  reinit : π → Nat → π
  newEvent : π → Event → π × Bool
  packetReady : π → Bool
  getPacket : π → List UInt8
  packetDone : π → π
  packetReply : π → List UInt8 → π × Reply

def cmsBufSize : Nat := 32
def cmsRetryDefault : Nat := 5
def osTimerSecond : Nat := 1000
def cmsWaitTmout : Nat := 10 * osTimerSecond

/-- `cms_t` and the other variables of the module. -/
structure State (π : Type) where
  serverIp : Nat
  serverPort : Nat
  account : Nat
  waitTmr : Nat
  retry : Nat
  waiting : Bool
  resolveTmr : Nat
  buf : Buf
  packet : List UInt8
  proto : π

/-- What `cms_reinit` gets from the configuration: the target, if the item could
be read, and the port within it, if it could be parsed; and the account. -/
structure Config where
  target : Option (Nat × Option Nat)
  account : Option Nat

/-- What one call of `cms_main_process` meets outside of the module. -/
structure Env where
  now : Nat
  connected : Option Config
  sent : Bool
  event : Event
  user : Nat

variable {π : Type}

def configured (c : State π) : Bool := c.serverIp ≠ 0 && c.serverPort ≠ 0

def cmsReinit (p : Proto π) (cfg : Config) (c : State π) : Bool × State π :=
  let c := match cfg.target with
    | some (ip,port) => {c with serverIp := ip, serverPort := port.getD c.serverPort}
    | none => c
  let c := match cfg.account with
    | some account => {c with account := account}
    | none => c
  let c := {c with proto := p.reinit c.proto c.account}
  (configured c,c)

def cmsInit (p : Proto π) (items : Nat → Item) (cfg : Config) (c : State π) : Bool × State π :=
  cmsReinit p cfg {c with buf := init items cmsBufSize, waiting := false, retry := 0}

def cmsNewEvent (c : State π) (event : Option Event) : Except Fault (Bool × State π) :=
  if configured c = false then .ok (false,c)
  else do
    let (stored,buf) ← addEvent c.buf event prioStd userNone
    .ok (stored,{c with buf := buf})

def cmsFail (p : Proto π) (c : State π) : Except Fault (State π) := do
  let buf ← doneEvents c.buf false
  .ok {c with buf := buf, proto := p.packetDone c.proto, waiting := false, retry := 0}

def cmsUdpRx (p : Proto π) (data : List UInt8) (port : Nat) (c : State π) : Except Fault (Bool × State π) :=
  if port ≠ c.serverPort then .ok (false,c)
  else
    let (proto,reply) := p.packetReply c.proto data
    let c := {c with proto := proto}
    if reply = .none then .ok (false,c)
    else if c.waiting = false then .ok (true,c)
    else if reply = .nak then do
      let c ← cmsFail p c
      .ok (true,c)
    else do
      let buf ← doneEvents c.buf true
      .ok (true,{c with buf := buf, proto := p.packetDone c.proto, waiting := false, retry := 0})

-- The packet handed to the network stands beside the new state.
def cmsSend (p : Proto π) (env : Env) (c : State π) : State π × Option (List UInt8) :=
  let c := {c with packet := p.getPacket c.proto}
  if env.sent = false then (c,some c.packet)
  else ({c with waiting := true, waitTmr := (env.now + cmsWaitTmout) % 2 ^ 32},some c.packet)

def cmsMainProcess (p : Proto π) (env : Env) (c : State π) : Except Fault (State π × Option (List UInt8)) :=
  if configured c = false then
    if c.serverPort ≠ 0 ∧ c.resolveTmr ≤ env.now then
      let c := {c with resolveTmr := (env.now + 60 * osTimerSecond) % 2 ^ 32}
      match env.connected with
      | some cfg => .ok ((cmsReinit p cfg c).2,none)
      | none => .ok (c,none)
    else .ok (c,none)
  else if c.waiting then
    if env.now < c.waitTmr then .ok (c,none)
    else if c.retry < cmsRetryDefault then
      .ok ({c with retry := c.retry + 1, waitTmr := (env.now + cmsWaitTmout) % 2 ^ 32},some c.packet)
    else do
      let c ← cmsFail p c
      .ok (c,none)
  else if p.packetReady c.proto then .ok (cmsSend p env c)
  else do
    let (found,q,buf) ← getEvent c.buf (some env.event) (some env.user) none
    let c := {c with buf := buf}
    if found = false then .ok (c,none)
    else
      let (proto,reportable) := p.newEvent c.proto (q.event.getD env.event)
      let c := {c with proto := proto}
      if reportable = false then do
        let buf ← doneEvents c.buf false
        .ok ({c with buf := buf},none)
      else .ok (cmsSend p env c)

def Pending (b : Buf) (event : Event) : Prop := ∃ r ∈ records b, r.event = event ∧ r.status = .pending

/-- `cms_main_process` can get the event out of the buffer, with its next call of
`event_buf_get_event` or after it is done with what it gets before. -/
inductive Takeable (event : Event) : Buf → Prop
  | next {b b' : Buf} {q : Request} (start : Event) (user : Nat)
      (taken : getEvent b (some start) (some user) none = .ok (true,q,b')) (this : q.event = some event) :
      Takeable event b
  | later {b b' b'' : Buf} {q : Request} (start : Event) (user : Nat) (delivered : Bool)
      (taken : getEvent b (some start) (some user) none = .ok (true,q,b'))
      (finished : doneEvents b' delivered = .ok b'') (rest : Takeable event b'') : Takeable event b

def pendingEvents (rs : List Record) : List Event :=
  (rs.filter fun r => r.status = .pending).map fun r => r.event

theorem pending_iff (b : Buf) (event : Event) : Pending b event ↔ event ∈ pendingEvents (records b) := by
  simp only [Pending,pendingEvents,List.mem_map,List.mem_filter,decide_eq_true_eq]
  constructor
  · rintro ⟨r,member,same,pending⟩
    exact ⟨r,⟨member,pending⟩,same⟩
  · rintro ⟨r,⟨member,pending⟩,same⟩
    exact ⟨r,member,same,pending⟩

theorem pendingEvents_done (delivered : Bool) (rs : List Record) :
    pendingEvents (rs.filterMap (doneRecord delivered)) = pendingEvents rs := by
  induction rs with
  | nil => rfl
  | cons r rs ih =>
    unfold pendingEvents at ih ⊢
    by_cases sent : r.status = .processing
    · cases delivered <;> simp [doneRecord,sent,ih]
    · by_cases pending : r.status = .pending <;> simp [doneRecord,sent,pending,ih]

theorem pendingEvents_gets {old new : List Record} {q q' : Request} {result : Bool} {e : Event} {es : List Event}
    (gets : Gets old new q q' result) (any : q.user = userNone) (asked : q.event.isSome)
    (waiting : pendingEvents old = e :: es) :
    result = true ∧ q'.event = some e ∧ pendingEvents new = es := by
  have skipped {rs : List Record} (idle : ∀ r ∈ rs, ¬ Wanted q.user r) : pendingEvents rs = [] := by
    have none : rs.filter (fun r => r.status = .pending) = [] :=
      List.filter_eq_nil_iff.mpr fun r member pending => idle r member ⟨of_decide_eq_true pending,Or.inl any⟩
    rw [pendingEvents,none,List.map_nil]
  rcases gets with ⟨yes,pre,r,post,rfl,⟨pending,_⟩,before,rfl,rfl⟩ | ⟨_,idle,_⟩
  · have first := skipped before
    unfold pendingEvents at first waiting ⊢
    rw [List.filter_append,List.map_append,first,List.nil_append,List.filter_cons_of_pos (by simpa using pending),
      List.map_cons] at waiting
    obtain ⟨head,tail⟩ := List.cons.inj waiting
    refine ⟨yes,?_,?_⟩
    · obtain ⟨start,given⟩ := Option.isSome_iff_exists.mp asked
      rw [Request.report,given,← head]
      rfl
    · rw [List.filter_append,List.map_append,first,List.nil_append,List.filter_cons_of_neg (by simp),tail]
  · rw [skipped idle] at waiting
    exact absurd waiting (by simp)

theorem pending_takeable (event : Event) (queue : List Event) : ∀ b, Sound b →
    pendingEvents (records b) = queue → event ∈ queue → Takeable event b := by
  induction queue with
  | nil => exact fun b _ _ member => absurd member List.not_mem_nil
  | cons e es ih =>
    intro b sound waiting member
    obtain ⟨result,q,b₁,taken,sound₁,gets⟩ := getEvent_spec sound (some Event.erased) userNone none
    obtain ⟨rfl,this,left⟩ := pendingEvents_gets gets rfl rfl waiting
    rcases List.mem_cons.mp member with rfl | later
    · exact .next Event.erased userNone taken this
    · obtain ⟨b₂,finished,sound₂,same⟩ := doneEvents_spec sound₁ true
      have left₂ : pendingEvents (records b₂) = es := by rw [same,pendingEvents_done,left]
      exact .later Event.erased userNone true taken finished (ih b₂ sound₂ left₂ later)

/-- The outcome asked of `cms_new_event`: the event waits, and will be found. -/
def Reported (c : State π) (event : Event) : Prop :=
  ∃ result c', cmsNewEvent c (some event) = .ok (result,c') ∧ Pending c'.buf event ∧ Takeable event c'.buf

-- The buffer takes no record without a user, and `cms_new_event` gives it none.
theorem cmsNewEvent_refuses (c : State π) (event : Option Event) : cmsNewEvent c event = .ok (false,c) := by
  have refused : addEvent c.buf event prioStd userNone = .ok (false,c.buf) := by
    cases event with
    | none => rfl
    | some event => rw [addEvent,if_pos rfl]
  unfold cmsNewEvent
  split
  · rfl
  · rw [refused,ok_bind]

/-- An event is reported exactly when a record of it was waiting before the call. -/
theorem reported_iff (c : State π) (event : Event) (sound : Sound c.buf) :
    Reported c event ↔ Pending c.buf event := by
  constructor
  · rintro ⟨result,c',ran,pending,_⟩
    rw [cmsNewEvent_refuses] at ran
    cases ran
    exact pending
  · intro pending
    refine ⟨false,c,cmsNewEvent_refuses c _,pending,?_⟩
    exact pending_takeable event _ c.buf sound rfl ((pending_iff c.buf event).mp pending)

inductive Call
  | reinit (cfg : Config)
  | newEvent (event : Option Event)
  | udpRx (data : List UInt8) (port : Nat)
  | mainProcess (env : Env)

def Call.apply (p : Proto π) (c : State π) : Call → Except Fault (State π)
  | .reinit cfg => .ok (cmsReinit p cfg c).2
  | .newEvent event => do
    let (_,c) ← cmsNewEvent c event
    .ok c
  | .udpRx data port => do
    let (_,c) ← cmsUdpRx p data port c
    .ok c
  | .mainProcess env => do
    let (c,_) ← cmsMainProcess p env c
    .ok c

structure Idle (b : Buf) : Prop where
  sound : Sound b
  none : records b = []

theorem cmsReinit_buf (p : Proto π) (cfg : Config) (c : State π) : (cmsReinit p cfg c).2.buf = c.buf := by
  unfold cmsReinit
  cases cfg.target <;> cases cfg.account <;> rfl

theorem Idle.done {b : Buf} (idle : Idle b) (delivered : Bool) :
    ∃ b', doneEvents b delivered = .ok b' ∧ Idle b' := by
  obtain ⟨b',ran,after,same⟩ := doneEvents_spec idle.sound delivered
  exact ⟨b',ran,after,by rw [same,idle.none,List.filterMap_nil]⟩

theorem Idle.get {b : Buf} (idle : Idle b) (event : Option Event) (user : Nat) (prio : Option Nat) :
    ∃ q b', getEvent b event (some user) prio = .ok (false,q,b') ∧ Idle b' := by
  obtain ⟨result,q,b',ran,after,gets⟩ := getEvent_spec idle.sound event user prio
  rw [idle.none] at gets
  rcases gets with ⟨_,pre,r,post,split,_⟩ | ⟨rfl,_,same⟩
  · exact absurd split (by simp)
  · exact ⟨q,b',ran,after,same⟩

theorem cmsFail_idle (p : Proto π) {c : State π} (idle : Idle c.buf) :
    ∃ c', cmsFail p c = .ok c' ∧ Idle c'.buf := by
  obtain ⟨b,ran,after⟩ := idle.done false
  refine ⟨{c with buf := b, proto := p.packetDone c.proto, waiting := false, retry := 0},?_,?_⟩
  · rw [cmsFail,ran,ok_bind]
  · exact after

theorem cmsUdpRx_idle (p : Proto π) (data : List UInt8) (port : Nat) {c : State π} (idle : Idle c.buf) :
    ∃ handled c', cmsUdpRx p data port c = .ok (handled,c') ∧ Idle c'.buf := by
  unfold cmsUdpRx
  split_ifs with foreign
  · exact ⟨false,c,rfl,idle⟩
  · let answered := {c with proto := (p.packetReply c.proto data).1}
    dsimp only
    split_ifs
    · exact ⟨false,answered,rfl,idle⟩
    · exact ⟨true,answered,rfl,idle⟩
    · obtain ⟨c',ran,after⟩ := cmsFail_idle p (c := answered) idle
      exact ⟨true,c',by rw [ran,ok_bind],after⟩
    · obtain ⟨b,ran,after⟩ := idle.done true
      refine ⟨true,{answered with buf := b, proto := p.packetDone answered.proto, waiting := false, retry := 0},
        ?_,?_⟩
      · rw [ran,ok_bind]
      · exact after

theorem cmsMainProcess_idle (p : Proto π) (env : Env) {c : State π} (idle : Idle c.buf) :
    ∃ c' sent, cmsMainProcess p env c = .ok (c',sent) ∧ Idle c'.buf := by
  have sends : Idle (cmsSend p env c).1.buf := by
    unfold cmsSend
    dsimp only
    split_ifs <;> exact idle
  unfold cmsMainProcess
  split_ifs
  · cases env.connected with
    | some cfg =>
      refine ⟨_,none,rfl,?_⟩
      rw [cmsReinit_buf]
      exact idle
    | none =>
      refine ⟨_,none,rfl,?_⟩
      exact idle
  · exact ⟨c,none,rfl,idle⟩
  · exact ⟨c,none,rfl,idle⟩
  · refine ⟨_,some c.packet,rfl,?_⟩
    exact idle
  · obtain ⟨c',ran,after⟩ := cmsFail_idle p idle
    exact ⟨c',none,by rw [ran,ok_bind],after⟩
  · exact ⟨_,_,rfl,sends⟩
  · obtain ⟨q,b,ran,after⟩ := idle.get (some env.event) env.user none
    refine ⟨{c with buf := b},none,?_,?_⟩
    · rw [ran,ok_bind]
      rfl
    · exact after

theorem call_idle (p : Proto π) {c : State π} (idle : Idle c.buf) (call : Call) :
    ∃ c', call.apply p c = .ok c' ∧ Idle c'.buf := by
  cases call with
  | reinit cfg =>
    refine ⟨_,rfl,?_⟩
    rw [cmsReinit_buf]
    exact idle
  | newEvent event => exact ⟨c,by rw [Call.apply,cmsNewEvent_refuses,ok_bind],idle⟩
  | udpRx data port =>
    obtain ⟨_,c',ran,after⟩ := cmsUdpRx_idle p data port idle
    exact ⟨c',by rw [Call.apply,ran,ok_bind],after⟩
  | mainProcess env =>
    obtain ⟨c',_,ran,after⟩ := cmsMainProcess_idle p env idle
    exact ⟨c',by rw [Call.apply,ran,ok_bind],after⟩

theorem Idle.unreported {c : State π} (idle : Idle c.buf) (event : Event) : ¬ Reported c event := by
  rintro ⟨_,c',added,⟨r,member,_⟩,_⟩
  rw [cmsNewEvent_refuses] at added
  cases added
  rw [idle.none] at member
  exact List.not_mem_nil member

theorem cmsInit_idle (p : Proto π) (items : Nat → Item) (cfg : Config) (c : State π) :
    Idle (cmsInit p items cfg c).2.buf := by
  rw [cmsInit,cmsReinit_buf]
  obtain ⟨sound,none⟩ := init_sound items cmsBufSize (by decide) (by decide)
  exact ⟨sound,none⟩

/-- In every run of the firmware from `cms_init` on the buffer stays empty, so
that no event handed to the client is ever reported. -/
theorem run_reports_nothing (p : Proto π) (items : Nat → Item) (cfg : Config) (c : State π) (calls : List Call) :
    ∃ c', calls.foldlM (Call.apply p) (cmsInit p items cfg c).2 = .ok c' ∧
      ∀ event, ¬ Reported c' event := by
  obtain ⟨c',ran,idle⟩ := Run.foldlM_invariant (Call.apply p) (fun c => Idle c.buf) (fun _ => True)
    (fun c call idle _ => call_idle p idle call) _ calls (cmsInit_idle p items cfg c) fun _ _ => trivial
  exact ⟨c',ran,idle.unreported⟩

def unitProto : Proto Unit where
  reinit _ _ := ()
  newEvent _ _ := ((),true)
  packetReady _ := false
  getPacket _ := []
  packetDone _ := ()
  packetReply _ _ := ((),.none)

def freshCms : State Unit :=
  (cmsInit unitProto emptySlots ⟨some (0x0100000A,some 4000),some 0x1234⟩
    ⟨0,0,0,0,0,false,0,init emptySlots cmsBufSize,[],()⟩).2

def alarmEvent : Event := ⟨1,⟨24,1,1,12,0,0⟩,EventId.alarm.code,EventSource.door.code⟩

theorem freshCms_idle : Idle freshCms.buf := cmsInit_idle _ _ _ _

/-- A configured client with 32 free slots loses an alarm. -/
theorem fresh_loses_alarm : configured freshCms = true ∧ Sound freshCms.buf ∧
    (∀ i < freshCms.buf.size, (freshCms.buf.items i).flag = 0) ∧ ¬ Reported freshCms alarmEvent := by
  have sound := freshCms_idle.sound
  exact ⟨by decide,sound,sound.wellFormed.nil_iff.mp rfl,freshCms_idle.unreported alarmEvent⟩

/-- The client with an alarm in its buffer that was stored for a user. -/
def waitingCms : State Unit :=
  match addEvent freshCms.buf (some alarmEvent) prioStd 1 with
  | .ok (_,buf) => {freshCms with buf := buf}
  | .error _ => freshCms

theorem waitingCms_sound : Sound waitingCms.buf := by
  obtain ⟨_,buf,added,sound,_⟩ := addEvent_spec freshCms_idle.sound (some alarmEvent) prioStd 1
  rw [waitingCms,added]
  exact sound

theorem waitingCms_pending : Pending waitingCms.buf alarmEvent := by
  have waiting : pendingEvents (records waitingCms.buf) = [alarmEvent] := by decide +kernel
  rw [pending_iff,waiting]
  exact List.mem_singleton_self alarmEvent

theorem fresh_reported_iff : Sound freshCms.buf ∧ (Reported freshCms alarmEvent ↔ Pending freshCms.buf alarmEvent) ∧
    Sound waitingCms.buf ∧ Reported waitingCms alarmEvent :=
  ⟨freshCms_idle.sound,reported_iff freshCms alarmEvent freshCms_idle.sound,waitingCms_sound,
    (reported_iff waitingCms alarmEvent waitingCms_sound).mpr waitingCms_pending⟩

end JcaFirmware.Cms
