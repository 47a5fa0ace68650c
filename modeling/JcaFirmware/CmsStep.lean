import JcaFirmware.CmsSia

/-! What one call of the central-station client can do, for any protocol. -/
namespace JcaFirmware.Cms
open EventBuf Foundation

variable {π : Type}

/-- The parts of the client that a waiting call leaves alone. -/
structure Same (c c' : State π) : Prop where
  ip : c'.serverIp = c.serverIp
  port : c'.serverPort = c.serverPort
  proto : c'.proto = c.proto
  packet : c'.packet = c.packet
  waiting : c'.waiting = c.waiting
  buf : c'.buf = c.buf

/-- The record that a search for a user takes, and what it leaves. -/
structure Takes (user : Nat) (old new : List Record) (r : Record) : Prop where
  wanted : Wanted user r
  found : ∃ pre post, old = pre ++ r :: post ∧ (∀ r' ∈ pre, ¬ Wanted user r') ∧
    new = pre ++ {r with status := .processing} :: post

/-- What a call of `cms_reinit` does. -/
structure Rereads (p : Proto π) (cfg : Config) (c c' : State π) : Prop where
  proto : c'.proto = p.reinit c.proto c'.account
  packet : c'.packet = c.packet
  waiting : c'.waiting = c.waiting
  buf : c'.buf = c.buf

/-- The end of a packet: its record is done, and nothing is waited for. -/
structure Ends (p : Proto π) (delivered : Bool) (c c' : State π) : Prop where
  ip : c'.serverIp = c.serverIp
  port : c'.serverPort = c.serverPort
  proto : c'.proto = p.packetDone c.proto
  packet : c'.packet = c.packet
  waiting : c'.waiting = false
  sound : Sound c'.buf
  records : records c'.buf = (records c.buf).filterMap (doneRecord delivered)

/-- A packet is handed to the network. -/
structure Sends (p : Proto π) (env : Env) (c c' : State π) : Prop where
  ip : c'.serverIp = c.serverIp
  port : c'.serverPort = c.serverPort
  packet : c'.packet = p.getPacket c'.proto
  waiting : c'.waiting = env.sent

/-- What `cms_main_process` can do. The packet sent is an index of it. -/
inductive Processed (p : Proto π) (env : Env) (c c' : State π) : Option (List UInt8) → Prop
  | rest (closed : configured c = false ∨ (c.waiting = true ∧ env.now < c.waitTmr)) (same : Same c c') :
      Processed p env c c' none
  | resent (waiting : c.waiting = true) (few : c.retry < cmsRetryDefault) (same : Same c c') :
      Processed p env c c' (some c.packet)
  | reread (unset : configured c = false) (cfg : Config) (reread : Rereads p cfg c c') : Processed p env c c' none
  | failed (set : configured c = true) (waiting : c.waiting = true) (late : c.waitTmr ≤ env.now)
      (retried : cmsRetryDefault ≤ c.retry) (ends : Ends p false c c') : Processed p env c c' none
  | prepared (set : configured c = true) (idle : c.waiting = false) (ready : p.packetReady c.proto = true)
      (sends : Sends p env c c') (proto : c'.proto = c.proto) (buf : c'.buf = c.buf) :
      Processed p env c c' (some c'.packet)
  | nothing (set : configured c = true) (idle : c.waiting = false) (unready : p.packetReady c.proto = false)
      (empty : ∀ r ∈ records c.buf, ¬ Wanted env.user r) (ip : c'.serverIp = c.serverIp)
      (port : c'.serverPort = c.serverPort) (proto : c'.proto = c.proto) (packet : c'.packet = c.packet)
      (waiting : c'.waiting = false) (sound : Sound c'.buf) (records : records c'.buf = records c.buf) :
      Processed p env c c' none
  | refused (set : configured c = true) (idle : c.waiting = false) (unready : p.packetReady c.proto = false)
      (r : Record) (new : List Record) (takes : Takes env.user (EventBuf.records c.buf) new r)
      (unreported : (p.newEvent c.proto r.event).2 = false) (proto : c'.proto = (p.newEvent c.proto r.event).1)
      (ip : c'.serverIp = c.serverIp) (port : c'.serverPort = c.serverPort) (packet : c'.packet = c.packet)
      (waiting : c'.waiting = false) (sound : Sound c'.buf)
      (records : EventBuf.records c'.buf = new.filterMap (doneRecord false)) : Processed p env c c' none
  | taken (set : configured c = true) (idle : c.waiting = false) (unready : p.packetReady c.proto = false)
      (r : Record) (takes : Takes env.user (EventBuf.records c.buf) (EventBuf.records c'.buf) r)
      (reported : (p.newEvent c.proto r.event).2 = true) (proto : c'.proto = (p.newEvent c.proto r.event).1)
      (sends : Sends p env c c') (sound : Sound c'.buf) : Processed p env c c' (some c'.packet)

theorem cmsReinit_rereads (p : Proto π) (cfg : Config) (c : State π) : Rereads p cfg c (cmsReinit p cfg c).2 := by
  unfold cmsReinit
  cases cfg.target <;> cases cfg.account <;> exact ⟨rfl,rfl,rfl,rfl⟩

theorem cmsFail_ends (p : Proto π) {c : State π} (sound : Sound c.buf) :
    ∃ c', cmsFail p c = .ok c' ∧ Ends p false c c' := by
  obtain ⟨b,ran,after,same⟩ := doneEvents_spec sound false
  refine ⟨{c with buf := b, proto := p.packetDone c.proto, waiting := false, retry := 0},?_,?_⟩
  · rw [cmsFail,ran,ok_bind]
  · exact ⟨rfl,rfl,rfl,rfl,rfl,after,same⟩

theorem cmsSend_sends (p : Proto π) (env : Env) {c : State π} (idle : c.waiting = false) :
    ∃ c', cmsSend p env c = (c',some c'.packet) ∧ Sends p env c c' ∧ c'.proto = c.proto ∧ c'.buf = c.buf := by
  unfold cmsSend
  dsimp only
  cases sent : env.sent with
  | false => exact ⟨{c with packet := p.getPacket c.proto},rfl,⟨rfl,rfl,rfl,idle.trans sent.symm⟩,rfl,rfl⟩
  | true =>
    refine ⟨{c with packet := p.getPacket c.proto, waiting := true, waitTmr := (env.now + cmsWaitTmout) % 2 ^ 32},
      rfl,⟨rfl,rfl,rfl,sent.symm⟩,rfl,rfl⟩

theorem Takes.of_gets {old new : List Record} {q q' : Request} (gets : Gets old new q q' true) :
    ∃ r, Takes q.user old new r ∧ q' = q.report r := by
  rcases gets with ⟨_,pre,r,post,split,wanted,before,left,report⟩ | ⟨none,_⟩
  · exact ⟨r,⟨wanted,pre,post,split,before,left⟩,report⟩
  · exact absurd none (by simp)

theorem cmsMainProcess_processed (p : Proto π) (env : Env) {c : State π} (sound : Sound c.buf) :
    ∃ c' sent, cmsMainProcess p env c = .ok (c',sent) ∧ Processed p env c c' sent := by
  unfold cmsMainProcess
  split_ifs with unset due waiting early few ready
  · cases env.connected with
    | none => exact ⟨_,none,rfl,.rest (Or.inl unset) ⟨rfl,rfl,rfl,rfl,rfl,rfl⟩⟩
    | some cfg =>
      obtain ⟨proto,packet,waiting,buf⟩ :=
        cmsReinit_rereads p cfg {c with resolveTmr := (env.now + 60 * osTimerSecond) % 2 ^ 32}
      exact ⟨_,none,rfl,.reread unset cfg ⟨proto,packet,waiting,buf⟩⟩
  · exact ⟨c,none,rfl,.rest (Or.inl unset) ⟨rfl,rfl,rfl,rfl,rfl,rfl⟩⟩
  · exact ⟨c,none,rfl,.rest (Or.inr ⟨waiting,early⟩) ⟨rfl,rfl,rfl,rfl,rfl,rfl⟩⟩
  · exact ⟨_,some c.packet,rfl,.resent waiting few ⟨rfl,rfl,rfl,rfl,rfl,rfl⟩⟩
  · obtain ⟨c',ran,ends⟩ := cmsFail_ends p sound
    refine ⟨c',none,by rw [ran,ok_bind],?_⟩
    exact .failed (Bool.not_eq_false _ ▸ unset) waiting (Nat.le_of_not_lt early) (Nat.le_of_not_lt few) ends
  · obtain ⟨c',ran,sends,proto,buf⟩ := cmsSend_sends p env (Bool.not_eq_true _ ▸ waiting)
    refine ⟨c',some c'.packet,by rw [ran],?_⟩
    exact .prepared (Bool.not_eq_false _ ▸ unset) (Bool.not_eq_true _ ▸ waiting) ready sends proto buf
  · have set : configured c = true := Bool.not_eq_false _ ▸ unset
    have idle : c.waiting = false := Bool.not_eq_true _ ▸ waiting
    have unready : p.packetReady c.proto = false := Bool.not_eq_true _ ▸ ready
    obtain ⟨result,q,b,ran,after,gets⟩ := getEvent_spec sound (some env.event) env.user none
    rw [ran,ok_bind]
    dsimp only
    cases result with
    | false =>
      rcases gets with ⟨yes,_⟩ | ⟨_,empty,same⟩
      · exact absurd yes (by simp)
      · refine ⟨{c with buf := b},none,rfl,?_⟩
        exact .nothing set idle unready empty rfl rfl rfl rfl idle after same
    | true =>
      obtain ⟨r,takes,report⟩ := Takes.of_gets gets
      have event : q.event.getD env.event = r.event := by
        rw [report]
        rfl
      rw [if_neg (by simp),event]
      cases reported : (p.newEvent c.proto r.event).2 with
      | false =>
        obtain ⟨b',finished,last,left⟩ := doneEvents_spec after false
        refine ⟨{c with buf := b', proto := (p.newEvent c.proto r.event).1},none,?_,?_⟩
        · rw [if_pos rfl,finished,ok_bind]
        · exact .refused set idle unready r (records b) takes reported rfl rfl rfl rfl idle last left
      | true =>
        obtain ⟨c',sent,sends,proto,buf⟩ :=
          cmsSend_sends p env (c := {c with buf := b, proto := (p.newEvent c.proto r.event).1}) idle
        refine ⟨c',some c'.packet,?_,?_⟩
        · rw [if_neg (by simp),sent]
        · exact .taken set idle unready r (buf ▸ takes) reported proto ⟨sends.ip,sends.port,sends.packet,sends.waiting⟩
            (buf ▸ after)

/-- What `cms_udp_rx` can do. -/
inductive Received (p : Proto π) (data : List UInt8) (port : Nat) (c c' : State π) : Prop
  | ignored (other : ¬ (port = c.serverPort ∧ c.waiting = true ∧ (p.packetReply c.proto data).2 ≠ .none))
      (ip : c'.serverIp = c.serverIp) (listens : c'.serverPort = c.serverPort) (packet : c'.packet = c.packet)
      (waiting : c'.waiting = c.waiting) (buf : c'.buf = c.buf)
      (proto : c'.proto = c.proto ∨ c'.proto = (p.packetReply c.proto data).1) : Received p data port c c'
  | refused (own : port = c.serverPort) (waiting : c.waiting = true) (nak : (p.packetReply c.proto data).2 = .nak)
      (ends : Ends p false {c with proto := (p.packetReply c.proto data).1} c') : Received p data port c c'
  | acked (own : port = c.serverPort) (waiting : c.waiting = true) (ack : (p.packetReply c.proto data).2 = .ack)
      (ends : Ends p true {c with proto := (p.packetReply c.proto data).1} c') : Received p data port c c'

theorem cmsUdpRx_received (p : Proto π) (data : List UInt8) (port : Nat) {c : State π} (sound : Sound c.buf) :
    ∃ handled c', cmsUdpRx p data port c = .ok (handled,c') ∧ Received p data port c c' := by
  unfold cmsUdpRx
  dsimp only
  split_ifs with foreign silent idle nak
  · exact ⟨false,c,rfl,.ignored (fun own => foreign own.1) rfl rfl rfl rfl rfl (Or.inl rfl)⟩
  · exact ⟨false,_,rfl,.ignored (fun own => own.2.2 silent) rfl rfl rfl rfl rfl (Or.inr rfl)⟩
  · exact ⟨true,_,rfl,.ignored (fun own => absurd (own.2.1.symm.trans idle) (by simp)) rfl rfl rfl rfl rfl (Or.inr rfl)⟩
  · obtain ⟨c',ran,ends⟩ := cmsFail_ends p (c := {c with proto := (p.packetReply c.proto data).1}) sound
    refine ⟨true,c',by rw [ran,ok_bind],?_⟩
    exact .refused (not_not.mp foreign) (Bool.not_eq_false _ ▸ idle) nak ends
  · obtain ⟨b,ran,after,same⟩ := doneEvents_spec sound true
    refine ⟨true,_,by rw [ran,ok_bind],.acked (not_not.mp foreign) (Bool.not_eq_false _ ▸ idle) ?_ ?_⟩
    · cases reply : (p.packetReply c.proto data).2 with
      | none => exact absurd reply silent
      | ack => rfl
      | nak => exact absurd reply nak
    · exact ⟨rfl,rfl,rfl,rfl,rfl,after,same⟩

theorem cmsUdpRx_ack (p : Proto π) {data : List UInt8} {c : State π} (sound : Sound c.buf) (waiting : c.waiting = true)
    (ack : (p.packetReply c.proto data).2 = .ack) :
    ∃ c', cmsUdpRx p data c.serverPort c = .ok (true,c') ∧ c'.waiting = false := by
  obtain ⟨b,ran,_⟩ := doneEvents_spec sound true
  refine ⟨{c with
    buf := b, proto := p.packetDone (p.packetReply c.proto data).1, waiting := false, retry := 0},?_,rfl⟩
  unfold cmsUdpRx
  dsimp only
  rw [if_neg (not_not.mpr rfl),ack,if_neg (by decide),if_neg (by simp [waiting]),if_neg (by decide),ran,ok_bind]

theorem cmsUdpRx_unknown (p : Proto π) {data : List UInt8} {c : State π}
    (unknown : (p.packetReply c.proto data).2 = .none) (port : Nat) : ∃ c', cmsUdpRx p data port c = .ok (false,c') := by
  unfold cmsUdpRx
  dsimp only
  rw [unknown,if_pos rfl]
  split_ifs
  · exact ⟨c,rfl⟩
  · exact ⟨_,rfl⟩

section Oldest

theorem first_unique {α : Type} {kind : α → Prop} {pre post pre' post' : List α} {a a' : α}
    (same : pre ++ a :: post = pre' ++ a' :: post') (none : ∀ b ∈ pre, ¬ kind b) (this : kind a)
    (none' : ∀ b ∈ pre', ¬ kind b) (this' : kind a') : pre = pre' ∧ a = a' ∧ post = post' := by
  induction pre generalizing pre' with
  | nil =>
    cases pre' with
    | nil =>
      obtain ⟨head,tail⟩ := List.cons.inj same
      exact ⟨rfl,head,tail⟩
    | cons b pre' =>
      rw [(List.cons.inj same).1] at this
      exact absurd this (none' b (by simp))
  | cons b pre ih =>
    cases pre' with
    | nil =>
      rw [← (List.cons.inj same).1] at this'
      exact absurd this' (none b (by simp))
    | cons b' pre' =>
      obtain ⟨head,tail⟩ := List.cons.inj same
      obtain ⟨front,mid,back⟩ := ih tail (fun c member => none c (by simp [member]))
        fun c member => none' c (by simp [member])
      exact ⟨by rw [head,front],mid,back⟩

/-- The call takes the record for transmission: its event goes to the protocol, and
it is in processing, or given up if the protocol does not report it. -/
def Transmits (p : Proto π) (env : Env) (c : State π) (pre : List Record) (r : Record) (post : List Record) : Prop :=
  ∃ c' sent, cmsMainProcess p env c = .ok (c',sent) ∧ c'.proto = (p.newEvent c.proto r.event).1 ∧
    if (p.newEvent c.proto r.event).2 then
      records c'.buf = pre ++ {r with status := .processing} :: post ∧ sent = some (p.getPacket c'.proto)
    else records c'.buf = (pre ++ {r with status := .processing} :: post).filterMap (doneRecord false) ∧ sent = none

/-- What giving up leaves of a record. -/
def givenUp (r : Record) : Record := if r.status = .processing then {r with status := .zombie} else r

theorem done_false (rs : List Record) : rs.filterMap (doneRecord false) = rs.map givenUp := by
  have kept : doneRecord false = some ∘ givenUp := by
    funext r
    by_cases sent : r.status = .processing
    · simp [doneRecord,givenUp,sent]
    · simp [doneRecord,givenUp,sent]
  rw [kept,List.filterMap_eq_map]

theorem givenUp_pending (r : Record) : (givenUp r).status = .pending ↔ r.status = .pending := by
  unfold givenUp
  split
  · next sent => simp [sent]
  · exact Iff.rfl

/-- The record at a position is pending. -/
def PendingAt (i : Nat) (rs : List Record) : Prop := ∃ r, rs[i]? = some r ∧ r.status = .pending

theorem PendingAt.givenUp_iff (i : Nat) (rs : List Record) :
    PendingAt i (rs.filterMap (doneRecord false)) ↔ PendingAt i rs := by
  unfold PendingAt
  rw [done_false,List.getElem?_map]
  cases found : rs[i]? with
  | none => simp
  | some r => simpa using givenUp_pending r

theorem pendingAt_middle (pre : List Record) (r : Record) (post : List Record) :
    PendingAt pre.length (pre ++ r :: post) ↔ r.status = .pending := by
  simp [PendingAt]

theorem Takes.unwanted {user : Nat} {pre post new : List Record} {r r' : Record}
    (takes : Takes user (pre ++ r :: post) new r') (pending : r.status = .pending) (other : ¬ Wanted user r) :
    PendingAt pre.length new := by
  obtain ⟨wanted,pre',post',split,_,rfl⟩ := takes
  have apart : pre'.length ≠ pre.length := by
    intro same
    obtain ⟨_,rest⟩ := List.append_inj split same.symm
    rw [(List.cons.inj rest).1] at other
    exact other wanted
  have changed : pre' ++ {r' with status := .processing} :: post' =
      (pre ++ r :: post).set pre'.length {r' with status := .processing} := by
    rw [split]
    simp
  refine ⟨r,?_,pending⟩
  rw [changed,List.getElem?_set_ne apart]
  simp

variable {p : Proto π} {env : Env} {c : State π} {r : Record} {pre post : List Record}

theorem Transmits.not_pending (transmits : Transmits p env c pre r post) :
    ∃ c' sent, cmsMainProcess p env c = .ok (c',sent) ∧ ¬ PendingAt pre.length (records c'.buf) := by
  obtain ⟨c',sent,ran,_,outcome⟩ := transmits
  refine ⟨c',sent,ran,?_⟩
  split_ifs at outcome
  · rw [outcome.1,pendingAt_middle]
    simp
  · rw [outcome.1,PendingAt.givenUp_iff,pendingAt_middle]
    simp

theorem Transmits.wanted (transmits : Transmits p env c pre r post) (set : configured c = true)
    (idle : c.waiting = false) (unready : p.packetReady c.proto = false) (sound : Sound c.buf)
    (queue : records c.buf = pre ++ r :: post) (pending : r.status = .pending) : Wanted env.user r := by
  by_contra other
  obtain ⟨c',sent,ran,processed⟩ := cmsMainProcess_processed p env sound
  obtain ⟨_,_,again,gone⟩ := transmits.not_pending
  cases ran.symm.trans again
  apply gone
  cases processed with
  | rest _ same =>
    rw [same.buf,queue,pendingAt_middle]
    exact pending
  | resent waiting => exact absurd (idle.symm.trans waiting) (by simp)
  | reread unset => exact absurd (set.symm.trans unset) (by simp)
  | failed _ waiting => exact absurd (idle.symm.trans waiting) (by simp)
  | prepared _ _ ready => exact absurd (unready.symm.trans ready) (by simp)
  | nothing _ _ _ _ _ _ _ _ _ _ same =>
    rw [same,queue,pendingAt_middle]
    exact pending
  | refused _ _ _ r' new takes _ _ _ _ _ _ _ left =>
    rw [queue] at takes
    rw [left,PendingAt.givenUp_iff]
    exact takes.unwanted pending other
  | taken _ _ _ r' takes =>
    rw [queue] at takes
    exact takes.unwanted pending other

/-- The oldest pending record is taken exactly when the uninitialised `user` happens
to be no user or its own. -/
theorem mainProcess_serves_iff (p : Proto π) (env : Env) {c : State π} (set : configured c = true)
    (idle : c.waiting = false) (unready : p.packetReady c.proto = false) (sound : Sound c.buf)
    {pre : List Record} {r : Record} {post : List Record} (queue : records c.buf = pre ++ r :: post)
    (pending : r.status = .pending) (oldest : ∀ r' ∈ pre, r'.status ≠ .pending) :
    Transmits p env c pre r post ↔ env.user = userNone ∨ r.user = env.user := by
  constructor
  · intro transmits
    exact (transmits.wanted set idle unready sound queue pending).2
  · intro user
    have wanted : Wanted env.user r := ⟨pending,user⟩
    have before : ∀ r' ∈ pre, ¬ Wanted env.user r' := fun r' member found => oldest r' member found.1
    obtain ⟨c',sent,ran,processed⟩ := cmsMainProcess_processed p env sound
    have this {new : List Record} {r' : Record} (takes : Takes env.user (records c.buf) new r') :
        r' = r ∧ new = pre ++ {r with status := .processing} :: post := by
      obtain ⟨found,pre',post',split,first,rfl⟩ := takes
      obtain ⟨rfl,rfl,rfl⟩ := first_unique (queue.symm.trans split) before wanted first found
      exact ⟨rfl,rfl⟩
    cases processed with
    | rest closed =>
      rcases closed with unset | ⟨waiting,_⟩
      · exact absurd (set.symm.trans unset) (by simp)
      · exact absurd (idle.symm.trans waiting) (by simp)
    | resent waiting => exact absurd (idle.symm.trans waiting) (by simp)
    | reread unset => exact absurd (set.symm.trans unset) (by simp)
    | failed _ waiting => exact absurd (idle.symm.trans waiting) (by simp)
    | prepared _ _ ready => exact absurd (unready.symm.trans ready) (by simp)
    | nothing _ _ _ empty => exact absurd wanted (empty r (by simp [queue]))
    | refused _ _ _ r' new takes unreported proto _ _ _ _ _ left =>
      obtain ⟨rfl,rfl⟩ := this takes
      refine ⟨c',none,ran,proto,?_⟩
      rw [unreported,if_neg (by simp)]
      exact ⟨left,rfl⟩
    | taken _ _ _ r' takes reported proto sends =>
      obtain ⟨rfl,new⟩ := this takes
      refine ⟨c',_,ran,proto,?_⟩
      rw [reported,if_pos rfl,← sends.packet]
      exact ⟨new,rfl⟩

end Oldest

section Unserved
open CmsSia

def doorAlarm : Record := newRecord alarmEvent prioStd 7

def meeting (user : Nat) : Env := ⟨20000,some demoConfig,true,Event.erased,user⟩

/-- A buffer with waiting events of user 7. -/
def stocked (events : List Event) : Except Fault Buf :=
  runOps (init emptySlots cmsBufSize) (events.map fun event => .addEvent (some event) prioStd 7)

theorem stocked_sound (events : List Event)
    (seen : (do
      let b ← stocked events
      .ok (records b)) = .ok (events.map fun event => newRecord event prioStd 7)) :
    ∃ b, stocked events = .ok b ∧ Sound b ∧ records b = events.map fun event => newRecord event prioStd 7 := by
  obtain ⟨b,ran,sound⟩ := reachable_sound emptySlots ⟨cmsBufSize,by decide⟩
    (events.map fun event => .addEvent (some event) prioStd 7)
  rw [stocked,ran,ok_bind] at seen
  exact ⟨b,ran,sound,Except.ok.inj seen⟩

/-- A waiting alarm of user 7 is not taken where the local `user` starts as 3. -/
theorem doorAlarm_unserved : ¬ ∀ (env : Env) (c : State Sia) (pre : List Record) (r : Record) (post : List Record),
    configured c = true → c.waiting = false → c.proto.packetOk = false → Sound c.buf →
      records c.buf = pre ++ r :: post → r.status = .pending → (∀ r' ∈ pre, r'.status ≠ .pending) →
        Transmits (cmsProtoSiaIp untexted) env c pre r post := by
  intro served
  obtain ⟨b,_,sound,stocked⟩ := stocked_sound [alarmEvent] (by rfl)
  have transmits := served (meeting 3) (started demoConfig b) [] doorAlarm [] (by rfl) (by rfl) (by rfl) sound stocked
    (by rfl) (by simp)
  have wanted := transmits.wanted (by rfl) (by rfl) (by rfl) sound stocked (by rfl)
  exact absurd wanted.2 (by decide)

theorem doorAlarm_serves_iff : ∃ b, Sound b ∧
    (Transmits (cmsProtoSiaIp untexted) (meeting userNone) (started demoConfig b) [] doorAlarm [] ↔
      userNone = userNone ∨ doorAlarm.user = userNone) := by
  obtain ⟨b,_,sound,stocked⟩ := stocked_sound [alarmEvent] (by rfl)
  refine ⟨b,sound,?_⟩
  exact mainProcess_serves_iff (cmsProtoSiaIp untexted) (meeting userNone) (by rfl) (by rfl) (by rfl) sound stocked
    (by rfl) (by simp)

end Unserved

end JcaFirmware.Cms
