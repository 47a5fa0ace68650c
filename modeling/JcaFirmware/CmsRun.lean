import JcaFirmware.CmsStep

/-! Runs of the central-station client over SIA: its entry points are called in
any order, over a buffer that holds any records at the start. -/
namespace JcaFirmware.CmsRun
open EventBuf Cms CmsSia Foundation Foundation.Numeral

/-- One call of the module, with the texts and the clock it meets. -/
structure Input where
  world : World
  call : Call

def tooLong : Fault := .assertion "cms_sia_ip_build_msg() len"

def step (state : Except Fault (State Sia)) (input : Input) : Except Fault (State Sia) := do
  let c ← state
  let c ← input.call.apply (cmsProtoSiaIp input.world) c
  osAssert (c.proto.fits = true) "cms_sia_ip_build_msg() len"
  .ok c

/-- What one call can do to the module. -/
inductive Stepped (w : World) (c : State Sia) : Call → State Sia → Prop
  | reinit (cfg : Config) {c' : State Sia} (rereads : Rereads (cmsProtoSiaIp w) cfg c c') : Stepped w c (.reinit cfg) c'
  | newEvent (event : Option Event) : Stepped w c (.newEvent event) c
  | udpRx (data : List UInt8) (port : Nat) {c' : State Sia} (received : Received (cmsProtoSiaIp w) data port c c') :
      Stepped w c (.udpRx data port) c'
  | mainProcess (env : Env) {c' : State Sia} {sent : Option (List UInt8)}
      (processed : Processed (cmsProtoSiaIp w) env c c' sent) : Stepped w c (.mainProcess env) c'

theorem call_stepped (w : World) {c : State Sia} (sound : Sound c.buf) (call : Call) :
    ∃ c', call.apply (cmsProtoSiaIp w) c = .ok c' ∧ Stepped w c call c' := by
  cases call with
  | reinit cfg => exact ⟨_,rfl,.reinit cfg (cmsReinit_rereads _ cfg c)⟩
  | newEvent event => exact ⟨c,by rw [Call.apply,cmsNewEvent_refuses,ok_bind],.newEvent event⟩
  | udpRx data port =>
    obtain ⟨_,c',ran,received⟩ := cmsUdpRx_received (cmsProtoSiaIp w) data port sound
    exact ⟨c',by rw [Call.apply,ran,ok_bind],.udpRx data port received⟩
  | mainProcess env =>
    obtain ⟨c',_,ran,processed⟩ := cmsMainProcess_processed (cmsProtoSiaIp w) env sound
    exact ⟨c',by rw [Call.apply,ran,ok_bind],.mainProcess env processed⟩

theorem step_stepped {c : State Sia} (sound : Sound c.buf) (input : Input) :
    ∃ c', Stepped input.world c input.call c' ∧
      step (.ok c) input = if c'.proto.fits = true then .ok c' else .error tooLong := by
  obtain ⟨c',ran,stepped⟩ := call_stepped input.world sound input.call
  refine ⟨c',stepped,?_⟩
  rw [step,ok_bind,ran,ok_bind,osAssert]
  split_ifs <;> rfl

/-- What holds after every call that keeps its message within bounds. -/
theorem step_holds {c : State Sia} {property : State Sia → Prop} (sound : Sound c.buf) (input : Input)
    (after : ∀ c', Stepped input.world c input.call c' → c'.proto.fits = true → property c') :
    Run.Unless tooLong property (step (.ok c) input) := by
  obtain ⟨c',stepped,ran⟩ := step_stepped sound input
  rw [ran]
  by_cases fits : c'.proto.fits = true
  · rw [if_pos fits]
    exact after c' stepped fits
  · rw [if_neg fits]
    rfl

section Protocol

/-- What the state of the protocol is worth between two calls. -/
structure Coherent (s : Sia) : Prop where
  fits : s.fits = true
  cnt : s.cnt < 10 ^ 4
  linePrefix : s.linePrefix = 0
  account : s.account ≤ scanMax
  ready : s.packetOk = true → 1 ≤ s.cnt ∧ Carries s.packet s.cnt s.linePrefix s.account

theorem Coherent.reinit {s : Sia} (coherent : Coherent s) (account : Nat) : Coherent (siaProtoReinit s account) where
  fits := coherent.fits
  cnt := show 0 < 10 ^ 4 by decide
  linePrefix := rfl
  account := Nat.le_of_lt_succ (Nat.mod_lt _ (by decide))
  ready := fun packetOk => absurd packetOk (by simp [siaProtoReinit])

theorem Coherent.done {s : Sia} (coherent : Coherent s) : Coherent {s with packetOk := false} :=
  ⟨coherent.fits,coherent.cnt,coherent.linePrefix,coherent.account,fun packetOk => absurd packetOk (by simp)⟩

/-- The protocol without a message: the next one is numbered, then built if it can be. -/
theorem newEvent_unready {w : World} {s : Sia} {e : Event} (unready : s.packetOk = false) {n : Nat}
    (next : n = if 9999 < s.cnt + 1 then 1 else s.cnt + 1) : siaProtoNewEvent w s e =
      match cmsSiaIpBuildMsg w {s with cnt := n} e with
      | none => ({s with cnt := n},false)
      | some (packet,fits) => ({s with cnt := n, packet := packet, fits := fits, packetOk := true},true) := by
  have free : ¬ s.packetOk = true := by simp [unready]
  subst next
  unfold siaProtoNewEvent
  exact if_neg free

theorem next_cnt {n : Nat} (less : n < 10 ^ 4) :
    1 ≤ (if 9999 < n + 1 then 1 else n + 1) ∧ (if 9999 < n + 1 then 1 else n + 1) < 10 ^ 4 := by
  split_ifs <;> omega

theorem Coherent.newEvent {w : World} {s : Sia} {e : Event} (coherent : Coherent s) (unready : s.packetOk = false)
    (fits : (siaProtoNewEvent w s e).1.fits = true) : Coherent (siaProtoNewEvent w s e).1 := by
  obtain ⟨pos,less⟩ := next_cnt coherent.cnt
  generalize next : (if 9999 < s.cnt + 1 then 1 else s.cnt + 1) = n at pos less
  rw [newEvent_unready unready next.symm] at fits ⊢
  cases built : cmsSiaIpBuildMsg w {s with cnt := n} e with
  | none =>
    refine ⟨coherent.fits,less,coherent.linePrefix,coherent.account,fun ready => ?_⟩
    exact absurd (unready.symm.trans ready) (by simp)
  | some message =>
    obtain ⟨packet,short⟩ := message
    rw [built] at fits
    cases show short = true from fits
    exact ⟨rfl,less,coherent.linePrefix,coherent.account,fun _ => ⟨pos,buildMsg_carries built⟩⟩

/-- What is reported: a message is ready exactly where one could be built. -/
theorem newEvent_ready {w : World} {s : Sia} {e : Event} (unready : s.packetOk = false) :
    (siaProtoNewEvent w s e).1.packetOk = (siaProtoNewEvent w s e).2 := by
  rw [newEvent_unready unready rfl]
  split
  · exact unready
  · rfl

theorem newEvent_unreported_fits {w : World} {s : Sia} {e : Event} (unready : s.packetOk = false)
    (unreported : (siaProtoNewEvent w s e).2 = false) (fits : s.fits = true) : (siaProtoNewEvent w s e).1.fits = true := by
  rw [newEvent_unready unready rfl] at unreported ⊢
  cases built : cmsSiaIpBuildMsg w {s with cnt := if 9999 < s.cnt + 1 then 1 else s.cnt + 1} e with
  | none => exact fits
  | some message =>
    rw [built] at unreported
    exact absurd unreported (by simp)

theorem newEvent_reported {w : World} {s : Sia} {e : Event} (unready : s.packetOk = false) :
    (siaProtoNewEvent w s e).2 = (siaEventCode e.id).isSome := by
  rw [newEvent_unready unready rfl,cmsSiaIpBuildMsg,siaMsgAddEvent]
  cases siaEventCode e.id <;> rfl

end Protocol

/-- Between two calls: the buffer and the protocol are sound, and a module without a
server has no message ready. -/
structure Settled (c : State Sia) : Prop where
  sound : Sound c.buf
  proto : Coherent c.proto
  unset : configured c = false → c.proto.packetOk = false

theorem Settled.of_ready {c : State Sia} (settled : Settled c) (ready : c.proto.packetOk = true) :
    configured c = true := by
  cases set : configured c with
  | true => rfl
  | false => exact absurd ((settled.unset set).symm.trans ready) (by simp)

theorem Rereads.settled {w : World} {cfg : Config} {c c' : State Sia} (rereads : Rereads (cmsProtoSiaIp w) cfg c c')
    (settled : Settled c) : Settled c' where
  sound := rereads.buf ▸ settled.sound
  proto := by
    rw [rereads.proto]
    exact settled.proto.reinit _
  unset := fun _ => by
    rw [rereads.proto]
    rfl

theorem Ends.settled {w : World} {delivered : Bool} {c c' : State Sia} (ends : Ends (cmsProtoSiaIp w) delivered c c')
    (coherent : Coherent c.proto) : Settled c' where
  sound := ends.sound
  proto := by
    rw [ends.proto]
    exact coherent.done
  unset := fun _ => by
    rw [ends.proto]
    rfl

theorem configured_of {c c' : State Sia} (ip : c'.serverIp = c.serverIp) (port : c'.serverPort = c.serverPort) :
    configured c' = configured c := by
  rw [configured,configured,ip,port]

theorem Settled.of_same {c c' : State Sia} (settled : Settled c) (ip : c'.serverIp = c.serverIp)
    (port : c'.serverPort = c.serverPort) (proto : c'.proto = c.proto) (sound : Sound c'.buf) : Settled c' where
  sound := sound
  proto := proto ▸ settled.proto
  unset := fun unset => by
    rw [proto]
    exact settled.unset ((configured_of ip port).symm.trans unset)

theorem Stepped.settled {w : World} {call : Call} {c c' : State Sia} (stepped : Stepped w c call c')
    (settled : Settled c) (fits : c'.proto.fits = true) : Settled c' := by
  cases stepped with
  | reinit cfg rereads => exact Rereads.settled rereads settled
  | newEvent event => exact settled
  | udpRx data port received =>
    cases received with
    | ignored _ ip listens _ _ buf proto =>
      exact settled.of_same ip listens (proto.elim id id) (buf ▸ settled.sound)
    | refused _ _ _ ends => exact Ends.settled ends settled.proto
    | acked _ _ _ ends => exact Ends.settled ends settled.proto
  | mainProcess env processed =>
    cases processed with
    | rest _ same => exact settled.of_same same.ip same.port same.proto (same.buf ▸ settled.sound)
    | resent _ _ same => exact settled.of_same same.ip same.port same.proto (same.buf ▸ settled.sound)
    | reread _ cfg rereads => exact Rereads.settled rereads settled
    | failed _ _ _ _ ends => exact Ends.settled ends settled.proto
    | prepared _ _ _ sends proto buf => exact settled.of_same sends.ip sends.port proto (buf ▸ settled.sound)
    | nothing _ _ _ _ ip port proto _ _ sound => exact settled.of_same ip port proto sound
    | refused set _ unready r _ _ unreported proto ip port _ _ sound =>
      have coherent : Coherent (siaProtoNewEvent w c.proto r.event).1 := settled.proto.newEvent unready (proto ▸ fits)
      refine ⟨sound,proto ▸ coherent,fun unset => ?_⟩
      exact absurd (((configured_of ip port).trans set).symm.trans unset) (by simp)
    | taken set _ unready r _ _ proto sends sound =>
      have coherent : Coherent (siaProtoNewEvent w c.proto r.event).1 := settled.proto.newEvent unready (proto ▸ fits)
      refine ⟨sound,proto ▸ coherent,fun unset => ?_⟩
      exact absurd (((configured_of sends.ip sends.port).trans set).symm.trans unset) (by simp)

theorem started_settled (cfg : Config) {b : Buf} (sound : Sound b) : Settled (started cfg b) := by
  have zero : Coherent statics.proto := ⟨rfl,by decide,rfl,by decide,fun ready => absurd ready (by decide)⟩
  have reread := cmsReinit_rereads (cmsProtoSiaIp untexted) cfg
    {statics with buf := init emptySlots cmsBufSize, waiting := false, retry := 0}
  refine ⟨sound,?_,fun _ => ?_⟩
  · rw [started,cmsInit]
    dsimp only
    rw [reread.proto]
    exact zero.reinit _
  · rw [started,cmsInit]
    dsimp only
    rw [reread.proto]
    rfl

section Answers

/-- The acknowledgement of the outstanding message would be accepted. -/
def Answerable (c : State Sia) : Prop :=
  c.waiting = true → Carries c.packet c.proto.cnt c.proto.linePrefix c.proto.account ∧
    ∀ w, ∃ c', cmsUdpRx (cmsProtoSiaIp w) (ackOf c.packet) c.serverPort c = .ok (true,c') ∧ c'.waiting = false

/-- A module that waits has its message ready, and has sent it. -/
structure Outstanding (c : State Sia) : Prop where
  settled : Settled c
  ready : c.waiting = true → c.proto.packetOk = true
  sent : c.waiting = true → c.packet = c.proto.packet

/-- The configuration is not read again while an answer is waited for. -/
def Unhurried (state : Except Fault (State Sia)) (input : Input) : Prop :=
  ∀ c cfg, state = .ok c → input.call = .reinit cfg → c.waiting = false

theorem Outstanding.of_idle {c : State Sia} (settled : Settled c) (idle : c.waiting = false) : Outstanding c :=
  ⟨settled,fun waiting => absurd (idle.symm.trans waiting) (by simp),
    fun waiting => absurd (idle.symm.trans waiting) (by simp)⟩

theorem Outstanding.carries {c : State Sia} (outstanding : Outstanding c) (waiting : c.waiting = true) :
    1 ≤ c.proto.cnt ∧ Carries c.packet c.proto.cnt c.proto.linePrefix c.proto.account := by
  rw [outstanding.sent waiting]
  exact outstanding.settled.proto.ready (outstanding.ready waiting)

theorem Outstanding.of_same {c c' : State Sia} (outstanding : Outstanding c) (settled : Settled c')
    (waiting : c'.waiting = c.waiting) (proto : c'.proto = c.proto) (packet : c'.packet = c.packet) : Outstanding c' where
  settled := settled
  ready := by
    rw [waiting,proto]
    exact outstanding.ready
  sent := by
    rw [waiting,packet,proto]
    exact outstanding.sent

theorem Coherent.prefixWord {s : Sia} (coherent : Coherent s) : s.linePrefix ≤ scanMax := by
  rw [coherent.linePrefix]
  exact Nat.zero_le _

theorem Outstanding.answerable {c : State Sia} (outstanding : Outstanding c) : Answerable c := by
  intro waiting
  obtain ⟨_,carries⟩ := outstanding.carries waiting
  refine ⟨carries,fun w => ?_⟩
  have coherent := outstanding.settled.proto
  have ack : siaProtoPacketReply c.proto (ackOf c.packet) = .ack := by
    rw [reply_ackOf c.proto carries coherent.cnt coherent.prefixWord coherent.account]
    exact if_pos ⟨rfl,rfl,rfl⟩
  exact cmsUdpRx_ack (cmsProtoSiaIp w) outstanding.settled.sound waiting ((cmsProtoSiaIp_reply w _ _).trans ack)

theorem Stepped.outstanding {w : World} {call : Call} {c c' : State Sia} (stepped : Stepped w c call c')
    (outstanding : Outstanding c) (unhurried : ∀ cfg, call = .reinit cfg → c.waiting = false)
    (fits : c'.proto.fits = true) : Outstanding c' := by
  have settled := stepped.settled outstanding.settled fits
  have unset (unset : configured c = false) : c.waiting = false := by
    cases waiting : c.waiting with
    | false => rfl
    | true =>
      exact absurd (unset.symm.trans (outstanding.settled.of_ready (outstanding.ready waiting))) (by simp)
  cases stepped with
  | reinit cfg rereads => exact .of_idle settled (rereads.waiting.trans (unhurried cfg rfl))
  | newEvent event => exact outstanding
  | udpRx data port received =>
    cases received with
    | ignored _ _ _ packet waiting _ proto => exact outstanding.of_same settled waiting (proto.elim id id) packet
    | refused _ _ _ ends => exact .of_idle settled ends.waiting
    | acked _ _ _ ends => exact .of_idle settled ends.waiting
  | mainProcess env processed =>
    cases processed with
    | rest _ same => exact outstanding.of_same settled same.waiting same.proto same.packet
    | resent _ _ same => exact outstanding.of_same settled same.waiting same.proto same.packet
    | reread closed cfg rereads => exact .of_idle settled (rereads.waiting.trans (unset closed))
    | failed _ _ _ _ ends => exact .of_idle settled ends.waiting
    | prepared _ _ ready sends proto => exact ⟨settled,fun _ => proto ▸ ready,fun _ => sends.packet⟩
    | nothing _ _ _ _ _ _ _ _ waiting => exact .of_idle settled waiting
    | refused _ _ _ r new takes _ _ _ _ _ waiting => exact .of_idle settled waiting
    | taken _ _ unready r takes reported proto sends =>
      refine ⟨settled,fun _ => ?_,fun _ => sends.packet⟩
      rw [proto]
      exact (newEvent_ready unready).trans reported

theorem step_outstanding (state : Except Fault (State Sia)) (input : Input) (outstanding : Run.Unless tooLong Outstanding state)
    (unhurried : Unhurried state input) : Run.Unless tooLong Outstanding (step state input) := by
  cases state with
  | error fault => exact outstanding
  | ok c =>
    apply step_holds outstanding.settled.sound
    intro c' stepped fits
    exact stepped.outstanding outstanding (fun cfg call => unhurried c cfg rfl call) fits

/-- After the configuration was read again, the answer to the message that is out
carries another line. -/
theorem reinit_unanswerable {w : World} {cfg : Config} {c c' : State Sia} (outstanding : Outstanding c)
    (waiting : c.waiting = true) (rereads : Rereads (cmsProtoSiaIp w) cfg c c') : ¬ Answerable c' := by
  intro answerable
  obtain ⟨pos,carries⟩ := outstanding.carries waiting
  obtain ⟨c'',ran,_⟩ := (answerable (rereads.waiting.trans waiting)).2 w
  have coherent := outstanding.settled.proto
  have unknown : siaProtoPacketReply c'.proto (ackOf c'.packet) = .none := by
    rw [rereads.packet,reply_ackOf c'.proto carries coherent.cnt coherent.prefixWord coherent.account,rereads.proto]
    apply if_neg
    rintro ⟨_,_,same⟩
    rw [same] at pos
    exact absurd pos (Nat.not_succ_le_zero 0)
  obtain ⟨_,refused⟩ := cmsUdpRx_unknown (cmsProtoSiaIp w) ((cmsProtoSiaIp_reply w _ _).trans unknown) c'.serverPort
  cases ran.symm.trans refused

theorem step_unanswerable (state : Except Fault (State Sia)) (input : Input) (outstanding : Run.Unless tooLong Outstanding state)
    (hurried : ¬ Unhurried state input) : ¬ Run.Unless tooLong Answerable (step state input) := by
  obtain ⟨c,cfg,rfl,call,waiting⟩ : ∃ c cfg, state = .ok c ∧ input.call = .reinit cfg ∧ c.waiting = true := by
    simpa [Unhurried] using hurried
  have rereads := cmsReinit_rereads (cmsProtoSiaIp input.world) cfg c
  have ran : step (.ok c) input = .ok (cmsReinit (cmsProtoSiaIp input.world) cfg c).2 := by
    have fits : (cmsReinit (cmsProtoSiaIp input.world) cfg c).2.proto.fits = true := by
      rw [rereads.proto]
      exact outstanding.settled.proto.fits
    rw [step,ok_bind,call,Call.apply,ok_bind,osAssert,if_pos fits]
    rfl
  rw [ran]
  exact reinit_unanswerable outstanding waiting rereads

theorem started_outstanding (cfg : Config) {b : Buf} (sound : Sound b) : Outstanding (started cfg b) := by
  have reread := cmsReinit_rereads (cmsProtoSiaIp untexted) cfg
    {statics with buf := init emptySlots cmsBufSize, waiting := false, retry := 0}
  exact .of_idle (started_settled cfg sound) reread.waiting

/-- All along a run the outstanding message can be acknowledged exactly when the
configuration is never read again while an answer is waited for. -/
theorem run_answerable_iff (cfg : Config) {b : Buf} (sound : Sound b) (inputs : List Input) :
    (∀ first rest, inputs = first ++ rest → Run.Unless tooLong Answerable (Run.run step (.ok (started cfg b)) first)) ↔
      Run.Admits step Unhurried (.ok (started cfg b)) inputs := by
  apply Run.always_iff_admits step Unhurried (Run.Unless tooLong Outstanding) (Run.Unless tooLong Answerable)
  · exact fun _ => Run.Unless.mono fun _ => Outstanding.answerable
  · exact step_outstanding
  · exact step_unanswerable
  · exact started_outstanding cfg sound

def send : Input := ⟨untexted,.mainProcess (meeting userNone)⟩

def reread : Input := ⟨untexted,.reinit demoConfig⟩

theorem send_unhurried (state : Except Fault (State Sia)) : Unhurried state send :=
  fun _ _ _ call => absurd call (by simp [send])

theorem doorAlarm_sent {b : Buf} (added : stocked [alarmEvent] = .ok b) :
    ∃ c, step (.ok (started demoConfig b)) send = .ok c ∧ c.waiting = true := by
  have seen : (do
      let b ← stocked [alarmEvent]
      let c ← step (.ok (started demoConfig b)) send
      .ok c.waiting) = .ok true := by decide +kernel
  rw [added,ok_bind] at seen
  cases sent : step (.ok (started demoConfig b)) send with
  | error fault => exact absurd seen (by simp [sent,bind,Except.bind])
  | ok c =>
    rw [sent,ok_bind] at seen
    exact ⟨c,rfl,Except.ok.inj seen⟩

/-- The configuration is read again while the alarm is out: its acknowledgement has
another line than the module expects. -/
theorem reread_unanswerable : ¬ ∀ (cfg : Config) (b : Buf), Sound b → (∀ r ∈ records b, r.status = .pending) →
    ∀ inputs, Run.Unless tooLong Answerable (Run.run step (.ok (started cfg b)) inputs) := by
  intro always
  obtain ⟨b,added,sound,stocked⟩ := stocked_sound [alarmEvent] (by rfl)
  obtain ⟨c,sent,waiting⟩ := doorAlarm_sent added
  have outstanding : Run.Unless tooLong Outstanding (.ok c) := by
    rw [← sent]
    exact step_outstanding _ send (started_outstanding demoConfig sound) (send_unhurried _)
  have answerable := always demoConfig b sound (by simp [stocked,newRecord]) [send,reread]
  rw [Run.run_cons,Run.run_cons,sent] at answerable
  refine step_unanswerable (.ok c) reread outstanding (fun unhurried => ?_) answerable
  exact absurd ((unhurried c demoConfig rfl rfl).symm.trans waiting) (by simp)

theorem reread_sent_answerable : ∃ b, Sound b ∧ records b = [doorAlarm] ∧ ∀ first rest, [reread,send] = first ++ rest →
    Run.Unless tooLong Answerable (Run.run step (.ok (started demoConfig b)) first) := by
  obtain ⟨b,_,sound,stocked⟩ := stocked_sound [alarmEvent] (by rfl)
  refine ⟨b,sound,stocked,(run_answerable_iff demoConfig sound [reread,send]).mpr ⟨?_,send_unhurried _,trivial⟩⟩
  intro c cfg same _
  cases same
  rfl

end Answers

section Residue

/-- No record of the buffer is one that was given up. -/
def NoResidue (c : State Sia) : Prop := ∀ r ∈ records c.buf, r.status ≠ .zombie

/-- The call gives up an event: a NAK is accepted, the last retry has timed out, or the
next record has no SIA code. -/
def GivesUp (c : State Sia) : Call → Prop
  | .udpRx data port => port = c.serverPort ∧ c.waiting = true ∧ siaProtoPacketReply c.proto data = .nak
  | .mainProcess env => configured c = true ∧
      ((c.waiting = true ∧ c.waitTmr ≤ env.now ∧ cmsRetryDefault ≤ c.retry) ∨
        (c.waiting = false ∧ c.proto.packetOk = false ∧
          ∃ r new, Takes env.user (records c.buf) new r ∧ siaEventCode r.event.id = none))
  | _ => False

def Delivering (state : Except Fault (State Sia)) (input : Input) : Prop :=
  ∀ c, state = .ok c → ¬ GivesUp c input.call

/-- A message that is ready or out has its record in processing. -/
structure Kept (c : State Sia) : Prop where
  settled : Settled c
  none : NoResidue c
  sending : c.waiting = true ∨ c.proto.packetOk = true → ∃ r ∈ records c.buf, r.status = .processing

theorem Takes.residue {user : Nat} {old new : List Record} {r : Record} (takes : Takes user old new r)
    (none : ∀ r ∈ old, r.status ≠ .zombie) :
    (∀ r ∈ new, r.status ≠ .zombie) ∧ ∃ r ∈ new, r.status = .processing := by
  obtain ⟨_,pre,post,rfl,_,rfl⟩ := takes
  constructor
  · intro r' member
    rcases List.mem_append.mp member with before | rest
    · exact none r' (by simp [before])
    · rcases List.mem_cons.mp rest with rfl | behind
      · simp
      · exact none r' (by simp [behind])
  · exact ⟨{r with status := .processing},by simp,rfl⟩

theorem Takes.unique {user : Nat} {old new new' : List Record} {r r' : Record} (takes : Takes user old new r)
    (takes' : Takes user old new' r') : r = r' := by
  obtain ⟨wanted,pre,post,split,before,_⟩ := takes
  obtain ⟨wanted',pre',post',split',before',_⟩ := takes'
  exact (first_unique (split.symm.trans split') before wanted before' wanted').2.1

theorem done_residue {rs : List Record} (none : ∀ r ∈ rs, r.status ≠ .zombie) :
    ∀ r ∈ rs.filterMap (doneRecord true), r.status ≠ .zombie := by
  intro r member
  obtain ⟨r',inside,becomes⟩ := List.mem_filterMap.mp member
  by_cases sent : r'.status = .processing
  · simp [doneRecord,sent] at becomes
  · rw [doneRecord,if_neg sent] at becomes
    cases becomes
    exact none r inside

theorem fail_residue {rs : List Record} (sending : ∃ r ∈ rs, r.status = .processing) :
    ∃ r ∈ rs.filterMap (doneRecord false), r.status = .zombie := by
  obtain ⟨r,member,status⟩ := sending
  refine ⟨{r with status := .zombie},List.mem_filterMap.mpr ⟨r,member,?_⟩,rfl⟩
  simp [doneRecord,status]

theorem Stepped.kept {w : World} {call : Call} {c c' : State Sia} (stepped : Stepped w c call c') (kept : Kept c)
    (delivering : ¬ GivesUp c call) (fits : c'.proto.fits = true) : Kept c' := by
  have settled := stepped.settled kept.settled fits
  have same (waiting : c'.waiting = c.waiting) (proto : c'.proto = c.proto) (left : records c'.buf = records c.buf) :
      Kept c' := by
    refine ⟨settled,?_,?_⟩
    · rw [NoResidue,left]
      exact kept.none
    · rw [waiting,proto,left]
      exact kept.sending
  have idle (none : NoResidue c') (waiting : c'.waiting = false) (unready : c'.proto.packetOk = false) : Kept c' :=
    ⟨settled,none,fun sending => absurd sending (by simp [waiting,unready])⟩
  have reread {cfg : Config} (rereads : Rereads (cmsProtoSiaIp w) cfg c c') : Kept c' := by
    refine ⟨settled,?_,?_⟩
    · rw [NoResidue,rereads.buf]
      exact kept.none
    · rintro (waiting | ready)
      · rw [rereads.buf]
        exact kept.sending (Or.inl (rereads.waiting.symm.trans waiting))
      · rw [rereads.proto] at ready
        exact absurd ready (by simp [cmsProtoSiaIp,siaProtoReinit])
  cases stepped with
  | reinit cfg rereads => exact reread rereads
  | newEvent event => exact kept
  | udpRx data port received =>
    cases received with
    | ignored _ _ _ _ waiting buf proto => exact same waiting (proto.elim id id) (by rw [buf])
    | refused own waiting nak ends => exact absurd ⟨own,waiting,nak⟩ delivering
    | acked _ _ _ ends =>
      apply idle _ ends.waiting
      · rw [ends.proto]
        rfl
      · rw [NoResidue,ends.records]
        exact done_residue kept.none
  | mainProcess env processed =>
    cases processed with
    | rest _ alike => exact same alike.waiting alike.proto (by rw [alike.buf])
    | resent _ _ alike => exact same alike.waiting alike.proto (by rw [alike.buf])
    | reread _ cfg rereads => exact reread rereads
    | failed set waiting late retried => exact absurd ⟨set,Or.inl ⟨waiting,late,retried⟩⟩ delivering
    | prepared _ idle ready sends proto buf =>
      refine ⟨settled,?_,fun _ => ?_⟩
      · rw [NoResidue,buf]
        exact kept.none
      · rw [buf]
        exact kept.sending (Or.inr ready)
    | nothing _ idle _ _ _ _ proto _ waiting _ left => exact same (waiting.trans idle.symm) proto left
    | refused set idle unready r new takes unreported =>
      refine absurd ⟨set,Or.inr ⟨idle,unready,r,new,takes,?_⟩⟩ delivering
      have reported : (siaProtoNewEvent w c.proto r.event).2 = (siaEventCode r.event.id).isSome :=
        newEvent_reported unready
      exact Option.isNone_iff_eq_none.mp (by simpa using reported.symm.trans unreported)
    | taken _ _ _ r takes =>
      obtain ⟨none,sending⟩ := Takes.residue takes kept.none
      exact ⟨settled,none,fun _ => sending⟩

theorem step_kept (state : Except Fault (State Sia)) (input : Input) (kept : Run.Unless tooLong Kept state)
    (delivering : Delivering state input) : Run.Unless tooLong Kept (step state input) := by
  cases state with
  | error fault => exact kept
  | ok c =>
    apply step_holds kept.settled.sound
    intro c' stepped fits
    exact stepped.kept kept (delivering c rfl) fits

theorem Stepped.residue {w : World} {call : Call} {c c' : State Sia} (stepped : Stepped w c call c') (kept : Kept c)
    (gives : GivesUp c call) : c'.proto.fits = true ∧ ¬ NoResidue c' := by
  have ended {c₀ : State Sia} (ends : Ends (cmsProtoSiaIp w) false c₀ c') (proto : c₀.proto = c.proto)
      (buf : c₀.buf = c.buf) (waiting : c.waiting = true) : c'.proto.fits = true ∧ ¬ NoResidue c' := by
    constructor
    · rw [ends.proto,proto]
      exact kept.settled.proto.fits
    · rw [NoResidue,ends.records,buf]
      obtain ⟨r,member,zombie⟩ := fail_residue (kept.sending (Or.inl waiting))
      exact fun none => none r member zombie
  cases stepped with
  | reinit cfg rereads => exact gives.elim
  | newEvent event => exact gives.elim
  | udpRx data port received =>
    obtain ⟨own,waiting,nak⟩ := gives
    cases received with
    | ignored other =>
      refine absurd ⟨own,waiting,?_⟩ other
      rw [cmsProtoSiaIp_reply,nak]
      decide
    | refused _ _ _ ends => exact ended ends rfl rfl waiting
    | acked _ _ ack =>
      rw [cmsProtoSiaIp_reply,nak] at ack
      exact absurd ack (by decide)
  | mainProcess env processed =>
    obtain ⟨set,what⟩ := gives
    have next (idle : c.waiting = false) : c.proto.packetOk = false ∧
        ∃ r new, Takes env.user (records c.buf) new r ∧ siaEventCode r.event.id = none := by
      rcases what with ⟨waiting,_⟩ | ⟨_,rest⟩
      · exact absurd (idle.symm.trans waiting) (by simp)
      · exact rest
    cases processed with
    | rest closed =>
      rcases closed with unset | ⟨waiting,early⟩
      · exact absurd (set.symm.trans unset) (by simp)
      · rcases what with ⟨_,late,_⟩ | ⟨idle,_⟩
        · exact absurd late (Nat.not_le_of_lt early)
        · exact absurd (idle.symm.trans waiting) (by simp)
    | resent waiting few =>
      rcases what with ⟨_,_,retried⟩ | ⟨idle,_⟩
      · exact absurd retried (Nat.not_le_of_lt few)
      · exact absurd (idle.symm.trans waiting) (by simp)
    | reread unset => exact absurd (set.symm.trans unset) (by simp)
    | failed _ waiting _ _ ends => exact ended ends rfl rfl waiting
    | prepared _ idle ready =>
      obtain ⟨unready,_⟩ := next idle
      exact absurd (unready.symm.trans ready) (by simp)
    | nothing _ idle _ empty =>
      obtain ⟨_,r,new,takes,_⟩ := next idle
      obtain ⟨pre,post,split,_⟩ := takes.found
      exact absurd takes.wanted (empty r (by simp [split]))
    | refused _ _ unready r new takes unreported proto _ _ _ _ _ left =>
      constructor
      · rw [proto]
        exact newEvent_unreported_fits unready unreported kept.settled.proto.fits
      · obtain ⟨_,sending⟩ := Takes.residue takes kept.none
        obtain ⟨r',member,zombie⟩ := fail_residue sending
        intro none
        rw [NoResidue,left] at none
        exact none r' member zombie
    | taken _ idle unready r takes reported =>
      obtain ⟨_,r',new,takes',unknown⟩ := next idle
      obtain rfl := Takes.unique takes takes'
      have known : (siaProtoNewEvent w c.proto r.event).2 = (siaEventCode r.event.id).isSome := newEvent_reported unready
      rw [unknown] at known
      exact absurd (known.symm.trans reported) (by simp)

theorem step_residue (state : Except Fault (State Sia)) (input : Input) (kept : Run.Unless tooLong Kept state)
    (givesUp : ¬ Delivering state input) : ¬ Run.Unless tooLong NoResidue (step state input) := by
  obtain ⟨c,rfl,gives⟩ : ∃ c, state = .ok c ∧ GivesUp c input.call := by
    simpa [Delivering] using givesUp
  obtain ⟨c',stepped,ran⟩ := step_stepped kept.settled.sound input
  obtain ⟨fits,residue⟩ := stepped.residue kept gives
  rw [ran,if_pos fits]
  exact residue

theorem started_ready (cfg : Config) (b : Buf) :
    (started cfg b).waiting = false ∧ (started cfg b).proto.packetOk = false := by
  have reread := cmsReinit_rereads (cmsProtoSiaIp untexted) cfg
    {statics with buf := init emptySlots cmsBufSize, waiting := false, retry := 0}
  refine ⟨reread.waiting,?_⟩
  rw [started,cmsInit]
  dsimp only
  rw [reread.proto]
  rfl

/-- All along a run no slot is held by a record that was given up exactly when no
event is ever given up. -/
theorem run_residue_iff (cfg : Config) {b : Buf} (sound : Sound b) (pending : ∀ r ∈ records b, r.status = .pending)
    (inputs : List Input) :
    (∀ first rest, inputs = first ++ rest → Run.Unless tooLong NoResidue (Run.run step (.ok (started cfg b)) first)) ↔
      Run.Admits step Delivering (.ok (started cfg b)) inputs := by
  apply Run.always_iff_admits step Delivering (Run.Unless tooLong Kept) (Run.Unless tooLong NoResidue)
  · exact fun _ => Run.Unless.mono fun _ => Kept.none
  · exact step_kept
  · exact step_residue
  · obtain ⟨idle,unready⟩ := started_ready cfg b
    refine ⟨started_settled cfg sound,fun r member => ?_,fun sending => ?_⟩
    · rw [pending r member]
      decide
    · exact absurd sending (by simp [idle,unready])

def shutDownEvent : Event := ⟨2,⟨24,1,1,12,0,0⟩,EventId.shutDown.code,EventSource.unit.code⟩

/-- A shutdown has no SIA code: its record stays in its slot, dead. -/
theorem shutDown_residue : ¬ ∀ (cfg : Config) (b : Buf), Sound b → (∀ r ∈ records b, r.status = .pending) →
    ∀ inputs, Run.Unless tooLong NoResidue (Run.run step (.ok (started cfg b)) inputs) := by
  intro always
  obtain ⟨b,added,sound,waiting⟩ := stocked_sound [shutDownEvent] (by rfl)
  have none := always demoConfig b sound (by simp [waiting,newRecord]) [send]
  have seen : (do
      let b ← stocked [shutDownEvent]
      let c ← step (.ok (started demoConfig b)) send
      .ok ((records c.buf).map Record.status)) = .ok [Status.zombie] := by decide +kernel
  rw [added,ok_bind] at seen
  rw [Run.run_cons] at none
  cases given : step (.ok (started demoConfig b)) send with
  | error fault => exact absurd seen (by simp [given,bind,Except.bind])
  | ok c =>
    rw [given,ok_bind] at seen
    rw [given] at none
    obtain ⟨r,member,zombie⟩ := List.mem_map.mp (Except.ok.inj seen ▸ List.mem_singleton.mpr rfl)
    exact none r member zombie

theorem doorAlarm_residue : ∃ b, Sound b ∧ records b = [doorAlarm] ∧ ∀ first rest, [send] = first ++ rest →
    Run.Unless tooLong NoResidue (Run.run step (.ok (started demoConfig b)) first) := by
  obtain ⟨b,_,sound,stocked⟩ := stocked_sound [alarmEvent] (by rfl)
  refine ⟨b,sound,stocked,(run_residue_iff demoConfig sound ?_ [send]).mpr ⟨?_,trivial⟩⟩
  · simp [stocked,newRecord]
  · rintro c same ⟨_,⟨waiting,_⟩ | ⟨_,_,r,new,takes,unknown⟩⟩
    · cases same
      exact absurd ((started_ready demoConfig b).1.symm.trans waiting) (by simp)
    · cases same
      obtain ⟨_,pre,post,split,_⟩ := takes
      have member : r ∈ records b := by
        rw [show records b = pre ++ r :: post from split]
        simp
      rw [stocked] at member
      cases List.mem_singleton.mp member
      exact absurd unknown (by decide)

theorem Stepped.dead {w : World} {call : Call} {c c' : State Sia} (stepped : Stepped w c call c') {r : Record}
    (member : r ∈ records c.buf) (zombie : r.status = .zombie) : r ∈ records c'.buf := by
  have done {rs : List Record} (delivered : Bool) (inside : r ∈ rs) : r ∈ rs.filterMap (doneRecord delivered) :=
    List.mem_filterMap.mpr ⟨r,inside,by simp [doneRecord,zombie]⟩
  have taken {user : Nat} {new : List Record} {r' : Record} (takes : Takes user (records c.buf) new r') : r ∈ new := by
    obtain ⟨wanted,pre,post,split,_,rfl⟩ := takes
    have other : r ≠ r' := by
      rintro rfl
      exact absurd (wanted.1.symm.trans zombie) (by decide)
    rw [split] at member
    rcases (by simpa [other] using member : r ∈ pre ∨ r ∈ post) with before | behind
    · simp [before]
    · simp [behind]
  cases stepped with
  | reinit cfg rereads =>
    rw [rereads.buf]
    exact member
  | newEvent event => exact member
  | udpRx data port received =>
    cases received with
    | ignored _ _ _ _ _ buf =>
      rw [buf]
      exact member
    | refused _ _ _ ends =>
      rw [ends.records]
      exact done false member
    | acked _ _ _ ends =>
      rw [ends.records]
      exact done true member
  | mainProcess env processed =>
    cases processed with
    | rest _ same =>
      rw [same.buf]
      exact member
    | resent _ _ same =>
      rw [same.buf]
      exact member
    | reread _ _ rereads =>
      rw [rereads.buf]
      exact member
    | failed _ _ _ _ ends =>
      rw [ends.records]
      exact done false member
    | prepared _ _ _ _ _ buf =>
      rw [buf]
      exact member
    | nothing _ _ _ _ _ _ _ _ _ _ same =>
      rw [same]
      exact member
    | refused _ _ _ _ new takes _ _ _ _ _ _ _ left =>
      rw [left]
      exact done false (taken takes)
    | taken _ _ _ _ takes => exact taken takes

/-- The slot of a record that was given up is lost for the rest of the run. -/
theorem run_dead {c : State Sia} (settled : Settled c) {r : Record} (member : r ∈ records c.buf)
    (zombie : r.status = .zombie) (inputs : List Input) :
    Run.Unless tooLong (fun c' => r ∈ records c'.buf) (Run.run step (.ok c) inputs) := by
  have kept : Run.Unless tooLong (fun c' => Settled c' ∧ r ∈ records c'.buf) (Run.run step (.ok c) inputs) := by
    apply Run.run_invariant step (fun _ _ => True) (Run.Unless tooLong fun c' => Settled c' ∧ r ∈ records c'.buf) ?_ (.ok c) inputs
      (show Settled c ∧ r ∈ records c.buf from ⟨settled,member⟩) (Run.admits_of_forall step _ _ inputs fun _ _ _ => trivial)
    intro state input held _
    cases state with
    | error fault => exact held
    | ok c =>
      apply step_holds held.1.sound
      intro c' stepped fits
      exact ⟨stepped.settled held.1 fits,stepped.dead held.2 zombie⟩
  exact kept.mono fun _ => And.right

end Residue

end JcaFirmware.CmsRun
