import JcaFirmware.ModemData
import Mathlib.Data.List.FinRange

/-! The UDP sockets of the modem (`modem/modem_bg95.c`). Wherever a call waits for a command, any lines may come;
the clock is a number that does not wrap. The trace, newest event first, holds the deadline that a bind leaves and
the closing of idle sockets. -/
namespace JcaFirmware.UdpSockets
open Foundation Modem

inductive Event
  | bound (i : Fin sockets) (now tmout : Nat)
  | idleClosed (i : Fin sockets) (now : Nat)
deriving DecidableEq, Repr

structure State where
  modem : Modem.State
  trace : List Event

/-- What comes while `_udp_bind` waits: for the closing, for the command, and for `+QIOPEN`. -/
structure Bind where
  now : Nat
  close : List Line
  command : List Line
  ok : Bool
  poll : List Line
  expired : Bool
deriving DecidableEq, Repr

structure Packet where
  dstIp : UInt32
  dstPort : UInt16
  datalen : Nat
deriving DecidableEq, Repr

structure Send where
  first : Bind
  retryClose : List Line
  delay : List Line
  second : Bind
  command : List Line
  sent : Bool
  failClose : List Line
deriving DecidableEq, Repr

/-- What comes while one socket is looked after; the answers to `AT+QIRD` go by the tries left. -/
structure Upkeep where
  close : List Line
  detach : List Line
  fetch : Nat → List Line × Bool

structure RxTask where
  now : Nat
  upkeep : Fin sockets → Upkeep
  later : Nat
  detach : List Line

inductive Input
  | line (line : Line)
  | send (packet : Packet) (send : Send)
  | rxTask (task : RxTask)

def socketTimeout : Nat := 15 * 60 * osTimerSecond

variable (sdk : Sdk)

section Sending

def receive (m : Modem.State) (lines : List Line) : Modem.State := Run.run (modemAtRx sdk) m lines

def holds (m : Modem.State) (ip : UInt32) (port : UInt16) (i : Fin sockets) : Bool :=
  (m.bg95.udpSocket i).ip = ip && (m.bg95.udpSocket i).port = port

def unused (m : Modem.State) (i : Fin sockets) : Bool := (m.bg95.udpSocket i).ip = 0

def socketId (m : Modem.State) (ip : UInt32) (port : UInt16) : Fin sockets × Modem.State :=
  match (List.finRange sockets).find? (holds m ip port) with
  | some i => (i,m)
  | none =>
    match (List.finRange sockets).find? (unused m) with
    | some i => (i,m)
    | none => (m.bg95.socket + 1,{m with bg95 := {m.bg95 with socket := m.bg95.socket + 1}})

def socketClose (m : Modem.State) (lines : List Line) (i : Fin sockets) : Modem.State :=
  (receive sdk m lines).setSocket i .zero

def touch (m : Modem.State) (now : Nat) (i : Fin sockets) : Modem.State :=
  let s := m.bg95.udpSocket i
  m.setSocket i {s with
    timer := if now + rxRetryTime < s.timer then now + rxRetryTime else s.timer
    tmout := now + socketTimeout
    noRxCnt := (s.noRxCnt + 1) % 2 ^ 16}

/-- The socket is closed if another destination had it, and is then to be opened. -/
def vacate (m : Modem.State) (close : List Line) (i : Fin sockets) : Modem.State :=
  let m := if unused m i then m else socketClose sdk m close i
  m.setSocket i {m.bg95.udpSocket i with ready := false}

def bound (m : Modem.State) (trace : List Event) (now : Nat) (i : Fin sockets) : State :=
  ⟨m,.bound i now (m.bg95.udpSocket i).tmout :: trace⟩

def udpBind (s : State) (bind : Bind) (ip : UInt32) (port : UInt16) : Bool × Fin sockets × State :=
  let (i,m) := socketId s.modem ip port
  let m := touch m bind.now i
  if holds m ip port i then (true,i,bound m s.trace bind.now i)
  else
    let m := receive sdk (vacate sdk m bind.close i) bind.command
    if bind.ok = false then (false,i,⟨m,s.trace⟩)
    else
      let m := receive sdk m bind.poll
      if bind.expired = false ∧ (m.bg95.udpSocket i).ready then
        (true,i,bound (m.setSocket i {m.bg95.udpSocket i with ip, port}) s.trace bind.now i)
      else (false,i,⟨m,s.trace⟩)

/-- The first part of `modem_bg95_udp_send`, with the retry. -/
def bindTwice (s : State) (packet : Packet) (send : Send) : Bool × Fin sockets × State :=
  match udpBind sdk s send.first packet.dstIp packet.dstPort with
  | (true,i,s) => (true,i,s)
  | (false,i,s) =>
    let m := receive sdk (socketClose sdk s.modem send.retryClose i) send.delay
    udpBind sdk ⟨m,s.trace⟩ send.second packet.dstIp packet.dstPort

def modemBg95UdpSend (s : State) (packet : Packet) (send : Send) : Bool × State :=
  if packet.dstIp = 0 then (false,s)
  else
    match bindTwice sdk s packet send with
    | (false,_,s) => (false,s)
    | (true,i,s) =>
      if 512 < packet.datalen then (false,s)
      else
        let m := {s.modem with bg95 := {s.modem.bg95 with txCnt := (s.modem.bg95.txCnt + 1) % 2 ^ 16}}
        let m := receive sdk m send.command
        if send.sent then (true,⟨m,s.trace⟩) else (false,⟨socketClose sdk m send.failClose i,s.trace⟩)

end Sending

section Maintenance

def modemDataDisconnect (m : Modem.State) (detach : List Line) : Modem.State :=
  let m := {m with flags := {m.flags with dataUp := false}}
  if m.flags.dataReady then
    let m := receive sdk m detach
    {m with flags := {m.flags with dataReady := false}}
  else m

theorem lines_run (calls : List ModemData.Call) (m : Modem.State) (lines : List Line) :
    Run.run (ModemData.step sdk) ⟨m,calls⟩ (lines.map .line) = ⟨receive sdk m lines,calls⟩ := by
  induction lines generalizing m with
  | nil => rfl
  | cons line lines ih => exact ih (modemAtRx sdk m line)

/-- Disconnecting at one go is what it is in steps, with the lines where the command waits. -/
theorem modemDataDisconnect_steps (m : Modem.State) (detach : List Line) (outcome : ModemData.Outcome)
    (ready : m.flags.dataReady) :
    (Run.run (ModemData.step sdk) ⟨m,[]⟩ ([.modemDataDisconnect,.call 0 outcome] ++ detach.map .line ++
      [.call 0 outcome,.call 0 outcome])).modem = modemDataDisconnect sdk m detach := by
  have begun : Run.run (ModemData.step sdk) ⟨m,[]⟩ [.modemDataDisconnect,.call 0 outcome] =
      ⟨{m with flags := {m.flags with dataUp := false}},[.detach]⟩ := by
    simp [Run.run,ModemData.step,ModemData.begin,ModemData.proceed,ModemData.callStep,ready]
  rw [Run.run_append,Run.run_append,begun,lines_run]
  unfold modemDataDisconnect
  rw [if_pos ready]
  rfl

def fetch (m : Modem.State) (now : Nat) (i : Fin sockets) (answers : Nat → List Line × Bool) : Nat → Modem.State
  | 0 => m
  | limit + 1 =>
    if (m.bg95.udpSocket i).rx then
      let m := m.setSocket i {m.bg95.udpSocket i with rx := false}
      let m := {m with bg95 := {m.bg95 with rxUdpSocket := i}}
      let m := receive sdk m (answers limit).1
      let s := m.bg95.udpSocket i
      let s := if (answers limit).2 then {s with timer := now + 60 * osTimerSecond} else {s with ip := 0}
      fetch (m.setSocket i s) now i answers limit
    else m

def poll (m : Modem.State) (now : Nat) (i : Fin sockets) : Modem.State :=
  let s := m.bg95.udpSocket i
  if s.ip ≠ 0 ∧ s.port ≠ 0 ∧ s.timer < now then m.setSocket i {s with rx := true, timer := now + 60 * osTimerSecond} else m

/-- The loop body of `_socket_maintenace`. -/
def maintain (s : State) (now : Nat) (i : Fin sockets) (upkeep : Upkeep) : State :=
  let u := s.modem.bg95.udpSocket i
  if u.ip ≠ 0 ∧ u.port ≠ 0 ∧ u.tmout < now then ⟨socketClose sdk s.modem upkeep.close i,.idleClosed i now :: s.trace⟩
  else if u.ip ≠ 0 ∧ u.port ≠ 0 ∧ 10 < u.noRxCnt ∧ u.rxTime + 60 * osTimerSecond < now then
    ⟨modemDataDisconnect sdk (socketClear s.modem) upkeep.detach,s.trace⟩
  else
    ⟨fetch sdk (poll s.modem now i) now i upkeep.fetch 4,s.trace⟩

def socketMaintenace (s : State) (now : Nat) (upkeep : Fin sockets → Upkeep) : State :=
  (List.finRange sockets).foldl (fun s i => maintain sdk s now i (upkeep i)) s

def modemBg95UdpRxTask (s : State) (task : RxTask) : State :=
  let s := socketMaintenace sdk s task.now task.upkeep
  let b := s.modem.bg95
  if b.timerRxTimeout ≠ 0 ∧ 10 < b.txCnt ∧ b.timerRxTimeout < task.later then
    let m := modemDataDisconnect sdk (socketClear s.modem) task.detach
    ⟨{m with bg95 := {m.bg95 with timerRxTimeout := 0}},s.trace⟩
  else s

end Maintenance

def step (s : State) : Input → State
  | .line line => {s with modem := modemAtRx sdk s.modem line}
  | .send packet send => (modemBg95UdpSend sdk s packet send).2
  | .rxTask task => modemBg95UdpRxTask sdk s task

def initial (m : Modem.State) : State := ⟨socketClear m,[]⟩

section Deadlines

def boundAt (i : Fin sockets) : List Event → Option Nat
  | [] => none
  | .bound j now _ :: rest => if j = i then some now else boundAt i rest
  | .idleClosed .. :: rest => boundAt i rest

/-- Each bind leaves the full idle period, and no socket is closed as idle before it is over. -/
def Timely : List Event → Prop
  | [] => True
  | .bound _ now tmout :: rest => tmout = now + socketTimeout ∧ Timely rest
  | .idleClosed i now :: rest => (∃ time ∈ boundAt i rest, time + socketTimeout < now) ∧ Timely rest

instance : (trace : List Event) → Decidable (Timely trace)
  | [] => isTrue trivial
  | .bound _ now tmout :: rest =>
    have : Decidable (Timely rest) := instDecidableTimely rest
    inferInstanceAs (Decidable (tmout = now + socketTimeout ∧ _))
  | .idleClosed i now :: rest =>
    have : Decidable (Timely rest) := instDecidableTimely rest
    inferInstanceAs (Decidable ((∃ time ∈ boundAt i rest, time + socketTimeout < now) ∧ _))

def Unique (m : Modem.State) : Prop :=
  ∀ i j, unused m i = false → (m.bg95.udpSocket i).ip = (m.bg95.udpSocket j).ip →
    (m.bg95.udpSocket i).port = (m.bg95.udpSocket j).port → i = j

def deactivated (m : Modem.State) : List Line → Bool
  | [] => false
  | line :: lines => reportOf sdk m line = .pdpdeact || deactivated (modemAtRx sdk m line) lines

def Opens (m : Modem.State) (bind : Bind) (i : Fin sockets) : Prop :=
  bind.ok ∧ bind.expired = false ∧ ((receive sdk m (bind.command ++ bind.poll)).bg95.udpSocket i).ready

def chosen (m : Modem.State) (ip : UInt32) (port : UInt16) : Fin sockets := (socketId m ip port).1

def touched (m : Modem.State) (bind : Bind) (ip : UInt32) (port : UInt16) : Modem.State :=
  touch (socketId m ip port).2 bind.now (chosen m ip port)

def waiting (m : Modem.State) (bind : Bind) (ip : UInt32) (port : UInt16) : Modem.State :=
  vacate sdk (touched m bind ip port) bind.close (chosen m ip port)

/-- A socket that gets opened was free, and the context stays active meanwhile. -/
def BindOk (m : Modem.State) (bind : Bind) (ip : UInt32) (port : UInt16) : Prop :=
  holds m ip port (chosen m ip port) = false → Opens sdk (waiting sdk m bind ip port) bind (chosen m ip port) →
    unused m (chosen m ip port) ∧ deactivated sdk (waiting sdk m bind ip port) (bind.command ++ bind.poll) = false

/-- The binds of a send, each with the state that it starts from. -/
def bindsOf (s : State) (packet : Packet) (send : Send) : List (Modem.State × Bind) :=
  if packet.dstIp = 0 then []
  else
    match udpBind sdk s send.first packet.dstIp packet.dstPort with
    | (true,_) => [(s.modem,send.first)]
    | (false,i,next) =>
      [(s.modem,send.first),(receive sdk (socketClose sdk next.modem send.retryClose i) send.delay,send.second)]

def StepOk (s : State) : Input → Prop
  | .send packet send => ∀ bind ∈ bindsOf sdk s packet send, BindOk sdk bind.1 bind.2 packet.dstIp packet.dstPort
  | _ => True

def Sound (s : State) : Prop := Timely s.trace ∧ Unique s.modem

structure Inv (s : State) : Prop where
  timely : Timely s.trace
  deadline : ∀ i, unused s.modem i = false →
    ∃ time, boundAt i s.trace = some time ∧ (s.modem.bg95.udpSocket i).tmout = time + socketTimeout

end Deadlines

section Lines

/-- Of a socket, what says to whom it belongs and for how long. -/
def binding (s : UdpSocket) : UInt32 × UInt16 × Nat := (s.ip,s.port,s.tmout)

@[simp] theorem setSocket_get (m : Modem.State) (i j : Fin sockets) (s : UdpSocket) :
    (m.setSocket i s).bg95.udpSocket j = if j = i then s else m.bg95.udpSocket j :=
  Function.update_apply m.bg95.udpSocket i s j

variable (m : Modem.State) (line : Line) (i : Fin sockets)

theorem applyUrc_bg95 (urc : Urc) : (applyUrc sdk m urc).bg95 = m.bg95 := by
  cases urc with
  | cmeError p =>
    simp only [applyUrc,cmeError]
    split_ifs <;> rfl
  | creg p =>
    simp only [applyUrc,creg]
    split_ifs <;> rfl
  | cereg p =>
    simp only [applyUrc,cereg]
    split_ifs <;> rfl
  | cgreg p =>
    simp only [applyUrc,cgreg]
    split_ifs <;> rfl
  | cpms p =>
    simp only [applyUrc]
    split_ifs <;> rfl
  | csq p =>
    simp only [applyUrc,csq]
    split_ifs <;> rfl
  | cmsError | cmti | cdsi | callStop | ring | clip | cpin => rfl

theorem setSocket_binding (j : Fin sockets) (s : UdpSocket) (same : binding s = binding (m.bg95.udpSocket j)) :
    binding ((m.setSocket j s).bg95.udpSocket i) = binding (m.bg95.udpSocket i) := by
  rw [setSocket_get]
  split_ifs with this
  · rw [this,same]
  · rfl

theorem udpData_binding : binding ((udpData m line).bg95.udpSocket i) = binding (m.bg95.udpSocket i) := by
  unfold udpData
  dsimp only
  split_ifs
  · exact setSocket_binding m i m.bg95.rxUdpSocket _ rfl
  · rfl

theorem recv_binding (p : List UInt8) : binding ((recv sdk m p).bg95.udpSocket i) = binding (m.bg95.udpSocket i) := by
  unfold recv
  cases sdk.parseNumber p with
  | none => rfl
  | some number =>
    dsimp only
    split_ifs
    · exact setSocket_binding m i _ _ rfl
    · rfl

theorem qird_binding (p : List UInt8) : binding ((qird sdk m p).bg95.udpSocket i) = binding (m.bg95.udpSocket i) := by
  unfold qird
  cases sdk.parseNumber p with
  | none => rfl
  | some number =>
    dsimp only
    split_ifs
    · rfl
    · exact setSocket_binding m i _ _ rfl

theorem urc_keeps_context (urc : Urc) : urc.report ≠ .pdpdeact := by
  cases urc <;> simp [Urc.report]
  split_ifs <;> simp

theorem applyBg95Urc_binding (src : List UInt8) (urc : Bg95Urc) :
    binding ((applyBg95Urc sdk m src urc).bg95.udpSocket i) =
      if urc.report = .pdpdeact then binding .zero else binding (m.bg95.udpSocket i) := by
  cases urc with
  | recv p => exact recv_binding sdk m i p
  | qird p => exact qird_binding sdk m i p
  | dnsgip =>
    change binding ((applyBg95Urc sdk m src .dnsgip).bg95.udpSocket i) = binding (m.bg95.udpSocket i)
    unfold applyBg95Urc
    dsimp only
    split_ifs <;> rfl
  | qiopen p =>
    unfold applyBg95Urc
    dsimp only
    cases opened sdk p with
    | none => rfl
    | some j => exact setSocket_binding m i j _ rfl
  | pdpdeact | powerDown | servingCell | qjdr => rfl

theorem modemAtRx_binding :
    binding ((modemAtRx sdk m line).bg95.udpSocket i) =
      if reportOf sdk m line = .pdpdeact then binding .zero else binding (m.bg95.udpSocket i) := by
  apply modemAtRx_cases sdk m line fun next report =>
    binding (next.bg95.udpSocket i) = if report = .pdpdeact then binding .zero else binding (m.bg95.udpSocket i)
  · exact fun _ => rfl
  · intro modemAt urc
    rw [applyUrc_bg95,if_neg (urc_keeps_context urc)]
  · exact fun _ => udpData_binding _ line i
  · exact fun _ urc => applyBg95Urc_binding sdk _ i line.rxBuf urc

theorem receive_binding (lines : List Line) :
    binding ((receive sdk m lines).bg95.udpSocket i) =
      if deactivated sdk m lines then binding .zero else binding (m.bg95.udpSocket i) := by
  induction lines generalizing m with
  | nil => rfl
  | cons line lines ih =>
    change binding ((receive sdk (modemAtRx sdk m line) lines).bg95.udpSocket i) = _
    rw [ih,modemAtRx_binding]
    cases later : deactivated sdk (modemAtRx sdk m line) lines <;> simp [deactivated,later]

end Lines

section Frame

/-- No socket gets another binding; some may be freed. -/
def Frees (m m' : Modem.State) : Prop :=
  ∀ i, unused m' i ∨ binding (m'.bg95.udpSocket i) = binding (m.bg95.udpSocket i)

variable {m m' m'' : Modem.State} {i j : Fin sockets} {s : State}

theorem binding_ip {s s' : UdpSocket} (same : binding s = binding s') : s.ip = s'.ip := congrArg Prod.fst same

theorem binding_port {s s' : UdpSocket} (same : binding s = binding s') : s.port = s'.port :=
  congrArg (fun b => b.2.1) same

theorem binding_tmout {s s' : UdpSocket} (same : binding s = binding s') : s.tmout = s'.tmout :=
  congrArg (fun b => b.2.2) same

theorem unused_congr (same : (m'.bg95.udpSocket i).ip = (m.bg95.udpSocket j).ip) : unused m' i = unused m j :=
  congrArg (fun ip : UInt32 => decide (ip = 0)) same

theorem unused_of_binding (same : binding (m'.bg95.udpSocket i) = binding (m.bg95.udpSocket i)) :
    unused m' i = unused m i := unused_congr (binding_ip same)

theorem Frees.refl (m : Modem.State) : Frees m m := fun _ => Or.inr rfl

theorem Frees.trans (first : Frees m m') (second : Frees m' m'') : Frees m m'' := by
  intro i
  rcases second i with freed | same
  · exact Or.inl freed
  · rw [unused_of_binding same,same]
    exact first i

theorem Frees.of_bg95 (same : m'.bg95.udpSocket = m.bg95.udpSocket) : Frees m m' := by
  intro i
  rw [same]
  exact Or.inr rfl

theorem Frees.set (m : Modem.State) (i : Fin sockets) (s : UdpSocket)
    (kept : s.ip = 0 ∨ binding s = binding (m.bg95.udpSocket i)) : Frees m (m.setSocket i s) := by
  intro j
  by_cases this : j = i
  · subst this
    simpa [unused] using kept
  · simp [this]

theorem Frees.receive (m : Modem.State) (lines : List Line) : Frees m (receive sdk m lines) := by
  intro i
  have received := receive_binding sdk m i lines
  split_ifs at received
  · left
    exact decide_eq_true (binding_ip received)
  · exact Or.inr received

theorem Frees.close (m : Modem.State) (lines : List Line) (i : Fin sockets) : Frees m (socketClose sdk m lines i) :=
  (Frees.receive sdk m lines).trans (Frees.set _ i .zero (Or.inl rfl))

theorem Frees.clear (m : Modem.State) : Frees m (socketClear m) := fun _ => Or.inl rfl

theorem Frees.disconnect (m : Modem.State) (detach : List Line) : Frees m (modemDataDisconnect sdk m detach) := by
  unfold modemDataDisconnect
  dsimp only
  split_ifs
  · exact Frees.receive sdk {m with flags := {m.flags with dataUp := false}} detach
  · exact Frees.refl m

theorem Frees.fetch (m : Modem.State) (now : Nat) (i : Fin sockets) (answers : Nat → List Line × Bool) (limit : Nat) :
    Frees m (fetch sdk m now i answers limit) := by
  induction limit generalizing m with
  | zero => exact Frees.refl m
  | succ limit ih =>
    unfold UdpSockets.fetch
    split
    · refine Frees.trans ?_ (ih _)
      refine Frees.trans ?_ (Frees.set _ i _ ?_)
      · refine Frees.trans ?_ (Frees.receive sdk _ (answers limit).1)
        exact Frees.set m i {m.bg95.udpSocket i with rx := false} (Or.inr rfl)
      · split_ifs
        · exact Or.inr rfl
        · exact Or.inl rfl
    · exact Frees.refl m

theorem Frees.poll (m : Modem.State) (now : Nat) (i : Fin sockets) : Frees m (poll m now i) := by
  unfold UdpSockets.poll
  dsimp only
  split
  · exact Frees.set m i _ (Or.inr rfl)
  · exact Frees.refl m

theorem Frees.kept (frees : Frees m m') (used : unused m' i = false) :
    binding (m'.bg95.udpSocket i) = binding (m.bg95.udpSocket i) := by
  rcases frees i with freed | same
  · rw [used] at freed
    cases freed
  · exact same

theorem Frees.unique (frees : Frees m m') (unique : Unique m) : Unique m' := by
  intro i j used ip port
  have usedToo : unused m' j = false := (unused_congr ip).symm.trans used
  have first := frees.kept used
  have second := frees.kept usedToo
  apply unique i j
  · rw [← unused_of_binding first]
    exact used
  · rw [← binding_ip first,← binding_ip second,ip]
  · rw [← binding_port first,← binding_port second,port]

theorem Inv.frees (inv : Inv s) (frees : Frees s.modem m) : Inv ⟨m,s.trace⟩ where
  timely := inv.timely
  deadline i used := by
    have same := frees.kept used
    obtain ⟨time,bound,tmout⟩ := inv.deadline i (by rw [← unused_of_binding same]; exact used)
    exact ⟨time,bound,(binding_tmout same).trans tmout⟩

end Frame

section Binding

variable (m : Modem.State) (bind : Bind) (ip : UInt32) (port : UInt16)

theorem socketId_sockets : (socketId m ip port).2.bg95.udpSocket = m.bg95.udpSocket := by
  unfold socketId
  cases (List.finRange sockets).find? (holds m ip port) with
  | some i => rfl
  | none => cases (List.finRange sockets).find? (unused m) <;> rfl

/-- A socket is taken that is not the destination's only where none is. -/
theorem chosen_fresh (fresh : holds m ip port (chosen m ip port) = false) (i : Fin sockets) : holds m ip port i = false := by
  unfold chosen socketId at fresh
  cases found : (List.finRange sockets).find? (holds m ip port) with
  | some j =>
    rw [found] at fresh
    have held := List.find?_some found
    rw [fresh] at held
    cases held
  | none => exact Bool.eq_false_iff.mpr (List.find?_eq_none.mp found i (List.mem_finRange i))

theorem touch_get (now : Nat) (i j : Fin sockets) : ((touch m now i).bg95.udpSocket j).ip = (m.bg95.udpSocket j).ip ∧
    ((touch m now i).bg95.udpSocket j).port = (m.bg95.udpSocket j).port := by
  by_cases this : j = i
  · subst this
    simp [touch]
  · simp [touch,this]

theorem touched_unused (i : Fin sockets) : unused (touched m bind ip port) i = unused m i := by
  unfold unused touched
  rw [(touch_get _ _ _ _).1,socketId_sockets]

theorem touched_holds (i : Fin sockets) : holds (touched m bind ip port) ip port i = holds m ip port i := by
  unfold holds touched
  rw [(touch_get _ _ _ _).1,(touch_get _ _ _ _).2,socketId_sockets]

theorem touched_other {i : Fin sockets} (other : i ≠ chosen m ip port) :
    (touched m bind ip port).bg95.udpSocket i = m.bg95.udpSocket i := by
  unfold touched touch
  dsimp only
  rw [setSocket_get,if_neg other,socketId_sockets]

theorem touched_tmout :
    ((touched m bind ip port).bg95.udpSocket (chosen m ip port)).tmout = bind.now + socketTimeout := by
  unfold touched touch
  dsimp only
  rw [setSocket_get,if_pos rfl]

theorem vacate_unused (close : List Line) (i : Fin sockets) : unused (vacate sdk m close i) i := by
  unfold vacate
  dsimp only
  split_ifs with free
  · simpa [unused] using free
  · simp [unused,socketClose,UdpSocket.zero]

theorem vacate_frees (close : List Line) (i : Fin sockets) : Frees m (vacate sdk m close i) := by
  unfold vacate
  dsimp only
  split_ifs
  · exact Frees.set m i _ (Or.inr rfl)
  · exact (Frees.close sdk m close i).trans (Frees.set _ i _ (Or.inr rfl))

theorem vacate_tmout (close : List Line) (i : Fin sockets) :
    ((vacate sdk m close i).bg95.udpSocket i).tmout = if unused m i then (m.bg95.udpSocket i).tmout else 0 := by
  unfold vacate
  dsimp only
  split_ifs
  · simp
  · simp [socketClose,UdpSocket.zero]

theorem waiting_frees : Frees m (waiting sdk m bind ip port) := by
  intro i
  by_cases this : i = chosen m ip port
  · left
    rw [this]
    exact vacate_unused sdk _ bind.close _
  · rw [← touched_other m bind ip port this]
    exact vacate_frees sdk (touched m bind ip port) bind.close (chosen m ip port) i

def answered : Modem.State := receive sdk (waiting sdk m bind ip port) (bind.command ++ bind.poll)

theorem answered_tmout : ((answered sdk m bind ip port).bg95.udpSocket (chosen m ip port)).tmout =
    if unused m (chosen m ip port) ∧ deactivated sdk (waiting sdk m bind ip port) (bind.command ++ bind.poll) = false then
      bind.now + socketTimeout
    else 0 := by
  have received := binding_tmout (receive_binding sdk (waiting sdk m bind ip port) (chosen m ip port)
    (bind.command ++ bind.poll) |>.trans (apply_ite binding _ _ _).symm)
  have before := vacate_tmout sdk (touched m bind ip port) bind.close (chosen m ip port)
  rw [touched_unused,touched_tmout] at before
  unfold answered
  rw [received]
  cases deactivated sdk (waiting sdk m bind ip port) (bind.command ++ bind.poll) with
  | true => simp [UdpSocket.zero]
  | false => simpa [waiting] using before

def connected : Modem.State :=
  (answered sdk m bind ip port).setSocket (chosen m ip port)
    {(answered sdk m bind ip port).bg95.udpSocket (chosen m ip port) with ip, port}

/-- What a bind comes to: the socket was there, it is opened, or it is not. -/
theorem udpBind_cases (s : State) (result : Bool × Fin sockets × State → Prop)
    (found : holds s.modem ip port (chosen s.modem ip port) = true →
      result (true,chosen s.modem ip port,bound (touched s.modem bind ip port) s.trace bind.now (chosen s.modem ip port)))
    (opens : holds s.modem ip port (chosen s.modem ip port) = false →
      Opens sdk (waiting sdk s.modem bind ip port) bind (chosen s.modem ip port) →
      result (true,chosen s.modem ip port,
        bound (connected sdk s.modem bind ip port) s.trace bind.now (chosen s.modem ip port)))
    (fails : holds s.modem ip port (chosen s.modem ip port) = false →
      ¬ Opens sdk (waiting sdk s.modem bind ip port) bind (chosen s.modem ip port) →
      ∀ lines, result (false,chosen s.modem ip port,⟨receive sdk (waiting sdk s.modem bind ip port) lines,s.trace⟩)) :
    result (udpBind sdk s bind ip port) := by
  have append : receive sdk (receive sdk (waiting sdk s.modem bind ip port) bind.command) bind.poll =
      answered sdk s.modem bind ip port := (Run.run_append _ _ _ _).symm
  have unfolded : udpBind sdk s bind ip port =
      if holds (touched s.modem bind ip port) ip port (chosen s.modem ip port) then
        (true,chosen s.modem ip port,bound (touched s.modem bind ip port) s.trace bind.now (chosen s.modem ip port))
      else if bind.ok = false then
        (false,chosen s.modem ip port,⟨receive sdk (waiting sdk s.modem bind ip port) bind.command,s.trace⟩)
      else if bind.expired = false ∧ ((answered sdk s.modem bind ip port).bg95.udpSocket (chosen s.modem ip port)).ready then
        (true,chosen s.modem ip port,
          bound (connected sdk s.modem bind ip port) s.trace bind.now (chosen s.modem ip port))
      else (false,chosen s.modem ip port,⟨answered sdk s.modem bind ip port,s.trace⟩) := by
    unfold connected
    rw [← append]
    rfl
  rw [unfolded,touched_holds]
  by_cases held : holds s.modem ip port (chosen s.modem ip port) = true
  · rw [if_pos held]
    exact found held
  rw [if_neg held]
  have fresh := Bool.eq_false_iff.mpr held
  by_cases refused : bind.ok = false
  · rw [if_pos refused]
    exact fails fresh (fun opens => by rw [opens.1] at refused; cases refused) _
  rw [if_neg refused]
  by_cases ready : bind.expired = false ∧ ((answered sdk s.modem bind ip port).bg95.udpSocket (chosen s.modem ip port)).ready
  · rw [if_pos ready]
    exact opens fresh ⟨Bool.eq_true_of_not_eq_false refused,ready⟩
  · rw [if_neg ready]
    exact fails fresh (fun opens => ready opens.2) _

theorem connected_mine : ((connected sdk m bind ip port).bg95.udpSocket (chosen m ip port)).ip = ip ∧
    ((connected sdk m bind ip port).bg95.udpSocket (chosen m ip port)).port = port ∧
    ((connected sdk m bind ip port).bg95.udpSocket (chosen m ip port)).tmout =
      ((answered sdk m bind ip port).bg95.udpSocket (chosen m ip port)).tmout := by
  simp [connected]

theorem connected_other {i : Fin sockets} (other : i ≠ chosen m ip port) :
    unused (connected sdk m bind ip port) i ∨
      binding ((connected sdk m bind ip port).bg95.udpSocket i) = binding (m.bg95.udpSocket i) := by
  have frees := (waiting_frees sdk m bind ip port).trans (Frees.receive sdk _ (bind.command ++ bind.poll)) i
  simpa [connected,answered,unused,other] using frees

theorem held_ip {m : Modem.State} {ip : UInt32} {port : UInt16} {i : Fin sockets} :
    holds m ip port i = true ↔ (m.bg95.udpSocket i).ip = ip ∧ (m.bg95.udpSocket i).port = port := by
  simp [holds]

variable {m bind ip port} {s : State}

theorem used_kept {i j : Fin sockets}
    (others : ∀ j, j ≠ i → unused m j ∨ binding (m.bg95.udpSocket j) = binding (s.modem.bg95.udpSocket j))
    (other : j ≠ i) (used : unused m j = false) :
    binding (m.bg95.udpSocket j) = binding (s.modem.bg95.udpSocket j) := by
  rcases others j other with freed | same
  · rw [used] at freed
    cases freed
  · exact same

theorem Unique.bound (unique : Unique s.modem) {i : Fin sockets}
    (others : ∀ j, j ≠ i → unused m j ∨ binding (m.bg95.udpSocket j) = binding (s.modem.bg95.udpSocket j))
    (mine : (m.bg95.udpSocket i).ip = ip ∧ (m.bg95.udpSocket i).port = port)
    (alone : ∀ j, j ≠ i → holds s.modem ip port j = false) : Unique m := by
  -- another socket of the destination would have had it before
  have only (j : Fin sockets) (other : j ≠ i) (used : unused m j = false)
      (sameIp : (m.bg95.udpSocket j).ip = ip) (samePort : (m.bg95.udpSocket j).port = port) : False := by
    have before := used_kept others other used
    have held : holds s.modem ip port j = true := held_ip.mpr
      ⟨(binding_ip before).symm.trans sameIp,(binding_port before).symm.trans samePort⟩
    rw [alone j other] at held
    cases held
  intro a b used sameIp samePort
  have usedToo : unused m b = false := (unused_congr sameIp).symm.trans used
  by_cases first : a = i
  · subst first
    by_contra other
    exact only b (Ne.symm other) usedToo (sameIp.symm.trans mine.1) (samePort.symm.trans mine.2)
  by_cases second : b = i
  · subst second
    exact (only a first used (sameIp.trans mine.1) (samePort.trans mine.2)).elim
  have before := used_kept others first used
  have beforeToo := used_kept others second usedToo
  apply unique a b
  · rw [← unused_of_binding before]
    exact used
  · rw [← binding_ip before,← binding_ip beforeToo]
    exact sameIp
  · rw [← binding_port before,← binding_port beforeToo]
    exact samePort

theorem Unique.udpBind (unique : Unique s.modem) (some : ip ≠ 0) : Unique (udpBind sdk s bind ip port).2.2.modem := by
  apply udpBind_cases sdk bind ip port s fun result => Unique result.2.2.modem
  · intro held
    have mine := held_ip.mp held
    refine unique.bound (fun j other => Or.inr (congrArg binding (touched_other s.modem bind ip port other)))
      (held_ip.mp ((touched_holds s.modem bind ip port _).trans held)) fun j other => ?_
    by_contra more
    have also := held_ip.mp (Bool.eq_true_of_not_eq_false more)
    apply other
    exact unique j _ (by simpa [unused,also.1] using some) (also.1.trans mine.1.symm) (also.2.trans mine.2.symm)
  · intro fresh _
    obtain ⟨mineIp,minePort,_⟩ := connected_mine sdk s.modem bind ip port
    exact unique.bound (fun j other => connected_other sdk s.modem bind ip port other) ⟨mineIp,minePort⟩
      fun j _ => chosen_fresh s.modem ip port fresh j
  · intro _ _ lines
    exact ((waiting_frees sdk s.modem bind ip port).trans (Frees.receive sdk _ lines)).unique unique

/-- A bind keeps the invariant, where it leaves the whole idle period. -/
theorem Inv.bound (inv : Inv s) {i : Fin sockets} {now : Nat}
    (others : ∀ j, j ≠ i → unused m j ∨ binding (m.bg95.udpSocket j) = binding (s.modem.bg95.udpSocket j))
    (tmout : (m.bg95.udpSocket i).tmout = now + socketTimeout) : Inv (bound m s.trace now i) := by
  refine ⟨⟨tmout,inv.timely⟩,?_⟩
  intro j used
  by_cases this : j = i
  · subst this
    exact ⟨now,if_pos rfl,tmout⟩
  · have before := used_kept others this used
    obtain ⟨time,bound,deadline⟩ := inv.deadline j (by rw [← unused_of_binding before]; exact used)
    exact ⟨time,(if_neg (Ne.symm this)).trans bound,(binding_tmout before).trans deadline⟩

theorem Inv.udpBind (inv : Inv s) (ok : BindOk sdk s.modem bind ip port) : Inv (udpBind sdk s bind ip port).2.2 := by
  apply udpBind_cases sdk bind ip port s fun result => Inv result.2.2
  · intro _
    exact inv.bound (fun j other => Or.inr (congrArg binding (touched_other s.modem bind ip port other)))
      (touched_tmout s.modem bind ip port)
  · intro fresh opens
    refine inv.bound (fun j other => connected_other sdk s.modem bind ip port other) ?_
    rw [(connected_mine sdk s.modem bind ip port).2.2,answered_tmout,if_pos (ok fresh opens)]
  · intro _ _ lines
    exact inv.frees ((waiting_frees sdk s.modem bind ip port).trans (Frees.receive sdk _ lines))

theorem udpBind_broken (refused : ¬ BindOk sdk s.modem bind ip port) :
    (udpBind sdk s bind ip port).1 = true ∧ ¬ Timely (udpBind sdk s bind ip port).2.2.trace := by
  simp only [BindOk,Classical.not_imp] at refused
  obtain ⟨fresh,opens,spoiled⟩ := refused
  apply udpBind_cases sdk bind ip port s fun result => result.1 = true ∧ ¬ Timely result.2.2.trace
  · exact fun held => absurd held (by rw [fresh]; exact Bool.false_ne_true)
  · intro _ _
    refine ⟨rfl,fun timely => ?_⟩
    have tmout := (connected_mine sdk s.modem bind ip port).2.2
    rw [answered_tmout,if_neg spoiled] at tmout
    have full := tmout.symm.trans timely.1
    unfold socketTimeout osTimerSecond at full
    omega
  · exact fun _ fails => absurd opens fails

end Binding

section Steps

variable {s : State}

/-- Behind the bind, a send leaves the trace and frees sockets at most. -/
theorem send_after_bind (packet : Packet) (send : Send) (some : packet.dstIp ≠ 0) :
    (modemBg95UdpSend sdk s packet send).2.trace = (bindTwice sdk s packet send).2.2.trace ∧
      Frees (bindTwice sdk s packet send).2.2.modem (modemBg95UdpSend sdk s packet send).2.modem := by
  unfold modemBg95UdpSend
  rw [if_neg some]
  obtain ⟨success,i,next⟩ := bindTwice sdk s packet send
  cases success with
  | false => exact ⟨rfl,Frees.refl _⟩
  | true =>
    dsimp only
    have received := Frees.receive sdk
      {next.modem with bg95 := {next.modem.bg95 with txCnt := (next.modem.bg95.txCnt + 1) % 2 ^ 16}} send.command
    split_ifs
    · exact ⟨rfl,Frees.refl _⟩
    · exact ⟨rfl,received⟩
    · exact ⟨rfl,received.trans (Frees.close sdk _ send.failClose i)⟩

theorem retry_frees (next : State) (send : Send) (i : Fin sockets) :
    Frees next.modem (receive sdk (socketClose sdk next.modem send.retryClose i) send.delay) :=
  (Frees.close sdk next.modem send.retryClose i).trans (Frees.receive sdk _ send.delay)

theorem Unique.bindTwice (unique : Unique s.modem) (packet : Packet) (send : Send) (some : packet.dstIp ≠ 0) :
    Unique (UdpSockets.bindTwice sdk s packet send).2.2.modem := by
  unfold UdpSockets.bindTwice
  have first : Unique (UdpSockets.udpBind sdk s send.first packet.dstIp packet.dstPort).2.2.modem := unique.udpBind sdk some
  generalize UdpSockets.udpBind sdk s send.first packet.dstIp packet.dstPort = result at first ⊢
  obtain ⟨success,i,next⟩ := result
  cases success with
  | true => exact first
  | false =>
    have retry := (retry_frees sdk next send i).unique first
    exact Unique.udpBind sdk (s := ⟨_,next.trace⟩) retry some

theorem Inv.bindTwice (inv : Inv s) (packet : Packet) (send : Send) (some : packet.dstIp ≠ 0)
    (ok : StepOk sdk s (.send packet send)) : Inv (UdpSockets.bindTwice sdk s packet send).2.2 := by
  have first (admitted : BindOk sdk s.modem send.first packet.dstIp packet.dstPort) := inv.udpBind sdk admitted
  unfold UdpSockets.bindTwice
  simp only [StepOk,bindsOf,if_neg some] at ok
  generalize UdpSockets.udpBind sdk s send.first packet.dstIp packet.dstPort = result at ok first ⊢
  obtain ⟨success,i,next⟩ := result
  cases success with
  | true => exact first (ok _ (List.mem_singleton.mpr rfl))
  | false =>
    have retry := (first (ok (_,_) List.mem_cons_self)).frees (retry_frees sdk next send i)
    exact retry.udpBind sdk (ok (_,send.second) (by simp))

theorem bindTwice_broken (packet : Packet) (send : Send) (some : packet.dstIp ≠ 0)
    (refused : ¬ StepOk sdk s (.send packet send)) : ¬ Timely (bindTwice sdk s packet send).2.2.trace := by
  have first (spoiled : ¬ BindOk sdk s.modem send.first packet.dstIp packet.dstPort) := udpBind_broken sdk spoiled (s := s)
  unfold UdpSockets.bindTwice
  simp only [StepOk,bindsOf,if_neg some] at refused
  generalize udpBind sdk s send.first packet.dstIp packet.dstPort = result at refused first ⊢
  obtain ⟨success,i,next⟩ := result
  cases success with
  | true => exact (first (by simpa using refused)).2
  | false =>
    have admitted : BindOk sdk s.modem send.first packet.dstIp packet.dstPort := by
      by_contra spoiled
      exact absurd (first spoiled).1 Bool.false_ne_true
    have second : ¬ BindOk sdk (receive sdk (socketClose sdk next.modem send.retryClose i) send.delay) send.second
        packet.dstIp packet.dstPort := by simpa [admitted] using refused
    exact (udpBind_broken sdk second (s := ⟨_,next.trace⟩)).2

theorem maintain_cases (s : State) (now : Nat) (i : Fin sockets) (upkeep : Upkeep) :
    ∃ m, Frees s.modem m ∧ (maintain sdk s now i upkeep = ⟨m,s.trace⟩ ∨
      unused s.modem i = false ∧ (s.modem.bg95.udpSocket i).tmout < now ∧
        maintain sdk s now i upkeep = ⟨m,.idleClosed i now :: s.trace⟩) := by
  unfold maintain
  dsimp only
  split
  · rename_i idle
    exact ⟨_,Frees.close sdk s.modem upkeep.close i,Or.inr ⟨by simpa [unused] using idle.1,idle.2.2,rfl⟩⟩
  split
  · exact ⟨_,(Frees.clear s.modem).trans (Frees.disconnect sdk _ upkeep.detach),Or.inl rfl⟩
  · exact ⟨_,(Frees.poll s.modem now i).trans (Frees.fetch sdk _ now i upkeep.fetch 4),Or.inl rfl⟩

theorem maintain_frees (s : State) (now : Nat) (i : Fin sockets) (upkeep : Upkeep) :
    Frees s.modem (maintain sdk s now i upkeep).modem := by
  obtain ⟨m,frees,same | ⟨_,_,same⟩⟩ := maintain_cases sdk s now i upkeep
  · rw [same]
    exact frees
  · rw [same]
    exact frees

theorem Inv.maintain (inv : Inv s) (now : Nat) (i : Fin sockets) (upkeep : Upkeep) : Inv (maintain sdk s now i upkeep) := by
  obtain ⟨m,frees,same | ⟨used,late,same⟩⟩ := maintain_cases sdk s now i upkeep
  · rw [same]
    exact inv.frees frees
  · rw [same]
    obtain ⟨time,bound,deadline⟩ := inv.deadline i used
    rw [deadline] at late
    exact ⟨⟨⟨time,bound,late⟩,inv.timely⟩,(inv.frees frees).deadline⟩

theorem rxTask_cases (s : State) (task : RxTask) :
    ∃ m, modemBg95UdpRxTask sdk s task = ⟨m,(socketMaintenace sdk s task.now task.upkeep).trace⟩ ∧
      Frees (socketMaintenace sdk s task.now task.upkeep).modem m := by
  unfold modemBg95UdpRxTask
  generalize socketMaintenace sdk s task.now task.upkeep = kept
  dsimp only
  split
  · refine ⟨_,rfl,?_⟩
    exact ((Frees.clear _).trans (Frees.disconnect sdk _ task.detach)).trans (Frees.of_bg95 rfl)
  · exact ⟨kept.modem,rfl,Frees.refl kept.modem⟩

theorem socketMaintenace_kept (property : State → Prop) (now : Nat) (upkeep : Fin sockets → Upkeep)
    (kept : ∀ s i, property s → property (maintain sdk s now i (upkeep i))) (s : State) (holds : property s) :
    property (socketMaintenace sdk s now upkeep) :=
  Run.run_invariant (fun s i => maintain sdk s now i (upkeep i)) (fun _ _ => True) property
    (fun s i holds _ => kept s i holds) s (List.finRange sockets) holds
    (Run.admits_of_forall _ _ _ _ fun _ _ _ => trivial)

theorem Inv.rxTask (inv : Inv s) (task : RxTask) : Inv (modemBg95UdpRxTask sdk s task) := by
  obtain ⟨m,same,frees⟩ := rxTask_cases sdk s task
  rw [same]
  have kept := socketMaintenace_kept sdk Inv task.now task.upkeep
    (fun s i inv => inv.maintain sdk task.now i (task.upkeep i)) s inv
  exact kept.frees frees

theorem Unique.rxTask (unique : Unique s.modem) (task : RxTask) : Unique (modemBg95UdpRxTask sdk s task).modem := by
  obtain ⟨m,same,frees⟩ := rxTask_cases sdk s task
  rw [same]
  have kept := socketMaintenace_kept sdk (fun s => Unique s.modem) task.now task.upkeep
    (fun s i unique => (maintain_frees sdk s task.now i (task.upkeep i)).unique unique) s unique
  exact frees.unique kept

theorem send_none (packet : Packet) (send : Send) (none : packet.dstIp = 0) :
    (modemBg95UdpSend sdk s packet send).2 = s := by rw [modemBg95UdpSend,if_pos none]

theorem Inv.step (inv : Inv s) (input : Input) (ok : StepOk sdk s input) : Inv (step sdk s input) := by
  cases input with
  | line line => exact inv.frees (Frees.receive sdk s.modem [line])
  | rxTask task => exact inv.rxTask sdk task
  | send packet send =>
    change Inv (modemBg95UdpSend sdk s packet send).2
    by_cases none : packet.dstIp = 0
    · rw [send_none sdk packet send none]
      exact inv
    obtain ⟨trace,frees⟩ := send_after_bind sdk packet send none (s := s)
    have sent := (inv.bindTwice sdk packet send none ok).frees frees
    rw [← trace] at sent
    exact sent

theorem Unique.step (unique : Unique s.modem) (input : Input) : Unique (step sdk s input).modem := by
  cases input with
  | line line => exact (Frees.receive sdk s.modem [line]).unique unique
  | rxTask task => exact unique.rxTask sdk task
  | send packet send =>
    change Unique (modemBg95UdpSend sdk s packet send).2.modem
    by_cases none : packet.dstIp = 0
    · rw [send_none sdk packet send none]
      exact unique
    · exact (send_after_bind sdk packet send none (s := s)).2.unique (unique.bindTwice sdk packet send none)

theorem initial_unique (m : Modem.State) : Unique (initial m).modem := fun _ _ used => absurd used Bool.noConfusion

/-- No two sockets have one destination, in whatever run. -/
theorem sockets_unique (m : Modem.State) (inputs : List Input) : Unique (Run.run (step sdk) (initial m) inputs).modem := by
  apply Run.run_invariant (step sdk) (fun _ _ => True) fun s => Unique s.modem
  · exact fun s input unique _ => unique.step sdk input
  · exact initial_unique m
  · exact Run.admits_of_forall _ _ _ _ fun _ _ _ => trivial

/-- All along a run, each bind leaves the whole idle period, no socket is closed before, and no two have one destination,
exactly when each socket that gets opened was free and stayed active. -/
theorem sockets_sound_iff (m : Modem.State) (inputs : List Input) :
    (∀ first rest, inputs = first ++ rest → Sound (Run.run (step sdk) (initial m) first)) ↔
      Run.Admits (step sdk) (StepOk sdk) (initial m) inputs := by
  apply Run.always_iff_admits (step sdk) (StepOk sdk) (fun s => Inv s ∧ Unique s.modem) Sound
    fun _ inv => ⟨inv.1.timely,inv.2⟩
  · exact fun s input inv ok => ⟨inv.1.step sdk input ok,inv.2.step sdk input⟩
  · intro s input _ refused sound
    cases input with
    | line line => exact refused trivial
    | rxTask task => exact refused trivial
    | send packet send =>
      have some : packet.dstIp ≠ 0 := by
        intro none
        exact refused (by simp [StepOk,bindsOf,none])
      have timely : Timely (modemBg95UdpSend sdk s packet send).2.trace := sound.1
      rw [(send_after_bind sdk packet send some).1] at timely
      exact bindTwice_broken sdk packet send some refused timely
  · exact ⟨⟨trivial,fun _ used => absurd used Bool.noConfusion⟩,initial_unique m⟩

end Steps

section Runs

def opensAs (i now : Nat) : Bind where
  now := now
  close := []
  command := [⟨Numeral.ascii "+QIOPEN: " ++ Numeral.numeral 10 i ++ Numeral.ascii ",0",12,now⟩]
  ok := true
  poll := []
  expired := false

def sends (ip : UInt32) (i now : Nat) : Input :=
  .send ⟨ip,4000,10⟩ ⟨opensAs i now,[],[],opensAs i now,[],true,[]⟩

/-- Six destinations, the last of which gets the socket of the second. -/
def evicting : List Input := [sends 1 0 0,sends 2 1 1,sends 3 2 2,sends 4 3 3,sends 5 4 4,sends 6 1 5]

def maintenance : Input := .rxTask ⟨6,fun _ => ⟨[],[],fun _ => ([],true)⟩,6,[]⟩

theorem evicting_early : ¬ Sound (Run.run (step ModemData.plainSdk) (initial ModemData.started) evicting) ∧
    (Run.run (step ModemData.plainSdk) (initial ModemData.started) (evicting ++ [maintenance])).trace.head? =
      some (.idleClosed 1 6) := by
  refine ⟨fun sound => ?_,by decide +kernel⟩
  exact absurd sound.1 (by decide +kernel)

end Runs

end JcaFirmware.UdpSockets
