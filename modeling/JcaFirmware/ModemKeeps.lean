import JcaFirmware.ModemMain

/-! What the start and the check of the modem keep, whatever the other tasks do meanwhile: a condition that survives each
single change survives every task that is made of them. -/
namespace JcaFirmware.ModemKeeps
open Foundation Numeral
open Modem (Line)
open ModemAt ModemStart ModemMain

/-- The condition survives each change that the tasks make to the world, but for the entry of a PIN and for the state machine.
A command goes to a modem that is awake, or it is the one that switches it off. -/
structure Closed (sdk : Sdk) (always : World → Prop) : Prop where
  time : ∀ now w, always w → always {w with now}
  hear : ∀ line w, always w → always (w.hear sdk.modem line)
  userStr : ∀ userStr w, always w → always (w.setUserStr userStr)
  modem : ∀ m w, m.modemAt = w.modem.modemAt → always w → always {w with modem := m}
  wake : ∀ w, always w → always {w with dtrLow := true}
  awake : ∀ w, always w → always {w with sleep := false}
  transmit : ∀ cmd w, enters cmd = false → w.dtrLow = true ∨ cmd = atOff → always w → always (w.transmit cmd)
  pwrkey : ∀ w, always w → always (w.log .pwrkey)
  rqState : ∀ state w, always w → always (w.modemMainRqState state)
  order : ∀ command w, always w → always (w.modemMainCommand command).2
  configure : ∀ cfg w, always w → always {w with cfg}

namespace Closed
variable {sdk : Sdk} {always other : World → Prop}

theorem and (closed : Closed sdk always) (closed' : Closed sdk other) : Closed sdk fun w => always w ∧ other w where
  time now w := And.imp (closed.time now w) (closed'.time now w)
  hear line w := And.imp (closed.hear line w) (closed'.hear line w)
  userStr userStr w := And.imp (closed.userStr userStr w) (closed'.userStr userStr w)
  modem m w same := And.imp (closed.modem m w same) (closed'.modem m w same)
  wake w := And.imp (closed.wake w) (closed'.wake w)
  awake w := And.imp (closed.awake w) (closed'.awake w)
  transmit cmd w plain woken := And.imp (closed.transmit cmd w plain woken) (closed'.transmit cmd w plain woken)
  pwrkey w := And.imp (closed.pwrkey w) (closed'.pwrkey w)
  rqState state w := And.imp (closed.rqState state w) (closed'.rqState state w)
  order command w := And.imp (closed.order command w) (closed'.order command w)
  configure cfg w := And.imp (closed.configure cfg w) (closed'.configure cfg w)

theorem dtrLow (sdk : Sdk) : Closed sdk fun w => w.dtrLow = true where
  time _ _ low := low
  hear _ _ low := low
  userStr _ _ low := low
  modem _ _ _ low := low
  wake _ _ := rfl
  awake _ low := low
  transmit _ _ _ _ low := low
  pwrkey _ low := low
  rqState _ _ low := low
  order command w low := by
    unfold World.modemMainCommand
    split_ifs
    all_goals exact low
  configure _ _ low := low

theorem act (closed : Closed sdk always) (locked : Bool) (act : Act) (w : World) (holds : always w) :
    always (w.act sdk.modem locked act) := by
  cases act with
  | line line => exact closed.hear line w holds
  | command cmd userStr plain =>
    unfold World.act
    dsimp only
    split_ifs
    · exact holds
    · exact closed.userStr _ _ (closed.transmit cmd _ plain (Or.inl rfl) (closed.wake _ (closed.awake w holds)))
  | connection dataReady dataUp smsCounter bg95 => exact closed.modem _ w rfl holds
  | rqState state => exact closed.rqState state w holds
  | order command => exact closed.order command w holds
  | configure cfg => exact closed.configure cfg w holds

theorem tick (closed : Closed sdk always) (locked : Bool) (tick : Tick) (w : World) (holds : always w) :
    always (w.elapse sdk.modem locked tick) :=
  List.foldlRecOn tick.acts (World.act sdk.modem locked) (closed.time _ w holds) fun w holds act _ => closed.act locked act w holds

end Closed

section Sending
variable {sdk : Sdk} {always : World → Prop}

/-- The command may be sent wherever the condition holds. -/
def Sent (always : World → Prop) (cmd : List UInt8) : Prop := ∀ w, always w → always (w.transmit cmd)

def Awake (always : World → Prop) (w : World) : Prop := always w ∧ w.dtrLow = true

theorem Closed.awakened (closed : Closed sdk always) : Closed sdk (Awake always) := closed.and (.dtrLow sdk)

theorem Closed.sent (closed : Closed sdk always) {cmd : List UInt8} (plain : enters cmd = false) : Sent (Awake always) cmd :=
  fun w holds => ⟨closed.transmit cmd w plain (Or.inl holds.2) holds.1,holds.2⟩

/-- Any PIN may be entered at any time. -/
structure Free (sdk : Sdk) (always : World → Prop) : Prop extends Closed sdk always where
  entry : ∀ pin, Sent (Awake always) (pinEntry pin)

theorem Free.and {other : World → Prop} (free : Free sdk always) (free' : Free sdk other) : Free sdk fun w => always w ∧ other w where
  toClosed := free.toClosed.and free'.toClosed
  entry pin w holds :=
    have own := free.entry pin w ⟨holds.1.1,holds.2⟩
    ⟨⟨own.1,(free'.entry pin w ⟨holds.1.2,holds.2⟩).1⟩,own.2⟩

theorem Closed.sent_off (closed : Closed sdk always) : Sent always atOff :=
  fun w holds => closed.transmit atOff w (by decide) (Or.inr rfl) holds

end Sending

section Exchange
variable {sdk : Sdk} {always : World → Prop} (closed : Closed sdk always)
include closed

theorem osDelay_keeps (locked : Bool) : Task.Keeps always (osDelay sdk.modem locked) :=
  .next fun tick w holds => closed.tick locked tick w holds

theorem setModem_keeps {f : Modem.State → Modem.State} (same : ∀ m, (f m).modemAt = m.modemAt) : Task.Keeps always (setModem f) :=
  .modify fun w holds => closed.modem _ w (same w.modem) holds

theorem modemAtLock_wakes : Task.Triple always (fun _ => True) (modemAtLock sdk.modem) fun _ w => w.dtrLow = true := by
  refine .bind (fun _ _ => True) (osDelay_keeps closed false) fun _ => ?_
  refine .bind (fun _ w => w.dtrLow = true) (.modify fun w holds _ => ⟨closed.wake w holds,rfl⟩) fun _ => Task.Keeps.triple ?_
  exact Task.Keeps.bind (.read _) fun asleep => .ite (.bind (osDelay_keeps closed.awakened true) fun _ => .modify closed.awakened.awake) (.pure ())

theorem modemAtCmdNolock_keeps (locked : Bool) {cmd : List UInt8} (sent : Sent always cmd) :
    Task.Keeps always (modemAtCmdNolock sdk.modem locked cmd) :=
  .bind (.modify sent) fun _ => osDelay_keeps closed locked

theorem modemAtResponse_keeps (locked : Bool) (userStr : Option (List UInt8)) (timeout : Nat) :
    Task.Keeps always (modemAtResponse sdk.modem locked userStr timeout) := by
  refine .bind (.modify fun w holds => closed.userStr userStr w holds) fun _ => .bind (.read _) fun limit => ?_
  refine .bind (.await _ fun tick w holds => closed.tick locked tick w holds) fun flags => ?_
  cases flags with
  | some flags => exact .pure flags
  | none => exact .bind (.modify fun w holds => closed.modem _ w rfl holds) fun _ => .pure (false,false)

theorem atCmdAndResponseOk_keeps (locked : Bool) {atCmd : List UInt8} (userStr : Option (List UInt8))
    (sent : Sent always (timeoutOf atCmd).2) : Task.Keeps always (atCmdAndResponseOk sdk.modem locked atCmd userStr) :=
  .bind (modemAtCmdNolock_keeps closed locked sent) fun _ =>
    .bind (modemAtResponse_keeps closed locked userStr _) fun _ => .bind (.read _) fun _ => .pure _

theorem modemAtOkCmdNolock_keeps (locked : Bool) {atCmd : List UInt8} (sent : Sent always (timeoutOf atCmd).2) :
    Task.Keeps always (modemAtOkCmdNolock sdk.modem locked atCmd) :=
  .bind (atCmdAndResponseOk_keeps closed locked none sent) fun _ => .pure _

/-- What is done behind the lock finds the modem awake. -/
theorem locked_keeps {α : Type} {t : Task World Tick α} (holds : Task.Keeps (Awake always) t) :
    Task.Keeps always (modemAtLock sdk.modem >>= fun _ => t) :=
  .of_triple (.bind _ (modemAtLock_wakes closed) fun _ => holds.triple)

theorem modemAtOkCmd_sends {atCmd : List UInt8} (sent : Sent (Awake always) (timeoutOf atCmd).2) :
    Task.Keeps always (modemAtOkCmd sdk.modem atCmd) :=
  locked_keeps closed (modemAtOkCmdNolock_keeps closed.awakened true sent)

theorem modemAtOkCmd_keeps {atCmd : List UInt8} (plain : enters (timeoutOf atCmd).2 = false) :
    Task.Keeps always (modemAtOkCmd sdk.modem atCmd) :=
  modemAtOkCmd_sends closed (closed.sent plain)

theorem modemAtOkCmdFmt_keeps {buffer : List UInt8} (plain : enters (timeoutOf buffer).2 = false) :
    Task.Keeps always (modemAtOkCmdFmt sdk.modem buffer) :=
  .ite (modemAtOkCmd_keeps closed plain) (.pure false)

theorem modemAtCmdGetResponse_keeps {atCmd : List UInt8} (userStr : Option (List UInt8)) (plain : enters (timeoutOf atCmd).2 = false) :
    Task.Keeps always (modemAtCmdGetResponse sdk.modem atCmd userStr) :=
  locked_keeps closed (atCmdAndResponseOk_keeps closed.awakened true userStr (closed.sent plain))

end Exchange

section Tables

/-- No item of a configuration enters a PIN. -/
def Plain (p : ModemConfig) : Prop := (∀ ask ∈ p.ask, enters ask = false) ∧ enters (timeoutOf p.set).2 = false

theorem modemConfig_plain : ∀ p ∈ modemConfig, Plain p := by unfold Plain; decide

theorem modemBg95Config_plain : ∀ p ∈ modemBg95Config, Plain p := by unfold Plain; decide

end Tables

section Start
variable {sdk : Sdk} {always : World → Prop} (closed : Closed sdk always)
include closed

theorem okTest_keeps : Task.Keeps always (okTest sdk) := modemAtOkCmd_keeps closed (by decide)

theorem modemReady_keeps : Task.Keeps always (modemReady sdk) :=
  .bind (okTest_keeps closed) fun _ => .ite (.pure true) (.bind (osDelay_keeps closed false) fun _ => okTest_keeps closed)

theorem checkPin_keeps (retry : Nat) : Task.Keeps always (checkPin sdk retry) := by
  induction retry with
  | zero => exact .pure false
  | succ retry ih =>
    refine .bind (modemAtOkCmd_keeps closed (by decide)) fun _ => .bind (.read _) fun ready => ?_
    exact .ite (.pure true) (.bind (osDelay_keeps closed false) fun _ => ih)

theorem pinAttemptsLeft_keeps : Task.Keeps always (pinAttemptsLeft sdk) :=
  .bind (modemAtCmdGetResponse_keeps closed _ (by decide)) fun _ => .ite (.pure _) (.pure none)

/-- What the report of the attempts makes ready is what the entry of the PIN needs. -/
theorem initSim_keeps {pin : List UInt8} (ready : World → Prop)
    (attempts : Task.Triple always (fun _ => True) (pinAttemptsLeft sdk) fun attempts w => ∀ k, attempts = some k → 3 ≤ k → ready w)
    (entry : Task.Triple always ready (pinEnter sdk pin) fun _ _ => True) : Task.Keeps always (initSim sdk pin) := by
  have ends (sim : Modem.SimState) (result : Bool) : Task.Keeps always (do
      setModem fun m => {m with sim}
      return result) :=
    .bind (setModem_keeps closed fun _ => rfl) fun _ => .pure result
  refine .bind (checkPin_keeps closed 5) fun _ => .ite (ends _ true) (Task.Triple.bind _ attempts fun attempts => ?_)
  cases attempts with
  | none => exact .pure fun _ _ _ => trivial
  | some attempts =>
    refine .ite (fun _ => ?_) fun enough => .bind (fun _ _ => True) (entry.weaken ?_ fun _ _ _ => trivial) fun _ => ?_
    · exact (ends _ false).weaken (fun _ _ _ => trivial) fun _ _ _ => trivial
    · exact fun w _ made => made attempts rfl (by omega)
    exact Task.Keeps.ite (ends _ false) (.bind (checkPin_keeps closed 5) fun _ => .ite (ends _ true) (ends _ false))

omit closed in
theorem initSim_free (free : Free sdk always) (pin : List UInt8) : Task.Keeps always (initSim sdk pin) := by
  refine initSim_keeps free.toClosed (fun _ => True) ?_ (Task.Keeps.ite (.pure false) (.ite ?_ (.pure false)))
  · exact (pinAttemptsLeft_keeps free.toClosed).weaken (fun _ _ _ => trivial) fun _ _ _ _ _ _ => trivial
  · exact modemAtOkCmd_sends free.toClosed (free.entry pin)

theorem configItem_keeps {p : ModemConfig} (plain : Plain p) : Task.Keeps (Awake always) (configItem sdk p) := by
  have set := modemAtOkCmdNolock_keeps closed.awakened true (closed.sent plain.2)
  unfold configItem
  cases asks : p.ask with
  | none => exact set
  | some ask =>
    refine .bind (modemAtCmdNolock_keeps closed.awakened true (closed.sent (plain.1 ask asks))) fun _ => ?_
    refine .bind (modemAtResponse_keeps closed.awakened true _ _) fun _ => .ite (.pure true) ?_
    exact .bind (osDelay_keeps closed.awakened true) fun _ => set

theorem configItems_keeps {table : List ModemConfig} (plain : ∀ p ∈ table, Plain p) (cfgOk : Bool) :
    Task.Keeps (Awake always) (configItems sdk table cfgOk) := by
  induction table generalizing cfgOk with
  | nil => exact .pure cfgOk
  | cons p table ih =>
    refine .bind (osDelay_keeps closed.awakened true) fun _ => .bind (configItem_keeps closed (plain p List.mem_cons_self)) fun _ => ?_
    exact ih (fun p member => plain p (List.mem_cons_of_mem _ member)) _

theorem modemConfigTable_keeps {table : List ModemConfig} (plain : ∀ p ∈ table, Plain p) :
    Task.Keeps always (modemConfigTable sdk table) :=
  locked_keeps closed (configItems_keeps closed plain true)

theorem modemApnSetup_keeps : Task.Keeps always (modemApnSetup sdk) := by
  refine .bind (.read _) fun apn => ?_
  cases apn with
  | none => exact .pure false
  | some apn => exact .bind (modemAtOkCmd_keeps closed (by decide)) fun _ => modemAtOkCmd_keeps closed rfl

theorem qcfg_keeps (cfg value tail : List UInt8) : Task.Keeps always (qcfg sdk cfg value tail) := by
  refine locked_keeps closed (.bind (modemAtCmdNolock_keeps closed.awakened true (closed.sent rfl)) fun _ => ?_)
  refine .bind (modemAtResponse_keeps closed.awakened true _ _) fun _ => .bind (.read _) fun _ => .ite (.pure true) ?_
  exact modemAtOkCmdFmt_keeps closed.awakened rfl

theorem modemBg95Init_keeps : Task.Keeps always (modemBg95Init sdk) := by
  refine .bind (setModem_keeps closed fun _ => rfl) fun _ => ?_
  refine .bind (modemConfigTable_keeps closed modemBg95Config_plain) fun _ => .ite (.pure false) (.bind (.read _) fun band => ?_)
  cases band with
  | none => exact .pure false
  | some band => exact qcfg_keeps closed _ band _

/-- Every turn may enter the PIN of the configuration. -/
theorem startTurn_keeps (sim : ∀ pin, Task.Keeps always (initSim sdk pin)) : Task.Keeps always (startTurn sdk) := by
  refine .bind (modemAtOkCmd_keeps closed (by decide)) fun _ => .ite (.pure none) ?_
  refine .bind (modemAtOkCmd_keeps closed (by decide)) fun _ => .ite (.pure none) ?_
  refine .bind (modemAtOkCmd_keeps closed (by decide)) fun _ => .ite (.pure none) ?_
  refine .bind (.read _) fun pin => .bind (sim pin) fun _ => .ite (.pure _) ?_
  refine .bind (modemConfigTable_keeps closed modemConfig_plain) fun _ => .ite (.pure none) ?_
  have rest : Task.Keeps always (do
      let _ ← modemApnSetup sdk
      let _ ← modemBg95Init sdk
      let _ ← modemAtOkCmd sdk.modem (ascii "AT+CREG?;+CEREG?")
      return some true) :=
    .bind (modemApnSetup_keeps closed) fun _ => .bind (modemBg95Init_keeps closed) fun _ =>
      .bind (modemAtOkCmd_keeps closed (by decide)) fun _ => .pure _
  refine .bind (modemAtOkCmd_keeps closed (by decide)) fun _ => .ite ?_ rest
  exact .bind (modemAtOkCmd_keeps closed (by decide)) fun _ => .ite (.pure none) rest

theorem startLoop_keeps (sim : ∀ pin, Task.Keeps always (initSim sdk pin)) (again : Nat) :
    Task.Keeps always (startLoop sdk again) := by
  induction again with
  | zero => exact .pure false
  | succ again ih =>
    refine .bind (startTurn_keeps closed sim) fun result => ?_
    cases result with
    | some result => exact .pure result
    | none => exact ih

theorem modemStart_keeps (sim : ∀ pin, Task.Keeps always (initSim sdk pin)) : Task.Keeps always (modemStart sdk) :=
  .bind (setModem_keeps closed fun _ => rfl) fun _ => .bind (modemReady_keeps closed) fun _ =>
    .ite (.pure false) (startLoop_keeps closed sim 3)

end Start

section Power
variable {sdk : Sdk} {always : World → Prop} (closed : Closed sdk always)
include closed

theorem hwOn_keeps : Task.Keeps always (hwOn sdk) := by
  have sent : Sent (Awake always) (timeoutOf (ascii "!AT")).2 := closed.sent (by decide)
  have rest : Task.Keeps (Awake always) (do
      osDelay sdk.modem false
      if ← modemAtOkCmdNolock sdk.modem false (ascii "!AT") then return ()
      Task.modify (World.log .pwrkey)
      osDelay sdk.modem false) :=
    .bind (osDelay_keeps closed.awakened false) fun _ => .bind (modemAtOkCmdNolock_keeps closed.awakened false sent) fun _ =>
      .ite (.pure ()) (.bind (.modify closed.awakened.pwrkey) fun _ => osDelay_keeps closed.awakened false)
  exact .of_triple (.bind (fun _ w => w.dtrLow = true) (.modify fun w holds _ => ⟨closed.wake w holds,rfl⟩) fun _ => rest.triple)

theorem hwOff_keeps (locked : Bool) : Task.Keeps always (hwOff sdk locked) := by
  refine .bind (modemAtOkCmdNolock_keeps closed locked closed.sent_off) fun _ => .ite (.pure ()) ?_
  exact .bind (osDelay_keeps closed locked) fun _ => modemAtCmdNolock_keeps closed locked closed.sent_off

theorem powerOff_keeps : Task.Keeps always (powerOff sdk) := by
  refine locked_keeps closed (.bind (setModem_keeps closed.awakened fun _ => rfl) fun _ => ?_)
  exact .bind (hwOff_keeps closed.awakened true) fun _ => setModem_keeps closed.awakened fun _ => rfl

theorem modemCheck_keeps : Task.Keeps always (modemCheck sdk) := by
  have rest : Task.Keeps always (do
      if errorLimit ≤ (← Task.read fun w => w.modem.errorCounter) then
        setModem fun m => {m with errorCounter := 0}
        powerOff sdk
        return false
      if ¬ (← modemAtOkCmd sdk.modem (ascii "!AT+CREG?;+CEREG?")) then return false
      let cmd ← Task.read fun w => if w.modem.flags.lte then ascii "!AT+CSQ;+CPIN?" else ascii "!AT+CSQ;+CGREG?;+CPIN?"
      if ¬ (← modemAtOkCmd sdk.modem cmd) then return false
      modemAtOkCmd sdk.modem (ascii "!AT+CPMS=\"SM\",\"SM\",\"SM\"")) := by
    refine .bind (.read _) fun _ => .ite ?_ ?_
    · exact .bind (setModem_keeps closed fun _ => rfl) fun _ => .bind (powerOff_keeps closed) fun _ => .pure false
    refine .bind (modemAtOkCmd_keeps closed (by decide)) fun _ => .ite (.pure false) ?_
    refine Task.Triple.bind (fun cmd _ => enters (timeoutOf cmd).2 = false) (.read fun w _ _ => ?_) fun cmd => .given fun plain => ?_
    · split_ifs
      all_goals decide
    exact Task.Keeps.bind (modemAtOkCmd_keeps closed plain) fun _ => .ite (.pure false) (modemAtOkCmd_keeps closed (by decide))
  refine .bind (okTest_keeps closed) fun _ => .ite ?_ rest
  exact .bind (osDelay_keeps closed false) fun _ => .bind (okTest_keeps closed) fun _ => .ite (.pure false) rest

end Power

section Past
variable {sdk : Sdk}

/-- What the events hold, they held before the last of them, and so at each earlier moment. -/
theorem holds_earlier {holds : List ModemAt.Event → Prop} (before : ∀ e past, holds (e :: past) → holds past)
    {past all : List ModemAt.Event} (earlier : past <:+ all) (now : holds all) : holds past := by
  induction all with
  | nil => exact List.suffix_nil.mp earlier ▸ now
  | cons e all ih =>
    obtain rfl | earlier := List.suffix_cons_iff.mp earlier
    · exact now
    · exact ih earlier (before e all now)

/-- What the events since the last state say stays as it is while the modem is spoken to. -/
theorem free_events {holds : List ModemAt.Event → MainState → Prop}
    (later : ∀ e past state, (∀ old new netReady, e ≠ .state old new netReady) → (∀ command, e ≠ .executing command ∧ e ≠ .executed command) →
      holds past state → holds (e :: past) state) : Free sdk fun w => holds w.trace w.main.state where
  time _ _ now := now
  hear _ w now := later _ _ _ nofun (fun _ => ⟨nofun,nofun⟩) now
  userStr _ _ now := now
  modem _ _ _ now := now
  wake _ now := now
  awake _ now := now
  transmit _ w _ _ now := later _ _ _ nofun (fun _ => ⟨nofun,nofun⟩) now
  pwrkey w now := later _ _ _ nofun (fun _ => ⟨nofun,nofun⟩) now
  rqState _ _ now := now
  order command w now := by
    unfold World.modemMainCommand
    split_ifs
    · exact now
    · exact now
    · exact later _ _ _ nofun (fun _ => ⟨nofun,nofun⟩) now
  configure _ _ now := now
  entry _ w awake := ⟨later _ _ _ nofun (fun _ => ⟨nofun,nofun⟩) awake.1,awake.2⟩

end Past

section Machine
variable {sdk : Sdk} {always : World → Prop}

/-- The condition survives the changes of the state machine too, whatever PIN is entered. -/
structure Steady (sdk : Sdk) (always : World → Prop) : Prop extends Closed sdk always where
  sim : ∀ pin, Task.Keeps always (initSim sdk pin)
  setState : ∀ new w, always w → always (World.setState new w)
  setMain : ∀ (f : Main → Main) w, (∀ main, (f main).command = main.command) → always w → always (World.setMain f w)
  sleeps : ∀ w, always w → always {w with dtrLow := false, sleep := true}

variable (steady : Steady sdk always)
include steady

theorem setState_keeps (new : MainState) : Task.Keeps always (setState new) := .modify (steady.setState new)

theorem modemCommandExec_keeps (command : Command) : Task.Keeps always (modemCommandExec sdk command) := by
  cases command with
  | on => exact .bind (hwOn_keeps steady.toClosed) fun _ => setState_keeps steady _
  | off => exact .bind (hwOff_keeps steady.toClosed false) fun _ => setState_keeps steady _
  | start =>
    exact .bind (modemStart_keeps steady.toClosed steady.sim) fun _ => .ite (setState_keeps steady _) (setState_keeps steady _)
  | reset => exact hwOff_keeps steady.toClosed false
  | debug => exact setState_keeps steady _
  | none | data | hb | other => exact .pure ()

theorem initTask_keeps (now : Nat) : Task.Keeps always (initTask sdk now) := by
  refine .bind (.read _) fun _ => .ite (setState_keeps steady _) ?_
  refine .bind (modemAtOkCmd_keeps steady.toClosed (by decide)) fun _ => .ite (setState_keeps steady _) ?_
  refine .bind (.modify fun w => steady.setMain _ w fun _ => rfl) fun _ => .bind (.read _) fun _ => .ite ?_ (.pure ())
  exact .bind (.modify fun w => steady.setMain _ w fun _ => rfl) fun _ => setState_keeps steady _

theorem netOkTask_keeps (now : Nat) : Task.Keeps always (netOkTask sdk now) := by
  refine .bind (.read _) fun _ => .ite (setState_keeps steady _) (.bind (modemCheck_keeps steady.toClosed) fun _ => ?_)
  exact .ite (setState_keeps steady _) (.modify fun w => steady.setMain _ w fun _ => rfl)

theorem stateTask_keeps (main : Main) (now : Nat) : Task.Keeps always (stateTask sdk main now) := by
  unfold stateTask
  cases main.state with
  | debug => exact .pure ()
  | off => exact .ite (.pure ()) (.ite (.pure ()) (.ite (modemCommandExec_keeps steady .on) (.pure ())))
  | on => exact .ite (.pure ()) (modemCommandExec_keeps steady .start)
  | error =>
    refine .ite (.pure ()) (.bind (modemCommandExec_keeps steady .off) fun _ => .bind (.read _) fun _ => .ite ?_ (.pure ()))
    exact .modify fun w => steady.setMain _ w fun _ => rfl
  | init => exact initTask_keeps steady now
  | netOk => exact .ite (.pure ()) (netOkTask_keeps steady now)

theorem stateMachineTask_keeps : Task.Keeps always (stateMachineTask sdk) :=
  .bind (.read _) fun now => .bind (.read _) fun main => .ite (.pure ()) (stateTask_keeps steady main now)

theorem statusTask_keeps (w : World) (holds : always w) : always (World.statusTask w) := by
  unfold World.statusTask
  split_ifs
  · exact steady.setMain (fun main => {main with modemError := false, errWaitTime := 0}) w (fun _ => rfl) holds
  · exact holds
  · exact holds
  · exact holds
  · exact steady.setMain (fun main => {main with modemError := true}) w (fun _ => rfl) holds

theorem sleepTask_keeps : Task.Keeps always (sleepTask sdk) := by
  refine .bind (.read _) fun _ => .ite ?_ (.pure ())
  exact Task.Triple.bind _ (modemAtLock_wakes steady.toClosed) fun _ => .modify fun w holds _ => ⟨steady.sleeps w holds,trivial⟩

/-- A command of the operator that only its marks could touch. -/
theorem postedTask_keeps (executing : ∀ command w, always w → always (w.log (.executing command)))
    (executed : ∀ command w, always w → always ((World.setMain (fun main => {main with command := .none}) w).log (.executed command))) :
    Task.Keeps always (postedTask sdk) := by
  refine .bind (.read _) fun command => .ite ?_ (.pure ())
  refine .bind (.modify (executing command)) fun _ => .bind (modemCommandExec_keeps steady command) fun _ => ?_
  exact .modify (executed command)

/-- What follows the commands of the operator in a round. -/
theorem unposted_keeps : Task.Keeps always (do
    stateMachineTask sdk
    Task.modify World.statusTask
    sleepTask sdk) :=
  .bind (stateMachineTask_keeps steady) fun _ => .bind (.modify (statusTask_keeps steady)) fun _ => sleepTask_keeps steady

/-- Round after round, if the commands of the operator keep the condition too. -/
theorem rounds_keeps (posted : Task.Keeps always (postedTask sdk)) (n : Nat) : Task.Keeps always (rounds sdk n) :=
  .loop (.bind (.bind posted fun _ => unposted_keeps steady) fun _ => .next (steady.tick false)) n

end Machine

end JcaFirmware.ModemKeeps
