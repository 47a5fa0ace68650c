import JcaFirmware.ModemStart
import JcaFirmware.ModemData

/-! The task of the modem (`modem/modem_main.c`): its state machine, the commands of the operator, the error of the state
and the sleep of the modem, round after round. -/
namespace JcaFirmware.ModemMain
open Foundation Numeral
open ModemAt ModemStart

section Code
variable (sdk : Sdk)

def osTimerSecond : Nat := 1000

def World.setMain (f : Main → Main) (w : World) : World := {w with main := f w.main}

/-- The timeout and the counters of a state that is entered. -/
def entered (main : Main) (now : Nat) : MainState → Main
  | .off => {main with tmout := osTimer (now + main.errWaitTime * osTimerSecond)}
  | .on => {main with tmout := osTimer (now + 1 * osTimerSecond)}
  | .error => {main with errWaitTime := (main.errWaitTime + 30) % 2 ^ 32, tmout := osTimer (now + 10 * osTimerSecond)}
  | .init => {main with tmout := osTimer (now + (if main.modemError then 600 else 120) * osTimerSecond)}
  | .netOk => {main with errWaitTime := 0, errCnt := 0, tmout := osTimer (now + 60 * osTimerSecond)}
  | .debug => main

@[simp] theorem entered_command (main : Main) (now : Nat) (new : MainState) : (entered main now new).command = main.command := by
  unfold entered
  split
  all_goals with_reducible rfl

/-- `_set_state`. -/
def World.setState (new : MainState) (w : World) : World :=
  if new = w.main.state then w
  else {w with main := {entered w.main w.now new with state := new}}.log (.state w.main.state new w.modem.flags.netReady)

def setState (new : MainState) : Task World Tick Unit := .modify (World.setState new)

def modemCommandExec : Command → Task World Tick Unit
  | .on => do
    hwOn sdk
    setState .on
  | .off => do
    hwOff sdk false
    setState .off
  | .start => do
    if ← modemStart sdk then setState .init else setState .error
  | .reset => hwOff sdk false
  | .debug => setState .debug
  | .none | .data | .hb | .other => return ()

def initTask (now : Nat) : Task World Tick Unit := do
  if ← Task.read fun w => w.modem.flags.netReady then setState .netOk
  else if ¬ (← modemAtOkCmd sdk.modem (ascii "AT+CREG?")) then setState .error
  else
    Task.modify (World.setMain fun main => {main with ts := osTimer (now + 10 * osTimerSecond)})
    if ← Task.read fun w => decide (w.main.tmout < now) then
      Task.modify (World.setMain fun main => {main with errCnt := (main.errCnt + 1) % 2 ^ 16})
      setState .error

def netOkTask (now : Nat) : Task World Tick Unit := do
  if ¬ (← Task.read fun w => w.modem.flags.netReady) then setState .init
  else if ¬ (← modemCheck sdk) then setState .error
  else Task.modify (World.setMain fun main => {main with tmout := osTimer (now + 60 * osTimerSecond)})

/-- `_state_machine_task` for a state, behind the test of `ts`. -/
def stateTask (main : Main) (now : Nat) : Task World Tick Unit :=
  match main.state with
  | .debug => return ()
  | .off =>
    if now < main.tmout then return ()
    else if main.requestedState = .off then return ()
    else if MainState.init.number ≤ main.requestedState.number then modemCommandExec sdk .on
    else return ()
  | .on => if now < main.tmout then return () else modemCommandExec sdk .start
  | .error =>
    if now < main.tmout then return ()
    else do
      modemCommandExec sdk .off
      if 3 ≤ (← Task.read fun w => w.main.errCnt) then
        Task.modify (World.setMain fun main => {main with tmout := osTimer (now + 300 * osTimerSecond)})
  | .init => initTask sdk now
  | .netOk => if now < main.tmout then return () else netOkTask sdk now

def stateMachineTask : Task World Tick Unit := do
  let now ← Task.read World.now
  let main ← Task.read World.main
  if now < main.ts then return () else stateTask sdk main now

/-- `_status_task`. -/
def World.statusTask (w : World) : World :=
  if w.main.requestedState = w.main.state then
    if w.main.modemError then {w with main := {w.main with modemError := false, errWaitTime := 0}} else w
  else if w.main.modemError then w
  else if w.now < w.main.timer then w
  else {w with main := {w.main with modemError := true}}

/-- A command that was posted is executed, and only then may the next be. -/
def postedTask : Task World Tick Unit := do
  let command ← Task.read fun w => w.main.command
  if command ≠ .none then
    Task.modify (World.log (.executing command))
    modemCommandExec sdk command
    Task.modify fun w => (World.setMain (fun main => {main with command := .none}) w).log (.executed command)

def sleepTask : Task World Tick Unit := do
  if ¬ (← Task.read World.sleep) then
    modemAtLock sdk.modem
    Task.modify fun w => {w with dtrLow := false, sleep := true}

def modemMainTask : Task World Tick Unit := do
  postedTask sdk
  stateMachineTask sdk
  Task.modify World.statusTask
  sleepTask sdk

/-- `app_task_comm` round after round, with the tasks that follow in the round. -/
def rounds (n : Nat) : Task World Tick Unit :=
  Task.loop (do
    modemMainTask sdk
    Task.next (World.elapse sdk.modem false)) n

/-- Behind `modem_main_init`, with the static data of the module. -/
def modemMainInit (bg95 : Modem.Bg95) (cfg : Cfg) (now : Nat) : World where
  modem := ⟨⟨false,false,false,false,false,0,[],0,none⟩,.pinInitRq,.clear,0,0,0,false,[],bg95⟩
  sleep := false
  dtrLow := false
  main := ⟨.off,.off,.none,osTimer (now + 15 * osTimerSecond),0,false,0,0,0⟩
  cfg := cfg
  now := now
  trace := []

end Code

section Runs

def plainSdk : Sdk := ⟨ModemData.plainSdk,fun size text => text.take (size - 1)⟩

theorem plainSdk_keeps (size : Nat) (text : List UInt8) (short : text.length < size) : plainSdk.bufAppendStr size text = text :=
  List.take_of_length_le (by omega)

def told (text : String) : Act := .line ⟨ascii text,text.length + 1,0⟩

def answer : Tick := ⟨[told "OK"],10⟩

def silence : Tick := ⟨[],10⟩

end Runs

end JcaFirmware.ModemMain
