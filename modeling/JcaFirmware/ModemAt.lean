import JcaFirmware.Foundation.Task
import JcaFirmware.ModemRx

/-! Commands to the modem (`modem/modem_at.c`). The task that sends them waits at every poll, and the receiver and the
other tasks go on meanwhile: they handle lines, change what is requested, and send commands of their own unless the
semaphore is taken. -/
namespace JcaFirmware.ModemAt
open Foundation Numeral CText
open Modem (Sdk Line)

section States

inductive MainState | off | on | error | init | netOk | debug
deriving DecidableEq, Repr

/-- The number of the enumeration. -/
def MainState.number : MainState → Nat
  | .off => 0
  | .on => 1
  | .error => 2
  | .init => 3
  | .netOk => 4
  | .debug => 5

/-- Any other number is taken for one that does nothing. -/
inductive Command | none | on | start | data | off | reset | hb | debug | other
deriving DecidableEq, Repr

/-- `modem_state_t` with the static data of `modem_main.c`; `ts` is that of the state machine. -/
structure Main where
  state : MainState
  requestedState : MainState
  command : Command
  tmout : Nat
  errCnt : Nat
  modemError : Bool
  timer : Nat
  errWaitTime : Nat
  ts : Nat
deriving DecidableEq, Repr

/-- The parameters that the start of the modem reads; none if it cannot. -/
structure Cfg where
  simPin : Option (List UInt8)
  apn : Option (List UInt8)
  modemBand : Option (List UInt8)

/-- What is seen from outside: a command on the line, with the state of the pin DTR, a line that was handled, a pulse of
PWRKEY, a new state, and a command of the operator when it is taken, when its execution begins and when it ends. -/
inductive Event
  | sent (cmd : List UInt8) (dtrLow : Bool)
  | heard (line : List UInt8)
  | pwrkey
  | state (old new : MainState) (netReady : Bool)
  | accepted (command : Command)
  | executing (command : Command)
  | executed (command : Command)
deriving DecidableEq, Repr

/-- The events are kept newest first. -/
structure World where
  modem : Modem.State
  sleep : Bool
  dtrLow : Bool
  main : Main
  cfg : Cfg
  now : Nat
  trace : List Event

def pinEntry (pin : List UInt8) : List UInt8 := ascii "AT+CPIN=\"" ++ pin ++ ascii "\""

/-- A command that enters a PIN. -/
def enters (cmd : List UInt8) : Bool := (ascii "AT+CPIN=").isPrefixOf cmd

/-- What another task does: the receiver handles a line, a task exchanges a command that enters no PIN, works on the data of
its connection, or changes what is requested. -/
inductive Act
  | line (line : Line)
  | command (cmd : List UInt8) (userStr : Option (List UInt8)) (other : enters cmd = false)
  | connection (dataReady dataUp : Bool) (smsCounter : Nat) (bg95 : Modem.Bg95)
  | rqState (state : MainState)
  | order (command : Command)
  | configure (cfg : Cfg)

/-- What happens while the task waits. -/
structure Tick where
  acts : List Act
  elapsed : Nat

end States

section Exchange
variable (sdk : Sdk)

/-- `os_timer_t` is a word. -/
def osTimer (t : Nat) : Nat := t % 2 ^ 32

def modemErrorTimeout : Nat := 60 * 1000

def modemTimeoutS : Nat := 5 * 1000
def modemTimeoutM : Nat := 10 * 1000
def modemTimeoutL : Nat := 60 * 1000
def modemTimeoutLL : Nat := 900 * 1000

def atBufferSize : Nat := 128

/-- `_clr_response`. -/
def clrResponse (m : Modem.State) : Modem.State :=
  {m with modemAt := {m.modemAt with
    ok := false, error := false, userStrFound := false, line := false, response := [], responseLen := 0, userStr := none}}

theorem clrResponse_rx (s : ModemRx.Rx) : (ModemRx.clrResponse s).modem = clrResponse s.modem := rfl

def World.log (e : Event) (w : World) : World := {w with trace := e :: w.trace}

/-- `modem_at_rx` at the end of a line. -/
def World.hear (line : Line) (w : World) : World := {w with modem := Modem.modemAtRx sdk w.modem line}.log (.heard line.rxBuf)

/-- `modem_at_cmd_nolock`. -/
def World.transmit (cmd : List UInt8) (w : World) : World :=
  let m := clrResponse w.modem
  {w with modem := {m with modemAt := {m.modemAt with lastErrorResult := 0}}}.log (.sent cmd w.dtrLow)

def World.setUserStr (userStr : Option (List UInt8)) (w : World) : World :=
  {w with modem := {w.modem with modemAt := {w.modem.modemAt with userStr}}}

def World.modemMainRqState (state : MainState) (w : World) : World :=
  {w with main := {w.main with
    tmout := if w.main.requestedState ≠ state then 0 else w.main.tmout
    requestedState := state
    timer := osTimer (w.now + modemErrorTimeout)}}

def World.modemMainCommand (command : Command) (w : World) : Bool × World :=
  if w.main.command ≠ .none then (false,w)
  else
    let w := {w with main := {w.main with command}}
    (true,if command = .none then w else w.log (.accepted command))

-- Another task wakes the modem when it takes the semaphore, and it cannot while the semaphore is taken.
def World.act (locked : Bool) (w : World) : Act → World
  | .line line => w.hear sdk line
  | .command cmd userStr _ => if locked then w else ({w with sleep := false, dtrLow := true}.transmit cmd).setUserStr userStr
  | .connection dataReady dataUp smsCounter bg95 =>
    {w with modem := {w.modem with flags := {w.modem.flags with dataReady, dataUp}, smsCounter, bg95}}
  | .rqState state => w.modemMainRqState state
  | .order command => (w.modemMainCommand command).2
  | .configure cfg => {w with cfg}

def World.elapse (locked : Bool) (tick : Tick) (w : World) : World :=
  tick.acts.foldl (World.act sdk locked) {w with now := osTimer (w.now + tick.elapsed)}

/-- `OS_DELAY`. -/
def osDelay (locked : Bool) : Task World Tick Unit := .next (World.elapse sdk locked)

def modemAtLock : Task World Tick Unit := do
  Task.next (World.elapse sdk false)
  Task.modify fun w => {w with dtrLow := true}
  if ← Task.read World.sleep then
    osDelay sdk true
    Task.modify fun w => {w with sleep := false}

/-- The bytes take their time on the line. -/
def modemAtCmdNolock (locked : Bool) (cmd : List UInt8) : Task World Tick Unit := do
  Task.modify (World.transmit cmd)
  Task.next (World.elapse sdk locked)

/-- The flags that came, `OK` and the text that was asked for; none when the time is over. -/
def responseOf (limit : Nat) (w : World) : Option (Option (Bool × Bool)) :=
  if w.now < limit then
    if w.modem.modemAt.ok ∨ w.modem.modemAt.error then some (some (w.modem.modemAt.ok,w.modem.modemAt.userStrFound)) else none
  else some none

def modemAtResponse (locked : Bool) (userStr : Option (List UInt8)) (timeout : Nat) : Task World Tick (Bool × Bool) := do
  Task.modify (World.setUserStr userStr)
  let limit ← Task.read fun w => osTimer (w.now + timeout)
  match ← Task.await (World.elapse sdk locked) (responseOf limit) with
  | some flags => return flags
  | none =>
    Task.modify fun w => {w with modem := {w.modem with errorCounter := (w.modem.errorCounter + 1) % 2 ^ 32}}
    return (false,false)

/-- The signs before a command choose its timeout. -/
def timeoutOf : List UInt8 → Nat × List UInt8
  | 0x21 :: cmd => (modemTimeoutS,cmd)
  | 0x40 :: 0x40 :: cmd => (modemTimeoutLL,cmd)
  | 0x40 :: cmd => (modemTimeoutL,cmd)
  | cmd => (modemTimeoutM,cmd)

/-- `_at_cmd_and_response_ok`, with what it appends to the buffer. -/
def atCmdAndResponseOk (locked : Bool) (atCmd : List UInt8) (userStr : Option (List UInt8)) :
    Task World Tick (Bool × List UInt8) := do
  let (timeout,cmd) := timeoutOf atCmd
  modemAtCmdNolock sdk locked cmd
  let (ok,found) ← modemAtResponse sdk locked userStr timeout
  let response ← Task.read fun w => w.modem.modemAt.response
  return (ok ∧ (userStr = none ∨ found),if userStr = none ∨ found then response else [])

def modemAtOkCmdNolock (locked : Bool) (atCmd : List UInt8) : Task World Tick Bool := do
  return (← atCmdAndResponseOk sdk locked atCmd none).1

def modemAtCmdGetResponse (atCmd : List UInt8) (userStr : Option (List UInt8)) : Task World Tick (Bool × List UInt8) := do
  modemAtLock sdk
  atCmdAndResponseOk sdk true atCmd userStr

def modemAtOkCmd (atCmd : List UInt8) : Task World Tick Bool := do
  modemAtLock sdk
  modemAtOkCmdNolock sdk true atCmd

/-- With the text that the format has made. -/
def modemAtOkCmdFmt (buffer : List UInt8) : Task World Tick Bool :=
  if buffer.length < atBufferSize then modemAtOkCmd sdk buffer else return false

end Exchange

end JcaFirmware.ModemAt
