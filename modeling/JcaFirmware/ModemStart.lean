import JcaFirmware.ModemAt

/-! The start and the check of the modem (`modem/modem.c`, `modem_bg95_init`): the SIM with its PIN, the tables of the
configuration, and the power. -/
namespace JcaFirmware.ModemStart
open Foundation Numeral CText
open Modem (Line)
open ModemAt

/-- The functions of the SDK; `buf_append_str` to an empty buffer of a size. -/
structure Sdk where
  modem : Modem.Sdk
  bufAppendStr : Nat → List UInt8 → List UInt8

/-- `modem_config_t`; nothing is asked where there is no `ask`. -/
structure ModemConfig where
  ask : Option (List UInt8)
  result : List UInt8
  set : List UInt8
  timeout : Nat

section Tables

def modemConfig : List ModemConfig :=
  [⟨some (ascii "AT+CMEE?"),ascii "+CMEE: 1",ascii "AT+CMEE=1",modemTimeoutS⟩,
   ⟨some (ascii "AT+CMGF?"),ascii "+CMGF: 0",ascii "AT+CMGF=0",modemTimeoutS⟩,
   ⟨none,[],ascii "AT+CEREG=1",modemTimeoutS⟩]

def modemBg95Config : List ModemConfig :=
  [⟨some (ascii "AT+QURCCFG=\"urcport\""),ascii "+QURCCFG: \"urcport\",\"uart1\"",ascii "AT+QURCCFG=\"urcport\",\"uart1\"",modemTimeoutS⟩,
   ⟨some (ascii "AT+QCFG=\"nwscanmode\""),ascii "+QCFG: \"nwscanmode\",0",ascii "AT+QCFG=\"nwscanmode\",0,1",modemTimeoutS⟩,
   ⟨some (ascii "AT+QCFG=\"nwscanseq\""),ascii "+QCFG: \"nwscanseq\",020103",ascii "AT+QCFG=\"nwscanseq\",020103,1",modemTimeoutS⟩,
   ⟨some (ascii "AT+QCFG=\"iotopmode\""),ascii "+QCFG: \"iotopmode\",0",ascii "AT+QCFG=\"iotopmode\",0,1",modemTimeoutS⟩,
   ⟨none,[],ascii "AT+QSCLK=1",modemTimeoutS⟩,
   ⟨none,[],ascii "AT+QJDR=1",modemTimeoutS⟩]

def qpincPattern : List UInt8 := ascii "+QPINC: \"SC\""

end Tables

section Code
variable (sdk : Sdk)

def setModem (f : Modem.State → Modem.State) : Task World Tick Unit := .modify fun w => {w with modem := f w.modem}

def okTest : Task World Tick Bool := modemAtOkCmd sdk.modem (ascii "!AT")

def modemReady : Task World Tick Bool := do
  if ← okTest sdk then return true
  osDelay sdk.modem false
  okTest sdk

/-- `retry` times, `_check_pin`. -/
def checkPin : Nat → Task World Tick Bool
  | 0 => return false
  | retry + 1 => do
    let _ ← modemAtOkCmd sdk.modem (ascii "AT+CPIN?")
    if ← Task.read fun w => w.modem.flags.pinReady then return true
    osDelay sdk.modem false
    checkPin retry

/-- The number behind the first comma of the response. -/
def attemptsOf (resp : List UInt8) : Option Nat :=
  match resp.dropWhile (· ≠ 0x2C) with
  | [] => none
  | _ :: p => some (Nmea.atoi p % 2 ^ 8).toNat

def pinAttemptsLeft : Task World Tick (Option Nat) := do
  let (result,response) ← modemAtCmdGetResponse sdk.modem (ascii "AT+QPINC?") (some qpincPattern)
  if result then return attemptsOf (sdk.bufAppendStr 32 response) else return none

def pinEnter (pin : List UInt8) : Task World Tick Bool :=
  if pin = [] then return false else modemAtOkCmdFmt sdk.modem (pinEntry pin)

def initSim (pin : List UInt8) : Task World Tick Bool := do
  if ← checkPin sdk 5 then
    setModem fun m => {m with sim := .pinOffReady}
    return true
  match ← pinAttemptsLeft sdk with
  | none => return false
  | some attempts =>
    if attempts < 3 then
      setModem fun m => {m with sim := .pinCnt}
      return false
    if ¬ (← pinEnter sdk pin) then
      setModem fun m => {m with sim := .error}
      return false
    if ← checkPin sdk 5 then
      setModem fun m => {m with sim := .pinReady}
      return true
    setModem fun m => {m with sim := .error}
    return false

/-- `_config_task` for an item that is read first; the set-up without reading of `modem_config_table`. -/
def configItem (p : ModemConfig) : Task World Tick Bool := do
  match p.ask with
  | none => modemAtOkCmdNolock sdk.modem true p.set
  | some ask =>
    modemAtCmdNolock sdk.modem true ask
    let (ok,found) ← modemAtResponse sdk.modem true (some p.result) p.timeout
    if ok ∧ found then return true
    osDelay sdk.modem true
    modemAtOkCmdNolock sdk.modem true p.set

def configItems : List ModemConfig → Bool → Task World Tick Bool
  | [],cfgOk => return cfgOk
  | p :: table,cfgOk => do
    osDelay sdk.modem true
    let ok ← configItem sdk p
    configItems table (cfgOk && ok)

def modemConfigTable (table : List ModemConfig) : Task World Tick Bool := do
  modemAtLock sdk.modem
  configItems sdk table true

/-- The buffers of `snprintf` take one byte less than their size. -/
def printed (size : Nat) (text : List UInt8) : List UInt8 := text.take (size - 1)

def modemApnInit (apn : List UInt8) : Task World Tick Bool := do
  let _ ← modemAtOkCmd sdk.modem (ascii "@AT+CGACT=0,1")
  modemAtOkCmd sdk.modem (printed 64 (ascii "AT+CGDCONT=1,\"IP\",\"" ++ apn ++ ascii "\""))

def modemApnSetup : Task World Tick Bool := do
  match ← Task.read fun w => w.cfg.apn with
  | none => return false
  | some apn => modemApnInit sdk apn

def qcfg (cfg value tail : List UInt8) : Task World Tick Bool := do
  let expect := printed 128 (ascii "+QCFG: \"" ++ cfg ++ ascii "\"," ++ value)
  modemAtLock sdk.modem
  modemAtCmdNolock sdk.modem true (printed 128 (ascii "AT+QCFG=\"" ++ cfg ++ ascii "\""))
  let (_,found) ← modemAtResponse sdk.modem true (some expect) modemTimeoutS
  let response ← Task.read fun w => w.modem.modemAt.response
  if found ∧ Modem.stricmp response expect then return true
  modemAtOkCmdFmt sdk.modem (ascii "AT+QCFG=\"" ++ cfg ++ ascii "\"," ++ value ++ tail)

def modemBg95Init : Task World Tick Bool := do
  setModem Modem.socketClear
  if ¬ (← modemConfigTable sdk modemBg95Config) then return false
  match ← Task.read fun w => w.cfg.modemBand with
  | none => return false
  | some band => qcfg sdk (ascii "band") band (ascii ",1")

/-- One turn of the loop of `modem_start`; none where it goes on with the next. -/
def startTurn : Task World Tick (Option Bool) := do
  if ¬ (← modemAtOkCmd sdk.modem (ascii "!ATE0")) then return none
  if ¬ (← modemAtOkCmd sdk.modem (ascii "AT+CREG=1")) then return none
  if ¬ (← modemAtOkCmd sdk.modem (ascii "AT+CGREG=1")) then return none
  let pin ← Task.read fun w => w.cfg.simPin.getD []
  if ¬ (← initSim sdk pin) then return some false
  if ¬ (← modemConfigTable sdk modemConfig) then return none
  if ¬ (← modemAtOkCmd sdk.modem (ascii "!AT+CNMI=2,1,0,2,0")) then
    if ¬ (← modemAtOkCmd sdk.modem (ascii "AT+CNMI=2,1,0,1,0")) then return none
  let _ ← modemApnSetup sdk
  let _ ← modemBg95Init sdk
  let _ ← modemAtOkCmd sdk.modem (ascii "AT+CREG?;+CEREG?")
  return some true

def startLoop : Nat → Task World Tick Bool
  | 0 => return false
  | again + 1 => do
    match ← startTurn sdk with
    | some result => return result
    | none => startLoop again

def modemStart : Task World Tick Bool := do
  setModem fun m =>
    let m := Modem.setOffline m
    {m with flags := {m.flags with pinReady := false}}
  if ¬ (← modemReady sdk) then return false
  startLoop sdk 3

/-- `_hw_on`. -/
def hwOn : Task World Tick Unit := do
  Task.modify fun w => {w with dtrLow := true}
  osDelay sdk.modem false
  if ← modemAtOkCmdNolock sdk.modem false (ascii "!AT") then return ()
  Task.modify (World.log .pwrkey)
  osDelay sdk.modem false

def atOff : List UInt8 := ascii "AT+QPOWD=1"

/-- `_hw_off`; `_power_off` calls it with the semaphore. -/
def hwOff (locked : Bool) : Task World Tick Unit := do
  if ← modemAtOkCmdNolock sdk.modem locked atOff then return ()
  osDelay sdk.modem locked
  modemAtCmdNolock sdk.modem locked atOff

def powerOff : Task World Tick Unit := do
  modemAtLock sdk.modem
  setModem Modem.setOffline
  hwOff sdk true
  setModem fun m => {m with sim := .pinInitRq}

def errorLimit : Nat := 30

def modemCheck : Task World Tick Bool := do
  if ¬ (← okTest sdk) then
    osDelay sdk.modem false
    if ¬ (← okTest sdk) then return false
  if errorLimit ≤ (← Task.read fun w => w.modem.errorCounter) then
    setModem fun m => {m with errorCounter := 0}
    powerOff sdk
    return false
  if ¬ (← modemAtOkCmd sdk.modem (ascii "!AT+CREG?;+CEREG?")) then return false
  let cmd ← Task.read fun w => if w.modem.flags.lte then ascii "!AT+CSQ;+CPIN?" else ascii "!AT+CSQ;+CGREG?;+CPIN?"
  if ¬ (← modemAtOkCmd sdk.modem cmd) then return false
  modemAtOkCmd sdk.modem (ascii "!AT+CPMS=\"SM\",\"SM\",\"SM\"")

end Code

end JcaFirmware.ModemStart
