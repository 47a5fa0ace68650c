import JcaFirmware.Dns
import JcaFirmware.Nmea
import JcaFirmware.Foundation.CText

/-! Lines of the modem (`modem/modem_at.c`, `modem/modem.c`, `modem/modem_bg95.c`): a line is sorted by its
text alone, and what it reports is then put into the flags, the counters and the sockets. -/
namespace JcaFirmware.Modem
open Foundation Numeral

/-- The parser functions of the SDK. -/
structure Sdk extends Dns.Sdk where
  parseModemSeparator : List UInt8 → Option (List UInt8)

structure Flags where
  pinReady : Bool
  netReady : Bool
  dataReady : Bool
  roaming : Bool
  callStop : Bool
  clccRq : Bool
  lte : Bool
  dataUp : Bool
deriving DecidableEq, Repr

def Flags.clear : Flags := ⟨false,false,false,false,false,false,false,false⟩

/-- `modem_at_t`, its flags one by one. -/
structure ModemAt where
  line : Bool
  ok : Bool
  error : Bool
  ready : Bool
  userStrFound : Bool
  lastErrorResult : Nat
  response : List UInt8
  responseLen : Nat
  userStr : Option (List UInt8)
deriving DecidableEq, Repr

inductive SimState | pinInitRq | error | pinCnt | pinOffReady | pinReady
deriving DecidableEq, Repr

inductive ModemEvent | smsIncomming | callIncomming
deriving DecidableEq, Repr

structure UdpSocket where
  timer : Nat
  tmout : Nat
  rxTime : Nat
  noRxCnt : Nat
  ip : UInt32
  port : UInt16
  rx : Bool
  ready : Bool
deriving DecidableEq, Repr

def UdpSocket.zero : UdpSocket := ⟨0,0,0,0,0,0,false,false⟩

def sockets : Nat := 5

instance : NeZero sockets := ⟨Nat.succ_ne_zero 4⟩

/-- The static data of `modem_bg95.c`; `socket` is the one of `_socket_id`. -/
structure Bg95 where
  udpSocket : Fin sockets → UdpSocket
  rxUdpSocket : Fin sockets
  rxUdpLen : Nat
  timerRxTimeout : Nat
  txCnt : Nat
  socket : Fin sockets
  dns : Dns.DnsState

/-- `modem_t`, with the events that went to the application. -/
structure State where
  modemAt : ModemAt
  sim : SimState
  flags : Flags
  errorCounter : Nat
  signalLevel : Nat
  smsCounter : Nat
  smsStorageMe : Bool
  events : List ModemEvent
  bg95 : Bg95

/-- A line in `rx_buf`, with `buf_len` and the time. -/
structure Line where
  rxBuf : List UInt8
  bufLen : Nat
  now : Nat
deriving DecidableEq, Repr

def osTimerSecond : Nat := 1000
def rxRetryTime : Nat := 5 * osTimerSecond

section Lines

def stricmp (a b : List UInt8) : Bool := a.map CText.lower = b.map CText.lower

def setOffline (m : State) : State :=
  {m with
    flags := {m.flags with
      netReady := false, dataReady := false, roaming := false, callStop := false, lte := false, dataUp := false}
    errorCounter := (m.errorCounter + 1) % 2 ^ 32
    signalLevel := 0}

def regParse (p : List UInt8) : UInt8 :=
  if p.length = 1 then CText.charAt p 0 - 0x30
  else if p.length = 3 ∧ CText.charAt p 1 = 0x2C then CText.charAt p 2 - 0x30
  else 0

def signalLevelCorrection (level : Nat) : Nat := 10 * min ((level + 2) * 10 / 31) 10

def modemAtParamPos (data : List UInt8) (n : Nat) : List UInt8 :=
  match Nmea.paramPos data n 0 with
  | some pos => data.drop pos
  | none => data

def word (n : Int) : Nat := (n % 2 ^ 32).toNat

inductive Urc
  | cmeError (p : List UInt8)
  | cmsError (p : List UInt8)
  | creg (p : List UInt8)
  | cereg (p : List UInt8)
  | cgreg (p : List UInt8)
  | cmti (p : List UInt8)
  | cdsi (p : List UInt8)
  | cpms (p : List UInt8)
  | callStop
  | ring
  | clip
  | csq (p : List UInt8)
  | cpin (p : List UInt8)
deriving DecidableEq, Repr

/-- What a line reports that is left to the module. -/
inductive Bg95Urc
  | recv (p : List UInt8)
  | qird (p : List UInt8)
  | pdpdeact
  | dnsgip
  | qiopen (p : List UInt8)
  | powerDown
  | servingCell
  | qjdr
deriving DecidableEq, Repr

variable (sdk : Sdk)

def starts {α : Type} (src : List UInt8) (pattern : String) (report : List UInt8 → α) : Option α :=
  (Dns.modemParsePattern sdk.toSdk src (ascii pattern)).map report

/-- The tests of `modem_parse_urc`, in its order. -/
def urcOf (src : List UInt8) : Option Urc :=
  starts sdk src "+CME ERROR:" .cmeError <|> starts sdk src "+CMS ERROR:" .cmsError
    <|> starts sdk src "+CREG:" .creg <|> starts sdk src "+CEREG:" .cereg <|> starts sdk src "+CGREG:" .cgreg
    <|> starts sdk src "+CMTI:" .cmti <|> starts sdk src "+CDSI:" .cdsi <|> starts sdk src "+CPMS:" .cpms
    <|> (if stricmp src (ascii "NO CARRIER") ∨ stricmp src (ascii "BUSY") ∨ stricmp src (ascii "NO ANSWER")
      then some .callStop else none)
    <|> starts sdk src "RING" (fun _ => .ring) <|> starts sdk src "+CLIP:" (fun _ => .clip)
    <|> starts sdk src "+CSQ:" .csq <|> starts sdk src "+CPIN:" .cpin

/-- The tests of `modem_bg95_urc`, in its order. -/
def bg95UrcOf (src : List UInt8) : Option Bg95Urc :=
  starts sdk src "+QIURC: \"recv\"," .recv <|> starts sdk src "+QIRD:" .qird
    <|> starts sdk src "+QIURC: \"pdpdeact\",1" (fun _ => .pdpdeact)
    <|> starts sdk src "+QIURC: \"dnsgip\"," (fun _ => .dnsgip) <|> starts sdk src "+QIOPEN: " .qiopen
    <|> starts sdk src "NORMAL POWER DOWN" (fun _ => .powerDown) <|> starts sdk src "POWERED DOWN" (fun _ => .powerDown)
    <|> starts sdk src "+QENG: \"servingcell\"," (fun _ => .servingCell) <|> starts sdk src "+QJDR: " (fun _ => .qjdr)

def reportError (m : State) (code : Int) : State :=
  {m with modemAt := {m.modemAt with error := true, lastErrorResult := (code % 2 ^ 16).toNat}}

def cmeError (m : State) (code : Int) : State :=
  if code = 13 then reportError (setOffline {m with flags := {m.flags with pinReady := false}, sim := .error}) code
  else if code = 515 then reportError m code
  else reportError {m with errorCounter := (m.errorCounter + 1) % 2 ^ 32} code

-- In LTE the circuit switched domain says nothing of the network.
def creg (m : State) (reg : UInt8) : State :=
  if m.flags.lte then
    if reg = 1 ∨ reg = 5 then {m with flags := {m.flags with netReady := true, roaming := reg = 5}} else m
  else if reg = 0 ∨ reg = 2 ∨ reg = 3 ∨ reg = 4 then setOffline m
  else if reg = 1 then {m with flags := {m.flags with netReady := true, roaming := false}}
  else if reg = 5 then {m with flags := {m.flags with netReady := true, roaming := true}}
  else {m with errorCounter := (m.errorCounter + 1) % 2 ^ 32}

def cereg (m : State) (reg : UInt8) : State :=
  if reg = 1 then {m with flags := {m.flags with lte := true, dataReady := true, netReady := true, roaming := false}}
  else if reg = 5 then {m with flags := {m.flags with lte := true, dataReady := true, netReady := true, roaming := true}}
  else if m.flags.lte then
    {m with flags := {m.flags with
      netReady := false, dataReady := false, roaming := false, lte := false, dataUp := false}}
  else m

def cgreg (m : State) (reg : UInt8) : State :=
  if m.flags.lte then m
  else if reg = 1 ∨ reg = 5 then {m with flags := {m.flags with dataReady := true}}
  else {m with flags := {m.flags with dataReady := false}}

def cmti (m : State) (p : List UInt8) : State :=
  let smsCounter := word (Nmea.atoi (modemAtParamPos p 1))
  {m with
    smsStorageMe := (Dns.modemParsePattern sdk.toSdk p (ascii "\"ME\"")).isSome
    errorCounter := 0
    events := m.events ++ [.smsIncomming]
    smsCounter := if smsCounter = 0 then 1 else smsCounter}

def csq (m : State) (p : List UInt8) : State :=
  let tmp := word (Nmea.atoi p)
  if tmp ≤ 31 then {m with signalLevel := signalLevelCorrection tmp} else m

def applyUrc (m : State) : Urc → State
  | .cmeError p => cmeError m (Nmea.atoi p)
  | .cmsError p => reportError {m with errorCounter := (m.errorCounter + 2) % 2 ^ 32} (Nmea.atoi p)
  | .creg p => creg m (regParse p)
  | .cereg p => cereg m (regParse p)
  | .cgreg p => cgreg m (regParse p)
  | .cmti p => cmti sdk m p
  | .cdsi p => {m with smsCounter := word (Nmea.atoi (modemAtParamPos p 1))}
  | .cpms p => if m.smsCounter ≠ 0 then m else {m with smsCounter := word (Nmea.atoi p)}
  | .callStop => {m with flags := {m.flags with callStop := true}}
  | .ring => {m with errorCounter := 0, events := m.events ++ [.callIncomming], flags := {m.flags with clccRq := true}}
  | .clip => {m with errorCounter := 0, events := m.events ++ [.callIncomming]}
  | .csq p => csq m p
  | .cpin p => {m with flags := {m.flags with pinReady := stricmp p (ascii "READY")}}

def State.setSocket (m : State) (i : Fin sockets) (s : UdpSocket) : State :=
  {m with bg95 := {m.bg95 with udpSocket := Function.update m.bg95.udpSocket i s}}

def socketClear (m : State) : State := {m with bg95 := {m.bg95 with udpSocket := fun _ => .zero}}

/-- The line behind `+QIRD:`, which is the data of a packet. -/
def udpData (m : State) (line : Line) : State :=
  let m :=
    if line.bufLen = 2 * m.bg95.rxUdpLen + 1 then
      let s := m.bg95.udpSocket m.bg95.rxUdpSocket
      let m := m.setSocket m.bg95.rxUdpSocket
        {s with rx := true, timer := line.now + rxRetryTime, noRxCnt := 0, rxTime := line.now}
      {m with bg95 := {m.bg95 with timerRxTimeout := line.now + 15 * osTimerSecond, txCnt := 0}}
    else m
  {m with bg95 := {m.bg95 with rxUdpLen := 0}}

def recv (m : State) (p : List UInt8) : State :=
  match sdk.parseNumber p with
  | none => m
  | some (n,_) =>
    if inside : n.toNat < sockets ∧ 0 ≤ n then
      m.setSocket ⟨n.toNat,inside.1⟩ {m.bg95.udpSocket ⟨n.toNat,inside.1⟩ with rx := true}
    else m

def qird (m : State) (p : List UInt8) : State :=
  match sdk.parseNumber p with
  | none => m
  | some (n,_) =>
    if 0 < n then {m with bg95 := {m.bg95 with rxUdpLen := n.toNat}}
    else m.setSocket m.bg95.rxUdpSocket {m.bg95.udpSocket m.bg95.rxUdpSocket with rx := false}

def opened (p : List UInt8) : Option (Fin sockets) := do
  let (n,p) ← sdk.parseNumber p
  let p ← sdk.parseModemSeparator p
  let (result,_) ← sdk.parseNumber p
  if inside : result = 0 ∧ (n % 2 ^ 8).toNat < sockets then some ⟨(n % 2 ^ 8).toNat,inside.2⟩ else none

/-- The branches of `modem_bg95_urc`; the jamming is not yet reacted to. -/
def applyBg95Urc (m : State) (src : List UInt8) : Bg95Urc → State
  | .recv p => recv sdk m p
  | .qird p => qird sdk m p
  | .pdpdeact => socketClear {m with flags := {m.flags with dataReady := false, dataUp := false}}
  | .dnsgip =>
    if m.bg95.dns.active then
      {m with bg95 := {m.bg95 with dns := ((Dns.dnsgipParse sdk.toSdk src).getD []).foldl Dns.DnsState.assign m.bg95.dns}}
    else m
  | .qiopen p =>
    match opened sdk p with
    | some i => m.setSocket i {m.bg95.udpSocket i with ready := true}
    | none => m
  | .powerDown =>
    {m with flags := {m.flags with
      netReady := false, dataReady := false, roaming := false, callStop := false, lte := false}}
  | .servingCell => m
  | .qjdr => m

def modemBg95Urc (m : State) (line : Line) : Bool × State :=
  if m.bg95.rxUdpLen ≠ 0 then (true,udpData m line)
  else
    match bg95UrcOf sdk line.rxBuf with
    | some urc => (true,applyBg95Urc sdk m line.rxBuf urc)
    | none => (false,m)

def modemParseUrc (m : State) (line : Line) : Bool × State :=
  match urcOf sdk line.rxBuf with
  | some urc => (true,applyUrc sdk m urc)
  | none => modemBg95Urc sdk m line

def respond (m : State) (line : Line) : State :=
  if m.modemAt.responseLen ≠ 0 then m
  else
    match m.modemAt.userStr with
    | some str =>
      if CText.sameUpTo str.length line.rxBuf str then
        {m with modemAt := {m.modemAt with
          userStr := none, response := line.rxBuf, responseLen := line.bufLen, userStrFound := true}}
      else m
    | none => {m with modemAt := {m.modemAt with response := line.rxBuf, responseLen := line.bufLen}}

/-- The end of a line in `modem_at_rx`. -/
def modemAtRx (m : State) (line : Line) : State :=
  if line.bufLen ≤ 1 then m
  else
    let m := {m with modemAt := {m.modemAt with line := true}}
    if stricmp line.rxBuf (ascii "OK") then {m with modemAt := {m.modemAt with ok := true, ready := true}}
    else if stricmp line.rxBuf (ascii "ERROR") then {m with modemAt := {m.modemAt with error := true}}
    else
      match modemParseUrc sdk m line with
      | (true,m) => m
      | (false,m) => respond m line

end Lines

section Network

inductive Registration | home | roaming | lost | unknown
deriving DecidableEq, Repr

def registration (reg : UInt8) : Registration :=
  if reg = 1 then .home
  else if reg = 5 then .roaming
  else if reg = 0 ∨ reg = 2 ∨ reg = 3 ∨ reg = 4 then .lost
  else .unknown

inductive Report
  | nothing
  | pin (ready : Bool)
  | simError
  | circuit (status : Registration)
  | eps (status : Registration)
  | packet (status : Registration)
  | callStop
  | ring
  | pdpdeact
  | powerDown
deriving DecidableEq, Repr

def Urc.report : Urc → Report
  | .cmeError p => if Nmea.atoi p = 13 then .simError else .nothing
  | .creg p => .circuit (registration (regParse p))
  | .cereg p => .eps (registration (regParse p))
  | .cgreg p => .packet (registration (regParse p))
  | .callStop => .callStop
  | .ring => .ring
  | .cpin p => .pin (stricmp p (ascii "READY"))
  | _ => .nothing

def Bg95Urc.report : Bg95Urc → Report
  | .pdpdeact => .pdpdeact
  | .powerDown => .powerDown
  | _ => .nothing

/-- The report of a line, which is none where the line holds the data of a packet. -/
def reportOf (sdk : Sdk) (m : State) (line : Line) : Report :=
  if line.bufLen ≤ 1 ∨ stricmp line.rxBuf (ascii "OK") ∨ stricmp line.rxBuf (ascii "ERROR") then .nothing
  else
    match urcOf sdk line.rxBuf with
    | some urc => urc.report
    | none =>
      if m.bg95.rxUdpLen ≠ 0 then .nothing
      else ((bg95UrcOf sdk line.rxBuf).map Bg95Urc.report).getD .nothing

def Flags.offline (flags : Flags) : Flags := {Flags.clear with pinReady := flags.pinReady, clccRq := flags.clccRq}

/-- The flags as a machine of their own. -/
def Flags.after (flags : Flags) : Report → Flags
  | .nothing => flags
  | .pin ready => {flags with pinReady := ready}
  | .simError => {flags.offline with pinReady := false}
  | .circuit .home => {flags with netReady := true, roaming := false}
  | .circuit .roaming => {flags with netReady := true, roaming := true}
  | .circuit .lost => if flags.lte then flags else flags.offline
  | .circuit .unknown => flags
  | .eps .home => {flags with lte := true, dataReady := true, netReady := true, roaming := false}
  | .eps .roaming => {flags with lte := true, dataReady := true, netReady := true, roaming := true}
  | .eps _ => if flags.lte then {flags.offline with callStop := flags.callStop} else flags
  | .packet .home => if flags.lte then flags else {flags with dataReady := true}
  | .packet .roaming => if flags.lte then flags else {flags with dataReady := true}
  | .packet _ => if flags.lte then flags else {flags with dataReady := false}
  | .callStop => {flags with callStop := true}
  | .ring => {flags with clccRq := true}
  | .pdpdeact => {flags with dataReady := false, dataUp := false}
  | .powerDown => {flags.offline with dataUp := flags.dataUp}

variable (sdk : Sdk) (m : State)

theorem registration_cases (reg : UInt8) :
    (reg = 1 ∧ registration reg = .home) ∨ (reg = 5 ∧ registration reg = .roaming) ∨
      ((reg = 0 ∨ reg = 2 ∨ reg = 3 ∨ reg = 4) ∧ registration reg = .lost) ∨
      (¬(reg = 1 ∨ reg = 5 ∨ reg = 0 ∨ reg = 2 ∨ reg = 3 ∨ reg = 4) ∧ registration reg = .unknown) := by
  unfold registration
  split_ifs with home roaming lost
  · exact Or.inl ⟨home,rfl⟩
  · exact Or.inr (Or.inl ⟨roaming,rfl⟩)
  · exact Or.inr (Or.inr (Or.inl ⟨lost,rfl⟩))
  · refine Or.inr (Or.inr (Or.inr ⟨?_,rfl⟩))
    rintro (one | five | other)
    · exact home one
    · exact roaming five
    · exact lost other

theorem creg_flags (reg : UInt8) : (creg m reg).flags = m.flags.after (.circuit (registration reg)) := by
  rcases registration_cases reg with ⟨rfl,status⟩ | ⟨rfl,status⟩ | ⟨values,status⟩ | ⟨other,status⟩
  · cases lte : m.flags.lte <;> simp [creg,status,lte,Flags.after]
  · cases lte : m.flags.lte <;> simp [creg,status,lte,Flags.after]
  · rcases values with rfl | rfl | rfl | rfl
    all_goals cases lte : m.flags.lte <;> simp [creg,status,lte,Flags.after,setOffline,Flags.offline,Flags.clear]
  · simp only [not_or] at other
    simp [creg,status,other,Flags.after,apply_ite State.flags]

theorem cereg_flags (reg : UInt8) : (cereg m reg).flags = m.flags.after (.eps (registration reg)) := by
  rcases registration_cases reg with ⟨rfl,status⟩ | ⟨rfl,status⟩ | ⟨values,status⟩ | ⟨other,status⟩
  · simp [cereg,status,Flags.after]
  · simp [cereg,status,Flags.after]
  · rcases values with rfl | rfl | rfl | rfl
    all_goals cases lte : m.flags.lte <;> simp [cereg,status,lte,Flags.after,Flags.offline,Flags.clear]
  · simp only [not_or] at other
    cases lte : m.flags.lte <;> simp [cereg,status,other,lte,Flags.after,Flags.offline,Flags.clear]

theorem cgreg_flags (reg : UInt8) : (cgreg m reg).flags = m.flags.after (.packet (registration reg)) := by
  rcases registration_cases reg with ⟨rfl,status⟩ | ⟨rfl,status⟩ | ⟨values,status⟩ | ⟨other,status⟩
  · simp [cgreg,status,Flags.after,apply_ite State.flags]
  · simp [cgreg,status,Flags.after,apply_ite State.flags]
  · rcases values with rfl | rfl | rfl | rfl
    all_goals simp [cgreg,status,Flags.after,apply_ite State.flags]
  · simp only [not_or] at other
    simp [cgreg,status,other,Flags.after,apply_ite State.flags]

theorem cmeError_flags (code : Int) :
    (cmeError m code).flags = m.flags.after (if code = 13 then .simError else .nothing) := by
  unfold cmeError
  by_cases sim : code = 13
  · rw [if_pos sim,if_pos sim]
    rfl
  rw [if_neg sim,if_neg sim]
  split_ifs <;> rfl

theorem applyUrc_flags (urc : Urc) : (applyUrc sdk m urc).flags = m.flags.after urc.report := by
  cases urc with
  | cmeError p => exact cmeError_flags m (Nmea.atoi p)
  | creg p => exact creg_flags m (regParse p)
  | cereg p => exact cereg_flags m (regParse p)
  | cgreg p => exact cgreg_flags m (regParse p)
  | cpms p =>
    unfold applyUrc
    dsimp only
    split_ifs <;> rfl
  | csq p =>
    unfold applyUrc csq
    dsimp only
    split_ifs <;> rfl
  | cmsError | cmti | cdsi | callStop | ring | clip | cpin => rfl

theorem udpData_flags (line : Line) : (udpData m line).flags = m.flags := by
  unfold udpData
  dsimp only
  split_ifs <;> rfl

theorem recv_flags (p : List UInt8) : (recv sdk m p).flags = m.flags := by
  unfold recv
  cases sdk.parseNumber p with
  | none => rfl
  | some number =>
    dsimp only
    split_ifs <;> rfl

theorem qird_flags (p : List UInt8) : (qird sdk m p).flags = m.flags := by
  unfold qird
  cases sdk.parseNumber p with
  | none => rfl
  | some number =>
    dsimp only
    split_ifs <;> rfl

theorem applyBg95Urc_flags (src : List UInt8) (urc : Bg95Urc) :
    (applyBg95Urc sdk m src urc).flags = m.flags.after urc.report := by
  cases urc with
  | recv p => exact recv_flags sdk m p
  | qird p => exact qird_flags sdk m p
  | dnsgip =>
    unfold applyBg95Urc
    dsimp only
    split_ifs <;> rfl
  | qiopen p =>
    unfold applyBg95Urc
    dsimp only
    cases opened sdk p <;> rfl
  | pdpdeact | powerDown | servingCell | qjdr => rfl

theorem respond_at (line : Line) : ∃ modemAt, respond m line = {m with modemAt} := by
  unfold respond
  split_ifs
  · exact ⟨m.modemAt,rfl⟩
  · cases m.modemAt.userStr with
    | none => exact ⟨_,rfl⟩
    | some str =>
      dsimp only
      split_ifs
      · exact ⟨_,rfl⟩
      · exact ⟨m.modemAt,rfl⟩

theorem modemAtRx_cases (line : Line) (result : State → Report → Prop)
    (answer : ∀ modemAt, result {m with modemAt} .nothing)
    (urc : ∀ modemAt urc, result (applyUrc sdk {m with modemAt} urc) urc.report)
    (data : ∀ modemAt, result (udpData {m with modemAt} line) .nothing)
    (bg95 : ∀ modemAt urc, result (applyBg95Urc sdk {m with modemAt} line.rxBuf urc) urc.report) :
    result (modemAtRx sdk m line) (reportOf sdk m line) := by
  unfold modemAtRx reportOf
  by_cases short : line.bufLen ≤ 1
  · rw [if_pos short,if_pos (Or.inl short)]
    exact answer m.modemAt
  rw [if_neg short]
  dsimp only
  by_cases ok : stricmp line.rxBuf (ascii "OK")
  · rw [if_pos ok,if_pos (Or.inr (Or.inl ok))]
    exact answer _
  rw [if_neg ok]
  by_cases error : stricmp line.rxBuf (ascii "ERROR")
  · rw [if_pos error,if_pos (Or.inr (Or.inr error))]
    exact answer _
  rw [if_neg error,if_neg (by simp [short,ok,error])]
  unfold modemParseUrc
  cases urcOf sdk line.rxBuf with
  | some found => exact urc _ found
  | none =>
    unfold modemBg95Urc
    dsimp only
    by_cases pending : m.bg95.rxUdpLen ≠ 0
    · rw [if_pos pending,if_pos pending]
      exact data _
    rw [if_neg pending,if_neg pending]
    cases bg95UrcOf sdk line.rxBuf with
    | some found => exact bg95 _ found
    | none =>
      obtain ⟨modemAt,same⟩ := respond_at {m with modemAt := {m.modemAt with line := true}} line
      change result (respond {m with modemAt := {m.modemAt with line := true}} line) .nothing
      rw [same]
      exact answer modemAt

/-- The flags of the modem are those of the machine, whatever the line. -/
theorem modemAtRx_flags (line : Line) : (modemAtRx sdk m line).flags = m.flags.after (reportOf sdk m line) :=
  modemAtRx_cases sdk m line (fun next report => next.flags = m.flags.after report) (fun _ => rfl)
    (fun _ urc => applyUrc_flags sdk _ urc) (fun _ => udpData_flags _ line)
    (fun _ urc => applyBg95Urc_flags sdk _ line.rxBuf urc)

def Flags.NetConsistent (flags : Flags) : Prop := flags.lte ∨ flags.roaming → flags.netReady

theorem Flags.NetConsistent.circuit {flags : Flags} (holds : flags.NetConsistent) (status : Registration) :
    (flags.after (.circuit status)).NetConsistent := by
  cases status with
  | home => exact fun _ => rfl
  | roaming => exact fun _ => rfl
  | lost =>
    unfold Flags.after
    split_ifs
    · exact holds
    · rintro (lte | roaming) <;> contradiction
  | unknown => exact holds

theorem Flags.NetConsistent.eps {flags : Flags} (holds : flags.NetConsistent) (status : Registration) :
    (flags.after (.eps status)).NetConsistent := by
  cases status with
  | home => exact fun _ => rfl
  | roaming => exact fun _ => rfl
  | lost | unknown =>
    simp only [Flags.after]
    split_ifs
    · rintro (lte | roaming) <;> contradiction
    · exact holds

theorem Flags.NetConsistent.packet {flags : Flags} (holds : flags.NetConsistent) (status : Registration) :
    (flags.after (.packet status)).NetConsistent := by
  cases status
  all_goals
    simp only [Flags.after]
    split_ifs
    · exact holds
    · exact holds

theorem Flags.NetConsistent.after {flags : Flags} (holds : flags.NetConsistent) (report : Report) :
    (flags.after report).NetConsistent := by
  cases report with
  | circuit status => exact holds.circuit status
  | eps status => exact holds.eps status
  | packet status => exact holds.packet status
  | simError | powerDown => rintro (lte | roaming) <;> contradiction
  | nothing | pin | callStop | ring | pdpdeact => exact holds

/-- Whatever lines come after all flags were clear, LTE and roaming are not without a network. -/
theorem lines_keep_network (lines : List Line) :
    (Run.run (modemAtRx sdk) {m with flags := .clear} lines).flags.NetConsistent := by
  apply Run.run_invariant (modemAtRx sdk) (fun _ _ => True) fun m => m.flags.NetConsistent
  · intro m line holds _
    rw [modemAtRx_flags]
    exact holds.after (reportOf sdk m line)
  · rintro (lte | roaming) <;> contradiction
  · exact Run.admits_of_forall (modemAtRx sdk) _ _ lines fun _ _ _ => trivial

end Network

end JcaFirmware.Modem
