import JcaFirmware.Cms
import JcaFirmware.Foundation.Numeral
import Mathlib.Data.List.TakeWhile

/-! The SIA-DC-09 protocol over IP (`app/cms/cms_sia_ip.c`): the message of an
event, the check of a received frame, and the protocol as `cms_main.c` uses it. -/
namespace JcaFirmware.CmsSia
open Foundation.Numeral Cms

def siaIdxCrc : Nat := 1
def siaIdxLen : Nat := 5
def siaIdxData : Nat := 9
def cmsSiaIpMaxMsgLen : Nat := 240

/-- The texts of the configuration and the clock, as a message meets them. -/
structure World where
  sourceText : UInt8 → Option (List UInt8)
  eventText : UInt8 → Option (List UInt8)
  time : Rtc

/-- `cms_sia_ip_state_t` and the statics of the protocol; `fits` is the answer of
the last assertion of `cms_sia_ip_build_msg`. -/
structure Sia where
  account : Nat
  cnt : Nat
  linePrefix : Nat
  enableEventName : Bool
  enableEventTime : Bool
  enableTimeStamp : Bool
  packet : List UInt8
  packetOk : Bool
  fits : Bool

def siaEventTable : List (EventId × Option String) := [
  (.bootUp,some "RR"),(.shutDown,none),(.powerFail,some "AT"),(.powerRecovery,some "AR"),
  (.loBatt,some "YT"),(.loBattRecovery,some "YR"),(.set,some "CL"),(.unset,some "OP"),
  (.alarm,some "BA"),(.alarmCancel,some "BC"),(.alarmTimeout,none),(.fault,some "UT"),
  (.faultRecovery,some "UR"),(.jammingAct,some "XQ"),(.jammingDact,some "XH"),(.tracking,some "TL")]

def siaSourceTable : List (EventSource × Nat) := [
  (.unknown,0x0),(.unit,0x0),(.key,0x1),(.door,0x2),(.input1,0x3),(.input2,0xD),(.input3,0xE),(.shock,0x4),
  (.lock,0x5),(.cell,0x6),(.battery,0x7),(.admin,0x8),(.user1,0x9),(.user2,0xA),(.user3,0xB),(.user4,0xC)]

def siaEventCode (id : UInt8) : Option String :=
  match siaEventTable.find? fun entry => entry.1.code = id with
  | some (_,code) => code
  | none => none

def siaZone (source : UInt8) : Nat :=
  match siaSourceTable.find? fun entry => entry.1.code = source with
  | some (_,zone) => zone
  | none => 0

def crcTable : Array UInt16 := #[
  0x0000,0xc0c1,0xc181,0x0140,0xc301,0x03c0,0x0280,0xc241,0xc601,0x06c0,0x0780,0xc741,0x0500,0xc5c1,0xc481,0x0440,
  0xcc01,0x0cc0,0x0d80,0xcd41,0x0f00,0xcfc1,0xce81,0x0e40,0x0a00,0xcac1,0xcb81,0x0b40,0xc901,0x09c0,0x0880,0xc841,
  0xd801,0x18c0,0x1980,0xd941,0x1b00,0xdbc1,0xda81,0x1a40,0x1e00,0xdec1,0xdf81,0x1f40,0xdd01,0x1dc0,0x1c80,0xdc41,
  0x1400,0xd4c1,0xd581,0x1540,0xd701,0x17c0,0x1680,0xd641,0xd201,0x12c0,0x1380,0xd341,0x1100,0xd1c1,0xd081,0x1040,
  0xf001,0x30c0,0x3180,0xf141,0x3300,0xf3c1,0xf281,0x3240,0x3600,0xf6c1,0xf781,0x3740,0xf501,0x35c0,0x3480,0xf441,
  0x3c00,0xfcc1,0xfd81,0x3d40,0xff01,0x3fc0,0x3e80,0xfe41,0xfa01,0x3ac0,0x3b80,0xfb41,0x3900,0xf9c1,0xf881,0x3840,
  0x2800,0xe8c1,0xe981,0x2940,0xeb01,0x2bc0,0x2a80,0xea41,0xee01,0x2ec0,0x2f80,0xef41,0x2d00,0xedc1,0xec81,0x2c40,
  0xe401,0x24c0,0x2580,0xe541,0x2700,0xe7c1,0xe681,0x2640,0x2200,0xe2c1,0xe381,0x2340,0xe101,0x21c0,0x2080,0xe041,
  0xa001,0x60c0,0x6180,0xa141,0x6300,0xa3c1,0xa281,0x6240,0x6600,0xa6c1,0xa781,0x6740,0xa501,0x65c0,0x6480,0xa441,
  0x6c00,0xacc1,0xad81,0x6d40,0xaf01,0x6fc0,0x6e80,0xae41,0xaa01,0x6ac0,0x6b80,0xab41,0x6900,0xa9c1,0xa881,0x6840,
  0x7800,0xb8c1,0xb981,0x7940,0xbb01,0x7bc0,0x7a80,0xba41,0xbe01,0x7ec0,0x7f80,0xbf41,0x7d00,0xbdc1,0xbc81,0x7c40,
  0xb401,0x74c0,0x7580,0xb541,0x7700,0xb7c1,0xb681,0x7640,0x7200,0xb2c1,0xb381,0x7340,0xb101,0x71c0,0x7080,0xb041,
  0x5000,0x90c1,0x9181,0x5140,0x9301,0x53c0,0x5280,0x9241,0x9601,0x56c0,0x5780,0x9741,0x5500,0x95c1,0x9481,0x5440,
  0x9c01,0x5cc0,0x5d80,0x9d41,0x5f00,0x9fc1,0x9e81,0x5e40,0x5a00,0x9ac1,0x9b81,0x5b40,0x9901,0x59c0,0x5880,0x9841,
  0x8801,0x48c0,0x4980,0x8941,0x4b00,0x8bc1,0x8a81,0x4a40,0x4e00,0x8ec1,0x8f81,0x4f40,0x8d01,0x4dc0,0x4c80,0x8c41,
  0x4400,0x84c1,0x8581,0x4540,0x8701,0x47c0,0x4680,0x8641,0x8201,0x42c0,0x4380,0x8341,0x4100,0x81c1,0x8081,0x4040]

-- A string ends at its NUL.
def cString (data : List UInt8) : List UInt8 := data.takeWhile fun c => c ≠ 0

def crcCalc (data : List UInt8) : UInt16 :=
  ((data.take cmsSiaIpMaxMsgLen).takeWhile fun c => c ≠ 0 ∧ c ≠ 0x0D).foldl
    (fun crc c => (crc >>> 8) ^^^ crcTable.getD (c ^^^ crc.toUInt8).toNat 0) 0

def cmsSiaIpInit (s : Sia) : Sia :=
  {s with account := 0, cnt := 0, linePrefix := 0, enableEventName := true, enableEventTime := true, enableTimeStamp := true}

/-- The line of a frame up to its data: `<seq>L<prefix>#<account>`. -/
def line (seq linePrefix account : Nat) : List UInt8 :=
  padded 10 4 seq ++ ascii "L" ++ numeral 16 linePrefix ++ ascii "#" ++ numeral 16 account

def text (content : Option (List UInt8)) : List UInt8 := cString (content.getD [])

def siaMsgAddEvent (w : World) (e : Event) : Option (List UInt8) :=
  (siaEventCode e.id).map fun code =>
    ascii "|Nri01/" ++ ascii code ++ numeral 16 (siaZone e.source) ++ ascii "^" ++ text (w.sourceText e.source) ++ ascii "^"

def siaMsgAddEventname (w : World) (e : Event) : List UInt8 := ascii "[I" ++ text (w.eventText e.id) ++ ascii "]"

def siaMsgAddEventtime (e : Event) : List UInt8 :=
  ascii "[H" ++ numeral 10 e.time.hour.toNat ++ ascii ":" ++ padded 10 2 e.time.minute.toNat ++ ascii ":" ++
    padded 10 2 e.time.second.toNat ++ ascii "]"

def siaMsgAddTimestamp (t : Rtc) : List UInt8 :=
  ascii "_" ++ padded 10 2 t.hour.toNat ++ ascii ":" ++ padded 10 2 t.minute.toNat ++ ascii ":" ++
    padded 10 2 t.second.toNat ++ ascii "," ++ padded 10 2 t.month.toNat ++ ascii "-" ++
    padded 10 2 t.day.toNat ++ ascii "-" ++ numeral 10 (2000 + t.year.toNat)

def frame (data : List UInt8) : List UInt8 :=
  [0x0A] ++ padded 16 4 (crcCalc data).toNat ++ ascii "0" ++ padded 16 3 data.length ++ data ++ [0x0D]

/-- `cms_sia_ip_build_msg`, without additional data: the message, and whether it is
within the length asserted. -/
def cmsSiaIpBuildMsg (w : World) (s : Sia) (e : Event) : Option (List UInt8 × Bool) :=
  (siaMsgAddEvent w e).map fun event =>
    let data := ascii "\"SIA-DCS\"" ++ line s.cnt s.linePrefix s.account ++ ascii "[" ++ event ++ ascii "]" ++
      (if s.enableEventName then siaMsgAddEventname w e else []) ++
      (if s.enableEventTime then siaMsgAddEventtime e else []) ++
      (if s.enableTimeStamp then siaMsgAddTimestamp w.time else [])
    (frame data,siaIdxData + data.length < cmsSiaIpMaxMsgLen)

def expect (c : UInt8) : List UInt8 → Option (List UInt8)
  | c' :: rest => if c' = c then some rest else none
  | [] => none

/-- `cms_sia_ip_rx`; what follows the data is the NUL written there. -/
def cmsSiaIpRx (data : List UInt8) : Bool :=
  if data.length < 20 then false
  else if data.head? ≠ some 0x0A then false
  else if cmsSiaIpMaxMsgLen < data.length then false
  else
    match scan 16 4 (cString (data.drop siaIdxCrc)),scan 16 4 (cString (data.drop siaIdxLen)) with
    | some (crc,_),some (len,_) =>
      let crc := UInt16.ofNat crc
      let len := UInt16.ofNat len
      if len &&& 0xF000 ≠ 0 then false
      else if crc ≠ crcCalc (data.drop siaIdxData) then false
      else data.length - siaIdxData - 1 = (len &&& 0x0FFF).toNat
    | _,_ => false

-- The two formats differ in the account; a conversion has no width.
def scanLine (text : List UInt8) : Option (Nat × Nat × List UInt8) := do
  let (a,text) ← scan 10 text.length text
  let text ← expect 0x4C text
  let (b,text) ← scan 16 text.length text
  some (a,b,text)

def scanAccount (text : List UInt8) : Option Nat := do
  let text ← expect 0x23 text
  let (c,_) ← scan 16 text.length text
  some c

/-- `cms_sia_ip_rx_ack`: the sequence number, and whether it is a NAK. -/
def cmsSiaIpRxAck (s : Sia) (data : List UInt8) : Option (Nat × Bool) :=
  if cmsSiaIpRx data = false then none
  else
    let text := cString (data.drop siaIdxData)
    if (ascii "\"ACK\"").isPrefixOf text then do
      let (a,b,text) ← scanLine (text.drop 5)
      let c ← scanAccount text
      if b = s.linePrefix ∧ c = s.account then some (a % 2 ^ 16,false) else none
    else if (ascii "\"NAK\"").isPrefixOf text then do
      let (a,b,_) ← scanLine (text.drop 5)
      if b = s.linePrefix then some (a % 2 ^ 16,true) else none
    else none

def siaProtoReinit (s : Sia) (account : Nat) : Sia :=
  {cmsSiaIpInit s with account := account % 2 ^ 32, packetOk := false}

def siaProtoNewEvent (w : World) (s : Sia) (e : Event) : Sia × Bool :=
  if s.packetOk then (s,false)
  else
    let s := {s with cnt := if 9999 < s.cnt + 1 then 1 else s.cnt + 1}
    match cmsSiaIpBuildMsg w s e with
    | none => (s,false)
    | some (packet,fits) => ({s with packet := packet, fits := fits, packetOk := true},true)

def siaProtoPacketReply (s : Sia) (data : List UInt8) : Reply :=
  match cmsSiaIpRxAck s data with
  | none => .none
  | some (seq,nak) => if seq ≠ s.cnt then .none else if nak then .nak else .ack

def cmsProtoSiaIp (w : World) : Proto Sia where
  reinit := siaProtoReinit
  newEvent := siaProtoNewEvent w
  packetReady s := s.packetOk
  getPacket s := s.packet
  packetDone s := {s with packetOk := false}
  packetReply s data := (s,siaProtoPacketReply s data)

theorem cmsProtoSiaIp_reply (w : World) (s : Sia) (data : List UInt8) :
    ((cmsProtoSiaIp w).packetReply s data).2 = siaProtoPacketReply s data := rfl

def untexted : World := ⟨fun _ => none,fun _ => none,⟨0,0,0,0,0,0⟩⟩

def statics : State Sia := ⟨0,0,0,0,0,false,0,⟨0,0,0,0,EventBuf.emptySlots⟩,[],⟨0,0,0,false,false,false,[],false,true⟩⟩

/-- The module after `cms_init`, over a buffer that already holds records. -/
def started (cfg : Config) (b : EventBuf.Buf) : State Sia :=
  {(cmsInit (cmsProtoSiaIp untexted) EventBuf.emptySlots cfg statics).2 with buf := b}

def demoConfig : Config := ⟨some (0x0100000A,some 4000),some 0x1234⟩

/-- The line of a message: what stands between its name and its data. -/
def lineOf (packet : List UInt8) : List UInt8 := (packet.drop (siaIdxData + 9)).takeWhile fun c => c ≠ 0x5B

/-- The acknowledgement of a message by its receiver. -/
def ackOf (packet : List UInt8) : List UInt8 := frame (ascii "\"ACK\"" ++ lineOf packet ++ ascii "[]")

def nakOf (packet : List UInt8) : List UInt8 :=
  frame (ascii "\"NAK\"" ++ (lineOf packet).takeWhile fun c => c ≠ 0x23)

def Carries (packet : List UInt8) (seq linePrefix account : Nat) : Prop :=
  ∃ rest, packet.drop siaIdxData = ascii "\"SIA-DCS\"" ++ line seq linePrefix account ++ ascii "[" ++ rest

section Frames

variable {data : List UInt8}

theorem frame_eq (short : data.length < 16 ^ 3) : frame data =
    0x0A :: (padded 16 4 (crcCalc data).toNat ++ (padded 16 4 data.length ++ (data ++ [0x0D]))) := by
  have zero : ascii "0" = [digit 0] := by decide
  rw [frame,padded_succ (by decide) (by decide) short,zero]
  simp

theorem crc_lt (data : List UInt8) : (crcCalc data).toNat < 16 ^ 4 := (crcCalc data).toNat_lt

theorem crc_length (data : List UInt8) : (padded 16 4 (crcCalc data).toNat).length = 4 :=
  padded_length (by decide) (by decide) (crc_lt data)

theorem size_length (short : data.length < 16 ^ 3) : (padded 16 4 data.length).length = 4 :=
  padded_length (by decide) (by decide) (Nat.lt_trans short (by decide))

theorem frame_length (short : data.length < 16 ^ 3) : (frame data).length = data.length + 10 := by
  rw [frame_eq short]
  simp only [List.length_cons,List.length_append,crc_length,size_length short,List.length_nil]
  omega

theorem frame_drop_crc (short : data.length < 16 ^ 3) : (frame data).drop siaIdxCrc =
    padded 16 4 (crcCalc data).toNat ++ (padded 16 4 data.length ++ (data ++ [0x0D])) := by
  rw [frame_eq short,siaIdxCrc,List.drop_one,List.tail_cons]

theorem frame_drop_len (short : data.length < 16 ^ 3) :
    (frame data).drop siaIdxLen = padded 16 4 data.length ++ (data ++ [0x0D]) := by
  rw [show siaIdxLen = siaIdxCrc + 4 from rfl,← List.drop_drop,frame_drop_crc short]
  exact List.drop_left' (crc_length data)

theorem frame_drop_data (short : data.length < 16 ^ 3) : (frame data).drop siaIdxData = data ++ [0x0D] := by
  rw [show siaIdxData = siaIdxLen + 4 from rfl,← List.drop_drop,frame_drop_len short]
  exact List.drop_left' (size_length short)

/-- Text without an end of a message or of a string. -/
def Plain (data : List UInt8) : Prop := ∀ c ∈ data, c ≠ 0 ∧ c ≠ 0x0D

theorem cString_plain (plain : ∀ c ∈ data, c ≠ 0) : cString data = data :=
  List.takeWhile_eq_self_iff.mpr fun c member => by simpa using plain c member

theorem plain_ended (plain : Plain data) : ∀ c ∈ data ++ [0x0D], c ≠ 0 := by
  intro c member
  rcases List.mem_append.mp member with own | last
  · exact (plain c own).1
  · rw [List.mem_singleton.mp last]
    decide

theorem crcCalc_end (plain : Plain data) (fits : data.length < cmsSiaIpMaxMsgLen) :
    crcCalc (data ++ [0x0D]) = crcCalc data := by
  have ended : (data ++ [0x0D]).takeWhile (fun c => decide (c ≠ 0 ∧ c ≠ 0x0D)) =
      data.takeWhile fun c => decide (c ≠ 0 ∧ c ≠ 0x0D) := by
    rw [List.takeWhile_append_of_pos fun c member => by simpa using plain c member]
    have own := List.takeWhile_eq_self_iff.mpr fun c member => decide_eq_true (plain c member)
    rw [own]
    simp
  rw [crcCalc,crcCalc,List.take_of_length_le (by simpa using fits),List.take_of_length_le (Nat.le_of_lt fits),ended]

theorem padded_nonzero {width n : Nat} : ∀ c ∈ padded 16 width n, c ≠ 0 := by
  intro c member
  obtain ⟨d,inside,rfl⟩ := mem_padded (by decide) member
  exact (digit_plain inside).2.2.2.2

theorem cmsSiaIpRx_frame (plain : Plain data) (long : 10 ≤ data.length) (short : data.length ≤ 230) :
    cmsSiaIpRx (frame data) = true := by
  have bound : data.length < 16 ^ 3 := Nat.lt_of_le_of_lt short (by decide)
  have text := plain_ended plain
  have sized : ∀ c ∈ padded 16 4 data.length ++ (data ++ [0x0D]), c ≠ 0 := by
    intro c member
    exact (List.mem_append.mp member).elim (padded_nonzero c) (text c)
  have whole : ∀ c ∈ padded 16 4 (crcCalc data).toNat ++ (padded 16 4 data.length ++ (data ++ [0x0D])), c ≠ 0 := by
    intro c member
    exact (List.mem_append.mp member).elim (padded_nonzero c) (sized c)
  have word {n : Nat} (less : n < 16 ^ 4) : n ≤ scanMax := by
    rw [scanMax]
    omega
  have crc : scan 16 4 (cString ((frame data).drop siaIdxCrc)) =
      some ((crcCalc data).toNat,padded 16 4 data.length ++ (data ++ [0x0D])) := by
    rw [frame_drop_crc bound,cString_plain whole]
    exact scan_padded (by decide) (by decide) (word (crc_lt data)) (Nat.le_of_eq (crc_length data))
      fun less => absurd less (by rw [crc_length]; decide)
  have size : scan 16 4 (cString ((frame data).drop siaIdxLen)) = some (data.length,data ++ [0x0D]) := by
    rw [frame_drop_len bound,cString_plain sized]
    exact scan_padded (by decide) (by decide) (word (by omega)) (Nat.le_of_eq (size_length bound))
      fun less => absurd less (by rw [size_length bound]; decide)
  have head : (frame data).head? = some 0x0A := by
    rw [frame_eq bound]
    rfl
  have length := frame_length bound
  have mask : ∀ n ≤ 230, UInt16.ofNat n &&& 0xF000 = 0 ∧ (UInt16.ofNat n &&& 0x0FFF).toNat = n := by
    decide +kernel
  obtain ⟨high,low⟩ := mask data.length short
  have checked := crcCalc_end plain (Nat.lt_of_le_of_lt short (by decide))
  unfold cmsSiaIpRx
  rw [if_neg (by omega),if_neg (not_not.mpr head),if_neg (by rw [length,cmsSiaIpMaxMsgLen]; omega),crc,size]
  dsimp only
  rw [if_neg (not_not.mpr high),frame_drop_data bound,checked,UInt16.ofNat_toNat,if_neg (not_not.mpr rfl),low,length]
  exact decide_eq_true (by rw [siaIdxData]; omega)

end Frames

section Replies

variable {seq linePrefix account : Nat}

theorem stops_of_head {base : Nat} {c : UInt8} (rest : List UInt8) (other : digitOf base c = none ∧ isX c = false) :
    Stops base (c :: rest) := by
  intro c' first
  cases first
  exact other

theorem scanLine_line (seqWord : seq ≤ scanMax) (prefixWord : linePrefix ≤ scanMax) {rest : List UInt8}
    (stops : Stops 16 rest) :
    scanLine (padded 10 4 seq ++ 0x4C :: (numeral 16 linePrefix ++ rest)) = some (seq,linePrefix,rest) := by
  have number (field : Nat) (fits : (padded 10 4 seq).length ≤ field) :
      scan 10 field (padded 10 4 seq ++ 0x4C :: (numeral 16 linePrefix ++ rest)) =
        some (seq,0x4C :: (numeral 16 linePrefix ++ rest)) :=
    scan_padded (by decide) (by decide) seqWord fits fun _ => stops_of_head _ (by decide)
  have code (field : Nat) (fits : (numeral 16 linePrefix).length ≤ field) :
      scan 16 field (numeral 16 linePrefix ++ rest) = some (linePrefix,rest) :=
    scan_numeral (by decide) (by decide) prefixWord fits stops
  rw [scanLine,number _ (by simp),Option.bind_eq_bind,Option.bind_some]
  dsimp only
  rw [expect,if_pos rfl,Option.bind_eq_bind,Option.bind_some,code _ (by simp),Option.bind_some]

theorem scanAccount_line (word : account ≤ scanMax) {rest : List UInt8} (stops : Stops 16 rest) :
    scanAccount (0x23 :: (numeral 16 account ++ rest)) = some account := by
  have number (field : Nat) (fits : (numeral 16 account).length ≤ field) :
      scan 16 field (numeral 16 account ++ rest) = some (account,rest) :=
    scan_numeral (by decide) (by decide) word fits stops
  rw [scanAccount,expect,if_pos rfl,Option.bind_eq_bind,Option.bind_some,number _ (by simp),Option.bind_eq_bind,
    Option.bind_some]

theorem line_eq (rest : List UInt8) : line seq linePrefix account ++ rest =
    padded 10 4 seq ++ 0x4C :: (numeral 16 linePrefix ++ 0x23 :: (numeral 16 account ++ rest)) := by
  have marks : ascii "L" = [0x4C] ∧ ascii "#" = [0x23] := by decide
  rw [line,marks.1,marks.2]
  simp

theorem digit_text {d : Nat} (inside : d < 16) :
    digit d ≠ 0 ∧ digit d ≠ 0x0D ∧ digit d ≠ 0x5B ∧ digit d ≠ 0x23 := by
  interval_cases d <;> decide

theorem line_text : ∀ c ∈ line seq linePrefix account, c ≠ 0 ∧ c ≠ 0x0D ∧ c ≠ 0x5B := by
  intro c member
  rw [← List.append_nil (line seq linePrefix account),line_eq] at member
  have digits {base width n : Nat} (big : 1 < base) (small : base ≤ 16) (own : c ∈ padded base width n) :
      c ≠ 0 ∧ c ≠ 0x0D ∧ c ≠ 0x5B := by
    obtain ⟨d,inside,rfl⟩ := mem_padded big own
    obtain ⟨nul,cr,bracket,_⟩ := digit_text (Nat.lt_of_lt_of_le inside small)
    exact ⟨nul,cr,bracket⟩
  rw [numeral_eq_padded,numeral_eq_padded] at member
  simp only [List.mem_append,List.mem_cons,List.not_mem_nil,or_false] at member
  rcases member with own | rfl | own | rfl | own
  · exact digits (by decide) (by decide) own
  · decide
  · exact digits (by decide) (by decide) own
  · decide
  · exact digits (by decide) (by decide) own

theorem line_length (seqSmall : seq < 10 ^ 4) (prefixWord : linePrefix ≤ scanMax) (word : account ≤ scanMax) :
    5 ≤ (line seq linePrefix account).length ∧ (line seq linePrefix account).length ≤ 22 := by
  have hex {n : Nat} (word : n ≤ scanMax) : (numeral 16 n).length ≤ 8 :=
    numeral_length (by decide) (by decide) (Nat.lt_of_le_of_lt word (by decide))
  have four : (padded 10 4 seq).length = 4 := padded_length (by decide) (by decide) seqSmall
  have marks : (ascii "L").length = 1 ∧ (ascii "#").length = 1 := by decide
  have before := hex prefixWord
  have after := hex word
  simp only [line,List.length_append,four,marks.1,marks.2]
  omega

def ackText (seq linePrefix account : Nat) : List UInt8 := ascii "\"ACK\"" ++ line seq linePrefix account ++ ascii "[]"

theorem rxAck_ackText (s : Sia) (seqSmall : seq < 10 ^ 4) (prefixWord : linePrefix ≤ scanMax)
    (word : account ≤ scanMax) : cmsSiaIpRxAck s (frame (ackText seq linePrefix account)) =
      if linePrefix = s.linePrefix ∧ account = s.account then some (seq,false) else none := by
  obtain ⟨long,short⟩ := @line_length seq linePrefix account seqSmall prefixWord word
  have parts : (ascii "\"ACK\"").length = 5 ∧ (ascii "[]").length = 2 := by decide
  have length : (ackText seq linePrefix account).length = (line seq linePrefix account).length + 7 := by
    simp only [ackText,List.length_append,parts.1,parts.2]
    omega
  have plain : Plain (ackText seq linePrefix account) := by
    have ends : Plain (ascii "\"ACK\"") ∧ Plain (ascii "[]") := by unfold Plain; decide +kernel
    intro c member
    rcases List.mem_append.mp member with front | last
    · rcases List.mem_append.mp front with name | own
      · exact ends.1 c name
      · exact ⟨(line_text c own).1,(line_text c own).2.1⟩
    · exact ends.2 c last
  have received : cString ((frame (ackText seq linePrefix account)).drop siaIdxData) =
      ascii "\"ACK\"" ++ (line seq linePrefix account ++ (ascii "[]" ++ [0x0D])) := by
    rw [frame_drop_data (by omega),cString_plain (plain_ended plain)]
    simp [ackText]
  have named : (ascii "\"ACK\"").isPrefixOf
      (ascii "\"ACK\"" ++ (line seq linePrefix account ++ (ascii "[]" ++ [0x0D]))) = true :=
    List.isPrefixOf_iff_prefix.mpr (List.prefix_append _ _)
  have bracket : ascii "[]" ++ [0x0D] = 0x5B :: [0x5D,0x0D] := by decide
  unfold cmsSiaIpRxAck
  rw [cmsSiaIpRx_frame plain (by omega) (by omega),if_neg (by simp),received]
  dsimp only
  rw [if_pos named,List.drop_left' parts.1,line_eq,scanLine_line (by rw [scanMax]; omega) prefixWord
    (stops_of_head _ (by decide)),Option.bind_eq_bind,Option.bind_some]
  dsimp only
  rw [bracket,scanAccount_line word (stops_of_head _ (by decide)),Option.bind_eq_bind,Option.bind_some,
    Nat.mod_eq_of_lt (by omega)]

theorem Carries.lineOf {packet : List UInt8} (carries : Carries packet seq linePrefix account) :
    lineOf packet = line seq linePrefix account := by
  obtain ⟨rest,message⟩ := carries
  have name : (ascii "\"SIA-DCS\"").length = 9 := by decide
  have bracket : ascii "[" = [0x5B] := by decide
  have own : ∀ c ∈ line seq linePrefix account, (decide (c ≠ 0x5B)) = true :=
    fun c member => decide_eq_true (line_text c member).2.2
  rw [CmsSia.lineOf,← List.drop_drop,message,List.append_assoc,List.append_assoc,List.drop_left' name,
    List.takeWhile_append_of_pos own,bracket]
  simp

theorem reply_ackOf (s : Sia) {packet : List UInt8} (carries : Carries packet seq linePrefix account)
    (seqSmall : seq < 10 ^ 4) (prefixWord : linePrefix ≤ scanMax) (word : account ≤ scanMax) :
    siaProtoPacketReply s (ackOf packet) =
      if linePrefix = s.linePrefix ∧ account = s.account ∧ seq = s.cnt then .ack else .none := by
  have answer := rxAck_ackText s seqSmall prefixWord word
  rw [siaProtoPacketReply,ackOf,carries.lineOf]
  rw [ackText] at answer
  rw [answer]
  by_cases matched : linePrefix = s.linePrefix ∧ account = s.account
  · rw [if_pos matched]
    by_cases current : seq = s.cnt
    · rw [if_pos ⟨matched.1,matched.2,current⟩]
      simp [current]
    · rw [if_neg fun all => current all.2.2]
      simp [current]
  · rw [if_neg matched,if_neg fun all => matched ⟨all.1,all.2.1⟩]

end Replies

section Messages

theorem buildMsg_carries {w : World} {s : Sia} {e : Event} {packet : List UInt8}
    (built : cmsSiaIpBuildMsg w s e = some (packet,true)) : Carries packet s.cnt s.linePrefix s.account := by
  unfold cmsSiaIpBuildMsg at built
  cases reported : siaMsgAddEvent w e with
  | none => exact absurd built (by simp [reported])
  | some event =>
    rw [reported,Option.map_some,Option.some.injEq,Prod.mk.injEq,decide_eq_true_eq] at built
    obtain ⟨rfl,fits⟩ := built
    generalize (if s.enableEventName then siaMsgAddEventname w e else []) = name at fits ⊢
    generalize (if s.enableEventTime then siaMsgAddEventtime e else []) = time at fits ⊢
    generalize (if s.enableTimeStamp then siaMsgAddTimestamp w.time else []) = stamp at fits ⊢
    refine ⟨event ++ (ascii "]" ++ (name ++ (time ++ (stamp ++ [0x0D])))),?_⟩
    rw [frame_drop_data]
    · simp only [List.append_assoc]
    · rw [siaIdxData,cmsSiaIpMaxMsgLen] at fits
      omega

end Messages

section Construction

/-- Some bytes of a buffer written over. -/
def overwrite (buf : List UInt8) (i : Nat) (bytes : List UInt8) : List UInt8 := buf.take i ++ bytes ++ buf.drop (i + bytes.length)

/-- What `cms_sia_ip_build_msg` does to the buffer at last; each `sprintf` writes a NUL behind its text. -/
def patch (buf : List UInt8) : List UInt8 :=
  let outLen := buf.length - siaIdxData
  let crc := crcCalc (buf.drop siaIdxData)
  let buf := overwrite buf 0 [0x0A]
  let buf := overwrite buf siaIdxCrc (padded 16 4 crc.toNat ++ [0])
  let buf := overwrite buf siaIdxLen (ascii "0" ++ padded 16 3 outLen ++ [0])
  let buf := overwrite buf siaIdxData (ascii "\"")
  buf ++ [0x0D]

theorem overwrite_append {first old bytes rest : List UInt8} {i : Nat} (before : first.length = i) (same : old.length = bytes.length) :
    overwrite (first ++ (old ++ rest)) i bytes = first ++ (bytes ++ rest) := by
  rw [overwrite,List.take_left' before,← before,← List.drop_drop,List.drop_left' rfl,List.drop_left' same,List.append_assoc]

theorem overwrite_head {lf crc first len : List UInt8} (lfLength : lf.length = 1) (crcLength : crc.length = 4)
    (firstLength : first.length = 1) (lenLength : len.length = 3) (c data : List UInt8) (cLength : c.length = 4) (l : List UInt8)
    (lLength : l.length = 4) :
    overwrite (overwrite (overwrite (overwrite (lf ++ (crc ++ (first ++ (len ++ (ascii "\"" ++ data))))) 0 [0x0A]) siaIdxCrc (c ++ [0]))
      siaIdxLen (l ++ [0])) siaIdxData (ascii "\"") = [0x0A] ++ (c ++ (l ++ (ascii "\"" ++ data))) := by
  have quote : (ascii "\"").length = 1 := rfl
  have one (rest : List UInt8) : overwrite (lf ++ rest) 0 [0x0A] = [0x0A] ++ rest :=
    @overwrite_append [] lf [0x0A] rest 0 rfl lfLength
  have two (rest : List UInt8) : overwrite ([0x0A] ++ (crc ++ (first ++ rest))) siaIdxCrc (c ++ [0]) = [0x0A] ++ (c ++ ([0] ++ rest)) := by
    rw [← List.append_assoc crc,← List.append_assoc c]
    exact overwrite_append rfl (by simp only [List.length_append,crcLength,firstLength,cLength]; rfl)
  have three (rest : List UInt8) : overwrite ([0x0A] ++ (c ++ ([0] ++ (len ++ (ascii "\"" ++ rest))))) siaIdxLen (l ++ [0]) =
      [0x0A] ++ (c ++ (l ++ ([0] ++ rest))) := by
    have written := @overwrite_append ([0x0A] ++ c) ([0] ++ len ++ ascii "\"") (l ++ [0]) rest siaIdxLen
      (by rw [List.length_append,cLength]; rfl)
      (by simp only [List.length_append,lenLength,lLength,quote,List.length_singleton])
    simpa only [List.append_assoc] using written
  have four (rest : List UInt8) : overwrite ([0x0A] ++ (c ++ (l ++ ([0] ++ rest)))) siaIdxData (ascii "\"") =
      [0x0A] ++ (c ++ (l ++ (ascii "\"" ++ rest))) := by
    have written := @overwrite_append ([0x0A] ++ c ++ l) [0] (ascii "\"") rest siaIdxData
      (by simp only [List.length_append,cLength,lLength]; rfl) rfl
    simpa only [List.append_assoc] using written
  rw [one,two,three,four]

/-- The quote at the front of the data is put back. -/
theorem patch_eq {head data : List UInt8} (space : head.length = siaIdxData) (short : (ascii "\"" ++ data).length < 16 ^ 3) :
    patch (head ++ (ascii "\"" ++ data)) = frame (ascii "\"" ++ data) := by
  rw [siaIdxData] at space
  have split : head = head.take 1 ++ ((head.drop 1).take 4 ++ ((head.drop 5).take 1 ++ head.drop 6)) := by
    rw [← List.drop_drop (i := 1) (j := 5),List.take_append_drop,← List.drop_drop (i := 4) (j := 1),List.take_append_drop,
      List.take_append_drop]
  have size : (head ++ (ascii "\"" ++ data)).length - siaIdxData = (ascii "\"" ++ data).length := by
    rw [List.length_append,space,siaIdxData,Nat.add_sub_cancel_left]
  have behind : (head ++ (ascii "\"" ++ data)).drop siaIdxData = ascii "\"" ++ data := List.drop_left' space
  have crc := crc_length (ascii "\"" ++ data)
  have len : (ascii "0" ++ padded 16 3 (ascii "\"" ++ data).length).length = 4 := by
    rw [List.length_append,padded_length (by decide) (by decide) short]
    rfl
  rw [patch,size,behind,split]
  simp only [List.append_assoc]
  rw [← List.append_assoc (ascii "0"),overwrite_head (by rw [List.length_take]; omega) (by rw [List.length_take,List.length_drop]; omega)
    (by rw [List.length_take,List.length_drop]; omega) (by rw [List.length_drop]; omega) _ data crc _ len,frame]
  simp only [List.append_assoc]

/-- Text of bounded length that neither ends a message nor a string. -/
def Short (most : Nat) (data : List UInt8) : Prop := data.length ≤ most ∧ Plain data

instance (most : Nat) (data : List UInt8) : Decidable (Short most data) :=
  inferInstanceAs (Decidable (_ ∧ ∀ c ∈ data, c ≠ 0 ∧ c ≠ 0x0D))

theorem Short.append {a b : Nat} {first second : List UInt8} (left : Short a first) (right : Short b second) :
    Short (a + b) (first ++ second) := by
  refine ⟨by rw [List.length_append]; exact Nat.add_le_add left.1 right.1,fun c member => ?_⟩
  exact (List.mem_append.mp member).elim (left.2 c) (right.2 c)

theorem Short.mono {a b : Nat} {data : List UInt8} (short : Short a data) (less : a ≤ b) : Short b data :=
  ⟨Nat.le_trans short.1 less,short.2⟩

theorem Short.optional {a : Nat} {data : List UInt8} (short : Short a data) (enabled : Bool) :
    Short a (if enabled then data else []) := by
  cases enabled
  · exact ⟨Nat.zero_le _,fun c member => absurd member List.not_mem_nil⟩
  · exact short

theorem padded_short {base width n most : Nat} (big : 1 < base) (small : base ≤ 16) (some : 0 < most) (wide : width ≤ most)
    (bound : n < base ^ most) : Short most (padded base width n) := by
  have fits := numeral_length big some bound
  refine ⟨?_,fun c member => ?_⟩
  · rw [padded,List.length_append,List.length_replicate]
    omega
  · obtain ⟨d,inside,rfl⟩ := mem_padded big member
    obtain ⟨nul,cr,_⟩ := digit_text (Nat.lt_of_lt_of_le inside small)
    exact ⟨nul,cr⟩

theorem numeral_short {base n most : Nat} (big : 1 < base) (small : base ≤ 16) (some : 0 < most) (bound : n < base ^ most) :
    Short most (numeral base n) := by
  rw [numeral_eq_padded]
  exact padded_short big small some (Nat.zero_le _) bound

theorem byte_short (width : Nat) (wide : width ≤ 3) (b : UInt8) : Short 3 (padded 10 width b.toNat) :=
  padded_short (by decide) (by decide) (by decide) wide (Nat.lt_trans b.toNat_lt (by decide))

theorem siaEventCode_short {id : UInt8} {code : String} (reported : siaEventCode id = some code) : Short 2 (ascii code) := by
  have all : ∀ entry ∈ siaEventTable, ∀ code ∈ entry.2, Short 2 (ascii code) := by decide +kernel
  rw [siaEventCode] at reported
  split at reported
  · rename_i found
    subst reported
    exact all _ (List.mem_of_find?_eq_some found) code rfl
  · cases reported

theorem siaZone_lt (source : UInt8) : siaZone source < 16 := by
  have all : ∀ entry ∈ siaSourceTable, entry.2 < 16 := by decide
  rw [siaZone]
  split
  · rename_i found
    exact all _ (List.mem_of_find?_eq_some found)
  · decide

theorem text_short {content : Option (List UInt8)} (plain : ∀ configured ∈ content, Short 61 configured) : Short 61 (text content) := by
  cases content with
  | none => exact ⟨Nat.zero_le _,fun c member => absurd member List.not_mem_nil⟩
  | some configured =>
    obtain ⟨length,plain⟩ := plain configured rfl
    rw [text,Option.getD_some,cString_plain fun c member => (plain c member).1]
    exact ⟨length,plain⟩

theorem line_short {seq linePrefix account : Nat} (seqSmall : seq < 10 ^ 4) (prefixWord : linePrefix ≤ scanMax) (word : account ≤ scanMax) :
    Short 22 (line seq linePrefix account) :=
  ⟨(line_length seqSmall prefixWord word).2,fun c member => ⟨(line_text c member).1,(line_text c member).2.1⟩⟩

variable {w : World} {s : Sia} {e : Event}

theorem event_short (named : ∀ configured ∈ w.sourceText e.source, Short 61 configured) {event : List UInt8}
    (reported : siaMsgAddEvent w e = some event) : Short 73 event := by
  rw [siaMsgAddEvent] at reported
  obtain ⟨code,known,rfl⟩ := Option.map_eq_some_iff.mp reported
  have head : Short 7 (ascii "|Nri01/") := by decide +kernel
  have caret : Short 1 (ascii "^") := by decide +kernel
  have zone := @numeral_short 16 (siaZone e.source) 1 (by decide) (by decide) (by decide) (siaZone_lt e.source)
  exact ((((head.append (siaEventCode_short known)).append zone).append caret).append (text_short named)).append caret

theorem eventname_short (named : ∀ configured ∈ w.eventText e.id, Short 61 configured) : Short 64 (siaMsgAddEventname w e) := by
  have head : Short 2 (ascii "[I") := by decide +kernel
  have close : Short 1 (ascii "]") := by decide +kernel
  exact (head.append (text_short named)).append close

theorem eventtime_short (e : Event) : Short 14 (siaMsgAddEventtime e) := by
  have head : Short 2 (ascii "[H") := by decide +kernel
  have colon : Short 1 (ascii ":") := by decide +kernel
  have close : Short 1 (ascii "]") := by decide +kernel
  have hour := byte_short 0 (by decide) e.time.hour
  rw [← numeral_eq_padded] at hour
  exact (((((head.append hour).append colon).append (byte_short 2 (by decide) e.time.minute)).append colon).append
    (byte_short 2 (by decide) e.time.second)).append close

theorem timestamp_short (t : Rtc) : Short 25 (siaMsgAddTimestamp t) := by
  have score : Short 1 (ascii "_") := by decide +kernel
  have colon : Short 1 (ascii ":") := by decide +kernel
  have comma : Short 1 (ascii ",") := by decide +kernel
  have hyphen : Short 1 (ascii "-") := by decide +kernel
  have two := byte_short 2 (by decide)
  have year := @numeral_short 10 (2000 + t.year.toNat) 4 (by decide) (by decide) (by decide) (by have := t.year.toNat_lt; omega)
  exact ((((((((((score.append (two t.hour)).append colon).append (two t.minute)).append colon).append (two t.second)).append
    comma).append (two t.month)).append hyphen).append (two t.day)).append hyphen).append year

/-- The data of a message around the field of its event. -/
def msgData (w : World) (s : Sia) (e : Event) (event : List UInt8) : List UInt8 :=
  ascii "\"SIA-DCS\"" ++ line s.cnt s.linePrefix s.account ++ ascii "[" ++ event ++ ascii "]" ++
    (if s.enableEventName then siaMsgAddEventname w e else []) ++
    (if s.enableEventTime then siaMsgAddEventtime e else []) ++
    (if s.enableTimeStamp then siaMsgAddTimestamp w.time else [])

theorem buildMsg_eq {event : List UInt8} (added : siaMsgAddEvent w e = some event) : cmsSiaIpBuildMsg w s e =
    some (frame (msgData w s e event),decide (siaIdxData + (msgData w s e event).length < cmsSiaIpMaxMsgLen)) := by
  rw [cmsSiaIpBuildMsg,added]
  rfl

theorem msgData_quote (event : List UInt8) : ∃ rest, msgData w s e event = ascii "\"" ++ rest ∧ 9 ≤ rest.length := by
  have quote : ascii "\"SIA-DCS\"" = ascii "\"" ++ ascii "SIA-DCS\"" := by decide +kernel
  have eight : (ascii "SIA-DCS\"").length = 8 := by decide +kernel
  have one : (ascii "[").length = 1 := rfl
  simp only [msgData,quote,List.append_assoc]
  refine ⟨_,rfl,?_⟩
  simp only [List.length_append,eight,one]
  omega

theorem msgData_short (seqSmall : s.cnt ≤ 9999) (prefixWord : s.linePrefix < 2 ^ 32) (word : s.account < 2 ^ 32)
    (sourceNamed : ∀ configured ∈ w.sourceText e.source, Short 61 configured)
    (eventNamed : ∀ configured ∈ w.eventText e.id, Short 61 configured) {event : List UInt8}
    (added : siaMsgAddEvent w e = some event) : Short 209 (msgData w s e event) := by
  have name : Short 9 (ascii "\"SIA-DCS\"") := by decide +kernel
  have bracket : Short 1 (ascii "[") := by decide +kernel
  have close : Short 1 (ascii "]") := by decide +kernel
  have line := @line_short s.cnt s.linePrefix s.account (by omega) (by rw [scanMax]; omega) (by rw [scanMax]; omega)
  have named := (eventname_short eventNamed).optional s.enableEventName
  have timed := (eventtime_short e).optional s.enableEventTime
  have stamped := (timestamp_short w.time).optional s.enableTimeStamp
  exact ((((((name.append line).append bracket).append (event_short sourceNamed added)).append close).append named).append timed).append
    stamped

/-- The frame of a reported event is within its limit, is what comes of the buffer, and is accepted. -/
theorem buildMsg_valid (seqSmall : s.cnt ≤ 9999) (prefixWord : s.linePrefix < 2 ^ 32) (word : s.account < 2 ^ 32)
    (reported : siaEventCode e.id ≠ none) (sourceNamed : ∀ configured ∈ w.sourceText e.source, Short 61 configured)
    (eventNamed : ∀ configured ∈ w.eventText e.id, Short 61 configured) :
    ∃ data, cmsSiaIpBuildMsg w s e = some (frame data,true) ∧
      (∀ head, head.length = siaIdxData → patch (head ++ data) = frame data) ∧ cmsSiaIpRx (frame data) = true := by
  obtain ⟨code,known⟩ := Option.ne_none_iff_exists'.mp reported
  obtain ⟨event,added⟩ : ∃ event, siaMsgAddEvent w e = some event := by rw [siaMsgAddEvent,known]; exact ⟨_,rfl⟩
  obtain ⟨length,plain⟩ := msgData_short seqSmall prefixWord word sourceNamed eventNamed added
  obtain ⟨rest,quoted,long⟩ := @msgData_quote w s e event
  have one : (ascii "\"").length = 1 := rfl
  refine ⟨msgData w s e event,?_,fun head space => ?_,cmsSiaIpRx_frame plain ?_ (Nat.le_trans length (by decide))⟩
  · rw [buildMsg_eq added,decide_eq_true]
    rw [siaIdxData,cmsSiaIpMaxMsgLen]
    omega
  · rw [quoted] at length ⊢
    exact patch_eq space (by omega)
  · rw [quoted,List.length_append,one]
    omega

/-- With the longest texts, and the highest number, prefix and account. -/
theorem buildMsg_valid_longest :
    ∃ data, cmsSiaIpBuildMsg ⟨fun _ => some (List.replicate 61 0x41),fun _ => some (List.replicate 61 0x42),⟨99,12,31,23,59,59⟩⟩
        ⟨2 ^ 32 - 1,9999,2 ^ 32 - 1,true,true,true,[],false,true⟩ ⟨0,⟨99,12,31,23,59,59⟩,EventId.alarm.code,EventSource.input1.code⟩ =
          some (frame data,true) ∧
      (∀ head, head.length = siaIdxData → patch (head ++ data) = frame data) ∧ cmsSiaIpRx (frame data) = true :=
  have all (c : UInt8) (plain : c ≠ 0 ∧ c ≠ 0x0D) : ∀ configured ∈ some (List.replicate 61 c), Short 61 configured := by
    intro configured member
    obtain rfl := Option.some.inj member
    exact ⟨Nat.le_of_eq List.length_replicate,fun c' inside => (List.eq_of_mem_replicate inside).symm ▸ plain⟩
  buildMsg_valid (by decide) (by decide) (by decide) (by decide) (all 0x41 (by decide)) (all 0x42 (by decide))

end Construction
end JcaFirmware.CmsSia
