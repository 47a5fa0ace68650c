import JcaFirmware.Event
import JcaFirmware.Foundation.Numeral
import JcaFirmware.TracerBuffer

/-! The H02 protocol of the tracker (`app/tracer/tracer_h02.c`): the unit id, the
length of the packet prepared, and the packet in the common buffer. -/
namespace JcaFirmware.TracerH02
open Foundation.Numeral TracerBuffer

structure GpsStamp where
  lonSec : Int
  latSec : Int
  speed : Nat
  angle : Nat
  fix : Nat
  time : Rtc

/-- What lies outside of the repository: the packed layout of the clock in a
stored position, the floating-point conversion to hundredths of a knot, and the
parser functions of the SDK. -/
structure Sdk where
  stamp : Vector UInt8 22 → GpsStamp
  knots : Nat → Nat
  parsePattern : List UInt8 → List UInt8 → Option (List UInt8)
  parseNumber : List UInt8 → Option (Int × List UInt8)

/-- The statics of the protocol, with `tracer_packet_buffer`. -/
structure H02 where
  unitId : Nat
  packetLen : Nat
  packet : List UInt8

-- The common buffer is cleared by the caller.
def reinit (unitId : Nat) (s : H02) : H02 := {s with unitId := unitId, packetLen := 0}

def packetSize (s : H02) : Nat := (s.packetLen + 1) % 2 ^ 16

def packetReady (s : H02) : Bool := s.packetLen ≠ 0

def packetDone (s : H02) : H02 := {s with packetLen := 0}

def packetReplyOk (sdk : Sdk) (s : H02) (data : List UInt8) : Bool :=
  if data.length < 11 then false
  else
    match sdk.parsePattern data (ascii "*HQ,") with
    | none => false
    | some p =>
      match sdk.parseNumber p with
      | none => false
      | some (id,p) => id % 2 ^ 32 = s.unitId && (sdk.parsePattern p (ascii ",V4,V1")).isSome

-- `track_info_t`: seven bits of user, one of track type, eight of inputs, outputs and reserve each.
def infoInputs (info : UInt32) : UInt32 := info >>> 8 &&& 0xFF
def infoRes (info : UInt32) : UInt32 := info >>> 24

def tracerInpPanic : UInt32 := 1
def tracerInpKey : UInt32 := 8
def tracerInpDoor : UInt32 := 16
def tracerInpShock : UInt32 := 32
def trackResPowerFail : UInt32 := 2

def statusVibration : UInt32 := 1
def statusIgnition : UInt32 := 0x400
def statusDoor : UInt32 := 0x10000
def statusPowerCut : UInt32 := 0x80000

def statusBuild (info : UInt32) : UInt32 :=
  let status := 0xFFFFFFFF &&& ~~~(statusIgnition ||| statusDoor)
  let status := if infoInputs info &&& (tracerInpPanic ||| tracerInpShock) ≠ 0 then status &&& ~~~statusVibration
    else status
  let status := if infoInputs info &&& tracerInpKey ≠ 0 then status ||| statusIgnition else status
  let status := if infoInputs info &&& tracerInpDoor ≠ 0 then status ||| statusDoor else status
  if infoRes info &&& trackResPowerFail ≠ 0 then status &&& ~~~statusPowerCut else status

/-- Degrees, minutes and their decimals; `wide` is the width of the degrees. -/
def coordinate (wide : Nat) (seconds : Int) (positive negative : String) : List UInt8 :=
  let sec := seconds.natAbs
  let dg := sec / (6000 * 60)
  let sec := sec % (6000 * 60)
  let min := sec / 6000
  let subMin := 10000 * (sec % 6000) / 6000
  padded 10 wide dg ++ padded 10 2 min ++ ascii "." ++ padded 10 4 subMin ++ ascii "," ++
    ascii (if 0 ≤ seconds then positive else negative) ++ ascii ","

def packetText (sdk : Sdk) (unitId : Nat) (pos : GpsStamp) (info : UInt32) : List UInt8 :=
  let two (b : UInt8) := padded 10 2 b.toNat
  let s := sdk.knots pos.speed
  List.flatten [
    ascii "*HQ,",numeral 10 unitId,ascii ",V1,",
    two pos.time.hour,two pos.time.minute,two pos.time.second,ascii ",",
    ascii (if pos.fix = 0 then "V," else "A,"),
    coordinate 2 pos.latSec "N" "S",coordinate 3 pos.lonSec "E" "W",
    padded 10 3 (s / 100),ascii ".",padded 10 2 (s % 100),ascii ",",
    padded 10 3 pos.angle,ascii ",",
    if pos.fix = 0 then ascii "010100,"
    else two pos.time.day ++ two pos.time.month ++ two pos.time.year ++ ascii ",",
    padded 16 8 (statusBuild info).toNat,ascii "#"]

/-- `tracer_h02_new_point`; the track and its end do not go into the packet. -/
def newPoint (sdk : Sdk) (b : TracerBuf) (s : H02) : H02 :=
  let text := packetText sdk s.unitId (sdk.stamp b.position) b.info
  {s with packet := text, packetLen := text.length - 1}

theorem newPoint_ready (sdk : Sdk) (b : TracerBuf) (s : H02) : packetReady (newPoint sdk b s) = true := by
  have long : 4 ≤ (packetText sdk s.unitId (sdk.stamp b.position) b.info).length := by
    rw [packetText,List.flatten_cons,List.length_append]
    exact Nat.le_add_right _ _
  rw [packetReady,newPoint,decide_eq_true_iff]
  dsimp only
  omega

@[simp] theorem reinit_ready (unitId : Nat) (s : H02) : packetReady (reinit unitId s) = false := rfl

@[simp] theorem packetDone_ready (s : H02) : packetReady (packetDone s) = false := rfl

end JcaFirmware.TracerH02
