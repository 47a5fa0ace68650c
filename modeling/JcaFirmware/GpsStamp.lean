import JcaFirmware.Foundation.CText
import JcaFirmware.Foundation.Run
import JcaFirmware.Foundation.Scan
import JcaFirmware.Nmea

/-! Positions of the GPS receiver (`gps_data_parser` in `app/gps.c`): a stamp is put together from
several sentences, and kept as the last valid one. -/
namespace JcaFirmware.GpsStamp
open Foundation Numeral CText Nmea

section Parsing

/-- A field of 32 bits. -/
def wrapped (n : Int) : Int := n.bmod (2 ^ 32)

/-- `nmea_parse_gga` with the widths of the stamp. -/
def nmeaParseGga (stamp : NmeaData) (sentence : List UInt8) : Option NmeaData :=
  (Nmea.nmeaParseGga stamp sentence).map fun d => {d with latSec := wrapped d.latSec, lonSec := wrapped d.lonSec}

/-- `sscanf` with `%d.%1d` finds one number or two. -/
def knotsTo10kmh (s : List UInt8) : Nat :=
  match number 10 s with
  | none => 0
  | some (a,rest) =>
    let b : Int := match rest with
      | 0x2E :: rest => ((scan 10 1 rest).map fun found => (found.1 : Int)).getD 0
      | _ => 0
    let tmp := wrapped (wrapped (b + 10 * storedSigned a) * 1852)
    (tmp.tdiv 1000 % 2 ^ 16).toNat

def byteOf (text : List UInt8) : UInt8 := UInt8.ofInt (atoi text)

def nmeaParseRmc (stamp : NmeaData) (sentence : List UInt8) : NmeaData :=
  let limit := paramBufSize - 1
  let stamp := match getParam sentence 1 limit with
    | some buf =>
      if 6 ≤ buf.length then
        {stamp with time := {stamp.time with
          second := byteOf (buf.drop 4), minute := byteOf ((buf.take 4).drop 2), hour := byteOf (buf.take 2)}}
      else stamp
    | none => stamp
  let stamp := match getParam sentence 7 limit with
    | some buf => if 0 < buf.length then {stamp with speed := knotsTo10kmh buf % 2 ^ 15} else stamp
    | none => stamp
  let stamp := match getParam sentence 9 limit with
    | some buf =>
      if buf.length = 6 then
        {stamp with time := {stamp.time with
          year := byteOf (buf.drop 4), month := byteOf ((buf.take 4).drop 2), day := byteOf (buf.take 2)}}
      else stamp
    | none => stamp
  {stamp with angle := nmeaParseU32 sentence 8 % 2 ^ 9}

def glonassId : UInt8 := 0x4C

/-- The satellites in view, and whether they are of GLONASS. -/
def nmeaParseGsv (protocolId : UInt8) (sentence : List UInt8) : Nat × Bool :=
  (nmeaParseU32 sentence 3 % 2 ^ 8,protocolId = glonassId)

end Parsing

section Parser

/-- The statics that `gps_data_parser` reads and writes. -/
structure State where
  validData : UInt8
  gpsStampTmp : NmeaData
  gpsStampLast : NmeaData
  gpsStampLastValid : NmeaData
  fixTm : Nat
  sleepMode : Bool
  sleepTmr : Nat
  errorCnt : Nat
  gpsRxOk : Bool
  gpsUnsolicited : UInt8
  gpsNbsatVisible : Nat
  glonassNbsatVisible : Nat
  glonassUsed : Bool
  gpsJamming : Nat
  pmtkAck : Nat

inductive Kind | gga | gsa | gsv | rmc | vtg | gll | txt | other
deriving DecidableEq, Repr

def Kind.mask : Kind → UInt8
  | .gga => 1
  | .gsa => 2
  | .gsv => 4
  | .rmc => 8
  | .vtg => 16
  | .gll => 32
  | .txt | .other => 0

def gpsNmeaPmtk : UInt8 := 64

def gpsNmeaRequired : UInt8 := Kind.rmc.mask ||| Kind.gga.mask ||| Kind.gsv.mask

def blank : NmeaData := ⟨⟨0,0,0,0,0,⟨0,0,0,0,0,0⟩⟩,0,0,0⟩

def sleepTimeout : Nat := 3 * 60 * 10

def sleepDelay : Nat := 15 * 10

/-- What `gps_init` leaves of them. -/
def start : State where
  validData := 0
  gpsStampTmp := blank
  gpsStampLast := blank
  gpsStampLastValid := blank
  fixTm := 0
  sleepMode := true
  sleepTmr := 0
  errorCnt := 0
  gpsRxOk := false
  gpsUnsolicited := gpsNmeaPmtk
  gpsNbsatVisible := 0
  glonassNbsatVisible := 0
  glonassUsed := false
  gpsJamming := 0
  pmtkAck := 0

-- `stricmp2` is a function of the SDK; here it says whether the texts match.
variable (stricmp2 : List UInt8 → List UInt8 → Bool)

def kindOf (data : List UInt8) : Kind :=
  if stricmp2 data (ascii "GGA") then .gga
  else if stricmp2 data (ascii "GSA") then .gsa
  else if stricmp2 data (ascii "GSV") then .gsv
  else if stricmp2 data (ascii "RMC") then .rmc
  else if stricmp2 data (ascii "VTG") then .vtg
  else if stricmp2 data (ascii "GLL") then .gll
  else if stricmp2 data (ascii "TXT") then .txt
  else .other

/-- The texts that are no sentences; with the state comes whether the text is printed. -/
def parseOther (s : State) (data : List UInt8) : State × Bool :=
  let echo : Bool := s.gpsUnsolicited &&& gpsNmeaPmtk ≠ 0
  if stricmp2 data (ascii "$PMTK") then
    let data := data.drop 5
    if data.take 3 = ascii "SPF" then
      let c := (data.drop 3).getD 1 0
      if c = 0x31 then ({s with gpsJamming := 0},false)
      else if c = 0x32 then ({s with gpsJamming := 1},echo)
      else if c = 0x33 then ({s with gpsJamming := 2},echo)
      else (s,echo)
    else if data.take 3 = ascii "001" then ({s with pmtkAck := 1},echo)
    else (s,echo)
  else if stricmp2 data (ascii "$PQ") then (s,echo)
  else (s,false)

def seen (s : State) (kind : Kind) : State := {s with validData := s.validData ||| kind.mask}

/-- The sentence behind its protocol id. -/
def decode (s : State) (protocolId : UInt8) (data : List UInt8) : State × Bool :=
  let kind := kindOf stricmp2 data
  let echo : Bool := s.gpsUnsolicited &&& kind.mask ≠ 0
  match kind with
  | .gga =>
    match nmeaParseGga s.gpsStampTmp data with
    | some stamp => (seen {s with gpsStampTmp := stamp} .gga,echo)
    | none => (s,echo)
  | .gsv =>
    let (nbsat,isGlonass) := nmeaParseGsv protocolId data
    let s := if isGlonass then {s with glonassUsed := true, glonassNbsatVisible := nbsat} else {s with gpsNbsatVisible := nbsat}
    (seen s .gsv,echo)
  | .rmc => (seen {s with gpsStampTmp := nmeaParseRmc s.gpsStampTmp data} .rmc,echo)
  | .gsa => (seen s .gsa,echo)
  | .vtg => (seen s .vtg,echo)
  | .gll => (seen s .gll,echo)
  | .txt => (s,false)
  | .other => (s,true)

/-- Within the degrees of the globe. -/
def InRange (stamp : NmeaData) : Prop :=
  ¬ (stamp.latSec > 90 * 6000 * 60 ∨ stamp.latSec < -90 * 6000 * 60 ∨ stamp.lonSec > 180 * 6000 * 60 ∨
    stamp.lonSec < -180 * 6000 * 60)

instance (stamp : NmeaData) : Decidable (InRange stamp) := inferInstanceAs (Decidable (¬ _))

def checked (stamp : NmeaData) : NmeaData := if InRange stamp then stamp else {stamp with latSec := 0, lonSec := 0}

/-- What is required has been seen. -/
def Full (mask : UInt8) : Prop := mask &&& gpsNmeaRequired = gpsNmeaRequired

instance (mask : UInt8) : Decidable (Full mask) := inferInstanceAs (Decidable (_ = _))

/-- The end of the parser; what becomes the last valid stamp comes with the state. -/
def complete (now : Nat) (s : State) : State × Option NmeaData :=
  if Full s.validData then
    let stamp := checked s.gpsStampTmp
    let errorCnt := if s.gpsStampLast.latSec = stamp.latSec ∧ s.gpsStampLast.lonSec = stamp.lonSec then (s.errorCnt + 1) % 2 ^ 16 else 0
    let s := {s with errorCnt, gpsStampLast := stamp, gpsStampTmp := blank, validData := 0}
    if 0 < stamp.fix then
      let sleepTmr := if s.sleepMode ∧ s.sleepTmr < sleepTimeout - sleepDelay then sleepTimeout - sleepDelay else s.sleepTmr
      ({s with gpsStampLastValid := stamp, fixTm := now, sleepTmr},some stamp)
    else (s,none)
  else (s,none)

def protocolIds : List UInt8 := [0x50,glonassId,0x4E]

structure Outcome where
  state : State
  echo : Bool
  valid : Option NmeaData

def gpsDataParser (now : Nat) (s : State) (inbuf : List UInt8) : Outcome :=
  let data := cString inbuf
  if ¬ stricmp2 data (ascii "$G") then
    let (s,echo) := parseOther stricmp2 s data
    ⟨s,echo,none⟩
  else
    let s := {s with gpsRxOk := true}
    let data := data.drop 2
    let protocolId := data.headD 0
    if protocolId ∉ protocolIds then ⟨s,false,none⟩
    else
      let (s,echo) := decode stricmp2 s protocolId data.tail
      let (s,valid) := complete now s
      ⟨s,echo,valid⟩

end Parser

section Published

structure Position where
  latSec : Int
  lonSec : Int
  fix : Nat
deriving DecidableEq, Repr

def position (stamp : NmeaData) : Position := ⟨stamp.latSec,stamp.lonSec,stamp.fix⟩

def Position.InRange (pos : Position) : Prop :=
  -90 * 6000 * 60 ≤ pos.latSec ∧ pos.latSec ≤ 90 * 6000 * 60 ∧ -180 * 6000 * 60 ≤ pos.lonSec ∧ pos.lonSec ≤ 180 * 6000 * 60

instance (pos : Position) : Decidable pos.InRange := inferInstanceAs (Decidable (_ ∧ _))

variable (stricmp2 : List UInt8 → List UInt8 → Bool)

/-- A sentence behind its prefix, with its protocol id. -/
def sentenceOf (text : List UInt8) : Option (List UInt8) :=
  if stricmp2 (cString text) (ascii "$G") ∧ ((cString text).drop 2).headD 0 ∈ protocolIds then some ((cString text).drop 2).tail
  else none

/-- The position that a sentence has, if it is a GGA sentence that can be decoded. -/
def decoded (data : List UInt8) : Option Position :=
  if kindOf stricmp2 data = .gga then (nmeaParseGga blank data).map position else none

/-- What a sentence adds to `valid_data`. -/
def maskOf (data : List UInt8) : UInt8 :=
  if kindOf stricmp2 data = .gga ∧ nmeaParseGga blank data = none then 0 else (kindOf stricmp2 data).mask

def decodedText (text : List UInt8) : Option Position := (sentenceOf stricmp2 text).bind (decoded stricmp2)

/-- The position is in range and that of a GGA sentence among the texts, which reported a fix. -/
structure Genuine (texts : List (List UInt8)) (stamp : NmeaData) : Prop where
  inRange : (position stamp).InRange
  received : ∃ text ∈ texts, ∃ pos, decodedText stricmp2 text = some pos ∧ 0 < pos.fix ∧
    pos.latSec = stamp.latSec ∧ pos.lonSec = stamp.lonSec

theorem inRange_iff (stamp : NmeaData) : InRange stamp ↔ (position stamp).InRange := by
  rw [InRange,Position.InRange,position]
  dsimp only
  omega

theorem nmeaParseGga_position (stamp : NmeaData) (sentence : List UInt8) :
    (nmeaParseGga stamp sentence).map position = (nmeaParseGga blank sentence).map position := by
  unfold nmeaParseGga Nmea.nmeaParseGga
  dsimp only
  cases getParam sentence 2 (paramBufSize - 1) with
  | none => rfl
  | some buf =>
    dsimp only
    split_ifs
    · rfl
    · cases getParam sentence 4 (paramBufSize - 1) with
      | none => rfl
      | some buf =>
        dsimp only
        split_ifs <;> rfl

theorem nmeaParseGga_none (stamp : NmeaData) (sentence : List UInt8) :
    nmeaParseGga stamp sentence = none ↔ nmeaParseGga blank sentence = none := by
  rw [← Option.map_eq_none_iff (f := position),nmeaParseGga_position,Option.map_eq_none_iff]

theorem nmeaParseRmc_position (stamp : NmeaData) (sentence : List UInt8) :
    position (nmeaParseRmc stamp sentence) = position stamp := by
  unfold nmeaParseRmc
  dsimp only
  cases getParam sentence 1 (paramBufSize - 1) <;> cases getParam sentence 7 (paramBufSize - 1) <;>
    cases getParam sentence 9 (paramBufSize - 1) <;> dsimp only <;> (try split_ifs) <;> rfl

section Kinds

variable {stricmp2} {data : List UInt8}

theorem maskOf_found (gga : kindOf stricmp2 data = .gga) (found : nmeaParseGga blank data ≠ none) :
    maskOf stricmp2 data = Kind.gga.mask := by
  rw [maskOf,if_neg fun missing => found missing.2,gga]

theorem maskOf_missing (gga : kindOf stricmp2 data = .gga) (missing : nmeaParseGga blank data = none) : maskOf stricmp2 data = 0 :=
  if_pos ⟨gga,missing⟩

theorem maskOf_other (other : kindOf stricmp2 data ≠ .gga) : maskOf stricmp2 data = (kindOf stricmp2 data).mask :=
  if_neg fun gga => other gga.1

theorem decoded_gga (gga : kindOf stricmp2 data = .gga) : decoded stricmp2 data = (nmeaParseGga blank data).map position := if_pos gga

theorem decoded_other (other : kindOf stricmp2 data ≠ .gga) : decoded stricmp2 data = none := if_neg other

end Kinds

/-- A sentence adds its bit and its position, if it has one, and leaves the rest of the working position. -/
theorem decode_spec (s : State) (protocolId : UInt8) (data : List UInt8) :
    (decode stricmp2 s protocolId data).1.validData = s.validData ||| maskOf stricmp2 data ∧
      position (decode stricmp2 s protocolId data).1.gpsStampTmp = (decoded stricmp2 data).getD (position s.gpsStampTmp) := by
  by_cases gga : kindOf stricmp2 data = .gga
  · have same := nmeaParseGga_position s.gpsStampTmp data
    unfold decode
    rw [gga,decoded_gga gga,← same]
    dsimp only
    cases parsed : nmeaParseGga s.gpsStampTmp data with
    | none =>
      rw [maskOf_missing gga ((nmeaParseGga_none s.gpsStampTmp data).mp parsed)]
      exact ⟨UInt8.or_zero.symm,rfl⟩
    | some stamp =>
      have found : nmeaParseGga blank data ≠ none := by
        rw [ne_eq,← nmeaParseGga_none s.gpsStampTmp,parsed]
        exact nofun
      rw [maskOf_found gga found]
      exact ⟨rfl,rfl⟩
  · rw [maskOf_other gga,decoded_other gga]
    unfold decode
    dsimp only
    cases kind : kindOf stricmp2 data with
    | gga => exact absurd kind gga
    | gsv =>
      rw [nmeaParseGsv]
      dsimp only
      split_ifs <;> exact ⟨rfl,rfl⟩
    | rmc => exact ⟨rfl,nmeaParseRmc_position s.gpsStampTmp data⟩
    | txt => exact ⟨UInt8.or_zero.symm,rfl⟩
    | other => exact ⟨UInt8.or_zero.symm,rfl⟩
    | gsa => exact ⟨rfl,rfl⟩
    | vtg => exact ⟨rfl,rfl⟩
    | gll => exact ⟨rfl,rfl⟩

theorem checked_fix (stamp : NmeaData) : (checked stamp).fix = stamp.fix := by
  unfold checked
  split_ifs <;> rfl

/-- A stamp is published when all is there and the working stamp reports a fix. -/
theorem complete_published (now : Nat) (s : State) (stamp : NmeaData) :
    (complete now s).2 = some stamp ↔ Full s.validData ∧ 0 < s.gpsStampTmp.fix ∧ stamp = checked s.gpsStampTmp := by
  unfold complete
  dsimp only
  rw [checked_fix]
  by_cases full : Full s.validData
  · rw [if_pos full]
    by_cases fixed : 0 < s.gpsStampTmp.fix
    · rw [if_pos fixed]
      exact ⟨fun same => ⟨full,fixed,(Option.some.inj same).symm⟩,fun ⟨_,_,same⟩ => by rw [same]⟩
    · rw [if_neg fixed]
      exact ⟨nofun,fun ⟨_,other,_⟩ => absurd other fixed⟩
  · rw [if_neg full]
    exact ⟨nofun,fun ⟨other,_⟩ => absurd other full⟩

theorem complete_kept (now : Nat) (s : State) :
    (complete now s).1 = s ∧ (complete now s).2 = none ∨ (complete now s).1.validData = 0 := by
  unfold complete
  dsimp only
  by_cases full : Full s.validData
  · rw [if_pos full]
    by_cases fixed : 0 < (checked s.gpsStampTmp).fix
    · rw [if_pos fixed]
      exact Or.inr rfl
    · rw [if_neg fixed]
      exact Or.inr rfl
  · rw [if_neg full]
    exact Or.inl ⟨rfl,rfl⟩

theorem parseOther_kept (s : State) (data : List UInt8) : (parseOther stricmp2 s data).1.validData = s.validData ∧
    (parseOther stricmp2 s data).1.gpsStampTmp = s.gpsStampTmp := by
  unfold parseOther
  dsimp only
  split_ifs <;> exact ⟨rfl,rfl⟩

/-- A text, as far as positions go: one that is no sentence leaves the working stamp, and any other is decoded, and may
complete the stamp. -/
theorem gpsDataParser_spec (now : Nat) (s : State) (text : List UInt8) :
    (sentenceOf stricmp2 text = none ∧ (gpsDataParser stricmp2 now s text).valid = none ∧
      (gpsDataParser stricmp2 now s text).state.validData = s.validData ∧
      (gpsDataParser stricmp2 now s text).state.gpsStampTmp = s.gpsStampTmp) ∨
    ∃ data s', sentenceOf stricmp2 text = some data ∧ s'.validData = s.validData ||| maskOf stricmp2 data ∧
      position s'.gpsStampTmp = (decoded stricmp2 data).getD (position s.gpsStampTmp) ∧
      (gpsDataParser stricmp2 now s text).valid = (complete now s').2 ∧
      (gpsDataParser stricmp2 now s text).state = (complete now s').1 := by
  unfold gpsDataParser sentenceOf
  dsimp only
  by_cases front : stricmp2 (cString text) (ascii "$G") = true
  · rw [if_neg (not_not.mpr front)]
    by_cases id : ((cString text).drop 2).headD 0 ∈ protocolIds
    · rw [if_neg (not_not.mpr id),if_pos ⟨front,id⟩]
      obtain ⟨mask,pos⟩ := decode_spec stricmp2 {s with gpsRxOk := true} (((cString text).drop 2).headD 0) ((cString text).drop 2).tail
      exact Or.inr ⟨_,_,rfl,mask,pos,rfl,rfl⟩
    · rw [if_pos id,if_neg fun both => id both.2]
      exact Or.inl ⟨rfl,rfl,rfl,rfl⟩
  · rw [if_pos front,if_neg fun both => front both.1]
    obtain ⟨mask,stamp⟩ := parseOther_kept stricmp2 s (cString text)
    exact Or.inl ⟨rfl,rfl,mask,stamp⟩

end Published

section Run

variable (stricmp2 : List UInt8 → List UInt8 → Bool)

/-- The state, and the texts since the last valid stamp was updated. -/
structure Heard where
  state : State
  since : List (List UInt8)

/-- A text at its time. -/
structure Input where
  now : Nat
  text : List UInt8

def Heard.update (h : Heard) (i : Input) : Option NmeaData := (gpsDataParser stricmp2 i.now h.state i.text).valid

def hear (h : Heard) (i : Input) : Heard where
  state := (gpsDataParser stricmp2 i.now h.state i.text).state
  since := if h.update stricmp2 i = none then h.since ++ [i.text] else []

/-- The working position belongs to a text heard since. -/
def Backed (h : Heard) : Prop :=
  h.state.validData &&& Kind.gga.mask ≠ 0 → ∃ text ∈ h.since, decodedText stricmp2 text = some (position h.state.gpsStampTmp)

/-- The position as the text leaves it: its own, if it has one. -/
def Heard.latest (h : Heard) (text : List UInt8) : Position :=
  (decodedText stricmp2 text).getD (position h.state.gpsStampTmp)

/-- With this sentence the required ones are there. -/
def Completes (h : Heard) (text : List UInt8) : Prop :=
  ∃ data, sentenceOf stricmp2 text = some data ∧ Full (h.state.validData ||| maskOf stricmp2 data)

/-- The sentence completes a stamp whose position has a fix and is out of range, and no GGA sentence since the last
update reported a fix at the origin. -/
def Misplaced (h : Heard) (text : List UInt8) : Prop :=
  Completes stricmp2 h text ∧ 0 < (h.latest stricmp2 text).fix ∧ ¬ (h.latest stricmp2 text).InRange ∧
    ∀ other ∈ h.since ++ [text], ∀ pos, decodedText stricmp2 other = some pos → 0 < pos.fix → ¬ (pos.latSec = 0 ∧ pos.lonSec = 0)

theorem or_and (a b c : UInt8) : (a ||| b) &&& c = (a &&& c) ||| (b &&& c) := by
  apply UInt8.toBitVec_inj.mp
  rw [UInt8.toBitVec_and,UInt8.toBitVec_or,UInt8.toBitVec_or,UInt8.toBitVec_and,UInt8.toBitVec_and]
  exact BitVec.and_or_distrib_right

theorem Full.gga {mask : UInt8} (full : Full mask) : mask &&& Kind.gga.mask ≠ 0 := by
  have part : mask &&& Kind.gga.mask = mask &&& gpsNmeaRequired &&& Kind.gga.mask := by
    rw [UInt8.and_assoc]
    rfl
  rw [part,full]
  decide

theorem maskOf_gga {data : List UInt8} (none : decoded stricmp2 data = none) : maskOf stricmp2 data &&& Kind.gga.mask = 0 := by
  by_cases gga : kindOf stricmp2 data = .gga
  · rw [decoded_gga gga,Option.map_eq_none_iff] at none
    rw [maskOf_missing gga none]
    decide
  · rw [maskOf_other gga]
    cases kind : kindOf stricmp2 data with
    | gga => exact absurd kind gga
    | gsa | gsv | rmc | vtg | gll | txt | other => decide

/-- The working position behind a sentence is its own, or it belongs to a text heard before. -/
theorem Backed.decoded {h : Heard} (backed : Backed stricmp2 h) {text data : List UInt8} {s : State}
    (sentence : sentenceOf stricmp2 text = some data) (mask : s.validData = h.state.validData ||| maskOf stricmp2 data)
    (pos : position s.gpsStampTmp = (decoded stricmp2 data).getD (position h.state.gpsStampTmp))
    (seen : s.validData &&& Kind.gga.mask ≠ 0) :
    ∃ other ∈ h.since ++ [text], decodedText stricmp2 other = some (position s.gpsStampTmp) := by
  have own : decodedText stricmp2 text = GpsStamp.decoded stricmp2 data := by rw [decodedText,sentence,Option.bind_some]
  rw [pos]
  cases found : GpsStamp.decoded stricmp2 data with
  | some pos => exact ⟨text,by simp,by rw [own,found,Option.getD_some]⟩
  | none =>
    rw [mask,or_and,maskOf_gga stricmp2 found,UInt8.or_zero] at seen
    obtain ⟨other,member,same⟩ := backed seen
    exact ⟨other,List.mem_append_left _ member,by rw [Option.getD_none,same]⟩

theorem hear_backed {h : Heard} (backed : Backed stricmp2 h) (i : Input) : Backed stricmp2 (hear stricmp2 h i) := by
  unfold Backed hear Heard.update
  dsimp only
  rcases gpsDataParser_spec stricmp2 i.now h.state i.text with ⟨_,none,mask,stamp⟩ | ⟨data,s,sentence,mask,pos,valid,state⟩
  · rw [none,mask,stamp,if_pos rfl]
    intro seen
    obtain ⟨other,member,same⟩ := backed seen
    exact ⟨other,List.mem_append_left _ member,same⟩
  · rw [valid,state]
    rcases complete_kept i.now s with ⟨kept,none⟩ | cleared
    · rw [kept,none,if_pos rfl]
      exact backed.decoded stricmp2 sentence mask pos
    · rw [cleared]
      exact fun seen => absurd rfl seen

theorem checked_position (stamp : NmeaData) :
    position (checked stamp) = if (position stamp).InRange then position stamp else ⟨0,0,stamp.fix⟩ := by
  unfold checked
  by_cases inside : InRange stamp
  · rw [if_pos inside,if_pos ((inRange_iff stamp).mp inside)]
  · rw [if_neg inside,if_neg fun other => inside ((inRange_iff stamp).mpr other)]
    rfl

theorem origin_inRange (fix : Nat) : Position.InRange ⟨0,0,fix⟩ := by
  rw [Position.InRange]
  dsimp only
  omega

/-- An update is genuine, unless it is misplaced. -/
theorem update_genuine_iff {h : Heard} (backed : Backed stricmp2 h) (i : Input) :
    (∀ stamp, h.update stricmp2 i = some stamp → Genuine stricmp2 (h.since ++ [i.text]) stamp) ↔ ¬ Misplaced stricmp2 h i.text := by
  unfold Heard.update
  rcases gpsDataParser_spec stricmp2 i.now h.state i.text with ⟨other,none,_⟩ | ⟨data,s,sentence,mask,pos,valid,_⟩
  · rw [none]
    refine ⟨?_,fun _ _ => nofun⟩
    rintro _ ⟨⟨data,sentence,_⟩,_⟩
    exact nomatch other.symm.trans sentence
  have latest : h.latest stricmp2 i.text = position s.gpsStampTmp := by
    rw [pos,Heard.latest,decodedText,sentence,Option.bind_some]
  have full : Completes stricmp2 h i.text ↔ Full s.validData := by
    rw [Completes,mask,sentence]
    exact ⟨fun ⟨_,same,full⟩ => by rw [Option.some.inj same]; exact full,fun full => ⟨data,rfl,full⟩⟩
  rw [valid,Misplaced,latest,full]
  by_cases published : Full s.validData ∧ 0 < s.gpsStampTmp.fix
  swap
  · refine ⟨fun _ misplaced => published ⟨misplaced.1,misplaced.2.1⟩,fun _ stamp updated => ?_⟩
    obtain ⟨isFull,fixed,_⟩ := (complete_published i.now s stamp).mp updated
    exact absurd ⟨isFull,fixed⟩ published
  obtain ⟨isFull,fixed⟩ := published
  have only : ∀ stamp, (complete i.now s).2 = some stamp ↔ stamp = checked s.gpsStampTmp := fun stamp =>
    (complete_published i.now s stamp).trans ⟨fun published => published.2.2,fun same => ⟨isFull,fixed,same⟩⟩
  have chosen := checked_position s.gpsStampTmp
  by_cases inside : (position s.gpsStampTmp).InRange
  · rw [if_pos inside] at chosen
    refine ⟨fun _ misplaced => misplaced.2.2.1 inside,fun _ stamp updated => ?_⟩
    obtain rfl := (only stamp).mp updated
    obtain ⟨other,member,same⟩ := backed.decoded stricmp2 sentence mask pos isFull.gga
    refine ⟨by rw [chosen]; exact inside,other,member,_,same,fixed,?_,?_⟩
    · exact (congrArg Position.latSec chosen).symm
    · exact (congrArg Position.lonSec chosen).symm
  · rw [if_neg inside] at chosen
    have lat : (checked s.gpsStampTmp).latSec = 0 := congrArg Position.latSec chosen
    have lon : (checked s.gpsStampTmp).lonSec = 0 := congrArg Position.lonSec chosen
    constructor
    · rintro genuine ⟨_,_,_,never⟩
      obtain ⟨_,other,member,own,same,some,ownLat,ownLon⟩ := genuine _ ((only _).mpr rfl)
      exact never other member own same some ⟨ownLat.trans lat,ownLon.trans lon⟩
    · intro clean stamp updated
      obtain rfl := (only stamp).mp updated
      by_contra wrong
      refine clean ⟨isFull,fixed,inside,fun other member own same some origin => wrong ⟨?_,?_⟩⟩
      · rw [chosen]
        exact origin_inRange _
      · exact ⟨other,member,own,same,some,origin.1.trans lat.symm,origin.2.trans lon.symm⟩

def heard (inputs : List Input) : Heard := Run.run (hear stricmp2) ⟨start,[]⟩ inputs

theorem heard_backed (inputs : List Input) : Backed stricmp2 (heard stricmp2 inputs) :=
  Run.run_invariant (hear stricmp2) (fun _ _ => True) (Backed stricmp2) (fun _ i backed _ => hear_backed stricmp2 backed i) _ inputs
    (fun seen => absurd rfl seen) (Run.admits_of_forall _ _ _ _ fun _ _ _ => trivial)

/-- Over any sentences in any order, the last valid stamp is updated with genuine positions only, exactly if no sentence
completes a misplaced one. -/
theorem updates_genuine_iff (inputs : List Input) :
    (∀ before i rest stamp, inputs = before ++ i :: rest → (heard stricmp2 before).update stricmp2 i = some stamp →
        Genuine stricmp2 ((heard stricmp2 before).since ++ [i.text]) stamp) ↔
      ∀ before i rest, inputs = before ++ i :: rest → ¬ Misplaced stricmp2 (heard stricmp2 before) i.text := by
  have step := fun before i => update_genuine_iff stricmp2 (heard_backed stricmp2 before) i
  constructor
  · intro genuine before i rest split
    exact (step before i).mp fun stamp => genuine before i rest stamp split
  · intro clean before i rest stamp split
    exact (step before i).mpr (clean before i rest split) stamp

end Run

section FarNorth

/-- A comparison of the start of a text, without regard to case. -/
def startsWith (text pattern : List UInt8) : Bool := sameUpTo pattern.length text pattern

def farGga : Input := ⟨100,ascii "$GPGGA,120000.000,9530.0000,N,01134.5678,E,1,08,1,520*67" ++ [0]⟩

def rmc : Input := ⟨200,ascii "$GPRMC,120000.000,A,,,,,,,010125*3C" ++ [0]⟩

def gsv : Input := ⟨300,ascii "$GPGSV,1,1,08*71" ++ [0]⟩

/-- Beyond the pole, with a fix: the origin is published with the fix. -/
theorem farNorth_published : ∃ stamp, (heard startsWith [farGga,rmc]).update startsWith gsv = some stamp ∧
    position stamp = ⟨0,0,1⟩ ∧ ¬ Genuine startsWith ((heard startsWith [farGga,rmc]).since ++ [gsv.text]) stamp := by
  refine ⟨_,rfl,rfl,?_⟩
  rintro ⟨_,text,member,pos,own,_,north,_⟩
  have since : (heard startsWith [farGga,rmc]).since = [farGga.text,rmc.text] := rfl
  have texts : text = farGga.text ∨ text = rmc.text ∨ text = gsv.text := by simpa [since,or_assoc] using member
  rcases texts with rfl | rfl | rfl
  · have far : decodedText startsWith farGga.text = some ⟨34380000,4167406,1⟩ := by decide
    rw [← Option.some.inj (far.symm.trans own)] at north
    exact absurd north (by decide)
  · have none : decodedText startsWith rmc.text = none := by decide
    exact nomatch none.symm.trans own
  · have none : decodedText startsWith gsv.text = none := by decide
    exact nomatch none.symm.trans own

end FarNorth

end JcaFirmware.GpsStamp
