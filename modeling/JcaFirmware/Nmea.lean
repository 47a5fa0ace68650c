import JcaFirmware.Foundation.Scan
import JcaFirmware.TracerH02
import Mathlib.Tactic.IntervalCases

/-! Positions of the GPS receiver (`lib/nmea/nmea.c`): the parameters of a sentence, and the
GGA sentence read into a stamp. -/
namespace JcaFirmware.Nmea
open Foundation Numeral TracerH02

/-- `nmea_data_t`. -/
structure NmeaData extends GpsStamp where
  accuracy : Nat
  alt : Int
  nbsat : Nat

section Parsing

def comma : UInt8 := 0x2C

def paramBufSize : Nat := 32

/-- The position behind some commas; `l` is what was passed. -/
def paramPos : List UInt8 → Nat → Nat → Option Nat
  | _, 0, l => some l
  | [], _ + 1, _ => none
  | c :: src, n + 1, l => paramPos src (if c = comma then n else n + 1) (l + 1)

/-- A parameter up to its end, or to the limit. -/
def copyParam : List UInt8 → Nat → List UInt8
  | [], _ => []
  | c :: src, limit => if c = comma ∨ limit = 0 then [] else c :: copyParam src (limit - 1)

def getParam : List UInt8 → Nat → Nat → Option (List UInt8)
  | [], _, _ => none
  | c :: src, 0, limit => some (copyParam (c :: src) limit)
  | c :: src, n + 1, limit => getParam src (if c = comma then n else n + 1) limit

/-- The number that a text begins with, of any count of digits. -/
def leading (text : List UInt8) : Int :=
  let text := text.dropWhile isSpace
  if text.head? = some 0x2D then -(readDigits 10 0 text.tail).1
  else if text.head? = some 0x2B then (readDigits 10 0 text.tail).1
  else (readDigits 10 0 text).1

-- Also `atol`: a `long` has 32 bits, and of a number that does not fit the conversion gives the nearest one.
def atoi (text : List UInt8) : Int := storedSigned (leading text)

def nmeaParseU32 (sentence : List UInt8) (n : Nat) : Nat :=
  match paramPos sentence n 0 with
  | some pos => if 0 < pos then (atoi (sentence.drop pos) % 2 ^ 32).toNat else 0
  | none => 0

/-- Hundredths of a second; the degrees have `wide` digits. -/
def hundredths (wide : Nat) (buf : List UInt8) : Int :=
  let buf := buf.take (wide + 7)
  let sec := atoi (buf.drop wide) * (60 * 100)
  let sec := sec + (atoi (buf.drop (wide + 3)) * 6).tdiv 10
  sec + atoi (buf.take wide) * (60 * 60 * 100)

-- An empty hemisphere, and one that is missing, is taken for the positive one.
/-- The sign is turned by any other letter than the positive one. -/
def hemisphere (positive : UInt8) (letter : Option (List UInt8)) (sec : Int) : Int :=
  match letter with
  | some (c :: _) => if c ≠ positive then -sec else sec
  | _ => sec

def nmeaParseGga (stamp : NmeaData) (sentence : List UInt8) : Option NmeaData :=
  let limit := paramBufSize - 1
  match getParam sentence 2 limit with
  | none => none
  | some buf =>
    if buf.length ≤ 8 then none
    else
      let lat := hemisphere 0x4E (getParam sentence 3 limit) (hundredths 2 buf)
      match getParam sentence 4 limit with
      | none => none
      | some buf =>
        if buf.length ≤ 9 then none
        else
          let lon := hemisphere 0x45 (getParam sentence 5 limit) (hundredths 3 buf)
          some {stamp with
            latSec := lat
            lonSec := lon
            fix := nmeaParseU32 sentence 6 % 2 ^ 8
            nbsat := nmeaParseU32 sentence 7 % 2 ^ 8
            accuracy := nmeaParseU32 sentence 8 % 2 ^ 8
            alt := (nmeaParseU32 sentence 9 : Int).bmod (2 ^ 16)}

end Parsing

section Parameters

/-- Parameters one after the other, each with its comma. -/
def fields (texts : List (List UInt8)) : List UInt8 := texts.flatMap fun text => text ++ [comma]

theorem copyParam_field {text rest : List UInt8} (plain : comma ∉ text) {limit : Nat} (fits : text.length ≤ limit) :
    copyParam (text ++ comma :: rest) limit = text := by
  induction text generalizing limit with
  | nil => rw [List.nil_append,copyParam,if_pos (Or.inl rfl)]
  | cons c text ih =>
    have different : c ≠ comma := fun same => plain (by rw [same]; exact List.mem_cons_self)
    rw [List.length_cons] at fits
    rw [List.cons_append,copyParam,if_neg (not_or.mpr ⟨different,by omega⟩),ih (fun member => plain (List.mem_cons_of_mem _ member)) (by omega)]

theorem getParam_skip {text rest : List UInt8} (plain : comma ∉ text) (n limit : Nat) :
    getParam (text ++ comma :: rest) (n + 1) limit = getParam rest n limit := by
  induction text with
  | nil => rw [List.nil_append,getParam,if_pos rfl]
  | cons c text ih =>
    have different : c ≠ comma := fun same => plain (by rw [same]; exact List.mem_cons_self)
    rw [List.cons_append,getParam,if_neg different]
    exact ih fun member => plain (List.mem_cons_of_mem _ member)

theorem getParam_fields {texts : List (List UInt8)} (plain : ∀ text ∈ texts, comma ∉ text) {n limit : Nat} {text rest : List UInt8}
    (here : texts[n]? = some text) (fits : text.length ≤ limit) : getParam (fields texts ++ rest) n limit = some text := by
  induction texts generalizing n with
  | nil => cases here
  | cons first texts ih =>
    have own := plain first List.mem_cons_self
    rw [fields,List.flatMap_cons,← fields,List.append_assoc,List.append_assoc,List.singleton_append]
    cases n with
    | zero =>
      obtain rfl := Option.some.inj here
      have copied := @copyParam_field first (fields texts ++ rest) own limit fits
      cases first with
      | nil => rw [List.nil_append] at copied ⊢; rw [getParam,copied]
      | cons c first => rw [List.cons_append] at copied ⊢; rw [getParam,copied]
    | succ n =>
      rw [getParam_skip own]
      exact ih (fun text member => plain text (List.mem_cons_of_mem _ member)) here

end Parameters

section Coordinates

theorem comma_ne_digit {d : Nat} (inside : d < 10) : digit d ≠ comma := by interval_cases d <;> decide

theorem comma_not_padded (width n : Nat) : comma ∉ padded 10 width n := by
  intro member
  obtain ⟨d,inside,same⟩ := mem_padded (by decide) member
  exact comma_ne_digit inside same.symm

theorem leading_padded {width n : Nat} {rest : List UInt8} (stops : Stops 10 rest) : leading (padded 10 width n ++ rest) = n := by
  obtain ⟨ds,text,filled,inside,_⟩ := @padded_digits 10 (by decide) width n
  have read := readDigits_padded (by decide) (by decide) width n stops
  rw [text] at read ⊢
  cases ds with
  | nil => exact absurd rfl filled
  | cons d ds =>
    obtain ⟨space,_,minus,plus,_⟩ := digit_plain (Nat.lt_trans (inside d List.mem_cons_self) (by decide))
    rw [leading,List.map_cons,List.cons_append,List.dropWhile_cons_of_neg (by simp [space]),List.head?_cons,if_neg (by simp [minus]),
      if_neg (by simp [plus]),← List.cons_append,← List.map_cons,read]

theorem atoi_padded {width n : Nat} {rest : List UInt8} (stops : Stops 10 rest) (fits : n < 2 ^ 31) :
    atoi (padded 10 width n ++ rest) = n := by
  rw [atoi,leading_padded stops,storedSigned]
  omega

/-- Degrees, minutes and the decimals of the minutes. -/
structure Angle where
  degrees : Nat
  minutes : Nat
  decimals : Nat
  minutes_lt : minutes < 60
  decimals_lt : decimals < 10000

def Angle.text (wide : Nat) (angle : Angle) : List UInt8 :=
  padded 10 wide angle.degrees ++ padded 10 2 angle.minutes ++ ascii "." ++ padded 10 4 angle.decimals

/-- In ten thousandths of a minute. -/
def Angle.value (angle : Angle) : Nat := (angle.degrees * 60 + angle.minutes) * 10000 + angle.decimals

def Angle.hundredths (angle : Angle) : Nat := angle.degrees * 360000 + angle.minutes * 6000 + angle.decimals * 6 / 10

def Angle.rounded (angle : Angle) : Angle where
  degrees := angle.degrees
  minutes := angle.minutes
  decimals := 10000 * (angle.decimals * 6 / 10) / 6000
  minutes_lt := angle.minutes_lt
  decimals_lt := by
    have decimals := angle.decimals_lt
    omega

variable {wide : Nat} (angle : Angle)

theorem Angle.rounded_value : angle.rounded.value ≤ angle.value ∧ angle.value ≤ angle.rounded.value + 2 := by
  rw [value,value,rounded]
  dsimp only
  omega

theorem Angle.length_text (some : 0 < wide) (inside : angle.degrees < 10 ^ wide) : (angle.text wide).length = wide + 7 := by
  have minutes := angle.minutes_lt
  have point : (ascii ".").length = 1 := rfl
  rw [text,List.length_append,List.length_append,List.length_append,padded_length (by decide) some inside,
    padded_length (by decide) (by decide) (by omega),padded_length (by decide) (by decide) angle.decimals_lt,point]

theorem Angle.comma_not_text : comma ∉ angle.text wide := by
  intro member
  rw [text] at member
  rcases List.mem_append.mp member with front | decimals
  · rcases List.mem_append.mp front with front | point
    · rcases List.mem_append.mp front with degrees | minutes
      · exact comma_not_padded _ _ degrees
      · exact comma_not_padded _ _ minutes
    · exact absurd point (by decide)
  · exact comma_not_padded _ _ decimals

/-- The text of an angle is read in hundredths of a second. -/
theorem Angle.hundredths_text (some : 0 < wide) (narrow : wide ≤ 9) (inside : angle.degrees < 10 ^ wide) :
    Nmea.hundredths wide (angle.text wide) = angle.hundredths := by
  have minutes := angle.minutes_lt
  have decimal := angle.decimals_lt
  have most : 10 ^ wide ≤ 10 ^ 9 := Nat.pow_le_pow_right (by decide) narrow
  have whole := angle.length_text some inside
  have front := @padded_length 10 (by decide) wide angle.degrees some inside
  have middle := @padded_length 10 (by decide) 2 angle.minutes (by decide) (by omega)
  have behind : (angle.text wide).drop wide = padded 10 2 angle.minutes ++ (ascii "." ++ padded 10 4 angle.decimals) := by
    rw [text,List.append_assoc,List.append_assoc,List.drop_left' front]
  have decimals : (angle.text wide).drop (wide + 3) = padded 10 4 angle.decimals := by
    rw [← List.drop_drop,behind,← List.append_assoc]
    exact List.drop_left' (by rw [List.length_append,middle]; rfl)
  have degrees : (angle.text wide).take wide = padded 10 wide angle.degrees := by
    rw [text,List.append_assoc,List.append_assoc,List.take_left' front]
  have point : Stops 10 (ascii "." ++ padded 10 4 angle.decimals) := by
    intro c first
    obtain rfl := Option.some.inj first
    exact ⟨by decide,by decide⟩
  have ends : Stops 10 [] := fun c none => absurd none (by simp)
  have minutesRead := @atoi_padded 2 angle.minutes _ point (by omega)
  have decimalsRead := @atoi_padded 4 angle.decimals [] ends (by omega)
  have degreesRead := @atoi_padded wide angle.degrees [] ends (by omega)
  rw [List.append_nil] at decimalsRead degreesRead
  rw [Nmea.hundredths,List.take_of_length_le (Nat.le_of_eq whole),behind,decimals,degrees,minutesRead,decimalsRead,degreesRead,hundredths,
    Int.tdiv_eq_ediv_of_nonneg (by omega)]
  omega

theorem coordinate_eq {sec : Int} (same : sec.natAbs = angle.hundredths) (positive negative : String) :
    coordinate wide sec positive negative =
      angle.rounded.text wide ++ [comma] ++ ascii (if 0 ≤ sec then positive else negative) ++ [comma] := by
  have minutes := angle.minutes_lt
  have decimals := angle.decimals_lt
  have dg : angle.hundredths / (6000 * 60) = angle.degrees := by rw [Angle.hundredths]; omega
  have left : angle.hundredths % (6000 * 60) = angle.minutes * 6000 + angle.decimals * 6 / 10 := by rw [Angle.hundredths]; omega
  have min : (angle.minutes * 6000 + angle.decimals * 6 / 10) / 6000 = angle.minutes := by omega
  have sub : (angle.minutes * 6000 + angle.decimals * 6 / 10) % 6000 = angle.decimals * 6 / 10 := by omega
  rw [coordinate,same,dg,left,min,sub]
  rfl

theorem hemisphere_natAbs (positive c : UInt8) (n : Nat) : (hemisphere positive (some [c]) n).natAbs = n := by
  rw [hemisphere]
  split_ifs
  · rw [Int.natAbs_neg,Int.natAbs_natCast]
  · exact Int.natAbs_natCast n

/-- The letter stays, unless nothing is left of the angle. -/
theorem Angle.letter (some : angle.rounded.value ≠ 0) {positive negative : String} {c p n : UInt8} (different : p ≠ n)
    (isPositive : ascii positive = [p]) (isNegative : ascii negative = [n]) (own : c = p ∨ c = n) :
    ascii (if 0 ≤ hemisphere p (.some [c]) angle.hundredths then positive else negative) = [c] := by
  have nonzero : angle.hundredths ≠ 0 := by
    intro none
    have whole : angle.degrees = 0 ∧ angle.minutes = 0 ∧ angle.decimals * 6 / 10 = 0 := by
      rw [hundredths] at none
      omega
    refine some ?_
    rw [value,rounded]
    dsimp only
    rw [whole.1,whole.2.1,whole.2.2]
  rw [hemisphere]
  rcases own with rfl | rfl
  · rw [if_neg (not_not.mpr rfl),if_pos (Int.natCast_nonneg _),isPositive]
  · rw [if_pos different.symm,if_neg (by omega),isNegative]

end Coordinates

section Frame

variable (sdk : Sdk) (unitId : Nat) (info : UInt32)

def paramLimit : Nat := paramBufSize - 1

def packetFields (unitId : Nat) (pos : GpsStamp) (lat lon : Angle) : List (List UInt8) :=
  [ascii "*HQ",numeral 10 unitId,ascii "V1",
    padded 10 2 pos.time.hour.toNat ++ padded 10 2 pos.time.minute.toNat ++ padded 10 2 pos.time.second.toNat,
    ascii (if pos.fix = 0 then "V" else "A"),lat.text 2,ascii (if 0 ≤ pos.latSec then "N" else "S"),
    lon.text 3,ascii (if 0 ≤ pos.lonSec then "E" else "W")]

theorem packetFields_plain (unitId : Nat) (pos : GpsStamp) (lat lon : Angle) :
    ∀ text ∈ packetFields unitId pos lat lon, comma ∉ text := by
  intro text member
  simp only [packetFields,List.mem_cons,List.not_mem_nil,or_false] at member
  rcases member with rfl | rfl | rfl | rfl | rfl | rfl | rfl | rfl | rfl
  · decide
  · rw [numeral_eq_padded]
    exact comma_not_padded 0 unitId
  · decide
  · intro inside
    rcases List.mem_append.mp inside with front | second
    · rcases List.mem_append.mp front with hour | minute
      · exact comma_not_padded _ _ hour
      · exact comma_not_padded _ _ minute
    · exact comma_not_padded _ _ second
  · split_ifs <;> decide
  · exact lat.comma_not_text
  · split_ifs <;> decide
  · exact lon.comma_not_text
  · split_ifs <;> decide

theorem packetText_fields {pos : GpsStamp} {lat lon : Angle} (latSame : pos.latSec.natAbs = lat.hundredths)
    (lonSame : pos.lonSec.natAbs = lon.hundredths) :
    ∃ rest, packetText sdk unitId pos info = fields (packetFields unitId pos lat.rounded lon.rounded) ++ rest := by
  have head : ascii "*HQ," = ascii "*HQ" ++ [comma] := rfl
  have version : ascii ",V1," = [comma] ++ (ascii "V1" ++ [comma]) := rfl
  have one : ascii "," = [comma] := rfl
  have valid : ascii (if pos.fix = 0 then "V," else "A,") = ascii (if pos.fix = 0 then "V" else "A") ++ [comma] := by
    split_ifs <;> rfl
  rw [packetText,coordinate_eq lat latSame,coordinate_eq lon lonSame,head,version,one,valid]
  refine ⟨List.flatten [padded 10 3 (sdk.knots pos.speed / 100),ascii ".",padded 10 2 (sdk.knots pos.speed % 100),[comma],
    padded 10 3 pos.angle,[comma],
    if pos.fix = 0 then ascii "010100,"
    else padded 10 2 pos.time.day.toNat ++ padded 10 2 pos.time.month.toNat ++ padded 10 2 pos.time.year.toNat ++ [comma],
    padded 16 8 (statusBuild info).toNat,ascii "#"],?_⟩
  simp only [packetFields,fields,List.flatten_cons,List.flatMap_cons,List.flatMap_nil,List.append_assoc,List.append_nil]

/-- A sentence with a position; what stands behind it is any text. -/
def gga (head time : List UInt8) (lat lon : Angle) (ns ew : UInt8) (rest : List UInt8) : List UInt8 :=
  fields [head,time,lat.text 2,[ns],lon.text 3,[ew]] ++ rest

variable {lat lon : Angle} (latIn : lat.degrees ≤ 90) (lonIn : lon.degrees ≤ 180)
include latIn lonIn

theorem nmeaParseGga_gga (stamp : NmeaData) {head time : List UInt8} (headPlain : comma ∉ head) (timePlain : comma ∉ time)
    {ns ew : UInt8} (nsPlain : ns ≠ comma) (ewPlain : ew ≠ comma) (rest : List UInt8) :
    ∃ data, nmeaParseGga stamp (gga head time lat lon ns ew rest) = some data ∧
      data.latSec = hemisphere 0x4E (some [ns]) lat.hundredths ∧ data.lonSec = hemisphere 0x45 (some [ew]) lon.hundredths := by
  have latLength := lat.length_text (by decide : 0 < 2) (by omega)
  have lonLength := lon.length_text (by decide : 0 < 3) (by omega)
  have plain : ∀ text ∈ [head,time,lat.text 2,[ns],lon.text 3,[ew]], comma ∉ text := by
    intro text member
    simp only [List.mem_cons,List.not_mem_nil,or_false] at member
    rcases member with rfl | rfl | rfl | rfl | rfl | rfl
    · exact headPlain
    · exact timePlain
    · exact lat.comma_not_text
    · exact fun same => nsPlain (List.mem_singleton.mp same).symm
    · exact lon.comma_not_text
    · exact fun same => ewPlain (List.mem_singleton.mp same).symm
  have limit : paramBufSize - 1 = 31 := rfl
  have field {n : Nat} {text : List UInt8} (here : [head,time,lat.text 2,[ns],lon.text 3,[ew]][n]? = some text)
      (fits : text.length ≤ 31) : getParam (gga head time lat lon ns ew rest) n (paramBufSize - 1) = some text :=
    getParam_fields plain here (by omega)
  have latRead := @field 2 _ rfl (by omega)
  have nsRead := @field 3 [ns] rfl (by simp)
  have lonRead := @field 4 _ rfl (by omega)
  have ewRead := @field 5 [ew] rfl (by simp)
  rw [nmeaParseGga]
  dsimp only
  rw [latRead]
  dsimp only
  rw [if_neg (by omega),lonRead]
  dsimp only
  rw [if_neg (by omega),nsRead,ewRead,lat.hundredths_text (by decide) (by decide) (by omega),
    lon.hundredths_text (by decide) (by decide) (by omega)]
  exact ⟨_,rfl,rfl,rfl⟩

/-- Of a received position the packet has the degrees and minutes, with decimals at most two ten thousandths lower,
and the letters. -/
theorem coordinates_survive (stamp : NmeaData) {head time : List UInt8} (headPlain : comma ∉ head) (timePlain : comma ∉ time)
    {ns ew : UInt8} (nsLetter : ns = 0x4E ∨ ns = 0x53) (ewLetter : ew = 0x45 ∨ ew = 0x57) (rest : List UInt8) :
    ∃ data, nmeaParseGga stamp (gga head time lat lon ns ew rest) = some data ∧
      ∃ lat' lon' : Angle,
        (getParam (packetText sdk unitId data.toGpsStamp info) 5 paramLimit = some (lat'.text 2) ∧ (lat'.text 2).length = 9 ∧
          lat'.value ≤ lat.value ∧ lat.value ≤ lat'.value + 2 ∧
          (lat'.value ≠ 0 → getParam (packetText sdk unitId data.toGpsStamp info) 6 paramLimit = some [ns])) ∧
        getParam (packetText sdk unitId data.toGpsStamp info) 7 paramLimit = some (lon'.text 3) ∧ (lon'.text 3).length = 10 ∧
          lon'.value ≤ lon.value ∧ lon.value ≤ lon'.value + 2 ∧
          (lon'.value ≠ 0 → getParam (packetText sdk unitId data.toGpsStamp info) 8 paramLimit = some [ew]) := by
  obtain ⟨data,parsed,latSec,lonSec⟩ := nmeaParseGga_gga latIn lonIn stamp headPlain timePlain
    (show ns ≠ comma by rcases nsLetter with rfl | rfl <;> decide) (show ew ≠ comma by rcases ewLetter with rfl | rfl <;> decide) rest
  obtain ⟨tail,text⟩ := @packetText_fields sdk unitId info data.toGpsStamp lat lon (by rw [latSec,hemisphere_natAbs])
    (by rw [lonSec,hemisphere_natAbs])
  have latLength := lat.rounded.length_text (by decide : 0 < 2) (show lat.degrees < 10 ^ 2 by omega)
  have lonLength := lon.rounded.length_text (by decide : 0 < 3) (show lon.degrees < 10 ^ 3 by omega)
  have northLetter := fun some => lat.letter some (by decide : (0x4E : UInt8) ≠ 0x53) (rfl : ascii "N" = [0x4E]) (rfl : ascii "S" = [0x53])
    nsLetter
  have eastLetter := fun some => lon.letter some (by decide : (0x45 : UInt8) ≠ 0x57) (rfl : ascii "E" = [0x45]) (rfl : ascii "W" = [0x57])
    ewLetter
  rw [← latSec] at northLetter
  rw [← lonSec] at eastLetter
  have plain := packetFields_plain unitId data.toGpsStamp lat.rounded lon.rounded
  refine ⟨data,parsed,lat.rounded,lon.rounded,?_⟩
  rw [text]
  refine ⟨⟨?_,latLength,lat.rounded_value.1,lat.rounded_value.2,fun some => ?_⟩,?_,lonLength,
    lon.rounded_value.1,lon.rounded_value.2,fun some => ?_⟩
  · exact getParam_fields plain rfl (by rw [latLength]; decide)
  · exact getParam_fields plain (congrArg Option.some (northLetter some)) (by simp [paramLimit,paramBufSize])
  · exact getParam_fields plain rfl (by rw [lonLength]; decide)
  · exact getParam_fields plain (congrArg Option.some (eastLetter some)) (by simp [paramLimit,paramBufSize])

omit latIn lonIn

def somewhere : Angle × Angle := (⟨48,8,2345,by decide,by decide⟩,⟨11,34,5678,by decide,by decide⟩)

def plainSdk : Sdk := ⟨fun _ => ⟨0,0,0,0,0,⟨0,0,0,0,0,0⟩⟩,fun speed => speed * 1000 / 1852,fun _ text => some text,fun _ => none⟩

theorem coordinates_survive_west :
    ∃ data, nmeaParseGga ⟨⟨0,0,0,0,0,⟨0,0,0,0,0,0⟩⟩,0,0,0⟩ (gga [] [] somewhere.1 somewhere.2 0x4E 0x57 []) = some data ∧
      ∃ lon' : Angle, getParam (packetText plainSdk 1000000001 data.toGpsStamp 0) 7 paramLimit = some (lon'.text 3) ∧
        somewhere.2.value ≤ lon'.value + 2 := by
  obtain ⟨data,parsed,_,lon',_,lon,_,_,near,_⟩ := @coordinates_survive plainSdk 1000000001 0 somewhere.1 somewhere.2 (by decide) (by decide)
    ⟨⟨0,0,0,0,0,⟨0,0,0,0,0,0⟩⟩,0,0,0⟩ [] [] (by decide) (by decide) 0x4E 0x57 (by decide) (by decide) []
  exact ⟨data,parsed,lon',lon,near⟩

end Frame

end JcaFirmware.Nmea
