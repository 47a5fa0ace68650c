import JcaFirmware.Nmea
import JcaFirmware.Foundation.Memory

/-! The two scanners of `lib/nmea/nmea.c` with the counters and exits of their loops. Both find
the field between two commas of a sentence, and agree with the scanners the positions are read by. -/
namespace JcaFirmware.NmeaField
open Foundation Numeral
open Nmea (comma leading atoi copyParam)

section Scanners

def posLoop : List UInt8 → Int → Int → Int × Int
  | [], n, l => (n,l)
  | c :: src, n, l =>
    if n = 0 then (n,l)
    else
      let l := l + 1
      let n := if c = comma then n - 1 else n
      if n ≤ 0 then (n,l) else posLoop src n l

def paramPos (src : List UInt8) (n : Int) : Int :=
  let (n,l) := posLoop src n 0
  if n = 0 then l else -1

/-- The variables of `get_param`; `dest` is an address of the memory. -/
structure Scanner where
  memory : Bytes
  dest : Nat
  n : Int
  limit : UInt16
  len : Int
  copy : Bool

def Scanner.enter (s : Scanner) : Scanner := if s.copy = false ∧ s.n = 0 then {s with copy := true, len := 0} else s

-- The limit of 16 bits goes below zero in the comparison that ends the loop, and is not read again.
def paramLoop : List UInt8 → Scanner → Scanner
  | [], s => s
  | c :: src, s =>
    let s := s.enter
    if c = comma then
      let s := {s with n := s.n - 1}
      if s.n < 0 then s else paramLoop src s
    else if s.copy then
      if 0 < s.limit then
        paramLoop src {s with
          memory := s.memory.write s.dest [c]
          dest := s.dest + 1
          limit := s.limit - 1
          len := s.len + 1}
      else {s with limit := s.limit - 1}
    else paramLoop src s

def Scanner.finish (s : Scanner) : Bytes × Int := (s.memory.write s.dest [0],if s.copy then s.len else -1)

/-- The memory behind the call, and what it returns. -/
def getParam (memory : Bytes) (dest : Nat) (src : List UInt8) (n : Int) (limit : UInt16) : Bytes × Int :=
  (paramLoop src ⟨memory,dest,n,limit,0,false⟩).finish

def nmeaParseU32 (sentence : List UInt8) (n : Int) : Nat :=
  let pos := paramPos sentence n
  if 0 < pos then (atoi (sentence.drop pos.toNat) % 2 ^ 32).toNat else 0

end Scanners

section Behind

/-- What stands behind some commas. -/
def behind : List UInt8 → Nat → Option (List UInt8)
  | src, 0 => some src
  | [], _ + 1 => none
  | c :: src, n + 1 => behind src (if c = comma then n else n + 1)

def field (sentence : List UInt8) (n : Nat) : Option (List UInt8) := (sentence.splitOn comma)[n]?

theorem copyParam_eq (src : List UInt8) (limit : Nat) : copyParam src limit = (src.takeWhile fun c => c ≠ comma).take limit := by
  induction src generalizing limit with
  | nil => simp [copyParam]
  | cons c src ih =>
    rw [copyParam]
    by_cases last : c = comma
    · rw [if_pos (Or.inl last),List.takeWhile_cons_of_neg (by simp [last]),List.take_nil]
    · rw [List.takeWhile_cons_of_pos (by simp [last])]
      cases limit with
      | zero => simp
      | succ limit => rw [if_neg (by simp [last]),ih,List.take_succ_cons,Nat.add_sub_cancel]

theorem splitOn_cons (c : UInt8) (src : List UInt8) :
    (c :: src).splitOn comma = if c = comma then [] :: src.splitOn comma else (src.splitOn comma).modifyHead (List.cons c) := by
  rw [List.splitOn_cons_eq_if_modifyHead]
  simp only [beq_iff_eq]

theorem field_zero (src : List UInt8) : field src 0 = some (src.takeWhile fun c => c ≠ comma) := by
  rw [field]
  induction src with
  | nil => simp
  | cons c src ih =>
    rw [splitOn_cons]
    split_ifs with last
    · simp [last]
    · rw [List.getElem?_modifyHead,ih]
      simp [last]

theorem field_succ (c : UInt8) (src : List UInt8) (n : Nat) :
    field (c :: src) (n + 1) = field src (if c = comma then n else n + 1) := by
  rw [field,splitOn_cons,field]
  split_ifs with last
  · exact List.getElem?_cons_succ
  · simp

theorem behind_field {src : List UInt8} {n : Nat} : field src n = (behind src n).map fun rest => rest.takeWhile fun c => c ≠ comma := by
  induction src generalizing n with
  | nil =>
    cases n with
    | zero => exact field_zero []
    | succ n => simp [field,behind]
  | cons c src ih =>
    cases n with
    | zero => exact field_zero _
    | succ n => rw [field_succ,behind,ih]

theorem behind_eq_none {src : List UInt8} {n : Nat} : behind src n = none ↔ src.count comma < n := by
  induction src generalizing n with
  | nil => cases n <;> simp [behind]
  | cons c src ih =>
    cases n with
    | zero => simp [behind]
    | succ n =>
      rw [behind,ih,List.count_cons]
      split_ifs <;> simp_all

/-- Nothing is left behind the last comma at the end of a sentence. -/
theorem behind_eq_nil {src : List UInt8} {n : Nat} (counted : 0 < n) :
    behind src n = some [] ↔ src.count comma = n ∧ src.getLast? = some comma := by
  induction src generalizing n with
  | nil =>
    obtain ⟨n,rfl⟩ := Nat.exists_eq_add_of_lt counted
    simp [behind]
  | cons c src ih =>
    cases n with
    | zero => exact absurd counted (Nat.lt_irrefl 0)
    | succ n =>
      rw [behind,List.count_cons]
      by_cases last : c = comma
      · rw [if_pos last]
        cases n with
        | zero =>
          rw [behind,last]
          cases src with
          | nil => simp
          | cons d src =>
            simp only [Option.some.injEq,reduceCtorEq,false_iff,not_and]
            intro none ending
            have member : comma ∈ d :: src := List.mem_of_getLast? (by rwa [List.getLast?_cons_cons] at ending)
            have some := List.count_pos_iff.mpr member
            simp at none
            omega
        | succ n =>
          rw [ih (Nat.succ_pos n),last]
          cases src with
          | nil => simp
          | cons d src => simp [List.getLast?_cons_cons]
      · rw [if_neg last,ih counted]
        cases src with
        | nil => simp [last]
        | cons d src => simp [List.getLast?_cons_cons,last]

theorem behind_suffix {src rest : List UInt8} {n : Nat} (found : behind src n = some rest) : rest <:+ src := by
  induction src generalizing n with
  | nil =>
    cases n with
    | zero => exact (Option.some.inj found) ▸ List.suffix_refl _
    | succ n => cases found
  | cons c src ih =>
    cases n with
    | zero => exact (Option.some.inj found) ▸ List.suffix_refl _
    | succ n => exact (ih found).trans (List.suffix_cons c src)

theorem behind_shorter {src rest : List UInt8} {n : Nat} (counted : 0 < n) (found : behind src n = some rest) :
    rest.length < src.length := by
  obtain ⟨n,rfl⟩ := Nat.exists_eq_succ_of_ne_zero (Nat.ne_of_gt counted)
  cases src with
  | nil => cases found
  | cons c src =>
    rw [behind] at found
    exact Nat.lt_succ_of_le (behind_suffix found).length_le

end Behind

section Position

theorem posLoop_behind (src : List UInt8) (n : Nat) (l : Int) :
    posLoop src (n + 1) l = match behind src (n + 1) with
      | some rest => (0,l + src.length - rest.length)
      | none => (n + 1 - src.count comma,l + src.length) := by
  induction src generalizing n l with
  | nil => simp [posLoop,behind]
  | cons c src ih =>
    rw [posLoop,if_neg (by omega),behind]
    dsimp only
    by_cases last : c = comma
    · rw [if_pos last,if_pos last,last]
      cases n with
      | zero =>
        rw [behind]
        simp
        omega
      | succ n =>
        rw [if_neg (by omega),Nat.cast_succ,Int.add_sub_cancel,ih]
        cases behind src (n + 1) <;> simp <;> omega
    · rw [if_neg last,if_neg last,if_neg (by omega),ih,List.count_cons_of_ne last]
      cases behind src (n + 1) <;> simp <;> omega

theorem paramPos_eq {src : List UInt8} {n : Nat} (counted : 0 < n) :
    paramPos src n = match behind src n with
      | some rest => (src.length - rest.length : Int)
      | none => -1 := by
  obtain ⟨n,rfl⟩ := Nat.exists_eq_succ_of_ne_zero (Nat.ne_of_gt counted)
  rw [paramPos,Nat.cast_succ,posLoop_behind]
  cases found : behind src (n + 1) with
  | some rest => simp
  | none =>
    have few := behind_eq_none.mp found
    simp only
    rw [if_neg (by omega)]

/-- The scanner of `Nmea` finds the same place. -/
theorem paramPos_nmea (src : List UInt8) (n l : Nat) :
    Nmea.paramPos src n l = (behind src n).map fun rest => l + (src.length - rest.length) := by
  induction src generalizing n l with
  | nil => cases n <;> simp [Nmea.paramPos,behind]
  | cons c src ih =>
    cases n with
    | zero => simp [Nmea.paramPos,behind]
    | succ n =>
      rw [Nmea.paramPos,behind,ih]
      apply Option.map_congr
      intro rest found
      have short := (behind_suffix found).length_le
      rw [List.length_cons]
      omega

end Position

section Copy

theorem Scanner.enter_copying {s : Scanner} (copying : s.copy = true) : s.enter = s := by
  rw [enter,if_neg (by simp [copying])]

/-- What the loop does once it copies. -/
theorem paramLoop_copying (src : List UInt8) {s : Scanner} (copying : s.copy = true) (last : s.n = 0) :
    (paramLoop src s).finish = (s.memory.write s.dest (copyParam src s.limit.toNat ++ [0]),s.len + (copyParam src s.limit.toNat).length) := by
  induction src generalizing s with
  | nil => simp [paramLoop,Scanner.finish,copyParam,copying]
  | cons c src ih =>
    rw [paramLoop,Scanner.enter_copying copying,copyParam]
    dsimp only
    by_cases ends : c = comma
    · rw [if_pos ends,if_pos (Or.inl ends),if_pos (by omega)]
      simp [Scanner.finish,copying]
    · rw [if_neg ends,if_pos copying]
      by_cases room : 0 < s.limit
      · have some : 0 < s.limit.toNat := UInt16.lt_iff_toNat_lt.mp room
        have less : (s.limit - 1).toNat = s.limit.toNat - 1 := UInt16.toNat_sub_of_le _ _ (UInt16.le_iff_toNat_le.mpr some)
        have behind := @ih ⟨s.memory.write s.dest [c],s.dest + 1,s.n,s.limit - 1,s.len + 1,s.copy⟩ copying last
        rw [if_pos room,if_neg (not_or.mpr ⟨ends,by omega⟩),behind]
        dsimp only
        rw [less,List.cons_append,List.length_cons]
        have joined := s.memory.write_append s.dest [c] (copyParam src (s.limit.toNat - 1) ++ [0])
        rw [List.length_singleton] at joined
        rw [joined]
        simp only [List.singleton_append,Nat.cast_succ,Prod.mk.injEq,true_and]
        omega
      · have none : s.limit.toNat = 0 := by
          have := mt UInt16.lt_iff_toNat_lt.mpr room
          simpa using this
        rw [if_neg room,if_pos (Or.inr none)]
        simp [Scanner.finish,copying]

theorem paramLoop_behind (src : List UInt8) {s : Scanner} {n : Nat} (searching : s.copy = false) (left : s.n = n) :
    (paramLoop src s).finish = match behind src n with
      | some (c :: rest) => (s.memory.write s.dest (copyParam (c :: rest) s.limit.toNat ++ [0]),((copyParam (c :: rest) s.limit.toNat).length : Int))
      | _ => (s.memory.write s.dest [0],-1) := by
  induction src generalizing s n with
  | nil =>
    rw [paramLoop,Scanner.finish,if_neg (by simp [searching])]
    cases n <;> rfl
  | cons c src ih =>
    cases n with
    | zero =>
      have entered : s.enter = ({s with copy := true, len := 0} : Scanner) := if_pos ⟨searching,left⟩
      have same : paramLoop (c :: src) s = paramLoop (c :: src) {s with copy := true, len := 0} := by
        rw [paramLoop,paramLoop,entered,Scanner.enter_copying rfl]
      have copied := @paramLoop_copying (c :: src) {s with copy := true, len := 0} rfl left
      rw [same,copied,behind]
      simp
    | succ n =>
      have stays : s.enter = s := if_neg (by omega)
      rw [paramLoop,stays,behind]
      dsimp only
      split_ifs with ends below copying
      · omega
      · exact ih searching (show s.n - 1 = n by omega)
      · exact absurd (searching.symm.trans copying) nofun
      · exact absurd (searching.symm.trans copying) nofun
      · exact ih searching left

/-- The scanner of `Nmea` copies the same field. -/
theorem getParam_nmea (src : List UInt8) (n limit : Nat) :
    Nmea.getParam src n limit = match behind src n with
      | some (c :: rest) => some (copyParam (c :: rest) limit)
      | _ => none := by
  induction src generalizing n with
  | nil => cases n <;> rfl
  | cons c src ih =>
    cases n with
    | zero => rfl
    | succ n => rw [Nmea.getParam,behind,ih]

end Copy

section Conversion

theorem readDigits_field (text : List UInt8) (n : Nat) :
    (readDigits 10 n text).1 = (readDigits 10 n (text.takeWhile fun c => c ≠ comma)).1 := by
  induction text generalizing n with
  | nil => rfl
  | cons c text ih =>
    by_cases ends : c = comma
    · rw [List.takeWhile_cons_of_neg (by simp [ends]),ends]
      rfl
    · rw [List.takeWhile_cons_of_pos (by simp [ends]),readDigits,readDigits]
      cases digitOf 10 c with
      | none => rfl
      | some d => exact ih _

theorem dropSpace_field (text : List UInt8) :
    (text.takeWhile fun c => c ≠ comma).dropWhile isSpace = (text.dropWhile isSpace).takeWhile fun c => c ≠ comma := by
  induction text with
  | nil => rfl
  | cons c text ih =>
    by_cases ends : c = comma
    · have solid : ¬ isSpace c = true := by rw [ends]; decide
      rw [List.takeWhile_cons_of_neg (by simp [ends]),List.dropWhile_cons_of_neg solid,List.takeWhile_cons_of_neg (by simp [ends])]
      rfl
    · rw [List.takeWhile_cons_of_pos (by simp [ends])]
      by_cases space : isSpace c = true
      · rw [List.dropWhile_cons_of_pos space,List.dropWhile_cons_of_pos space,ih]
      · rw [List.dropWhile_cons_of_neg space,List.dropWhile_cons_of_neg space,List.takeWhile_cons_of_pos (by simp [ends])]

/-- The conversion stops at the comma behind a field. -/
theorem leading_field (text : List UInt8) : leading text = leading (text.takeWhile fun c => c ≠ comma) := by
  rw [leading,leading,dropSpace_field]
  generalize text.dropWhile isSpace = text
  cases text with
  | nil => rfl
  | cons c text =>
    by_cases ends : c = comma
    · rw [List.takeWhile_cons_of_neg (by simp [ends]),ends]
      rfl
    · rw [readDigits_field (c :: text),List.takeWhile_cons_of_pos (by simp [ends])]
      dsimp only [List.head?_cons,List.tail_cons]
      rw [readDigits_field text]
      rfl

theorem atoi_field (text : List UInt8) : atoi text = atoi (text.takeWhile fun c => c ≠ comma) := by
  rw [atoi,atoi,leading_field]

theorem nmeaParseU32_behind (sentence : List UInt8) {n : Nat} (counted : 0 < n) :
    nmeaParseU32 sentence n = match behind sentence n with
      | some rest => (atoi rest % 2 ^ 32).toNat
      | none => 0 := by
  rw [nmeaParseU32,paramPos_eq counted]
  cases found : behind sentence n with
  | none => rfl
  | some rest =>
    have short := behind_shorter counted found
    have place : ((sentence.length : Int) - rest.length).toNat = sentence.length - rest.length := by omega
    dsimp only
    rw [if_pos (show (0 : Int) < sentence.length - rest.length by omega),place,← List.suffix_iff_eq_drop.mp (behind_suffix found)]

theorem nmeaParseU32_eq (sentence : List UInt8) {n : Nat} (counted : 0 < n) :
    nmeaParseU32 sentence n = match field sentence n with
      | some text => (atoi text % 2 ^ 32).toNat
      | none => 0 := by
  rw [nmeaParseU32_behind sentence counted,behind_field]
  cases behind sentence n with
  | none => rfl
  | some rest =>
    dsimp only [Option.map_some]
    rw [atoi_field]

end Conversion

section Fields

theorem getParam_eq (memory : Bytes) (dest : Nat) (src : List UInt8) (n : Nat) (limit : UInt16) :
    getParam memory dest src n limit = match behind src n with
      | some (c :: rest) =>
        (memory.write dest (copyParam (c :: rest) limit.toNat ++ [0]),((copyParam (c :: rest) limit.toNat).length : Int))
      | _ => (memory.write dest [0],-1) :=
  paramLoop_behind src rfl rfl

/-- The positions are read by these scanners. -/
theorem getParam_refines (memory : Bytes) (dest : Nat) (src : List UInt8) (n : Nat) (limit : UInt16) :
    getParam memory dest src n limit = match Nmea.getParam src n limit.toNat with
      | some text => (memory.write dest (text ++ [0]),(text.length : Int))
      | none => (memory.write dest [0],-1) := by
  rw [getParam_eq,getParam_nmea]
  cases behind src n with
  | none => rfl
  | some rest => cases rest <;> rfl

theorem nmeaParseU32_refines (sentence : List UInt8) {n : Nat} (counted : 0 < n) :
    nmeaParseU32 sentence n = Nmea.nmeaParseU32 sentence n := by
  rw [nmeaParseU32_behind sentence counted,Nmea.nmeaParseU32,paramPos_nmea]
  cases found : behind sentence n with
  | none => rfl
  | some rest =>
    have short := behind_shorter counted found
    dsimp only [Option.map_some]
    rw [Nat.zero_add,if_pos (show 0 < sentence.length - rest.length by omega),← List.suffix_iff_eq_drop.mp (behind_suffix found)]

/-- Of a sentence both scanners find the field behind `n` commas: one copies it up to the limit, with the NUL and nothing
else, the other converts it. -/
theorem field_extraction (memory : Bytes) (dest : Nat) (sentence : List UInt8) {n : Nat} (counted : 0 < n) (limit : UInt16) :
    ((getParam memory dest sentence n limit).2 = -1 ↔
      sentence.count comma < n ∨ sentence.count comma = n ∧ sentence.getLast? = some comma) ∧
    ((getParam memory dest sentence n limit).2 ≠ -1 → ∃ text, field sentence n = some text ∧
      getParam memory dest sentence n limit =
        (memory.write dest (text.take limit.toNat ++ [0]),((text.take limit.toNat).length : Int))) ∧
    ((getParam memory dest sentence n limit).2 = -1 → (getParam memory dest sentence n limit).1 = memory.write dest [0]) ∧
    nmeaParseU32 sentence n = match field sentence n with
      | some text => if text = [] then 0 else (atoi text % 2 ^ 32).toNat
      | none => 0 := by
  have ends := @behind_eq_nil sentence n counted
  have none := @behind_eq_none sentence n
  rw [← none,← ends,getParam_eq,nmeaParseU32_eq sentence counted,behind_field]
  cases found : behind sentence n with
  | none => simp
  | some rest =>
    cases rest with
    | nil => simp [atoi,leading,readDigits,storedSigned]
    | cons c rest =>
      refine ⟨?_,fun _ => ⟨_,rfl,?_⟩,?_,?_⟩
      · simp
      · dsimp only
        rw [copyParam_eq]
      · intro absent
        dsimp only at absent
        omega
      · dsimp only [Option.map_some]
        split_ifs with empty
        · rw [empty]
          rfl
        · rfl

/-- The second field is empty, the third is cut. -/
theorem field_extraction_cut : ∃ text, field (ascii "$GPGGA,,4807.038") 2 = some text ∧
    getParam (fun _ => 0xFF) 8 (ascii "$GPGGA,,4807.038") 2 4 =
      (Bytes.write (fun _ => 0xFF) 8 (text.take 4 ++ [0]),((text.take 4).length : Int)) :=
  (field_extraction (fun _ => 0xFF) 8 (ascii "$GPGGA,,4807.038") (by decide : 0 < 2) 4).2.1 (by decide)

end Fields

end JcaFirmware.NmeaField
