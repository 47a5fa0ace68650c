import JcaFirmware.CmsSia
import JcaFirmware.Foundation.Scan

/-! The frames `cms_sia_ip_rx` accepts, against the grammar of a frame. -/
namespace JcaFirmware.CmsSia
open Foundation Foundation.Numeral

structure Digits (digits : List UInt8) (count : Nat) : Prop where
  length : digits.length = count
  all : ∀ c ∈ digits, isDigit 16 c = true

/-- The form of a frame, whatever its numbers are: LF, four digits, three behind a 0, text and CR. -/
structure Formed (u crc size data : List UInt8) : Prop where
  split : u = 0x0A :: (crc ++ 0x30 :: (size ++ (data ++ [0x0D])))
  crcDigits : Digits crc 4
  sizeDigits : Digits size 3
  plain : Plain data

/-- A frame: the numbers are the CRC of the data and their length. -/
structure Framed (u crc size data : List UInt8) : Prop extends Formed u crc size data where
  checked : value 16 crc 0 = (crcCalc data).toNat
  counted : value 16 size 0 = data.length

def Grammar (u : List UInt8) : Prop :=
  20 ≤ u.length ∧ u.length ≤ cmsSiaIpMaxMsgLen ∧ ∃ crc size data, Framed u crc size data

def Shaped (u : List UInt8) : Prop := ∃ crc size data, Formed u crc size data

/-- What the checks let through: a number that `scanf` finds from the place of the CRC on, with
the low 16 bits of the CRC up to the first CR or NUL, and one from the place of the length on. -/
structure Loose (u : List UInt8) : Prop where
  long : 20 ≤ u.length
  short : u.length ≤ cmsSiaIpMaxMsgLen
  start : u.head? = some 0x0A
  crc : ∃ n, Reads 16 4 (cString (u.drop siaIdxCrc)) n ∧ n % 2 ^ 16 = (crcCalc (u.drop siaIdxData)).toNat
  size : ∃ n, Reads 16 4 (cString (u.drop siaIdxLen)) n ∧ n % 2 ^ 16 = u.length - siaIdxData - 1

theorem masked_iff (n : UInt16) {size : Nat} (small : size < 4096) :
    (n &&& 0xF000 = 0 ∧ size = (n &&& 0x0FFF).toNat) ↔ n.toNat = size := by
  have low : (n &&& 0x0FFF).toNat = n.toNat % 4096 := by
    rw [UInt16.toNat_and]
    exact Nat.and_two_pow_sub_one_eq_mod n.toNat 12
  have high : n &&& 0xF000 = 0 ↔ n.toNat < 4096 := by
    have bound := n.toNat_lt
    rw [← UInt16.toNat_inj,UInt16.toNat_and]
    change n.toNat &&& 0xF000 = 0 ↔ _
    constructor
    · intro none
      have nibble := @Nat.shiftRight_and_distrib 12 n.toNat 0xF000
      have ones : 0xF000 >>> 12 = 2 ^ 4 - 1 := rfl
      rw [none,ones,Nat.and_two_pow_sub_one_eq_mod,Nat.shiftRight_eq_div_pow,Nat.shiftRight_eq_div_pow] at nibble
      omega
    · intro less
      have inside := Nat.and_two_pow_sub_one_eq_mod n.toNat 12
      rw [Nat.mod_eq_of_lt less] at inside
      rw [← inside,Nat.and_assoc]
      exact Nat.and_zero _
  rw [low,high]
  omega

theorem checks_iff (crc size : Nat) (sum : UInt16) {n : Nat} (small : n < 4096) :
    (UInt16.ofNat size &&& 0xF000 = 0 ∧ UInt16.ofNat crc = sum ∧ n = (UInt16.ofNat size &&& 0x0FFF).toNat) ↔
      crc % 2 ^ 16 = sum.toNat ∧ size % 2 ^ 16 = n := by
  have masked := masked_iff (UInt16.ofNat size) small
  have same : UInt16.ofNat crc = sum ↔ crc % 2 ^ 16 = sum.toNat := by
    rw [← UInt16.toNat_inj,UInt16.toNat_ofNat']
  rw [UInt16.toNat_ofNat'] at masked
  rw [← masked,← same]
  exact and_left_comm

theorem accepts_iff (u : List UInt8) : cmsSiaIpRx u = true ↔ Loose u := by
  unfold cmsSiaIpRx
  by_cases long : u.length < 20
  · rw [if_pos long]
    exact iff_of_false Bool.noConfusion fun loose => absurd loose.long (Nat.not_le.mpr long)
  by_cases other : u.head? ≠ some 0x0A
  · rw [if_neg long,if_pos other]
    exact iff_of_false Bool.noConfusion fun loose => other loose.start
  by_cases short : cmsSiaIpMaxMsgLen < u.length
  · rw [if_neg long,if_neg other,if_pos short]
    exact iff_of_false Bool.noConfusion fun loose => absurd loose.short (Nat.not_le.mpr short)
  rw [if_neg long,if_neg other,if_neg short]
  cases first : scan 16 4 (cString (u.drop siaIdxCrc)) with
  | none => exact iff_of_false Bool.noConfusion fun loose => loose.crc.elim fun _ both => not_reads first both.1
  | some found =>
    obtain ⟨crc,rest⟩ := found
    cases second : scan 16 4 (cString (u.drop siaIdxLen)) with
    | none => exact iff_of_false Bool.noConfusion fun loose => loose.size.elim fun _ both => not_reads second both.1
    | some found =>
      obtain ⟨size,rest'⟩ := found
      have small : u.length - siaIdxData - 1 < 4096 := by
        rw [cmsSiaIpMaxMsgLen] at short
        omega
      have checks := checks_iff crc size (crcCalc (u.drop siaIdxData)) small
      dsimp only
      constructor
      · intro accepted
        split_ifs at accepted with nibble unequal
        obtain ⟨checked,counted⟩ := checks.mp ⟨not_not.mp nibble,not_not.mp unequal,of_decide_eq_true accepted⟩
        exact ⟨Nat.le_of_not_lt long,Nat.le_of_not_lt short,not_not.mp other,(exists_reads first).mpr checked,
          (exists_reads second).mpr counted⟩
      · intro loose
        obtain ⟨nibble,equal,counted⟩ := checks.mpr ⟨(exists_reads first).mp loose.crc,(exists_reads second).mp loose.size⟩
        rw [if_neg (not_not.mpr nibble),if_neg (not_not.mpr equal)]
        exact decide_eq_true counted

section Digits

variable {digits : List UInt8} {count : Nat} (spelled : Digits digits count)
include spelled

theorem Digits.nonzero : ∀ c ∈ digits, c ≠ 0 := by
  rintro c member rfl
  cases spelled.all 0 member

theorem Digits.value_lt : value 16 digits 0 < 16 ^ count := by
  have less := Numeral.value_lt (show 0 < 16 by decide) digits 0
  rwa [spelled.length,Nat.mul_one] at less

theorem Digits.behind_zero : Digits (0x30 :: digits) (count + 1) := by
  refine ⟨congrArg Nat.succ spelled.length,fun c member => ?_⟩
  rcases List.mem_cons.mp member with rfl | own
  · decide
  · exact spelled.all c own

end Digits

/-- Four digits are the number of their field, whatever text follows. -/
theorem Digits.reads {digits rest : List UInt8} (spelled : Digits digits 4) (ended : ∀ c ∈ rest, c ≠ 0) {n : Nat} :
    Reads 16 4 (cString (digits ++ rest)) n ↔ n = value 16 digits 0 := by
  have nonzero : ∀ c ∈ digits ++ rest, c ≠ 0 := by
    intro c member
    exact (List.mem_append.mp member).elim (spelled.nonzero c) (ended c)
  have less := spelled.value_lt
  rw [cString_plain nonzero]
  exact reads_digits spelled.length (List.ne_nil_of_length_eq_add_one spelled.length) spelled.all
    (by rw [scanMax]; omega) rest

section Formed

variable {u crc size data : List UInt8} (formed : Formed u crc size data)
include formed

theorem Formed.length : u.length = data.length + 10 := by
  rw [formed.split]
  simp [formed.crcDigits.length,formed.sizeDigits.length]
  omega

theorem Formed.drop_crc : u.drop siaIdxCrc = crc ++ ((0x30 :: size) ++ (data ++ [0x0D])) := by
  rw [formed.split]
  rfl

theorem Formed.drop_len : u.drop siaIdxLen = (0x30 :: size) ++ (data ++ [0x0D]) := by
  have place : siaIdxLen = siaIdxCrc + 4 := rfl
  rw [place,← List.drop_drop,formed.drop_crc,List.drop_left' formed.crcDigits.length]

theorem Formed.drop_data : u.drop siaIdxData = data ++ [0x0D] := by
  have place : siaIdxData = siaIdxLen + 4 := rfl
  rw [place,← List.drop_drop,formed.drop_len,List.drop_left' formed.sizeDigits.behind_zero.length]

/-- In a frame's form the loose checks are the strict ones. -/
theorem Formed.loose_iff (long : 20 ≤ u.length) (short : u.length ≤ cmsSiaIpMaxMsgLen) :
    Loose u ↔ value 16 crc 0 = (crcCalc data).toNat ∧ value 16 size 0 = data.length := by
  have sized := formed.sizeDigits.behind_zero
  have ended := plain_ended formed.plain
  have later : ∀ c ∈ (0x30 :: size) ++ (data ++ [0x0D]), c ≠ 0 := by
    intro c member
    exact (List.mem_append.mp member).elim (sized.nonzero c) (ended c)
  have crcReads {n : Nat} : Reads 16 4 (cString (u.drop siaIdxCrc)) n ↔ n = value 16 crc 0 := by
    rw [formed.drop_crc]
    exact formed.crcDigits.reads later
  have sizeReads {n : Nat} : Reads 16 4 (cString (u.drop siaIdxLen)) n ↔ n = value 16 size 0 := by
    rw [formed.drop_len]
    exact sized.reads ended
  have length := formed.length
  have covered : crcCalc (u.drop siaIdxData) = crcCalc data := by
    rw [formed.drop_data]
    exact crcCalc_end formed.plain (by omega)
  have start : u.head? = some 0x0A := by
    rw [formed.split]
    rfl
  have behind : u.length - siaIdxData - 1 = data.length := by
    rw [siaIdxData]
    omega
  have crcWord : value 16 crc 0 % 2 ^ 16 = value 16 crc 0 := Nat.mod_eq_of_lt formed.crcDigits.value_lt
  have sizeWord : value 16 size 0 % 2 ^ 16 = value 16 size 0 :=
    Nat.mod_eq_of_lt (Nat.lt_trans formed.sizeDigits.value_lt (by decide))
  constructor
  · rintro ⟨_,_,_,⟨n,reads,checked⟩,⟨m,reads',counted⟩⟩
    rw [crcReads.mp reads,crcWord,covered] at checked
    rw [sizeReads.mp reads',sizeWord,behind] at counted
    exact ⟨checked,counted⟩
  · rintro ⟨checked,counted⟩
    refine ⟨long,short,start,⟨_,crcReads.mpr rfl,?_⟩,⟨_,sizeReads.mpr rfl,?_⟩⟩
    · rw [crcWord,covered,checked]
    · rw [sizeWord,behind,counted]

end Formed

theorem grammar_loose (u : List UInt8) : Grammar u ↔ Loose u ∧ Shaped u := by
  constructor
  · rintro ⟨long,short,crc,size,data,framed⟩
    exact ⟨(framed.toFormed.loose_iff long short).mpr ⟨framed.checked,framed.counted⟩,crc,size,data,framed.toFormed⟩
  · rintro ⟨loose,crc,size,data,formed⟩
    obtain ⟨checked,counted⟩ := (formed.loose_iff loose.long loose.short).mp loose
    exact ⟨loose.long,loose.short,crc,size,data,formed,checked,counted⟩

/-- The checks are the grammar exactly where they stop what has not the form of a frame. -/
theorem grammar_iff (u : List UInt8) : (cmsSiaIpRx u = true ↔ Grammar u) ↔ (Loose u → Shaped u) := by
  rw [accepts_iff,grammar_loose]
  exact iff_self_and

/-- A frame with another character in place of its CR, which is then part of what the CRC covers. -/
def unterminated : List UInt8 :=
  let data := ascii "\"ACK\"0001L0#1234[]"
  0x0A :: (padded 16 4 (crcCalc (data ++ [0x58])).toNat ++ padded 16 4 data.length ++ data ++ [0x58])

theorem unterminated_accepted : cmsSiaIpRx unterminated = true ∧ ¬ Grammar unterminated := by
  refine ⟨by decide +kernel,?_⟩
  rintro ⟨_,_,crc,size,data,framed⟩
  have last := congrArg List.getLast? framed.split
  have other : unterminated.getLast? = some 0x58 := by decide +kernel
  have ends : 0x0A :: (crc ++ 0x30 :: (size ++ (data ++ [0x0D]))) = (0x0A :: (crc ++ 0x30 :: (size ++ data))) ++ [0x0D] := by
    simp
  rw [other,ends,List.getLast?_concat] at last
  exact absurd last (by decide)

end JcaFirmware.CmsSia
