import JcaFirmware.EventBuf
import JcaFirmware.Foundation.CText
import JcaFirmware.Foundation.Chunks
import JcaFirmware.Foundation.Memory

/-! The sender of one SMS (`modem_sms_send_now` of `modem/modem_sms.c`): a message of any
length is cut into parts for the PDU encoder. The text conversions, the encoder and the
dialogue with the modem are parameters, and so are the widths of the fields of `pdu_t`.
The parts of a message that is copied hold all of it. -/
namespace JcaFirmware.SmsSplit
open EventBuf Foundation Chunks CText

inductive SmsType | text7 | data8 | ucs2 | utf8 | auto | sr | unknown
deriving DecidableEq, Repr

inductive PduType | text7 | text8 | ucs2
deriving DecidableEq, Repr

/-- `sms_struct_t`, with the memory that `data` points to. -/
structure Sms where
  data : List UInt8
  telNum : List UInt8
  len : UInt16
  type : SmsType
  id : UInt8
  sr : Bool
deriving DecidableEq, Repr

/-- `pdu_t` as the encoder gets it, with the memory from the buffer `content` on. -/
structure Pdu where
  telNum : List UInt8
  type : PduType
  count : Nat
  nr : Nat
  size : Nat
  sr : Bool
  content : Bytes

def Pdu.data (pdu : Pdu) : List UInt8 := pdu.content.read 0 pdu.size

/-- How many bits the fields of `pdu_t` have. -/
structure Widths where
  count : Nat
  nr : Nat
  size : Nat
  count_wide : 8 ≤ count
  nr_wide : 8 ≤ nr
  size_wide : 8 ≤ size

/-- What `text_utf8_to_ucs2` returns, stores in its third argument and writes. -/
structure Conversion where
  chars : Nat
  bytes : UInt16
  ucs2 : List UInt8

structure Lib where
  textIsAscii : List UInt8 → Bool
  textUtf8ToUcs2 : List UInt8 → Nat → Conversion
  widths : Widths

/-- The heap, and the encoder and the modem together: the id of a part that is accepted. -/
structure Env where
  rawData : Bool
  content : Option Bytes
  sendPdu : Pdu → Option UInt8

section Copy

variable (src : List UInt8)

/-- The loop of `_memncpy` with `rest` turns left up to its limit. -/
def memncpyLoop (dest : Bytes) (len i : Nat) : Nat → Nat × Bytes
  | 0 => (i,dest)
  | rest + 1 => if len = 0 then (i,dest) else memncpyLoop (dest.write i [src.getD i 0]) (len - 1) (i + 1) rest

def memncpy (dest : Bytes) (len limit : UInt16) : Nat × Bytes := memncpyLoop src dest len.toNat 0 limit.toNat

theorem memncpyLoop_eq {dest : Bytes} {len i rest : Nat} (held : i + min len rest ≤ src.length) :
    memncpyLoop src dest len i rest = (i + min len rest,dest.write i ((src.drop i).take (min len rest))) := by
  induction rest generalizing dest len i with
  | zero => rw [memncpyLoop,Nat.min_zero,List.take_zero,Bytes.write_nil,Nat.add_zero]
  | succ rest ih =>
    rw [memncpyLoop]
    split_ifs with done
    · rw [done,Nat.zero_min,List.take_zero,Bytes.write_nil,Nat.add_zero]
    · have one : min len (rest + 1) = min (len - 1) rest + 1 := by omega
      have inside : i < src.length := by omega
      have shorter := @ih (dest.write i [src.getD i 0]) (len - 1) (i + 1) (by omega)
      have joined := dest.write_append i [src.getD i 0] ((src.drop (i + 1)).take (min (len - 1) rest))
      rw [List.length_singleton] at joined
      rw [shorter,joined,one,List.drop_eq_getElem_cons inside,List.take_succ_cons,List.getD_eq_getElem _ _ inside,
        List.singleton_append,Nat.add_assoc,Nat.add_comm 1]

theorem memncpy_eq {dest : Bytes} {len limit : UInt16} (held : min len.toNat limit.toNat ≤ src.length) :
    memncpy src dest len limit = (min len.toNat limit.toNat,dest.write 0 (src.take (min len.toNat limit.toNat))) := by
  rw [memncpy,memncpyLoop_eq src (by rwa [Nat.zero_add]),Nat.zero_add,List.drop_zero]

end Copy

section Send

variable (lib : Lib)

def limitOf (single concatenated : Nat) (len : UInt16) : Nat := if single < len.toNat then concatenated else single

/-- The coding of the message, its length in the units of the coding and `max_sms_len`;
the `default` of the first `switch` gives none. -/
def prepare (sms : Sms) : Option (Sms × PduType × Nat) :=
  let sms := if sms.type = .auto then {sms with type := if lib.textIsAscii sms.data then .text7 else .utf8} else sms
  match sms.type with
  | .text7 =>
    let sms := {sms with len := .ofNat (cString sms.data).length}
    some (sms,.text7,limitOf 160 153 sms.len)
  | .data8 => some (sms,.text8,limitOf 140 134 sms.len)
  | .utf8 =>
    let sms := {sms with len := .ofNat (lib.textUtf8ToUcs2 sms.data 512).chars}
    some (sms,.ucs2,limitOf 70 67 sms.len)
  | .ucs2 => some (sms,.ucs2,limitOf 70 67 sms.len)
  | _ => none

/-- The loop that counts the parts. Its `s16` does not reach a length above 32767. -/
def countLoop (maxSmsLen : Nat) (smsLen : UInt16) : Nat → Int16 → Nat → Option Nat
  | 0, _, _ => none
  | fuel + 1, len, count =>
    if len.toInt < smsLen.toNat then
      countLoop maxSmsLen smsLen fuel (.ofInt (len.toInt + maxSmsLen)) ((count + 1) % 2 ^ lib.widths.count)
    else some count

/-- What the loop of the parts carries: `data_ptr`, `len` and the buffer of the PDU. -/
structure Cursor where
  dataPtr : List UInt8
  len : Int16
  content : Bytes

def Cursor.after (s : Cursor) (size units : Nat) (content : Bytes) : Cursor :=
  ⟨s.dataPtr.drop size,.ofInt (s.len.toInt - units),content⟩

/-- The second `switch`: the size of the next part, and its content in the buffer. -/
def fill (type : SmsType) (maxSmsLen : Nat) (s : Cursor) : Nat × Cursor :=
  match type with
  | .utf8 =>
    let read := lib.textUtf8ToUcs2 s.dataPtr maxSmsLen
    (read.bytes.toNat * 2 % 2 ^ lib.widths.size,s.after read.bytes.toNat read.chars (s.content.write 0 read.ucs2))
  | .ucs2 =>
    let copied := memncpy s.dataPtr s.content (.ofInt (s.len.toInt * 2)) (.ofNat (maxSmsLen * 2))
    let size := copied.1 % 2 ^ lib.widths.size
    (size,s.after size (size / 2) copied.2)
  | _ =>
    let copied := memncpy s.dataPtr s.content (.ofInt s.len.toInt) (.ofNat maxSmsLen)
    let size := copied.1 % 2 ^ lib.widths.size
    (size,s.after size size (copied.2.write size [0]))

structure Outcome where
  result : Bool
  parts : List Pdu
  sms : Sms
  smsErrorCounter : UInt32
  smsError : Bool

variable (env : Env) (errors : UInt32)

/-- `g_s_s_false`. -/
def refused (parts : List Pdu) (sms : Sms) : Outcome := ⟨false,parts,sms,errors + 1,true⟩

def pduOf (sms : Sms) (type : PduType) (count i : Nat) (filled : Nat × Cursor) : Pdu :=
  ⟨sms.telNum,type,count,i % 2 ^ lib.widths.nr,filled.1,sms.sr,filled.2.content⟩

/-- The loop of the parts; its counter is an `u8`. -/
def sendLoop (type : PduType) (maxSmsLen count : Nat) : Nat → Nat → Cursor → Sms → List Pdu → Option Outcome
  | 0, _, _, _, _ => none
  | fuel + 1, i, s, sms, parts =>
    if i ≤ count then
      let filled := fill lib sms.type maxSmsLen s
      let pdu := pduOf lib sms type count i filled
      match env.sendPdu pdu with
      | some id => sendLoop type maxSmsLen count fuel ((i + 1) % 256) filled.2 {sms with id := id} (parts ++ [pdu])
      | none => some (refused errors (parts ++ [pdu]) sms)
    else some ⟨true,parts,sms,0,false⟩

/-- `none` when a loop is still running after `fuel` turns. -/
def modemSmsSendNow (fuel : Nat) (sms : Sms) : Except Fault (Option Outcome) := do
  osAssert (env.rawData = true) "mem"
  match env.content with
  | none => .error (.assertion "mem")
  | some content =>
    match prepare lib sms with
    | none => .ok (some (refused errors [] sms))
    | some (sms,type,maxSmsLen) =>
      match countLoop lib maxSmsLen sms.len fuel 0 0 with
      | none => .ok none
      | some count =>
        let count := if count = 0 then 1 else count
        .ok (sendLoop lib env errors type maxSmsLen count fuel 1 ⟨sms.data,.ofNat sms.len.toNat,content⟩ sms [])

end Send

/-- A byte fits a field that is wide enough. -/
theorem mod_wide {bits n : Nat} (wide : 8 ≤ bits) (small : n < 256) : n % 2 ^ bits = n := by
  have field : 2 ^ 8 ≤ 2 ^ bits := Nat.pow_le_pow_right (by decide) wide
  exact Nat.mod_eq_of_lt (Nat.lt_of_lt_of_le small field)

section Parts

variable (lib : Lib)

/-- The next `k` parts as the loop hands them to the encoder. -/
def partsFrom (sms : Sms) (type : PduType) (maxSmsLen count : Nat) : Nat → Nat → Cursor → List Pdu
  | 0, _, _ => []
  | k + 1, i, s =>
    let filled := fill lib sms.type maxSmsLen s
    pduOf lib sms type count i filled :: partsFrom sms type maxSmsLen count k (i + 1) filled.2

variable {lib} {sms : Sms} {type : PduType} {maxSmsLen count : Nat}

theorem partsFrom_id (id : UInt8) (k i : Nat) (s : Cursor) :
    partsFrom lib {sms with id := id} type maxSmsLen count k i s = partsFrom lib sms type maxSmsLen count k i s := by
  induction k generalizing i s with
  | zero => rfl
  | succ k ih =>
    rw [partsFrom,partsFrom,ih]
    rfl

theorem length_partsFrom (k i : Nat) (s : Cursor) : (partsFrom lib sms type maxSmsLen count k i s).length = k := by
  induction k generalizing i s with
  | zero => rfl
  | succ k ih => rw [partsFrom,List.length_cons,ih]

theorem partsFrom_count {k i : Nat} {s : Cursor} :
    ∀ pdu ∈ partsFrom lib sms type maxSmsLen count k i s, pdu.count = count := by
  induction k generalizing i s with
  | zero => exact fun pdu member => absurd member List.not_mem_nil
  | succ k ih =>
    intro pdu member
    rw [partsFrom,List.mem_cons] at member
    rcases member with rfl | member
    · rfl
    · exact ih pdu member

theorem partsFrom_nr {k i : Nat} {s : Cursor} (small : i + k ≤ 256) :
    (partsFrom lib sms type maxSmsLen count k i s).map Pdu.nr = List.range' i k := by
  induction k generalizing i s with
  | zero => rfl
  | succ k ih =>
    have number : (pduOf lib sms type count i (fill lib sms.type maxSmsLen s)).nr = i :=
      mod_wide lib.widths.nr_wide (by omega)
    rw [partsFrom,List.map_cons,ih (by omega),number,List.range'_succ]

theorem toInt_ofInt_nat {n : Nat} (small : n < 2 ^ 15) : (Int16.ofInt n).toInt = n :=
  Int16.toInt_ofInt_of_le (by omega) (by omega)

theorem countLoop_eq {smsLen : UInt16} {fuel done counted : Nat} (positive : 0 < maxSmsLen)
    (small : smsLen.toNat + maxSmsLen < 2 ^ 15) (within : done < smsLen.toNat + maxSmsLen)
    (few : counted + (smsLen.toNat - done) ⌈/⌉ maxSmsLen < 256) (enough : (smsLen.toNat - done) ⌈/⌉ maxSmsLen < fuel) :
    countLoop lib maxSmsLen smsLen fuel (.ofInt done) counted = some (counted + (smsLen.toNat - done) ⌈/⌉ maxSmsLen) := by
  induction fuel generalizing done counted with
  | zero => exact absurd enough (Nat.not_lt_zero _)
  | succ fuel ih =>
    rw [countLoop,toInt_ofInt_nat (by omega)]
    split_ifs with more
    · have step := @ceilDiv_step maxSmsLen positive (smsLen.toNat - done) (by omega)
      rw [Nat.sub_sub] at step
      rw [step] at few enough
      have next := @ih (done + maxSmsLen) (counted + 1) (by omega) (by omega) (by omega)
      rw [Nat.cast_add] at next
      rw [mod_wide lib.widths.count_wide (by omega),next,step]
      congr 1
      omega
    · rw [Nat.sub_eq_zero_of_le (by omega),zero_ceilDiv,Nat.add_zero]

variable {env : Env} {errors : UInt32}

theorem sendLoop_accepted (accepted : ∀ pdu, (env.sendPdu pdu).isSome) {k i fuel : Nat} (last : i + k = count + 1)
    (small : count < 255) (enough : k < fuel) (s : Cursor) (parts : List Pdu) :
    ∃ out, sendLoop lib env errors type maxSmsLen count fuel i s sms parts = some out ∧ out.result = true ∧
      out.parts = parts ++ partsFrom lib sms type maxSmsLen count k i s := by
  induction k generalizing i fuel s sms parts with
  | zero =>
    obtain ⟨fuel,rfl⟩ : ∃ rest, fuel = rest + 1 := ⟨fuel - 1,by omega⟩
    rw [sendLoop,if_neg (by omega)]
    exact ⟨_,rfl,rfl,(List.append_nil parts).symm⟩
  | succ k ih =>
    obtain ⟨fuel,rfl⟩ : ∃ rest, fuel = rest + 1 := ⟨fuel - 1,by omega⟩
    obtain ⟨id,sent⟩ := Option.isSome_iff_exists.mp (accepted (pduOf lib sms type count i (fill lib sms.type maxSmsLen s)))
    rw [sendLoop,if_pos (by omega)]
    dsimp only
    rw [sent,Nat.mod_eq_of_lt (by omega)]
    obtain ⟨out,done,result,made⟩ := @ih {sms with id := id} (i + 1) fuel (by omega) (by omega)
      (fill lib sms.type maxSmsLen s).2 (parts ++ [pduOf lib sms type count i (fill lib sms.type maxSmsLen s)])
    refine ⟨out,done,result,?_⟩
    rw [made,partsFrom_id,partsFrom,List.append_assoc,List.singleton_append]

theorem parts_few {units : Nat} (short : units ≤ 16384) (least : 67 ≤ maxSmsLen) : units ⌈/⌉ maxSmsLen ≤ 245 := by
  refine (ceilDiv_le_iff_le_mul (by omega)).mpr ?_
  calc units ≤ 67 * 245 := Nat.le_trans short (by decide)
    _ ≤ maxSmsLen * 245 := Nat.mul_le_mul_right 245 least

def Env.HasMemory (env : Env) : Prop := env.rawData = true ∧ env.content.isSome = true

/-- A message of a known coding whose parts are all accepted is sent to its end. -/
theorem modemSmsSendNow_sent {sms' : Sms} (prepared : prepare lib sms' = some (sms,type,maxSmsLen)) (memory : env.HasMemory)
    (accepted : ∀ pdu, (env.sendPdu pdu).isSome) (least : 67 ≤ maxSmsLen) (most : maxSmsLen ≤ 160) (short : sms.len.toNat ≤ 16384)
    {fuel : Nat} (enough : 256 ≤ fuel) :
    ∃ content out, modemSmsSendNow lib env errors fuel sms' = .ok (some out) ∧ out.result = true ∧
      out.parts = partsFrom lib sms type maxSmsLen (max 1 (sms.len.toNat ⌈/⌉ maxSmsLen)) (max 1 (sms.len.toNat ⌈/⌉ maxSmsLen)) 1
        ⟨sms.data,.ofInt sms.len.toNat,content⟩ := by
  obtain ⟨content,heap⟩ := Option.isSome_iff_exists.mp memory.2
  have few := parts_few short least
  have counted : countLoop lib maxSmsLen sms.len fuel 0 0 = some (sms.len.toNat ⌈/⌉ maxSmsLen) := by
    rw [← Nat.sub_zero sms.len.toNat] at few
    have loop := @countLoop_eq lib maxSmsLen sms.len fuel 0 0 (by omega) (by omega) (by omega) (by omega) (by omega)
    rwa [Nat.zero_add] at loop
  have atLeast : (if sms.len.toNat ⌈/⌉ maxSmsLen = 0 then 1 else sms.len.toNat ⌈/⌉ maxSmsLen) =
      max 1 (sms.len.toNat ⌈/⌉ maxSmsLen) := by
    split_ifs <;> omega
  obtain ⟨out,done,result,made⟩ := @sendLoop_accepted lib sms type maxSmsLen (max 1 (sms.len.toNat ⌈/⌉ maxSmsLen)) env errors
    accepted (max 1 (sms.len.toNat ⌈/⌉ maxSmsLen)) 1 fuel (Nat.add_comm _ _) (by omega) (by omega)
    ⟨sms.data,.ofInt sms.len.toNat,content⟩ []
  refine ⟨content,out,?_,result,made⟩
  rw [modemSmsSendNow,osAssert,if_pos memory.1,heap,prepared]
  dsimp only [bind,Except.bind]
  rw [counted]
  dsimp only
  rw [atLeast]
  exact congrArg Except.ok done

end Parts

section Copied

variable {lib : Lib} {sms : Sms} {type : PduType}

/-- The bytes of one unit of a message that is copied. -/
def SmsType.unit : SmsType → Nat
  | .ucs2 => 2
  | _ => 1

def SmsType.Copied (type : SmsType) : Prop := type = .text7 ∨ type = .data8 ∨ type = .ucs2

section Fill

variable {maxSmsLen left : Nat} {src : List UInt8} {content : Bytes}

theorem toNat_ofInt_nat {n : Nat} (small : n < 2 ^ 16) : (UInt16.ofInt n).toNat = n := by
  rw [UInt16.ofInt,UInt16.toNat_ofNat']
  omega

theorem memncpy_part {unit : Nat} (small : unit * maxSmsLen < 256) (short : unit * left < 2 ^ 16) (held : unit * left ≤ src.length) :
    memncpy src content (.ofInt ↑(unit * left)) (.ofNat (unit * maxSmsLen)) =
      (unit * min left maxSmsLen,content.write 0 (src.take (unit * min left maxSmsLen))) := by
  have limit : (UInt16.ofNat (unit * maxSmsLen)).toNat = unit * maxSmsLen := UInt16.toNat_ofNat_of_lt' (Nat.lt_trans small (by decide))
  have least : min (UInt16.ofInt ↑(unit * left)).toNat (UInt16.ofNat (unit * maxSmsLen)).toNat = unit * min left maxSmsLen := by
    rw [toNat_ofInt_nat short,limit,Nat.mul_min_mul_left]
  rw [memncpy_eq src (by rw [toNat_ofInt_nat short]; omega),least]

theorem read_copied {n : Nat} (held : n ≤ src.length) : (content.write 0 (src.take n)).read 0 n = src.take n := by
  have same := content.read_write 0 (src.take n)
  rwa [List.length_take_of_le held] at same

theorem after_eq (size : Nat) {units : Nat} (short : left < 2 ^ 15) (fewer : units ≤ left) (content' : Bytes) :
    (⟨src,.ofInt left,content⟩ : Cursor).after size units content' = ⟨src.drop size,.ofInt ↑(left - units),content'⟩ := by
  rw [Cursor.after,toInt_ofInt_nat short,Nat.cast_sub fewer]

theorem fill_bytes {type : SmsType} (bytes : type = .text7 ∨ type = .data8) (small : maxSmsLen < 256) (short : left < 2 ^ 15)
    (held : left ≤ src.length) :
    fill lib type maxSmsLen ⟨src,.ofInt left,content⟩ =
      (min left maxSmsLen,⟨src.drop (min left maxSmsLen),.ofInt ↑(left - min left maxSmsLen),
        (content.write 0 (src.take (min left maxSmsLen))).write (min left maxSmsLen) [0]⟩) := by
  have copy := @memncpy_part maxSmsLen left src content 1 (by omega) (by omega) (by omega)
  rw [Nat.one_mul,Nat.one_mul,Nat.one_mul] at copy
  have filled : fill lib type maxSmsLen ⟨src,.ofInt left,content⟩ =
      let copied := memncpy src content (.ofInt (Int16.ofInt left).toInt) (.ofNat maxSmsLen)
      let size := copied.1 % 2 ^ lib.widths.size
      (size,(⟨src,.ofInt left,content⟩ : Cursor).after size size (copied.2.write size [0])) := by
    rcases bytes with rfl | rfl <;> rfl
  rw [filled,toInt_ofInt_nat short,copy]
  dsimp only
  rw [mod_wide lib.widths.size_wide (by omega),after_eq _ short (Nat.min_le_left _ _)]

theorem fill_ucs2 (small : 2 * maxSmsLen < 256) (short : left < 2 ^ 15) (held : 2 * left ≤ src.length) :
    fill lib .ucs2 maxSmsLen ⟨src,.ofInt left,content⟩ =
      (2 * min left maxSmsLen,⟨src.drop (2 * min left maxSmsLen),.ofInt ↑(left - min left maxSmsLen),
        content.write 0 (src.take (2 * min left maxSmsLen))⟩) := by
  have copy := @memncpy_part maxSmsLen left src content 2 small (by omega) held
  rw [fill]
  dsimp only
  rw [toInt_ofInt_nat short,← Nat.cast_ofNat,← Nat.cast_mul,Nat.mul_comm left,Nat.mul_comm maxSmsLen,copy]
  dsimp only
  rw [mod_wide lib.widths.size_wide (by omega),Nat.mul_div_cancel_left _ (by decide),after_eq _ short (Nat.min_le_left _ _)]

/-- One part takes the next bytes and leaves the rest. -/
theorem fill_copied {type : SmsType} (copied : type.Copied) (small : type.unit * maxSmsLen < 256) (short : left < 2 ^ 15)
    (held : type.unit * left ≤ src.length) :
    ∃ content', fill lib type maxSmsLen ⟨src,.ofInt left,content⟩ =
        (type.unit * min left maxSmsLen,⟨src.drop (type.unit * min left maxSmsLen),.ofInt ↑(left - min left maxSmsLen),content'⟩) ∧
      content'.read 0 (type.unit * min left maxSmsLen) = src.take (type.unit * min left maxSmsLen) := by
  have bytes (plain : type = .text7 ∨ type = .data8) (one : type.unit = 1) : ∃ content',
      fill lib type maxSmsLen ⟨src,.ofInt left,content⟩ =
        (type.unit * min left maxSmsLen,⟨src.drop (type.unit * min left maxSmsLen),.ofInt ↑(left - min left maxSmsLen),content'⟩) ∧
      content'.read 0 (type.unit * min left maxSmsLen) = src.take (type.unit * min left maxSmsLen) := by
    simp only [one,Nat.one_mul] at small held ⊢
    refine ⟨_,fill_bytes plain small short held,?_⟩
    rw [Bytes.read_write_apart _ (Or.inr (by omega)),read_copied (by omega)]
  rcases copied with rfl | rfl | rfl
  · exact bytes (Or.inl rfl) rfl
  · exact bytes (Or.inr rfl) rfl
  · exact ⟨_,fill_ucs2 small short held,read_copied (Nat.le_trans (Nat.mul_le_mul_left 2 (Nat.min_le_left _ _)) held)⟩

end Fill

/-- The parts of a message that is copied are the pieces of its bytes. -/
theorem partsFrom_copied (copied : sms.type.Copied) {maxSmsLen count left k i : Nat} {src : List UInt8} {content : Bytes}
    (small : sms.type.unit * maxSmsLen < 256) (short : left < 2 ^ 15) (held : sms.type.unit * left ≤ src.length) :
    (partsFrom lib sms type maxSmsLen count k i ⟨src,.ofInt left,content⟩).map Pdu.data =
      pieces (sms.type.unit * maxSmsLen) k (src.take (sms.type.unit * left)) := by
  induction k generalizing i left src content with
  | zero => rfl
  | succ k ih =>
    obtain ⟨content',filled,data⟩ := @fill_copied lib maxSmsLen left src content sms.type copied small short held
    have least : sms.type.unit * min left maxSmsLen = min (sms.type.unit * maxSmsLen) (sms.type.unit * left) := by
      rw [← Nat.mul_min_mul_left,Nat.min_comm]
    have remaining : sms.type.unit * (left - min left maxSmsLen) = sms.type.unit * left - sms.type.unit * min left maxSmsLen :=
      Nat.mul_sub _ _ _
    have rest := @ih (left - min left maxSmsLen) (i + 1) (src.drop (sms.type.unit * min left maxSmsLen)) content' (by omega)
      (by rw [List.length_drop]; omega)
    have after : (src.drop (sms.type.unit * min left maxSmsLen)).take (sms.type.unit * (left - min left maxSmsLen)) =
        (src.take (sms.type.unit * left)).drop (sms.type.unit * maxSmsLen) := by
      rw [List.drop_take,remaining,least]
      rcases Nat.le_total (sms.type.unit * maxSmsLen) (sms.type.unit * left) with full | last
      · rw [Nat.min_eq_left full]
      · rw [Nat.min_eq_right last,Nat.sub_self,Nat.sub_eq_zero_of_le last,List.take_zero,List.take_zero]
    rw [partsFrom,filled,List.map_cons,rest,after,pieces,List.take_take,← least]
    exact congrArg (· :: _) data

def SmsType.single : SmsType → Nat
  | .text7 => 160
  | .data8 => 140
  | _ => 70

def SmsType.concatenated : SmsType → Nat
  | .text7 => 153
  | .data8 => 134
  | _ => 67

/-- The length of a message in the units of its coding. -/
def Sms.units (sms : Sms) : Nat := if sms.type = .text7 then (cString sms.data).length else sms.len.toNat

def Sms.original (sms : Sms) : List UInt8 := sms.data.take (sms.type.unit * sms.units)

def Sms.capacity (sms : Sms) : Nat := if sms.units ≤ sms.type.single then sms.type.single else sms.type.concatenated

theorem original_text7 (text : sms.type = .text7) : sms.original = cString sms.data := by
  rw [Sms.original,Sms.units,if_pos text,text]
  show sms.data.take (1 * (cString sms.data).length) = cString sms.data
  rw [Nat.one_mul]
  exact (List.prefix_iff_eq_take.mp (List.takeWhile_prefix _)).symm

/-- What it means that cutting a message into parts loses nothing. -/
structure Splits (sms : Sms) (parts : List Pdu) : Prop where
  number : parts.length = max 1 (sms.units ⌈/⌉ sms.capacity)
  single : parts.length = 1 ↔ sms.units ≤ sms.type.single
  size : ∀ pdu ∈ parts, pdu.size ≤ sms.type.unit * sms.capacity
  whole : parts.flatMap Pdu.data = sms.original
  numbered : parts.map Pdu.nr = List.range' 1 parts.length
  announced : ∀ pdu ∈ parts, pdu.count = parts.length

theorem limitOf_eq (single concatenated : Nat) (len : UInt16) :
    limitOf single concatenated len = if len.toNat ≤ single then single else concatenated := by
  rw [limitOf]
  split_ifs <;> omega

theorem capacity_cases (sms : Sms) : sms.units ≤ sms.type.single ∧ sms.capacity = sms.type.single ∨
    sms.type.single < sms.units ∧ sms.capacity = sms.type.concatenated := by
  rw [Sms.capacity]
  split_ifs with one
  · exact Or.inl ⟨one,rfl⟩
  · exact Or.inr ⟨Nat.lt_of_not_le one,rfl⟩

theorem prepare_copied (lib : Lib) (copied : sms.type.Copied) (short : sms.units ≤ 16384) :
    ∃ sms' type, prepare lib sms = some (sms',type,sms.capacity) ∧ sms'.type = sms.type ∧ sms'.data = sms.data ∧
      sms'.len.toNat = sms.units := by
  obtain ⟨data,telNum,len,type,id,sr⟩ := sms
  rcases copied with (rfl : type = .text7) | (rfl : type = .data8) | (rfl : type = .ucs2)
  · have length : (UInt16.ofNat (cString data).length).toNat = (cString data).length :=
      UInt16.toNat_ofNat_of_lt' (Nat.lt_of_le_of_lt short (by decide))
    refine ⟨⟨data,telNum,.ofNat (cString data).length,.text7,id,sr⟩,.text7,?_,rfl,rfl,length⟩
    show some (_,_,limitOf 160 153 (.ofNat (cString data).length)) = _
    rw [limitOf_eq,length]
    rfl
  · refine ⟨⟨data,telNum,len,.data8,id,sr⟩,.text8,?_,rfl,rfl,rfl⟩
    show some (_,_,limitOf 140 134 len) = _
    rw [limitOf_eq]
    rfl
  · refine ⟨⟨data,telNum,len,.ucs2,id,sr⟩,.ucs2,?_,rfl,rfl,rfl⟩
    show some (_,_,limitOf 70 67 len) = _
    rw [limitOf_eq]
    rfl

theorem single_bounds (type : SmsType) :
    67 ≤ type.concatenated ∧ type.concatenated < type.single ∧ type.single ≤ 160 ∧ type.unit * type.single < 256 := by
  cases type <;> decide

theorem single_iff (sms : Sms) : max 1 (sms.units ⌈/⌉ sms.capacity) = 1 ↔ sms.units ≤ sms.type.single := by
  obtain ⟨least,less,_,_⟩ := single_bounds sms.type
  have one : sms.units ⌈/⌉ sms.capacity ≤ 1 ↔ sms.units ≤ sms.capacity * 1 := by
    refine ceilDiv_le_iff_le_mul ?_
    rcases capacity_cases sms with ⟨_,capacity⟩ | ⟨_,capacity⟩ <;> omega
  rcases capacity_cases sms with ⟨fits,capacity⟩ | ⟨long,capacity⟩ <;> rw [capacity] at one ⊢ <;> omega

theorem capacity_bounds (sms : Sms) : 67 ≤ sms.capacity ∧ sms.capacity ≤ 160 ∧ sms.type.unit * sms.capacity < 256 := by
  obtain ⟨least,less,most,small⟩ := single_bounds sms.type
  have fits := Nat.mul_le_mul_left sms.type.unit (Nat.le_of_lt less)
  rcases capacity_cases sms with ⟨_,capacity⟩ | ⟨_,capacity⟩ <;> rw [capacity] <;> omega

/-- A message that is copied is sent in parts that lose nothing of it. -/
theorem modemSmsSendNow_splits (lib : Lib) (env : Env) (errors : UInt32) {sms : Sms} {fuel : Nat} (copied : sms.type.Copied)
    (short : sms.units ≤ 16384) (held : sms.type.unit * sms.units ≤ sms.data.length) (memory : env.HasMemory)
    (accepted : ∀ pdu, (env.sendPdu pdu).isSome) (enough : 256 ≤ fuel) :
    ∃ out, modemSmsSendNow lib env errors fuel sms = .ok (some out) ∧ out.result = true ∧ Splits sms out.parts := by
  obtain ⟨sms',type,prepared,sameType,sameData,length⟩ := prepare_copied lib copied short
  obtain ⟨least,most,small⟩ := capacity_bounds sms
  obtain ⟨content,out,done,result,made⟩ := @modemSmsSendNow_sent lib sms' type sms.capacity env errors sms prepared memory accepted
    least most (by omega) fuel enough
  rw [length,sameData] at made
  have number : out.parts.length = max 1 (sms.units ⌈/⌉ sms.capacity) := by rw [made,length_partsFrom]
  have pieced : out.parts.map Pdu.data =
      pieces (sms.type.unit * sms.capacity) (max 1 (sms.units ⌈/⌉ sms.capacity)) sms.original := by
    rw [made,partsFrom_copied (sameType ▸ copied) (by rwa [sameType]) (by omega) (by rwa [sameType]),sameType]
    rfl
  refine ⟨out,done,result,number,number ▸ single_iff sms,?_,?_,?_,?_⟩
  · intro pdu member
    have piece : pdu.data ∈ pieces (sms.type.unit * sms.capacity) (max 1 (sms.units ⌈/⌉ sms.capacity)) sms.original :=
      pieced ▸ List.mem_map_of_mem member
    have bound := length_le_of_mem piece
    rwa [Pdu.data,Bytes.length_read] at bound
  · rw [List.flatMap_def,pieced]
    refine flatten_of_le ?_
    calc sms.original.length ≤ sms.type.unit * sms.units := List.length_take_le _ _
      _ ≤ sms.type.unit * (max 1 (sms.units ⌈/⌉ sms.capacity) * sms.capacity) :=
        Nat.mul_le_mul_left _ (le_ceilDiv_mul (by omega) _)
      _ = max 1 (sms.units ⌈/⌉ sms.capacity) * (sms.type.unit * sms.capacity) := Nat.mul_left_comm _ _ _
  · have few := parts_few short least
    rw [number,made,partsFrom_nr (by omega)]
  · intro pdu member
    rw [number]
    exact partsFrom_count pdu (made ▸ member)

/-- The fields as `ms_incomming` takes them on the other side. -/
def msWidths : Widths := ⟨8,8,16,by decide,by decide,by decide⟩

/-- Texts of ASCII as the SDK converts them. -/
def asciiLib : Lib where
  textIsAscii memory := (cString memory).all fun c => c.toNat < 0x80
  textUtf8ToUcs2 memory limit :=
    let text := (cString memory).take limit
    ⟨text.length,.ofNat text.length,text.flatMap fun c => [0,c]⟩
  widths := msWidths

def readyEnv : Env := ⟨true,some fun _ => 0,fun _ => some 1⟩

/-- One character more than one SMS holds. -/
def longUcs2 : Sms := ⟨List.replicate 142 0x20,[],71,.ucs2,0,false⟩

theorem modemSmsSendNow_splits_long : ∃ out, modemSmsSendNow asciiLib readyEnv 0 256 longUcs2 = .ok (some out) ∧ out.result = true ∧
    Splits longUcs2 out.parts :=
  modemSmsSendNow_splits asciiLib readyEnv 0 (Or.inr (Or.inr rfl)) (by decide) (by decide +kernel) ⟨rfl,rfl⟩ (fun _ => rfl) (Nat.le_refl _)

end Copied

end JcaFirmware.SmsSplit
