import JcaFirmware.SmsSplit
import Mathlib.Data.List.Forall2

/-! UTF-8 texts in `modem_sms_send_now`: each part is converted to UCS2, and its size is
taken from the bytes of its source and not from its characters. -/
namespace JcaFirmware.SmsUtf8
open SmsSplit Foundation Chunks CText

def utf8 (text : List Char) : List UInt8 := text.flatMap String.utf8EncodeChar

def ucs2Char (c : Char) : List UInt8 := [.ofNat (c.toNat / 256),.ofNat c.toNat]

def ucs2 (text : List Char) : List UInt8 := text.flatMap ucs2Char

theorem length_ucs2 (text : List Char) : (ucs2 text).length = 2 * text.length := by
  induction text with
  | nil => rfl
  | cons c text ih =>
    rw [ucs2,List.flatMap_cons,List.length_append,← ucs2,ih,List.length_cons]
    show 2 + 2 * text.length = 2 * (text.length + 1)
    omega

theorem length_utf8_cons (c : Char) (text : List Char) : (utf8 (c :: text)).length = c.utf8Size + (utf8 text).length := by
  rw [utf8,List.flatMap_cons,List.length_append,String.length_utf8EncodeChar,← utf8]

theorem length_le_utf8 (text : List Char) : text.length ≤ (utf8 text).length := by
  induction text with
  | nil => exact Nat.le_refl 0
  | cons c text ih =>
    have positive := c.utf8Size_pos
    rw [length_utf8_cons,List.length_cons]
    omega

/-- The bytes of a text are as many as its characters for ASCII only. -/
theorem length_utf8_iff {text : List Char} : (utf8 text).length = text.length ↔ ∀ c ∈ text, c.utf8Size = 1 := by
  induction text with
  | nil => exact ⟨fun _ c member => absurd member List.not_mem_nil,fun _ => rfl⟩
  | cons c text ih =>
    have positive := c.utf8Size_pos
    have least := length_le_utf8 text
    rw [length_utf8_cons,List.length_cons,List.forall_mem_cons,← ih]
    omega

/-- A text of characters of one, two and three bytes; the NUL would end it. -/
structure BmpText where
  chars : List Char
  nul_free : ∀ c ∈ chars, c ≠ '\x00'
  utf8_size : ∀ c ∈ chars, c.utf8Size ≤ 3

def BmpText.drop (text : BmpText) (n : Nat) : BmpText where
  chars := text.chars.drop n
  nul_free c member := text.nul_free c (List.mem_of_mem_drop member)
  utf8_size c member := text.utf8_size c (List.mem_of_mem_drop member)

theorem length_utf8_le {text : List Char} (size : ∀ c ∈ text, c.utf8Size ≤ 3) : (utf8 text).length ≤ 3 * text.length := by
  induction text with
  | nil => exact Nat.le_refl 0
  | cons c text ih =>
    obtain ⟨first,rest⟩ := List.forall_mem_cons.mp size
    have bound := ih rest
    rw [length_utf8_cons,List.length_cons]
    omega

theorem nul_notMem_utf8EncodeChar {c : Char} (notNul : c ≠ '\x00') : (0 : UInt8) ∉ String.utf8EncodeChar c := by
  have positive : c.val.toNat ≠ 0 := fun nul => notNul (Char.ext (UInt32.toNat_inj.mp nul))
  have byte {n : Nat} (nonzero : n % 256 ≠ 0) : (0 : UInt8) ≠ UInt8.ofNat n := by
    intro same
    have value := congrArg UInt8.toNat same
    rw [UInt8.toNat_ofNat'] at value
    exact nonzero value.symm
  rw [String.utf8EncodeChar]
  split_ifs <;> simp only [List.mem_cons,List.not_mem_nil,or_false,not_or]
  · exact byte (by omega)
  · exact ⟨byte (by omega),byte (by omega)⟩
  · exact ⟨byte (by omega),byte (by omega),byte (by omega)⟩
  · exact ⟨byte (by omega),byte (by omega),byte (by omega),byte (by omega)⟩

theorem BmpText.cString_utf8 (text : BmpText) (rest : List UInt8) : cString (utf8 text.chars ++ 0 :: rest) = utf8 text.chars := by
  have nulFree : 0 ∉ utf8 text.chars := by
    intro member
    obtain ⟨c,inside,nul⟩ := List.mem_flatMap.mp member
    exact nul_notMem_utf8EncodeChar (text.nul_free c inside) nul
  rw [cString_append nulFree,cString_nul,List.append_nil]

/-- What the sender relies on of `text_utf8_to_ucs2`. -/
structure Converts (lib : Lib) : Prop where
  chars : ∀ (text : BmpText) rest limit, (lib.textUtf8ToUcs2 (utf8 text.chars ++ 0 :: rest) limit).chars =
    (text.chars.take limit).length
  bytes : ∀ (text : BmpText) rest limit, (lib.textUtf8ToUcs2 (utf8 text.chars ++ 0 :: rest) limit).bytes =
    .ofNat (utf8 (text.chars.take limit)).length
  ucs2 : ∀ (text : BmpText) rest limit, ucs2 (text.chars.take limit) <+:
    (lib.textUtf8ToUcs2 (utf8 text.chars ++ 0 :: rest) limit).ucs2

def converted (chars : List Char) (limit : Nat) : Conversion :=
  ⟨(chars.take limit).length,.ofNat (utf8 (chars.take limit)).length,ucs2 (chars.take limit)⟩

/-- A library that converts as the sender expects. -/
def sdk : Lib where
  textIsAscii memory := (cString memory).all fun c => c.toNat < 0x80
  textUtf8ToUcs2 memory limit :=
    match (cString memory).toByteArray.utf8Decode? with
    | some chars => converted chars.toList limit
    | none => ⟨0,0,[]⟩
  widths := msWidths

theorem sdk_textUtf8ToUcs2 (text : BmpText) (rest : List UInt8) (limit : Nat) :
    sdk.textUtf8ToUcs2 (utf8 text.chars ++ 0 :: rest) limit = converted text.chars limit := by
  have decoded : (utf8 text.chars).toByteArray.utf8Decode? = some text.chars.toArray := List.utf8Decode?_utf8Encode
  rw [sdk]
  dsimp only
  rw [text.cString_utf8,decoded]

theorem converts_sdk : Converts sdk where
  chars text rest limit := by rw [sdk_textUtf8ToUcs2,converted]
  bytes text rest limit := by rw [sdk_textUtf8ToUcs2,converted]
  ucs2 text rest limit := by rw [sdk_textUtf8ToUcs2]; exact List.prefix_rfl

/-- The part has the UCS2 of the piece at its front, and a size of two for each byte of its UTF-8. -/
structure Carries (pdu : Pdu) (piece : List Char) : Prop where
  size : pdu.size = 2 * (utf8 piece).length
  content : pdu.content.read 0 (ucs2 piece).length = ucs2 piece

theorem read_front (m : Bytes) {front bytes : List UInt8} (starts : front <+: bytes) : (m.write 0 bytes).read 0 front.length = front := by
  rw [← Bytes.take_read _ starts.length_le,Bytes.read_write]
  exact (List.prefix_iff_eq_take.mp starts).symm

variable {lib : Lib} {sms : Sms} {type : PduType}

theorem fill_utf8 (converts : Converts lib) (wide : 9 ≤ lib.widths.size) (text : BmpText) (rest : List UInt8) {maxSmsLen : Nat}
    (small : maxSmsLen ≤ 70) (len : Int16) (content : Bytes) :
    ∃ content', fill lib .utf8 maxSmsLen ⟨utf8 text.chars ++ 0 :: rest,len,content⟩ =
        (2 * (utf8 (text.chars.take maxSmsLen)).length,
          ⟨utf8 (text.drop maxSmsLen).chars ++ 0 :: rest,.ofInt (len.toInt - (text.chars.take maxSmsLen).length),content'⟩) ∧
      content'.read 0 (ucs2 (text.chars.take maxSmsLen)).length = ucs2 (text.chars.take maxSmsLen) := by
  have field : 2 ^ 9 ≤ 2 ^ lib.widths.size := Nat.pow_le_pow_right (by decide) wide
  have few : (utf8 (text.chars.take maxSmsLen)).length ≤ 3 * maxSmsLen :=
    Nat.le_trans (length_utf8_le fun c member => text.utf8_size c (List.mem_of_mem_take member))
      (Nat.mul_le_mul_left 3 (List.length_take_le _ _))
  have stored : (UInt16.ofNat (utf8 (text.chars.take maxSmsLen)).length).toNat = (utf8 (text.chars.take maxSmsLen)).length :=
    UInt16.toNat_ofNat_of_lt' (Nat.lt_of_le_of_lt few (by rw [UInt16.size]; omega))
  have source : utf8 text.chars ++ 0 :: rest =
      utf8 (text.chars.take maxSmsLen) ++ (utf8 (text.drop maxSmsLen).chars ++ 0 :: rest) := by
    rw [← List.append_assoc]
    congr 1
    rw [utf8,utf8,utf8,← List.flatMap_append]
    exact congrArg _ (List.take_append_drop maxSmsLen text.chars).symm
  have left : (utf8 text.chars ++ 0 :: rest).drop (utf8 (text.chars.take maxSmsLen)).length =
      utf8 (text.drop maxSmsLen).chars ++ 0 :: rest := by
    rw [source,List.drop_left]
  refine ⟨_,?_,read_front content (converts.ucs2 text rest maxSmsLen)⟩
  rw [fill]
  dsimp only
  rw [converts.bytes,converts.chars,stored,Nat.mul_comm,Nat.mod_eq_of_lt (by omega),Cursor.after]
  dsimp only
  rw [left]

theorem partsFrom_utf8 (converts : Converts lib) (wide : 9 ≤ lib.widths.size) (coded : sms.type = .utf8) {maxSmsLen count k i : Nat}
    (small : maxSmsLen ≤ 70) (text : BmpText) (rest : List UInt8) (len : Int16) (content : Bytes) :
    List.Forall₂ Carries (partsFrom lib sms type maxSmsLen count k i ⟨utf8 text.chars ++ 0 :: rest,len,content⟩)
      (pieces maxSmsLen k text.chars) := by
  induction k generalizing i text len content with
  | zero => exact List.Forall₂.nil
  | succ k ih =>
    obtain ⟨content',filled,data⟩ := fill_utf8 converts wide text rest small len content
    rw [partsFrom,coded,filled,pieces]
    exact List.Forall₂.cons ⟨rfl,data⟩ (ih (text.drop maxSmsLen) _ content')

theorem Carries.length_data {parts : List Pdu} {ps : List (List Char)} (all : List.Forall₂ Carries parts ps) :
    (parts.flatMap Pdu.data).length = 2 * (utf8 ps.flatten).length := by
  induction all with
  | nil => rfl
  | @cons pdu piece parts ps carries _ ih =>
    have size : pdu.data.length = 2 * (utf8 piece).length := by rw [Pdu.data,Bytes.length_read,carries.size]
    have joined : utf8 (piece ++ ps.flatten) = utf8 piece ++ utf8 ps.flatten := List.flatMap_append
    rw [List.flatMap_cons,List.length_append,size,ih,List.flatten_cons,joined,List.length_append,Nat.mul_add]

theorem Carries.data_ascii {parts : List Pdu} {ps : List (List Char)} (all : List.Forall₂ Carries parts ps)
    (ascii : ∀ c ∈ ps.flatten, c.utf8Size = 1) : parts.flatMap Pdu.data = ucs2 ps.flatten := by
  induction all with
  | nil => rfl
  | @cons pdu piece parts ps carries _ ih =>
    rw [List.flatten_cons,List.forall_mem_append] at ascii
    have size : pdu.size = (ucs2 piece).length := by rw [carries.size,length_utf8_iff.mpr ascii.1,length_ucs2]
    have joined : ucs2 (piece ++ ps.flatten) = ucs2 piece ++ ucs2 ps.flatten := List.flatMap_append
    rw [List.flatMap_cons,Pdu.data,size,carries.content,ih ascii.2,List.flatten_cons,joined]

def IsUtf8 (lib : Lib) (sms : Sms) : Prop := sms.type = .utf8 ∨ sms.type = .auto ∧ lib.textIsAscii sms.data = false

theorem prepare_utf8 (coded : IsUtf8 lib sms) : prepare lib sms =
    some ({sms with type := .utf8, len := .ofNat (lib.textUtf8ToUcs2 sms.data 512).chars},.ucs2,
      limitOf 70 67 (.ofNat (lib.textUtf8ToUcs2 sms.data 512).chars)) := by
  obtain ⟨data,telNum,len,type,id,sr⟩ := sms
  rcases coded with (rfl : type = .utf8) | ⟨(rfl : type = .auto),(other : lib.textIsAscii data = false)⟩
  · rfl
  · rw [prepare,if_pos rfl,other]
    rfl

def ucs2Capacity (chars : Nat) : Nat := if chars ≤ 70 then 70 else 67

/-- What is sent of a text: the pieces of its characters, each with the size of its bytes. -/
theorem modemSmsSendNow_utf8 {env : Env} {errors : UInt32} {text : BmpText} {rest : List UInt8} {fuel : Nat}
    (converts : Converts lib) (wide : 9 ≤ lib.widths.size) (coded : IsUtf8 lib sms) (holds : sms.data = utf8 text.chars ++ 0 :: rest)
    (short : text.chars.length ≤ 512) (memory : env.HasMemory) (accepted : ∀ pdu, (env.sendPdu pdu).isSome) (enough : 256 ≤ fuel) :
    ∃ out, modemSmsSendNow lib env errors fuel sms = .ok (some out) ∧ out.result = true ∧
      List.Forall₂ Carries out.parts (pieces (ucs2Capacity text.chars.length)
        (max 1 (text.chars.length ⌈/⌉ ucs2Capacity text.chars.length)) text.chars) := by
  have counted : (lib.textUtf8ToUcs2 sms.data 512).chars = text.chars.length := by
    rw [holds,converts.chars,List.take_of_length_le short]
  have length : (UInt16.ofNat text.chars.length).toNat = text.chars.length :=
    UInt16.toNat_ofNat_of_lt' (Nat.lt_of_le_of_lt short (by decide))
  have capacity : limitOf 70 67 (.ofNat text.chars.length) = ucs2Capacity text.chars.length := by rw [limitOf_eq,length,ucs2Capacity]
  have bounds : 67 ≤ ucs2Capacity text.chars.length ∧ ucs2Capacity text.chars.length ≤ 70 := by
    rw [ucs2Capacity]
    split_ifs <;> omega
  have prepared := prepare_utf8 coded
  rw [counted,capacity] at prepared
  obtain ⟨content,out,done,result,made⟩ := @modemSmsSendNow_sent lib _ _ _ env errors sms prepared memory accepted bounds.1
    (by omega) (by dsimp only; omega) fuel enough
  refine ⟨out,done,result,?_⟩
  dsimp only at made
  rw [made,length,holds]
  exact partsFrom_utf8 converts wide rfl bounds.2 text rest _ content

theorem flatten_text (chars : List Char) :
    (pieces (ucs2Capacity chars.length) (max 1 (chars.length ⌈/⌉ ucs2Capacity chars.length)) chars).flatten = chars := by
  refine flatten_of_le (le_ceilDiv_mul ?_ _)
  rw [ucs2Capacity]
  split_ifs <;> decide

/-- Such a text is sent whole when it is ASCII, and never else: the code takes twice the
number of source bytes for the size. -/
theorem whole_iff_ascii {parts : List Pdu} {ps : List (List Char)} (all : List.Forall₂ Carries parts ps) :
    parts.flatMap Pdu.data = ucs2 ps.flatten ↔ ∀ c ∈ ps.flatten, c.utf8Size = 1 := by
  constructor
  · intro whole
    have lengths := congrArg List.length whole
    rw [Carries.length_data all,length_ucs2] at lengths
    exact length_utf8_iff.mp (Nat.eq_of_mul_eq_mul_left (by decide) lengths)
  · exact Carries.data_ascii all

theorem modemSmsSendNow_not_whole (lib : Lib) (env : Env) (errors : UInt32) {sms : Sms} {text : BmpText} {rest : List UInt8} {fuel : Nat}
    (converts : Converts lib) (wide : 9 ≤ lib.widths.size) (coded : IsUtf8 lib sms) (holds : sms.data = utf8 text.chars ++ 0 :: rest)
    (short : text.chars.length ≤ 512) (nonAscii : ∃ c ∈ text.chars, c.utf8Size ≠ 1) (memory : env.HasMemory)
    (accepted : ∀ pdu, (env.sendPdu pdu).isSome) (enough : 256 ≤ fuel) :
    ∃ out, modemSmsSendNow lib env errors fuel sms = .ok (some out) ∧ out.result = true ∧
      out.parts.flatMap Pdu.data ≠ ucs2 text.chars := by
  obtain ⟨out,done,result,all⟩ := @modemSmsSendNow_utf8 lib sms env errors text rest fuel converts wide coded holds short memory accepted
    enough
  obtain ⟨c,member,large⟩ := nonAscii
  refine ⟨out,done,result,fun whole => large ?_⟩
  have ascii := whole_iff_ascii all
  rw [flatten_text] at ascii
  exact ascii.mp whole c member

def textSms (text : BmpText) (type : SmsType) : Sms := ⟨utf8 text.chars ++ [0],[],0,type,0,false⟩

def eAcute : BmpText where
  chars := [.ofNat 0xE9]
  nul_free := List.forall_mem_singleton.mpr (by decide)
  utf8_size := List.forall_mem_singleton.mpr (by decide)

/-- One character of two bytes is sent as four bytes of UCS2. -/
theorem modemSmsSendNow_not_whole_eAcute : ∃ out, modemSmsSendNow sdk readyEnv 0 256 (textSms eAcute .utf8) = .ok (some out) ∧
    out.result = true ∧ out.parts.map Pdu.size = [4] ∧ out.parts.flatMap Pdu.data ≠ ucs2 eAcute.chars := by
  obtain ⟨out,done,result,all⟩ := @modemSmsSendNow_utf8 sdk (textSms eAcute .utf8) readyEnv 0 eAcute [] 256 converts_sdk (by decide)
    (Or.inl rfl) rfl (by decide) ⟨rfl,rfl⟩ (fun _ => rfl) (Nat.le_refl _)
  have one : List.Forall₂ Carries out.parts [eAcute.chars] := all
  obtain ⟨pdu,parts,carries,none,split⟩ := List.forall₂_cons_right_iff.mp one
  rw [List.forall₂_nil_right_iff.mp none] at split
  refine ⟨out,done,result,?_,fun whole => ?_⟩
  · rw [split,List.map_singleton,carries.size]
    rfl
  · have ascii := (whole_iff_ascii one).mp whole
    exact absurd (ascii _ (List.mem_singleton.mpr rfl)) (by decide)

/-- A text of characters of one, two and three bytes. -/
def mixedText : BmpText where
  chars := [.ofNat 0x61,.ofNat 0xE9,.ofNat 0x20AC]
  nul_free := by
    rw [List.forall_mem_cons,List.forall_mem_cons,List.forall_mem_singleton]
    decide
  utf8_size := by
    rw [List.forall_mem_cons,List.forall_mem_cons,List.forall_mem_singleton]
    decide

theorem modemSmsSendNow_not_whole_mixed : ∃ out, modemSmsSendNow sdk readyEnv 0 256 (textSms mixedText .auto) = .ok (some out) ∧
    out.result = true ∧ out.parts.flatMap Pdu.data ≠ ucs2 mixedText.chars :=
  modemSmsSendNow_not_whole sdk readyEnv 0 converts_sdk (by decide) (Or.inr ⟨rfl,by decide⟩) rfl (by decide)
    ⟨.ofNat 0xE9,by decide,by decide⟩ ⟨rfl,rfl⟩ (fun _ => rfl) (Nat.le_refl _)

end JcaFirmware.SmsUtf8
