import JcaFirmware.CmsSiaGrammar
import JcaFirmware.Foundation.Crc

/-! What an answer of the receiver has to state (`cms_sia_ip_rx_ack`), and the CRC of a
frame against its definition bit by bit. -/
namespace JcaFirmware.CmsSia
open Foundation Foundation.Numeral Cms

section Crc

def crcBit (crc : UInt16) : UInt16 := if crc &&& 1 ≠ 0 then (crc >>> 1) ^^^ 0xA001 else crc >>> 1

/-- The CRC bit by bit: eight divisions for each byte. -/
def crc16 (data : List UInt8) : UInt16 := data.foldl (fun crc c => crcBit^[8] (crc ^^^ c.toUInt16)) 0

/-- `_test_crc` of the tests. -/
def testCrc (data : List UInt8) : UInt16 := crc16 (data.takeWhile fun c => c ≠ 0 ∧ c ≠ 0x0D)

theorem crcBit_bits (crc : UInt16) : (crcBit crc).toBitVec = Crc.bitStep 0xA001 crc.toBitVec := by
  have odd : crc &&& 1 ≠ 0 ↔ crc.toBitVec.getLsbD 0 = true := by
    rw [← UInt16.toBitVec_inj.ne,UInt16.toBitVec_and]
    change crc.toBitVec &&& 1#16 ≠ 0#16 ↔ _
    rw [BitVec.and_one_eq_setWidth_ofBool_getLsbD]
    cases crc.toBitVec.getLsbD 0 <;> decide
  unfold crcBit Crc.bitStep
  simp only [odd]
  split_ifs <;> rfl

theorem crcTable_eq : crcTable.toList.map UInt16.toBitVec = (List.range 256).map fun i => Crc.bits 0xA001 8 (BitVec.ofNat 16 i) := by
  decide +kernel

theorem crcTable_bits {i : Nat} (inside : i < 256) : (crcTable.getD i 0).toBitVec = Crc.bits 0xA001 8 (BitVec.ofNat 16 i) := by
  have entry := congrArg (fun table => table[i]?) crcTable_eq
  rw [List.getElem?_map,List.getElem?_map,List.getElem?_range inside,Array.getElem?_toList] at entry
  obtain ⟨c,found,same⟩ := Option.map_eq_some_iff.mp entry
  rw [Array.getD_eq_getD_getElem?,found,Option.getD_some,same]

/-- A lookup in the table is eight divisions. -/
theorem crcTable_step (crc : UInt16) (c : UInt8) :
    (crc >>> 8) ^^^ crcTable.getD (c ^^^ crc.toUInt8).toNat 0 = crcBit^[8] (crc ^^^ c.toUInt16) := by
  have table := crcTable_bits (UInt8.toNat_lt (c ^^^ crc.toUInt8))
  have index : BitVec.ofNat 16 (c ^^^ crc.toUInt8).toNat = (c.toBitVec ^^^ crc.toBitVec.setWidth 8).setWidth 16 :=
    BitVec.ofNat_toNat 16 (c ^^^ crc.toUInt8).toBitVec
  have bitwise (n : Nat) (crc : UInt16) : (crcBit^[n] crc).toBitVec = Crc.bits 0xA001 n crc.toBitVec := by
    induction n generalizing crc with
    | zero => rfl
    | succ n ih => rw [Function.iterate_succ_apply,ih,crcBit_bits,Crc.bits]
  apply UInt16.toBitVec_inj.mp
  rw [bitwise,UInt16.toBitVec_xor,table,index]
  exact (Crc.byteStep_table 0xA001 (by decide) crc.toBitVec c).symm

/-- The table gives the CRC of every text, at whatever ends it. -/
theorem crcCalc_bitwise {data : List UInt8} (plain : Plain data) (fits : data.length ≤ cmsSiaIpMaxMsgLen) {ending : UInt8}
    (ends : ending = 0 ∨ ending = 0x0D) (rest : List UInt8) :
    crcCalc (data ++ ending :: rest) = crc16 data ∧ testCrc (data ++ ending :: rest) = crc16 data := by
  have stops : ¬ (ending ≠ 0 ∧ ending ≠ 0x0D) := by
    rintro ⟨nul,cr⟩
    exact ends.elim nul cr
  have own (more : List UInt8) (first : ∀ c ∈ more.head?, c = ending) :
      (data ++ more).takeWhile (fun c => decide (c ≠ 0 ∧ c ≠ 0x0D)) = data := by
    rw [List.takeWhile_append_of_pos fun c member => decide_eq_true (plain c member)]
    cases more with
    | nil => simp
    | cons c more =>
      obtain rfl := first c rfl
      rw [List.takeWhile_cons_of_neg (by simpa using stops),List.append_nil]
  have step : (fun (crc : UInt16) (c : UInt8) => (crc >>> 8) ^^^ crcTable.getD (c ^^^ crc.toUInt8).toNat 0) =
      fun crc c => crcBit^[8] (crc ^^^ c.toUInt16) := funext fun crc => funext fun c => crcTable_step crc c
  have taken : (data ++ ending :: rest).take cmsSiaIpMaxMsgLen =
      data ++ (ending :: rest).take (cmsSiaIpMaxMsgLen - data.length) := by
    rw [List.take_append,List.take_of_length_le fits]
  constructor
  · rw [crcCalc,taken,own,step,crc16]
    intro c first
    cases room : cmsSiaIpMaxMsgLen - data.length with
    | zero => simp [room] at first
    | succ left =>
      rw [room] at first
      exact (Option.some.inj first).symm
  · rw [testCrc,own]
    exact fun c first => (Option.some.inj first).symm

theorem crcCalc_bitwise_full : crcCalc (List.replicate 240 0xFF ++ [0]) = crc16 (List.replicate 240 0xFF) :=
  (crcCalc_bitwise (fun _ member => List.eq_of_mem_replicate member ▸ by decide) (Nat.le_of_eq List.length_replicate) (Or.inl rfl) []).1

end Crc

section Answers

/-- The numbers of an answer in full, of any count of digits. -/
def lineNumbers (text : List UInt8) : Option (Int × Int × List UInt8) := do
  let (a,text) ← number 10 text
  let text ← expect 0x4C text
  let (b,text) ← number 16 text
  some (a,b,text)

def accountNumber (text : List UInt8) : Option Int := do
  let text ← expect 0x23 text
  let (c,_) ← number 16 text
  some c

def answer (data : List UInt8) : List UInt8 := cString (data.drop siaIdxData)

/-- The frame is an acknowledgement with these numbers. -/
def AckOf (data : List UInt8) (seq linePrefix account : Int) : Prop :=
  ascii "\"ACK\"" <+: answer data ∧
    ∃ rest, lineNumbers ((answer data).drop 5) = some (seq,linePrefix,rest) ∧ accountNumber rest = some account

def NakOf (data : List UInt8) (seq linePrefix : Int) : Prop :=
  ascii "\"NAK\"" <+: answer data ∧ ∃ rest, lineNumbers ((answer data).drop 5) = some (seq,linePrefix,rest)

/-- Only an answer to the frame outstanding counts. -/
structure Exact (s : Sia) (data : List UInt8) : Prop where
  ack : siaProtoPacketReply s data = .ack → AckOf data s.cnt s.linePrefix s.account
  nak : siaProtoPacketReply s data = .nak → NakOf data s.cnt s.linePrefix
  other : ¬ AckOf data s.cnt s.linePrefix s.account → ¬ NakOf data s.cnt s.linePrefix → siaProtoPacketReply s data = .none

/-- The numbers are others than those outstanding, but come to them when they are stored: in 32 bits each, and
of the sequence number in 16. -/
def Mistaken (s : Sia) (data : List UInt8) : Prop :=
  (∃ a b c : Int, AckOf data a b c ∧ stored a % 2 ^ 16 = s.cnt ∧ stored b = s.linePrefix ∧ stored c = s.account ∧
    ¬ (a = s.cnt ∧ b = s.linePrefix ∧ c = s.account)) ∨
  ∃ a b : Int, NakOf data a b ∧ stored a % 2 ^ 16 = s.cnt ∧ stored b = s.linePrefix ∧ ¬ (a = s.cnt ∧ b = s.linePrefix)

theorem scanLine_numbers (text : List UInt8) :
    scanLine text = (lineNumbers text).map fun found => (stored found.1,stored found.2.1,found.2.2) := by
  unfold scanLine lineNumbers
  rw [scan_number (Nat.le_refl _)]
  cases number 10 text with
  | none => rfl
  | some first =>
    simp only [Option.map_some,Option.bind_eq_bind,Option.bind_some]
    cases expect 0x4C first.2 with
    | none => rfl
    | some text =>
      rw [Option.bind_some,Option.bind_some,scan_number (Nat.le_refl _)]
      cases number 16 text <;> rfl

theorem scanAccount_number (text : List UInt8) : scanAccount text = (accountNumber text).map stored := by
  unfold scanAccount accountNumber
  simp only [Option.bind_eq_bind]
  cases expect 0x23 text with
  | none => rfl
  | some text =>
    rw [Option.bind_some,Option.bind_some,scan_number (Nat.le_refl _)]
    cases number 16 text <;> rfl

variable {s : Sia} {data : List UInt8}

theorem ack_not_nak (ack : ascii "\"ACK\"" <+: answer data) : ¬ ascii "\"NAK\"" <+: answer data := by
  intro nak
  have same := List.prefix_or_prefix_of_prefix ack nak
  revert same
  decide +kernel

theorem AckOf.unique {a b c a' b' c' : Int} (own : AckOf data a b c) (own' : AckOf data a' b' c') : a = a' ∧ b = b' ∧ c = c' := by
  obtain ⟨_,rest,line,account⟩ := own
  obtain ⟨_,rest',line',account'⟩ := own'
  obtain ⟨rfl,rfl,rfl⟩ : a = a' ∧ b = b' ∧ rest = rest' := by simpa using line.symm.trans line'
  exact ⟨rfl,rfl,Option.some.inj (account.symm.trans account')⟩

theorem NakOf.unique {a b a' b' : Int} (own : NakOf data a b) (own' : NakOf data a' b') : a = a' ∧ b = b' := by
  obtain ⟨_,rest,line⟩ := own
  obtain ⟨_,rest',line'⟩ := own'
  obtain ⟨rfl,rfl,_⟩ : a = a' ∧ b = b' ∧ rest = rest' := by simpa using line.symm.trans line'
  exact ⟨rfl,rfl⟩

/-- `cms_sia_ip_rx_ack` by the numbers in full. -/
theorem rxAck_numbers (accepted : cmsSiaIpRx data = true) : cmsSiaIpRxAck s data =
    if ascii "\"ACK\"" <+: answer data then
      (lineNumbers ((answer data).drop 5)).bind fun found => (accountNumber found.2.2).bind fun c =>
        if stored found.2.1 = s.linePrefix ∧ stored c = s.account then some (stored found.1 % 2 ^ 16,false) else none
    else if ascii "\"NAK\"" <+: answer data then
      (lineNumbers ((answer data).drop 5)).bind fun found =>
        if stored found.2.1 = s.linePrefix then some (stored found.1 % 2 ^ 16,true) else none
    else none := by
  have text : cString (data.drop siaIdxData) = answer data := rfl
  unfold cmsSiaIpRxAck
  rw [if_neg (by simp [accepted]),text]
  simp only [List.isPrefixOf_iff_prefix,scanLine_numbers,scanAccount_number,Option.bind_eq_bind,Option.bind_map]
  rfl

theorem rxAck_ack (accepted : cmsSiaIpRx data = true) {seq : Nat} : cmsSiaIpRxAck s data = some (seq,false) ↔
    ∃ a b c : Int, AckOf data a b c ∧ stored a % 2 ^ 16 = seq ∧ stored b = s.linePrefix ∧ stored c = s.account := by
  rw [rxAck_numbers accepted]
  constructor
  · intro taken
    split_ifs at taken with ack nak
    · obtain ⟨⟨a,b,rest⟩,line,taken⟩ := Option.bind_eq_some_iff.mp taken
      obtain ⟨c,account,taken⟩ := Option.bind_eq_some_iff.mp taken
      obtain ⟨⟨own,mine⟩,same⟩ := Option.ite_none_right_eq_some.mp taken
      exact ⟨a,b,c,⟨ack,rest,line,account⟩,congrArg Prod.fst (Option.some.inj same),own,mine⟩
    · obtain ⟨found,_,taken⟩ := Option.bind_eq_some_iff.mp taken
      cases (Option.ite_none_right_eq_some.mp taken).2
  · rintro ⟨a,b,c,⟨ack,rest,line,account⟩,rfl,own,mine⟩
    rw [if_pos ack,line,Option.bind_some,account,Option.bind_some,if_pos ⟨own,mine⟩]

theorem rxAck_nak (accepted : cmsSiaIpRx data = true) {seq : Nat} : cmsSiaIpRxAck s data = some (seq,true) ↔
    ∃ a b : Int, NakOf data a b ∧ stored a % 2 ^ 16 = seq ∧ stored b = s.linePrefix := by
  rw [rxAck_numbers accepted]
  constructor
  · intro taken
    split_ifs at taken with ack nak
    · obtain ⟨found,_,taken⟩ := Option.bind_eq_some_iff.mp taken
      obtain ⟨c,_,taken⟩ := Option.bind_eq_some_iff.mp taken
      cases (Option.ite_none_right_eq_some.mp taken).2
    · obtain ⟨⟨a,b,rest⟩,line,taken⟩ := Option.bind_eq_some_iff.mp taken
      obtain ⟨own,same⟩ := Option.ite_none_right_eq_some.mp taken
      exact ⟨a,b,⟨nak,rest,line⟩,congrArg Prod.fst (Option.some.inj same),own⟩
  · rintro ⟨a,b,⟨nak,rest,line⟩,rfl,own⟩
    rw [if_neg fun ack => ack_not_nak ack nak,if_pos nak,line,Option.bind_some,if_pos own]

theorem reply_iff (nak : Bool) :
    siaProtoPacketReply s data = (if nak then .nak else .ack) ↔ cmsSiaIpRxAck s data = some (s.cnt,nak) := by
  unfold siaProtoPacketReply
  split
  · next none => cases nak <;> simp [none]
  · next seq other found =>
    rw [found]
    by_cases mine : seq = s.cnt <;> cases nak <;> cases other <;> simp [mine]

/-- The matching is exact where no other numbers are taken for those outstanding. -/
theorem reply_exact_iff (accepted : cmsSiaIpRx data = true) : Exact s data ↔ ¬ Mistaken s data := by
  constructor
  · rintro ⟨ack,nak,_⟩ (⟨a,b,c,own,seq,line,account,differ⟩ | ⟨a,b,own,seq,line,differ⟩)
    · have outstanding := ack ((reply_iff false).mpr ((rxAck_ack accepted).mpr ⟨a,b,c,own,seq,line,account⟩))
      exact differ (own.unique outstanding)
    · have outstanding := nak ((reply_iff true).mpr ((rxAck_nak accepted).mpr ⟨a,b,own,seq,line⟩))
      exact differ (own.unique outstanding)
  · intro plain
    have ack : siaProtoPacketReply s data = .ack → AckOf data s.cnt s.linePrefix s.account := by
      intro replied
      obtain ⟨a,b,c,own,seq,line,account⟩ := (rxAck_ack accepted).mp ((reply_iff false).mp replied)
      by_contra other
      exact plain (Or.inl ⟨a,b,c,own,seq,line,account,fun ⟨sameA,sameB,sameC⟩ => other (sameA ▸ sameB ▸ sameC ▸ own)⟩)
    have nak : siaProtoPacketReply s data = .nak → NakOf data s.cnt s.linePrefix := by
      intro replied
      obtain ⟨a,b,own,seq,line⟩ := (rxAck_nak accepted).mp ((reply_iff true).mp replied)
      by_contra other
      exact plain (Or.inr ⟨a,b,own,seq,line,fun ⟨sameA,sameB⟩ => other (sameA ▸ sameB ▸ own)⟩)
    refine ⟨ack,nak,fun notAck notNak => ?_⟩
    cases replied : siaProtoPacketReply s data with
    | none => rfl
    | ack => exact absurd (ack replied) notAck
    | nak => exact absurd (nak replied) notNak

def firstSent : Sia := ⟨0x1234,1,0,true,true,true,[],true,true⟩

/-- An answer to a frame that was never sent; its number has the low 16 bits of the first one. -/
def wideAck : List UInt8 := frame (ascii "\"ACK\"65537L0#1234[]")

/-- The answer of the receiver to the first frame. -/
def ownAck : List UInt8 := frame (ascii "\"ACK\"1L0#1234[]")

theorem ownAck_of : AckOf ownAck 1 0 0x1234 := by
  have numbers : lineNumbers ((answer ownAck).drop 5) = some (1,0,ascii "#1234[]\r") := by decide +kernel
  exact ⟨by decide +kernel,ascii "#1234[]\r",numbers,by decide +kernel⟩

-- It states the numbers outstanding themselves, so that none are taken for them.
theorem ownAck_plain : ¬ Mistaken firstSent ownAck := by
  rintro (⟨a,b,c,own,_,_,_,differ⟩ | ⟨a,b,own,_⟩)
  · exact differ (own.unique ownAck_of)
  · exact ack_not_nak ownAck_of.1 own.1

theorem reply_exact_iff_wide : (Exact firstSent wideAck ↔ ¬ Mistaken firstSent wideAck) ∧
    siaProtoPacketReply firstSent ownAck = .ack ∧ Exact firstSent ownAck :=
  ⟨reply_exact_iff (by decide +kernel),by decide +kernel,(reply_exact_iff (by decide +kernel)).mpr ownAck_plain⟩

theorem wideAck_taken : cmsSiaIpRx wideAck = true ∧ siaProtoPacketReply firstSent wideAck = .ack ∧ ¬ Exact firstSent wideAck := by
  have replied : siaProtoPacketReply firstSent wideAck = .ack := by decide +kernel
  refine ⟨by decide +kernel,replied,fun exact => ?_⟩
  obtain ⟨_,rest,line,_⟩ := exact.ack replied
  have read : (lineNumbers ((answer wideAck).drop 5)).map (·.1) = some 65537 := by decide +kernel
  rw [line,Option.map_some] at read
  have same : (1 : Int) = 65537 := Option.some.inj read
  exact absurd same (by decide)

end Answers

end JcaFirmware.CmsSia
