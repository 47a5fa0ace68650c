import JcaFirmware.Foundation.CText
import JcaFirmware.Foundation.IntelHex

/-! The iHEX code of the tools and of the bootloader (`ut/common/ihex.c`, `bootloader/ihex.c`,
`_rx_feed` of the tools): the parser of a line, the feeding of characters, and the
printing of data. The two copies of the parser differ in what becomes of the data, and in
the answer to a start address. -/
namespace JcaFirmware.Ihex
open Foundation Numeral CText IntelHex

section Parser

/-- `gethex`: the byte, what is left of the text, and the sum. -/
def gethex (s : List UInt8) (sum : UInt8) : UInt8 × List UInt8 × UInt8 :=
  match digitOf 16 (charAt s 0) with
  | none => (0,s,sum)
  | some high =>
    match digitOf 16 (charAt s 1) with
    | none => (0,s.drop 1,sum)
    | some low => (UInt8.ofNat (16 * high + low),s.drop 2,sum + UInt8.ofNat (16 * high + low))

def gethexs : Nat → List UInt8 → UInt8 → List UInt8 × List UInt8 × UInt8
  | 0, s, sum => ([],s,sum)
  | count + 1, s, sum =>
    let (d,s,sum) := gethex s sum
    let (ds,s,sum) := gethexs count s sum
    (d :: ds,s,sum)

/-- What stays of `ihex_parse` from line to line: `addr_hiword`, and the state of its callback. -/
structure Parse (σ : Type) where
  addrHiword : Nat
  state : σ

variable {σ : Type} (dataParser : Nat → List UInt8 → σ → Except String (Bool × σ)) (startLinear : Bool)

/-- The first half of `ihex_parse`, on the text behind the colon: the type, the address
and the bytes of a line that is long enough and has the right sum. -/
def scanLine (src : List UInt8) : Option (UInt8 × Nat × List UInt8) :=
  if src.length % 256 < 8 then none
  else
    match gethex src 0 with
    | (llen,text,sum) =>
      match gethex text sum with
      | (high,text,sum) =>
        match gethex text sum with
        | (low,text,sum) =>
          match gethex text sum with
          | (type,text,sum) =>
            if src.length % 256 - 8 < 2 * llen.toNat then none
            else
              match gethexs llen.toNat text sum with
              | (data,text,sum) =>
                if (gethex text sum).2.2 ≠ 0 then none else some (type,256 * high.toNat + low.toNat,data)

-- The bytes are put where the line was, always behind what is still to be read of a line
-- of digits, and an address is taken from there.
def ihexParse (line : List UInt8) (p : Parse σ) : Except String (Bool × Parse σ) :=
  if charAt line 0 ≠ 0x3A then .ok (false,p)
  else
    match scanLine (line.drop 1) with
    | none => .ok (false,p)
    | some (type,addr,data) =>
      let buf := data ++ line.drop data.length
      let word := 256 * (charAt buf 0).toNat + (charAt buf 1).toNat
      if type = 0 then do
        let (ok,state) ← dataParser ((p.addrHiword + addr) % 2 ^ 32) data p.state
        .ok (ok,{p with state})
      else if type = 1 then .ok (true,{p with addrHiword := 0})
      else if type = 2 then .ok (true,{p with addrHiword := 16 * word})
      else if type = 4 then .ok (true,{p with addrHiword := 65536 * word})
      else if type = 5 then .ok (startLinear,p)
      else .ok (false,p)

def ihexLines (lines : List (List UInt8)) (p : Parse σ) : Except String (Parse σ) :=
  lines.foldlM (fun p line => do let (_,p) ← ihexParse dataParser startLinear line p; .ok p) p

def ihexBufSize : Nat := 256

/-- `_rx_feed`, with the line in `ihex_buf`. -/
def rxFeed (rx : List UInt8 × Parse σ) (ch : UInt8) : Except String (List UInt8 × Parse σ) :=
  if ch = 0x3A then .ok ([ch],rx.2)
  else if ihexBufSize ≤ rx.1.length ∨ rx.1.length = 0 then .ok rx
  else if ch = 0x0D ∨ ch = 0x0A ∨ ch = 0 then do
    let (_,p) ← ihexParse dataParser startLinear rx.1 rx.2
    .ok ([],p)
  else .ok (rx.1 ++ [ch],rx.2)

def rxFeedAll (text : List UInt8) (rx : List UInt8 × Parse σ) : Except String (List UInt8 × Parse σ) :=
  text.foldlM (rxFeed dataParser startLinear) rx

end Parser

section Printer

def hexLineSize : Nat := 16

def lineEnd : List UInt8 := [0x0D,0x0A]

def printChecksum (sum : UInt8) : List UInt8 := padded 16 2 ((0x100 - sum.toNat) % 256)

/-- `_update_addr`, with the `hi_word` after it and the lines it prints. -/
def updateAddr (hiWord addr : Nat) : Nat × List (List UInt8) :=
  if addr / 65536 = hiWord then (hiWord,[])
  else
    let hiWord := addr / 65536
    (hiWord,[ascii ":02000004" ++ padded 16 4 hiWord ++
      printChecksum (6 + UInt8.ofNat hiWord + UInt8.ofNat (hiWord / 256))])

def dataLine (addr : Nat) (data : List UInt8) : List UInt8 :=
  ascii ":" ++ padded 16 2 data.length ++ padded 16 4 (addr % 65536) ++ ascii "00" ++ data.flatMap hexByte ++
    printChecksum (data.foldl (· + ·) (UInt8.ofNat data.length + UInt8.ofNat addr + UInt8.ofNat (addr / 256)))

-- The rounds bound the `while` of `ihex_flush`; there is one for every byte of data.
def flushLoop : Nat → Nat → Nat → List UInt8 → Nat × List (List UInt8)
  | 0, hiWord, _, _ => (hiWord,[])
  | rounds + 1, hiWord, addr, data =>
    if data = [] then (hiWord,[])
    else
      let l := data.take hexLineSize
      let (hiWord,base) := updateAddr hiWord addr
      let (hiWord,lines) := flushLoop rounds hiWord ((addr + l.length) % 2 ^ 32) (data.drop hexLineSize)
      (hiWord,base ++ dataLine addr l :: lines)

def ihexFlush (hiWord addr : Nat) (data : List UInt8) : Nat × List (List UInt8) := flushLoop data.length hiWord addr data

def stream (lines : List (List UInt8)) : List UInt8 := lines.flatMap fun line => line ++ lineEnd

def endLine : List UInt8 := ascii ":00000001FF"

end Printer

section Reading

theorem gethex_unhex {text bytes : List UInt8} {d : UInt8} (read : unhex text = some (d :: bytes)) (sum : UInt8) :
    ∃ rest, gethex text sum = (d,rest,sum + d) ∧ unhex rest = some bytes := by
  match text, read with
  | a :: b :: text, read =>
    rw [unhex] at read
    obtain ⟨high,first,read⟩ := Option.bind_eq_some_iff.mp read
    obtain ⟨low,second,read⟩ := Option.bind_eq_some_iff.mp read
    obtain ⟨rest,tail,same⟩ := Option.map_eq_some_iff.mp read
    obtain ⟨rfl,rfl⟩ := List.cons.inj same
    refine ⟨text,?_,tail⟩
    have first' : digitOf 16 (charAt (a :: b :: text) 0) = some high := first
    have second' : digitOf 16 (charAt (a :: b :: text) 1) = some low := second
    rw [gethex,first']
    dsimp only
    rw [second']
    rfl

theorem gethexs_unhex {text data bytes : List UInt8} (read : unhex text = some (data ++ bytes)) (sum : UInt8) :
    ∃ rest, gethexs data.length text sum = (data,rest,data.foldl (· + ·) sum) ∧ unhex rest = some bytes := by
  induction data generalizing text sum with
  | nil => exact ⟨text,rfl,read⟩
  | cons d data ih =>
    obtain ⟨rest,first,tail⟩ := gethex_unhex read sum
    obtain ⟨last,others,left⟩ := ih tail (sum + d)
    refine ⟨last,?_,left⟩
    rw [List.length_cons,gethexs,first]
    dsimp only
    rw [others,List.foldl_cons]

variable {σ : Type} (dataParser : Nat → List UInt8 → σ → Except String (Bool × σ)) (startLinear : Bool)

def perform (r : Record) (p : Parse σ) : Except String (Bool × Parse σ) :=
  match r.kind with
  | .data => do
    let (ok,state) ← dataParser ((p.addrHiword + r.addr) % 2 ^ 32) r.data p.state
    .ok (ok,{p with state})
  | .endOfFile => .ok (true,{p with addrHiword := 0})
  | .segment => .ok (true,{p with addrHiword := 16 * (256 * (r.data.getD 0 0).toNat + (r.data.getD 1 0).toNat)})
  | .linear => .ok (true,{p with addrHiword := 65536 * (256 * (r.data.getD 0 0).toNat + (r.data.getD 1 0).toNat)})
  | .startSegment => .ok (false,p)
  | .startLinear => .ok (startLinear,p)

theorem scanLine_spells {digits : List UInt8} {r : Record} (spells : Spells (0x3A :: digits) r) (short : digits.length < 255) :
    scanLine digits = some (r.kind.code,r.addr,r.data) := by
  have length := spells.length
  obtain ⟨valid,digits',checksum,same,read,zero⟩ := spells
  obtain ⟨_,rfl⟩ := List.cons.inj same
  rw [List.length_cons] at length
  have count : digits.length % 256 = digits.length := Nat.mod_eq_of_lt (by omega)
  rw [Record.bytes] at read zero
  simp only [List.cons_append] at read zero
  rw [sum] at zero
  simp only [List.foldl_cons,List.foldl_append,List.foldl_nil] at zero
  obtain ⟨rest₁,first,read⟩ := gethex_unhex read 0
  obtain ⟨rest₂,second,read⟩ := gethex_unhex read (0 + UInt8.ofNat r.data.length)
  obtain ⟨rest₃,third,read⟩ := gethex_unhex read (0 + UInt8.ofNat r.data.length + UInt8.ofNat (r.addr / 256))
  obtain ⟨rest₄,fourth,read⟩ := gethex_unhex read
    (0 + UInt8.ofNat r.data.length + UInt8.ofNat (r.addr / 256) + UInt8.ofNat r.addr)
  generalize 0 + UInt8.ofNat r.data.length + UInt8.ofNat (r.addr / 256) + UInt8.ofNat r.addr + r.kind.code = head at zero fourth
  obtain ⟨rest₅,payload,read⟩ := gethexs_unhex read head
  obtain ⟨rest₆,last,_⟩ := gethex_unhex read (r.data.foldl (· + ·) head)
  rw [scanLine,count,if_neg (by omega),first]
  dsimp only
  rw [second]
  dsimp only
  rw [third]
  dsimp only
  rw [fourth]
  dsimp only
  rw [valid.lengthByte,if_neg (by omega),payload]
  dsimp only
  rw [last,if_neg (not_not.mpr zero),valid.addrBytes]

theorem ihexParse_spells {line : List UInt8} {r : Record} (spells : Spells line r) (short : line.length < 256) (p : Parse σ) :
    ihexParse dataParser startLinear line p = perform dataParser startLinear r p := by
  obtain ⟨digits,rfl,_⟩ := spells.chars
  have base := spells.1.base
  rw [List.length_cons] at short
  have colon : ¬ charAt (0x3A :: digits) 0 ≠ 0x3A := by simp [charAt]
  have scanned := scanLine_spells spells (by omega)
  rw [ihexParse,if_neg colon,List.drop_succ_cons,List.drop_zero,scanned,perform]
  dsimp only
  cases kind : r.kind with
  | data => rfl
  | endOfFile => rfl
  | segment =>
    obtain ⟨high,low,same⟩ := List.length_eq_two.mp (base (Or.inl kind))
    rw [same]
    rfl
  | startSegment => rfl
  | linear =>
    obtain ⟨high,low,same⟩ := List.length_eq_two.mp (base (Or.inr kind))
    rw [same]
    rfl
  | startLinear => rfl

/-- The pieces of data go to the callback in their order. -/
def feed (pieces : List Piece) (state : σ) : Except String σ :=
  pieces.foldlM (fun state piece => do let (_,state) ← dataParser piece.1 piece.2 state; .ok state) state

theorem feed_append (pieces more : List Piece) (state : σ) :
    feed dataParser (pieces ++ more) state = (do let state ← feed dataParser pieces state; feed dataParser more state) :=
  List.foldlM_append

/-- A state that follows the end and the contents of what is loaded in ascending order. -/
theorem feed_follows (follow : Nat → Bytes → σ) {lowest limit : Nat}
    (one : ∀ base m addr data, lowest ≤ base → base ≤ addr → addr + data.length ≤ limit →
      ∃ ok, dataParser addr data (follow base m) = .ok (ok,follow (addr + data.length) (m.write addr data)))
    {pieces : List Piece} {base : Nat} (ascending : Ascending base pieces) (above : lowest ≤ base)
    (fits : endOf base pieces ≤ limit) (m : Bytes) :
    feed dataParser pieces (follow base m) = .ok (follow (endOf base pieces) (place m pieces)) := by
  induction pieces generalizing base m with
  | nil => rfl
  | cons piece pieces ih =>
    obtain ⟨low,rest⟩ := ascending
    have inside : piece.1 + piece.2.length ≤ limit := Nat.le_trans rest.le_endOf fits
    obtain ⟨ok,loaded⟩ := one base m piece.1 piece.2 above low inside
    have next := ih rest (by omega) fits (m.write piece.1 piece.2)
    rw [feed,List.foldlM_cons,loaded]
    exact next

theorem perform_denote (r : Record) (p : Parse σ) :
    (do let (_,p) ← perform dataParser startLinear r p; .ok p) =
      (do let state ← feed dataParser (denote p.addrHiword [r]).2 p.state; .ok ⟨(denote p.addrHiword [r]).1,state⟩) := by
  rw [perform,denote]
  cases r.kind with
  | data =>
    dsimp only [denote,feed]
    rw [List.foldlM_cons]
    cases dataParser ((p.addrHiword + r.addr) % 2 ^ 32) r.data p.state with
    | error fault => rfl
    | ok result => rfl
  | endOfFile => rfl
  | segment => rfl
  | startSegment => rfl
  | linear => rfl
  | startLinear => rfl

/-- Lines that spell records give the callback the pieces that the records place. -/
theorem ihexLines_spells {lines : List (List UInt8)} {rs : List Record} (spells : List.Forall₂ Spells lines rs)
    (short : ∀ line ∈ lines, line.length < 256) (p : Parse σ) :
    ihexLines dataParser startLinear lines p =
      (do let state ← feed dataParser (denote p.addrHiword rs).2 p.state; .ok ⟨(denote p.addrHiword rs).1,state⟩) := by
  induction spells generalizing p with
  | nil => rfl
  | @cons line r lines rs first _ ih =>
    have one := perform_denote dataParser startLinear r p
    have split : denote p.addrHiword (r :: rs) = _ := denote_append p.addrHiword [r] rs
    rw [ihexLines,List.foldlM_cons,ihexParse_spells dataParser startLinear first (short line List.mem_cons_self),one,split,
      feed_append]
    cases feed dataParser (denote p.addrHiword [r]).2 p.state with
    | error fault => rfl
    | ok state => exact ih (fun other member => short other (List.mem_cons_of_mem _ member)) _

end Reading

section Feeding

variable {σ : Type} (dataParser : Nat → List UInt8 → σ → Except String (Bool × σ)) (startLinear : Bool)

/-- The characters of a text file end its lines. -/
def LineEnd (eol : List UInt8) : Prop := eol ≠ [] ∧ ∀ c ∈ eol, c = 0x0D ∨ c = 0x0A

theorem digit_ne {c : UInt8} (digit : digitOf 16 c ≠ none) : c ≠ 0x3A ∧ c ≠ 0x0D ∧ c ≠ 0x0A ∧ c ≠ 0 := by
  refine ⟨?_,?_,?_,?_⟩ <;> rintro rfl <;> exact digit rfl

theorem rxFeed_digits {digits buf : List UInt8} (started : buf ≠ []) (room : buf.length + digits.length ≤ ihexBufSize)
    (digit : ∀ c ∈ digits, digitOf 16 c ≠ none) (p : Parse σ) :
    rxFeedAll dataParser startLinear digits (buf,p) = .ok (buf ++ digits,p) := by
  induction digits generalizing buf with
  | nil =>
    rw [List.append_nil]
    rfl
  | cons c digits ih =>
    obtain ⟨colon,cr,lf,nul⟩ := digit_ne (digit c List.mem_cons_self)
    rw [List.length_cons] at room
    have some : 0 < buf.length := List.length_pos_iff.mpr started
    have one : rxFeed dataParser startLinear (buf,p) c = .ok (buf ++ [c],p) := by
      rw [rxFeed,if_neg colon,if_neg (by dsimp only; omega),if_neg (by simp [cr,lf,nul])]
    have rest := @ih (buf ++ [c]) (by simp) (by rw [List.length_append,List.length_singleton]; omega)
      fun other member => digit other (List.mem_cons_of_mem _ member)
    rw [List.append_assoc,List.singleton_append] at rest
    rw [rxFeedAll,List.foldlM_cons,one]
    exact rest

theorem rxFeed_idle {eol : List UInt8} (ends : ∀ c ∈ eol, c = 0x0D ∨ c = 0x0A) (p : Parse σ) :
    rxFeedAll dataParser startLinear eol ([],p) = .ok ([],p) := by
  induction eol with
  | nil => rfl
  | cons c eol ih =>
    have colon : c ≠ 0x3A := by
      rcases ends c List.mem_cons_self with rfl | rfl <;> decide
    have one : rxFeed dataParser startLinear ([],p) c = .ok ([],p) := by
      have empty : ihexBufSize ≤ ([] : List UInt8).length ∨ ([] : List UInt8).length = 0 := Or.inr rfl
      rw [rxFeed,if_neg colon,if_pos empty]
    rw [rxFeedAll,List.foldlM_cons,one]
    exact ih fun other member => ends other (List.mem_cons_of_mem _ member)

theorem rxFeedAll_append (text more : List UInt8) (rx : List UInt8 × Parse σ) :
    rxFeedAll dataParser startLinear (text ++ more) rx =
      (do let rx ← rxFeedAll dataParser startLinear text rx; rxFeedAll dataParser startLinear more rx) :=
  List.foldlM_append

theorem rxFeed_line {line eol : List UInt8} {r : Record} (spells : Spells line r) (short : line.length < 256)
    (lineEnd : LineEnd eol) (p : Parse σ) :
    rxFeedAll dataParser startLinear (line ++ eol) ([],p) =
      (do let (_,p) ← ihexParse dataParser startLinear line p; .ok ([],p)) := by
  obtain ⟨digits,rfl,digit⟩ := spells.chars
  obtain ⟨some,ends⟩ := lineEnd
  rw [List.length_cons] at short
  have colon : rxFeedAll dataParser startLinear (0x3A :: digits) ([],p) = .ok (0x3A :: digits,p) :=
    rxFeed_digits dataParser startLinear (by simp) (by rw [List.length_singleton,ihexBufSize]; omega) digit p
  rw [rxFeedAll_append,colon]
  match eol, some, ends with
  | c :: eol, _, ends =>
    have first := ends c List.mem_cons_self
    have ne : c ≠ 0x3A := by
      rcases first with rfl | rfl <;> decide
    have one : rxFeed dataParser startLinear (0x3A :: digits,p) c =
        (do let (_,p) ← ihexParse dataParser startLinear (0x3A :: digits) p; .ok ([],p)) := by
      rw [rxFeed,if_neg ne,if_neg (by rw [List.length_cons,ihexBufSize]; omega),if_pos (by tauto)]
    change rxFeedAll dataParser startLinear (c :: eol) (0x3A :: digits,p) = _
    rw [rxFeedAll,List.foldlM_cons,one]
    cases ihexParse dataParser startLinear (0x3A :: digits) p with
    | error fault => rfl
    | ok result => exact rxFeed_idle dataParser startLinear (fun other member => ends other (List.mem_cons_of_mem _ member)) _

/-- The text holds the lines, each of them with its end. -/
inductive Written : List (List UInt8) → List UInt8 → Prop
  | nil : Written [] []
  | cons {line eol text : List UInt8} {lines : List (List UInt8)} (lineEnd : LineEnd eol) (rest : Written lines text) :
      Written (line :: lines) (line ++ eol ++ text)

theorem rxFeedAll_lines {lines : List (List UInt8)} {rs : List Record} (spells : List.Forall₂ Spells lines rs)
    (short : ∀ line ∈ lines, line.length < 256) {text : List UInt8} (written : Written lines text) (p : Parse σ) :
    rxFeedAll dataParser startLinear text ([],p) = (do let p ← ihexLines dataParser startLinear lines p; .ok ([],p)) := by
  induction written generalizing rs p with
  | nil => rfl
  | @cons line eol text lines lineEnd rest ih =>
    cases spells with
    | @cons _ r _ rs first others =>
      rw [rxFeedAll_append,rxFeed_line dataParser startLinear first (short line List.mem_cons_self) lineEnd,ihexLines,
        List.foldlM_cons]
      cases ihexParse dataParser startLinear line p with
      | error fault => rfl
      | ok result => exact ih others (fun other member => short other (List.mem_cons_of_mem _ member)) _

theorem stream_written (lines : List (List UInt8)) : Written lines (stream lines) := by
  have lineEnd : LineEnd lineEnd := ⟨by decide,by simp [Ihex.lineEnd]⟩
  induction lines with
  | nil => exact Written.nil
  | cons line lines ih =>
    rw [stream,List.flatMap_cons]
    exact Written.cons lineEnd ih

end Feeding

section Printing

/-- The pieces of data that go into the lines of `ihex_flush`. -/
def cut : Nat → Nat → List UInt8 → List Piece
  | 0, _, _ => []
  | rounds + 1, addr, data =>
    if data = [] then []
    else (addr,data.take hexLineSize) :: cut rounds ((addr + (data.take hexLineSize).length) % 2 ^ 32) (data.drop hexLineSize)

/-- The lines place the pieces, and `hi_word` goes with the base of their addresses. -/
def Printed (before after : Nat) (lines : List (List UInt8)) (pieces : List Piece) : Prop :=
  ∃ rs : List Record, lines = rs.map print ∧ (∀ r ∈ rs, r.Valid ∧ r.kind ≠ .endOfFile ∧ r.data.length ≤ hexLineSize) ∧
    denote (65536 * before) rs = (65536 * after,pieces)

theorem Printed.nil (hiWord : Nat) : Printed hiWord hiWord [] [] := ⟨[],rfl,by simp,rfl⟩

theorem Printed.append {before middle after : Nat} {lines more : List (List UInt8)} {pieces others : List Piece}
    (first : Printed before middle lines pieces) (second : Printed middle after more others) :
    Printed before after (lines ++ more) (pieces ++ others) := by
  obtain ⟨rs,rfl,valid,places⟩ := first
  obtain ⟨rs',rfl,valid',places'⟩ := second
  refine ⟨rs ++ rs',by rw [List.map_append],fun r member => ?_,by rw [denote_append,places,places']⟩
  rcases List.mem_append.mp member with here | there
  · exact valid r here
  · exact valid' r there

theorem printChecksum_eq (sum : UInt8) : printChecksum sum = hexByte (0 - sum) := by
  have small := sum.toNat_lt
  rw [printChecksum,hexByte,UInt8.toNat_sub]
  congr 1

theorem updateAddr_printed (hiWord : Nat) {addr : Nat} (inside : addr < 2 ^ 32) :
    (updateAddr hiWord addr).1 = addr / 65536 ∧ Printed hiWord (addr / 65536) (updateAddr hiWord addr).2 [] := by
  rw [updateAddr]
  by_cases same : addr / 65536 = hiWord
  · rw [if_pos same,same]
    exact ⟨rfl,Printed.nil hiWord⟩
  · rw [if_neg same]
    have small : addr / 65536 < 65536 := by omega
    generalize addr / 65536 = word at small ⊢
    have front : ascii ":02000004" = 0x3A :: ([2,0,0,4] : List UInt8).flatMap hexByte := by decide +kernel
    have bytes : (Record.mk .linear 0 [UInt8.ofNat (word / 256),UInt8.ofNat word]).bytes =
        [2,0,0,4] ++ [UInt8.ofNat (word / 256),UInt8.ofNat word] := by
      have code : Kind.linear.code = 4 := by decide
      simp [Record.bytes,code]
    have total : sum ([2,0,0,4] ++ [UInt8.ofNat (word / 256),UInt8.ofNat word]) =
        6 + UInt8.ofNat word + UInt8.ofNat (word / 256) := by
      simp only [sum,List.cons_append,List.nil_append,List.foldl_cons,List.foldl_nil]
      grind
    have value : 256 * (UInt8.ofNat (word / 256)).toNat + (UInt8.ofNat word).toNat = word := by
      rw [UInt8.toNat_ofNat',UInt8.toNat_ofNat']
      omega
    refine ⟨rfl,[⟨.linear,0,[UInt8.ofNat (word / 256),UInt8.ofNat word]⟩],?_,?_,?_⟩
    · dsimp only
      rw [List.map_singleton,print,bytes,total,front,padded_four small,printChecksum_eq]
      simp only [List.flatMap_cons,List.flatMap_nil,List.append_nil,List.cons_append,List.nil_append,List.append_assoc]
    · intro r member
      rw [List.mem_singleton.mp member]
      exact ⟨⟨Nat.zero_lt_succ _,by simp,fun _ => rfl⟩,by simp,by simp [hexLineSize]⟩
    · have places : denote (65536 * hiWord) [⟨.linear,0,[UInt8.ofNat (word / 256),UInt8.ofNat word]⟩] =
          (65536 * (256 * (UInt8.ofNat (word / 256)).toNat + (UInt8.ofNat word).toNat),[]) := rfl
      rw [places,value]

theorem dataLine_printed {addr : Nat} (inside : addr < 2 ^ 32) {data : List UInt8} (short : data.length ≤ hexLineSize) :
    Printed (addr / 65536) (addr / 65536) [dataLine addr data] [(addr,data)] := by
  have few : data.length < 256 := Nat.lt_of_le_of_lt short (by decide)
  have low : addr % 65536 < 65536 := Nat.mod_lt _ (by decide)
  have colon : ascii ":" = [0x3A] := by decide
  have zeros : ascii "00" = hexByte 0 := by decide +kernel
  have lengthByte : (UInt8.ofNat data.length).toNat = data.length := by
    rw [UInt8.toNat_ofNat']
    exact Nat.mod_eq_of_lt few
  have count : padded 16 2 data.length = hexByte (UInt8.ofNat data.length) := by rw [hexByte,lengthByte]
  have lowByte : UInt8.ofNat (addr % 65536) = UInt8.ofNat addr := by
    apply UInt8.toNat_inj.mp
    rw [UInt8.toNat_ofNat',UInt8.toNat_ofNat']
    omega
  have highByte : UInt8.ofNat (addr % 65536 / 256) = UInt8.ofNat (addr / 256) := by
    apply UInt8.toNat_inj.mp
    rw [UInt8.toNat_ofNat',UInt8.toNat_ofNat']
    omega
  have bytes : (Record.mk .data (addr % 65536) data).bytes =
      [UInt8.ofNat data.length,UInt8.ofNat (addr % 65536 / 256),UInt8.ofNat (addr % 65536),0] ++ data := rfl
  have total : sum ([UInt8.ofNat data.length,UInt8.ofNat (addr % 65536 / 256),UInt8.ofNat (addr % 65536),0] ++ data) =
      data.foldl (· + ·) (UInt8.ofNat data.length + UInt8.ofNat addr + UInt8.ofNat (addr / 256)) := by
    rw [sum,List.foldl_append,highByte,lowByte]
    simp only [List.foldl_cons,List.foldl_nil]
    congr 1
    grind
  refine ⟨[⟨.data,addr % 65536,data⟩],?_,?_,?_⟩
  · rw [List.map_singleton,print,bytes,total,dataLine,colon,zeros,count,padded_four low,printChecksum_eq]
    simp only [List.flatMap_append,List.flatMap_cons,List.flatMap_nil,List.append_nil,List.cons_append,List.nil_append,
      List.append_assoc]
  · intro r member
    rw [List.mem_singleton.mp member]
    exact ⟨⟨low,few,by simp⟩,by simp,short⟩
  · have whole : (65536 * (addr / 65536) + addr % 65536) % 2 ^ 32 = addr := by
      rw [Nat.div_add_mod]
      exact Nat.mod_eq_of_lt inside
    have places : denote (65536 * (addr / 65536)) [⟨.data,addr % 65536,data⟩] =
        (65536 * (addr / 65536),[((65536 * (addr / 65536) + addr % 65536) % 2 ^ 32,data)]) := rfl
    rw [places,whole]

theorem flushLoop_printed {rounds hiWord addr : Nat} {data : List UInt8} (fits : addr + data.length ≤ 2 ^ 32) :
    Printed hiWord (flushLoop rounds hiWord addr data).1 (flushLoop rounds hiWord addr data).2 (cut rounds addr data) := by
  induction rounds generalizing hiWord addr data with
  | zero => exact Printed.nil hiWord
  | succ rounds ih =>
    rw [flushLoop,cut]
    by_cases none : data = []
    · rw [if_pos none,if_pos none]
      exact Printed.nil hiWord
    · rw [if_neg none,if_neg none]
      have some := List.length_pos_iff.mpr none
      have inside : addr < 2 ^ 32 := by omega
      have taken : (data.take hexLineSize).length ≤ hexLineSize := List.length_take_le _ _
      obtain ⟨base,first⟩ := updateAddr_printed hiWord inside
      have line := dataLine_printed inside taken
      have rest : (addr + (data.take hexLineSize).length) % 2 ^ 32 + (data.drop hexLineSize).length ≤ 2 ^ 32 := by
        have parts := congrArg List.length (List.take_append_drop hexLineSize data)
        rw [List.length_append] at parts
        have wrapped := Nat.mod_le (addr + (data.take hexLineSize).length) (2 ^ 32)
        omega
      have others := @ih (addr / 65536) _ _ rest
      dsimp only
      rw [base,List.append_cons]
      exact (first.append line).append others

theorem cut_nil (rounds addr : Nat) : cut rounds addr [] = [] := by
  cases rounds with
  | zero => rfl
  | succ rounds => rw [cut,if_pos rfl]

/-- A line takes something of the data that there is, and the rest is left. -/
theorem line_length {data : List UInt8} (some : data ≠ []) : 0 < (data.take hexLineSize).length ∧
    (data.take hexLineSize).length + (data.drop hexLineSize).length = data.length := by
  have positive := List.length_pos_iff.mpr some
  rw [List.length_take,List.length_drop,hexLineSize]
  omega

/-- The pieces of a flush stand one behind the other and make up the data. -/
theorem cut_spec {rounds addr base : Nat} {data : List UInt8} (enough : data.length ≤ rounds) (fits : addr + data.length ≤ 2 ^ 32)
    (low : base ≤ addr) (some : data ≠ []) :
    Ascending base (cut rounds addr data) ∧ endOf base (cut rounds addr data) = addr + data.length ∧
      ∀ m, place m (cut rounds addr data) = m.write addr data := by
  induction rounds generalizing addr base data with
  | zero => exact absurd (List.eq_nil_of_length_eq_zero (Nat.le_zero.mp enough)) some
  | succ rounds ih =>
    obtain ⟨taken,parts⟩ := line_length some
    rw [cut,if_neg some]
    by_cases last : data.drop hexLineSize = []
    · have whole : data.take hexLineSize = data := List.take_of_length_le (List.drop_eq_nil_iff.mp last)
      rw [last,cut_nil,whole]
      exact ⟨⟨low,trivial⟩,rfl,fun m => rfl⟩
    · have left := List.length_pos_iff.mpr last
      have next : (addr + (data.take hexLineSize).length) % 2 ^ 32 = addr + (data.take hexLineSize).length :=
        Nat.mod_eq_of_lt (by omega)
      rw [next]
      obtain ⟨ascending,ends,placed⟩ := @ih (addr + (data.take hexLineSize).length)
        (addr + (data.take hexLineSize).length) (data.drop hexLineSize) (by omega) (by omega) (Nat.le_refl _) last
      refine ⟨⟨low,ascending⟩,?_,fun m => ?_⟩
      · rw [endOf,List.foldl_cons,← endOf,ends]
        omega
      · rw [place,List.foldl_cons,← place,placed,Bytes.write_append,List.take_append_drop]

@[irreducible] def piecesOf (addr : Nat) (data : List UInt8) : List Piece := cut data.length addr data

theorem ihexFlush_printed {hiWord addr : Nat} {data : List UInt8} (fits : addr + data.length ≤ 2 ^ 32) :
    Printed hiWord (ihexFlush hiWord addr data).1 (ihexFlush hiWord addr data).2 (piecesOf addr data) := by
  rw [piecesOf]
  exact flushLoop_printed fits

theorem piecesOf_nil (addr : Nat) : piecesOf addr [] = [] := by
  rw [piecesOf]
  rfl

theorem piecesOf_spec {addr base : Nat} {data : List UInt8} (fits : addr + data.length ≤ 2 ^ 32) (low : base ≤ addr) (some : data ≠ []) :
    Ascending base (piecesOf addr data) ∧ endOf base (piecesOf addr data) = addr + data.length ∧
      ∀ m, place m (piecesOf addr data) = m.write addr data := by
  rw [piecesOf]
  exact cut_spec (Nat.le_refl _) fits low some

/-- The pieces of data as they are printed. -/
def cutAll (pieces : List Piece) : List Piece := pieces.flatMap fun piece => piecesOf piece.1 piece.2

theorem cutAll_spec {base : Nat} {pieces : List Piece} (ascending : Ascending base pieces) (fits : endOf base pieces ≤ 2 ^ 32) :
    Ascending base (cutAll pieces) ∧ endOf base (cutAll pieces) = dataEnd base pieces ∧
      ∀ m, place m (cutAll pieces) = place m pieces := by
  induction pieces generalizing base with
  | nil => exact ⟨trivial,rfl,fun m => rfl⟩
  | cons piece pieces ih =>
    obtain ⟨low,rest⟩ := ascending
    have last : piece.1 + piece.2.length ≤ 2 ^ 32 := Nat.le_trans rest.le_endOf fits
    by_cases none : piece.2 = []
    · rw [none,List.length_nil,Nat.add_zero] at rest
      have fits' : endOf base pieces ≤ 2 ^ 32 := by
        refine Nat.le_trans ?_ fits
        cases pieces with
        | nil => exact Nat.le_trans low (Nat.le_add_right _ _)
        | cons other pieces => exact Nat.le_refl _
      have same : cutAll (piece :: pieces) = cutAll pieces := by
        rw [cutAll,List.flatMap_cons,none,piecesOf_nil,List.nil_append,cutAll]
      obtain ⟨ascending,ends,placed⟩ := ih (rest.weaken low) fits'
      rw [same]
      refine ⟨ascending,?_,fun m => ?_⟩
      · rw [ends,dataEnd,dataEnd,List.foldl_cons,if_pos none]
      · rw [placed,place,place,List.foldl_cons,none,Bytes.write_nil]
    · obtain ⟨ascending,ends,placed⟩ := ih rest fits
      obtain ⟨ascending',ends',placed'⟩ := piecesOf_spec last low none
      rw [cutAll,List.flatMap_cons,← cutAll]
      refine ⟨ascending_append.mpr ⟨ascending',?_⟩,?_,fun m => ?_⟩
      · rw [ends']
        exact ascending
      · rw [endOf_append,ends',ends,dataEnd,dataEnd,List.foldl_cons,if_neg none]
      · rw [place_append,placed',placed]
        rfl

/-- What a tool has printed: the static `hi_word` and the lines. -/
structure Output where
  hiWord : Nat
  lines : List (List UInt8)

def Output.flush (o : Output) (addr : Nat) (data : List UInt8) : Output :=
  let (hiWord,lines) := ihexFlush o.hiWord addr data
  ⟨hiWord,o.lines ++ lines⟩

def Output.Places (o : Output) (pieces : List Piece) : Prop := Printed 0 o.hiWord o.lines pieces

theorem Output.flush_places {o : Output} {pieces : List Piece} (places : o.Places pieces) {addr : Nat} {data : List UInt8}
    (fits : addr + data.length ≤ 2 ^ 32) : (o.flush addr data).Places (pieces ++ piecesOf addr data) :=
  Printed.append places (ihexFlush_printed fits)

theorem spells_endLine : Spells endLine ⟨.endOfFile,0,[]⟩ := by
  have printed : endLine = print ⟨.endOfFile,0,[]⟩ := by decide +kernel
  rw [printed]
  exact spells_print ⟨by decide,by decide,by simp⟩

/-- The lines of an iHEX: they spell records, of which only the last is an end record. -/
def Closed (lines : List (List UInt8)) (pieces : List Piece) : Prop :=
  ∃ rs last, List.Forall₂ Spells lines (rs ++ [last]) ∧ (∀ line ∈ lines, line.length < 256) ∧
    (∀ r ∈ rs, r.kind ≠ .endOfFile) ∧ last.kind = .endOfFile ∧ (denote 0 rs).2 = pieces

/-- A file of such lines. -/
def Holds (file : List UInt8) (pieces : List Piece) : Prop := ∃ lines, Written lines file ∧ Closed lines pieces

variable {σ : Type} (dataParser : Nat → List UInt8 → σ → Except String (Bool × σ)) (startLinear : Bool)

theorem Closed.feed {lines : List (List UInt8)} {pieces : List Piece} (closed : Closed lines pieces) (state : σ) :
    ihexLines dataParser startLinear lines ⟨0,state⟩ =
      (do let state ← feed dataParser pieces state; .ok ⟨0,state⟩) := by
  obtain ⟨rs,last,spells,short,_,ends,rfl⟩ := closed
  have final (base : Nat) : denote base [last] = (0,[]) := by
    rw [denote,ends]
    rfl
  rw [ihexLines_spells dataParser startLinear spells short,denote_append,final,List.append_nil]

theorem Holds.feed {file : List UInt8} {pieces : List Piece} (holds : Holds file pieces) (state : σ) :
    rxFeedAll dataParser startLinear file ([],⟨0,state⟩) =
      (do let state ← feed dataParser pieces state; .ok ([],⟨0,state⟩)) := by
  obtain ⟨lines,written,closed⟩ := holds
  have fed := closed.feed dataParser startLinear state
  obtain ⟨rs,last,spells,short,_⟩ := closed
  rw [rxFeedAll_lines dataParser startLinear spells short written,fed]
  cases Ihex.feed dataParser pieces state with
  | error fault => rfl
  | ok state => rfl

theorem prints_spell {rs : List Record} (valid : ∀ r ∈ rs, r.Valid ∧ r.kind ≠ .endOfFile ∧ r.data.length ≤ hexLineSize) :
    List.Forall₂ Spells (rs.map print) rs ∧ ∀ line ∈ rs.map print, line.length < 256 := by
  constructor
  · rw [List.forall₂_map_left_iff]
    exact List.forall₂_same.mpr fun r member => spells_print (valid r member).1
  · intro line member
    obtain ⟨r,inside,rfl⟩ := List.mem_map.mp member
    have short := (valid r inside).2.2
    rw [hexLineSize] at short
    rw [length_print]
    omega

theorem closed_print {rs : List Record} (valid : ∀ r ∈ rs, r.Valid ∧ r.kind ≠ .endOfFile ∧ r.data.length ≤ hexLineSize) :
    Closed (rs.map print ++ [endLine]) (denote 0 rs).2 := by
  obtain ⟨spells,short⟩ := prints_spell valid
  refine ⟨rs,⟨.endOfFile,0,[]⟩,?_,fun line member => ?_,fun r member => (valid r member).2.1,rfl,rfl⟩
  · exact List.rel_append spells (List.Forall₂.cons spells_endLine List.Forall₂.nil)
  · rcases List.mem_append.mp member with printed | last
    · exact short line printed
    · rw [List.mem_singleton.mp last]
      decide

theorem Output.Places.closed {o : Output} {pieces : List Piece} (places : o.Places pieces) : Closed (o.lines ++ [endLine]) pieces := by
  obtain ⟨rs,same,valid,placed⟩ := places
  have closed := closed_print valid
  rw [Nat.mul_zero] at placed
  rw [placed] at closed
  rw [same]
  exact closed

end Printing

end JcaFirmware.Ihex
