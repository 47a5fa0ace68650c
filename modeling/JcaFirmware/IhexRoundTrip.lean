import JcaFirmware.Ihex

/-! The round trip of iHEX: the lines that `ihex_flush` of the tools prints for some blocks
make `ihex_parse` of the bootloader write these blocks. The parser is the one that puts
its bytes where the line stands. -/
namespace JcaFirmware.Ihex
open Foundation Numeral CText IntelHex

section InPlace

/-- `gethex` at a place of the line: the byte, the place behind it, and the sum. -/
def gethexAt (buf : List UInt8) (src : Nat) (sum : UInt8) : UInt8 × Nat × UInt8 :=
  match digitOf 16 (charAt buf src) with
  | none => (0,src,sum)
  | some high =>
    match digitOf 16 (charAt buf (src + 1)) with
    | none => (0,src + 1,sum)
    | some low => (UInt8.ofNat (16 * high + low),src + 2,sum + UInt8.ofNat (16 * high + low))

/-- The loop that writes the bytes into the line from `pdata` on. -/
def gethexsAt : Nat → List UInt8 → Nat → Nat → UInt8 → List UInt8 × Nat × UInt8
  | 0, buf, src, _, sum => (buf,src,sum)
  | count + 1, buf, src, pdata, sum =>
    let (d,src,sum) := gethexAt buf src sum
    gethexsAt count (buf.set pdata d) src (pdata + 1) sum

def scanAt (line : List UInt8) : Option (UInt8 × Nat × Nat × List UInt8) :=
  let l := (line.length - 1) % 256
  if l < 8 then none
  else
    let (llen,src,sum) := gethexAt line 1 0
    let (high,src,sum) := gethexAt line src sum
    let (low,src,sum) := gethexAt line src sum
    let (type,src,sum) := gethexAt line src sum
    if l - 8 < 2 * llen.toNat then none
    else
      let (buf,src,sum) := gethexsAt llen.toNat line src 0 sum
      let (_,_,sum) := gethexAt buf src sum
      if sum ≠ 0 then none else some (type,256 * high.toNat + low.toNat,llen.toNat,buf)

variable {σ : Type} (dataParser : Nat → List UInt8 → σ → Except String (Bool × σ)) (startLinear : Bool)

/-- `ihex_parse`, with its bytes in the line itself. -/
def ihexParseAt (line : List UInt8) (p : Parse σ) : Except String (Bool × Parse σ) :=
  if charAt line 0 ≠ 0x3A then .ok (false,p)
  else
    match scanAt line with
    | none => .ok (false,p)
    | some (type,addr,llen,data) =>
      let word := 256 * (charAt data 0).toNat + (charAt data 1).toNat
      if type = 0 then do
        let (ok,state) ← dataParser ((p.addrHiword + addr) % 2 ^ 32) (data.take llen) p.state
        .ok (ok,{p with state})
      else if type = 1 then .ok (true,{p with addrHiword := 0})
      else if type = 2 then .ok (true,{p with addrHiword := 16 * word})
      else if type = 4 then .ok (true,{p with addrHiword := 65536 * word})
      else if type = 5 then .ok (startLinear,p)
      else .ok (false,p)

theorem charAt_drop (buf : List UInt8) (src i : Nat) : charAt (buf.drop src) i = charAt buf (src + i) := by
  rw [charAt,charAt,List.getD_eq_getElem?_getD,List.getD_eq_getElem?_getD,List.getElem?_drop]

theorem gethexAt_unhex {buf : List UInt8} {src : Nat} {d : UInt8} {bytes : List UInt8}
    (read : unhex (buf.drop src) = some (d :: bytes)) (sum : UInt8) :
    gethexAt buf src sum = (d,src + 2,sum + d) ∧ unhex (buf.drop (src + 2)) = some bytes := by
  have first := charAt_drop buf src 0
  have second := charAt_drop buf src 1
  have behind := List.drop_drop (i := 2) (j := src) (l := buf)
  rw [Nat.add_zero] at first
  cases form : buf.drop src with
  | nil =>
    rw [form] at read
    cases read
  | cons a rest =>
    cases rest with
    | nil =>
      rw [form] at read
      cases read
    | cons b text =>
      rw [form] at read first second behind
      rw [unhex] at read
      obtain ⟨high,isHigh,read⟩ := Option.bind_eq_some_iff.mp read
      obtain ⟨low,isLow,read⟩ := Option.bind_eq_some_iff.mp read
      obtain ⟨rest,tail,same⟩ := Option.map_eq_some_iff.mp read
      obtain ⟨rfl,rfl⟩ := List.cons.inj same
      have highAt : digitOf 16 (charAt buf src) = some high := by rw [← first]; exact isHigh
      have lowAt : digitOf 16 (charAt buf (src + 1)) = some low := by rw [← second]; exact isLow
      refine ⟨?_,?_⟩
      · rw [gethexAt,highAt]
        dsimp only
        rw [lowAt]
      · rw [← behind]
        exact tail

/-- The bytes come behind what was written before, and do not touch what is still to be read. -/
theorem gethexsAt_unhex {buf data bytes : List UInt8} {src pdata : Nat} (read : unhex (buf.drop src) = some (data ++ bytes))
    (behind : pdata ≤ src) (sum : UInt8) :
    gethexsAt data.length buf src pdata sum =
      (buf.take pdata ++ data ++ buf.drop (pdata + data.length),src + 2 * data.length,data.foldl (· + ·) sum) ∧
    unhex (buf.drop (src + 2 * data.length)) = some bytes := by
  induction data generalizing buf src pdata sum with
  | nil =>
    refine ⟨?_,read⟩
    rw [List.length_nil,gethexsAt,List.append_nil,Nat.add_zero,List.take_append_drop]
    rfl
  | cons d data ih =>
    obtain ⟨first,rest⟩ := gethexAt_unhex read sum
    have inside : pdata < buf.length := by
      have digits := length_unhex read
      rw [List.length_drop,List.length_append,List.length_cons] at digits
      omega
    have kept : (buf.set pdata d).drop (src + 2) = buf.drop (src + 2) := List.drop_set_of_lt (by omega)
    obtain ⟨next,left⟩ := @ih (buf.set pdata d) (src + 2) (pdata + 1) (by rw [kept]; exact rest) (by omega) (sum + d)
    have place : src + 2 + 2 * data.length = src + 2 * (data.length + 1) := by omega
    rw [List.drop_set_of_lt (by omega),place] at left
    have front : (buf.set pdata d).take (pdata + 1) = buf.take pdata ++ [d] := by
      rw [List.take_add_one,List.take_set_of_le (Nat.le_refl _),List.getElem?_set_self inside]
      rfl
    have back : (buf.set pdata d).drop (pdata + 1 + data.length) = buf.drop (pdata + (data.length + 1)) := by
      rw [List.drop_set_of_lt (by omega)]
      congr 1
      omega
    refine ⟨?_,left⟩
    rw [List.length_cons,gethexsAt,first]
    dsimp only
    rw [next,front,back,place,List.append_assoc (buf.take pdata) [d],List.singleton_append,List.foldl_cons]

theorem scanAt_spells {line : List UInt8} {r : Record} (spells : Spells line r) (short : line.length < 256) :
    scanAt line = some (r.kind.code,r.addr,r.data.length,r.data ++ line.drop r.data.length) := by
  have length := spells.length
  obtain ⟨valid,digits,checksum,same,read,zero⟩ := spells
  have count : (line.length - 1) % 256 = line.length - 1 := Nat.mod_eq_of_lt (by omega)
  have text : line.drop 1 = digits := by rw [same]; rfl
  rw [← text] at read
  rw [Record.bytes] at read zero
  simp only [List.cons_append] at read zero
  rw [sum] at zero
  simp only [List.foldl_cons,List.foldl_append,List.foldl_nil] at zero
  obtain ⟨first,read⟩ := gethexAt_unhex read 0
  obtain ⟨second,read⟩ := gethexAt_unhex read (0 + UInt8.ofNat r.data.length)
  obtain ⟨third,read⟩ := gethexAt_unhex read (0 + UInt8.ofNat r.data.length + UInt8.ofNat (r.addr / 256))
  obtain ⟨fourth,read⟩ := gethexAt_unhex read
    (0 + UInt8.ofNat r.data.length + UInt8.ofNat (r.addr / 256) + UInt8.ofNat r.addr)
  generalize 0 + UInt8.ofNat r.data.length + UInt8.ofNat (r.addr / 256) + UInt8.ofNat r.addr + r.kind.code = head at zero fourth
  obtain ⟨payload,read⟩ := gethexsAt_unhex read (Nat.zero_le _) head
  rw [List.take_zero,List.nil_append,Nat.zero_add] at payload
  have kept : (r.data ++ line.drop r.data.length).drop (1 + 2 + 2 + 2 + 2 + 2 * r.data.length) =
      line.drop (1 + 2 + 2 + 2 + 2 + 2 * r.data.length) := by
    have place : 1 + 2 + 2 + 2 + 2 + 2 * r.data.length = r.data.length + (9 + r.data.length) := by omega
    rw [place,← List.drop_drop,List.drop_left' rfl,List.drop_drop]
  rw [← kept] at read
  obtain ⟨last,_⟩ := gethexAt_unhex read (r.data.foldl (· + ·) head)
  rw [scanAt,count,if_neg (by omega),first]
  dsimp only
  rw [second]
  dsimp only
  rw [third]
  dsimp only
  rw [fourth]
  dsimp only
  rw [valid.lengthByte,if_neg (by omega),payload]
  dsimp only
  rw [last,if_neg (not_not.mpr zero),valid.addrBytes]

/-- On the lines of an iHEX the two parsers agree. -/
theorem ihexParseAt_spells {line : List UInt8} {r : Record} (spells : Spells line r) (short : line.length < 256) (p : Parse σ) :
    ihexParseAt dataParser startLinear line p = ihexParse dataParser startLinear line p := by
  have inPlace := scanAt_spells spells short
  obtain ⟨digits,rfl,_⟩ := spells.chars
  rw [List.length_cons] at short
  have apart := scanLine_spells spells (by omega)
  rw [ihexParseAt,ihexParse,inPlace,List.drop_succ_cons,List.drop_zero,apart]
  dsimp only
  rw [List.take_left' rfl]

def ihexLinesAt (lines : List (List UInt8)) (p : Parse σ) : Except String (Parse σ) :=
  lines.foldlM (fun p line => do let (_,p) ← ihexParseAt dataParser startLinear line p; .ok p) p

theorem ihexLinesAt_spells {lines : List (List UInt8)} {rs : List Record} (spells : List.Forall₂ Spells lines rs)
    (short : ∀ line ∈ lines, line.length < 256) (p : Parse σ) :
    ihexLinesAt dataParser startLinear lines p = ihexLines dataParser startLinear lines p := by
  induction spells generalizing p with
  | nil => rfl
  | @cons line r lines rs first _ ih =>
    rw [ihexLinesAt,ihexLines,List.foldlM_cons,List.foldlM_cons,
      ihexParseAt_spells dataParser startLinear first (short line List.mem_cons_self)]
    cases ihexParse dataParser startLinear line p with
    | error fault => rfl
    | ok result => exact ih (fun other member => short other (List.mem_cons_of_mem _ member)) _

end InPlace

section RoundTrip

def located (piece : Piece) : List (Nat × UInt8) := piece.2.mapIdx fun i b => (piece.1 + i,b)

theorem located_append (addr : Nat) (first second : List UInt8) :
    located (addr,first ++ second) = located (addr,first) ++ located (addr + first.length,second) := by
  rw [located,located,located,List.mapIdx_append]
  simp only [Nat.add_assoc,Nat.add_comm first.length]

def flushAll (blocks : List Piece) : Output := blocks.foldl (fun o block => o.flush block.1 block.2) ⟨0,[]⟩

/-- A write request is noted, whatever its answer. -/
def request (answer : Nat → List UInt8 → Bool) (addr : Nat) (data : List UInt8) (requests : List Piece) :
    Except String (Bool × List Piece) := .ok (answer addr data,requests ++ [(addr,data)])

theorem feed_request (answer : Nat → List UInt8 → Bool) (pieces requests : List Piece) :
    feed (request answer) pieces requests = .ok (requests ++ pieces) := by
  induction pieces generalizing requests with
  | nil =>
    rw [List.append_nil]
    rfl
  | cons piece pieces ih =>
    rw [feed,List.foldlM_cons,List.append_cons]
    exact ih _

theorem Printed.spells {before after : Nat} {lines : List (List UInt8)} {pieces : List Piece} (printed : Printed before after lines pieces) :
    ∃ rs, List.Forall₂ Spells lines rs ∧ (∀ line ∈ lines, line.length < 256) ∧ denote (65536 * before) rs = (65536 * after,pieces) := by
  obtain ⟨rs,rfl,valid,places⟩ := printed
  obtain ⟨spells,short⟩ := prints_spell valid
  exact ⟨rs,spells,short,places⟩

theorem located_cut {rounds addr : Nat} {data : List UInt8} (enough : data.length ≤ rounds) (fits : addr + data.length ≤ 2 ^ 32) :
    (cut rounds addr data).flatMap located = located (addr,data) := by
  induction rounds generalizing addr data with
  | zero =>
    obtain rfl := List.eq_nil_of_length_eq_zero (Nat.le_zero.mp enough)
    rfl
  | succ rounds ih =>
    rw [cut]
    by_cases none : data = []
    · rw [if_pos none,none]
      rfl
    · obtain ⟨taken,parts⟩ := line_length none
      rw [if_neg none,List.flatMap_cons]
      by_cases last : data.drop hexLineSize = []
      · have whole : data.take hexLineSize = data := List.take_of_length_le (List.drop_eq_nil_iff.mp last)
        rw [last,cut_nil,whole]
        exact List.append_nil _
      · have left := List.length_pos_iff.mpr last
        rw [ih (by omega) (by rw [Nat.mod_eq_of_lt (by omega)]; omega),Nat.mod_eq_of_lt (by omega),← located_append,
          List.take_append_drop]

theorem located_piecesOf {block : Piece} (fits : block.1 + block.2.length ≤ 2 ^ 32) :
    (piecesOf block.1 block.2).flatMap located = located block := by
  rw [piecesOf]
  exact located_cut (Nat.le_refl _) fits

theorem flushAll_places {blocks : List Piece} (fits : ∀ block ∈ blocks, block.1 + block.2.length ≤ 2 ^ 32) :
    (flushAll blocks).Places (cutAll blocks) := by
  have go (o : Output) (pieces : List Piece) (places : o.Places pieces) :
      (blocks.foldl (fun o block => o.flush block.1 block.2) o).Places (pieces ++ cutAll blocks) := by
    induction blocks generalizing o pieces with
    | nil =>
      rw [cutAll,List.flatMap_nil,List.append_nil]
      exact places
    | cons block blocks ih =>
      rw [cutAll,List.flatMap_cons,← List.append_assoc,List.foldl_cons]
      exact ih (fun other member => fits other (List.mem_cons_of_mem _ member)) _ _
        (Output.flush_places places (fits block List.mem_cons_self))
  exact go ⟨0,[]⟩ [] (Printed.nil 0)

/-- The write requests of the bootloader cover the bytes of the blocks, in their order. -/
theorem round_trip (answer : Nat → List UInt8 → Bool) (startLinear : Bool) {blocks : List Piece}
    (fits : ∀ block ∈ blocks, block.1 + block.2.length ≤ 2 ^ 32) :
    ∃ p, ihexLinesAt (request answer) startLinear (flushAll blocks).lines ⟨0,[]⟩ = .ok p ∧
      p.state.flatMap located = blocks.flatMap located := by
  obtain ⟨rs,spells,short,places⟩ := Printed.spells (flushAll_places fits)
  rw [Nat.mul_zero] at places
  refine ⟨⟨65536 * (flushAll blocks).hiWord,cutAll blocks⟩,?_,?_⟩
  · rw [ihexLinesAt_spells _ _ spells short,ihexLines_spells _ _ spells short,places,feed_request]
    rfl
  · rw [cutAll,List.flatMap_assoc]
    apply List.flatMap_congr
    intro block member
    exact located_piecesOf (fits block member)

/-- A block at the end of the address space, and one below it across a boundary. -/
theorem round_trip_descending :
    ∃ p, ihexLinesAt (request fun _ _ => true) false (flushAll [(0xFFFFFFFF,[1]),(0x1FFFF,[2,3])]).lines ⟨0,[]⟩ = .ok p ∧
      p.state.flatMap located = [(0xFFFFFFFF,1),(0x1FFFF,2),(0x20000,3)] :=
  round_trip (fun _ _ => true) false (by decide)

end RoundTrip

end JcaFirmware.Ihex
