import JcaFirmware.Foundation.Memory
import JcaFirmware.Foundation.Numeral

/-! Intel hex: the records, the lines that spell them, and the pieces of data that a file of
them places in a memory. -/
namespace JcaFirmware.Foundation.IntelHex
open Numeral

section Pairs

/-- Bytes as pairs of hexadecimal digits in either case. -/
def unhex : List UInt8 → Option (List UInt8)
  | [] => some []
  | [_] => none
  | a :: b :: text => do
    let high ← digitOf 16 a
    let low ← digitOf 16 b
    (unhex text).map (UInt8.ofNat (16 * high + low) :: ·)

/-- The bytes of the pairs a text starts with, up to the first that is none. -/
def digitPairs : List UInt8 → List UInt8
  | a :: b :: text =>
    match digitOf 16 a, digitOf 16 b with
    | some high, some low => UInt8.ofNat (16 * high + low) :: digitPairs text
    | _, _ => []
  | _ => []

theorem digitPairs_unhex {text bytes : List UInt8} (read : unhex text = some bytes) : digitPairs text = bytes := by
  induction text using unhex.induct generalizing bytes with
  | case1 =>
    obtain rfl := Option.some.inj read
    rfl
  | case2 c => cases read
  | case3 a b text ih =>
    rw [unhex] at read
    obtain ⟨high,first,read⟩ := Option.bind_eq_some_iff.mp read
    obtain ⟨low,second,read⟩ := Option.bind_eq_some_iff.mp read
    obtain ⟨rest,tail,rfl⟩ := Option.map_eq_some_iff.mp read
    rw [digitPairs,first,second]
    dsimp only
    rw [ih tail]

def hexByte (b : UInt8) : List UInt8 := padded 16 2 b.toNat

theorem padded_succ {width : Nat} (wide : 0 < width) (n : Nat) :
    padded 16 (width + 1) n = padded 16 width (n / 16) ++ [digit (n % 16)] := by
  have last : numeral 16 n = if n / 16 = 0 then [digit (n % 16)] else numeral 16 (n / 16) ++ [digit (n % 16)] := by
    rw [numeral,numeral]
    by_cases none : n = 0
    · rw [none]
      rfl
    · have digits : Nat.digits 16 n = n % 16 :: Nat.digits 16 (n / 16) := Nat.digits_def' (by decide) (Nat.pos_of_ne_zero none)
      rw [if_neg none,digits,List.reverse_cons,List.map_append,List.map_singleton]
      by_cases small : n / 16 = 0
      · rw [if_pos small,small]
        rfl
      · rw [if_neg small,if_neg small]
  rw [padded,padded,last]
  by_cases small : n / 16 = 0
  · have zero : numeral 16 0 = [digit 0] := rfl
    rw [if_pos small,small,zero,List.length_singleton,List.length_singleton,Nat.add_sub_cancel,← List.replicate_succ',
      Nat.sub_add_cancel wide]
  · rw [if_neg small,List.length_append,List.length_singleton,Nat.add_sub_add_right,List.append_assoc]

theorem padded_two {n : Nat} (small : n < 256) : padded 16 2 n = [digit (n / 16),digit (n % 16)] := by
  have one : ∀ m < 16, padded 16 1 m = [digit m] := by decide
  rw [padded_succ (by decide),one (n / 16) (by omega)]
  rfl

theorem hexByte_eq (b : UInt8) : hexByte b = [digit (b.toNat / 16),digit (b.toNat % 16)] := padded_two b.toNat_lt

theorem padded_four {n : Nat} (small : n < 65536) :
    padded 16 4 n = hexByte (UInt8.ofNat (n / 256)) ++ hexByte (UInt8.ofNat n) := by
  have high : (UInt8.ofNat (n / 256)).toNat = n / 256 := by rw [UInt8.toNat_ofNat']; omega
  have low : (UInt8.ofNat n).toNat = n % 256 := UInt8.toNat_ofNat'
  rw [padded_succ (by decide),padded_succ (by decide),Nat.div_div_eq_div_mul,hexByte,high,hexByte_eq,low,
    List.append_assoc,List.singleton_append]
  congr 4 <;> omega

theorem length_hexByte (b : UInt8) : (hexByte b).length = 2 := by
  rw [hexByte_eq]
  rfl

theorem unhex_hexByte (b : UInt8) (text : List UInt8) : unhex (hexByte b ++ text) = (unhex text).map (b :: ·) := by
  have small := b.toNat_lt
  have whole : UInt8.ofNat (16 * (b.toNat / 16) + b.toNat % 16) = b := by
    rw [Nat.div_add_mod,UInt8.ofNat_toNat]
  rw [hexByte_eq,List.cons_append,List.cons_append,List.nil_append,unhex,digitOf_digit (by decide) (by omega),
    digitOf_digit (by decide) (by omega)]
  dsimp only [Option.bind_eq_bind,Option.bind_some]
  rw [whole]

theorem unhex_bytes (bytes : List UInt8) : unhex (bytes.flatMap hexByte) = some bytes := by
  induction bytes with
  | nil => rfl
  | cons b bytes ih => rw [List.flatMap_cons,unhex_hexByte,ih,Option.map_some]

theorem length_unhex {text bytes : List UInt8} (read : unhex text = some bytes) : text.length = 2 * bytes.length := by
  induction text using unhex.induct generalizing bytes with
  | case1 =>
    obtain rfl := Option.some.inj read
    rfl
  | case2 c => cases read
  | case3 a b text ih =>
    rw [unhex] at read
    obtain ⟨high,_,read⟩ := Option.bind_eq_some_iff.mp read
    obtain ⟨low,_,read⟩ := Option.bind_eq_some_iff.mp read
    obtain ⟨rest,tail,rfl⟩ := Option.map_eq_some_iff.mp read
    rw [List.length_cons,List.length_cons,ih tail,List.length_cons]
    omega

theorem unhex_digits {text bytes : List UInt8} (read : unhex text = some bytes) : ∀ c ∈ text, digitOf 16 c ≠ none := by
  induction text using unhex.induct generalizing bytes with
  | case1 => simp
  | case2 c => cases read
  | case3 a b text ih =>
    rw [unhex] at read
    obtain ⟨high,first,read⟩ := Option.bind_eq_some_iff.mp read
    obtain ⟨low,second,read⟩ := Option.bind_eq_some_iff.mp read
    obtain ⟨rest,tail,rfl⟩ := Option.map_eq_some_iff.mp read
    intro c member
    rcases List.mem_cons.mp member with rfl | member
    · simp [first]
    · rcases List.mem_cons.mp member with rfl | member
      · simp [second]
      · exact ih tail c member

end Pairs

section Records

inductive Kind | data | endOfFile | segment | startSegment | linear | startLinear
deriving DecidableEq, Repr

def Kind.code (kind : Kind) : UInt8 := UInt8.ofNat kind.ctorIdx

structure Record where
  kind : Kind
  addr : Nat
  data : List UInt8
deriving DecidableEq, Repr

def Record.bytes (r : Record) : List UInt8 :=
  UInt8.ofNat r.data.length :: UInt8.ofNat (r.addr / 256) :: UInt8.ofNat r.addr :: r.kind.code :: r.data

def sum (bytes : List UInt8) : UInt8 := bytes.foldl (· + ·) 0

structure Record.Valid (r : Record) : Prop where
  addr : r.addr < 65536
  length : r.data.length < 256
  base : r.kind = .segment ∨ r.kind = .linear → r.data.length = 2

theorem Record.Valid.lengthByte {r : Record} (valid : r.Valid) : (UInt8.ofNat r.data.length).toNat = r.data.length := by
  rw [UInt8.toNat_ofNat']
  exact Nat.mod_eq_of_lt valid.length

theorem Record.Valid.addrBytes {r : Record} (valid : r.Valid) :
    256 * (UInt8.ofNat (r.addr / 256)).toNat + (UInt8.ofNat r.addr).toNat = r.addr := by
  have bound := valid.addr
  rw [UInt8.toNat_ofNat',UInt8.toNat_ofNat']
  omega

/-- The line spells the record, with a checksum that makes the sum of its bytes 0. -/
def Spells (line : List UInt8) (r : Record) : Prop :=
  r.Valid ∧ ∃ digits checksum, line = 0x3A :: digits ∧ unhex digits = some (r.bytes ++ [checksum]) ∧ sum (r.bytes ++ [checksum]) = 0

def print (r : Record) : List UInt8 := 0x3A :: (r.bytes ++ [0 - sum r.bytes]).flatMap hexByte

theorem spells_print {r : Record} (valid : r.Valid) : Spells (print r) r := by
  refine ⟨valid,_,_,rfl,unhex_bytes _,?_⟩
  rw [sum,List.foldl_append,← sum,List.foldl_cons,List.foldl_nil]
  grind

theorem length_print (r : Record) : (print r).length = 2 * r.data.length + 11 := by
  have pairs (bytes : List UInt8) : (bytes.flatMap hexByte).length = 2 * bytes.length := by
    induction bytes with
    | nil => rfl
    | cons b bytes ih => rw [List.flatMap_cons,List.length_append,length_hexByte,ih,List.length_cons]; omega
  rw [print,List.length_cons,pairs,List.length_append,Record.bytes]
  simp only [List.length_cons,List.length_nil]
  omega

theorem Spells.length {line : List UInt8} {r : Record} (spells : Spells line r) : line.length = 2 * r.data.length + 11 := by
  obtain ⟨_,digits,checksum,rfl,read,_⟩ := spells
  rw [List.length_cons,length_unhex read,List.length_append,Record.bytes]
  simp only [List.length_cons,List.length_nil]
  omega

theorem Spells.chars {line : List UInt8} {r : Record} (spells : Spells line r) :
    ∃ digits, line = 0x3A :: digits ∧ ∀ c ∈ digits, digitOf 16 c ≠ none := by
  obtain ⟨_,digits,_,rfl,read,_⟩ := spells
  exact ⟨digits,rfl,unhex_digits read⟩

end Records

section Data

/-- Bytes and where they belong. -/
abbrev Piece := Nat × List UInt8

/-- The base of the addresses after the records, and the pieces of data among them. -/
def denote : Nat → List Record → Nat × List Piece
  | base, [] => (base,[])
  | base, r :: rs =>
    match r.kind with
    | .data => ((denote base rs).1,((base + r.addr) % 2 ^ 32,r.data) :: (denote base rs).2)
    | .endOfFile => denote 0 rs
    | .segment => denote (16 * (256 * (r.data.getD 0 0).toNat + (r.data.getD 1 0).toNat)) rs
    | .linear => denote (65536 * (256 * (r.data.getD 0 0).toNat + (r.data.getD 1 0).toNat)) rs
    | .startSegment => denote base rs
    | .startLinear => denote base rs

theorem denote_append (base : Nat) (rs more : List Record) :
    denote base (rs ++ more) = ((denote (denote base rs).1 more).1,(denote base rs).2 ++ (denote (denote base rs).1 more).2) := by
  induction rs generalizing base with
  | nil => rfl
  | cons r rs ih =>
    rw [List.cons_append,denote,denote]
    cases r.kind <;> simp only [ih,List.cons_append]

/-- The base at the start has no part in pieces that lie above the addresses of a single record. -/
theorem denote_far {rs : List Record} (valid : ∀ r ∈ rs, r.Valid) (far : ∀ piece ∈ (denote 0 rs).2, 65536 ≤ piece.1) (base : Nat) :
    (denote base rs).2 = (denote 0 rs).2 := by
  induction rs with
  | nil => rfl
  | cons r rs ih =>
    have ih := ih fun other member => valid other (List.mem_cons_of_mem _ member)
    have near := (valid r List.mem_cons_self).addr
    rw [denote] at far
    rw [denote,denote]
    cases kind : r.kind with
    | data =>
      rw [kind] at far
      have own := far _ List.mem_cons_self
      dsimp only at own
      omega
    | endOfFile | segment | linear => rfl
    | startSegment | startLinear =>
      rw [kind] at far
      exact ih far

/-- Pieces one behind the other, from a base on. -/
def Ascending : Nat → List Piece → Prop
  | _, [] => True
  | base, piece :: pieces => base ≤ piece.1 ∧ Ascending (piece.1 + piece.2.length) pieces

def endOf (base : Nat) (pieces : List Piece) : Nat := pieces.foldl (fun _ piece => piece.1 + piece.2.length) base

/-- A memory with the pieces in it. -/
def place (m : Bytes) (pieces : List Piece) : Bytes := pieces.foldl (fun m piece => m.write piece.1 piece.2) m

/-- What a device of erased flash holds of the pieces. -/
def image (pieces : List Piece) : Bytes := place (fun _ => 0xFF) pieces

theorem ascending_append {base : Nat} {pieces more : List Piece} :
    Ascending base (pieces ++ more) ↔ Ascending base pieces ∧ Ascending (endOf base pieces) more := by
  induction pieces generalizing base with
  | nil => simp [Ascending,endOf]
  | cons piece pieces ih => simp only [List.cons_append,Ascending,ih,endOf,List.foldl_cons,and_assoc]

theorem endOf_append (base : Nat) (pieces more : List Piece) : endOf base (pieces ++ more) = endOf (endOf base pieces) more :=
  List.foldl_append

theorem place_append (m : Bytes) (pieces more : List Piece) : place m (pieces ++ more) = place (place m pieces) more :=
  List.foldl_append

theorem Ascending.le_endOf {base : Nat} {pieces : List Piece} (ascending : Ascending base pieces) : base ≤ endOf base pieces := by
  induction pieces generalizing base with
  | nil => exact Nat.le_refl base
  | cons piece pieces ih =>
    obtain ⟨low,rest⟩ := ascending
    exact Nat.le_trans (Nat.le_trans low (Nat.le_add_right _ _)) (ih rest)

theorem Ascending.weaken {low base : Nat} {pieces : List Piece} (ascending : Ascending base pieces) (below : low ≤ base) :
    Ascending low pieces := by
  cases pieces with
  | nil => trivial
  | cons piece pieces => exact ⟨Nat.le_trans below ascending.1,ascending.2⟩

/-- Where the data ends: a piece without bytes has no part in it. -/
def dataEnd (base : Nat) (pieces : List Piece) : Nat :=
  pieces.foldl (fun last piece => if piece.2 = [] then last else piece.1 + piece.2.length) base

theorem Ascending.inside {base : Nat} {pieces : List Piece} (ascending : Ascending base pieces) :
    ∀ piece ∈ pieces, base ≤ piece.1 ∧ piece.1 + piece.2.length ≤ endOf base pieces := by
  induction pieces generalizing base with
  | nil => simp
  | cons first pieces ih =>
    obtain ⟨low,rest⟩ := ascending
    have last : first.1 + first.2.length ≤ endOf base (first :: pieces) := rest.le_endOf
    intro piece member
    rcases List.mem_cons.mp member with rfl | member
    · exact ⟨low,last⟩
    · obtain ⟨above,below⟩ := ih rest piece member
      exact ⟨by omega,below⟩

/-- A memory is left as it was before the pieces and behind them. -/
theorem Ascending.place_outside {base : Nat} {pieces : List Piece} (ascending : Ascending base pieces) (m : Bytes) {a : Nat}
    (outside : a < base ∨ endOf base pieces ≤ a) : place m pieces a = m a := by
  induction pieces generalizing base m with
  | nil => rfl
  | cons piece pieces ih =>
    obtain ⟨low,rest⟩ := ascending
    have last : piece.1 + piece.2.length ≤ endOf base (piece :: pieces) := rest.le_endOf
    have outside' : a < piece.1 ∨ piece.1 + piece.2.length ≤ a := by omega
    have behind : a < piece.1 + piece.2.length ∨ endOf (piece.1 + piece.2.length) pieces ≤ a := by
      rcases outside with before | after
      · exact Or.inl (by omega)
      · exact Or.inr after
    rw [place,List.foldl_cons,← place,ih rest _ behind]
    exact m.write_outside outside'

theorem place_congr {m m' : Bytes} {a : Nat} (same : m a = m' a) (pieces : List Piece) : place m pieces a = place m' pieces a := by
  induction pieces generalizing m m' with
  | nil => exact same
  | cons piece pieces ih =>
    apply ih
    simp only [Bytes.write]
    rw [same]

theorem endOf_congr {pieces : List Piece} (some : pieces ≠ []) (base base' : Nat) : endOf base pieces = endOf base' pieces := by
  cases pieces with
  | nil => exact absurd rfl some
  | cons piece pieces => rfl

/-- The bytes from a base on, with erased ones where there is no data. -/
def fill : Nat → List Piece → List UInt8
  | _, [] => []
  | base, piece :: pieces =>
    List.replicate (piece.1 - base) 0xFF ++ piece.2 ++ fill (piece.1 + piece.2.length) pieces

theorem fill_eq {base : Nat} {pieces : List Piece} (ascending : Ascending base pieces) {m : Bytes}
    (erased : ∀ a, base ≤ a → m a = 0xFF) : fill base pieces = (place m pieces).read base (endOf base pieces - base) := by
  induction pieces generalizing base m with
  | nil =>
    rw [endOf,List.foldl_nil,Nat.sub_self]
    rfl
  | cons piece pieces ih =>
    have whole := ascending
    obtain ⟨low,rest⟩ := ascending
    have last : piece.1 + piece.2.length ≤ endOf base (piece :: pieces) := rest.le_endOf
    have left := ih rest (m := m.write piece.1 piece.2) fun a above =>
      (m.write_outside (Or.inr above)).trans (erased a (by omega))
    have split : endOf base (piece :: pieces) - base =
        (piece.1 - base) + (piece.2.length + (endOf base (piece :: pieces) - (piece.1 + piece.2.length))) := by omega
    have gap : (place m (piece :: pieces)).read base (piece.1 - base) = List.replicate (piece.1 - base) 0xFF := by
      apply Bytes.read_replicate
      intro a above below
      rw [place,List.foldl_cons,← place,rest.place_outside _ (Or.inl (by omega)),m.write_outside (Or.inl (by omega))]
      exact erased a above
    have data : (place m (piece :: pieces)).read piece.1 piece.2.length = piece.2 := by
      have same : (place m (piece :: pieces)).read piece.1 piece.2.length = (m.write piece.1 piece.2).read piece.1 piece.2.length := by
        apply Bytes.read_congr
        intro a _ below
        exact rest.place_outside _ (Or.inl below)
      rw [same,Bytes.read_write]
    rw [split,Bytes.read_add,Bytes.read_add,Nat.add_sub_cancel' low,gap,data,fill,left,List.append_assoc]
    rfl

end Data

end JcaFirmware.Foundation.IntelHex
