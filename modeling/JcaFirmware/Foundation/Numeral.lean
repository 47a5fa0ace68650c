import Mathlib.Algebra.Group.Nat.Defs
import Mathlib.Data.Nat.Digits.Defs
import Mathlib.Data.Nat.Digits.Lemmas

/-! Numbers as text in bytes, as `printf` writes and `scanf` reads them. -/
namespace JcaFirmware.Foundation.Numeral

def ascii (s : String) : List UInt8 := s.toList.map fun c => UInt8.ofNat c.toNat

-- The hexadecimal digits are the upper case ones of `%X`.
def digit (d : Nat) : UInt8 := UInt8.ofNat (if d < 10 then 0x30 + d else 0x37 + d)

def numeral (base n : Nat) : List UInt8 := if n = 0 then [digit 0] else (base.digits n).reverse.map digit

/-- The numeral filled up with zeros from the left. -/
def padded (base width n : Nat) : List UInt8 :=
  List.replicate (width - (numeral base n).length) (digit 0) ++ numeral base n

example : padded 10 4 57 = ascii "0057" := by decide

/-- A digit in either case. -/
def digitOf (base : Nat) (c : UInt8) : Option Nat :=
  let d := if 0x30 ≤ c ∧ c ≤ 0x39 then c.toNat - 0x30
    else if 0x41 ≤ c ∧ c ≤ 0x46 then c.toNat - 0x37
    else if 0x61 ≤ c ∧ c ≤ 0x66 then c.toNat - 0x57
    else base
  if d < base then some d else none

def isSpace (c : UInt8) : Bool := c = 0x20 || (0x09 ≤ c && c ≤ 0x0D)

def isX (c : UInt8) : Bool := c = 0x78 || c = 0x58

def readDigits (base : Nat) : Nat → List UInt8 → Nat × List UInt8
  | n, [] => (n,[])
  | n, c :: text =>
    match digitOf base c with
    | some d => readDigits base (base * n + d) text
    | none => (n,c :: text)

def scanMax : Nat := 2 ^ 32 - 1

def hexPrefix (base : Nat) (text : List UInt8) : List UInt8 :=
  match text with
  | zero :: x :: rest => if base = 16 ∧ zero = 0x30 ∧ isX x then rest else text
  | _ => text

/-- One conversion of `scanf` into 32 bits, with a field width: spaces, a sign, the
hexadecimal prefix, and digits, of which one must be there. -/
def scan (base width : Nat) (text : List UInt8) : Option (Nat × List UInt8) :=
  let text := text.dropWhile isSpace
  let field := text.take width
  let negative := field.head? = some 0x2D
  let digits := hexPrefix base (if negative ∨ field.head? = some 0x2B then field.tail else field)
  if digits.head?.bind (digitOf base) = none then none
  else
    let (n,left) := readDigits base 0 digits
    let value := if scanMax < n then scanMax else if negative then (2 ^ 32 - n) % 2 ^ 32 else n
    some (value,text.drop (field.length - left.length))

theorem digitOf_digit {base d : Nat} (small : base ≤ 16) (inside : d < base) : digitOf base (digit d) = some d := by
  have bound : d < 16 := Nat.lt_of_lt_of_le inside small
  have value : (if 0x30 ≤ digit d ∧ digit d ≤ 0x39 then (digit d).toNat - 0x30
      else if 0x41 ≤ digit d ∧ digit d ≤ 0x46 then (digit d).toNat - 0x37
      else if 0x61 ≤ digit d ∧ digit d ≤ 0x66 then (digit d).toNat - 0x57 else base) = d := by
    clear inside small
    interval_cases d <;> rfl
  rw [digitOf,value,if_pos inside]

theorem digit_plain {d : Nat} (inside : d < 16) :
    isSpace (digit d) = false ∧ isX (digit d) = false ∧ digit d ≠ 0x2D ∧ digit d ≠ 0x2B ∧ digit d ≠ 0 := by
  interval_cases d <;> decide

/-- What follows is not taken for part of the number. -/
def Stops (base : Nat) (rest : List UInt8) : Prop := ∀ c ∈ rest.head?, digitOf base c = none ∧ isX c = false

theorem readDigits_map {base : Nat} (small : base ≤ 16) (ds : List Nat) (inside : ∀ d ∈ ds, d < base)
    {rest : List UInt8} (stops : Stops base rest) (n : Nat) :
    readDigits base n (ds.map digit ++ rest) = (ds.foldl (fun n d => base * n + d) n,rest) := by
  induction ds generalizing n with
  | nil =>
    cases rest with
    | nil => rfl
    | cons c rest => rw [List.map_nil,List.nil_append,readDigits,(stops c rfl).1]; rfl
  | cons d ds ih =>
    rw [List.map_cons,List.cons_append,readDigits,digitOf_digit small (inside d (by simp)),List.foldl_cons]
    exact ih (fun d member => inside d (by simp [member])) _

theorem padded_digits {base : Nat} (big : 1 < base) (width n : Nat) :
    ∃ ds, padded base width n = ds.map digit ∧ ds ≠ [] ∧ (∀ d ∈ ds, d < base) ∧
      ds.foldl (fun n d => base * n + d) 0 = n := by
  have zeros (k : Nat) : (List.replicate k 0).foldl (fun n d => base * n + d) 0 = 0 := by
    induction k with
    | zero => rfl
    | succ k ih => rw [List.replicate_succ,List.foldl_cons,Nat.mul_zero,ih]
  rw [padded]
  by_cases none : n = 0
  · refine ⟨List.replicate (width - (numeral base n).length) 0 ++ [0],?_,by simp,?_,?_⟩
    · rw [List.map_append,List.map_replicate,numeral,if_pos none,List.map_singleton]
    · intro d member
      rw [← List.replicate_succ',List.mem_replicate] at member
      omega
    · rw [← List.replicate_succ',zeros,none]
  · refine ⟨List.replicate (width - (numeral base n).length) 0 ++ (base.digits n).reverse,?_,?_,?_,?_⟩
    · rw [List.map_append,List.map_replicate,numeral,if_neg none]
    · simp [Nat.digits_ne_nil_iff_ne_zero.mpr none]
    · intro d member
      rcases List.mem_append.mp member with front | own
      · rw [(List.mem_replicate.mp front).2]
        omega
      · exact Nat.digits_lt_base big (List.mem_reverse.mp own)
    · rw [List.foldl_append,zeros,List.foldl_reverse]
      have value := Nat.ofDigits_digits base n
      rw [Nat.ofDigits_eq_foldr] at value
      simpa [Nat.add_comm] using value

theorem readDigits_padded {base : Nat} (big : 1 < base) (small : base ≤ 16) (width n : Nat) {rest : List UInt8}
    (stops : Stops base rest) : readDigits base 0 (padded base width n ++ rest) = (n,rest) := by
  obtain ⟨ds,text,_,inside,value⟩ := padded_digits big width n
  rw [text,readDigits_map small ds inside stops 0,value]

/-- Numbers are told apart by what is printed of them, up to where they stop. -/
theorem padded_append_inj {base : Nat} (big : 1 < base) (small : base ≤ 16) {width n n' : Nat} {rest rest' : List UInt8}
    (stops : Stops base rest) (stops' : Stops base rest') (same : padded base width n ++ rest = padded base width n' ++ rest') :
    n = n' ∧ rest = rest' := by
  have read := readDigits_padded big small width n stops
  rw [same,readDigits_padded big small width n' stops',Prod.mk.injEq] at read
  exact ⟨read.1.symm,read.2.symm⟩

theorem Stops.take {base : Nat} {rest : List UInt8} (stops : Stops base rest) (k : Nat) : Stops base (rest.take k) := by
  intro c first
  cases k with
  | zero => exact absurd first (by simp)
  | succ k =>
    cases rest with
    | nil => exact absurd first (by simp)
    | cons c' rest => exact stops c first

theorem hexPrefix_digits {base d : Nat} {ds : List Nat} (inside : ∀ d' ∈ ds, d' < 16) {rest : List UInt8}
    (stops : Stops base rest) :
    hexPrefix base (digit d :: (ds.map digit ++ rest)) = digit d :: (ds.map digit ++ rest) := by
  cases ds with
  | nil =>
    cases rest with
    | nil => rfl
    | cons c rest =>
      rw [List.map_nil,List.nil_append,hexPrefix,if_neg]
      exact fun ⟨_,_,x⟩ => absurd ((stops c rfl).2.symm.trans x) (by simp)
  | cons d' ds =>
    rw [List.map_cons,List.cons_append,hexPrefix,if_neg]
    exact fun ⟨_,_,x⟩ => absurd ((digit_plain (inside d' (by simp))).2.1.symm.trans x) (by simp)

/-- What has been printed is read back, up to the end of the field or to something
that is no part of a number. -/
theorem scan_padded {base : Nat} (big : 1 < base) (small : base ≤ 16) {width field n : Nat} (word : n ≤ scanMax)
    (fits : (padded base width n).length ≤ field) {rest : List UInt8}
    (stops : (padded base width n).length < field → Stops base rest) :
    scan base field (padded base width n ++ rest) = some (n,rest) := by
  obtain ⟨ds,text,filled,inside,value⟩ := padded_digits big width n
  rw [text,List.length_map] at fits stops
  rw [text]
  have own : (ds.map digit ++ rest).take field = ds.map digit ++ rest.take (field - ds.length) := by
    rw [List.take_append,List.length_map,List.take_of_length_le (by rwa [List.length_map])]
  have stops' : Stops base (rest.take (field - ds.length)) := by
    rcases Nat.lt_or_eq_of_le fits with short | full
    · exact (stops short).take _
    · rw [full,Nat.sub_self,List.take_zero]
      exact fun c none => absurd none (by simp)
  have read := readDigits_map small ds inside stops' 0
  rw [value] at read
  have taken : (ds.map digit ++ rest).drop
      ((ds.map digit ++ rest.take (field - ds.length)).length - (rest.take (field - ds.length)).length) = rest := by
    rw [List.length_append,Nat.add_sub_cancel,List.drop_left]
  cases ds with
  | nil => exact absurd rfl filled
  | cons d ds =>
    have plain (d' : Nat) (member : d' ∈ d :: ds) : d' < 16 := Nat.lt_of_lt_of_le (inside d' member) small
    obtain ⟨space,_,minus,plus,_⟩ := digit_plain (plain d (by simp))
    have whole := @hexPrefix_digits base d ds (fun d' member => plain d' (by simp [member])) _ stops'
    simp only [List.map_cons,List.cons_append] at own read taken ⊢
    have unsigned : ¬ (some (digit d) = some 0x2D ∨ some (digit d) = some 0x2B) := by simp [minus,plus]
    have found : ¬ (some (digit d)).bind (digitOf base) = none := by
      simp [digitOf_digit small (inside d (by simp))]
    unfold scan
    dsimp only
    rw [List.dropWhile_cons_of_neg (by simp [space]),own,List.head?_cons,if_neg unsigned,whole,List.head?_cons,
      if_neg found,read]
    dsimp only
    rw [if_neg (Nat.not_lt.mpr word),if_neg (by simp [minus]),taken]

theorem mem_padded {base : Nat} (big : 1 < base) {width n : Nat} {c : UInt8} (member : c ∈ padded base width n) :
    ∃ d < base, c = digit d := by
  obtain ⟨ds,text,_,inside,_⟩ := padded_digits big width n
  rw [text] at member
  obtain ⟨d,own,rfl⟩ := List.mem_map.mp member
  exact ⟨d,inside d own,rfl⟩

theorem numeral_length {base : Nat} (big : 1 < base) {k n : Nat} (pos : 0 < k) (bound : n < base ^ k) :
    (numeral base n).length ≤ k := by
  rw [numeral]
  split
  · exact pos
  · rw [List.length_map,List.length_reverse]
    exact (Nat.digits_length_le_iff big n).mpr bound

theorem padded_length {base : Nat} (big : 1 < base) {width n : Nat} (pos : 0 < width) (bound : n < base ^ width) :
    (padded base width n).length = width := by
  have fits := numeral_length big pos bound
  rw [padded,List.length_append,List.length_replicate]
  omega

theorem padded_succ {base : Nat} (big : 1 < base) {width n : Nat} (pos : 0 < width) (bound : n < base ^ width) :
    padded base (width + 1) n = digit 0 :: padded base width n := by
  have fits := numeral_length big pos bound
  rw [padded,padded,Nat.succ_sub fits,List.replicate_succ,List.cons_append]

theorem numeral_eq_padded (base n : Nat) : numeral base n = padded base 0 n := by
  rw [padded,Nat.zero_sub,List.replicate_zero,List.nil_append]

theorem scan_numeral {base : Nat} (big : 1 < base) (small : base ≤ 16) {field n : Nat} (word : n ≤ scanMax)
    (fits : (numeral base n).length ≤ field) {rest : List UInt8} (stops : Stops base rest) :
    scan base field (numeral base n ++ rest) = some (n,rest) := by
  rw [numeral_eq_padded] at fits ⊢
  exact scan_padded big small word fits fun _ => stops

end JcaFirmware.Foundation.Numeral
