import Mathlib.Data.List.TakeWhile
import JcaFirmware.Foundation.Numeral

/-! The texts a conversion of `scanf` takes a number from, as a grammar: spaces, a sign,
the prefix of a hexadecimal number, and the longest run of digits in the field. -/
namespace JcaFirmware.Foundation.Numeral

variable {base width : Nat} {text : List UInt8}

def isDigit (base : Nat) (c : UInt8) : Bool := (digitOf base c).isSome

def value (base : Nat) (digits : List UInt8) (n : Nat) : Nat :=
  digits.foldl (fun n c => base * n + (digitOf base c).getD 0) n

/-- The 32 bits that are stored for a sign and a number. -/
def signedValue (sign : List UInt8) (n : Nat) : Nat :=
  if scanMax < n then scanMax else if sign = [0x2D] then (2 ^ 32 - n) % 2 ^ 32 else n

/-- The parts of a text in front of which a conversion stands. -/
structure Taken (base width : Nat) (text spaces sign mark digits rest : List UInt8) : Prop where
  split : text = spaces ++ (sign ++ (mark ++ (digits ++ rest)))
  blank : ∀ c ∈ spaces, isSpace c = true
  signed : sign = [0x2D] ∨ sign = [0x2B] ∨ sign = []
  marked : (base = 16 ∧ ∃ x, isX x = true ∧ mark = [0x30,x]) ∨
    mark = [] ∧ (base = 16 → ∀ x left, (digits ++ rest).take (width - sign.length) = 0x30 :: x :: left → isX x = false)
  filled : digits ≠ []
  all : ∀ c ∈ digits, isDigit base c = true
  fits : (sign ++ mark ++ digits).length ≤ width
  longest : ∀ c ∈ (rest.take (width - (sign ++ mark ++ digits).length)).head?, isDigit base c = false

def Reads (base width : Nat) (text : List UInt8) (n : Nat) : Prop :=
  ∃ spaces sign mark digits rest, Taken base width text spaces sign mark digits rest ∧ n = signedValue sign (value base digits 0)

theorem readDigits_eq (text : List UInt8) (n : Nat) :
    readDigits base n text = (value base (text.takeWhile (isDigit base)) n,text.dropWhile (isDigit base)) := by
  induction text generalizing n with
  | nil => rfl
  | cons c text ih =>
    cases digit : digitOf base c with
    | none =>
      have stops : ¬ isDigit base c = true := by simp [isDigit,digit]
      rw [readDigits,digit,List.takeWhile_cons_of_neg stops,List.dropWhile_cons_of_neg stops]
      rfl
    | some d =>
      have goes : isDigit base c = true := by simp [isDigit,digit]
      rw [readDigits,digit,List.takeWhile_cons_of_pos goes,List.dropWhile_cons_of_pos goes]
      dsimp only
      rw [ih,value,value,List.foldl_cons,digit]
      rfl

theorem isDigit_range {c : UInt8} (digit : isDigit base c = true) :
    (0x30 ≤ c ∧ c ≤ 0x39) ∨ (0x41 ≤ c ∧ c ≤ 0x46) ∨ (0x61 ≤ c ∧ c ≤ 0x66) := by
  by_contra outside
  simp only [not_or] at outside
  rw [isDigit,digitOf,if_neg outside.1,if_neg outside.2.1,if_neg outside.2.2,if_neg (Nat.lt_irrefl base)] at digit
  cases digit

theorem isDigit_plain {c : UInt8} (digit : isDigit base c = true) :
    isSpace c = false ∧ isX c = false ∧ c ≠ 0x2D ∧ c ≠ 0x2B := by
  have range := isDigit_range digit
  simp only [UInt8.le_iff_toNat_le,isSpace,isX,ne_eq,← UInt8.toNat_inj,Bool.or_eq_false_iff,decide_eq_false_iff_not,
    Bool.and_eq_false_iff] at range ⊢
  simp only [UInt8.reduceToNat] at range ⊢
  omega

/-- What is left of a field behind its front. -/
theorem take_behind {front body : List UInt8} (field : text.take width = front ++ body) :
    (body ++ text.drop width).take (width - front.length) = body := by
  have whole : text = front ++ (body ++ text.drop width) := by
    rw [← List.append_assoc,← field,List.take_append_drop]
  have short : front.length ≤ width := by
    have length := congrArg List.length field
    rw [List.length_take,List.length_append] at length
    omega
  have again := field
  rw [whole,List.take_append,List.take_of_length_le short] at again
  exact List.append_cancel_left again

theorem signed_split (field : List UInt8) : ∃ sign body, field = sign ++ body ∧
    (sign = [0x2D] ∨ sign = [0x2B] ∨ sign = [] ∧ body.head? ≠ some 0x2D ∧ body.head? ≠ some 0x2B) := by
  cases field with
  | nil => exact ⟨[],[],rfl,Or.inr (Or.inr ⟨rfl,by simp,by simp⟩)⟩
  | cons c body =>
    by_cases minus : c = 0x2D
    · exact ⟨[c],body,rfl,Or.inl (by rw [minus])⟩
    · by_cases plus : c = 0x2B
      · exact ⟨[c],body,rfl,Or.inr (Or.inl (by rw [plus]))⟩
      · exact ⟨[],c :: body,rfl,Or.inr (Or.inr ⟨rfl,by simpa using minus,by simpa using plus⟩)⟩

theorem marked_split (base : Nat) (body : List UInt8) : ∃ mark, body = mark ++ hexPrefix base body ∧
    ((base = 16 ∧ ∃ x, isX x = true ∧ mark = [0x30,x]) ∨
      mark = [] ∧ (base = 16 → ∀ x left, body = 0x30 :: x :: left → isX x = false)) := by
  cases body with
  | nil => exact ⟨[],rfl,Or.inr ⟨rfl,fun _ x left none => by cases none⟩⟩
  | cons zero body =>
    cases body with
    | nil => exact ⟨[],rfl,Or.inr ⟨rfl,fun _ x left none => by cases none⟩⟩
    | cons x left =>
      rw [hexPrefix]
      by_cases marked : base = 16 ∧ zero = 0x30 ∧ isX x
      · obtain ⟨hex,rfl,isMark⟩ := marked
        exact ⟨[0x30,x],by rw [if_pos ⟨hex,rfl,isMark⟩]; rfl,Or.inl ⟨hex,x,isMark,rfl⟩⟩
      · refine ⟨[],by rw [if_neg marked]; rfl,Or.inr ⟨rfl,fun hex x' left' same => ?_⟩⟩
        obtain ⟨rfl,rest⟩ := List.cons.inj same
        obtain ⟨rfl,rfl⟩ := List.cons.inj rest
        exact Bool.eq_false_iff.mpr fun isMark => marked ⟨hex,rfl,isMark⟩

/-- A conversion by the parts of its field. -/
theorem scan_field {sign body : List UInt8} {n : Nat} (field : (text.dropWhile isSpace).take width = sign ++ body)
    (signed : sign = [0x2D] ∨ sign = [0x2B] ∨ sign = [] ∧ body.head? ≠ some 0x2D ∧ body.head? ≠ some 0x2B) :
    (∃ rest, scan base width text = some (n,rest)) ↔
      (hexPrefix base body).takeWhile (isDigit base) ≠ [] ∧
        n = signedValue sign (value base ((hexPrefix base body).takeWhile (isDigit base)) 0) := by
  have digits : (if (sign ++ body).head? = some 0x2D ∨ (sign ++ body).head? = some 0x2B then (sign ++ body).tail
      else sign ++ body) = body := by
    rcases signed with rfl | rfl | ⟨rfl,minus,plus⟩
    · rfl
    · rfl
    · rw [List.nil_append,if_neg (not_or.mpr ⟨minus,plus⟩)]
  have negative : (sign ++ body).head? = some 0x2D ↔ sign = [0x2D] := by
    rcases signed with rfl | rfl | ⟨rfl,minus,plus⟩
    · simp
    · simp
    · simpa using minus
  have none : (hexPrefix base body).head?.bind (digitOf base) = none ↔
      (hexPrefix base body).takeWhile (isDigit base) = [] := by
    cases hexPrefix base body with
    | nil => simp
    | cons c left => cases digit : digitOf base c <;> simp [isDigit,digit]
  rw [scan,field]
  dsimp only
  rw [digits,readDigits_eq]
  by_cases filled : (hexPrefix base body).takeWhile (isDigit base) = []
  · rw [if_pos (none.mpr filled)]
    simp [filled]
  · rw [if_neg fun missing => filled (none.mp missing),signedValue]
    simp only [negative,Option.some.injEq,Prod.mk.injEq,exists_and_left,exists_eq',and_true,ne_eq,filled,
      not_false_eq_true,true_and]
    exact eq_comm

theorem dropWhile_head {p : UInt8 → Bool} : ∀ c ∈ (text.dropWhile p).head?, p c = false := by
  intro c here
  have stops := List.head?_dropWhile_not p text
  rwa [Option.mem_def.mp here] at stops

section Taken

variable {spaces sign mark digits rest : List UInt8} (taken : Taken base width text spaces sign mark digits rest)
include taken

/-- The field starts with a sign, with the prefix or with a digit. -/
theorem Taken.head (c : UInt8) (here : c ∈ (mark ++ (digits ++ rest)).head?) : isSpace c = false ∧ c ≠ 0x2D ∧ c ≠ 0x2B := by
  rcases taken.marked with ⟨_,x,_,rfl⟩ | ⟨rfl,_⟩
  · obtain rfl : 0x30 = c := Option.some.inj here
    decide
  · obtain ⟨d,more,same⟩ := List.exists_cons_of_ne_nil taken.filled
    rw [List.nil_append,same,List.cons_append,List.head?_cons] at here
    obtain rfl : d = c := Option.some.inj here
    obtain ⟨blank,_,minus,plus⟩ := isDigit_plain (taken.all d (by simp [same]))
    exact ⟨blank,minus,plus⟩

theorem Taken.unspaced : text.dropWhile isSpace = sign ++ (mark ++ (digits ++ rest)) := by
  rw [taken.split,List.dropWhile_append_of_pos taken.blank]
  rcases taken.signed with rfl | rfl | rfl
  · rfl
  · rfl
  · rw [List.nil_append]
    cases front : mark ++ (digits ++ rest) with
    | nil => rfl
    | cons c more =>
      have blank := (taken.head c (by rw [front]; rfl)).1
      rw [List.dropWhile_cons_of_neg (by simp [blank])]

theorem Taken.field : (text.dropWhile isSpace).take width =
    sign ++ (mark ++ (digits ++ rest.take (width - (sign ++ mark ++ digits).length))) := by
  have fits := taken.fits
  have whole : sign ++ (mark ++ (digits ++ rest)) = (sign ++ mark ++ digits) ++ rest := by simp
  rw [taken.unspaced,whole,List.take_append,List.take_of_length_le fits]
  simp

theorem Taken.scan : ∃ left, Numeral.scan base width text = some (signedValue sign (value base digits 0),left) := by
  have field := taken.field
  have longest := taken.longest
  have fits := taken.fits
  generalize cut : rest.take (width - (sign ++ mark ++ digits).length) = left at field longest
  have front (c : UInt8) (here : c ∈ (mark ++ (digits ++ left)).head?) : c ∈ (mark ++ (digits ++ rest)).head? := by
    obtain ⟨d,more,same⟩ := List.exists_cons_of_ne_nil taken.filled
    cases mark with
    | nil => simpa [same] using here
    | cons zero mark => exact here
  have signed : sign = [0x2D] ∨ sign = [0x2B] ∨ sign = [] ∧
      (mark ++ (digits ++ left)).head? ≠ some 0x2D ∧ (mark ++ (digits ++ left)).head? ≠ some 0x2B :=
    taken.signed.imp_right (Or.imp_right fun none => ⟨none,fun minus => (taken.head _ (front _ minus)).2.1 rfl,
      fun plus => (taken.head _ (front _ plus)).2.2 rfl⟩)
  have unmarked : hexPrefix base (mark ++ (digits ++ left)) = digits ++ left := by
    rcases taken.marked with ⟨rfl,x,isMark,rfl⟩ | ⟨rfl,plain⟩
    · exact if_pos ⟨rfl,rfl,isMark⟩
    · have window : (digits ++ rest).take (width - sign.length) = digits ++ left := by
        rw [List.append_nil,List.length_append] at cut fits
        rw [List.take_append,List.take_of_length_le (by omega),← cut,Nat.sub_sub]
      obtain ⟨mark,split,⟨hex,x,isMark,rfl⟩ | ⟨rfl,_⟩⟩ := marked_split base (digits ++ left)
      · rw [plain hex x _ (window.trans split)] at isMark
        cases isMark
      · exact split.symm
  have run : (digits ++ left).takeWhile (isDigit base) = digits := by
    rw [List.takeWhile_append_of_pos taken.all]
    cases left with
    | nil => simp
    | cons c left =>
      have stops := longest c rfl
      rw [List.takeWhile_cons_of_neg (by simp [stops]),List.append_nil]
  refine (scan_field field signed).mpr ?_
  rw [unmarked,run]
  exact ⟨taken.filled,rfl⟩

end Taken

/-- `scanf` takes a number from a text exactly when the text stands in the grammar. -/
theorem scan_reads {n : Nat} : (∃ rest, scan base width text = some (n,rest)) ↔ Reads base width text n := by
  constructor
  · intro scanned
    obtain ⟨sign,body,field,signed⟩ := signed_split ((text.dropWhile isSpace).take width)
    obtain ⟨mark,marked,kind⟩ := marked_split base body
    obtain ⟨filled,value⟩ := (scan_field field signed).mp scanned
    have digits := List.takeWhile_append_dropWhile (p := isDigit base) (l := hexPrefix base body)
    have whole : (sign ++ mark ++ (hexPrefix base body).takeWhile (isDigit base)) ++ (hexPrefix base body).dropWhile (isDigit base) =
        (text.dropWhile isSpace).take width := by
      rw [List.append_assoc,digits,List.append_assoc,← marked,← field]
    have split := List.takeWhile_append_dropWhile (p := isSpace) (l := text)
    have halves := List.take_append_drop width (text.dropWhile isSpace)
    refine ⟨text.takeWhile isSpace,sign,mark,(hexPrefix base body).takeWhile (isDigit base),
      (hexPrefix base body).dropWhile (isDigit base) ++ (text.dropWhile isSpace).drop width,⟨?_,?_,?_,?_,filled,?_,?_,?_⟩,value⟩
    · rw [← List.append_assoc (List.takeWhile (isDigit base) _),digits,← List.append_assoc mark,← marked,← List.append_assoc sign,
        ← field,halves,split]
    · exact fun c member => List.mem_takeWhile_imp member
    · exact signed.imp_right (Or.imp_right And.left)
    · refine kind.imp_right fun ⟨unmarked,plain⟩ => ⟨unmarked,fun hex x left same => plain hex x left ?_⟩
      rw [unmarked,List.nil_append] at marked
      rwa [← List.append_assoc,digits,← marked,take_behind field] at same
    · exact fun c member => List.mem_takeWhile_imp member
    · have length := congrArg List.length whole
      rw [List.length_append,List.length_take] at length
      omega
    · rw [take_behind whole.symm]
      exact dropWhile_head
  · rintro ⟨spaces,sign,mark,digits,rest,taken,rfl⟩
    exact taken.scan

theorem reads_iff {n m : Nat} {rest : List UInt8} (scanned : scan base width text = some (n,rest)) :
    Reads base width text m ↔ m = n := by
  rw [← scan_reads,scanned]
  constructor
  · rintro ⟨_,same⟩
    exact (Prod.mk.inj (Option.some.inj same)).1.symm
  · rintro rfl
    exact ⟨rest,rfl⟩

theorem exists_reads {p : Nat → Prop} {n : Nat} {rest : List UInt8} (scanned : scan base width text = some (n,rest)) :
    (∃ m, Reads base width text m ∧ p m) ↔ p n := by
  simp only [reads_iff scanned,exists_eq_left]

theorem not_reads {n : Nat} (failed : scan base width text = none) : ¬ Reads base width text n := by
  rw [← scan_reads,failed]
  simp

theorem digitOf_lt {c : UInt8} {d : Nat} (digit : digitOf base c = some d) : d < base := by
  unfold digitOf at digit
  obtain ⟨small,same⟩ := Option.ite_none_right_eq_some.mp digit
  exact Option.some.inj same ▸ small

theorem value_lt (positive : 0 < base) (digits : List UInt8) (n : Nat) :
    value base digits n < base ^ digits.length * (n + 1) := by
  induction digits generalizing n with
  | nil => simp [value]
  | cons c digits ih =>
    have inside : (digitOf base c).getD 0 < base := by
      cases digit : digitOf base c with
      | none => exact positive
      | some d => exact digitOf_lt digit
    have next := ih (base * n + (digitOf base c).getD 0)
    have more : base * n + (digitOf base c).getD 0 + 1 ≤ base * (n + 1) := by
      rw [Nat.mul_add]
      omega
    rw [List.length_cons,Nat.pow_succ,Nat.mul_assoc]
    exact Nat.lt_of_lt_of_le next (Nat.mul_le_mul_left _ more)

/-- Digits that fill the field are read as they stand. -/
theorem reads_digits {digits : List UInt8} {n : Nat} (count : digits.length = width) (filled : digits ≠ [])
    (all : ∀ c ∈ digits, isDigit base c = true) (word : value base digits 0 ≤ scanMax) (rest : List UInt8) :
    Reads base width (digits ++ rest) n ↔ n = value base digits 0 := by
  have taken : Taken base width (digits ++ rest) [] [] [] digits rest := by
    refine ⟨rfl,by simp,Or.inr (Or.inr rfl),Or.inr ⟨rfl,fun _ x left field => ?_⟩,filled,all,?_,?_⟩
    · rw [List.length_nil,Nat.sub_zero,List.take_left' count] at field
      exact (isDigit_plain (all x (by simp [field]))).2.1
    · simp [count]
    · simp [count]
  obtain ⟨left,scanned⟩ := taken.scan
  rw [signedValue,if_neg (Nat.not_lt.mpr word),if_neg (by simp)] at scanned
  exact reads_iff scanned

section Number

/-- A number as it stands in a text, of any count of digits, before it is stored. -/
def number (base : Nat) (text : List UInt8) : Option (Int × List UInt8) :=
  let text := text.dropWhile isSpace
  let negative := text.head? = some 0x2D
  let digits := hexPrefix base (if negative ∨ text.head? = some 0x2B then text.tail else text)
  if digits.head?.bind (digitOf base) = none then none
  else
    let (n,left) := readDigits base 0 digits
    some (if negative then -(n : Int) else n,left)

/-- What 32 bits keep of a number: the highest value of one that is too long. -/
def stored (n : Int) : Nat := if scanMax < n.natAbs then scanMax else (n % 2 ^ 32).toNat

theorem hexPrefix_suffix (base : Nat) (text : List UInt8) : hexPrefix base text <:+ text := by
  obtain ⟨mark,split,_⟩ := marked_split base text
  exact ⟨mark,split.symm⟩

theorem stored_eq (n : Nat) (negative : Prop) [Decidable negative] :
    stored (if negative then -(n : Int) else n) =
      if scanMax < n then scanMax else if negative then (2 ^ 32 - n) % 2 ^ 32 else n := by
  have size : (if negative then -(n : Int) else n).natAbs = n := by
    split_ifs
    · rw [Int.natAbs_neg,Int.natAbs_natCast]
    · exact Int.natAbs_natCast n
  rw [stored,size]
  split_ifs with long minus
  · rfl
  · rw [scanMax] at long
    omega
  · rw [scanMax] at long
    omega

/-- A conversion without a width reads a number in full, and stores what fits. -/
theorem scan_number (wide : text.length ≤ width) :
    scan base width text = (number base text).map fun found => (stored found.1,found.2) := by
  have whole : (text.dropWhile isSpace).take width = text.dropWhile isSpace :=
    List.take_of_length_le (Nat.le_trans (List.dropWhile_suffix _).length_le wide)
  unfold scan number
  dsimp only
  rw [whole]
  generalize text.dropWhile isSpace = text
  have signed : (if text.head? = some 0x2D ∨ text.head? = some 0x2B then text.tail else text) <:+ text := by
    split_ifs
    · exact List.tail_suffix text
    · exact List.suffix_refl text
  have marked := (hexPrefix_suffix base _).trans signed
  generalize hexPrefix base (if text.head? = some 0x2D ∨ text.head? = some 0x2B then text.tail else text) = digits at marked ⊢
  have left : text.drop (text.length - (readDigits base 0 digits).2.length) = (readDigits base 0 digits).2 := by
    rw [readDigits_eq]
    exact (List.suffix_iff_eq_drop.mp ((List.dropWhile_suffix _).trans marked)).symm
  by_cases none : digits.head?.bind (digitOf base) = .none
  · rw [if_pos none,if_pos none]
    rfl
  · rw [if_neg none,if_neg none,Option.map_some,stored_eq,left]

/-- What a signed conversion keeps of a number in 32 bits: the nearest value. -/
def storedSigned (n : Int) : Int := max (-2 ^ 31) (min (2 ^ 31 - 1) n)

/-- A number in digits alone. -/
structure Decimal (text : List UInt8) (n : Nat) : Prop where
  filled : text ≠ []
  all : ∀ c ∈ text, isDigit 10 c = true
  counted : value 10 text 0 = n

theorem Decimal.of_digit {c : UInt8} {n : Nat} (digit : digitOf 10 c = some n) : Decimal [c] n where
  filled := nofun
  all ch member := by rw [List.mem_singleton.mp member,isDigit,digit,Option.isSome_some]
  counted := by simp [value,digit]

theorem hexPrefix_ten (text : List UInt8) : hexPrefix 10 text = text := by
  unfold hexPrefix
  split
  · exact if_neg fun hex => absurd hex.1 (by decide)
  · rfl

/-- Where neither space nor sign is in front, the run of digits is read. -/
theorem number_bare (bare : ∀ c ∈ text.head?, isSpace c = false ∧ c ≠ 0x2D ∧ c ≠ 0x2B) : number 10 text =
    if text.takeWhile (isDigit 10) = [] then none
    else some ((value 10 (text.takeWhile (isDigit 10)) 0 : Int),text.dropWhile (isDigit 10)) := by
  unfold number
  cases text with
  | nil => rfl
  | cons c text =>
    obtain ⟨blank,minus,plus⟩ := bare c rfl
    have head : digitOf 10 c = none ↔ (c :: text).takeWhile (isDigit 10) = [] := by
      rw [List.takeWhile_cons,isDigit]
      cases digitOf 10 c <;> simp
    have unsigned : ¬ ((c :: text).head? = some 0x2D ∨ (c :: text).head? = some 0x2B) := by simp [minus,plus]
    have positive : ¬ some c = some 0x2D := by simp [minus]
    dsimp only
    rw [List.dropWhile_cons_of_neg (by simp [blank]),if_neg unsigned,hexPrefix_ten,List.head?_cons,Option.bind_some,
      readDigits_eq,if_neg positive]
    simp only [head]

theorem Decimal.read {digits rest : List UInt8} {n : Nat} (decimal : Decimal digits n)
    (stops : ∀ c ∈ rest.head?, isDigit 10 c = false) : number 10 (digits ++ rest) = some ((n : Int),rest) := by
  have bare : ∀ c ∈ (digits ++ rest).head?, isSpace c = false ∧ c ≠ 0x2D ∧ c ≠ 0x2B := by
    intro c first
    obtain ⟨d,more,rfl⟩ := List.exists_cons_of_ne_nil decimal.filled
    obtain rfl : d = c := Option.some.inj first
    obtain ⟨blank,_,minus,plus⟩ := isDigit_plain (decimal.all d List.mem_cons_self)
    exact ⟨blank,minus,plus⟩
  have run : (digits ++ rest).takeWhile (isDigit 10) = digits ∧ (digits ++ rest).dropWhile (isDigit 10) = rest := by
    rw [List.takeWhile_append_of_pos decimal.all,List.dropWhile_append_of_pos decimal.all]
    cases rest with
    | nil => simp
    | cons c rest => simp [stops c rfl]
  rw [number_bare bare,run.1,run.2,if_neg decimal.filled,decimal.counted]

theorem Decimal.read_minus {digits rest : List UInt8} {n : Nat} (decimal : Decimal digits n)
    (stops : ∀ c ∈ rest.head?, isDigit 10 c = false) :
    number 10 (0x2D :: digits ++ rest) = some (-(n : Int),rest) := by
  have plain := decimal.read stops
  obtain ⟨d,more,rfl⟩ := List.exists_cons_of_ne_nil decimal.filled
  obtain ⟨blank,_,minus,plus⟩ := isDigit_plain (decimal.all d List.mem_cons_self)
  have unsigned : ¬ (some d = some 0x2D ∨ some d = some 0x2B) := by simp [minus,plus]
  have positive : ¬ some d = some 0x2D := by simp [minus]
  unfold number at plain ⊢
  dsimp only [List.cons_append] at plain ⊢
  rw [List.dropWhile_cons_of_neg (by simp [blank]),hexPrefix_ten,List.head?_cons,if_neg unsigned] at plain
  rw [List.dropWhile_cons_of_neg (by decide),hexPrefix_ten,List.head?_cons,if_pos (Or.inl rfl),List.tail_cons]
  by_cases none : (d :: (more ++ rest)).head?.bind (digitOf 10) = .none
  · rw [if_pos none] at plain
    exact nomatch plain
  · rw [if_neg none,if_neg positive] at plain
    obtain ⟨value,left⟩ := Prod.mk.inj (Option.some.inj plain)
    rw [if_neg none,if_pos rfl,value,left]

theorem number_decimal {left : List UInt8} {n : Int} (bare : ∀ c ∈ text.head?, isSpace c = false ∧ c ≠ 0x2D ∧ c ≠ 0x2B)
    (read : number 10 text = some (n,left)) :
    ∃ digits k, text = digits ++ left ∧ Decimal digits k ∧ n = k ∧ ∀ c ∈ left.head?, isDigit 10 c = false := by
  rw [number_bare bare] at read
  obtain ⟨filled,same⟩ := Option.ite_none_left_eq_some.mp read
  obtain ⟨rfl,rfl⟩ := Prod.mk.inj (Option.some.inj same)
  exact ⟨_,_,List.takeWhile_append_dropWhile.symm,⟨filled,fun c member => List.mem_takeWhile_imp member,rfl⟩,rfl,dropWhile_head⟩

end Number

end JcaFirmware.Foundation.Numeral
