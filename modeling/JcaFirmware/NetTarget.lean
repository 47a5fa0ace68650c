import JcaFirmware.Foundation.CText
import JcaFirmware.Foundation.Scan

/-! The target of a connection in the configuration (`net/net_target.c`): an address or a
name with a port, against the grammar of its header. -/
namespace JcaFirmware.NetTarget
open Foundation CText Foundation.Numeral

inductive NetTargetType
  | invalid | ip | name
deriving DecidableEq, Repr

/-- What `net_target_parse` leaves: its result, the text in the host buffer if it came to write one, and the two numbers. -/
structure Target where
  kind : NetTargetType
  host : Option (List UInt8)
  port : Int
  ip : Int
deriving DecidableEq, Repr

section Code

def isIpChars (s : List UInt8) : Bool := s.all fun c => isDigit 10 c || c = 0x2E

def hasAlpha (s : List UInt8) : Bool := s.any fun c => IsLetter c

/-- A conversion `%d` of `scanf`. -/
def scanD (text : List UInt8) : Option (Int × List UInt8) := (number 10 text).map fun found => (storedSigned found.1,found.2)

def scanDot (text : List UInt8) : Option (Int × List UInt8) := do
  let (n,text) ← scanD text
  if text.head? = some 0x2E then some (n,text.tail) else none

def ipv4Parse (s : List UInt8) : Option Int := do
  let (a,s) ← scanDot s
  let (b,s) ← scanDot s
  let (c,s) ← scanDot s
  let (d,_) ← scanD s
  if 255 < a ∨ 255 < b ∨ 255 < c ∨ 255 < d then none
  else if a = 0 ∨ d = 0 then none
  else some (a + b * 2 ^ 8 + c * 2 ^ 16 + d * 2 ^ 24)

/-- `strrchr`: the text before the last of the characters, and behind it. -/
def strrchr (c : UInt8) : List UInt8 → Option (List UInt8 × List UInt8)
  | [] => none
  | c' :: text =>
    match strrchr c text with
    | some (before,behind) => some (c' :: before,behind)
    | none => if c' = c then some ([],text) else none

def colon : UInt8 := 0x3A
def dot : UInt8 := 0x2E

/-- `net_target_parse`; `port` is what the port was before. -/
def netTargetParse (url : List UInt8) (hostSize : Nat) (port : Int) : Target :=
  match strrchr colon url with
  | none => ⟨.invalid,none,port,0⟩
  | some (host,rest) =>
    if host.length = 0 ∨ hostSize ≤ host.length then ⟨.invalid,none,port,0⟩
    else
      match scanD rest with
      | none => ⟨.invalid,none,port,0⟩
      | some (p,_) =>
        if p ≤ 0 ∨ 65535 < p then ⟨.invalid,none,port,0⟩
        else if isIpChars host then
          match ipv4Parse host with
          | some ip => ⟨.ip,some host,p,ip⟩
          | none => ⟨.invalid,some host,port,0⟩
        else if hasAlpha host then ⟨.name,some host,p,0⟩
        else ⟨.invalid,some host,port,0⟩

end Code

section Grammar

/-- A text of digits between 1 and 65535. -/
structure Port (text : List UInt8) (p : Nat) : Prop extends Decimal text p where
  positive : 1 ≤ p
  word : p ≤ 65535

/-- Four octets with dots between them, and what stands behind them. -/
structure Octets (host : List UInt8) (a b c d : Nat) (more : List UInt8) : Prop where
  split : ∃ ta tb tc td, host = ta ++ dot :: (tb ++ dot :: (tc ++ dot :: (td ++ more))) ∧
    Decimal ta a ∧ Decimal tb b ∧ Decimal tc c ∧ Decimal td d
  bytes : a ≤ 255 ∧ b ≤ 255 ∧ c ≤ 255 ∧ d ≤ 255
  usable : a ≠ 0 ∧ d ≠ 0

def address (a b c d : Nat) : Int := a + b * 2 ^ 8 + c * 2 ^ 16 + d * 2 ^ 24

def IpText (url : List UInt8) (ip : Int) (p : Nat) : Prop :=
  ∃ host rest a b c d, url = host ++ colon :: rest ∧ Octets host a b c d [] ∧ Port rest p ∧ ip = address a b c d

def NameText (url : List UInt8) (hostSize p : Nat) : Prop :=
  ∃ host rest, url = host ++ colon :: rest ∧ host ≠ [] ∧ host.length < hostSize ∧ hasAlpha host = true ∧ Port rest p

/-- The result is that of the grammar. -/
structure Graded (url : List UInt8) (hostSize : Nat) (port : Int) (target : Target) : Prop where
  ip : target.kind = .ip ↔ ∃ ip p, IpText url ip p
  name : target.kind = .name ↔ ∃ p, NameText url hostSize p
  located : target.kind = .ip → ∀ ip p, IpText url ip p → target.ip = ip ∧ target.port = p
  named : target.kind = .name → ∀ p, NameText url hostSize p → target.port = p
  untouched : target.kind = .invalid → target.port = port

end Grammar

section Scanned

/-- The text behind the last colon begins with a port, as `scanf` reads numbers. -/
structure Scans (url host rest : List UInt8) (p : Int) : Prop where
  split : url = host ++ colon :: rest
  last : colon ∉ rest
  read : ∃ left, number 10 rest = some (p,left)
  positive : 1 ≤ p
  word : p ≤ 65535

/-- Digits and dots that begin with four octets. -/
structure Front (host : List UInt8) (a b c d : Nat) (more : List UInt8) : Prop extends Octets host a b c d more where
  chars : isIpChars host = true
  stops : ∀ ch ∈ more.head?, isDigit 10 ch = false

/-- More than a target is taken for one: there is something behind four octets, or around the digits of a port. -/
def Loose (url : List UInt8) (hostSize : Nat) : Prop :=
  ∃ host rest p, Scans url host rest p ∧ host.length < hostSize ∧
    ((∃ a b c d more, Front host a b c d more ∧ more ≠ []) ∨
      (hasAlpha host = true ∨ ∃ a b c d more, Front host a b c d more) ∧ ∃ ch ∈ rest, isDigit 10 ch = false)

/-- The text of an address is longer than the host buffer. -/
def Crowded (url : List UInt8) (hostSize : Nat) : Prop :=
  ∃ host rest a b c d p, url = host ++ colon :: rest ∧ Octets host a b c d [] ∧ Port rest p ∧ hostSize ≤ host.length

theorem strrchr_none {c : UInt8} {text : List UInt8} : strrchr c text = none ↔ c ∉ text := by
  induction text with
  | nil => simp [strrchr]
  | cons c' text ih =>
    rw [strrchr,List.mem_cons,not_or,← ih]
    cases strrchr c text with
    | none => simp [eq_comm]
    | some split => simp

theorem strrchr_append {c : UInt8} (before : List UInt8) {behind : List UInt8} (last : c ∉ behind) :
    strrchr c (before ++ c :: behind) = some (before,behind) := by
  induction before with
  | nil =>
    rw [List.nil_append,strrchr,strrchr_none.mpr last]
    exact if_pos rfl
  | cons c' before ih => rw [List.cons_append,strrchr,ih]

theorem strrchr_split {c : UInt8} {text before behind : List UInt8} (found : strrchr c text = some (before,behind)) :
    text = before ++ c :: behind ∧ c ∉ behind := by
  induction text generalizing before with
  | nil => cases found
  | cons c' text ih =>
    rw [strrchr] at found
    cases inner : strrchr c text with
    | some halves =>
      obtain ⟨front,rest⟩ := halves
      rw [inner] at found
      obtain ⟨rfl,rfl⟩ := Prod.mk.inj (Option.some.inj found)
      obtain ⟨split,last⟩ := ih inner
      exact ⟨congrArg (c' :: ·) split,last⟩
    | none =>
      rw [inner] at found
      obtain ⟨rfl,same⟩ := Option.ite_none_right_eq_some.mp found
      obtain ⟨rfl,rfl⟩ := Prod.mk.inj (Option.some.inj same)
      exact ⟨rfl,strrchr_none.mp inner⟩

section Address

variable {host : List UInt8}

theorem char_bare {c : UInt8} (own : (isDigit 10 c || c = 0x2E) = true) : isSpace c = false ∧ c ≠ 0x2D ∧ c ≠ 0x2B := by
  rcases Bool.or_eq_true_iff.mp own with digit | point
  · obtain ⟨blank,_,minus,plus⟩ := isDigit_plain digit
    exact ⟨blank,minus,plus⟩
  · rw [of_decide_eq_true point]
    decide

theorem dot_stops (rest : List UInt8) : ∀ c ∈ (dot :: rest).head?, isDigit 10 c = false := by
  intro c first
  obtain rfl := Option.some.inj first
  decide

theorem storedSigned_byte {n : Nat} (small : n ≤ 255) : storedSigned n = n := by
  rw [storedSigned]
  omega

theorem chars_bare {text : List UInt8} (chars : isIpChars text = true) :
    ∀ c ∈ text.head?, isSpace c = false ∧ c ≠ 0x2D ∧ c ≠ 0x2B :=
  fun c first => char_bare (List.all_eq_true.mp chars c (List.mem_of_mem_head? first))

theorem chars_behind {front rest : List UInt8} (chars : isIpChars (front ++ rest) = true) : isIpChars rest = true := by
  rw [isIpChars,List.all_append,Bool.and_eq_true] at chars
  exact chars.2

theorem scanD_iff {text left : List UInt8} {n : Int} (chars : isIpChars text = true) : scanD text = some (n,left) ↔
    ∃ digits k, text = digits ++ left ∧ Decimal digits k ∧ n = storedSigned k ∧ ∀ c ∈ left.head?, isDigit 10 c = false := by
  unfold scanD
  constructor
  · intro found
    obtain ⟨⟨m,_⟩,read,same⟩ := Option.map_eq_some_iff.mp found
    obtain ⟨rfl,rfl⟩ := Prod.mk.inj same
    obtain ⟨digits,k,split,decimal,rfl,stops⟩ := number_decimal (chars_bare chars) read
    exact ⟨digits,k,split,decimal,rfl,stops⟩
  · rintro ⟨digits,k,rfl,decimal,rfl,stops⟩
    rw [decimal.read stops]
    rfl

/-- A number and the dot behind it. -/
theorem scanDot_iff {text rest : List UInt8} {n : Int} (chars : isIpChars text = true) : scanDot text = some (n,rest) ↔
    ∃ digits k, text = (digits ++ [dot]) ++ rest ∧ Decimal digits k ∧ n = storedSigned k := by
  unfold scanDot
  rw [Option.bind_eq_bind,Option.bind_eq_some_iff]
  constructor
  · rintro ⟨⟨m,left⟩,read,same⟩
    obtain ⟨point,same⟩ := Option.ite_none_right_eq_some.mp same
    obtain ⟨rfl,rfl⟩ := Prod.mk.inj (Option.some.inj same)
    obtain ⟨digits,k,split,decimal,rfl,_⟩ := (scanD_iff chars).mp read
    have whole : left = dot :: left.tail := (List.cons_head?_tail point).symm
    refine ⟨digits,k,?_,decimal,rfl⟩
    rw [List.append_assoc,List.singleton_append,← whole,split]
  · rintro ⟨digits,k,rfl,decimal,rfl⟩
    refine ⟨(storedSigned k,dot :: rest),(scanD_iff chars).mpr ⟨digits,k,?_,decimal,rfl,dot_stops rest⟩,rfl⟩
    rw [List.append_assoc,List.singleton_append]

/-- The address of a text of digits and dots is that of the four octets at its front. -/
theorem ipv4Parse_iff (chars : isIpChars host = true) {ip : Int} :
    ipv4Parse host = some ip ↔ ∃ a b c d more, Front host a b c d more ∧ ip = address a b c d := by
  unfold ipv4Parse
  simp only [Option.bind_eq_bind]
  constructor
  · intro parsed
    obtain ⟨⟨_,s₁⟩,first,parsed⟩ := Option.bind_eq_some_iff.mp parsed
    obtain ⟨⟨_,s₂⟩,second,parsed⟩ := Option.bind_eq_some_iff.mp parsed
    obtain ⟨⟨_,s₃⟩,third,parsed⟩ := Option.bind_eq_some_iff.mp parsed
    obtain ⟨⟨_,more⟩,fourth,parsed⟩ := Option.bind_eq_some_iff.mp parsed
    obtain ⟨ta,a,rfl,isA,rfl⟩ := (scanDot_iff chars).mp first
    obtain ⟨tb,b,rfl,isB,rfl⟩ := (scanDot_iff (chars_behind chars)).mp second
    obtain ⟨tc,c,rfl,isC,rfl⟩ := (scanDot_iff (chars_behind (chars_behind chars))).mp third
    obtain ⟨td,d,rfl,isD,rfl,stops⟩ := (scanD_iff (chars_behind (chars_behind (chars_behind chars)))).mp fourth
    obtain ⟨bytes,parsed⟩ := Option.ite_none_left_eq_some.mp parsed
    obtain ⟨usable,same⟩ := Option.ite_none_left_eq_some.mp parsed
    have small {n : Nat} (byte : ¬ 255 < storedSigned n) : n ≤ 255 := by
      rw [storedSigned] at byte
      omega
    simp only [not_or] at bytes
    have smallA := small bytes.1
    have smallB := small bytes.2.1
    have smallC := small bytes.2.2.1
    have smallD := small bytes.2.2.2
    rw [storedSigned_byte smallA,storedSigned_byte smallD] at usable
    rw [storedSigned_byte smallA,storedSigned_byte smallB,storedSigned_byte smallC,storedSigned_byte smallD] at same
    refine ⟨a,b,c,d,more,⟨⟨⟨ta,tb,tc,td,by simp,isA,isB,isC,isD⟩,⟨smallA,smallB,smallC,smallD⟩,by omega⟩,chars,stops⟩,?_⟩
    exact (Option.some.inj same).symm
  · rintro ⟨a,b,c,d,more,⟨⟨⟨ta,tb,tc,td,split,isA,isB,isC,isD⟩,⟨smallA,smallB,smallC,smallD⟩,usable⟩,_,stops⟩,rfl⟩
    obtain rfl : host = (ta ++ [dot]) ++ ((tb ++ [dot]) ++ ((tc ++ [dot]) ++ (td ++ more))) := by simp [split]
    have chars₁ := chars_behind chars
    have chars₂ := chars_behind chars₁
    have chars₃ := chars_behind chars₂
    rw [(scanDot_iff chars).mpr ⟨ta,a,rfl,isA,rfl⟩,Option.bind_some,(scanDot_iff chars₁).mpr ⟨tb,b,rfl,isB,rfl⟩,Option.bind_some,
      (scanDot_iff chars₂).mpr ⟨tc,c,rfl,isC,rfl⟩,Option.bind_some,(scanD_iff chars₃).mpr ⟨td,d,rfl,isD,rfl,stops⟩,Option.bind_some,
      storedSigned_byte smallA,storedSigned_byte smallB,storedSigned_byte smallC,storedSigned_byte smallD,if_neg (by omega),
      if_neg (by omega)]
    rfl

end Address

/-- The outcomes by what the text begins with. -/
inductive Parsed (url : List UInt8) (hostSize : Nat) (port : Int) : Target → Prop
  | ip {host rest more : List UInt8} {p : Int} {a b c d : Nat} (scans : Scans url host rest p) (fits : host.length < hostSize)
      (front : Front host a b c d more) : Parsed url hostSize port ⟨.ip,some host,p,address a b c d⟩
  | name {host rest : List UInt8} {p : Int} (scans : Scans url host rest p) (fits : host.length < hostSize)
      (alpha : hasAlpha host = true) : Parsed url hostSize port ⟨.name,some host,p,0⟩
  | invalid (host : Option (List UInt8))
      (refused : ∀ host rest p, Scans url host rest p → host.length < hostSize →
        hasAlpha host = false ∧ ∀ a b c d more, ¬ Front host a b c d more) : Parsed url hostSize port ⟨.invalid,host,port,0⟩

theorem digit_not_letter {c : UInt8} (digit : isDigit 10 c = true) : ¬ IsLetter c := by
  obtain ⟨n,rfl⟩ : ∃ n : Fin 256, c = UInt8.ofFin n := ⟨c.toFin,rfl⟩
  revert n
  decide +kernel

theorem alpha_chars {host : List UInt8} (alpha : hasAlpha host = true) : isIpChars host = false := by
  obtain ⟨c,member,letter⟩ := List.any_eq_true.mp alpha
  have letter := of_decide_eq_true letter
  rw [← Bool.not_eq_true]
  intro chars
  rcases Bool.or_eq_true_iff.mp (List.all_eq_true.mp chars c member) with digit | point
  · exact digit_not_letter digit letter
  · rw [of_decide_eq_true point] at letter
    exact absurd letter (by decide)

theorem Octets.filled {host more : List UInt8} {a b c d : Nat} (octets : Octets host a b c d more) : host ≠ [] := by
  obtain ⟨ta,tb,tc,td,split,_⟩ := octets.split
  rw [split]
  simp

theorem Scans.found {url host rest : List UInt8} {p : Int} (scans : Scans url host rest p) :
    strrchr colon url = some (host,rest) ∧ ∃ left, scanD rest = some (p,left) := by
  obtain ⟨left,read⟩ := scans.read
  have positive := scans.positive
  have word := scans.word
  have kept : storedSigned p = p := by
    rw [storedSigned]
    omega
  refine ⟨?_,left,?_⟩
  · rw [scans.split,strrchr_append host scans.last]
  · rw [scanD,read,Option.map_some,kept]

theorem Scans.unique {url host rest host' rest' : List UInt8} {p p' : Int} (scans : Scans url host rest p)
    (scans' : Scans url host' rest' p') : host = host' ∧ rest = rest' ∧ p = p' := by
  obtain ⟨split,left,read⟩ := scans.found
  obtain ⟨split',left',read'⟩ := scans'.found
  obtain ⟨rfl,rfl⟩ := Prod.mk.inj (Option.some.inj (split.symm.trans split'))
  exact ⟨rfl,rfl,congrArg Prod.fst (Option.some.inj (read.symm.trans read'))⟩

theorem netTargetParse_parsed (url : List UInt8) (hostSize : Nat) (port : Int) :
    Parsed url hostSize port (netTargetParse url hostSize port) := by
  unfold netTargetParse
  cases found : strrchr colon url with
  | none => exact .invalid none fun host rest p scans => absurd (found.symm.trans scans.found.1) (by simp)
  | some halves =>
    obtain ⟨host,rest⟩ := halves
    obtain ⟨split,last⟩ := strrchr_split found
    have own {host' rest' : List UInt8} {p : Int} (scans : Scans url host' rest' p) : host = host' ∧ rest = rest' :=
      Prod.mk.inj (Option.some.inj (found.symm.trans scans.found.1))
    dsimp only
    by_cases room : host.length = 0 ∨ hostSize ≤ host.length
    · rw [if_pos room]
      refine .invalid none fun host' rest' p scans fits => ?_
      obtain ⟨rfl,rfl⟩ := own scans
      obtain rfl := List.eq_nil_of_length_eq_zero (room.resolve_right (Nat.not_le.mpr fits))
      exact ⟨rfl,fun a b c d more front => front.filled rfl⟩
    rw [if_neg room]
    cases read : scanD rest with
    | none =>
      refine .invalid none fun host' rest' p scans => ?_
      obtain ⟨rfl,rfl⟩ := own scans
      obtain ⟨_,left,read'⟩ := scans.found
      exact absurd (read.symm.trans read') (by simp)
    | some number =>
      obtain ⟨p,left⟩ := number
      dsimp only
      by_cases range : p ≤ 0 ∨ 65535 < p
      · rw [if_pos range]
        refine .invalid none fun host' rest' p' scans => ?_
        obtain ⟨rfl,rfl⟩ := own scans
        obtain ⟨_,left',read'⟩ := scans.found
        obtain ⟨rfl,rfl⟩ := Prod.mk.inj (Option.some.inj (read.symm.trans read'))
        have positive := scans.positive
        have word := scans.word
        omega
      rw [if_neg range]
      have scans : Scans url host rest p := by
        obtain ⟨⟨n,_⟩,whole,same⟩ := Option.map_eq_some_iff.mp read
        obtain ⟨rfl,rfl⟩ := Prod.mk.inj same
        have kept : storedSigned n = n := by
          rw [storedSigned] at range ⊢
          omega
        rw [kept] at range ⊢
        exact ⟨split,last,⟨_,whole⟩,by omega,by omega⟩
      have fits : host.length < hostSize := by omega
      cases chars : isIpChars host with
      | true =>
        rw [if_pos rfl]
        cases parsed : ipv4Parse host with
        | some ip =>
          obtain ⟨a,b,c,d,more,front,rfl⟩ := (ipv4Parse_iff chars).mp parsed
          exact .ip scans fits front
        | none =>
          refine .invalid _ fun host' rest' p' scans' _ => ?_
          obtain ⟨rfl,rfl⟩ := own scans'
          constructor
          · rw [← Bool.not_eq_true]
            exact fun alpha => absurd (chars.symm.trans (alpha_chars alpha)) (by simp)
          · intro a b c d more front
            exact absurd (parsed.symm.trans ((ipv4Parse_iff chars).mpr ⟨a,b,c,d,more,front,rfl⟩)) (by simp)
      | false =>
        rw [if_neg Bool.false_ne_true]
        cases alpha : hasAlpha host with
        | true => exact .name scans fits alpha
        | false =>
          refine .invalid _ fun host' rest' p' scans' _ => ?_
          obtain ⟨rfl,rfl⟩ := own scans'
          exact ⟨alpha,fun a b c d more front => absurd (chars.symm.trans front.chars) (by simp)⟩

/-- The port is set or left as it is, and nothing else depends on what it was. -/
theorem netTargetParse_port (url : List UInt8) (hostSize : Nat) (port port' : Int) :
    (netTargetParse url hostSize port).kind ≠ .invalid ∧ netTargetParse url hostSize port' = netTargetParse url hostSize port ∨
      (netTargetParse url hostSize port).kind = .invalid ∧
        netTargetParse url hostSize port' = {netTargetParse url hostSize port with port := port'} := by
  unfold netTargetParse
  cases strrchr colon url with
  | none => exact Or.inr ⟨rfl,rfl⟩
  | some halves =>
    obtain ⟨host,rest⟩ := halves
    dsimp only
    by_cases room : host.length = 0 ∨ hostSize ≤ host.length
    · rw [if_pos room,if_pos room]
      exact Or.inr ⟨rfl,rfl⟩
    rw [if_neg room,if_neg room]
    cases scanD rest with
    | none => exact Or.inr ⟨rfl,rfl⟩
    | some number =>
      dsimp only
      by_cases range : number.1 ≤ 0 ∨ 65535 < number.1
      · rw [if_pos range,if_pos range]
        exact Or.inr ⟨rfl,rfl⟩
      rw [if_neg range,if_neg range]
      cases isIpChars host with
      | true =>
        cases ipv4Parse host with
        | some ip => exact Or.inl ⟨nofun,rfl⟩
        | none => exact Or.inr ⟨rfl,rfl⟩
      | false =>
        cases hasAlpha host with
        | true => exact Or.inl ⟨nofun,rfl⟩
        | false => exact Or.inr ⟨rfl,rfl⟩

end Scanned

section Strict

variable {url host rest : List UInt8} {hostSize : Nat}

theorem Port.scans {p : Nat} (port : Port rest p) (split : url = host ++ colon :: rest) : Scans url host rest p := by
  have read : number 10 (rest ++ []) = some ((p : Int),[]) := port.toDecimal.read nofun
  rw [List.append_nil] at read
  refine ⟨split,fun member => ?_,⟨[],read⟩,by exact_mod_cast port.positive,by exact_mod_cast port.word⟩
  exact absurd (port.all colon member) (by decide)

theorem Scans.port {p : Int} (scans : Scans url host rest p) (digits : ∀ ch ∈ rest, isDigit 10 ch = true) : ∃ k : Nat, p = k ∧ Port rest k := by
  have bare : ∀ ch ∈ rest.head?, isSpace ch = false ∧ ch ≠ 0x2D ∧ ch ≠ 0x2B := by
    intro ch first
    obtain ⟨blank,_,minus,plus⟩ := isDigit_plain (digits ch (List.mem_of_mem_head? first))
    exact ⟨blank,minus,plus⟩
  obtain ⟨left,read⟩ := scans.read
  obtain ⟨own,k,rfl,decimal,rfl,stops⟩ := number_decimal bare read
  have positive := scans.positive
  have word := scans.word
  cases left with
  | nil =>
    rw [List.append_nil]
    exact ⟨k,rfl,decimal,by omega,by omega⟩
  | cons ch left => exact absurd ((stops ch rfl).symm.trans (digits ch (by simp))) (by simp)

theorem Octets.front {a b c d : Nat} (octets : Octets host a b c d []) : Front host a b c d [] := by
  refine ⟨octets,?_,by simp⟩
  obtain ⟨ta,tb,tc,td,rfl,isA,isB,isC,isD⟩ := octets.split
  have digits {t : List UInt8} {n : Nat} (decimal : Decimal t n) (more : List UInt8) : isIpChars (t ++ more) = isIpChars more := by
    rw [isIpChars,List.all_append,List.all_eq_true.mpr fun ch member => Bool.or_eq_true_iff.mpr (Or.inl (decimal.all ch member)),
      Bool.true_and,isIpChars]
  have point (more : List UInt8) : isIpChars (dot :: more) = isIpChars more := rfl
  rw [digits isA,point,digits isB,point,digits isC,point,digits isD]
  rfl

/-- Digits are read to their end. -/
theorem decimal_cut {t t' r r' : List UInt8} {n n' : Nat} (decimal : Decimal t n) (stops : ∀ ch ∈ r.head?, isDigit 10 ch = false)
    (decimal' : Decimal t' n') (stops' : ∀ ch ∈ r'.head?, isDigit 10 ch = false) (same : t ++ r = t' ++ r') : n = n' ∧ r = r' := by
  have read := decimal.read stops
  rw [same,decimal'.read stops'] at read
  obtain ⟨count,left⟩ := Prod.mk.inj (Option.some.inj read)
  exact ⟨(Int.ofNat.inj count).symm,left.symm⟩

theorem Front.unique {a b c d a' b' c' d' : Nat} {more more' : List UInt8} (front : Front host a b c d more)
    (front' : Front host a' b' c' d' more') : (a = a' ∧ b = b' ∧ c = c' ∧ d = d') ∧ more = more' := by
  obtain ⟨ta,tb,tc,td,split,isA,isB,isC,isD⟩ := front.split
  obtain ⟨ta',tb',tc',td',split',isA',isB',isC',isD'⟩ := front'.split
  obtain ⟨rfl,tail⟩ := decimal_cut isA (dot_stops _) isA' (dot_stops _) (split.symm.trans split')
  obtain ⟨rfl,tail⟩ := decimal_cut isB (dot_stops _) isB' (dot_stops _) (List.cons.inj tail).2
  obtain ⟨rfl,tail⟩ := decimal_cut isC (dot_stops _) isC' (dot_stops _) (List.cons.inj tail).2
  obtain ⟨rfl,tail⟩ := decimal_cut isD front.stops isD' front'.stops (List.cons.inj tail).2
  exact ⟨⟨rfl,rfl,rfl,rfl⟩,tail⟩

theorem IpText.front {ip : Int} {p : Nat} (text : IpText url ip p) : ∃ host rest a b c d, Scans url host rest p ∧
    Front host a b c d [] ∧ Port rest p ∧ ip = address a b c d := by
  obtain ⟨host,rest,a,b,c,d,split,octets,port,same⟩ := text
  exact ⟨host,rest,a,b,c,d,port.scans split,octets.front,port,same⟩

theorem NameText.scans {p : Nat} (text : NameText url hostSize p) : ∃ host rest, Scans url host rest p ∧
    host.length < hostSize ∧ hasAlpha host = true ∧ Port rest p := by
  obtain ⟨host,rest,split,_,fits,alpha,port⟩ := text
  exact ⟨host,rest,port.scans split,fits,alpha,port⟩

theorem Front.not_alpha {a b c d : Nat} {more : List UInt8} (front : Front host a b c d more) : hasAlpha host = false := by
  rw [← Bool.not_eq_true]
  exact fun alpha => absurd (front.chars.symm.trans (alpha_chars alpha)) (by simp)

section Outcomes

variable {port : Int} {target : Target} (parsed : Parsed url hostSize port target)
include parsed

theorem Parsed.tight (graded : Graded url hostSize port target) : ¬ Loose url hostSize := by
  rintro ⟨host,rest,p,scans,fits,kind⟩
  cases parsed with
  | ip scans' _ front' =>
    obtain ⟨ip,n,text⟩ := graded.ip.mp rfl
    obtain ⟨host'',rest'',_,_,_,_,scans'',front'',digits,_⟩ := text.front
    obtain ⟨rfl,rfl,_⟩ := scans.unique scans''
    rcases kind with ⟨a,b,c,d,more,front,behind⟩ | ⟨_,ch,member,other⟩
    · exact behind (front.unique front'').2
    · exact absurd (other.symm.trans (digits.all ch member)) (by simp)
  | name scans' _ alpha =>
    obtain ⟨n,text⟩ := graded.name.mp rfl
    obtain ⟨host'',rest'',scans'',_,alpha,digits⟩ := text.scans
    obtain ⟨rfl,rfl,_⟩ := scans.unique scans''
    rcases kind with ⟨a,b,c,d,more,front,_⟩ | ⟨_,ch,member,other⟩
    · exact absurd (alpha.symm.trans front.not_alpha) (by simp)
    · exact absurd (other.symm.trans (digits.all ch member)) (by simp)
  | invalid _ refused =>
    obtain ⟨alpha,noFront⟩ := refused host rest p scans fits
    rcases kind with ⟨a,b,c,d,more,front,_⟩ | ⟨named | ⟨a,b,c,d,more,front⟩,_⟩
    · exact noFront a b c d more front
    · exact absurd (alpha.symm.trans named) (by simp)
    · exact noFront a b c d more front

theorem Parsed.roomy (graded : Graded url hostSize port target) : ¬ Crowded url hostSize := by
  rintro ⟨host,rest,a,b,c,d,p,split,octets,number,long⟩
  have kind := graded.ip.mpr ⟨_,p,host,rest,a,b,c,d,split,octets,number,rfl⟩
  cases parsed with
  | ip scans fits front =>
    obtain ⟨rfl,_,_⟩ := scans.unique (number.scans split)
    exact absurd fits (Nat.not_lt.mpr long)
  | name scans fits alpha => cases kind
  | invalid host refused => cases kind

theorem Parsed.graded (tight : ¬ Loose url hostSize) (roomy : ¬ Crowded url hostSize) : Graded url hostSize port target := by
  cases parsed with
  | @ip host rest more p a b c d scans fits front =>
    have behind : more = [] := by
      by_contra some
      exact tight ⟨host,rest,p,scans,fits,Or.inl ⟨a,b,c,d,more,front,some⟩⟩
    subst behind
    obtain ⟨k,rfl,number⟩ := scans.port fun ch member => by
      by_contra other
      exact tight ⟨host,rest,p,scans,fits,Or.inr ⟨Or.inr ⟨a,b,c,d,[],front⟩,ch,member,by simpa using other⟩⟩
    refine ⟨iff_of_true rfl ⟨_,k,host,rest,a,b,c,d,scans.split,front.toOctets,number,rfl⟩,iff_of_false (by simp) ?_,fun _ => ?_,
      fun kind => absurd kind (by simp),fun kind => absurd kind (by simp)⟩
    · rintro ⟨n,text⟩
      obtain ⟨host',rest',scans',_,alpha,_⟩ := text.scans
      obtain ⟨rfl,_,_⟩ := scans.unique scans'
      exact absurd (alpha.symm.trans front.not_alpha) (by simp)
    · intro ip n text
      obtain ⟨host',rest',_,_,_,_,scans',front',_,rfl⟩ := text.front
      obtain ⟨rfl,_,same⟩ := scans.unique scans'
      obtain ⟨⟨rfl,rfl,rfl,rfl⟩,_⟩ := front.unique front'
      exact ⟨rfl,same⟩
  | @name host rest p scans fits alpha =>
    obtain ⟨k,rfl,number⟩ := scans.port fun ch member => by
      by_contra other
      exact tight ⟨host,rest,p,scans,fits,Or.inr ⟨Or.inl alpha,ch,member,by simpa using other⟩⟩
    have filled : host ≠ [] := by
      rintro rfl
      cases alpha
    refine ⟨iff_of_false (by simp) ?_,iff_of_true rfl ⟨k,host,rest,scans.split,filled,fits,alpha,number⟩,
      fun kind => absurd kind (by simp),fun _ n text => ?_,fun kind => absurd kind (by simp)⟩
    · rintro ⟨ip,n,text⟩
      obtain ⟨host',rest',_,_,_,_,scans',front',_,_⟩ := text.front
      obtain ⟨rfl,_,_⟩ := scans.unique scans'
      exact absurd (alpha.symm.trans front'.not_alpha) (by simp)
    · obtain ⟨host',rest',scans',_⟩ := text.scans
      exact (scans.unique scans').2.2
  | invalid host refused =>
    refine ⟨iff_of_false (by simp) ?_,iff_of_false (by simp) ?_,fun kind => absurd kind (by simp),
      fun kind => absurd kind (by simp),fun _ => rfl⟩
    · rintro ⟨_,n,host',rest',a,b,c,d,split,octets,number,rfl⟩
      have fits : host'.length < hostSize := by
        by_contra long
        exact roomy ⟨host',rest',a,b,c,d,n,split,octets,number,Nat.le_of_not_lt long⟩
      exact (refused _ _ _ (number.scans split) fits).2 a b c d [] octets.front
    · rintro ⟨n,text⟩
      obtain ⟨host',rest',scans',fits,alpha,_⟩ := text.scans
      exact absurd (alpha.symm.trans (refused _ _ _ scans' fits).1) (by simp)

end Outcomes

/-- The grammar is met exactly where nothing more is taken for a target, and the text of an address fits. -/
theorem netTargetParse_graded_iff (url : List UInt8) (hostSize : Nat) (port : Int) :
    Graded url hostSize port (netTargetParse url hostSize port) ↔ ¬ Loose url hostSize ∧ ¬ Crowded url hostSize := by
  have parsed := netTargetParse_parsed url hostSize port
  exact ⟨fun graded => ⟨parsed.tight graded,parsed.roomy graded⟩,fun ⟨tight,roomy⟩ => parsed.graded tight roomy⟩

/-- An address with a fifth number behind it. -/
def fiveOctets : List UInt8 := ascii "1.2.3.4.5:80"

theorem fiveOctets_taken : (netTargetParse fiveOctets 64 0).kind = .ip ∧
    ¬ Graded fiveOctets 64 0 (netTargetParse fiveOctets 64 0) := by
  have kind : (netTargetParse fiveOctets 64 0).kind = .ip := by decide +kernel
  refine ⟨kind,fun graded => ?_⟩
  obtain ⟨ip,p,text⟩ := graded.ip.mp kind
  obtain ⟨host,rest,a,b,c,d,scans,front,_⟩ := text.front
  have host' : host = ascii "1.2.3.4.5" := by
    have found := scans.found.1
    have read : strrchr colon fiveOctets = some (ascii "1.2.3.4.5",ascii "80") := by decide +kernel
    exact (Prod.mk.inj (Option.some.inj (found.symm.trans read))).1
  have front' : Front (ascii "1.2.3.4.5") 1 2 3 4 (ascii ".5") :=
    ⟨⟨⟨[0x31],[0x32],[0x33],[0x34],rfl,.of_digit rfl,.of_digit rfl,.of_digit rfl,.of_digit rfl⟩,by decide,by decide⟩,
      by decide +kernel,by decide +kernel⟩
  rw [host'] at front
  exact absurd (front.unique front').2 (by decide)

end Strict

end JcaFirmware.NetTarget
