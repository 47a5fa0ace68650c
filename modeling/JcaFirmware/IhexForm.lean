import JcaFirmware.IhexRoundTrip

/-! The lines `ihex_parse` of the bootloader lets through. A decoder without an error
result takes what it cannot read as 0 and stays there, so what the checks see are the
digit pairs at the front of a line. -/
namespace JcaFirmware.Ihex
open Foundation Numeral CText IntelHex

section Front

theorem take_sum (front : List UInt8) (count : Nat) (s : UInt8) :
    (front.take (count + 1)).foldl (· + ·) s = (front.tail.take count).foldl (· + ·) (s + front.headD 0) := by
  cases front with
  | nil => simp
  | cons d front => rfl

theorem take_sum_last (count : Nat) (front : List UInt8) (s : UInt8) :
    (front.take (count + 1)).foldl (· + ·) s = (front.take count).foldl (· + ·) s + (front.drop count).headD 0 := by
  induction count generalizing front s with
  | zero =>
    rw [take_sum]
    rfl
  | succ count ih => rw [take_sum front (count + 1),ih,take_sum front count,List.drop_tail]

theorem digitPairs_drop (buf : List UInt8) (src : Nat) :
    digitPairs (buf.drop src) =
      match digitOf 16 (charAt buf src), digitOf 16 (charAt buf (src + 1)) with
      | some high, some low => UInt8.ofNat (16 * high + low) :: digitPairs (buf.drop (src + 2))
      | _, _ => [] := by
  have first := charAt_drop buf src 0
  have second := charAt_drop buf src 1
  have behind := List.drop_drop (i := 2) (j := src) (l := buf)
  rw [Nat.add_zero] at first
  rw [← first,← second,← behind]
  cases buf.drop src with
  | nil => rfl
  | cons a rest =>
    cases rest with
    | nil =>
      have ends : digitOf 16 (charAt [a] 1) = none := by
        change digitOf 16 0 = none
        decide
      rw [ends]
      cases digitOf 16 (charAt [a] 0) <;> rfl
    | cons b text => rfl

theorem stuck_front {buf : List UInt8} {src : Nat} (stuck : digitOf 16 (charAt buf src) = none) :
    digitPairs (buf.drop src) = [] := by
  rw [digitPairs_drop,stuck]

/-- A read takes the first byte of the front. Without one it moves to the character
that is no digit. -/
theorem gethexAt_front (buf : List UInt8) (src : Nat) (sum : UInt8) :
    ∃ src', gethexAt buf src sum = ((digitPairs (buf.drop src)).headD 0,src',sum + (digitPairs (buf.drop src)).headD 0) ∧
      digitPairs (buf.drop src') = (digitPairs (buf.drop src)).tail ∧ src ≤ src' ∧
      (src' = src + 2 ∧ digitOf 16 (charAt buf src) ≠ none ∨ digitPairs (buf.drop src) = [] ∧ digitOf 16 (charAt buf src') = none) := by
  rw [digitPairs_drop,gethexAt]
  cases high : digitOf 16 (charAt buf src) with
  | none => exact ⟨src,by simp,stuck_front high,Nat.le_refl _,Or.inr ⟨rfl,high⟩⟩
  | some h =>
    cases low : digitOf 16 (charAt buf (src + 1)) with
    | none => exact ⟨src + 1,by simp,stuck_front low,Nat.le_succ _,Or.inr ⟨rfl,low⟩⟩
    | some l => exact ⟨src + 2,rfl,rfl,Nat.le_add_right _ _,Or.inl ⟨rfl,by simp⟩⟩

theorem stuck_set {buf : List UInt8} {src : Nat} (stuck : digitOf 16 (charAt buf src) = none) (pdata : Nat) :
    digitOf 16 (charAt (buf.set pdata 0) src) = none := by
  by_cases here : pdata = src
  · have zero : charAt (buf.set pdata 0) src = 0 := by
      subst here
      by_cases inside : pdata < buf.length
      · simp [charAt,inside]
      · simp [charAt,Nat.le_of_not_lt inside]
    rw [zero]
    decide
  · simpa [charAt,List.getElem?_set_ne here] using stuck

/-- The bytes are written behind the cursor; once it is stuck, only zeros are written,
and a zero is no digit. -/
theorem gethexsAt_front (count : Nat) : ∀ (buf : List UInt8) (src pdata : Nat) (sum : UInt8),
    pdata < src ∨ digitOf 16 (charAt buf src) = none →
    ∃ buf' src', gethexsAt count buf src pdata sum =
        (buf',src',((digitPairs (buf.drop src)).take count).foldl (· + ·) sum) ∧
      digitPairs (buf'.drop src') = (digitPairs (buf.drop src)).drop count := by
  induction count with
  | zero => exact fun buf src _ sum _ => ⟨buf,src,rfl,rfl⟩
  | succ count ih =>
    intro buf src pdata sum ahead
    obtain ⟨src',read,rest,_,moved⟩ := gethexAt_front buf src sum
    generalize digitPairs (buf.drop src) = front at read rest moved ⊢
    have kept : digitPairs ((buf.set pdata (front.headD 0)).drop src') = front.tail ∧
        (pdata + 1 < src' ∨ digitOf 16 (charAt (buf.set pdata (front.headD 0)) src') = none) := by
      rcases moved with ⟨rfl,digit⟩ | ⟨none,stuck⟩
      · have behind := ahead.resolve_right digit
        rw [List.drop_set_of_lt (by omega)]
        exact ⟨rest,Or.inl (by omega)⟩
      · have zero := stuck_set stuck pdata
        rw [none]
        exact ⟨stuck_front zero,Or.inr zero⟩
    obtain ⟨buf',src'',ran,left⟩ := ih _ src' (pdata + 1) (sum + front.headD 0) kept.2
    rw [kept.1] at ran left
    refine ⟨buf',src'',?_,?_⟩
    · rw [gethexsAt,read,take_sum]
      exact ran
    · rw [left,List.drop_tail]

/-- The bytes at the front of a line, behind the colon. -/
def front (line : List UInt8) : List UInt8 := digitPairs (line.drop 1)

def byteAt (line : List UInt8) (k : Nat) : UInt8 := ((front line).drop k).headD 0

def stated (line : List UInt8) : Nat := (byteAt line 0).toNat

theorem gethexAt_reads {line : List UInt8} {src k : Nat} (reads : digitPairs (line.drop src) = (front line).drop k)
    (sum : UInt8) : ∃ src', gethexAt line src sum = (byteAt line k,src',sum + byteAt line k) ∧ src ≤ src' ∧
      digitPairs (line.drop src') = (front line).drop (k + 1) := by
  obtain ⟨src',read,rest,after,_⟩ := gethexAt_front line src sum
  rw [reads] at read rest
  exact ⟨src',read,after,by rw [rest,List.tail_drop]⟩

theorem header_sum (line : List UInt8) (count : Nat) :
    sum ((front line).take (count + 4)) =
      (((front line).drop 4).take count).foldl (· + ·) (0 + byteAt line 0 + byteAt line 1 + byteAt line 2 + byteAt line 3) := by
  rw [sum,take_sum,take_sum,take_sum,take_sum]
  simp only [byteAt,List.drop_zero,← List.drop_one,List.drop_drop]

/-- What the first half of the parser makes of any line. -/
theorem scanAt_front (line : List UInt8) :
    ∃ addr buf, scanAt line =
      if 8 + 2 * stated line ≤ (line.length - 1) % 256 ∧ sum ((front line).take (stated line + 5)) = 0 then
        some (byteAt line 3,addr,stated line,buf)
      else none := by
  have start : digitPairs (line.drop 1) = (front line).drop 0 := rfl
  obtain ⟨src₁,first,after₁,rest⟩ := gethexAt_reads start 0
  obtain ⟨src₂,second,after₂,rest⟩ := gethexAt_reads rest (0 + byteAt line 0)
  obtain ⟨src₃,third,after₃,rest⟩ := gethexAt_reads rest (0 + byteAt line 0 + byteAt line 1)
  obtain ⟨src₄,fourth,after₄,rest⟩ := gethexAt_reads rest (0 + byteAt line 0 + byteAt line 1 + byteAt line 2)
  obtain ⟨buf,src₅,payload,left⟩ := gethexsAt_front (stated line) line src₄ 0
    (0 + byteAt line 0 + byteAt line 1 + byteAt line 2 + byteAt line 3) (Or.inl (by omega))
  rw [rest] at payload left
  obtain ⟨src₆,last,_⟩ := gethexAt_front buf src₅ ((((front line).drop 4).take (stated line)).foldl (· + ·)
    (0 + byteAt line 0 + byteAt line 1 + byteAt line 2 + byteAt line 3))
  have whole := header_sum line (stated line + 1)
  rw [take_sum_last] at whole
  rw [left,← whole] at last
  have counted : (byteAt line 0).toNat = stated line := rfl
  refine ⟨256 * (byteAt line 1).toNat + (byteAt line 2).toNat,buf,?_⟩
  rw [scanAt,first]
  dsimp only
  rw [second]
  dsimp only
  rw [third]
  dsimp only
  rw [fourth]
  dsimp only
  simp only [Nat.zero_add,Nat.reduceAdd] at payload ⊢
  rw [counted,payload]
  dsimp only
  rw [last]
  dsimp only
  by_cases long : 8 + 2 * stated line ≤ (line.length - 1) % 256
  · rw [if_neg (by omega),if_neg (by omega)]
    by_cases zero : sum ((front line).take (stated line + 5)) = 0
    · rw [if_neg (not_not.mpr zero),if_pos ⟨long,zero⟩]
    · rw [if_pos zero,if_neg (fun checked => zero checked.2)]
  · have refused : ¬ (8 + 2 * stated line ≤ (line.length - 1) % 256 ∧
        sum ((front line).take (stated line + 5)) = 0) := fun checked => long checked.1
    rw [if_neg refused]
    by_cases short : (line.length - 1) % 256 < 8
    · rw [if_pos short]
    · rw [if_neg short,if_pos (by omega)]

end Front

/-- A colon and digit pairs, as many data bytes as stated, a checksum that makes the sum
0, and two data bytes where an address is taken from them. -/
def WellFormed (line : List UInt8) : Prop :=
  ∃ digits bytes, line = 0x3A :: digits ∧ unhex digits = some bytes ∧ bytes.length = (bytes.headD 0).toNat + 5 ∧
    sum bytes = 0 ∧ (bytes.getD 3 0 = 2 ∨ bytes.getD 3 0 = 4 → 2 ≤ (bytes.headD 0).toNat)

structure Passes (line : List UInt8) : Prop where
  colon : charAt line 0 = 0x3A
  long : 8 + 2 * stated line ≤ (line.length - 1) % 256
  zero : sum ((front line).take (stated line + 5)) = 0
  kind : byteAt line 3 = 0 ∨ byteAt line 3 = 1 ∨ byteAt line 3 = 2 ∨ byteAt line 3 = 4

/-- The checks stop no well formed line that the 8 bits of its length can count. -/
theorem WellFormed.passes {line : List UInt8} (formed : WellFormed line) (short : line.length ≤ 256)
    (kind : byteAt line 3 = 0 ∨ byteAt line 3 = 1 ∨ byteAt line 3 = 2 ∨ byteAt line 3 = 4) : Passes line := by
  obtain ⟨digits,bytes,rfl,read,length,zero,_⟩ := formed
  have same : front (0x3A :: digits) = bytes := digitPairs_unhex read
  have count := length_unhex read
  have first : stated (0x3A :: digits) = (bytes.headD 0).toNat := by rw [stated,byteAt,same]; rfl
  refine ⟨rfl,?_,?_,kind⟩
  · rw [List.length_cons] at short
    rw [first,List.length_cons,Nat.add_sub_cancel]
    omega
  · rw [first,same,← length,List.take_length]
    exact zero

/-- A line that is not well formed is answered with false, writes nothing and leaves the
high address word. -/
def Guarded (line : List UInt8) : Prop :=
  ¬ WellFormed line → ∀ answer p, ihexParseAt (request answer) false line p = .ok (false,p)

theorem refused_iff (line : List UInt8) (answer : Nat → List UInt8 → Bool) (p : Parse (List Piece)) :
    ihexParseAt (request answer) false line p = .ok (false,p) ↔ ¬ Passes line := by
  obtain ⟨addr,buf,scanned⟩ := scanAt_front line
  constructor
  · intro refused passes
    rw [if_pos ⟨passes.long,passes.zero⟩] at scanned
    rw [ihexParseAt,if_neg (not_not.mpr passes.colon),scanned] at refused
    dsimp only at refused
    rcases passes.kind with kind | kind | kind | kind
    · rw [if_pos kind,request] at refused
      have same := congrArg Parse.state (Prod.mk.inj (Except.ok.inj refused)).2
      have longer := congrArg List.length same
      simp at longer
    · simp [kind] at refused
    · simp [kind] at refused
    · simp [kind] at refused
  · intro stopped
    rw [ihexParseAt]
    by_cases colon : charAt line 0 = 0x3A
    · rw [if_neg (not_not.mpr colon),scanned]
      by_cases checked : 8 + 2 * stated line ≤ (line.length - 1) % 256 ∧ sum ((front line).take (stated line + 5)) = 0
      · have other (kind : byteAt line 3 = 0 ∨ byteAt line 3 = 1 ∨ byteAt line 3 = 2 ∨ byteAt line 3 = 4) : False :=
          stopped ⟨colon,checked.1,checked.2,kind⟩
        rw [if_pos checked]
        dsimp only
        rw [if_neg fun kind => other (Or.inl kind),if_neg fun kind => other (Or.inr (Or.inl kind)),
          if_neg fun kind => other (Or.inr (Or.inr (Or.inl kind))),
          if_neg fun kind => other (Or.inr (Or.inr (Or.inr kind)))]
        split_ifs <;> rfl
      · rw [if_neg checked]
    · rw [if_pos colon]

/-- The parser guards against a line exactly when its checks stop it or it is well formed. -/
theorem guarded_iff (line : List UInt8) : Guarded line ↔ (Passes line → WellFormed line) := by
  constructor
  · intro guarded passes
    by_contra malformed
    exact (refused_iff line (fun _ _ => true) ⟨0,[]⟩).mp (guarded malformed _ _) passes
  · intro formed malformed answer p
    exact (refused_iff line answer p).mpr fun passes => malformed (formed passes)

/-- Two bytes of data that add up with their number to 0, and no checksum. -/
def unchecked : List UInt8 := ascii ":02000000AA54"

theorem unchecked_written : ¬ Guarded unchecked ∧
    ihexParseAt (request fun _ _ => true) false unchecked ⟨0,[]⟩ = .ok (true,⟨0,[(0,[0xAA,0x54])]⟩) := by
  have written : ihexParseAt (request fun _ _ => true) false unchecked ⟨0,[]⟩ = .ok (true,⟨0,[(0,[0xAA,0x54])]⟩) := by
    rfl
  refine ⟨fun guarded => ?_,written⟩
  have malformed : ¬ WellFormed unchecked := by
    rintro ⟨digits,bytes,line,read,length,_⟩
    obtain rfl : digits = ascii "02000000AA54" := (List.cons.inj line).2.symm
    have same : unhex (ascii "02000000AA54") = some [2,0,0,0,0xAA,0x54] := by decide +kernel
    obtain rfl := Option.some.inj (read.symm.trans same)
    exact absurd length (by decide)
  have refused := guarded malformed (fun _ _ => true) ⟨0,[]⟩
  rw [written] at refused
  cases refused

end JcaFirmware.Ihex
