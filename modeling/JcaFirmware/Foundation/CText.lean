import Mathlib.Data.List.Basic
import Mathlib.Data.List.GetD
import Mathlib.Data.List.Infix
import Mathlib.Data.List.TakeWhile

/-! Texts of C as lists of bytes: the end of the list is the NUL. Comparing up to a
length, in either case, and the word at the front of a text. -/
namespace JcaFirmware.Foundation.CText

def charAt (text : List UInt8) (i : Nat) : UInt8 := text.getD i 0

def lower (c : UInt8) : UInt8 := if 0x41 ≤ c ∧ c ≤ 0x5A then c + 0x20 else c

def IsLetter (c : UInt8) : Prop := (0x41 ≤ c ∧ c ≤ 0x5A) ∨ (0x61 ≤ c ∧ c ≤ 0x7A)

instance (c : UInt8) : Decidable (IsLetter c) := inferInstanceAs (Decidable (_ ∨ _))

/-- The text at the front of some memory, up to its NUL. -/
def cString (memory : List UInt8) : List UInt8 := memory.takeWhile fun c => c ≠ 0

/-- `strncpy`: filled up with NULs, of which there is none behind a text that is too long. -/
def strncpy (n : Nat) (text : List UInt8) : List UInt8 := text.take n ++ List.replicate (n - text.length) 0

/-- `strnicmp` finds no difference. -/
def sameUpTo (n : Nat) (a b : List UInt8) : Bool := (a.take n).map lower = (b.take n).map lower

theorem cString_append {text : List UInt8} (nulFree : 0 ∉ text) (rest : List UInt8) :
    cString (text ++ rest) = text ++ cString rest := by
  apply List.takeWhile_append_of_pos
  intro c member
  exact decide_eq_true fun nul => nulFree (nul ▸ member)

theorem cString_nul (rest : List UInt8) : cString (0 :: rest) = [] := rfl

theorem cString_eq_nil {c : UInt8} {rest : List UInt8} : cString (c :: rest) = [] ↔ c = 0 := by
  simp [cString,List.takeWhile_cons]

theorem strncpy_short {n : Nat} {text : List UInt8} (short : text.length < n) :
    strncpy n text = text ++ 0 :: List.replicate (n - text.length - 1) 0 := by
  obtain ⟨more,count⟩ : ∃ more, n - text.length = more + 1 := ⟨n - text.length - 1,by omega⟩
  rw [strncpy,List.take_of_length_le (Nat.le_of_lt short),count,Nat.add_sub_cancel,List.replicate_succ]

theorem letter_of_lower {c d : UInt8} (same : lower c = lower d) (letter : IsLetter d) : IsLetter c := by
  unfold lower IsLetter at *
  split_ifs at same with upper upper'
  · exact Or.inl upper
  · exact Or.inl upper
  · rcases letter with ⟨low,high⟩ | small
    · right
      grind
    · grind
  · exact same ▸ letter

/-- A test for the characters of words: letters pass it, the end of a text does not. -/
structure WordTest where
  test : UInt8 → Bool
  letter : ∀ c, IsLetter c → test c = true
  nul : test 0 = false

variable (isChar : WordTest) (text : List UInt8)

def word : List UInt8 := text.takeWhile isChar.test

theorem word_starts : word isChar text <+: text := List.takeWhile_prefix _

theorem take_word : text.take (word isChar text).length = word isChar text :=
  List.prefix_iff_eq_take.mp (word_starts isChar text) |>.symm

theorem charAt_word : isChar.test (charAt text (word isChar text).length) = false := by
  induction text with
  | nil => exact isChar.nul
  | cons c text ih =>
    rw [word,List.takeWhile_cons]
    cases inside : isChar.test c with
    | true => exact ih
    | false => exact inside

theorem charAt_inside {i : Nat} (inside : i < (word isChar text).length) : isChar.test (charAt text i) = true := by
  have within : i < text.length := Nat.lt_of_lt_of_le inside (word_starts isChar text).length_le
  have same : charAt text i = (word isChar text)[i] := by
    rw [charAt,List.getD_eq_getElem _ _ within]
    exact ((word_starts isChar text).getElem inside).symm
  rw [same]
  exact List.mem_takeWhile_imp (List.getElem_mem inside)

theorem word_of_take {n : Nat} (inside : ∀ c ∈ text.take n, isChar.test c = true)
    (past : isChar.test (charAt text n) = false) : word isChar text = text.take n := by
  have split : word isChar (text.take n ++ text.drop n) = text.take n ++ word isChar (text.drop n) :=
    List.takeWhile_append_of_pos inside
  rw [List.take_append_drop] at split
  have stop : word isChar (text.drop n) = [] := by
    cases rest : text.drop n with
    | nil => rfl
    | cons c rest =>
      have first : charAt text n = c := by
        rw [charAt,List.getD_eq_getElem?_getD,← Nat.add_zero n,← List.getElem?_drop,rest]
        rfl
      rw [first] at past
      exact List.takeWhile_cons_of_neg (by simp [past])
  rw [split,stop,List.append_nil]

theorem sameUpTo_name {name : List UInt8} :
    sameUpTo name.length text name = true ↔ (text.take name.length).map lower = name.map lower := by
  rw [sameUpTo,List.take_length,decide_eq_true_eq]

theorem le_length_of_same {name : List UInt8} (same : (text.take name.length).map lower = name.map lower) :
    name.length ≤ text.length := by
  have lengths := congrArg List.length same
  rw [List.length_map,List.length_map,List.length_take] at lengths
  omega

end JcaFirmware.Foundation.CText
