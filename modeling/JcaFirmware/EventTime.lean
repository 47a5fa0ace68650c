import JcaFirmware.EventMemory
import JcaFirmware.Sms

/-! The time of an event in a text (`_buf_add_event` of `app/event.c`), and the listing of the event
memory (`_append_mem` of `app/cmd.c`). The date is left out where the day or the month is the
current one, although only both with the year make the current day. -/
namespace JcaFirmware.EventTime
open Foundation Numeral Sms

section Listing

variable (setting : Setting) (rtcValid : Rtc → Bool) (m : EventMemory.Memory) (now : Nat → Rtc)

/-- `_append_mem`; the clock is read for each event. -/
def appendMem (result : List UInt8) (backIndex num : Nat) : Except EventBuf.Fault (List UInt8) :=
  (List.range num).foldlM (fun result i => do
    let result := if i = 0 then result else (setting.appendStr result (ascii "; ")).2
    match EventMemory.eventMemoryRead rtcValid m (backIndex + i) with
    | some e => bufAddEvent setting (now i) result e
    | none => .ok (setting.appendStr result (ascii "-")).2) result

/-- What is listed of an event, or of none. -/
def Entry (now : Rtc) (strs : List (List UInt8)) : Option Event → Prop
  | some e => pieces setting now e = .ok strs
  | none => strs = [ascii "-"]

/-- The description of an event starts with its time. -/
theorem Entry.time {setting : Setting} {now : Rtc} {strs : List (List UInt8)} {e : Event} (entry : Entry setting now strs (some e)) :
    strs.head? = some (timeText now e.time) := by
  rw [Entry,pieces] at entry
  cases event : eventName setting e.id with
  | error fault =>
    rw [event] at entry
    cases entry
  | ok event' =>
    cases source : sourceName setting e.source with
    | error fault =>
      rw [event,source] at entry
      cases entry
    | ok source' =>
      rw [event,source] at entry
      cases entry
      rfl

theorem readLoop_valid (flash : EventMemory.Flash) {rounds ptr backIndex : Nat} {e : Event}
    (found : EventMemory.readLoop rtcValid flash rounds ptr backIndex = some e) : e.valid rtcValid = true := by
  induction rounds generalizing ptr backIndex with
  | zero => cases found
  | succ rounds ih =>
    cases backIndex with
    | zero =>
      simp only [EventMemory.readLoop] at found
      split at found
      · split_ifs at found with valid
        rwa [← Option.some.inj found]
      · cases found
    | succ backIndex => exact ih found

theorem valid_names {e : Event} (valid : e.valid rtcValid = true) : e.id < eventIdSize ∧ e.source < eventSourceSize := by
  rw [Event.valid] at valid
  split_ifs at valid with time names
  obtain ⟨id,source⟩ := not_or.mp names
  exact ⟨UInt8.not_le.mp id,UInt8.not_le.mp source⟩

theorem exists_entry (i backIndex : Nat) :
    ∃ strs, Entry setting (now i) strs (EventMemory.eventMemoryRead rtcValid m (backIndex + i)) := by
  cases found : EventMemory.eventMemoryRead rtcValid m (backIndex + i) with
  | none => exact ⟨_,rfl⟩
  | some e =>
    obtain ⟨id,source⟩ := valid_names rtcValid (readLoop_valid rtcValid m.flash found)
    exact pieces_ok setting (now i) id source

/-- The listing never asserts, and has an entry for each index. -/
theorem appendMem_entries (result : List UInt8) (backIndex : Nat) : ∃ entry : Nat → List (List UInt8),
    (∀ i, Entry setting (now i) (entry i) (EventMemory.eventMemoryRead rtcValid m (backIndex + i))) ∧
      ∀ num, appendMem setting rtcValid m now result backIndex num = .ok (Text.appendAll setting.appendStr result
        ((List.range num).flatMap fun i => (if i = 0 then [] else [ascii "; "]) ++ entry i)) := by
  choose entry entries using fun i => exists_entry setting rtcValid m now i backIndex
  refine ⟨entry,entries,fun num => ?_⟩
  rw [appendMem]
  induction num with
  | zero => rfl
  | succ num ih =>
    have own := entries num
    rw [List.range_succ,List.foldlM_append,ih,List.flatMap_append,Text.appendAll,Text.appendAll,List.foldl_append,
      List.flatMap_singleton,List.foldl_append]
    simp only [bind,Except.bind,List.foldlM_cons,List.foldlM_nil]
    generalize List.foldl _ result _ = text
    cases found : EventMemory.eventMemoryRead rtcValid m (backIndex + num) with
    | none =>
      rw [found,Entry] at own
      rw [own]
      split_ifs <;> rfl
    | some e =>
      rw [found,Entry] at own
      dsimp only [bufAddEvent]
      rw [own]
      split_ifs <;> rfl

end Listing

section Texts

variable (now t u : Rtc)

def slash : UInt8 := 0x2F

def clockText : List UInt8 :=
  numeral 10 t.hour.toNat ++ ascii ":" ++ padded 10 2 t.minute.toNat ++ ascii ":" ++ padded 10 2 t.second.toNat

def datedText : List UInt8 :=
  padded 10 2 t.year.toNat ++ ascii "/" ++ numeral 10 t.month.toNat ++ ascii "/" ++ numeral 10 t.day.toNat ++
    ascii " " ++ clockText t

/-- An event of the current day. -/
def Today : Prop := t.year = now.year ∧ t.month = now.month ∧ t.day = now.day

/-- What the code asks of the date instead. -/
def Shares : Prop := now.day = t.day ∨ now.month = t.month

instance : Decidable (Today now t) := inferInstanceAs (Decidable (_ ∧ _))

instance : Decidable (Shares now t) := inferInstanceAs (Decidable (_ ∨ _))

def DateLeftOut : Prop := slash ∉ timeText now t

instance : Decidable (DateLeftOut now t) := inferInstanceAs (Decidable (¬ _))

/-- The texts tell two different times apart, unless both are of the current day, and only then the date is left out. -/
def Unambiguous : Prop :=
  (t ≠ u → ¬ (Today now t ∧ Today now u) → timeText now t ≠ timeText now u) ∧
    (DateLeftOut now t → Today now t) ∧ (DateLeftOut now u → Today now u)

instance : Decidable (Unambiguous now t u) := inferInstanceAs (Decidable (_ ∧ _ ∧ _))

variable {now t u}

theorem timeText_shares (shares : Shares now t) : timeText now t = clockText t := if_pos shares

theorem timeText_dated (apart : ¬ Shares now t) : timeText now t = datedText t := if_neg apart

theorem Today.shares (today : Today now t) : Shares now t := Or.inl today.2.2.symm

theorem slash_ne_digit {d : Nat} (inside : d < 10) : digit d ≠ slash := by interval_cases d <;> decide

theorem slash_not_padded (width n : Nat) : slash ∉ padded 10 width n := by
  intro member
  obtain ⟨d,inside,same⟩ := mem_padded (by decide) member
  exact slash_ne_digit inside same.symm

theorem slash_not_clock : slash ∉ clockText t := by
  have colon : slash ∉ ascii ":" := by decide
  rw [clockText,numeral_eq_padded]
  simp only [List.mem_append,not_or]
  exact ⟨⟨⟨⟨slash_not_padded 0 _,colon⟩,slash_not_padded 2 _⟩,colon⟩,slash_not_padded 2 _⟩

theorem slash_dated : slash ∈ datedText t := by
  have own : slash ∈ ascii "/" := by decide
  rw [datedText]
  simp only [List.mem_append]
  exact Or.inl (Or.inl (Or.inl (Or.inl (Or.inl (Or.inr own)))))

theorem dateLeftOut_iff : DateLeftOut now t ↔ Shares now t := by
  rw [DateLeftOut]
  by_cases shares : Shares now t
  · rw [timeText_shares shares]
    exact iff_of_true slash_not_clock shares
  · rw [timeText_dated shares]
    exact iff_of_false (fun absent => absent slash_dated) shares

/-- One number of a text, with the character behind it. -/
theorem padded_cons_inj {width n n' : Nat} {c : UInt8} {rest rest' : List UInt8} (stop : digitOf 10 c = none ∧ isX c = false)
    (same : padded 10 width n ++ c :: rest = padded 10 width n' ++ c :: rest') : n = n' ∧ rest = rest' := by
  have stops {rest : List UInt8} : Stops 10 (c :: rest) := by
    intro d first
    obtain rfl := Option.some.inj first
    exact stop
  obtain ⟨number,behind⟩ := padded_append_inj (by decide) (by decide) stops stops same
  exact ⟨number,(List.cons.inj behind).2⟩

/-- A dated text determines the time. -/
theorem datedText_inj (same : datedText t = datedText u) : t = u := by
  have slash : ascii "/" = [0x2F] := rfl
  have space : ascii " " = [0x20] := rfl
  have colon : ascii ":" = [0x3A] := rfl
  have ends : Stops 10 [] := fun c none => absurd none (by simp)
  simp only [datedText,clockText,numeral_eq_padded,slash,space,colon,List.append_assoc,List.singleton_append] at same
  obtain ⟨year,same⟩ := padded_cons_inj (by decide) same
  obtain ⟨month,same⟩ := padded_cons_inj (by decide) same
  obtain ⟨day,same⟩ := padded_cons_inj (by decide) same
  obtain ⟨hour,same⟩ := padded_cons_inj (by decide) same
  obtain ⟨minute,same⟩ := padded_cons_inj (by decide) same
  obtain ⟨second,_⟩ := padded_append_inj (by decide) (by decide) ends ends (congrArg (· ++ []) same)
  cases t
  cases u
  simp only [Rtc.mk.injEq]
  exact ⟨UInt8.toNat_inj.mp year,UInt8.toNat_inj.mp month,UInt8.toNat_inj.mp day,UInt8.toNat_inj.mp hour,
    UInt8.toNat_inj.mp minute,UInt8.toNat_inj.mp second⟩

/-- An event with the current day or month must be of the current day. -/
theorem unambiguous_iff (now t u : Rtc) :
    Unambiguous now t u ↔ (Shares now t → Today now t) ∧ (Shares now u → Today now u) := by
  rw [Unambiguous,dateLeftOut_iff,dateLeftOut_iff]
  constructor
  · exact fun unambiguous => unambiguous.2
  · rintro ⟨first,second⟩
    refine ⟨fun different old same => ?_,first,second⟩
    by_cases shares : Shares now t
    · by_cases shares' : Shares now u
      · exact old ⟨first shares,second shares'⟩
      · rw [timeText_shares shares,timeText_dated shares'] at same
        exact slash_not_clock (same ▸ slash_dated)
    · by_cases shares' : Shares now u
      · rw [timeText_dated shares,timeText_shares shares'] at same
        exact slash_not_clock (same ▸ slash_dated)
      · rw [timeText_dated shares,timeText_dated shares'] at same
        exact different (datedText_inj same)

/-- On the fifteenth of June 2026 an alarm of the third reads as one of today. -/
theorem unambiguous_not_of_month : ¬ Unambiguous ⟨26,6,15,12,0,0⟩ ⟨26,6,3,10,0,0⟩ ⟨26,6,15,10,0,0⟩ := by decide +kernel

end Texts

end JcaFirmware.EventTime
