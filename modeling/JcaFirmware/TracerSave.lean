import JcaFirmware.Cfg
import JcaFirmware.Foundation.Text
import JcaFirmware.TracerParam

/-! Saving the parameters of the tracker (`tracer_save_config` in `app/tracer/tracer.c`): the text that is
written, and that `_param_load` reads from it the parameters it was written of. -/
namespace JcaFirmware.TracerSave
open Foundation Numeral Tracer TracerParam Cfg Cmd

def cfgIdTracerParam : Nat := 21

section Code

/-- What `snprintf` leaves of a text in an array. -/
def snprintf (size : Nat) (text : List UInt8) : List UInt8 := text.take (size - 1)

/-- The text of the format, of any length. -/
def saveText (p : Param) : List UInt8 :=
  numeral 10 p.unitId ++ ascii "," ++ numeral 10 p.period ++ ascii "," ++ numeral 10 p.periodRoaming ++ ascii "," ++
    numeral 10 p.waitTime ++ ascii "," ++ numeral 10 p.protocol ++ ascii "," ++ numeral 10 p.startSpeed ++ ascii "," ++
    numeral 10 p.sendMode ++ ascii "," ++ numeral 10 p.startMode

variable (signed : Bool) (appendStr : List UInt8 → List UInt8 → Bool × List UInt8)

/-- The text in the buffer for `cfg_write`. -/
def savedText (p : Param) : List UInt8 := (appendStr [] (snprintf cfgItemSize (saveText p))).2

def tracerSaveConfig (p : Param) (storage : Storage) (s : State) : Bool × Storage × State :=
  if tracerUnitIdMax < p.unitId then (false,storage,s)
  else
    let (ok,storage) := cfgWrite signed cfgIdTracerParam (savedText appendStr p) accessSystem storage
    if ok = false then (false,storage,s) else (true,storage,tracerServerReinit p.unitId s)

end Code

section Accepted

/-- Every parameter is in the range that the reader accepts for it. -/
def Accepts (p : Param) : Prop := List.Forall₂ Field.accepts layout (values p)

instance (p : Param) : Decidable (Accepts p) := inferInstanceAs (Decidable (List.Forall₂ _ _ _))

/-- The widths of `tracer_param_t`. -/
def Fits (p : Param) : Prop :=
  p.unitId < 2 ^ 32 ∧ p.period < 2 ^ 16 ∧ p.periodRoaming < 2 ^ 16 ∧ p.waitTime < 2 ^ 16 ∧
    p.protocol < 2 ^ 8 ∧ p.startSpeed < 2 ^ 8 ∧ p.sendMode < 2 ^ 8 ∧ p.startMode < 2 ^ 8

/-- The parameters in the order of the text. -/
def numbersOf (p : Param) : List Nat :=
  [p.unitId,p.period,p.periodRoaming,p.waitTime,p.protocol,p.startSpeed,p.sendMode,p.startMode]

def numbers : List Nat → List UInt8
  | [] => []
  | [n] => numeral 10 n
  | n :: ns => numeral 10 n ++ comma :: numbers ns

theorem values_eq (p : Param) : values p = (numbersOf p).map fun n : Nat => (n : Int) := rfl

theorem saveText_eq (p : Param) : saveText p = numbers (numbersOf p) := by
  have one : ascii "," = [comma] := rfl
  simp only [saveText,numbersOf,numbers,one,List.append_assoc,List.cons_append,List.nil_append]

theorem values_inj {p q : Param} (same : values p = values q) : p = q := by
  cases p
  cases q
  simp only [values,List.cons.injEq,Nat.cast_inj,and_true] at same
  simp only [Param.mk.injEq]
  exact same

variable {p : Param} (accepts : Accepts p)
include accepts

theorem Accepts.bounds : p.unitId ≤ 0x7FFFFFFE ∧ p.period ≤ 3600 ∧ p.periodRoaming ≤ 3600 ∧ p.waitTime ≤ 3600 ∧
    p.protocol ≤ 1 ∧ p.startSpeed ≤ 99 ∧ p.sendMode ≤ 2 ∧ p.startMode ≤ 3 := by
  simp only [Accepts,layout,values,List.forall₂_cons,Field.accepts,limitTraceInterval,limitTraceEnd,tracerProtoLast,
    tracerSendModeOff,tracerStartModeAll,tracerUnitIdMax] at accepts
  omega

theorem Accepts.fits : Fits p := by
  have bounds := accepts.bounds
  unfold Fits
  omega

theorem Accepts.length_saveText : (saveText p).length ≤ 34 := by
  obtain ⟨unitId,period,roaming,wait,protocol,speed,send,start⟩ := accepts.bounds
  have one : (ascii ",").length = 1 := rfl
  have digits {k n : Nat} (pos : 0 < k) (bound : n < 10 ^ k) := numeral_length (by decide : 1 < 10) pos bound
  have unitId := @digits 10 p.unitId (by decide) (by omega)
  have period := @digits 4 p.period (by decide) (by omega)
  have roaming := @digits 4 p.periodRoaming (by decide) (by omega)
  have wait := @digits 4 p.waitTime (by decide) (by omega)
  have protocol := @digits 1 p.protocol (by decide) (by omega)
  have speed := @digits 2 p.startSpeed (by decide) (by omega)
  have send := @digits 1 p.sendMode (by decide) (by omega)
  have start := @digits 1 p.startMode (by decide) (by omega)
  simp only [saveText,List.length_append,one]
  omega

end Accepted

section Decoding

/-- What is relied on of the parser functions: the decimal digits of a number are read up to a comma or the end, and a comma is
a separator. -/
structure Decodes (sdk : Sdk) : Prop where
  number : ∀ n rest, n ≤ tracerUnitIdMax → (∀ c ∈ rest.head?, c = comma) → sdk.parseNumber (numeral 10 n ++ rest) = some ((n : Int),rest)
  separator : ∀ rest, sdk.parseSeparator (comma :: rest) = some rest
  noSeparator : sdk.parseSeparator [] = none

variable {sdk : Sdk} (decodes : Decodes sdk)
include decodes

theorem numbers_cons (n : Nat) (ns : List Nat) : ∃ rest, numbers (n :: ns) = numeral 10 n ++ rest ∧ (∀ c ∈ rest.head?, c = comma) ∧
    (match sdk.parseSeparator rest with | some sep => sep | none => rest) = numbers ns := by
  cases ns with
  | nil => exact ⟨[],(List.append_nil _).symm,nofun,by rw [decodes.noSeparator]; rfl⟩
  | cons next ns =>
    refine ⟨comma :: numbers (next :: ns),rfl,fun c first => (Option.some.inj first).symm,?_⟩
    rw [decodes.separator]

theorem numGet_numbers {f : Field} (sound : f.Sound) {n : Nat} (accepted : f.accepts n) (ns : List Nat) :
    numGet sdk (numbers (n :: ns)) f.min f.max f.default = ((n : Int),numbers ns) := by
  obtain ⟨rest,whole,ends,next⟩ := numbers_cons decodes n ns
  obtain ⟨low,high⟩ := accepted
  have most := sound.high
  have read := decodes.number n rest (by omega) ends
  have moved : numNext sdk (numbers (n :: ns)) = some ((n : Int),numbers ns) := by
    rw [whole,← next,numNext,read]
    dsimp only
    cases sdk.parseSeparator rest <;> rfl
  rw [numGet,moved]
  exact if_neg (not_or.mpr ⟨Int.not_lt.mpr low,Int.not_lt.mpr high⟩)

/-- The chain of calls reads the numbers back, each for its field. -/
theorem loads_numbers {fields : List Field} (sound : ∀ f ∈ fields, f.Sound) {ns : List Nat}
    (accepted : List.Forall₂ Field.accepts fields (ns.map fun n : Nat => (n : Int))) :
    loads sdk (numbers ns) fields = ns.map fun n : Nat => (n : Int) := by
  induction fields generalizing ns with
  | nil =>
    cases ns with
    | nil => rfl
    | cons n ns => cases accepted
  | cons f fields ih =>
    cases ns with
    | nil => cases accepted
    | cons n ns =>
      rw [List.map_cons,List.forall₂_cons] at accepted
      rw [loads,numGet_numbers decodes (sound f List.mem_cons_self) accepted.1,List.map_cons,
        ih (fun f' member => sound f' (List.mem_cons_of_mem f member)) accepted.2]

theorem paramLoad_saveText {p : Param} (accepts : Accepts p) : (paramLoad sdk (saveText p)).1 = p := by
  apply values_inj
  rw [← loads_values,saveText_eq,values_eq]
  exact loads_numbers decodes layout_sound accepts

end Decoding

section Store

theorem nul_not_padded (width n : Nat) : 0 ∉ padded 10 width n := by
  intro member
  obtain ⟨d,inside,same⟩ := mem_padded (by decide) member
  exact (digit_plain (Nat.lt_trans inside (by decide))).2.2.2.2 same.symm

theorem nul_not_numbers (ns : List Nat) : 0 ∉ numbers ns := by
  induction ns with
  | nil => exact List.not_mem_nil
  | cons n ns ih =>
    cases ns with
    | nil =>
      rw [numbers,numeral_eq_padded]
      exact nul_not_padded 0 n
    | cons next ns =>
      rw [numbers,List.mem_append,List.mem_cons,not_or,not_or,numeral_eq_padded]
      · exact ⟨nul_not_padded 0 n,by decide,ih⟩
      · exact nofun

variable (signed : Bool) (beyond : List UInt8) {appendStr : List UInt8 → List UInt8 → Bool × List UInt8} {room : Nat}

theorem cfgWrite_saveText {p : Param} (accepts : Accepts p) (storage : Storage) :
    (cfgWrite signed cfgIdTracerParam (saveText p) accessSystem storage).1 = storage.ready := by
  have length := accepts.length_saveText
  have size : cfgItemSize = 62 := rfl
  rw [cfgWrite_eq]
  cases ready : storage.ready with
  | false => rw [if_neg fun accepted => absurd (accepted.2.2.symm.trans ready) nofun]
  | true => rw [if_pos ⟨by omega,by decide +kernel,ready⟩]

/-- The text is read as it was written, since it does not fill the item. -/
theorem cfgRead_saveText {p : Param} (accepts : Accepts p) {storage : Storage} (ready : storage.ready = true) :
    cfgRead signed beyond cfgIdTracerParam accessSystem (cfgWrite signed cfgIdTracerParam (saveText p) accessSystem storage).2 =
      (true,some (saveText p)) := by
  have length := accepts.length_saveText
  have size : cfgItemSize = 62 := rfl
  have nulFree : 0 ∉ saveText p := by
    rw [saveText_eq]
    exact nul_not_numbers _
  have back := (readsBack_iff signed beyond cfgIdTracerParam (saveText p) accessSystem storage nulFree).mpr fun full => absurd full (by omega)
  exact back.exact ((cfgWrite_saveText signed accepts storage).trans ready) accessSystem (by decide +kernel)

variable (bounded : Text.Bounded room appendStr) (item : cfgItemSize ≤ room + 1)
include bounded item

/-- The whole text is in the buffer, where the buffer takes as many characters as an item. -/
theorem savedText_eq {p : Param} (accepts : Accepts p) :
    snprintf cfgItemSize (saveText p) = saveText p ∧ savedText appendStr p = saveText p := by
  have length := accepts.length_saveText
  have size : cfgItemSize = 62 := rfl
  have whole : snprintf cfgItemSize (saveText p) = saveText p := List.take_of_length_le (by omega)
  refine ⟨whole,?_⟩
  rw [savedText,whole,bounded.fits [] (saveText p) (by rw [List.nil_append]; omega),List.nil_append]

theorem tracerSaveConfig_eq {p : Param} (accepts : Accepts p) (storage : Storage) (s : State) :
    tracerSaveConfig signed appendStr p storage s =
      (storage.ready,(cfgWrite signed cfgIdTracerParam (saveText p) accessSystem storage).2,
        if storage.ready = false then s else tracerServerReinit p.unitId s) := by
  have inside : ¬ tracerUnitIdMax < p.unitId := Nat.not_lt.mpr accepts.bounds.1
  rw [tracerSaveConfig,if_neg inside,(savedText_eq bounded item accepts).2,← cfgWrite_saveText signed accepts storage]
  dsimp only
  split_ifs with failed
  · rw [failed]
  · rw [Bool.eq_true_of_not_eq_false failed]

variable {sdk : Sdk} (decodes : Decodes sdk)
include decodes

/-- After a restart the saved parameters are in use. -/
theorem tracerReinit_saved {p : Param} (accepts : Accepts p) {storage : Storage} (ready : storage.ready = true) (s s' : State)
    (target : Option (Nat × Option Nat)) :
    (tracerReinit ⟨target,(cfgRead signed beyond cfgIdTracerParam accessSystem
      (tracerSaveConfig signed appendStr p storage s).2.1).2.map fun text => (paramLoad sdk text).1⟩ s').server.p = p := by
  rw [tracerSaveConfig_eq signed bounded item accepts]
  dsimp only
  rw [cfgRead_saveText signed beyond accepts ready,Option.map_some,paramLoad_saveText decodes accepts]
  rfl

/-- Parameters in their ranges are written whole and read back the same, from the text and from the store. -/
theorem save_load {p : Param} (accepts : Accepts p) (storage : Storage) (s : State) :
    snprintf cfgItemSize (saveText p) = saveText p ∧ savedText appendStr p = saveText p ∧ (saveText p).length < cfgItemSize ∧
      Fits p ∧ (paramLoad sdk (savedText appendStr p)).1 = p ∧
      (tracerSaveConfig signed appendStr p storage s).1 = storage.ready ∧
      (storage.ready = true →
        cfgRead signed beyond cfgIdTracerParam accessSystem (tracerSaveConfig signed appendStr p storage s).2.1 =
          (true,some (savedText appendStr p))) := by
  obtain ⟨whole,saved⟩ := savedText_eq bounded item accepts
  have length := accepts.length_saveText
  have size : cfgItemSize = 62 := rfl
  rw [tracerSaveConfig_eq signed bounded item accepts,saved]
  dsimp only
  refine ⟨whole,rfl,by omega,accepts.fits,paramLoad_saveText decodes accepts,rfl,fun ready => ?_⟩
  exact cfgRead_saveText signed beyond accepts ready

end Store

section Plain

theorem decimal_numeral (n : Nat) : Decimal (numeral 10 n) n := by
  obtain ⟨ds,text,filled,inside,counted⟩ := padded_digits (by decide : 1 < 10) 0 n
  rw [numeral_eq_padded,text]
  refine ⟨by simpa using filled,?_,?_⟩
  · intro c member
    obtain ⟨d,own,rfl⟩ := List.mem_map.mp member
    rw [isDigit,digitOf_digit (by decide) (inside d own)]
    rfl
  · rw [value,List.foldl_map]
    rw [← counted]
    apply List.foldl_ext
    intro a d own
    rw [digitOf_digit (by decide) (inside d own)]
    rfl

/-- Parsers that read every decimal number read those of the formatter. -/
theorem Decodes.of_parses {sdk : Sdk} (parses : Parses sdk) : Decodes sdk where
  number n rest small ends := by
    have most : tracerUnitIdMax = 0x7FFFFFFE := rfl
    obtain ⟨v,read,same,_⟩ := parses.number (numeral 10 n) n rest (.plain (decimal_numeral n)) ends
    rw [read,same (by omega) (by omega)]
  separator := parses.separator
  noSeparator := parses.noSeparator

def largest : Param := ⟨0x7FFFFFFE,3600,3600,3600,1,99,2,3⟩

theorem save_load_largest : (saveText largest).length < cfgItemSize ∧
    (paramLoad plainSdk (savedText (Text.appendWithin 61) largest)).1 = largest := by
  obtain ⟨_,_,short,_,loaded,_⟩ := save_load false [] (@Text.appendWithin_bounded UInt8 61) (by decide)
    (.of_parses plainSdk_parses) (show Accepts largest by decide) erasedUnit (statics TracerBuffer.erasedFlash)
  exact ⟨short,loaded⟩

end Plain

end JcaFirmware.TracerSave
