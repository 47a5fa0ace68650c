import JcaFirmware.Foundation.Scan
import JcaFirmware.Tracer

/-! The parameters of the tracker in the configuration (`_param_load` in `app/tracer/tracer.c`): numbers with commas
between them, of which any may be left out. -/
namespace JcaFirmware.TracerParam
open Foundation Numeral Tracer

def comma : UInt8 := 0x2C

/-- The parser functions of the SDK: a number in front of a text, with what is behind it, and what is behind a separator. -/
structure Sdk where
  parseNumber : List UInt8 → Option (Int × List UInt8)
  parseSeparator : List UInt8 → Option (List UInt8)

section Code

variable (sdk : Sdk)

def numNext (s : List UInt8) : Option (Int × List UInt8) :=
  match sdk.parseNumber s with
  | none => none
  | some (n,p) =>
    match sdk.parseSeparator p with
    | some sep => some (n,sep)
    | none => some (n,p)

/-- A number, and the cursor behind it. -/
def numGet (s : List UInt8) (min max default : Int) : Int × List UInt8 :=
  match numNext sdk s with
  | none => (default,s)
  | some (n,s) => if n < min ∨ max < n then (default,s) else (n,s)

def limitTraceEnd : Int := 3600
def limitTraceInterval : Int := 3600
def tracerProtoLast : Int := 1
def tracerStartModeAll : Int := 3

/-- With the parameters comes what is left for `parse_terminator`. -/
def paramLoad (value : List UInt8) : Param × List UInt8 :=
  let s := value
  let (unitId,s) := numGet sdk s 0 tracerUnitIdMax 0
  let (period,s) := numGet sdk s 0 limitTraceInterval 10
  let (periodRoaming,s) := numGet sdk s 1 limitTraceInterval 10
  let (waitTime,s) := numGet sdk s 1 limitTraceEnd 20
  let (protocol,s) := numGet sdk s 0 tracerProtoLast 0
  let (startSpeed,s) := numGet sdk s 1 99 3
  let (sendMode,s) := numGet sdk s 0 tracerSendModeOff 0
  let (startMode,s) := numGet sdk s 0 tracerStartModeAll tracerStartModeAll
  (⟨unitId.toNat,period.toNat,periodRoaming.toNat,waitTime.toNat,protocol.toNat,startSpeed.toNat,sendMode.toNat,startMode.toNat⟩,s)

end Code

section Fields

/-- The range of a parameter, and its default. -/
structure Field where
  min : Int
  max : Int
  default : Int
deriving DecidableEq, Repr

def layout : List Field :=
  [⟨0,tracerUnitIdMax,0⟩,⟨0,limitTraceInterval,10⟩,⟨1,limitTraceInterval,10⟩,⟨1,limitTraceEnd,20⟩,⟨0,tracerProtoLast,0⟩,
    ⟨1,99,3⟩,⟨0,tracerSendModeOff,0⟩,⟨0,tracerStartModeAll,tracerStartModeAll⟩]

/-- The parameters in the order of the text. -/
def values (p : Param) : List Int :=
  [p.unitId,p.period,p.periodRoaming,p.waitTime,p.protocol,p.startSpeed,p.sendMode,p.startMode]

/-- A range of numbers that are not negative, in which the default is. -/
structure Field.Sound (f : Field) : Prop where
  low : 0 ≤ f.min
  high : f.max ≤ tracerUnitIdMax
  inside : f.min ≤ f.default ∧ f.default ≤ f.max

instance (f : Field) : Decidable f.Sound :=
  decidable_of_iff (0 ≤ f.min ∧ f.max ≤ tracerUnitIdMax ∧ f.min ≤ f.default ∧ f.default ≤ f.max)
    ⟨fun ⟨low,high,inside⟩ => ⟨low,high,inside⟩,fun ⟨low,high,inside⟩ => ⟨low,high,inside⟩⟩

theorem layout_sound : ∀ f ∈ layout, f.Sound := by decide

/-- A decimal number, with a minus or without. -/
inductive Spells : List UInt8 → Int → Prop
  | plain {digits : List UInt8} {n : Nat} (decimal : Decimal digits n) : Spells digits n
  | minus {digits : List UInt8} {n : Nat} (decimal : Decimal digits n) : Spells (0x2D :: digits) (-n)

inductive Token
  | empty
  | number (text : List UInt8) (n : Int) (spells : Spells text n)

def Token.text : Token → List UInt8
  | .empty => []
  | .number text _ _ => text

def Field.accepts (f : Field) (n : Int) : Prop := f.min ≤ n ∧ n ≤ f.max

instance (f : Field) (n : Int) : Decidable (f.accepts n) := inferInstanceAs (Decidable (_ ∧ _))

/-- The value that a token gives to its parameter. -/
def Field.own (f : Field) : Option Token → Int
  | some (.number _ n _) => if f.accepts n then n else f.default
  | _ => f.default

def joined : List Token → List UInt8
  | [] => []
  | [token] => token.text
  | token :: tokens => token.text ++ comma :: joined tokens

/-- What is relied on of the SDK: no number is found in front of a comma or of the end, and a decimal number is read up to
them, exactly if it fits into 32 bits, and else as one that no parameter takes. -/
structure Parses (sdk : Sdk) : Prop where
  nothing : ∀ text, (∀ c ∈ text.head?, c = comma) → sdk.parseNumber text = none
  number : ∀ text n rest, Spells text n → (∀ c ∈ rest.head?, c = comma) →
    ∃ v, sdk.parseNumber (text ++ rest) = some (v,rest) ∧ (-2 ^ 31 ≤ n → n < 2 ^ 31 → v = n) ∧
      (¬ (-2 ^ 31 ≤ n ∧ n < 2 ^ 31) → v < 0 ∨ (tracerUnitIdMax : Int) < v)
  separator : ∀ rest, sdk.parseSeparator (comma :: rest) = some rest
  noSeparator : sdk.parseSeparator [] = none

/-- The chain of calls for any fields. -/
def loads (sdk : Sdk) (s : List UInt8) : List Field → List Int
  | [] => []
  | f :: fields => (numGet sdk s f.min f.max f.default).1 :: loads sdk (numGet sdk s f.min f.max f.default).2 fields

theorem loads_nonneg (sdk : Sdk) (s : List UInt8) {fields : List Field} (sound : ∀ f ∈ fields, f.Sound) : ∀ n ∈ loads sdk s fields, 0 ≤ n := by
  induction fields generalizing s with
  | nil => exact fun _ => nofun
  | cons f fields ih =>
    have low := (sound f List.mem_cons_self).low
    have inside := (sound f List.mem_cons_self).inside
    intro n member
    rcases List.mem_cons.mp member with rfl | member
    · rw [numGet]
      split
      · exact Int.le_trans low inside.1
      · split_ifs
        · exact Int.le_trans low inside.1
        · dsimp only
          omega
    · exact ih _ (fun f' member' => sound f' (List.mem_cons_of_mem f member')) n member

/-- The parameters are what the chain reads with the ranges and defaults of the layout. -/
theorem loads_values (sdk : Sdk) (value : List UInt8) : loads sdk value layout = values (paramLoad sdk value).1 := by
  have whole : values (paramLoad sdk value).1 = (loads sdk value layout).map fun n => (n.toNat : Int) := rfl
  rw [whole]
  symm
  calc (loads sdk value layout).map (fun n => (n.toNat : Int))
    _ = (loads sdk value layout).map id :=
      List.map_congr_left fun n member => Int.toNat_of_nonneg (loads_nonneg sdk value layout_sound n member)
    _ = loads sdk value layout := List.map_id _

variable {sdk : Sdk} (parses : Parses sdk)
include parses

theorem numGet_nothing {s : List UInt8} (stuck : ∀ c ∈ s.head?, c = comma) (f : Field) :
    numGet sdk s f.min f.max f.default = (f.default,s) := by
  rw [numGet,numNext,parses.nothing s stuck]

/-- Where nothing is read the cursor stays, and every field that follows has its default. -/
theorem loads_nothing {s : List UInt8} (stuck : ∀ c ∈ s.head?, c = comma) (fields : List Field) :
    loads sdk s fields = fields.map Field.default := by
  induction fields with
  | nil => rfl
  | cons f fields ih => rw [loads,numGet_nothing parses stuck f,ih,List.map_cons]

theorem joined_number (token : Token) (tokens : List Token) : ∃ rest, joined (token :: tokens) = token.text ++ rest ∧
    (∀ c ∈ rest.head?, c = comma) ∧ (match sdk.parseSeparator rest with | some sep => sep | none => rest) = joined tokens := by
  cases tokens with
  | nil => exact ⟨[],(List.append_nil _).symm,nofun,by rw [parses.noSeparator]; rfl⟩
  | cons next tokens =>
    refine ⟨comma :: joined (next :: tokens),rfl,fun c first => (Option.some.inj first).symm,?_⟩
    rw [parses.separator]

theorem numGet_number {f : Field} (sound : f.Sound) {text : List UInt8} {n : Int} (spells : Spells text n) (tokens : List Token) :
    numGet sdk (joined (.number text n spells :: tokens)) f.min f.max f.default =
      (f.own (some (.number text n spells)),joined tokens) := by
  obtain ⟨rest,whole,ends,next⟩ := joined_number parses (.number text n spells) tokens
  obtain ⟨v,read,fits,wide⟩ := parses.number text n rest spells ends
  have low := sound.low
  have high := sound.high
  have most : (tracerUnitIdMax : Int) = 0x7FFFFFFE := rfl
  have moved : numNext sdk (joined (.number text n spells :: tokens)) = some (v,joined tokens) := by
    rw [whole,← next,numNext]
    change (match sdk.parseNumber (text ++ rest) with
      | none => none
      | some (n,p) => match sdk.parseSeparator p with | some sep => some (n,sep) | none => some (n,p)) = _
    rw [read]
    dsimp only
    cases sdk.parseSeparator rest <;> rfl
  rw [numGet,moved,Field.own]
  dsimp only
  by_cases inside : f.accepts n
  · have same : v = n := fits (by unfold Field.accepts at inside; omega) (by unfold Field.accepts at inside; omega)
    rw [if_pos inside,same,if_neg fun outside => ?_]
    unfold Field.accepts at inside
    omega
  · have outside : v < f.min ∨ f.max < v := by
      unfold Field.accepts at inside
      by_cases word : -2 ^ 31 ≤ n ∧ n < 2 ^ 31
      · have same := fits word.1 word.2
        omega
      · have other := wide word
        omega
    rw [if_neg inside,if_pos outside]

end Fields

section Independent

/-- Each parameter has the value of its own token. -/
def own (tokens : List Token) (fields : List Field) : List Int := fields.mapIdx fun i f => f.own tokens[i]?

/-- No number behind an empty token is accepted for its parameter with another value than the default. -/
def Uncut (tokens : List Token) (fields : List Field) : Prop :=
  ∀ (i j : Nat) (f : Field) (text : List UInt8) (n : Int) (spells : Spells text n), i < j → tokens[i]? = some .empty →
    tokens[j]? = some (.number text n spells) → fields[j]? = some f → f.accepts n → n = f.default

theorem own_default_iff {f : Field} {token : Option Token} : f.own token = f.default ↔
    ∀ (text : List UInt8) (n : Int) (spells : Spells text n), token = some (.number text n spells) → f.accepts n → n = f.default := by
  cases token with
  | none => exact ⟨fun _ _ _ _ => nofun,fun _ => rfl⟩
  | some token =>
    cases token with
    | empty => exact ⟨fun _ _ _ _ => nofun,fun _ => rfl⟩
    | number text n spells =>
      rw [Field.own]
      constructor
      · intro same text' n' spells' token accepted
        obtain ⟨_,rfl⟩ := Token.number.inj (Option.some.inj token)
        rwa [if_pos accepted] at same
      · intro only
        by_cases accepted : f.accepts n
        · rw [if_pos accepted]
          exact only text n spells rfl accepted
        · rw [if_neg accepted]

theorem own_cons (token : Token) (tokens : List Token) (f : Field) (fields : List Field) :
    own (token :: tokens) (f :: fields) = f.own (some token) :: own tokens fields := by
  rw [own,List.mapIdx_cons,List.getElem?_cons_zero]
  rfl

theorem own_eq_default_iff (tokens : List Token) (fields : List Field) :
    own tokens fields = fields.map Field.default ↔ ∀ (j : Nat) (f : Field), fields[j]? = some f → f.own tokens[j]? = f.default := by
  constructor
  · intro same j f field
    have here : (own tokens fields)[j]? = (fields.map Field.default)[j]? := by rw [same]
    rw [own,List.getElem?_mapIdx,List.getElem?_map,field] at here
    exact Option.some.inj here
  · intro each
    apply List.ext_getElem?
    intro j
    rw [own,List.getElem?_mapIdx,List.getElem?_map]
    cases field : fields[j]? with
    | none => rfl
    | some f => exact congrArg some (each j f field)

theorem own_nil (fields : List Field) : own [] fields = fields.map Field.default :=
  (own_eq_default_iff [] fields).mpr fun _ _ _ => rfl

theorem uncut_number {text : List UInt8} {n : Int} {spells : Spells text n} {tokens : List Token} {f : Field} {fields : List Field} :
    Uncut (.number text n spells :: tokens) (f :: fields) ↔ Uncut tokens fields := by
  constructor
  · intro uncut i j f' text' n' spells' before empty token field
    exact uncut (i + 1) (j + 1) f' text' n' spells' (Nat.succ_lt_succ before) empty token field
  · intro uncut i j f' text' n' spells' before empty token field
    cases i with
    | zero => exact nomatch empty
    | succ i =>
      cases j with
      | zero => exact absurd before (Nat.not_lt_zero _)
      | succ j => exact uncut i j f' text' n' spells' (Nat.lt_of_succ_lt_succ before) empty token field

theorem uncut_empty {tokens : List Token} {f : Field} {fields : List Field} :
    Uncut (.empty :: tokens) (f :: fields) ↔ own tokens fields = fields.map Field.default := by
  rw [own_eq_default_iff]
  constructor
  · intro uncut j f' field
    exact own_default_iff.mpr fun text n spells token => uncut 0 (j + 1) f' text n spells (Nat.succ_pos j) rfl token field
  · intro each i j f' text n spells before _ token field
    cases j with
    | zero => exact absurd before (Nat.not_lt_zero _)
    | succ j => exact own_default_iff.mp (each j f' field) text n spells token

theorem joined_empty (tokens : List Token) : ∀ c ∈ (joined (.empty :: tokens)).head?, c = comma := by
  intro c first
  cases tokens with
  | nil => exact nomatch first
  | cons token tokens => exact (Option.some.inj first).symm

variable {sdk : Sdk} (parses : Parses sdk)
include parses

/-- The chain reads each token for its own field, exactly if nothing is lost behind an empty one. -/
theorem loads_own_iff (tokens : List Token) {fields : List Field} (sound : ∀ f ∈ fields, f.Sound) :
    loads sdk (joined tokens) fields = own tokens fields ↔ Uncut tokens fields := by
  induction fields generalizing tokens with
  | nil => exact ⟨fun _ i j f text n spells before empty token field => (nomatch field),fun _ => rfl⟩
  | cons f fields ih =>
    cases tokens with
    | nil =>
      rw [own_nil,loads_nothing parses (show ∀ c ∈ (joined []).head?, c = comma from nofun)]
      exact ⟨fun _ i j f' text n spells before empty => (nomatch empty),fun _ => rfl⟩
    | cons token tokens =>
      cases token with
      | number text n spells =>
        rw [loads,numGet_number parses (sound f List.mem_cons_self) spells,own_cons,List.cons_inj_right,
          ih tokens fun f' member => sound f' (List.mem_cons_of_mem f member),uncut_number]
      | empty =>
        rw [loads_nothing parses (joined_empty tokens),own_cons,List.map_cons,Field.own,List.cons_inj_right,uncut_empty,eq_comm]
        exact nofun

/-- The parameters have the values of their own tokens, each independently of the others, exactly if nothing is lost behind an
empty token. -/
theorem paramLoad_own_iff (tokens : List Token) : values (paramLoad sdk (joined tokens)).1 = own tokens layout ↔ Uncut tokens layout := by
  rw [← loads_values]
  exact loads_own_iff parses tokens layout_sound

end Independent

section Plain

/-- Numbers as `scanf` reads them, the nearest one for what does not fit into 32 bits. -/
def plainSdk : Sdk where
  parseNumber text := (number 10 text).map fun found => (storedSigned found.1,found.2)
  parseSeparator
    | [] => none
    | c :: rest => if c = comma then some rest else none

theorem plainSdk_parses : Parses plainSdk where
  nothing text ends := by
    cases text with
    | nil => rfl
    | cons c text =>
      obtain rfl := ends c rfl
      have bare : ∀ c ∈ (comma :: text).head?, isSpace c = false ∧ c ≠ 0x2D ∧ c ≠ 0x2B := by
        intro c first
        obtain rfl := Option.some.inj first
        decide
      have none : number 10 (comma :: text) = none := by
        rw [number_bare bare,List.takeWhile_cons_of_neg (by decide),if_pos rfl]
      rw [plainSdk]
      dsimp only
      rw [none]
      rfl
  number text n rest spells ends := by
    have stops : ∀ c ∈ rest.head?, isDigit 10 c = false := by
      intro c first
      obtain rfl := ends c first
      decide
    have read : number 10 (text ++ rest) = some (n,rest) := by
      cases spells with
      | plain decimal => exact decimal.read stops
      | minus decimal => exact decimal.read_minus stops
    have most : (tracerUnitIdMax : Int) = 0x7FFFFFFE := rfl
    refine ⟨storedSigned n,by rw [plainSdk]; dsimp only; rw [read]; rfl,?_,?_⟩
    · intro low high
      rw [storedSigned]
      omega
    · intro wide
      rw [storedSigned,most]
      omega
  separator _ := rfl
  noSeparator := rfl

def five : Token := .number (ascii "5") 5 (.plain (.of_digit rfl))

def thirty : Token := .number (ascii "30") 30 (.plain ⟨nofun,by decide +kernel,rfl⟩)

theorem paramLoad_own_iff_five : values (paramLoad plainSdk (joined [five,thirty,.empty])).1 = own [five,thirty,.empty] layout := by
  apply (paramLoad_own_iff plainSdk_parses [five,thirty,.empty]).mpr
  intro i j f text n spells before empty token
  match i,j with
  | 0,_ => exact nomatch empty
  | 1,_ => exact nomatch empty
  | _ + 2,0 => exact absurd before (Nat.not_lt_zero _)
  | _ + 2,1 => omega
  | _ + 2,2 => exact nomatch token
  | _ + 2,_ + 3 => exact nomatch token

/-- With the period left out the period in roaming is lost too. -/
theorem roaming_lost : joined [five,.empty,thirty] = ascii "5,,30" ∧
    values (paramLoad plainSdk (ascii "5,,30")).1 = [5,10,10,20,0,3,0,3] ∧
    ¬ values (paramLoad plainSdk (ascii "5,,30")).1 = own [five,.empty,thirty] layout :=
  ⟨by decide,by decide,by decide⟩

end Plain

end JcaFirmware.TracerParam
