import JcaFirmware.Foundation.Numeral

/-! Sentences out of the bytes of the GPS receiver (`gps_task` in `app/gps.c`): which texts
`gps_data_parser` is called with. -/
namespace JcaFirmware.Gps
open Foundation Numeral

section Task

inductive RxState | idle | data | chsum
deriving DecidableEq, Repr

/-- The statics of `gps_task`, with `gps_buf`. -/
structure State where
  rxState : RxState
  chsum : UInt8
  rxChsum : UInt8
  gpsBuf : List UInt8
deriving DecidableEq, Repr

def start : State := ⟨.idle,0,0,[]⟩

/-- `ascii_to_hex`, and how many characters `gps_buf` takes. -/
structure Sdk where
  asciiToHex : UInt8 → UInt8
  gpsBufSize : Nat

variable (sdk : Sdk)

def dollar : UInt8 := 0x24

def asterisk : UInt8 := 0x2A

/-- A line end is the end of the text; so is a zero that is received. -/
def charOf (c : UInt8) : UInt8 := if c = 0x0A ∨ c = 0x0D then 0 else c

def restart (s : State) (c : UInt8) : State :=
  if c = dollar then {s with rxState := .data, chsum := c, gpsBuf := []} else s

/-- The switch over `rx_state`. -/
def sumChar (s : State) (c : UInt8) : State :=
  match s.rxState with
  | .idle => s
  | .data => if c = asterisk then {s with rxState := .chsum, rxChsum := 0} else {s with chsum := s.chsum ^^^ c}
  | .chsum => if c = 0 then s else {s with rxChsum := (s.rxChsum <<< 4) + sdk.asciiToHex c}

/-- One round of the loop, with the text that `gps_data_parser` gets. -/
def rxByte (s : State) (rxChar : UInt8) : State × Option (List UInt8) :=
  let c := charOf rxChar
  let s := restart s c
  if s.rxState = .idle then (s,none)
  else
    let s := sumChar sdk s c
    if sdk.gpsBufSize ≤ s.gpsBuf.length then ({s with rxState := .idle, gpsBuf := []},none)
    else
      let text := s.gpsBuf ++ [c]
      if c ≠ 0 then ({s with gpsBuf := text},none)
      else ({s with rxState := .idle, gpsBuf := []},if s.chsum ≠ s.rxChsum then none else some text)

/-- A call with the bytes that are there. -/
def gpsTask (s : State) : List UInt8 → State × List (List UInt8)
  | [] => (s,[])
  | c :: rest =>
    let (s',text) := rxByte sdk s c
    let (s'',texts) := gpsTask s' rest
    (s'',text.toList ++ texts)

def gpsTasks (s : State) : List (List UInt8) → State × List (List UInt8)
  | [] => (s,[])
  | bytes :: rest =>
    let (s',texts) := gpsTask sdk s bytes
    let (s'',more) := gpsTasks s' rest
    (s'',texts ++ more)

theorem gpsTask_append (s : State) (first second : List UInt8) :
    gpsTask sdk s (first ++ second) =
      ((gpsTask sdk (gpsTask sdk s first).1 second).1,(gpsTask sdk s first).2 ++ (gpsTask sdk (gpsTask sdk s first).1 second).2) := by
  induction first generalizing s with
  | nil => rfl
  | cons c rest ih =>
    rw [List.cons_append,gpsTask,gpsTask]
    dsimp only
    rw [ih,List.append_assoc]

/-- How the stream is split over the calls does not matter. -/
theorem gpsTasks_flatten (s : State) (calls : List (List UInt8)) : gpsTasks sdk s calls = gpsTask sdk s calls.flatten := by
  induction calls generalizing s with
  | nil => rfl
  | cons bytes rest ih =>
    rw [List.flatten_cons,gpsTask_append,gpsTasks]
    dsimp only
    rw [ih]

end Task

section Sentences

variable (sdk : Sdk)

def xorOf (text : List UInt8) : UInt8 := text.foldl (· ^^^ ·) 0

/-- What a checksum field of any length comes to in eight bits. -/
def fieldSum (field : List UInt8) : UInt8 := field.foldl (fun sum c => (sum <<< 4) + sdk.asciiToHex c) 0

/-- Characters between the dollar sign and the asterisk. -/
def Plain (body : List UInt8) : Prop := ∀ c ∈ body, charOf c ≠ 0 ∧ c ≠ dollar ∧ c ≠ asterisk

/-- With the end `e`, the text is a sentence of the stream, as it stands there, with the checksum of its body. -/
structure Genuine (heard : List UInt8) (e : UInt8) (text : List UInt8) : Prop where
  sentence : ∃ before body high low h l, heard = before ++ dollar :: body ++ [asterisk,high,low] ∧ Plain body ∧
    digitOf 16 high = some h ∧ digitOf 16 low = some l ∧ xorOf body = UInt8.ofNat (16 * h + l) ∧
    text = dollar :: body ++ [asterisk,high,low,0]
  lineEnd : e = 0x0A ∨ e = 0x0D
  fits : text.length ≤ sdk.gpsBufSize

def bodyOf (buf : List UInt8) : List UInt8 := buf.tail.takeWhile (· ≠ asterisk)

def fieldOf (buf : List UInt8) : List UInt8 := (buf.dropWhile (· ≠ asterisk)).tail

def TwoDigits (field : List UInt8) : Prop := field.length = 2 ∧ ∀ c ∈ field, digitOf 16 c ≠ none

instance (field : List UInt8) : Decidable (TwoDigits field) := inferInstanceAs (Decidable (_ ∧ _))

/-- A line that fits ends without an asterisk, and its sum is what the last asterisk before it left in `rx_chsum`; or its
field is not two digits, or its end is a zero, and the field comes to the sum. -/
def Slips (s : State) (c : UInt8) : Prop :=
  charOf c = 0 ∧ s.gpsBuf.length < sdk.gpsBufSize ∧
    (s.rxState = .data ∧ xorOf s.gpsBuf.tail = s.rxChsum ∨
      s.rxState = .chsum ∧ xorOf (bodyOf s.gpsBuf) = fieldSum sdk (fieldOf s.gpsBuf) ∧ (c = 0 ∨ ¬ TwoDigits (fieldOf s.gpsBuf)))

instance (s : State) (c : UInt8) : Decidable (Slips sdk s c) := inferInstanceAs (Decidable (_ ∧ _))

/-- Where the statics come from in the stream. -/
inductive Framed (heard : List UInt8) (s : State) : Prop
  | idle (state : s.rxState = .idle)
  | data (state : s.rxState = .data) (before body : List UInt8) (stream : heard = before ++ dollar :: body) (plain : Plain body)
    (buf : s.gpsBuf = dollar :: body) (sum : s.chsum = xorOf body)
  | chsum (state : s.rxState = .chsum) (before body field : List UInt8)
    (stream : heard = before ++ dollar :: body ++ asterisk :: field) (plain : Plain body)
    (buf : s.gpsBuf = dollar :: body ++ asterisk :: field) (sum : s.chsum = xorOf body) (rxSum : s.rxChsum = fieldSum sdk field)

theorem xorOf_append (text : List UInt8) (c : UInt8) : xorOf (text ++ [c]) = xorOf text ^^^ c := by
  rw [xorOf,List.foldl_append]
  rfl

theorem fieldSum_append (field : List UInt8) (c : UInt8) :
    fieldSum sdk (field ++ [c]) = (fieldSum sdk field <<< 4) + sdk.asciiToHex c := by
  rw [fieldSum,List.foldl_append]
  rfl

theorem Plain.append {body : List UInt8} (plain : Plain body) {c : UInt8} (char : charOf c ≠ 0) (noDollar : c ≠ dollar)
    (noAsterisk : c ≠ asterisk) : Plain (body ++ [c]) := by
  intro d member
  rcases List.mem_append.mp member with old | new
  · exact plain d old
  · obtain rfl := List.mem_singleton.mp new
    exact ⟨char,noDollar,noAsterisk⟩

theorem charOf_eq {c : UInt8} (char : charOf c ≠ 0) : charOf c = c := by
  unfold charOf at char ⊢
  split_ifs at char ⊢
  · exact absurd rfl char
  · rfl

theorem Plain.bodyOf {body : List UInt8} (plain : Plain body) (field : List UInt8) :
    bodyOf (dollar :: body ++ asterisk :: field) = body := by
  have kept : ∀ c ∈ body, decide (c ≠ asterisk) = true := fun c member => decide_eq_true (plain c member).2.2
  rw [Gps.bodyOf,List.cons_append,List.tail_cons,List.takeWhile_append_of_pos kept,List.takeWhile_cons_of_neg (by decide),
    List.append_nil]

theorem Plain.fieldOf {body : List UInt8} (plain : Plain body) (field : List UInt8) :
    fieldOf (dollar :: body ++ asterisk :: field) = field := by
  have dropped : ∀ c ∈ body, decide (c ≠ asterisk) = true := fun c member => decide_eq_true (plain c member).2.2
  rw [Gps.fieldOf,List.cons_append,List.dropWhile_cons_of_pos (by decide),List.dropWhile_append_of_pos dropped,
    List.dropWhile_cons_of_neg (by decide),List.tail_cons]

theorem sumChar_gpsBuf (s : State) (c : UInt8) : (sumChar sdk s c).gpsBuf = s.gpsBuf := by
  cases state : s.rxState with
  | idle => rw [sumChar,state]
  | data =>
    rw [sumChar,state]
    dsimp only
    split_ifs <;> rfl
  | chsum =>
    rw [sumChar,state]
    dsimp only
    split_ifs <;> rfl

theorem sumChar_asterisk {s : State} (state : s.rxState = .data) : sumChar sdk s asterisk = {s with rxState := .chsum, rxChsum := 0} := by
  rw [sumChar,state]
  exact if_pos rfl

theorem sumChar_data {s : State} (state : s.rxState = .data) {c : UInt8} (other : c ≠ asterisk) :
    sumChar sdk s c = {s with chsum := s.chsum ^^^ c} := by
  rw [sumChar,state]
  exact if_neg other

theorem sumChar_field {s : State} (state : s.rxState = .chsum) {c : UInt8} (char : c ≠ 0) :
    sumChar sdk s c = {s with rxChsum := (s.rxChsum <<< 4) + sdk.asciiToHex c} := by
  rw [sumChar,state]
  exact if_neg char

theorem rxByte_dollar (s : State) : (rxByte sdk s dollar).2 = none ∧
    ((rxByte sdk s dollar).1.rxState = .idle ∨
      (rxByte sdk s dollar).1.rxState = .data ∧ (rxByte sdk s dollar).1.gpsBuf = [dollar] ∧ (rxByte sdk s dollar).1.chsum = 0) := by
  have char : charOf dollar = dollar := rfl
  unfold rxByte
  dsimp only
  rw [char,restart,if_pos rfl,if_neg nofun,sumChar_data sdk rfl (by decide),if_pos (show dollar ≠ 0 by decide)]
  split_ifs
  · exact ⟨rfl,Or.inl rfl⟩
  · exact ⟨rfl,Or.inr ⟨rfl,rfl,UInt8.xor_self⟩⟩

theorem rxByte_end {s : State} {c : UInt8} (char : charOf c = 0) : (rxByte sdk s c).1.rxState = .idle ∧
    ∀ text, (rxByte sdk s c).2 = some text ↔
      s.rxState ≠ .idle ∧ s.gpsBuf.length < sdk.gpsBufSize ∧ s.chsum = s.rxChsum ∧ text = s.gpsBuf ++ [0] := by
  have buf := sumChar_gpsBuf sdk s 0
  have sums : (sumChar sdk s 0).chsum = s.chsum ∧ (s.rxState ≠ .idle → (sumChar sdk s 0).rxChsum = s.rxChsum) := by
    unfold sumChar
    split
    case h_2 state => exact ⟨UInt8.xor_zero,fun _ => rfl⟩
    all_goals exact ⟨rfl,fun _ => rfl⟩
  unfold rxByte
  dsimp only
  rw [char,restart,if_neg (show (0 : UInt8) ≠ dollar by decide),buf,sums.1]
  split_ifs with idle full ends differ
  · exact ⟨idle,fun text => ⟨nofun,fun ⟨busy,_⟩ => absurd idle busy⟩⟩
  · exact ⟨rfl,fun text => ⟨nofun,fun ⟨_,room,_⟩ => absurd full (Nat.not_le.mpr room)⟩⟩
  · exact absurd rfl ends
  · rw [sums.2 idle] at differ
    exact ⟨rfl,fun text => ⟨nofun,fun ⟨_,_,same,_⟩ => absurd same differ⟩⟩
  · rw [sums.2 idle] at differ
    refine ⟨rfl,fun text => ⟨fun some => ?_,fun ⟨_,_,_,same⟩ => by rw [same]⟩⟩
    exact ⟨idle,Nat.not_le.mp full,not_not.mp differ,(Option.some.inj some).symm⟩

theorem rxByte_char {s : State} {c : UInt8} (char : charOf c ≠ 0) (noDollar : c ≠ dollar) : (rxByte sdk s c).2 = none ∧
    ((rxByte sdk s c).1.rxState = .idle ∨ s.rxState ≠ .idle ∧
      (rxByte sdk s c).1 = {sumChar sdk s c with gpsBuf := s.gpsBuf ++ [c]}) := by
  have buf := sumChar_gpsBuf sdk s c
  unfold rxByte
  dsimp only
  rw [charOf_eq char,restart,if_neg noDollar,buf]
  rw [charOf_eq char] at char
  rw [if_pos char]
  split_ifs with idle
  · exact ⟨rfl,Or.inl idle⟩
  · exact ⟨rfl,Or.inl rfl⟩
  · exact ⟨rfl,Or.inr ⟨idle,rfl⟩⟩

theorem Framed.step {heard : List UInt8} {s : State} (framed : Framed sdk heard s) (c : UInt8) :
    Framed sdk (heard ++ [c]) (rxByte sdk s c).1 := by
  by_cases char : charOf c = 0
  · exact .idle (rxByte_end sdk char).1
  by_cases first : c = dollar
  · subst first
    obtain ⟨_,idle | ⟨state,buf,sum⟩⟩ := rxByte_dollar sdk s
    · exact .idle idle
    · exact .data state heard [] rfl nofun buf sum
  obtain ⟨_,idle | ⟨busy,next⟩⟩ := @rxByte_char sdk s c char first
  · exact .idle idle
  rw [next]
  cases framed with
  | idle state => exact absurd state busy
  | data state before body stream plain buf sum =>
    subst stream
    by_cases ends : c = asterisk
    · subst ends
      rw [sumChar_asterisk sdk state,buf]
      exact .chsum rfl before body [] rfl plain rfl sum rfl
    · rw [sumChar_data sdk state ends,buf]
      exact .data state before (body ++ [c]) (List.append_assoc ..) (plain.append char first ends) rfl
        (by rw [sum,xorOf_append])
  | chsum state before body field stream plain buf sum rxSum =>
    subst stream
    rw [charOf_eq char] at char
    rw [sumChar_field sdk state char,buf]
    exact .chsum state before body (field ++ [c]) (List.append_assoc ..) plain (List.append_assoc ..) sum
      (by rw [rxSum,fieldSum_append])

theorem framed_gpsTask (heard : List UInt8) : Framed sdk heard (gpsTask sdk start heard).1 := by
  induction heard using List.reverseRecOn with
  | nil => exact .idle rfl
  | append_singleton heard c ih =>
    rw [gpsTask_append]
    exact ih.step sdk c

theorem mem_gpsTask {s : State} {bytes text : List UInt8} : text ∈ (gpsTask sdk s bytes).2 ↔
    ∃ heard c rest, bytes = heard ++ c :: rest ∧ (rxByte sdk (gpsTask sdk s heard).1 c).2 = some text := by
  induction bytes generalizing s with
  | nil => simp [gpsTask]
  | cons c bytes ih =>
    have here : text ∈ (gpsTask sdk s (c :: bytes)).2 ↔
        (rxByte sdk s c).2 = some text ∨ text ∈ (gpsTask sdk (rxByte sdk s c).1 bytes).2 := by
      rw [gpsTask]
      dsimp only
      rw [List.mem_append,Option.mem_toList]
    rw [here,ih]
    constructor
    · rintro (now | ⟨heard,d,rest,rfl,later⟩)
      · exact ⟨[],c,bytes,rfl,now⟩
      · exact ⟨c :: heard,d,rest,rfl,later⟩
    · rintro ⟨heard,d,rest,split,called⟩
      cases heard with
      | nil =>
        obtain ⟨rfl,rfl⟩ := List.cons.inj split
        exact Or.inl called
      | cons first heard =>
        obtain ⟨rfl,rfl⟩ := List.cons.inj split
        exact Or.inr ⟨heard,d,rest,rfl,called⟩

/-- The code's sum of two digits. -/
theorem fieldSum_digits (digits : ∀ c d, digitOf 16 c = some d → sdk.asciiToHex c = UInt8.ofNat d) {high low : UInt8} {h l : Nat}
    (first : digitOf 16 high = some h) (second : digitOf 16 low = some l) :
    fieldSum sdk [high,low] = UInt8.ofNat (16 * h + l) := by
  have sum : fieldSum sdk [high,low] = (sdk.asciiToHex high <<< 4) + sdk.asciiToHex low := by
    change (((0 : UInt8) <<< 4 + sdk.asciiToHex high) <<< 4) + sdk.asciiToHex low = _
    rw [UInt8.zero_shiftLeft,UInt8.zero_add]
  rw [sum,digits high h first,digits low l second]
  apply UInt8.toNat_inj.mp
  rw [UInt8.toNat_add,UInt8.toNat_shiftLeft,UInt8.toNat_ofNat',UInt8.toNat_ofNat',UInt8.toNat_ofNat',Nat.shiftLeft_eq]
  change (h % 2 ^ 8 * 2 ^ 4 % 2 ^ 8 + l % 2 ^ 8) % 2 ^ 8 = _
  omega

theorem body_unique {body body' field field' : List UInt8} (plain : Plain body) (plain' : Plain body')
    (same : dollar :: body ++ asterisk :: field = dollar :: body' ++ asterisk :: field') : body = body' ∧ field = field' := by
  constructor
  · rw [← plain.bodyOf field,same,plain'.bodyOf]
  · rw [← plain.fieldOf field,same,plain'.fieldOf]

theorem twoDigits_cases {field : List UInt8} (two : TwoDigits field) :
    ∃ high low h l, field = [high,low] ∧ digitOf 16 high = some h ∧ digitOf 16 low = some l := by
  obtain ⟨length,digit⟩ := two
  obtain ⟨high,low,rfl⟩ := List.length_eq_two.mp length
  obtain ⟨h,first⟩ := Option.ne_none_iff_exists'.mp (digit high (by simp))
  obtain ⟨l,second⟩ := Option.ne_none_iff_exists'.mp (digit low (by simp))
  exact ⟨high,low,h,l,rfl,first,second⟩

/-- Of a line that ends without an asterisk no text is a sentence. -/
theorem not_genuine_data {heard : List UInt8} {e : UInt8} (body : List UInt8) (plain : Plain body) :
    ¬ Genuine sdk heard e (dollar :: body ++ [0]) := by
  rintro ⟨⟨before,body',high,low,h,l,_,_,_,_,_,text⟩,_,_⟩
  have member : asterisk ∈ dollar :: body ++ [0] := by rw [text]; simp
  rcases List.mem_append.mp member with inside | zero
  · rcases List.mem_cons.mp inside with first | inside
    · exact absurd first (by decide)
    · exact (plain _ inside).2.2 rfl
  · exact absurd zero (by decide)

/-- The field of a sentence is two digits. -/
theorem Genuine.twoDigits {heard : List UInt8} {e : UInt8} {body field : List UInt8} (plain : Plain body)
    (genuine : Genuine sdk heard e (dollar :: body ++ asterisk :: field ++ [0])) : TwoDigits field := by
  obtain ⟨⟨before,body',high,low,h,l,_,plain',first,second,_,text⟩,_,_⟩ := genuine
  rw [List.append_assoc] at text
  obtain ⟨_,same⟩ := body_unique plain plain' text
  obtain rfl : field = [high,low] := List.append_cancel_right same
  refine ⟨rfl,fun c member => ?_⟩
  rcases List.mem_cons.mp member with rfl | member
  · rw [first]
    exact nofun
  · obtain rfl := List.mem_singleton.mp member
    rw [second]
    exact nofun

/-- A byte behind which `gps_data_parser` is called with a text. -/
def Called (heard : List UInt8) (c : UInt8) (text : List UInt8) : Prop :=
  (rxByte sdk (gpsTask sdk start heard).1 c).2 = some text

theorem called_genuine_iff (digits : ∀ c d, digitOf 16 c = some d → sdk.asciiToHex c = UInt8.ofNat d) (heard : List UInt8) (c : UInt8) :
    (∀ text, Called sdk heard c text → Genuine sdk heard c text) ↔ ¬ Slips sdk (gpsTask sdk start heard).1 c := by
  have framed := framed_gpsTask sdk heard
  unfold Called
  generalize (gpsTask sdk start heard).1 = s at framed ⊢
  by_cases char : charOf c = 0
  swap
  · refine ⟨fun _ slips => char slips.1,fun _ text called => ?_⟩
    by_cases first : c = dollar
    · subst first
      rw [(rxByte_dollar sdk s).1] at called
      exact nomatch called
    · rw [(rxByte_char sdk char first).1] at called
      exact nomatch called
  have calls := (rxByte_end sdk char (s := s)).2
  cases framed with
  | idle state =>
    refine ⟨fun _ slips => ?_,fun _ text called => absurd state ((calls text).mp called).1⟩
    rcases slips.2.2 with ⟨other,_⟩ | ⟨other,_⟩ <;> exact absurd (state.symm.trans other) nofun
  | data state before body stream plain buf sum =>
    have busy : s.rxState ≠ .idle := by rw [state]; exact nofun
    constructor
    · rintro genuine ⟨_,room,⟨_,same⟩ | ⟨other,_⟩⟩
      · rw [buf,List.tail_cons,← sum] at same
        have own := genuine _ ((calls _).mpr ⟨busy,room,same,rfl⟩)
        rw [buf] at own
        exact not_genuine_data sdk body plain own
      · exact absurd (state.symm.trans other) nofun
    · intro clean text called
      obtain ⟨_,room,same,_⟩ := (calls text).mp called
      exact absurd ⟨char,room,Or.inl ⟨state,by rw [buf,List.tail_cons,← sum,same]⟩⟩ clean
  | chsum state before body field stream plain buf sum rxSum =>
    have busy : s.rxState ≠ .idle := by rw [state]; exact nofun
    have bodySame : bodyOf s.gpsBuf = body := by rw [buf]; exact plain.bodyOf field
    have fieldSame : fieldOf s.gpsBuf = field := by rw [buf]; exact plain.fieldOf field
    constructor
    · rintro genuine ⟨_,room,⟨other,_⟩ | ⟨_,same,wrong⟩⟩
      · exact absurd (state.symm.trans other) nofun
      · rw [bodySame,fieldSame,← sum,← rxSum] at same
        have own := genuine _ ((calls _).mpr ⟨busy,room,same,rfl⟩)
        rcases wrong with rfl | wrong
        · exact absurd own.lineEnd (by decide)
        · rw [buf] at own
          rw [fieldSame] at wrong
          exact wrong (own.twoDigits sdk plain)
    · intro clean text called
      obtain ⟨_,room,same,rfl⟩ := (calls text).mp called
      have right : ¬ (c = 0 ∨ ¬ TwoDigits field) := fun wrong =>
        clean ⟨char,room,Or.inr ⟨state,by rw [bodySame,fieldSame,← sum,← rxSum,same],by rw [fieldSame]; exact wrong⟩⟩
      obtain ⟨nonzero,two⟩ := not_or.mp right
      obtain ⟨high,low,h,l,rfl,first,second⟩ := twoDigits_cases (not_not.mp two)
      refine ⟨⟨before,body,high,low,h,l,stream,plain,first,second,?_,?_⟩,?_,?_⟩
      · rw [← sum,same,rxSum,fieldSum_digits sdk digits first second]
      · rw [buf,List.append_assoc]
        rfl
      · by_contra other
        rw [charOf,if_neg other] at char
        exact nonzero char
      · rw [List.length_append]
        exact room

/-- Whatever the bytes and however they come, every text of `gps_data_parser` is a sentence of the stream with its checksum,
exactly if no line end slips. -/
theorem gpsTask_genuine_iff (digits : ∀ c d, digitOf 16 c = some d → sdk.asciiToHex c = UInt8.ofNat d) (calls : List (List UInt8)) :
    (∀ text, text ∈ (gpsTasks sdk start calls).2 ↔
      ∃ heard c rest, calls.flatten = heard ++ c :: rest ∧ Called sdk heard c text) ∧
    ((∀ heard c rest text, calls.flatten = heard ++ c :: rest → Called sdk heard c text → Genuine sdk heard c text) ↔
      ∀ heard c rest, calls.flatten = heard ++ c :: rest → ¬ Slips sdk (gpsTask sdk start heard).1 c) := by
  refine ⟨fun text => ?_,⟨fun genuine heard c rest split => ?_,fun clean heard c rest text split called => ?_⟩⟩
  · rw [gpsTasks_flatten]
    exact mem_gpsTask sdk
  · exact (called_genuine_iff sdk digits heard c).mp fun text => genuine heard c rest text split
  · exact (called_genuine_iff sdk digits heard c).mpr (clean heard c rest split) text called

end Sentences

section Stale

/-- The digits of `digitOf`, and room for 128 characters. -/
def plainSdk : Sdk := ⟨fun c => UInt8.ofNat ((digitOf 16 c).getD 0),128⟩

theorem plainSdk_digits : ∀ c d, digitOf 16 c = some d → plainSdk.asciiToHex c = UInt8.ofNat d := by
  intro c d digit
  rw [plainSdk]
  dsimp only
  rw [digit]
  rfl

def sentence : List UInt8 := ascii "$GPTXT*4F\r\n"

theorem gpsTask_genuine_iff_sentence : Genuine plainSdk (ascii "$GPTXT*4F") 0x0D (ascii "$GPTXT*4F" ++ [0]) := by
  refine (gpsTask_genuine_iff plainSdk plainSdk_digits [sentence]).2.mpr ?_ _ _ [0x0A] _ (by decide +kernel)
    (by unfold Called; decide +kernel)
  have clean : ∀ n : Fin 11, ¬ Slips plainSdk (gpsTask plainSdk start (sentence.take n)).1 (sentence.getD n 0) := by decide +kernel
  intro heard c rest split
  have whole : sentence = heard ++ c :: rest := split
  have short : heard.length < 11 := by
    have length : sentence.length = (heard ++ c :: rest).length := by rw [whole]
    rw [List.length_append,List.length_cons] at length
    have eleven : sentence.length = 11 := rfl
    omega
  have own := clean ⟨heard.length,short⟩
  rw [whole] at own
  dsimp only at own
  have here : (heard ++ c :: rest).getD heard.length 0 = c := by simp
  rw [List.take_left' rfl,here] at own
  exact own

/-- A line without a checksum has the sum that the line before it left. -/
theorem staleLine_parsed : Called plainSdk (ascii "$GPTXT*4F\r\n$GPTXT") 0x0D (ascii "$GPTXT" ++ [0]) ∧
    ¬ Genuine plainSdk (ascii "$GPTXT*4F\r\n$GPTXT") 0x0D (ascii "$GPTXT" ++ [0]) :=
  ⟨by unfold Called; decide,not_genuine_data plainSdk (ascii "GPTXT") (by unfold Plain; decide +kernel)⟩

example : (gpsTasks plainSdk start [ascii "$GPTXT*4F\r",ascii "\n$GPTXT\r\n"]).2 = [ascii "$GPTXT*4F" ++ [0],ascii "$GPTXT" ++ [0]] := by
  decide

end Stale

end JcaFirmware.Gps
