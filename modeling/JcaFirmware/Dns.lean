import JcaFirmware.Foundation.Numeral
import JcaFirmware.Foundation.Run

/-! Resolving names over the modem (`modem/modem_bg95.c`): `modem_bg95_dns_resolve` asks, and the
answer comes in lines without an identifier, which `modem_bg95_urc` puts into shared
fields. A step is one access to these fields, by the task that asks or by the one of the
modem; a line carries the number of the query that it answers. -/
namespace JcaFirmware.Dns
open Foundation Numeral

/-- The parser functions of the SDK; `parseString` is told the size of its array. -/
structure Sdk where
  parsePattern : List UInt8 → List UInt8 → Option (List UInt8)
  parseNumber : List UInt8 → Option (Int × List UInt8)
  parseString : Nat → List UInt8 → Option (List UInt8)

/-- `dns_state_t`. -/
structure DnsState where
  active : Bool
  done : Bool
  ok : Bool
  ip : Nat
deriving DecidableEq, Repr

inductive Write
  | ip (value : Nat)
  | ok (value : Bool)
  | done (value : Bool)
deriving DecidableEq, Repr

def DnsState.assign (dns : DnsState) : Write → DnsState
  | .ip value => {dns with ip := value}
  | .ok value => {dns with ok := value}
  | .done value => {dns with done := value}

section Parse

variable (sdk : Sdk)

def modemParsePattern (s pattern : List UInt8) : Option (List UInt8) :=
  (sdk.parsePattern s pattern).map fun p => p.dropWhile (· = 0x20)

def dot (text : List UInt8) : Option (List UInt8) := if text.head? = some 0x2E then some text.tail else none

/-- The `sscanf` of an address. -/
def scanAddr (text : List UInt8) : Option (Nat × Nat × Nat × Nat) := do
  let (a,text) ← scan 10 text.length text
  let text ← dot text
  let (b,text) ← scan 10 text.length text
  let text ← dot text
  let (c,text) ← scan 10 text.length text
  let text ← dot text
  let (d,_) ← scan 10 text.length text
  some (a,b,c,d)

def dnsgipIp (q : List UInt8) : Option Nat := do
  let ipStr ← sdk.parseString 16 q
  let (a,b,c,d) ← scanAddr ipStr
  if 255 < a ∨ 255 < b ∨ 255 < c ∨ 255 < d then none else some (a + 2 ^ 8 * b + 2 ^ 16 * c + 2 ^ 24 * d)

/-- The end of `modem_bg95_dnsgip_parse`, with what it assigns in this order. -/
def address (q : List UInt8) : List Write :=
  match dnsgipIp sdk q with
  | some ip => [.ip ip,.ok true,.done true]
  | none => []

/-- `modem_bg95_dnsgip_parse`: what it assigns for a dnsgip line. -/
def dnsgipParse (line : List UInt8) : Option (List Write) :=
  match modemParsePattern sdk line (ascii "+QIURC: \"dnsgip\",") with
  | none => none
  | some p =>
    let q := p.dropWhile (· = 0x20)
    if q.head? = some 0x22 then some (address sdk q)
    else
      match sdk.parseNumber q with
      | none => some []
      | some (err,q) =>
        if err ≠ 0 then some [.ok false,.done true]
        else
          let q := q.dropWhile (· ≠ 0x22)
          if q = [] then some [] else some (address sdk q)

end Parse

section Tasks

/-- Where `modem_bg95_dns_resolve` stands. -/
inductive Resolver
  | idle
  | activate (host : List UInt8)
  | clearDone (host : List UInt8)
  | clearOk (host : List UInt8)
  | clearIp (host : List UInt8)
  | command (host : List UInt8)
  | response
  | wait
  | readOk
  | release (result : Bool)
  | readIp
deriving DecidableEq, Repr

/-- The query has been given to the modem. -/
def Resolver.sent : Resolver → Bool
  | .response | .wait | .readOk | .release _ | .readIp => true
  | _ => false

/-- The shared fields and the two tasks, with the hosts asked for, the query of the line at work and what
it has still to assign, the addresses that the modem reported to each query, and those that were returned. -/
structure State where
  dns : DnsState
  resolver : Resolver
  asked : List (List UInt8)
  handled : Nat
  pending : List Write
  reported : List (Nat × Nat)
  returned : List (Nat × Nat)
deriving DecidableEq, Repr

-- The lookups come from one task. `accepted` is an OK of the modem, `expired` the end of the waiting.
inductive Input
  | call (host : List UInt8) (dataUp : Bool)
  | resolver (accepted expired : Bool)
  | line (query : Nat) (text : List UInt8)
  | write

def dnsNameMax : Nat := 100

def resolve (s : State) (host : List UInt8) (dataUp : Bool) : State :=
  if s.resolver ≠ .idle then s
  else if host = [] then s
  else if dnsNameMax ≤ host.length then s
  else if dataUp = false then s
  else {s with resolver := .activate host}

def resolverStep (s : State) (accepted expired : Bool) : State :=
  match s.resolver with
  | .idle => s
  | .activate host => {s with dns := {s.dns with active := true}, resolver := .clearDone host}
  | .clearDone host => {s with dns := {s.dns with done := false}, resolver := .clearOk host}
  | .clearOk host => {s with dns := {s.dns with ok := false}, resolver := .clearIp host}
  | .clearIp host => {s with dns := {s.dns with ip := 0}, resolver := .command host}
  | .command host => {s with asked := s.asked ++ [host], resolver := .response}
  | .response => {s with resolver := if accepted then .wait else .release false}
  | .wait => {s with resolver := if expired then .release false else if s.dns.done then .readOk else .wait}
  | .readOk => {s with resolver := .release s.dns.ok}
  | .release result => {s with dns := {s.dns with active := false}, resolver := if result then .readIp else .idle}
  | .readIp => {s with returned := s.returned ++ [(s.asked.length - 1,s.dns.ip)], resolver := .idle}

def Write.reports (query : Nat) : Write → Option (Nat × Nat)
  | .ip value => some (query,value)
  | _ => none

variable (sdk : Sdk)

-- A line answers a query that was asked, and comes when the one before it is done with.
/-- The dnsgip part of `modem_bg95_urc`, up to its first assignment. -/
def urc (s : State) (query : Nat) (text : List UInt8) : State :=
  if s.pending ≠ [] ∨ s.asked.length ≤ query then s
  else
    let writes := (dnsgipParse sdk text).getD []
    {s with
      handled := query
      pending := if s.dns.active then writes else []
      reported := s.reported ++ writes.filterMap (Write.reports query)}

def writeStep (s : State) : State :=
  match s.pending with
  | [] => s
  | write :: pending => {s with dns := s.dns.assign write, pending}

def step (s : State) : Input → State
  | .call host dataUp => resolve s host dataUp
  | .resolver accepted expired => resolverStep s accepted expired
  | .line query text => urc sdk s query text
  | .write => writeStep s

def initial : State := ⟨⟨false,false,false,0⟩,.idle,[],0,[],[],[]⟩

end Tasks

section Answers

def State.InFlight (s : State) (query : Nat) : Prop := s.resolver.sent = true ∧ query + 1 = s.asked.length

instance (s : State) (query : Nat) : Decidable (s.InFlight query) := inferInstanceAs (Decidable (_ ∧ _))

/-- While a query is made, nothing is assigned of a line that answers another one. -/
def StepOk (s : State) : Input → Prop
  | .write => s.resolver ≠ .idle → s.pending ≠ [] → s.InFlight s.handled
  | _ => True

instance (s : State) (input : Input) : Decidable (StepOk s input) :=
  match input with
  | .call .. => isTrue trivial
  | .resolver .. => isTrue trivial
  | .line .. => isTrue trivial
  | .write => inferInstanceAs (Decidable (_ → _))

/-- What was returned for a query, the modem has reported to this query. -/
def Own (s : State) : Prop := ∀ answer ∈ s.returned, answer ∈ s.reported

instance (s : State) : Decidable (Own s) := inferInstanceAs (Decidable (∀ _ ∈ _, _))

/-- What a line can have left to assign. -/
inductive Pending (s : State) : List Write → Prop
  | none : Pending s []
  | all (ip : Nat) (reported : (s.handled,ip) ∈ s.reported) : Pending s [.ip ip,.ok true,.done true]
  | good (reported : s.InFlight s.handled → (s.handled,s.dns.ip) ∈ s.reported) : Pending s [.ok true,.done true]
  | bad : Pending s [.ok false,.done true]
  | done : Pending s [.done true]

structure Inv (s : State) : Prop where
  own : Own s
  handled : s.pending ≠ [] → s.handled < s.asked.length
  pending : Pending s s.pending
  cleared : ∀ host, s.resolver = .clearIp host ∨ s.resolver = .command host → s.dns.ok = false
  fresh : s.resolver.sent = true → s.dns.ok = true → (s.asked.length - 1,s.dns.ip) ∈ s.reported
  taken : s.resolver = .release true ∨ s.resolver = .readIp → (s.asked.length - 1,s.dns.ip) ∈ s.reported

theorem initial_inv : Inv initial where
  own _ member := absurd member List.not_mem_nil
  handled some := absurd rfl some
  pending := .none
  cleared _ _ := rfl
  fresh sent := absurd sent (by decide)
  taken at_end := by rcases at_end with release | readIp <;> contradiction

theorem State.InFlight.current {s : State} {query : Nat} (inFlight : s.InFlight query) : s.asked.length - 1 = query := by
  have last := inFlight.2
  omega

theorem address_cases (sdk : Sdk) (q : List UInt8) :
    address sdk q = [] ∨ ∃ ip, address sdk q = [.ip ip,.ok true,.done true] := by
  unfold address
  cases dnsgipIp sdk q with
  | none => exact Or.inl rfl
  | some ip => exact Or.inr ⟨ip,rfl⟩

theorem dnsgipParse_cases (sdk : Sdk) (line : List UInt8) :
    (dnsgipParse sdk line).getD [] = [] ∨ (dnsgipParse sdk line).getD [] = [.ok false,.done true] ∨
      ∃ ip, (dnsgipParse sdk line).getD [] = [.ip ip,.ok true,.done true] := by
  have found (q : List UInt8) : (some (address sdk q)).getD [] = [] ∨ (some (address sdk q)).getD [] = [.ok false,.done true] ∨
      ∃ ip, (some (address sdk q)).getD [] = [.ip ip,.ok true,.done true] := by
    rcases address_cases sdk q with nothing | ip
    · exact Or.inl nothing
    · exact Or.inr (Or.inr ip)
  unfold dnsgipParse
  cases modemParsePattern sdk line (ascii "+QIURC: \"dnsgip\",") with
  | none => exact Or.inl rfl
  | some p =>
    dsimp only
    by_cases quoted : (p.dropWhile (· = 0x20)).head? = some 0x22
    · rw [if_pos quoted]
      exact found _
    rw [if_neg quoted]
    cases sdk.parseNumber (p.dropWhile (· = 0x20)) with
    | none => exact Or.inl rfl
    | some number =>
      obtain ⟨err,q⟩ := number
      dsimp only
      by_cases failed : err ≠ 0
      · rw [if_pos failed]
        exact Or.inr (Or.inl rfl)
      rw [if_neg failed]
      by_cases header : q.dropWhile (· ≠ 0x22) = []
      · rw [if_pos header]
        exact Or.inl rfl
      · rw [if_neg header]
        exact found _

variable {sdk : Sdk} {s : State}

theorem Inv.line (inv : Inv s) (query : Nat) (text : List UInt8) : Inv (urc sdk s query text) := by
  unfold urc
  by_cases refused : s.pending ≠ [] ∨ s.asked.length ≤ query
  · rw [if_pos refused]
    exact inv
  rw [if_neg refused]
  rw [not_or,Nat.not_le] at refused
  refine ⟨fun answer member => List.mem_append_left _ (inv.own answer member),fun _ => refused.2,?_,inv.cleared,
    fun sent ok => List.mem_append_left _ (inv.fresh sent ok),fun at_end => List.mem_append_left _ (inv.taken at_end)⟩
  dsimp only
  cases s.dns.active with
  | false => exact .none
  | true =>
    rw [if_pos rfl]
    rcases dnsgipParse_cases sdk text with nothing | error | ⟨ip,address⟩
    · rw [nothing]
      exact .none
    · rw [error]
      exact .bad
    · rw [address]
      exact .all ip (List.mem_append_right _ (List.mem_singleton.mpr rfl))

theorem sent_busy {resolver : Resolver} (sent : resolver.sent = true) : resolver ≠ .idle := by
  rintro rfl
  cases sent

theorem clearing_unsent {resolver : Resolver} {host : List UInt8} (clearing : resolver = .clearIp host ∨ resolver = .command host) :
    resolver ≠ .idle ∧ resolver.sent = false := by
  rcases clearing with rfl | rfl
  · exact ⟨Resolver.noConfusion,rfl⟩
  · exact ⟨Resolver.noConfusion,rfl⟩

theorem taken_sent {resolver : Resolver} (taken : resolver = .release true ∨ resolver = .readIp) : resolver.sent = true := by
  rcases taken with rfl | rfl <;> rfl

theorem Inv.write (inv : Inv s) (ok : StepOk s .write) : Inv (writeStep s) := by
  have pending := inv.pending
  cases left : s.pending with
  | nil =>
    rw [writeStep,left]
    exact inv
  | cons write rest =>
    have some : s.pending ≠ [] := by
      rw [left]
      exact List.cons_ne_nil _ _
    have inFlight (busy : s.resolver ≠ .idle) : s.InFlight s.handled := ok busy some
    have same : writeStep s = {s with dns := s.dns.assign write, pending := rest} := by rw [writeStep,left]
    have known := inv.handled some
    rw [left] at pending
    rw [same]
    cases pending with
    | all ip reported =>
      have now (sent : s.resolver.sent = true) : (s.asked.length - 1,ip) ∈ s.reported := by
        rw [(inFlight (sent_busy sent)).current]
        exact reported
      exact ⟨inv.own,fun _ => known,.good fun _ => reported,inv.cleared,fun sent _ => now sent,fun taken => now (taken_sent taken)⟩
    | good reported =>
      refine ⟨inv.own,fun _ => known,.done,fun host clearing => ?_,fun sent _ => ?_,inv.taken⟩
      · obtain ⟨busy,unsent⟩ := clearing_unsent clearing
        have sent := (inFlight busy).1
        rw [unsent] at sent
        cases sent
      · have current := inFlight (sent_busy sent)
        change (s.asked.length - 1,s.dns.ip) ∈ s.reported
        rw [current.current]
        exact reported current
    | bad => exact ⟨inv.own,fun _ => known,.done,fun _ _ => rfl,fun _ good => absurd good Bool.false_ne_true,inv.taken⟩
    | done => exact ⟨inv.own,fun none => absurd rfl none,.none,inv.cleared,inv.fresh,inv.taken⟩

theorem Pending.kept {s s' : State} {writes : List Write} (pending : Pending s writes) (handled : s'.handled = s.handled)
    (reported : s'.reported = s.reported) (flight : s'.InFlight s.handled → s.InFlight s.handled ∧ s'.dns.ip = s.dns.ip) :
    Pending s' writes := by
  cases pending with
  | none => exact .none
  | all ip known => exact .all ip (by rw [handled,reported]; exact known)
  | good known =>
    refine .good fun inFlight => ?_
    rw [handled] at inFlight ⊢
    obtain ⟨before,same⟩ := flight inFlight
    rw [reported,same]
    exact known before
  | bad => exact .bad
  | done => exact .done

theorem Inv.unsent (inv : Inv s) {dns : DnsState} {resolver : Resolver} (unsent : resolver.sent = false)
    (cleared : ∀ host, resolver = .clearIp host ∨ resolver = .command host → dns.ok = false) : Inv {s with dns, resolver} where
  own := inv.own
  handled := inv.handled
  pending := inv.pending.kept rfl rfl fun inFlight => absurd (inFlight.1.symm.trans unsent) Bool.noConfusion
  cleared := cleared
  fresh sent := absurd (sent.symm.trans unsent) Bool.noConfusion
  taken taken := absurd ((taken_sent taken).symm.trans unsent) Bool.noConfusion

theorem Inv.elsewhere (inv : Inv s) {dns : DnsState} {resolver : Resolver} (unsent : resolver.sent = false)
    (elsewhere : ∀ host, resolver ≠ .clearIp host ∧ resolver ≠ .command host) : Inv {s with dns, resolver} := by
  apply inv.unsent unsent
  rintro host (clearing | clearing)
  · exact absurd clearing (elsewhere host).1
  · exact absurd clearing (elsewhere host).2

theorem Inv.sent (inv : Inv s) {active : Bool} {resolver : Resolver} (sent : s.resolver.sent = true) (still : resolver.sent = true)
    (taken : resolver = .release true ∨ resolver = .readIp → (s.asked.length - 1,s.dns.ip) ∈ s.reported) :
    Inv {s with dns := {s.dns with active}, resolver} where
  own := inv.own
  handled := inv.handled
  pending := inv.pending.kept rfl rfl fun inFlight => ⟨⟨sent,inFlight.2⟩,rfl⟩
  cleared _ clearing := absurd (still.symm.trans (clearing_unsent clearing).2) Bool.noConfusion
  fresh _ := inv.fresh sent
  taken := taken

theorem Inv.waits (inv : Inv s) {active : Bool} {resolver : Resolver} (sent : s.resolver.sent = true) (still : resolver.sent = true)
    (waits : resolver ≠ .release true ∧ resolver ≠ .readIp) : Inv {s with dns := {s.dns with active}, resolver} := by
  apply inv.sent sent still
  rintro (taken | taken)
  · exact absurd taken waits.1
  · exact absurd taken waits.2

theorem Inv.call (inv : Inv s) (host : List UInt8) (dataUp : Bool) : Inv (resolve s host dataUp) := by
  unfold resolve
  split_ifs
  · exact inv
  · exact inv
  · exact inv
  · exact inv
  · exact inv.elsewhere rfl fun _ => ⟨Resolver.noConfusion,Resolver.noConfusion⟩

theorem Inv.resolver (inv : Inv s) (accepted expired : Bool) : Inv (resolverStep s accepted expired) := by
  unfold resolverStep
  cases stands : s.resolver with
  | idle => exact inv
  | activate host => exact inv.elsewhere rfl fun _ => ⟨Resolver.noConfusion,Resolver.noConfusion⟩
  | clearDone host => exact inv.elsewhere rfl fun _ => ⟨Resolver.noConfusion,Resolver.noConfusion⟩
  | clearOk host => exact inv.unsent rfl fun _ _ => rfl
  | clearIp host => exact inv.unsent rfl fun _ _ => inv.cleared host (Or.inl stands)
  | command host =>
    have quiet := inv.cleared host (Or.inr stands)
    have longer : (s.asked ++ [host]).length = s.asked.length + 1 := List.length_append
    refine ⟨inv.own,fun some => ?_,?_,fun _ clearing => ?_,fun _ ok => ?_,fun taken => ?_⟩
    · have known := inv.handled some
      dsimp only
      omega
    · dsimp only
      by_cases none : s.pending = []
      · rw [none]
        exact .none
      · -- what is left of an earlier line does not answer the new query
        have known := inv.handled none
        refine inv.pending.kept rfl rfl fun inFlight => ?_
        have last : s.handled + 1 = (s.asked ++ [host]).length := inFlight.2
        omega
    · rcases clearing with clearing | clearing <;> cases clearing
    · exact absurd (ok.symm.trans quiet) Bool.noConfusion
    · rcases taken with taken | taken <;> cases taken
  | response =>
    have sent : s.resolver.sent = true := congrArg Resolver.sent stands
    cases accepted with
    | true => exact inv.waits sent rfl (by decide)
    | false => exact inv.waits sent rfl (by decide)
  | wait =>
    have sent : s.resolver.sent = true := congrArg Resolver.sent stands
    dsimp only
    split_ifs
    · exact inv.waits sent rfl (by decide)
    · exact inv.waits sent rfl (by decide)
    · exact inv.waits sent rfl (by decide)
  | readOk =>
    have sent : s.resolver.sent = true := congrArg Resolver.sent stands
    refine inv.sent sent rfl fun taken => ?_
    rcases taken with taken | taken
    · exact inv.fresh sent (Resolver.release.inj taken)
    · cases taken
  | release result =>
    cases result with
    | true =>
      have sent : s.resolver.sent = true := congrArg Resolver.sent stands
      exact inv.sent sent rfl fun _ => inv.taken (Or.inl stands)
    | false => exact inv.elsewhere rfl fun _ => ⟨Resolver.noConfusion,Resolver.noConfusion⟩
  | readIp =>
    have idle : Inv {s with dns := s.dns, resolver := .idle} :=
      inv.elsewhere rfl fun _ => ⟨Resolver.noConfusion,Resolver.noConfusion⟩
    refine ⟨?_,idle.handled,idle.pending.kept rfl rfl fun inFlight => ⟨inFlight,rfl⟩,idle.cleared,idle.fresh,idle.taken⟩
    intro answer member
    rcases List.mem_append.mp member with earlier | now
    · exact inv.own answer earlier
    · rw [List.mem_singleton.mp now]
      exact inv.taken (Or.inr stands)

theorem Inv.step (inv : Inv s) (input : Input) (ok : StepOk s input) : Inv (step sdk s input) := by
  cases input with
  | call host dataUp => exact inv.call host dataUp
  | resolver accepted expired => exact inv.resolver accepted expired
  | line query text => exact inv.line query text
  | write => exact inv.write ok

/-- Where no line of an earlier query is at work while a later one is made, every address that is returned for a query
was reported to it. -/
theorem answers_own (sdk : Sdk) (inputs : List Input) (admitted : Run.Admits (step sdk) StepOk initial inputs) :
    Own (Run.run (step sdk) initial inputs) :=
  (Run.run_invariant (step sdk) StepOk Inv (fun _ input inv ok => inv.step input ok) initial inputs initial_inv admitted).own

end Answers

section Runs

def plainSdk : Sdk where
  parsePattern s pattern := if pattern.isPrefixOf s then some (s.drop pattern.length) else none
  parseNumber s :=
    let digits := s.takeWhile fun c => (digitOf 10 c).isSome
    if digits = [] then none else some ((readDigits 10 0 digits).1,s.drop digits.length)
  parseString size s :=
    if s.head? = some 0x22 then some ((s.tail.takeWhile fun c => c ≠ 0x22).take (size - 1)) else none

def header : List UInt8 := ascii "+QIURC: \"dnsgip\",0,2,399"

def firstAddress : List UInt8 := ascii "+QIURC: \"dnsgip\",\"1.2.3.4\""

def secondAddress : List UInt8 := ascii "+QIURC: \"dnsgip\",\"5.6.7.8\""

def asks (host : List UInt8) : List Input := .call host true :: List.replicate 6 (.resolver true false)

def answers (query : Nat) (text : List UInt8) : List Input := .line query text :: List.replicate 3 .write

def returns : List Input := List.replicate 4 (.resolver false false)

/-- A query that is answered by two lines, of which the second comes during the next one. -/
def splitAnswer : List Input :=
  asks (ascii "a") ++ answers 0 header ++ answers 0 firstAddress ++ returns ++
    asks (ascii "b") ++ answers 0 secondAddress ++ returns

def apartAnswers : List Input :=
  asks (ascii "a") ++ answers 0 firstAddress ++ returns ++ answers 0 secondAddress ++
    asks (ascii "b") ++ answers 1 header ++ answers 1 secondAddress ++ returns

theorem answers_own_apart : (Run.run (step plainSdk) initial apartAnswers).returned = [(0,0x04030201),(1,0x08070605)] ∧
    Own (Run.run (step plainSdk) initial apartAnswers) :=
  ⟨by decide +kernel,answers_own plainSdk apartAnswers (by decide +kernel)⟩

theorem splitAnswer_mixed : (Run.run (step plainSdk) initial splitAnswer).returned = [(0,0x04030201),(1,0x08070605)] ∧
    (Run.run (step plainSdk) initial splitAnswer).reported = [(0,0x04030201),(0,0x08070605)] ∧
    ¬ Own (Run.run (step plainSdk) initial splitAnswer) := by decide +kernel

end Runs

end JcaFirmware.Dns
