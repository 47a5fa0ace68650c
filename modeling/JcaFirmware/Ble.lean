import JcaFirmware.Password
import JcaFirmware.Section
import JcaFirmware.Foundation.Run

/-! Commands over BLE (`app/ble.c`, `_ble_rx_parser` and `_ble_access_update` of
`app/app.c`): the lines of the module and of its client arrive in one stream of
characters. What becomes of the lines is kept as a trace. -/
namespace JcaFirmware.Ble
open Foundation Numeral CText Cmd

def accessBleTimeout : Nat := 120 * Section.osTimerSecond

/-- The handlers of the commands, of which only AUTH changes the access of the caller. -/
structure Commands (σ : Type) where
  get : Command → Access → σ → Bool × σ
  set : Command → List UInt8 → Access → σ → Bool × Nat × σ
  error : List UInt8 → σ → σ
  cfg : σ → Nat → Option (List UInt8)
  parseString : List UInt8 → Option (List UInt8 × Nat)

def auth : List UInt8 := ascii "AUTH"

def Commands.handlers {σ : Type} (unit : Commands σ) : Handlers σ where
  get cmd access s := let (ok,s) := unit.get cmd access s; (ok,access,s)
  set cmd text access s :=
    if cmd.text = auth then
      let fetched := unit.parseString text
      let (ok,access) := cmdAuthSet (unit.cfg s) (fetched.map Prod.fst) access
      (ok,(fetched.map Prod.snd).getD 0,access,s)
    else let (ok,count,s) := unit.set cmd text access s; (ok,count,access,s)
  error := unit.error

/-- A connection line, a line given to the commands at some level, and a handler called
for it. -/
inductive Event
  | connection
  | line (auth : UInt8)
  | command (call : Call)
deriving DecidableEq, Repr

/-- `_connected`, the line in `_rx_buf`, `_ble_access`, and the rest of the unit. -/
structure State (σ : Type) where
  connected : Bool
  rxBuf : List UInt8
  access : Access
  time : Nat
  unit : σ
  trace : List Event

-- A received character comes with the time of its processing; `other` is all that the unit
-- does elsewhere.
inductive Input (σ : Type)
  | bleTask (received : List (UInt8 × Nat))
  | bleAccessUpdate
  | other (change : σ → σ)

section Step

variable {σ : Type} (ttyBufSize : Nat) (isChar : WordTest) (unit : Commands σ)

def initial (s : σ) : State σ := ⟨false,[],noAccess,0,s,[]⟩

def processResponse (data : List UInt8) (s : State σ) : State σ :=
  if charAt data 0 ≠ 0x2B then s
  else if data.drop 1 = ascii "CONNECTED" then {s with connected := true, trace := s.trace ++ [.connection]}
  else if data.drop 1 = ascii "DISCONNECT" then {s with connected := false}
  else s

def expired (s : State σ) (now : Nat) : Prop := (s.time + accessBleTimeout) % 2 ^ 32 < now

instance (s : State σ) (now : Nat) : Decidable (expired s now) := inferInstanceAs (Decidable (_ < _))

def lineAccess (s : State σ) (now : Nat) : Access := if expired s now then {s.access with auth := accessNone} else s.access

def bleRxParser (data : List UInt8) (now : Nat) (s : State σ) : State σ :=
  let access := lineAccess s now
  let outcome := (cmdProcessText isChar unit.handlers cmdTable (data.length + 1) data access s.unit).getD ⟨false,access,s.unit,[]⟩
  {s with access := outcome.access, time := now, unit := outcome.unit,
          trace := s.trace ++ .line access.auth :: outcome.calls.map .command}

def processLine (data : List UInt8) (now : Nat) (s : State σ) : State σ :=
  let s := processResponse data s
  if s.connected then bleRxParser isChar unit data now s else s

def lineEnd (ch : UInt8) : Bool := ch = 0x0D ∨ ch = 0x0A ∨ ch = 0

/-- One character of `ble_task`. -/
def receive (s : State σ) (received : UInt8 × Nat) : State σ :=
  let (ch,now) := received
  if lineEnd ch then
    if 0 < s.rxBuf.length then {processLine isChar unit s.rxBuf now s with rxBuf := []} else s
  else if s.rxBuf.length < ttyBufSize - 1 then {s with rxBuf := s.rxBuf ++ [ch]}
  else s

def bleAccessUpdate (s : State σ) : State σ :=
  if s.access.auth = accessNone then s
  else if s.connected = false then {s with access := {s.access with auth := accessNone}}
  else s

def step (s : State σ) : Input σ → State σ
  | .bleTask received => Run.run (receive ttyBufSize isChar unit) s received
  | .bleAccessUpdate => bleAccessUpdate s
  | .other change => {s with unit := change s.unit}

end Step

section Property

def Event.auth : Event → UInt8
  | .connection => accessNone
  | .line auth => auth
  | .command call => call.auth

def Login (call : Call) : Prop := call.cmd.text = Ble.auth ∧ call.set = true ∧ call.ok = true

instance (call : Call) : Decidable (Login call) := inferInstanceAs (Decidable (_ ∧ _))

/-- Somebody has logged in since the last connection line. -/
def LoggedIn (trace : List Event) : Prop :=
  ∃ before call after, trace = before ++ .command call :: after ∧ Login call ∧ .connection ∉ after

/-- What was executed with a level above NONE had a login of the same connection before it. -/
def Entitled (trace : List Event) : Prop :=
  ∀ before event after, trace = before ++ event :: after → accessNone < event.auth → LoggedIn before

/-- Where a character completes a connection line, nobody is logged in: the access was
updated since the last disconnection, or is too old. -/
def LoggedOut {σ : Type} (s : State σ) (received : UInt8 × Nat) : Prop :=
  lineEnd received.1 = true → s.rxBuf = ascii "+CONNECTED" → (lineAccess s received.2).auth ≤ accessNone

instance {σ : Type} (s : State σ) (received : UInt8 × Nat) : Decidable (LoggedOut s received) :=
  inferInstanceAs (Decidable (_ → _))

def Admitted {σ : Type} (ttyBufSize : Nat) (isChar : WordTest) (unit : Commands σ) (s : State σ) : Input σ → Prop
  | .bleTask received => Run.Admits (receive ttyBufSize isChar unit) LoggedOut s received
  | _ => True

instance {σ : Type} (ttyBufSize : Nat) (isChar : WordTest) (unit : Commands σ) (s : State σ) :
    (input : Input σ) → Decidable (Admitted ttyBufSize isChar unit s input)
  | .bleTask received => inferInstanceAs (Decidable (Run.Admits _ LoggedOut s received))
  | .bleAccessUpdate => isTrue trivial
  | .other _ => isTrue trivial

/-- The trace is in order, and a level above NONE is one that the trace accounts for. -/
structure Inv (level : UInt8) (trace : List Event) : Prop where
  entitled : Entitled trace
  level : accessNone < level → LoggedIn trace

end Property

section Trace

variable {trace : List Event}

theorem loggedIn_append {event : Event} :
    LoggedIn (trace ++ [event]) ↔ (event ≠ .connection ∧ LoggedIn trace) ∨ ∃ call, event = .command call ∧ Login call := by
  constructor
  · rintro ⟨before,call,after,split,login,since⟩
    rcases List.eq_nil_or_concat after with rfl | ⟨middle,last,rfl⟩
    · have same := (List.append_inj' split rfl).2
      exact Or.inr ⟨call,List.head_eq_of_cons_eq same,login⟩
    · rw [List.concat_eq_append] at split since
      rw [← List.cons_append,← List.append_assoc] at split
      obtain ⟨earlier,same⟩ := List.append_inj' split rfl
      obtain rfl := List.head_eq_of_cons_eq same
      rw [List.mem_append,not_or,List.mem_singleton] at since
      exact Or.inl ⟨fun connection => since.2 connection.symm,before,call,middle,earlier,login,since.1⟩
  · rintro (⟨other,before,call,after,rfl,login,since⟩ | ⟨call,rfl,login⟩)
    · refine ⟨before,call,after ++ [event],by simp,login,fun member => ?_⟩
      rcases List.mem_append.mp member with earlier | last
      · exact since earlier
      · exact other (List.mem_singleton.mp last).symm
    · exact ⟨trace,call,[],rfl,login,List.not_mem_nil⟩

/-- `LoggedIn`, followed along the trace. -/
def loggedIn (trace : List Event) : Bool :=
  trace.foldl (fun logged event =>
    match event with
    | .connection => false
    | .line _ => logged
    | .command call => logged || decide (Login call)) false

theorem loggedIn_iff : loggedIn trace = true ↔ LoggedIn trace := by
  induction trace using List.reverseRecOn with
  | nil =>
    refine ⟨nofun,?_⟩
    rintro ⟨before,call,after,split,_⟩
    exact absurd split (by simp)
  | append_singleton trace event ih =>
    rw [loggedIn_append,← ih,loggedIn,List.foldl_append,← loggedIn]
    cases event <;> simp

instance : Decidable (LoggedIn trace) := decidable_of_iff _ loggedIn_iff

theorem Entitled.append {event : Event} (entitled : Entitled trace) (allowed : accessNone < event.auth → LoggedIn trace) :
    Entitled (trace ++ [event]) := by
  intro before other after split above
  rcases List.eq_nil_or_concat after with rfl | ⟨middle,last,rfl⟩
  · obtain ⟨rfl,same⟩ := List.append_inj' split rfl
    obtain rfl : event = other := List.head_eq_of_cons_eq same
    exact allowed above
  · rw [List.concat_eq_append,← List.cons_append,← List.append_assoc] at split
    exact entitled before other middle (List.append_inj' split rfl).1 above

theorem Inv.mono {level lower : UInt8} (inv : Inv level trace) (less : lower ≤ level) : Inv lower trace :=
  ⟨inv.entitled,fun above => inv.level (UInt8.lt_of_lt_of_le above less)⟩

theorem Inv.none {level : UInt8} (inv : Inv level trace) : Inv accessNone trace :=
  ⟨inv.entitled,fun above => absurd above (UInt8.lt_irrefl _)⟩

theorem Inv.line {level : UInt8} (inv : Inv level trace) : Inv level (trace ++ [.line level]) :=
  ⟨inv.entitled.append inv.level,fun above => loggedIn_append.mpr (Or.inl ⟨nofun,inv.level above⟩)⟩

end Trace

section Commands

variable {σ : Type} (unit : Commands σ)

/-- Only a successful AUTH gives the caller an access that it did not have. -/
theorem processCmd_access (cmd : Command) (name text : List UInt8) (access : Access) (s : σ) :
    let result := processCmd unit.handlers cmd name text access s
    result.2.2.2.1 = access ∨ result.2.2.2.1 = noAccess ∨ ∃ call, result.2.1 = some call ∧ Login call := by
  rw [processCmd]
  dsimp only
  split_ifs with parameter none other missing
  · exact Or.inl rfl
  · rw [Commands.handlers]
    dsimp only
    split_ifs with login
    · generalize skipSpaces ((skipSpaces text).drop 1) = password
      cases done : (cmdAuthSet (unit.cfg s) ((unit.parseString password).map Prod.fst) access).1 with
      | true => exact Or.inr (Or.inr ⟨_,rfl,login,rfl,rfl⟩)
      | false =>
        rcases cmdAuthSet_denied _ _ _ done with same | nothing
        · exact Or.inl same
        · exact Or.inr (Or.inl nothing)
    · exact Or.inl rfl
  · exact Or.inl rfl
  · exact Or.inl rfl
  · exact Or.inl rfl

theorem processCmd_inv {base : List Event} {cmd : Command} {name rest : List UInt8} {access : Access} {s : σ} {calls : List Call}
    (inv : Inv access.auth (base ++ calls.map .command)) :
    let result := processCmd unit.handlers cmd name rest access s
    Inv result.2.2.2.1.auth (base ++ (calls ++ result.2.1.toList).map .command) := by
  have changes := processCmd_access unit cmd name rest access s
  have own (call : Call) := @processCmd_call σ unit.handlers cmd name rest access s call
  dsimp only at changes ⊢
  generalize processCmd unit.handlers cmd name rest access s = result at changes own ⊢
  obtain ⟨ok,called,left,access',s'⟩ := result
  dsimp only at changes own ⊢
  rw [List.map_append,← List.append_assoc]
  generalize base ++ calls.map Event.command = trace at inv ⊢
  have logged (above : accessNone < access'.auth) : LoggedIn trace ∨ ∃ call, called = some call ∧ Login call := by
    rcases changes with rfl | rfl | login
    · exact Or.inl (inv.level above)
    · exact absurd above (UInt8.lt_irrefl _)
    · exact Or.inr login
  cases called with
  | none =>
    rw [Option.toList_none,List.map_nil,List.append_nil]
    refine ⟨inv.entitled,fun above => ?_⟩
    exact (logged above).resolve_right fun ⟨_,called,_⟩ => nomatch called
  | some call =>
    obtain ⟨set,rfl⟩ := own call rfl
    refine ⟨inv.entitled.append inv.level,fun above => loggedIn_append.mpr ?_⟩
    rcases logged above with earlier | ⟨_,same,login⟩
    · exact Or.inl ⟨nofun,earlier⟩
    · obtain rfl := Option.some.inj same
      exact Or.inr ⟨_,rfl,login⟩

end Commands

section Run

variable {σ : Type} (ttyBufSize : Nat) (isChar : WordTest) (unit : Commands σ)

theorem lineAccess_le (s : State σ) (now : Nat) (inv : Inv s.access.auth s.trace) : Inv (lineAccess s now).auth s.trace := by
  rw [lineAccess]
  split_ifs
  · exact inv.none
  · exact inv

theorem processText_inv {base : List Event} {rounds : Nat} {text : List UInt8} {access : Access} {u : σ} {outcome : Outcome σ}
    (inv : Inv access.auth base) (ends : cmdProcessText isChar unit.handlers cmdTable rounds text access u = some outcome) :
    Inv outcome.access.auth (base ++ outcome.calls.map .command) := by
  have none : Inv access.auth (base ++ ([] : List Call).map .command) := by simpa using inv
  apply chain_kept isChar unit.handlers (fun access calls => Inv access.auth (base ++ calls.map Event.command)) _ _ none ends
  intro cmd text rest access u calls before
  exact processCmd_inv unit before

theorem bleRxParser_inv {data : List UInt8} {now : Nat} {s : State σ} (inv : Inv (lineAccess s now).auth s.trace) :
    Inv (bleRxParser isChar unit data now s).access.auth (bleRxParser isChar unit data now s).trace := by
  rw [bleRxParser]
  dsimp only
  generalize lineAccess s now = access at inv ⊢
  have start := inv.line
  rw [List.append_cons]
  cases done : cmdProcessText isChar unit.handlers cmdTable (data.length + 1) data access s.unit with
  | none => simpa using start
  | some outcome => exact processText_inv isChar unit start done

theorem connection_line {data : List UInt8} (plus : charAt data 0 = 0x2B) (rest : data.drop 1 = ascii "CONNECTED") :
    data = ascii "+CONNECTED" := by
  cases data with
  | nil => exact absurd plus (by decide)
  | cons c data =>
    have first : c = 0x2B := plus
    have others : data = ascii "CONNECTED" := rest
    rw [first,others]
    rfl

theorem processLine_inv {data : List UInt8} {now : Nat} {s : State σ} (inv : Inv s.access.auth s.trace)
    (loggedOut : data = ascii "+CONNECTED" → (lineAccess s now).auth ≤ accessNone) :
    Inv (processLine isChar unit data now s).access.auth (processLine isChar unit data now s).trace := by
  have response : ((processResponse data s).connected = false →
      Inv (processResponse data s).access.auth (processResponse data s).trace) ∧
      Inv (lineAccess (processResponse data s) now).auth (processResponse data s).trace := by
    have parsed := lineAccess_le s now inv
    rw [processResponse]
    split_ifs with other connection disconnect
    · exact ⟨fun _ => inv,parsed⟩
    · refine ⟨nofun,inv.entitled.append fun above => absurd above (UInt8.lt_irrefl _),fun above => ?_⟩
      have nobody := loggedOut (connection_line (not_not.mp other) connection)
      exact absurd above (UInt8.not_lt.mpr nobody)
    · exact ⟨fun _ => inv,parsed⟩
    · exact ⟨fun _ => inv,parsed⟩
  rw [processLine]
  generalize processResponse data s = s' at response ⊢
  split_ifs with connected
  · exact bleRxParser_inv isChar unit response.2
  · exact response.1 (Bool.not_eq_true _ ▸ connected)

theorem receive_inv {s : State σ} {received : UInt8 × Nat} (inv : Inv s.access.auth s.trace) (loggedOut : LoggedOut s received) :
    Inv (receive ttyBufSize isChar unit s received).access.auth (receive ttyBufSize isChar unit s received).trace := by
  obtain ⟨ch,now⟩ := received
  rw [receive]
  dsimp only
  split_ifs with ended some room
  · exact processLine_inv isChar unit inv (loggedOut ended)
  · exact inv
  · exact inv
  · exact inv

theorem step_inv {s : State σ} {input : Input σ} (inv : Inv s.access.auth s.trace) (admitted : Admitted ttyBufSize isChar unit s input) :
    Inv (step ttyBufSize isChar unit s input).access.auth (step ttyBufSize isChar unit s input).trace := by
  cases input with
  | bleTask received =>
    exact Run.run_invariant (receive ttyBufSize isChar unit) LoggedOut (fun s => Inv s.access.auth s.trace)
      (fun s received => receive_inv ttyBufSize isChar unit) s received inv admitted
  | bleAccessUpdate =>
    rw [step,bleAccessUpdate]
    split_ifs
    · exact inv
    · exact inv.none
    · exact inv
  | other change => exact inv

/-- Where nobody is logged in at any connection line, no level above NONE outlives its
connection. -/
theorem run_entitled (s : σ) (inputs : List (Input σ))
    (admitted : Run.Admits (step ttyBufSize isChar unit) (Admitted ttyBufSize isChar unit) (initial s) inputs) :
    Entitled (Run.run (step ttyBufSize isChar unit) (initial s) inputs).trace := by
  have start : Inv (initial s).access.auth (initial s).trace :=
    ⟨fun before _ after split => absurd split (by simp [initial]),fun above => absurd above (UInt8.lt_irrefl _)⟩
  have ended := Run.run_invariant (step ttyBufSize isChar unit) (Admitted ttyBufSize isChar unit)
    (fun s => Inv s.access.auth s.trace) (fun s input => step_inv ttyBufSize isChar unit) (initial s) inputs start admitted
  exact ended.entitled

/-- An update while no client is connected logs out, -/
theorem bleAccessUpdate_idle {s : State σ} (off : s.connected = false) :
    (bleAccessUpdate s).connected = false ∧ (bleAccessUpdate s).access.auth = accessNone := by
  rw [bleAccessUpdate]
  split_ifs with none
  · exact ⟨off,none⟩
  · exact ⟨off,rfl⟩

/-- and nobody logs in before the next connection line. -/
theorem receive_idle {s : State σ} {received : UInt8 × Nat} (none : s.access.auth = accessNone)
    (still : (receive ttyBufSize isChar unit s received).connected = false) :
    (receive ttyBufSize isChar unit s received).access.auth = accessNone := by
  obtain ⟨ch,now⟩ := received
  rw [receive] at still ⊢
  dsimp only at still ⊢
  split_ifs at still ⊢ with ended some room
  · have access : (processResponse s.rxBuf s).access = s.access := by
      rw [processResponse]
      split_ifs <;> rfl
    rw [processLine] at still ⊢
    dsimp only at still ⊢
    split_ifs at still ⊢ with connected
    · rw [bleRxParser] at still
      exact absurd (connected.symm.trans still) nofun
    · rw [access,none]
  · exact none
  · exact none
  · exact none

theorem idle_loggedOut {s : State σ} (none : s.access.auth = accessNone) (received : UInt8 × Nat) : LoggedOut s received := by
  intro _ _
  rw [lineAccess]
  split_ifs
  · exact UInt8.le_refl _
  · exact none ▸ UInt8.le_refl _

end Run

section Clients

/-- A unit with one password, where handlers take all of their text up to the next command. -/
def unlocked : Commands (Nat → List UInt8) where
  get _ _ s := (true,s)
  set _ text _ s := (true,(text.takeWhile fun c => c ≠ 0x3B).length,s)
  error _ s := s
  cfg s id := some (s id)
  parseString text := some (text.takeWhile fun c => c ≠ 0x3B,(text.takeWhile fun c => c ≠ 0x3B).length)

def typed (text : String) : Input (Nat → List UInt8) := .bleTask ((ascii text ++ [0x0A]).map fun ch => (ch,5))

def login : List (Input (Nat → List UInt8)) := [typed "+CONNECTED",.bleAccessUpdate,typed "AUTH=admin",.bleAccessUpdate]

def ended (inputs : List (Input (Nat → List UInt8))) : State (Nat → List UInt8) :=
  Run.run (step 128 alphanumeric unlocked) (initial fun _ => ascii "admin") inputs

theorem login_entitled :
    Entitled (ended (login ++ [typed "STATUS"])).trace ∧ (ended login).access.auth = accessAdmin :=
  ⟨run_entitled 128 alphanumeric unlocked _ _ (by decide +kernel),by decide +kernel⟩

/-- A client that connects in the batch in which another one disconnects has the level of
that one. -/
theorem inherited_level :
    ¬ ∀ inputs, Entitled (Run.run (step 128 alphanumeric unlocked) (initial fun _ => ascii "admin") inputs).trace := by
  intro always
  have entitled := always (login ++ [typed "+DISCONNECT\n+CONNECTED\nREBOOT=1"])
  generalize seen : (Run.run (step 128 alphanumeric unlocked) _ _).trace = trace at entitled
  have reboot : trace.drop 7 = [.command ⟨⟨ascii "REBOOT",false,true,accessAdmin⟩,accessAdmin,ascii "REBOOT=1",true,true⟩] := by
    rw [← seen]
    decide +kernel
  have logged := entitled (trace.take 7) _ [] (by rw [← reboot,List.take_append_drop]) (by decide)
  rw [← seen] at logged
  exact absurd logged (by decide +kernel)

end Clients

end JcaFirmware.Ble
