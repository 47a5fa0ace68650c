import JcaFirmware.Modem

/-! The data connection (`modem_data_connect`, `modem_data_disconnect`, `modem_bg95_udp_init`). Both work
in tasks beside the one that takes the lines, so a call is a sequence of steps, each with one
access to the flags, and lines come between any two of them. -/
namespace JcaFirmware.ModemData
open Foundation Modem

/-- Where a call stands: behind which command or before which access. -/
inductive Call
  | cgatt
  | cgact
  | cgattQuery
  | lteTest
  | cgregQuery
  | dataReadyTest
  | udpInit
  | qiactQuery
  | qiact
  | dataformat
  | qidnscfg
  | up
  | disconnect
  | detach
  | down
  | returned (result : Bool)
deriving DecidableEq, Repr

/-- What ends a command or a wait: the answer that was asked for, the end of the time, and the clock. -/
structure Outcome where
  answered : Bool
  expired : Bool
  now : Nat
deriving DecidableEq, Repr

def callStep (m : Modem.State) (outcome : Outcome) : Call → Modem.State × Call
  -- modem_data_connect
  | .cgatt => (m,if outcome.answered then .cgact else .returned false)
  | .cgact => (m,if outcome.answered then .cgattQuery else .returned false)
  | .cgattQuery => (m,if outcome.expired ∨ outcome.answered then .lteTest else .cgattQuery)
  | .lteTest => (m,if outcome.expired then .returned false else if m.flags.lte then .udpInit else .cgregQuery)
  | .cgregQuery => (m,.dataReadyTest)
  | .dataReadyTest => (m,if m.flags.dataReady then .udpInit else .lteTest)
  -- modem_bg95_udp_init
  | .udpInit => (socketClear m,.qiactQuery)
  | .qiactQuery => (m,if outcome.answered then .dataformat else .qiact)
  | .qiact => (m,if outcome.answered then .dataformat else .returned false)
  | .dataformat => (m,if outcome.answered then .qidnscfg else .returned false)
  | .qidnscfg =>
    ({m with bg95 := {m.bg95 with timerRxTimeout := outcome.now + 60 * osTimerSecond, txCnt := 0}},.up)
  | .up => ({m with flags := {m.flags with dataUp := true}},.returned true)
  -- modem_data_disconnect
  | .disconnect => (m,if m.flags.dataReady then .detach else .returned true)
  | .detach => (m,.down)
  | .down => ({m with flags := {m.flags with dataReady := false}},.returned true)
  | .returned result => (m,.returned result)

structure State where
  modem : Modem.State
  calls : List Call

inductive Input
  | line (line : Line)
  | modemDataConnect
  | modemDataDisconnect
  | call (i : Nat) (outcome : Outcome)

def begin (s : State) (call : Call) : State where
  modem := {s.modem with flags := {s.modem.flags with dataUp := false}}
  calls := s.calls ++ [call]

def proceed (s : State) (i : Nat) (outcome : Outcome) : State :=
  match s.calls[i]? with
  | none => s
  | some call =>
    let (modem,call) := callStep s.modem outcome call
    ⟨modem,s.calls.set i call⟩

variable (sdk : Sdk)

def step (s : State) : Input → State
  | .line line => {s with modem := modemAtRx sdk s.modem line}
  | .modemDataConnect => begin s .cgatt
  | .modemDataDisconnect => begin s .disconnect
  | .call i outcome => proceed s i outcome

def initial (m : Modem.State) : State := ⟨{m with flags := .clear},[]⟩

section Bearer

def Flags.DataConsistent (flags : Flags) : Prop := flags.dataUp → flags.dataReady ∨ flags.lte

instance (flags : Flags) : Decidable (Flags.DataConsistent flags) := inferInstanceAs (Decidable (_ → _))

/-- The reports that take the bearer away without the data. -/
def strips (flags : Flags) : Report → Prop
  | .packet .lost => flags.lte = false
  | .packet .unknown => flags.lte = false
  | .powerDown => True
  | _ => False

instance (flags : Flags) (report : Report) : Decidable (strips flags report) := by
  unfold strips
  split <;> infer_instance

/-- No line strips the bearer while data is up, no connecting ends without a bearer, and no disconnecting ends
while data has come up again. -/
def StepOk (s : State) : Input → Prop
  | .line line => s.modem.flags.dataUp → ¬ strips s.modem.flags (reportOf sdk s.modem line)
  | .call i _ =>
    (s.calls[i]? = some .up → s.modem.flags.dataReady ∨ s.modem.flags.lte) ∧
      (s.calls[i]? = some .down → s.modem.flags.dataUp → s.modem.flags.lte)
  | _ => True

instance (s : State) (input : Input) : Decidable (StepOk sdk s input) :=
  match input with
  | .line _ => inferInstanceAs (Decidable (_ → _))
  | .call .. => inferInstanceAs (Decidable (_ ∧ _))
  | .modemDataConnect => isTrue trivial
  | .modemDataDisconnect => isTrue trivial

variable {flags : Flags}

theorem DataConsistent.after (holds : Flags.DataConsistent flags) (report : Report)
    (kept : flags.dataUp → ¬ strips flags report) : Flags.DataConsistent (flags.after report) := by
  cases report with
  | circuit status =>
    cases status with
    | lost =>
      unfold Flags.after
      split_ifs
      · exact holds
      · exact fun up => absurd up Bool.false_ne_true
    | home | roaming | unknown => exact holds
  | eps status =>
    cases status with
    | home | roaming => exact fun _ => Or.inr rfl
    | lost | unknown =>
      simp only [Flags.after]
      split_ifs
      · exact fun up => absurd up Bool.false_ne_true
      · exact holds
  | packet status =>
    cases status with
    | home | roaming =>
      simp only [Flags.after]
      split_ifs
      · exact holds
      · exact fun _ => Or.inl rfl
    | lost | unknown =>
      simp only [Flags.after]
      split_ifs with lte
      · exact holds
      · exact fun up => absurd (Bool.eq_false_iff.mpr lte) (kept up)
  | simError | pdpdeact => exact fun up => absurd up Bool.false_ne_true
  | powerDown => exact fun up => absurd trivial (kept up)
  | nothing | pin | callStop | ring => exact holds

theorem strips_breaks {report : Report} (up : flags.dataUp) (stripped : strips flags report) :
    ¬ Flags.DataConsistent (flags.after report) := by
  intro holds
  cases report with
  | packet status =>
    cases status with
    | home | roaming => exact stripped
    | lost | unknown =>
      have gsm : flags.lte = false := stripped
      have bearer := holds (by simpa [Flags.after,gsm] using up)
      simp [Flags.after,gsm] at bearer
  | powerDown => rcases holds up with ready | lte <;> contradiction
  | _ => exact stripped

theorem callStep_flags (m : Modem.State) (outcome : Outcome) (call : Call) :
    (callStep m outcome call).1.flags =
      {m.flags with
        dataUp := m.flags.dataUp || decide (call = .up)
        dataReady := m.flags.dataReady && decide (call ≠ .down)} := by
  cases call <;> simp [callStep,socketClear]

variable {s : State}

theorem DataConsistent.call (holds : Flags.DataConsistent s.modem.flags) (i : Nat) (outcome : Outcome)
    (kept : StepOk sdk s (.call i outcome)) : Flags.DataConsistent (proceed s i outcome).modem.flags := by
  unfold proceed
  cases stands : s.calls[i]? with
  | none => exact holds
  | some call =>
    have flags := callStep_flags s.modem outcome call
    simp only [StepOk,stands] at kept
    change Flags.DataConsistent (callStep s.modem outcome call).1.flags
    rw [flags]
    by_cases up : call = .up
    · subst up
      intro _
      simpa using kept.1 rfl
    by_cases down : call = .down
    · subst down
      intro data
      right
      exact kept.2 rfl (by simpa using data)
    simpa [up,down] using holds

theorem refused_call (i : Nat) (outcome : Outcome) (refused : ¬ StepOk sdk s (.call i outcome)) :
    ¬ Flags.DataConsistent (proceed s i outcome).modem.flags := by
  unfold proceed
  cases stands : s.calls[i]? with
  | none => simp [StepOk,stands] at refused
  | some call =>
    have flags := callStep_flags s.modem outcome call
    simp only [StepOk,stands] at refused
    change ¬ Flags.DataConsistent (callStep s.modem outcome call).1.flags
    rw [flags]
    by_cases up : call = .up
    · subst up
      simp at refused
      simp [Flags.DataConsistent,refused]
    by_cases down : call = .down
    · subst down
      simp at refused
      simp [Flags.DataConsistent,refused]
    simp [up,down] at refused

/-- Data is up only over a bearer, all along a run, exactly when each step is one of those that keep it so. -/
theorem data_over_bearer_iff (m : Modem.State) (inputs : List Input) :
    (∀ first rest, inputs = first ++ rest →
        Flags.DataConsistent (Run.run (step sdk) (initial m) first).modem.flags) ↔
      Run.Admits (step sdk) (StepOk sdk) (initial m) inputs := by
  apply Run.always_iff_admits (step sdk) (StepOk sdk) (fun s => Flags.DataConsistent s.modem.flags)
    (fun s => Flags.DataConsistent s.modem.flags) fun _ holds => holds
  · intro s input holds kept
    cases input with
    | line line =>
      change Flags.DataConsistent (modemAtRx sdk s.modem line).flags
      rw [modemAtRx_flags]
      exact DataConsistent.after holds _ kept
    | modemDataConnect => exact fun up => absurd up Bool.false_ne_true
    | modemDataDisconnect => exact fun up => absurd up Bool.false_ne_true
    | call i outcome => exact DataConsistent.call sdk holds i outcome kept
  · intro s input holds refused
    cases input with
    | line line =>
      change ¬ Flags.DataConsistent (modemAtRx sdk s.modem line).flags
      rw [modemAtRx_flags]
      simp only [StepOk,not_forall,not_not] at refused
      obtain ⟨up,stripped⟩ := refused
      exact strips_breaks up stripped
    | modemDataConnect => exact absurd trivial refused
    | modemDataDisconnect => exact absurd trivial refused
    | call i outcome => exact refused_call sdk i outcome refused
  · exact fun up => absurd up Bool.false_ne_true

end Bearer

section Runs

def plainSdk : Sdk where
  toSdk := Dns.plainSdk
  parseModemSeparator s := if s.head? = some 0x2C then some s.tail else none

def started : Modem.State where
  modemAt := ⟨false,false,false,false,false,0,[],0,none⟩
  sim := .pinInitRq
  flags := .clear
  errorCounter := 0
  signalLevel := 0
  smsCounter := 0
  smsStorageMe := false
  events := []
  bg95 := ⟨fun _ => .zero,0,0,0,0,0,⟨false,false,false,0⟩⟩

def said (text : String) : Input := .line ⟨Numeral.ascii text,text.length + 1,0⟩

/-- Connecting in GSM mode, with every command answered. -/
def connects : List Input := .modemDataConnect :: List.replicate 11 (.call 0 ⟨true,false,0⟩)

def deregisters : List Input := said "+CREG: 1" :: said "+CGREG: 1" :: connects ++ [said "+CGREG: 0"]

def powersDown : List Input := said "+CREG: 1" :: said "+CGREG: 1" :: connects ++ [said "POWERED DOWN"]

theorem deregisters_up :
    ¬ Flags.DataConsistent (Run.run (step plainSdk) (initial started) deregisters).modem.flags ∧
      ¬ Flags.DataConsistent (Run.run (step plainSdk) (initial started) powersDown).modem.flags := by decide +kernel

end Runs

end JcaFirmware.ModemData
