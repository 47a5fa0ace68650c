import JcaFirmware.ModemAnswers

/-! The entry of the PIN (`_init_sim`): over any run it stands behind a report of the modem that came since the last entry
and left three attempts or more, so that the firmware never uses up the last two. -/
namespace JcaFirmware.ModemPin
open Foundation Numeral CText
open Modem (Line)
open ModemAt ModemStart ModemKeeps ModemMain ModemAnswers

section Reports
variable (sdk : Sdk)

/-- The line was handled behind the last entry of a PIN; the events are newest first. -/
def heardSince : List ModemAt.Event → List UInt8 → Prop
  | [],_ => False
  | .heard line :: past,text => text = line ∨ heardSince past text
  | .sent cmd _ :: past,text => enters cmd = false ∧ heardSince past text
  | _ :: past,text => heardSince past text

/-- A line told since the last entry of a PIN that three attempts or more are left. -/
def Armed (past : List ModemAt.Event) : Prop :=
  ∃ line, heardSince past line ∧ sameUpTo qpincPattern.length line qpincPattern = true ∧
    ∃ attempts, attemptsOf (sdk.bufAppendStr 32 line) = some attempts ∧ 3 ≤ attempts

def Guarded : List ModemAt.Event → Prop
  | [] => True
  | .sent cmd _ :: past => (enters cmd = true → Armed sdk past) ∧ Guarded past
  | _ :: past => Guarded past

/-- Every entry of a PIN was guarded. -/
def Known (w : World) : Prop := Guarded sdk w.trace ∧ Fresh w

variable {sdk} {past : List ModemAt.Event}

theorem heardSince_later {text : List UInt8} (heard : heardSince past text) {e : ModemAt.Event}
    (plain : ∀ cmd dtrLow, e = .sent cmd dtrLow → enters cmd = false) : heardSince (e :: past) text := by
  cases e with
  | heard line => exact Or.inr heard
  | sent cmd dtrLow => exact ⟨plain cmd dtrLow rfl,heard⟩
  | _ => exact heard

theorem Armed.later (armed : Armed sdk past) {e : ModemAt.Event} (plain : ∀ cmd dtrLow, e = .sent cmd dtrLow → enters cmd = false) :
    Armed sdk (e :: past) := by
  obtain ⟨line,heard,report⟩ := armed
  exact ⟨line,heardSince_later heard plain,report⟩

theorem closed_armed : Closed sdk fun w => Armed sdk w.trace where
  time _ _ armed := armed
  hear _ _ armed := armed.later nofun
  userStr _ _ armed := armed
  modem _ _ _ armed := armed
  wake _ armed := armed
  awake _ armed := armed
  transmit cmd _ plain _ armed := armed.later fun _ _ same => by cases same; exact plain
  pwrkey _ armed := armed.later nofun
  rqState _ _ armed := armed
  order command w armed := by
    unfold World.modemMainCommand
    split_ifs
    · exact armed
    · exact armed
    · exact armed.later nofun
  configure _ _ armed := armed

theorem heardSince_since {line : List UInt8} (heard : .heard line ∈ since past) : heardSince past line := by
  induction past with
  | nil => exact nomatch heard
  | cons e past ih =>
    cases e with
    | sent => exact nomatch heard
    | heard other =>
      obtain same | heard := List.mem_cons.mp heard
      · exact Or.inl (ModemAt.Event.heard.inj same)
      · exact Or.inr (ih heard)
    | _ =>
      obtain same | heard := List.mem_cons.mp heard
      · exact nomatch same
      · exact ih heard

theorem closed_guarded : Closed sdk fun w => Guarded sdk w.trace where
  time _ _ guarded := guarded
  hear _ _ guarded := guarded
  userStr _ _ guarded := guarded
  modem _ _ _ guarded := guarded
  wake _ guarded := guarded
  awake _ guarded := guarded
  transmit _ _ plain _ guarded := ⟨fun enters => absurd (plain.symm.trans enters) nofun,guarded⟩
  pwrkey _ guarded := guarded
  rqState _ _ guarded := guarded
  order command w guarded := by
    unfold World.modemMainCommand
    split_ifs
    all_goals exact guarded
  configure _ _ guarded := guarded

theorem closed_known : Closed sdk (Known sdk) := closed_guarded.and free_fresh.toClosed

theorem known_sent {cmd : List UInt8} (guarded : ∀ w, Known sdk w → enters cmd = true → Armed sdk w.trace) : Sent (Known sdk) cmd :=
  fun w known => ⟨⟨guarded w known,known.1⟩,nofun,fun some => absurd rfl some⟩

theorem pinAttemptsLeft_arms :
    Task.Triple (Known sdk) (fun _ => True) (pinAttemptsLeft sdk) fun attempts w =>
      ∀ k, attempts = some k → 3 ≤ k → Armed sdk w.trace := by
  have sent : Sent (Known sdk) (timeoutOf (ascii "AT+QPINC?")).2 := known_sent fun _ _ => nofun
  refine .bind _ (.bind (fun _ _ => True) ?_ fun _ => atCmdAndResponseOk_answers closed_known (fun _ known => known.2) (some qpincPattern) sent)
    fun result => .ite ?_ ?_
  · exact (modemAtLock_wakes closed_known).weaken (fun _ _ _ => trivial) fun _ _ _ => trivial
  · refine fun came => .pure fun w _ holds k same high => ?_
    obtain ⟨⟨_,heard⟩,begins⟩ := (holds came).2 qpincPattern rfl
    exact ⟨result.2,heardSince_since heard,begins,k,same,high⟩
  · exact fun _ => .pure fun _ _ _ _ => nofun

theorem pinEnter_guarded (pin : List UInt8) : Task.Triple (Known sdk) (fun w => Armed sdk w.trace) (pinEnter sdk pin) fun _ _ => True := by
  refine .ite (fun _ => .pure fun _ _ _ => trivial) fun _ => .ite (fun _ => ?_) fun _ => .pure fun _ _ _ => trivial
  refine .bind _ (Task.Keeps.of_triple (modemAtLock_wakes (closed_known.and closed_armed))).triple fun _ => ?_
  refine .bind (fun _ _ => True) (.bind (fun _ _ => True) (.bind (fun _ _ => True) (.modify fun w known armed => ⟨?_,trivial⟩) fun _ =>
    osDelay_keeps closed_known true) fun _ => ?_) fun _ => Task.Keeps.pure _
  · exact ⟨⟨fun _ => armed,known.1⟩,nofun,fun some => absurd rfl some⟩
  · exact Task.Keeps.bind (modemAtResponse_keeps closed_known true none _) fun _ => .bind (.read _) fun _ => .pure _

theorem initSim_known (pin : List UInt8) : Task.Keeps (Known sdk) (initSim sdk pin) :=
  initSim_keeps closed_known _ pinAttemptsLeft_arms (pinEnter_guarded pin)

theorem steady_known : Steady sdk (Known sdk) where
  toClosed := closed_known
  sim := initSim_known
  setState new w known := by
    unfold World.setState
    split_ifs
    · exact known
    · exact ⟨known.1,known.2.later _ nofun⟩
  setMain _ _ _ known := ⟨known.1,known.2.ok,known.2.response⟩
  sleeps _ known := ⟨known.1,known.2.ok,known.2.response⟩

theorem rounds_known (n : Nat) : Task.Keeps (Known sdk) (rounds sdk n) := by
  refine rounds_keeps steady_known (postedTask_keeps steady_known (fun _ w known => ?_) fun _ w known => ?_) n
  · exact ⟨known.1,known.2.later w.main nofun⟩
  · exact ⟨known.1,known.2.later {w.main with command := .none} nofun⟩

end Reports

section Card

/-- A card: every wrong PIN takes an attempt, the right one gives them all back while there is one left. -/
structure Sim where
  pin : List UInt8
  limit : Nat
  start : Nat
  byte : limit < 2 ^ 8
  inside : start ≤ limit

/-- The attempts that are left behind the events, newest first. -/
def Sim.left (sim : Sim) : List ModemAt.Event → Nat
  | [] => sim.start
  | .sent cmd _ :: past =>
    if enters cmd = true then if sim.left past ≠ 0 ∧ cmd = pinEntry sim.pin then sim.limit else sim.left past - 1 else sim.left past
  | _ :: past => sim.left past

/-- `+QPINC: "SC",3,10`. -/
def Reports (left : Nat) (line : List UInt8) : Prop :=
  ∃ puk < 2 ^ 8, line = ascii "+QPINC: \"SC\"," ++ (numeral 10 left ++ (ascii "," ++ numeral 10 puk))

/-- What the modem says of the attempts is what the card has. -/
def Sim.Honest (sim : Sim) : List ModemAt.Event → Prop
  | [] => True
  | .heard line :: past => (sameUpTo qpincPattern.length line qpincPattern = true → Reports (sim.left past) line) ∧ sim.Honest past
  | _ :: past => sim.Honest past

variable {sdk : Sdk} {sim : Sim} {past : List ModemAt.Event}

theorem Sim.left_le (sim : Sim) (past : List ModemAt.Event) : sim.left past ≤ sim.limit := by
  induction past with
  | nil => exact sim.inside
  | cons e past ih =>
    cases e with
    | sent cmd dtrLow =>
      unfold Sim.left
      split_ifs
      · exact Nat.le_refl _
      · exact (Nat.sub_le _ 1).trans ih
      · exact ih
    | _ => exact ih

theorem Reports.attempts {left : Nat} {line : List UInt8} (byte : left < 2 ^ 8) (reports : Reports left line) : attemptsOf line = some left := by
  obtain ⟨puk,_,rfl⟩ := reports
  have stops : Stops 10 (ascii "," ++ numeral 10 puk) := by
    rintro c ⟨⟩
    decide
  have behind : (ascii "+QPINC: \"SC\"," ++ (numeral 10 left ++ (ascii "," ++ numeral 10 puk))).dropWhile (· ≠ 0x2C)
      = 0x2C :: (numeral 10 left ++ (ascii "," ++ numeral 10 puk)) := rfl
  unfold attemptsOf
  rw [behind]
  dsimp only
  rw [numeral_eq_padded,Nmea.atoi_padded stops (by omega)]
  exact congrArg some (by omega)

theorem Reports.short {left : Nat} {line : List UInt8} (byte : left < 2 ^ 8) (reports : Reports left line) : line.length < 32 := by
  obtain ⟨puk,pukByte,rfl⟩ := reports
  have own := @numeral_length 10 (by decide) 3 left (by decide) (by omega)
  have other := @numeral_length 10 (by decide) 3 puk (by decide) (by omega)
  have head : (ascii "+QPINC: \"SC\",").length = 13 := by decide
  have comma : (ascii ",").length = 1 := by decide
  simp only [List.length_append]
  omega

/-- What a line said since the last entry is what the card has. -/
theorem Sim.Honest.since (honest : sim.Honest past) {line : List UInt8} (heard : heardSince past line)
    (asked : sameUpTo qpincPattern.length line qpincPattern = true) : Reports (sim.left past) line := by
  induction past with
  | nil => exact heard.elim
  | cons e past ih =>
    cases e with
    | heard other =>
      obtain rfl | heard := heard
      · exact honest.1 asked
      · exact ih honest.2 heard
    | sent cmd dtrLow =>
      unfold Sim.left
      rw [if_neg (by rw [heard.1]; exact Bool.false_ne_true)]
      exact ih honest heard.2
    | _ => exact ih honest heard

variable (keeps : ∀ size text, text.length < size → sdk.bufAppendStr size text = text)
include keeps

theorem Armed.enough (armed : Armed sdk past) (honest : sim.Honest past) : 3 ≤ sim.left past := by
  obtain ⟨line,heard,asked,attempts,read,high⟩ := armed
  have reports := honest.since heard asked
  have byte := Nat.lt_of_le_of_lt (sim.left_le past) sim.byte
  rw [keeps 32 line (reports.short byte),reports.attempts byte] at read
  injection read with read
  omega

theorem Guarded.spares (guarded : Guarded sdk past) (honest : sim.Honest past) : min sim.start 2 ≤ sim.left past := by
  induction past with
  | nil => exact Nat.min_le_left _ _
  | cons e past ih =>
    cases e with
    | sent cmd dtrLow =>
      have before := ih guarded.2 honest
      unfold Sim.left
      split_ifs with enters right
      · exact before.trans (sim.left_le past)
      · have enough := (guarded.1 enters).enough keeps honest
        omega
      · exact before
    | heard => exact ih guarded honest.2
    | _ => exact ih guarded honest

omit keeps in
theorem Guarded.before (e : ModemAt.Event) (past : List ModemAt.Event) (guarded : Guarded sdk (e :: past)) : Guarded sdk past := by
  cases e with
  | sent => exact guarded.2
  | _ => exact guarded

omit keeps in
theorem Sim.Honest.before (e : ModemAt.Event) (past : List ModemAt.Event) (honest : sim.Honest (e :: past)) : sim.Honest past := by
  cases e with
  | heard => exact honest.2
  | _ => exact honest

/-- In every run, whatever the operator and the other tasks do, and as long as the modem tells the truth, a PIN is never entered
with less than three attempts left: the last two are spared, at every moment of the run. -/
theorem pin_attempts_spared (n : Nat) (bg95 : Modem.Bg95) (cfg : Cfg) (now : Nat) (script : List Tick)
    (honest : sim.Honest (rounds sdk n (modemMainInit bg95 cfg now) script).2.1.trace)
    (earlier : past <:+ (rounds sdk n (modemMainInit bg95 cfg now) script).2.1.trace) : min sim.start 2 ≤ sim.left past := by
  have start : Known sdk (modemMainInit bg95 cfg now) := ⟨trivial,nofun,fun some => absurd rfl some⟩
  have known := (rounds_known n).run start script
  exact (holds_earlier Guarded.before earlier known.1).spares keeps (holds_earlier Sim.Honest.before earlier honest)

end Card

section Runs

instance (left : Nat) (line : List UInt8) : Decidable (Reports left line) := inferInstanceAs (Decidable (∃ puk < 2 ^ 8, _))

instance Sim.decidableHonest (sim : Sim) : (past : List ModemAt.Event) → Decidable (sim.Honest past)
  | [] => isTrue trivial
  | e :: past =>
    have : Decidable (sim.Honest past) := sim.decidableHonest past
    match e with
    | .heard _ => inferInstanceAs (Decidable ((_ → _) ∧ _))
    | .sent _ _ => this
    | .pwrkey => this
    | .state _ _ _ => this
    | .accepted _ => this
    | .executing _ => this
    | .executed _ => this

def fresh : Sim := ⟨ascii "0000",3,3,by decide,by decide⟩

def configured : Cfg := ⟨some (ascii "1234"),none,none⟩

/-- The operator starts the modem, and the card is asked for its attempts and refuses the PIN. -/
def refused : List Tick :=
  [⟨[.order .start],10⟩,silence] ++ List.replicate 25 answer ++
    [silence,⟨[told "+QPINC: \"SC\",3,10",told "OK"],10⟩,silence,silence,⟨[told "ERROR"],10⟩]

theorem pin_attempts_spared_refused :
    min 3 2 ≤ fresh.left (rounds plainSdk 3 (modemMainInit ModemData.started.bg95 configured 0) refused).2.1.trace ∧
      fresh.left (rounds plainSdk 3 (modemMainInit ModemData.started.bg95 configured 0) refused).2.1.trace = 2 :=
  ⟨@pin_attempts_spared plainSdk fresh _ plainSdk_keeps 3 ModemData.started.bg95 configured 0 refused (by decide +kernel) (List.suffix_refl _),
    by decide +kernel⟩

end Runs

end JcaFirmware.ModemPin
