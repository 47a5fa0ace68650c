import JcaFirmware.ModemAnswers

/-! The configuration of the modem (`modem_config_table`, `modem_start`): a start that succeeds has confirmed every item of the
table, each by an answer to its own question or to its own command. -/
namespace JcaFirmware.ModemSetup
open Foundation Numeral CText
open ModemAt ModemStart ModemKeeps ModemAnswers

section Items

/-- The modem shows what is wanted, or takes the command that sets it. -/
def Confirms (p : ModemConfig) (past : List ModemAt.Event) : Prop :=
  Done (timeoutOf p.set).2 past ∨
    ∃ ask ∈ p.ask, Done ask past ∧ ∃ line, Shown ask line past ∧ sameUpTo p.result.length line p.result = true

/-- It did so in this state. -/
def Confirmed (p : ModemConfig) (past : List ModemAt.Event) : Prop :=
  ∃ recent before, past = recent ++ before ∧ (∀ old new netReady, .state old new netReady ∉ recent) ∧ Confirms p before

def AllConfirmed (table : List ModemConfig) (past : List ModemAt.Event) : Prop := ∀ p ∈ table, Confirmed p past

variable {sdk : Sdk} {p : ModemConfig} {table : List ModemConfig}

theorem Confirms.confirmed {past : List ModemAt.Event} (confirms : Confirms p past) : Confirmed p past :=
  ⟨[],past,rfl,nofun,confirms⟩

theorem Confirmed.later {past : List ModemAt.Event} (confirmed : Confirmed p past) {e : ModemAt.Event}
    (stateless : ∀ old new netReady, e ≠ .state old new netReady) : Confirmed p (e :: past) := by
  obtain ⟨recent,before,rfl,none,confirms⟩ := confirmed
  refine ⟨e :: recent,before,rfl,fun old new netReady member => ?_,confirms⟩
  obtain same | member := List.mem_cons.mp member
  · exact stateless old new netReady same.symm
  · exact none old new netReady member

theorem free_confirmed : Free sdk fun w => AllConfirmed table w.trace :=
  @free_events sdk (fun past _ => AllConfirmed table past) fun _ _ _ stateless _ all p member => (all p member).later stateless

theorem free_confirmed_if {fact : Prop} : Free sdk fun w => fact → Confirmed p w.trace :=
  @free_events sdk (fun past _ => fact → Confirmed p past) fun _ _ _ stateless _ confirmed given => (confirmed given).later stateless

end Items

section Start
variable {sdk : Sdk} {always : World → Prop}

/-- While the modem is awake and the semaphore is taken, an item that is done was confirmed. -/
theorem configItem_confirms (closed : Closed sdk always) (fresh : ∀ w, always w → Fresh w) (woken : ∀ w, always w → w.dtrLow = true)
    {p : ModemConfig} (plain : Plain p) :
    Task.Triple always (fun _ => True) (configItem sdk p) fun ok w => ok = true → Confirmed p w.trace := by
  have sent {cmd : List UInt8} (plain : enters cmd = false) : Sent always cmd :=
    fun w holds => closed.transmit cmd w plain (Or.inl (woken w holds)) holds
  have sets : Task.Triple always (fun _ => True) (modemAtOkCmdNolock sdk.modem true p.set) fun ok (w : World) =>
      ok = true → Confirmed p w.trace :=
    (modemAtOkCmdNolock_done closed fresh (sent plain.2)).weaken (fun _ _ start => start) fun _ _ done ok =>
      Confirms.confirmed (Or.inl (done ok))
  unfold configItem
  cases asks : p.ask with
  | none => exact sets
  | some ask =>
    refine .bind _ (modemAtCmdNolock_sends closed (sent (plain.1 ask asks))) fun _ => ?_
    refine .bind _ (modemAtResponse_answers closed fresh ask (some p.result) p.timeout) fun flags => .ite (fun both => ?_) fun _ => ?_
    · refine .pure fun w _ answers _ => Confirms.confirmed (Or.inr ⟨ask,asks,answers.1 both.1,w.modem.modemAt.response,?_⟩)
      exact answers.2 both.2 p.result rfl
    · refine .bind (fun _ _ => True) ?_ fun _ => sets
      exact (osDelay_keeps closed true).weaken (fun _ _ _ => trivial) fun _ _ _ => trivial

/-- The items that were confirmed before stay so. -/
theorem configItems_confirms (closed : Closed sdk always) (fresh : ∀ w, always w → Fresh w) (woken : ∀ w, always w → w.dtrLow = true)
    {table : List ModemConfig} (plain : ∀ p ∈ table, Plain p) (cfgOk : Bool) :
    Task.Triple always (fun _ => True) (configItems sdk table cfgOk) fun ok w =>
      ok = true → cfgOk = true ∧ AllConfirmed table w.trace := by
  induction table generalizing cfgOk always with
  | nil => exact .pure fun w _ _ ok => ⟨ok,nofun⟩
  | cons p table ih =>
    refine .bind (fun _ _ => True) (osDelay_keeps closed true) fun _ => ?_
    refine .bind _ (configItem_confirms closed fresh woken (plain p List.mem_cons_self)) fun ok => ?_
    have kept : Closed sdk fun w => always w ∧ (ok = true → Confirmed p w.trace) := closed.and free_confirmed_if.toClosed
    have rest := ih kept (fun w both => fresh w both.1) (fun w both => woken w both.1)
      (fun p member => plain p (List.mem_cons_of_mem _ member)) (cfgOk && ok)
    refine rest.frame.weaken (fun _ _ start => start) fun all w both done => ?_
    obtain ⟨before,others⟩ := both.2 done
    obtain ⟨before,here⟩ := Bool.and_eq_true_iff.mp before
    exact ⟨before,List.forall_mem_cons.mpr ⟨both.1 here,others⟩⟩

variable (free : Free sdk always) (fresh : ∀ w, always w → Fresh w)
include free fresh

/-- A table that is taken for configured was confirmed item by item. -/
theorem modemConfigTable_confirms {table : List ModemConfig} (plain : ∀ p ∈ table, Plain p) :
    Task.Triple always (fun _ => True) (modemConfigTable sdk table) fun ok w => ok = true → AllConfirmed table w.trace := by
  refine .bind _ (modemAtLock_wakes free.toClosed) fun _ => ?_
  refine (configItems_confirms free.toClosed.awakened (fun w awake => fresh w awake.1) (fun w awake => awake.2) plain true).frame.weaken
    (fun _ _ woken => woken) fun ok w both done => (both.2 done).2

/-- A turn that succeeds has configured the modem. -/
theorem startTurn_confirms : Task.Triple always (fun _ => True) (startTurn sdk) fun result w =>
    result = some true → AllConfirmed modemConfig w.trace := by
  have sends {atCmd : List UInt8} (plain : enters (timeoutOf atCmd).2 = false) := @modemAtOkCmd_keeps sdk always free.toClosed atCmd plain
  refine .bind _ (sends (by decide)) fun _ => .ite (fun _ => .pure fun _ _ _ => nofun) fun _ => ?_
  refine .bind _ (sends (by decide)) fun _ => .ite (fun _ => .pure fun _ _ _ => nofun) fun _ => ?_
  refine .bind _ (sends (by decide)) fun _ => .ite (fun _ => .pure fun _ _ _ => nofun) fun _ => ?_
  refine .bind _ (Task.Keeps.read _) fun pin => .bind _ (initSim_free free pin) fun _ => .ite (fun _ => .pure fun _ _ _ => nofun) fun _ => ?_
  refine .bind _ (modemConfigTable_confirms free fresh modemConfig_plain) fun ok => .ite (fun _ => .pure fun _ _ _ => nofun) fun done => ?_
  -- what is sent after the table leaves it confirmed
  have both : Closed sdk fun w => always w ∧ AllConfirmed modemConfig w.trace := free.toClosed.and free_confirmed.toClosed
  have sends {atCmd : List UInt8} (plain : enters (timeoutOf atCmd).2 = false) := @modemAtOkCmd_keeps sdk _ both atCmd plain
  have rest : Task.Keeps (fun w => always w ∧ AllConfirmed modemConfig w.trace) (do
      let _ ← modemApnSetup sdk
      let _ ← modemBg95Init sdk
      let _ ← modemAtOkCmd sdk.modem (ascii "AT+CREG?;+CEREG?")
      return some true) :=
    .bind (modemApnSetup_keeps both) fun _ => .bind (modemBg95Init_keeps both) fun _ => .bind (sends (by decide)) fun _ => .pure _
  refine Task.Triple.weaken (Task.Keeps.triple ?_) (fun _ _ confirmed => confirmed (not_not.mp done)) fun _ _ confirmed _ => confirmed
  refine Task.Keeps.bind (sends (by decide)) fun _ => .ite ?_ rest
  exact Task.Keeps.bind (sends (by decide)) fun _ => .ite (.pure none) rest

theorem startLoop_confirms (again : Nat) : Task.Triple always (fun _ => True) (startLoop sdk again) fun ok w =>
    ok = true → AllConfirmed modemConfig w.trace := by
  induction again with
  | zero => exact .pure fun _ _ _ => nofun
  | succ again ih =>
    refine .bind _ (startTurn_confirms free fresh) fun result => ?_
    cases result with
    | some result => exact .pure fun w _ confirmed ok => confirmed (congrArg some ok)
    | none => exact ih.weaken (fun _ _ _ => trivial) fun _ _ confirmed => confirmed

/-- A start that succeeds has configured the modem. -/
theorem modemStart_confirms : Task.Triple always (fun _ => True) (modemStart sdk) fun ok w =>
    ok = true → AllConfirmed modemConfig w.trace :=
  .bind _ (setModem_keeps free.toClosed fun _ => rfl) fun _ => .bind _ (modemReady_keeps free.toClosed) fun _ =>
    .ite (fun _ => .pure fun _ _ _ => nofun) fun _ => startLoop_confirms free fresh 3

end Start

end JcaFirmware.ModemSetup
