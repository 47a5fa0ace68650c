import JcaFirmware.Event
import JcaFirmware.Foundation.Run
import Mathlib.Tactic.SplitIfs

/-! Supervision of the supply and the battery (`app/power.c`). A step is one call of `power_task`, with the clock
and the voltages as they are read in it. -/
namespace JcaFirmware.Power
open Foundation

def vBattConnected : Nat := 2000
def vBattEmpty : Nat := 2800
def vBattOk : Nat := 3200
def vBattFull : Nat := 4000
def vBattDrop : Nat := 400
def vVccChargeEn : Nat := 12600
def vVccLost : Nat := 8000
def vHisteresis : Nat := 50

def osTimerSecond : Nat := 1000
def osTimerMinute : Nat := 60 * osTimerSecond
def taskPeriod : Nat := 100
def battTestTm : Nat := 2 * 24 * 60 * osTimerMinute

/-- The static data, with the bits of `system_int_state` and what `inp_enable` was told last. -/
structure Statics where
  initNeeded : Bool
  charging : Bool
  battConnected : Bool
  powerOk : Bool
  testDone : Bool
  chargingDoneTm : Nat
  batConnectTm : Nat
  testTm : Nat
  tm : Nat
  filter : Nat
  powerFail : Bool
  battLow : Bool
  battFail : Bool
  inpEnabled : Bool
deriving DecidableEq, Repr

structure TestReadings where
  now : Nat
  battMv : Nat
  offNow : Nat
  refMv : Nat
  loadMv : Vector Nat 10
deriving DecidableEq, Repr

structure Readings where
  now : Nat
  battMv : Nat
  mainMv : Nat
  onNow : Nat
  offNow : Nat
  connectNow : Nat
  test : TestReadings
deriving DecidableEq, Repr

def after (now period : Nat) : Nat := (now + period) % 2 ^ 32

section Battery

def chargingOn (p : Statics) (now : Nat) : Statics :=
  if p.charging then p
  else if now < after p.chargingDoneTm (10 * osTimerSecond) then p
  else {p with charging := true}

def chargingOff (p : Statics) (now : Nat) : Statics :=
  if p.charging = false then p else {p with charging := false, batConnectTm := after now (10 * osTimerSecond)}

def batCconnect (p : Statics) (now : Nat) : Statics :=
  if now < p.batConnectTm then p else {p with battConnected := true, batConnectTm := now}

def batDiscconnect (p : Statics) : Statics := {p with battConnected := false}

def powerBatStatus (p : Statics) : Bool := !(p.battLow || p.battFail)

def powerStatus (p : Statics) : Bool := !p.powerFail

def batSetState (p : Statics) (state : Bool) : Statics × List EventId :=
  if p.testDone = false then ({p with testDone := true, battFail := !state},if state then [] else [.fault])
  else if powerBatStatus p = state then (p,[])
  else ({p with battFail := !state},[if state then .faultRecovery else .fault])

def battTest (p : Statics) (test : TestReadings) : Statics × List EventId :=
  if p.powerOk = false then ({p with testTm := after test.now battTestTm},[])
  else if test.now < p.testTm then (p,[])
  else
    let p := {p with testTm := after test.now battTestTm}
    if test.battMv < vBattOk then batSetState p false
    else
      let p := chargingOff p test.offNow
      if test.refMv < vBattOk then batSetState p false
      else batSetState p (test.loadMv.all fun voltage => test.refMv - vBattDrop ≤ voltage)

def charge (p : Statics) (r : Readings) : Statics :=
  if p.charging then
    if r.mainMv < vVccChargeEn ∨ vBattFull < r.battMv then
      let p := if r.now < after p.chargingDoneTm ((10 + 5) * osTimerSecond) then batDiscconnect p else p
      {chargingOff p r.offNow with chargingDoneTm := r.now}
    else p
  else if vVccChargeEn + vHisteresis < r.mainMv ∧ r.battMv < vBattFull - vHisteresis then chargingOn p r.onNow
  else if r.battMv < vBattEmpty ∧ p.powerOk = false then batDiscconnect p
  else p

def battery (p : Statics) (r : Readings) : Statics × List EventId :=
  if p.battConnected then battTest (charge p r) r.test
  else if vBattConnected + vHisteresis < r.battMv ∧ p.powerOk then (batCconnect p r.connectNow,[])
  else (p,[])

end Battery

section Supply

def hysteresis (ok : Bool) (mainMv : Nat) : Bool := if ok then vVccLost ≤ mainMv else vVccLost + vHisteresis < mainMv

def supply (p : Statics) (mainMv : Nat) : Statics :=
  if p.powerOk then
    if mainMv < vVccLost then {p with inpEnabled := false, powerOk := false} else p
  else
    if vVccLost + vHisteresis < mainMv then {p with inpEnabled := true, powerOk := true} else p

def limit (ok : Bool) : Nat := if ok then 60 * 10 else 10

/-- The supply reports with the newest first, each with the number of samples that it has waited, and the number that
the supply has now been other than reported; and the battery reports. -/
structure State where
  power : Statics
  streak : Nat
  reports : List (EventId × Nat)
  faults : List EventId
deriving DecidableEq, Repr

def report (s : State) : State :=
  let p := s.power
  if powerStatus p = p.powerOk then {s with power := {p with filter := 0}, streak := 0}
  else
    let p := {p with filter := (p.filter + 1) % 2 ^ 32}
    if limit p.powerOk ≤ p.filter then
      {s with
        power := {p with powerFail := !p.powerOk}
        streak := 0
        reports := (if p.powerOk then .powerRecovery else .powerFail,s.streak + 1) :: s.reports}
    else {s with power := p, streak := s.streak + 1}

def powerTask (s : State) (r : Readings) : State :=
  if r.now < s.power.tm then s
  else
    let p := {s.power with tm := after r.now taskPeriod}
    if p.initNeeded then
      if r.battMv < vBattConnected ∧ r.mainMv < vVccLost then
        {s with power := {p with tm := after r.now (10 * osTimerSecond)}}
      else {s with power := {p with initNeeded := false}}
    else
      let (p,faults) := battery p r
      report {s with power := supply p r.mainMv, faults := s.faults ++ faults}

def start : State where
  power := {
    initNeeded := true, charging := false, battConnected := false, powerOk := false, testDone := false
    chargingDoneTm := 0, batConnectTm := 0, testTm := 5 * osTimerMinute, tm := 1 * osTimerSecond, filter := 0
    powerFail := false, battLow := false, battFail := false, inpEnabled := false}
  streak := 0
  reports := []
  faults := []

end Supply

section Alternation

/-- Failures and recoveries by turns; the first one is a failure. -/
def Alternate : List (EventId × Nat) → Prop
  | [] => True
  | report :: rest =>
    report.1 = (if (rest.head?.map Prod.fst) = some .powerFail then .powerRecovery else .powerFail) ∧ Alternate rest

def Waited (reports : List (EventId × Nat)) : Prop := ∀ report ∈ reports, limit (report.1 = .powerRecovery) ≤ report.2

def Supervised (s : State) : Prop := Alternate s.reports ∧ Waited s.reports

/-- The sample is one of those that are compared with what is reported. -/
def Evaluated (s : State) (r : Readings) : Prop := s.power.tm ≤ r.now ∧ s.power.initNeeded = false

/-- The supply is other than reported, and has the filter full. -/
def Reports (s : State) (r : Readings) : Prop :=
  Evaluated s r ∧ powerStatus s.power ≠ hysteresis s.power.powerOk r.mainMv ∧
    limit (hysteresis s.power.powerOk r.mainMv) ≤ (s.power.filter + 1) % 2 ^ 32

/-- A report is made when the filter holds no other samples than those of this deviation. -/
def StepOk (s : State) (r : Readings) : Prop := Reports s r → s.power.filter ≤ s.streak

structure Inv (s : State) : Prop where
  supervised : Supervised s
  reported : s.power.powerFail = true ↔ s.reports.head?.map Prod.fst = some .powerFail
  deviates : s.streak ≠ 0 → s.power.powerOk ≠ powerStatus s.power ∧ s.power.filter < limit s.power.powerOk

/-- What the supervision of the supply works on, none of which the battery changes. -/
def core (p : Statics) : Bool × Nat × Bool := (p.powerOk,p.filter,p.powerFail)

theorem chargingOn_core (p : Statics) (now : Nat) : core (chargingOn p now) = core p := by
  unfold chargingOn
  split_ifs <;> rfl

theorem chargingOff_core (p : Statics) (now : Nat) : core (chargingOff p now) = core p := by
  unfold chargingOff
  split_ifs <;> rfl

theorem testTm_core (p : Statics) (testTm : Nat) : core {p with testTm} = core p := rfl

theorem batSetState_core (p : Statics) (state : Bool) : core (batSetState p state).1 = core p := by
  unfold batSetState
  split_ifs <;> rfl

theorem battTest_core (p : Statics) (test : TestReadings) : core (battTest p test).1 = core p := by
  unfold battTest
  dsimp only
  split_ifs
  · exact testTm_core p _
  · rfl
  · exact (batSetState_core _ false).trans (testTm_core p _)
  · exact ((batSetState_core _ false).trans (chargingOff_core _ test.offNow)).trans (testTm_core p _)
  · exact ((batSetState_core _ _).trans (chargingOff_core _ test.offNow)).trans (testTm_core p _)

theorem charge_core (p : Statics) (r : Readings) : core (charge p r) = core p := by
  unfold charge
  dsimp only
  split_ifs
  · exact chargingOff_core (batDiscconnect p) r.offNow
  · exact chargingOff_core p r.offNow
  · rfl
  · exact chargingOn_core p r.onNow
  · rfl
  · rfl

theorem battery_core (p : Statics) (r : Readings) : core (battery p r).1 = core p := by
  unfold battery
  split_ifs
  · exact (battTest_core _ r.test).trans (charge_core p r)
  · unfold batCconnect
    split_ifs <;> rfl
  · rfl

theorem supply_core (p : Statics) (mainMv : Nat) :
    core (supply p mainMv) = (hysteresis p.powerOk mainMv,p.filter,p.powerFail) := by
  unfold supply hysteresis core
  cases ok : p.powerOk with
  | true => by_cases lost : mainMv < vVccLost <;> simp [lost,ok,Nat.le_of_not_lt]
  | false => by_cases back : vVccLost + vHisteresis < mainMv <;> simp [back,ok]

variable {s : State} {r : Readings}

/-- All that a sample can do, where `ok` is the main voltage with its hysteresis. -/
inductive Sampled (s : State) (r : Readings) (ok : Bool) (t : State) : Prop
  | passed (skipped : ¬ Evaluated s r) (kept : core t.power = core s.power) (streak : t.streak = s.streak)
      (reports : t.reports = s.reports)
  | agrees (same : powerStatus s.power = ok) (kept : t.power.powerFail = s.power.powerFail) (streak : t.streak = 0)
      (reports : t.reports = s.reports)
  | reported (evaluated : Evaluated s r) (other : powerStatus s.power ≠ ok)
      (full : limit ok ≤ (s.power.filter + 1) % 2 ^ 32) (fail : t.power.powerFail = !ok) (streak : t.streak = 0)
      (reports : t.reports = (if ok then .powerRecovery else .powerFail,s.streak + 1) :: s.reports)
  | waits (other : powerStatus s.power ≠ ok) (short : (s.power.filter + 1) % 2 ^ 32 < limit ok)
      (kept : core t.power = (ok,(s.power.filter + 1) % 2 ^ 32,s.power.powerFail)) (reports : t.reports = s.reports)

theorem report_sampled {p : Statics} {ok : Bool} (evaluated : Evaluated s r) (faults : List EventId)
    (compared : core p = (ok,s.power.filter,s.power.powerFail)) : Sampled s r ok (report {s with power := p, faults}) := by
  simp only [core,Prod.mk.injEq] at compared
  obtain ⟨rfl,filter,powerFail⟩ := compared
  have status : powerStatus p = powerStatus s.power := congrArg Bool.not powerFail
  unfold report
  dsimp only
  rw [status,filter]
  by_cases same : powerStatus s.power = p.powerOk
  · rw [if_pos same]
    exact .agrees same powerFail rfl rfl
  rw [if_neg same]
  by_cases full : limit p.powerOk ≤ (s.power.filter + 1) % 2 ^ 32
  · rw [if_pos full]
    exact .reported evaluated same full rfl rfl rfl
  · rw [if_neg full]
    exact .waits same (Nat.not_le.mp full) (by rw [core,powerFail]) rfl

theorem powerTask_sampled (s : State) (r : Readings) :
    Sampled s r (hysteresis s.power.powerOk r.mainMv) (powerTask s r) := by
  unfold powerTask
  by_cases early : r.now < s.power.tm
  · rw [if_pos early]
    exact .passed (fun evaluated => absurd evaluated.1 (Nat.not_le.mpr early)) rfl rfl rfl
  rw [if_neg early]
  dsimp only
  cases needed : s.power.initNeeded with
  | true =>
    have skipped : ¬ Evaluated s r := fun evaluated => Bool.noConfusion (needed.symm.trans evaluated.2)
    rw [if_pos rfl]
    split_ifs
    · exact .passed skipped rfl rfl rfl
    · exact .passed skipped rfl rfl rfl
  | false =>
    rw [if_neg Bool.false_ne_true]
    refine report_sampled ⟨Nat.not_lt.mp early,needed⟩ _ ?_
    have kept := battery_core {s.power with tm := after r.now taskPeriod, initNeeded := false} r
    simp only [core,Prod.mk.injEq] at kept
    rw [supply_core,kept.1,kept.2.1,kept.2.2]

theorem Inv.reported_status (inv : Inv s) {ok : Bool} (other : powerStatus s.power ≠ ok) :
    (if ok then EventId.powerRecovery else .powerFail) =
      if s.reports.head?.map Prod.fst = some .powerFail then .powerRecovery else .powerFail := by
  have reported := inv.reported
  unfold powerStatus at other
  cases ok with
  | true =>
    rw [if_pos rfl,if_pos (reported.mp (by simpa using other))]
  | false =>
    rw [if_neg Bool.false_ne_true,if_neg fun failed => by simp [reported.mpr failed] at other]

theorem report_limit (ok : Bool) : limit (decide ((if ok then EventId.powerRecovery else .powerFail) = .powerRecovery)) =
    limit ok := by cases ok <;> rfl

theorem Inv.step (inv : Inv s) (r : Readings) (ok : StepOk s r) : Inv (powerTask s r) := by
  obtain ⟨alternate,waited⟩ := inv.supervised
  have sampled := powerTask_sampled s r
  generalize powerTask s r = t at sampled
  cases sampled with
  | passed skipped kept streak reports =>
    simp only [core,Prod.mk.injEq] at kept
    obtain ⟨powerOk,filter,powerFail⟩ := kept
    refine ⟨by rw [Supervised,reports]; exact inv.supervised,by rw [powerFail,reports]; exact inv.reported,?_⟩
    unfold powerStatus
    rw [streak,powerOk,filter,powerFail]
    exact inv.deviates
  | agrees same kept streak reports =>
    exact ⟨by rw [Supervised,reports]; exact inv.supervised,by rw [kept,reports]; exact inv.reported,
      fun some => absurd streak some⟩
  | reported evaluated other full fail streak reports =>
    have enough := ok ⟨evaluated,other,full⟩
    refine ⟨⟨?_,?_⟩,?_,fun some => absurd streak some⟩
    · rw [reports]
      exact ⟨inv.reported_status other,alternate⟩
    · rw [reports]
      intro report member
      rcases List.mem_cons.mp member with new | old
      · rw [new,report_limit]
        have below := Nat.mod_le (s.power.filter + 1) (2 ^ 32)
        dsimp only
        omega
      · exact waited report old
    · rw [fail,reports]
      cases hysteresis s.power.powerOk r.mainMv <;> simp
  | waits other short kept reports =>
    simp only [core,Prod.mk.injEq] at kept
    obtain ⟨powerOk,filter,powerFail⟩ := kept
    refine ⟨by rw [Supervised,reports]; exact inv.supervised,by rw [powerFail,reports]; exact inv.reported,fun _ => ?_⟩
    unfold powerStatus at other ⊢
    rw [powerOk,filter,powerFail]
    exact ⟨Ne.symm other,short⟩

/-- Where the sample before was of the same deviation, it found the filter short. -/
theorem Inv.filter_fresh (inv : Inv s) {ok : Bool} (other : powerStatus s.power ≠ ok) (full : limit ok ≤ s.power.filter) :
    s.streak = 0 := by
  by_contra some
  obtain ⟨before,short⟩ := inv.deviates some
  have still : s.power.powerOk = ok := by
    revert before other
    cases s.power.powerOk <;> cases powerStatus s.power <;> cases ok <;> simp
  rw [still] at short
  exact absurd full (Nat.not_le.mpr short)

theorem early_report (inv : Inv s) (r : Readings) (refused : ¬ StepOk s r) : ¬ Supervised (powerTask s r) := by
  simp only [StepOk,Classical.not_imp] at refused
  obtain ⟨⟨evaluated,other,full⟩,more⟩ := refused
  have sampled := powerTask_sampled s r
  generalize powerTask s r = t at sampled
  cases sampled with
  | passed skipped _ _ _ => exact absurd evaluated skipped
  | agrees same _ _ _ => exact absurd same other
  | waits _ short _ _ => exact absurd full (Nat.not_le.mpr short)
  | reported _ _ _ _ _ reports =>
    rintro ⟨_,waited⟩
    rw [reports] at waited
    have waits := waited _ List.mem_cons_self
    rw [report_limit] at waits
    dsimp only at waits
    have least : 10 ≤ limit (hysteresis s.power.powerOk r.mainMv) := by
      cases hysteresis s.power.powerOk r.mainMv <;> decide
    have below := Nat.mod_le (s.power.filter + 1) (2 ^ 32)
    by_cases fresh : s.streak = 0
    · omega
    · exact fresh (inv.filter_fresh other (by omega))

/-- Reports go by turns, each after its time, all along a run exactly when none of them counts samples that came
before its deviation. -/
theorem supervised_iff (trace : List Readings) :
    (∀ first rest, trace = first ++ rest → Supervised (Run.run powerTask start first)) ↔
      Run.Admits powerTask StepOk start trace := by
  apply Run.always_iff_admits powerTask StepOk Inv Supervised (fun _ inv => inv.supervised)
    (fun s r inv ok => inv.step r ok) (fun s r inv refused => early_report inv r refused)
  exact ⟨⟨trivial,fun _ none => absurd none List.not_mem_nil⟩,by decide,fun some => absurd rfl some⟩

end Alternation

section Runs

def reading (now mainMv : Nat) : Readings := ⟨now,3800,mainMv,now,now,now,⟨now,3800,now,3800,Vector.replicate 10 3800⟩⟩

/-- The supply fails, and is back in the sample right after the report, for 59 seconds. -/
def shortRecovery : List Readings :=
  (List.range 601).map fun i => reading (1000 + 100 * i) (if i < 11 then 5000 else 12000)

theorem shortRecovery_early : ¬ Supervised (Run.run powerTask start shortRecovery) := by
  have reports : (Run.run powerTask start shortRecovery).reports = [(.powerRecovery,590),(.powerFail,10)] := by decide +kernel
  rintro ⟨_,waited⟩
  rw [reports] at waited
  exact absurd (waited _ List.mem_cons_self) (by decide)

end Runs

end JcaFirmware.Power
