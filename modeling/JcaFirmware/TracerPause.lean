import JcaFirmware.Foundation.Clock
import JcaFirmware.Tracer

/-! Pauses of the communication (`tracer_comm_sleep` and the test at the start of `tracer_comm_process` in
`app/tracer/tracer.c`) against the time that really passes, of which the clock shows 32 bits. -/
namespace JcaFirmware.TracerPause
open Foundation Tracer TracerH02

/-- A call of `tracer_comm_process`, at its true time. -/
structure Call where
  time : Nat
  env : CommEnv

/-- What the call meets; the clock shows the time in 32 bits. -/
def Call.met (call : Call) : CommEnv := {call.env with now := timer call.time}

section Test

variable (sdk : Sdk) (env : CommEnv) {s : State}

theorem commProcess_held (held : env.now < s.comm.sleepTmr) : commProcess sdk env s = (s,none) := if_pos held

/-- The state with no pause set. -/
def awake (s : State) : State := {s with comm := {s.comm with sleepTmr := 0}}

/-- The same outcome but for the pause. -/
def Alike (x y : State × Option Nat) : Prop := x.2 = y.2 ∧ awake x.1 = awake y.1

theorem Alike.ite {p q : Prop} [Decidable p] [Decidable q] (same : p ↔ q) {x y x' y' : State × Option Nat}
    (yes : Alike x y) (no : Alike x' y') : Alike (if p then x else x') (if q then y else y') := by
  by_cases holds : p
  · rw [if_pos holds,if_pos (same.mp holds)]
    exact yes
  · rw [if_neg holds,if_neg fun other => holds (same.mpr other)]
    exact no

/-- Behind the test a call does what it does without a pause: no other test reads the timer. -/
theorem commProcess_resumed (passed : ¬ env.now < s.comm.sleepTmr) :
    Alike (commProcess sdk env s) (commProcess sdk env (awake s)) := by
  have passed' : ¬ env.now < (awake s).comm.sleepTmr := Nat.not_lt_zero _
  unfold commProcess
  dsimp only
  rw [if_neg passed,if_neg passed']
  refine Alike.ite Iff.rfl ?_ ?_
  · exact ⟨rfl,rfl⟩
  generalize resolved : (if tracerServerSetupOk s = false ∧ s.server.ip = 0 ∧ s.server.port ≠ 0 ∧ env.connected then
    {s with server := s.server.resolve env.cfg.target} else s) = s'
  have same : (if tracerServerSetupOk (awake s) = false ∧ (awake s).server.ip = 0 ∧ (awake s).server.port ≠ 0 ∧ env.connected then
      {awake s with server := (awake s).server.resolve env.cfg.target} else awake s) = awake s' := by
    rw [← resolved,apply_ite awake]
    rfl
  rw [same]
  refine Alike.ite Iff.rfl ?_ (Alike.ite Iff.rfl (Alike.ite Iff.rfl ?_ (Alike.ite Iff.rfl ?_ ?_)) (Alike.ite Iff.rfl ?_ ?_))
  · exact ⟨rfl,rfl⟩
  · exact ⟨rfl,rfl⟩
  · exact ⟨rfl,rfl⟩
  · exact ⟨rfl,rfl⟩
  · exact ⟨rfl,rfl⟩
  · cases read : TracerBuffer.tracerBufReadNext s'.comm.ring.toBuffer env.alloc (env.readable s'.comm.ring.readPtr) with
    | mk found buffer =>
      have read' : TracerBuffer.tracerBufReadNext (awake s').comm.ring.toBuffer env.alloc (env.readable (awake s').comm.ring.readPtr) =
        (found,buffer) := read
      rw [read']
      cases found <;> exact ⟨rfl,rfl⟩

end Test

/-- The first of the calls that gets behind the test. -/
def resumedAt (sdk : Sdk) : State → List Call → Option Nat
  | _, [] => none
  | s, call :: calls =>
    if call.met.now < s.comm.sleepTmr then (resumedAt sdk (commProcess sdk call.met s).1 calls).map (· + 1) else some 0

theorem resumedAt_eq (sdk : Sdk) (s : State) (calls : List Call) :
    resumedAt sdk s calls = calls.findIdx? fun call => !decide (timer call.time < s.comm.sleepTmr) := by
  induction calls with
  | nil => rfl
  | cons call calls ih =>
    rw [resumedAt,List.findIdx?_cons]
    by_cases held : call.met.now < s.comm.sleepTmr
    · have shown : timer call.time < s.comm.sleepTmr := held
      rw [if_pos held,commProcess_held sdk call.met held,ih,decide_eq_true shown]
      rfl
    · have shown : ¬ timer call.time < s.comm.sleepTmr := held
      rw [if_neg held,decide_eq_false shown]
      rfl

section Pause

/-- From `start` on, calls are made at least once a second. -/
def Regular (start : Nat) (calls : List Call) : Prop :=
  List.IsChain (fun a b => a ≤ b ∧ b ≤ a + osTimerSecond) (start :: calls.map Call.time)

instance (start : Nat) (calls : List Call) : Decidable (Regular start calls) := inferInstanceAs (Decidable (List.IsChain _ _))

/-- All calls up to the first at the end of the pause or behind it are made in the same round of the clock as the end. -/
def Unwrapped (deadline : Nat) (calls : List Call) : Prop := Clock.Together Call.time (2 ^ 32) deadline calls

instance (deadline : Nat) (calls : List Call) : Decidable (Unwrapped deadline calls) :=
  inferInstanceAs (Decidable (Clock.Together _ _ _ _))

def paused (start tm : Nat) (s : State) : State := {s with comm := tracerCommSleep (timer start) tm s.comm}

theorem paused_sleepTmr (start tm : Nat) (s : State) : (paused start tm s).comm.sleepTmr = (start + tm * osTimerSecond) % 2 ^ 32 :=
  Nat.mod_add_mod _ _ _

/-- A call that the wrap has separated from the end of the pause is held, for up to a round of the clock. -/
theorem held_behind_wrap {start tm t : Nat} (s : State) (reached : start + tm * osTimerSecond ≤ t)
    (near : t < start + tm * osTimerSecond + 2 ^ 32) (wrapped : t / 2 ^ 32 ≠ (start + tm * osTimerSecond) / 2 ^ 32) :
    timer t < (paused start tm s).comm.sleepTmr := by
  rw [paused_sleepTmr]
  by_contra passed
  exact wrapped ((Clock.reached_iff reached near).mp passed)

/-- The pause is kept, and ends with the first call at its end or behind it. -/
theorem pause_ends_iff (sdk : Sdk) (s : State) {start tm : Nat} (word : tm < 2 ^ 16) {calls : List Call} (regular : Regular start calls) :
    resumedAt sdk (paused start tm s) calls = calls.findIdx? (fun call => decide (start + tm * osTimerSecond ≤ call.time)) ↔
      Unwrapped (start + tm * osTimerSecond) calls := by
  have second : osTimerSecond = 1000 := rfl
  rw [resumedAt_eq,paused_sleepTmr]
  exact Clock.findIdx_iff (by decide : osTimerSecond < 2 ^ 32) (Nat.le_add_right _ _)
    (by rw [second]; omega) regular

def quietSdk : Sdk := ⟨fun _ => ⟨0,0,0,0,0,⟨0,0,0,0,0,0⟩⟩,fun _ => 0,fun _ text => some text,fun _ => none⟩

/-- Calls a second apart, the first one `phase` behind the start. -/
def everySecond (start phase count : Nat) : List Call :=
  (List.range count).map fun i => ⟨start + phase + i * osTimerSecond,⟨0,false,fun _ => false,fun _ => false,false,⟨none,none⟩⟩⟩

theorem pause_ends_iff_boot :
    resumedAt quietSdk (paused 0 5 (statics TracerBuffer.erasedFlash)) (everySecond 0 900 8) = some 5 :=
  (pause_ends_iff quietSdk (statics TracerBuffer.erasedFlash) (by decide : 5 < 2 ^ 16)
    (by decide +kernel : Regular 0 (everySecond 0 900 8))).mpr (by decide +kernel)

/-- A pause of half a minute that starts 5 s before the wrap ends at once, and one that ends shortly before the wrap goes on. -/
theorem pause_ends_not_at_wrap :
    (Regular (2 ^ 32 - 5000) (everySecond (2 ^ 32 - 5000) 900 31) ∧
      resumedAt quietSdk (paused (2 ^ 32 - 5000) 30 (statics TracerBuffer.erasedFlash)) (everySecond (2 ^ 32 - 5000) 900 31) = some 0 ∧
      (everySecond (2 ^ 32 - 5000) 900 31).findIdx? (fun call => decide (2 ^ 32 - 5000 + 30 * osTimerSecond ≤ call.time)) = some 30) ∧
    Regular (2 ^ 32 - 5500) (everySecond (2 ^ 32 - 5500) 900 20) ∧
      resumedAt quietSdk (paused (2 ^ 32 - 5500) 5 (statics TracerBuffer.erasedFlash)) (everySecond (2 ^ 32 - 5500) 900 20) = none ∧
      (everySecond (2 ^ 32 - 5500) 900 20).findIdx? (fun call => decide (2 ^ 32 - 5500 + 5 * osTimerSecond ≤ call.time)) = some 5 := by
  decide +kernel

end Pause

end JcaFirmware.TracerPause
