import JcaFirmware.Section
import Mathlib.Data.List.Sort

/-! The entry delay of the section (`app/section.c`) against the time that really passes, of which the clock shows
32 bits. -/
namespace JcaFirmware.SectionDelay
open Section

/-- What `os_timer_get` answers. -/
def clock (t : Nat) : Nat := t % 2 ^ 32

/-- The requests of each call of `section_task`, at the times of the list. -/
def sectionTasks (s : Statics) : List Nat → Except String (List (List Request))
  | [] => .ok []
  | t :: calls => do
    let (s,requests) ← sectionTask s (clock t)
    let more ← sectionTasks s calls
    .ok (requests :: more)

/-- One alarm, in the first of the calls that is late. -/
def alarmOnce (n : Inp) (late : Nat → Bool) : List Nat → List (List Request)
  | [] => []
  | t :: calls => if late t then [(.alarm,systemInputSource n)] :: calls.map (fun _ => []) else [] :: alarmOnce n late calls

theorem alarmOnce_late {n : Inp} {late : Nat → Bool} {t : Nat} (isLate : late t = true) (calls : List Nat) :
    alarmOnce n late (t :: calls) = [(.alarm,systemInputSource n)] :: calls.map (fun _ => []) := if_pos isLate

theorem alarmOnce_early {n : Inp} {late : Nat → Bool} {t : Nat} (early : late t = false) (calls : List Nat) :
    alarmOnce n late (t :: calls) = [] :: alarmOnce n late calls := if_neg (Bool.eq_false_iff.mp early)

/-- The clock shows more than the deadline, which stands for no deadline at all where it is 0. -/
def shows (deadline t : Nat) : Bool := deadline ≠ 0 ∧ deadline < clock t

theorem sectionTasks_still {s : Statics} (still : s.timer = 0) (calls : List Nat) :
    sectionTasks s calls = .ok (calls.map fun _ => []) := by
  induction calls with
  | nil => rfl
  | cons t calls ih =>
    rw [sectionTasks,task_still still]
    change (do let more ← sectionTasks s calls; .ok ([] :: more)) = _
    rw [ih]
    rfl

theorem task_delay_over {s : Statics} {n : Inp} (delay : s.flags.tmIn = true) (inp : s.alarmInp = some n) {now : Nat}
    (late : s.timer ≠ 0 ∧ s.timer < now) : ∃ s', s'.timer = 0 ∧ sectionTask s now = .ok (s',[(.alarm,systemInputSource n)]) := by
  obtain ⟨timer,state,⟨tmOut,tmIn,alarm⟩,alarmInp,out,wait⟩ := s
  obtain rfl : tmIn = true := delay
  obtain rfl : alarmInp = some n := inp
  rw [sectionTask,if_pos late.1,if_pos late.2]
  cases tmOut with
  | false => exact ⟨_,rfl,rfl⟩
  | true => exact ⟨_,rfl,rfl⟩

/-- While the delay runs, the code compares what the clock shows. -/
theorem sectionTasks_delay {s : Statics} {n : Inp} (delay : s.flags.tmIn = true) (inp : s.alarmInp = some n) (calls : List Nat) :
    sectionTasks s calls = .ok (alarmOnce n (shows s.timer) calls) := by
  induction calls with
  | nil => rfl
  | cons t calls ih =>
    by_cases late : s.timer ≠ 0 ∧ s.timer < clock t
    · obtain ⟨s',still,called⟩ := task_delay_over delay inp late
      rw [sectionTasks,called,alarmOnce_late (decide_eq_true late)]
      change (do let more ← sectionTasks s' calls; .ok ([(EventId.alarm,systemInputSource n)] :: more)) = _
      rw [sectionTasks_still still]
      rfl
    · have called : sectionTask s (clock t) = .ok (s,[]) := by
        unfold sectionTask
        by_cases runs : s.timer ≠ 0
        · rw [if_pos runs,if_neg fun passed => late ⟨runs,passed⟩]
        · rw [if_neg runs]
      rw [sectionTasks,called,alarmOnce_early (decide_eq_false late)]
      change (do let more ← sectionTasks s calls; .ok ([] :: more)) = _
      rw [ih]
      rfl

section Honoured

variable {n : Inp}

/-- Two ways to be late give the same alarm, if they agree up to the first call that is late. -/
theorem alarmOnce_eq_iff (late late' : Nat → Bool) (t : Nat) (calls : List Nat) :
    alarmOnce n late (t :: calls) = alarmOnce n late' (t :: calls) ↔
      late t = late' t ∧ (late t = false → alarmOnce n late calls = alarmOnce n late' calls) := by
  cases own : late t with
  | true =>
    rw [alarmOnce_late own]
    cases other : late' t with
    | true => exact ⟨fun _ => ⟨rfl,nofun⟩,fun _ => by rw [alarmOnce_late other]⟩
    | false =>
      rw [alarmOnce_early other]
      exact ⟨fun same => absurd (List.cons.inj same).1 (List.cons_ne_nil _ _),fun same => absurd same.1 nofun⟩
  | false =>
    rw [alarmOnce_early own]
    cases other : late' t with
    | true =>
      rw [alarmOnce_late other]
      exact ⟨fun same => absurd (List.cons.inj same).1.symm (List.cons_ne_nil _ _),fun same => absurd same.1 nofun⟩
    | false =>
      rw [alarmOnce_early other]
      exact ⟨fun same => ⟨rfl,fun _ => (List.cons.inj same).2⟩,fun same => by rw [same.2 rfl]⟩

/-- The first call of the list that is made after the deadline. -/
def firstLate (deadline : Nat) (calls : List Nat) : Option Nat := calls.find? fun t => decide (deadline < t)

theorem firstLate_late {deadline t : Nat} (late : deadline < t) (calls : List Nat) : firstLate deadline (t :: calls) = some t :=
  List.find?_cons_of_pos (decide_eq_true late)

theorem firstLate_early {deadline t : Nat} (early : t ≤ deadline) (calls : List Nat) :
    firstLate deadline (t :: calls) = firstLate deadline calls :=
  List.find?_cons_of_neg (by simpa using early)

/-- No call up to the deadline is made before a wrap of the clock that the deadline is behind, unless the clock shows 0 at
the deadline; and at the first call after the deadline the clock shows more than at the deadline, where it does not show 0. -/
def Readable (deadline : Nat) (calls : List Nat) : Prop :=
  (∀ t ∈ calls, t ≤ deadline → clock deadline = 0 ∨ t / 2 ^ 32 = deadline / 2 ^ 32) ∧
    ∀ t ∈ firstLate deadline calls, clock deadline ≠ 0 ∧ clock deadline < clock t

instance (deadline : Nat) (calls : List Nat) : Decidable (Readable deadline calls) :=
  inferInstanceAs (Decidable ((∀ t ∈ calls, _) ∧ _))

theorem shows_early {since deadline t : Nat} (near : deadline < since + 2 ^ 32) (after : since ≤ t) (early : t ≤ deadline) :
    shows (clock deadline) t = false ↔ clock deadline = 0 ∨ t / 2 ^ 32 = deadline / 2 ^ 32 := by
  rw [shows,decide_eq_false_iff_not]
  unfold clock
  omega

theorem alarmOnce_shows_iff {since deadline : Nat} (near : deadline < since + 2 ^ 32) {calls : List Nat}
    (after : ∀ t ∈ calls, since ≤ t) (sorted : calls.Pairwise (· ≤ ·)) :
    alarmOnce n (shows (clock deadline)) calls = alarmOnce n (fun t => deadline < t) calls ↔ Readable deadline calls := by
  induction calls with
  | nil => exact ⟨fun _ => ⟨nofun,nofun⟩,fun _ => rfl⟩
  | cons t calls ih =>
    have own := after t List.mem_cons_self
    obtain ⟨next,sorted⟩ := List.pairwise_cons.mp sorted
    have rest := ih (fun u member => after u (List.mem_cons_of_mem t member)) sorted
    rw [alarmOnce_eq_iff,Readable]
    by_cases late : deadline < t
    · rw [firstLate_late late,decide_eq_true late]
      constructor
      · rintro ⟨shown,_⟩
        refine ⟨fun u member early => ?_,fun u first => ?_⟩
        · rcases List.mem_cons.mp member with rfl | member
          · exact absurd early (Nat.not_le.mpr late)
          · exact absurd (Nat.le_trans (next u member) early) (Nat.not_le.mpr late)
        · obtain rfl := Option.mem_some.mp first
          exact of_decide_eq_true shown
      · rintro ⟨_,shown⟩
        have shown : shows (clock deadline) t = true := decide_eq_true (shown t rfl)
        exact ⟨shown,fun other => absurd (shown.symm.trans other) nofun⟩
    · have early := Nat.not_lt.mp late
      rw [firstLate_early early,decide_eq_false late,shows_early near own early,rest,Readable]
      constructor
      · rintro ⟨shown,following⟩
        obtain ⟨others,first⟩ := following shown
        refine ⟨fun u member => ?_,first⟩
        rcases List.mem_cons.mp member with rfl | member
        · exact fun _ => shown
        · exact others u member
      · rintro ⟨all,first⟩
        exact ⟨all t List.mem_cons_self early,fun _ => ⟨fun u member => all u (List.mem_cons_of_mem t member),first⟩⟩

variable {s : Statics}

/-- The entry delay is honoured in the calls of `section_task` after the signal: one alarm, in the first call after
the delay. -/
theorem delay_honoured_iff (armed : s.state = .set ∨ s.state = .setPart) (still : s.timer = 0) (word : s.tmIn < 2 ^ 16)
    (n : Inp) {since : Nat} {calls : List Nat} (after : ∀ t ∈ calls, since ≤ t) (sorted : calls.Pairwise (· ≤ ·)) :
    sectionTasks (sectionSignal s n .delay (clock since)).1 calls = .ok (alarmOnce n (fun t => since + s.tmIn < t) calls) ↔
      Readable (since + s.tmIn) calls := by
  have signalled : (sectionSignal s n .delay (clock since)).1 = delayAlarm s n (clock since) := by
    unfold sectionSignal
    rcases armed with state | state <;> rw [state]
  have timer : (clock since + s.tmIn) % 2 ^ 32 = clock (since + s.tmIn) := by
    unfold clock
    omega
  have started : delayAlarm s n (clock since) =
      {s with timer := clock (since + s.tmIn), alarmInp := some n, flags := {s.flags with tmIn := true}} := by
    rw [delayAlarm,if_pos still,setTimer,← timer]
  rw [signalled,started,sectionTasks_delay (s := {s with timer := _, alarmInp := _, flags := _}) rfl rfl,Except.ok.injEq]
  exact alarmOnce_shows_iff (by omega) after sorted

end Honoured

section Examples

def armedSection : Statics := {cold with state := .set, tmOut := 20000, tmIn := 10000}

theorem delay_honoured_iff_plain : sectionTasks (sectionSignal armedSection .door .delay (clock 5000)).1 [5100,15000,15001,15100] =
    .ok [[],[],[(.alarm,.door)],[]] :=
  (delay_honoured_iff (Or.inl rfl) rfl (by decide) .door (by decide) (by decide)).mpr (by decide)

/-- Five seconds before the clock wraps, the alarm comes with the next call. -/
theorem delay_over_at_once : sectionTasks (sectionSignal armedSection .door .delay (clock (2 ^ 32 - 5000))).1
    [2 ^ 32 - 4900,2 ^ 32 + 5001] = .ok [[(.alarm,.door)],[]] ∧
    ¬ sectionTasks (sectionSignal armedSection .door .delay (clock (2 ^ 32 - 5000))).1 [2 ^ 32 - 4900,2 ^ 32 + 5001] =
      .ok (alarmOnce .door (fun t => 2 ^ 32 - 5000 + armedSection.tmIn < t) [2 ^ 32 - 4900,2 ^ 32 + 5001]) := by
  constructor <;> decide

end Examples

end JcaFirmware.SectionDelay
