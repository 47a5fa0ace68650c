import Mathlib.Data.List.Nodup
import Mathlib.Data.List.Perm.Subperm
import Mathlib.Data.Nat.Find
import JcaFirmware.EventQueue
import JcaFirmware.EventMemory

/-! The event log across a restart: `event_task` stores every event it takes
from the queue, valid or not, and `event_memory_init` later looks for the end of
the log with the validity test of `event_valid`. -/
namespace JcaFirmware.EventLog
open Foundation EventMemory

/-- The queue with its task, and the flash it writes to. -/
structure State where
  events : EventQueue.State
  memory : Memory

def step (s : State) : EventQueue.Input → Except String State
  | .create id source time now => .ok {s with events := EventQueue.step s.events (.create id source time now)}
  | .task =>
    match (EventQueue.eventTask s.events.queue s.events.task).2.2 with
    | some (.store e) => do
      let (_,memory) ← eventMemoryStore s.memory e
      .ok ⟨EventQueue.step s.events .task,memory⟩
    | _ => .ok {s with events := EventQueue.step s.events .task}

def run (buffer : Nat → Event) (inputs : List EventQueue.Input) : Except String State :=
  inputs.foldlM step ⟨EventQueue.start buffer 0,erasedMemory⟩

def Numbered (events : List Event) : Prop :=
  ∀ i, (bound : i < events.length) → events[i].cnt = (i + 1) % 2 ^ 32

structure Inv (s : State) : Prop where
  log : Holds s.memory s.events.stored
  numbered : Numbered s.events.accepted
  cnt : s.events.queue.cnt = s.events.accepted.length % 2 ^ 32

theorem eventTask_cnt (q : EventQueue.Queue) (t : EventQueue.Task) : (EventQueue.eventTask q t).1.cnt = q.cnt := by
  unfold EventQueue.eventTask
  cases t <;> dsimp only <;> split_ifs <;> rfl

theorem task_accepted (s : EventQueue.State) :
    (EventQueue.step s .task).accepted = s.accepted ∧ (EventQueue.step s .task).queue.cnt = s.queue.cnt := by
  have same := eventTask_cnt s.queue s.task
  rcases effect : (EventQueue.eventTask s.queue s.task).2.2 with _ | (_ | _ | _) <;>
    simp [EventQueue.step,EventQueue.note,effect,same]

theorem Numbered.append {events : List Event} (numbered : Numbered events) (e : Event)
    (next : e.cnt = (events.length + 1) % 2 ^ 32) : Numbered (events ++ [e]) := by
  intro i bound
  rw [List.length_append,List.length_singleton] at bound
  by_cases old : i < events.length
  · rw [List.getElem_append_left old]
    exact numbered i old
  · obtain rfl : i = events.length := by omega
    rw [List.getElem_concat_length rfl]
    exact next

theorem step_inv {s : State} (inv : Inv s) (input : EventQueue.Input) : ∃ s', step s input = .ok s' ∧ Inv s' := by
  cases input with
  | create id source time now =>
    refine ⟨_,rfl,?_⟩
    have cnt : (s.events.queue.cnt + 1) % 2 ^ 32 = (s.events.accepted.length + 1) % 2 ^ 32 := by
      rw [inv.cnt,Nat.mod_add_mod]
    refine ⟨?_,?_,?_⟩
    · simpa [EventQueue.step,EventQueue.eventCreateExt_accepts] using inv.log
    · simpa [EventQueue.step,EventQueue.eventCreateExt_accepts] using inv.numbered.append _ cnt
    · simpa [EventQueue.step,EventQueue.eventCreateExt_accepts] using cnt
  | task =>
    obtain ⟨accepted,cnt⟩ := task_accepted s.events
    rcases effect : (EventQueue.eventTask s.events.queue s.events.task).2.2 with _ | (e | e | e)
    · refine ⟨_,by rw [step,effect],?_,by rw [accepted]; exact inv.numbered,by rw [accepted,cnt]; exact inv.cnt⟩
      simpa [EventQueue.step,EventQueue.note,effect] using inv.log
    · obtain ⟨m,stored,log⟩ := inv.log.store e
      refine ⟨⟨EventQueue.step s.events .task,m⟩,?_,?_,by rw [accepted]; exact inv.numbered,
        by rw [accepted,cnt]; exact inv.cnt⟩
      · rw [step,effect]
        dsimp only
        rw [stored]
        rfl
      · simpa [EventQueue.step,EventQueue.note,effect] using log
    all_goals
      refine ⟨_,by rw [step,effect],?_,by rw [accepted]; exact inv.numbered,by rw [accepted,cnt]; exact inv.cnt⟩
      simpa [EventQueue.step,EventQueue.note,effect] using inv.log

theorem run_inv (buffer : Nat → Event) (inputs : List EventQueue.Input) :
    ∃ s, run buffer inputs = .ok s ∧ Inv s :=
  Run.foldlM_invariant step Inv (fun _ => True) (fun _ input inv _ => step_inv inv input) _ inputs
    ⟨erased_holds,fun i bound => absurd bound (Nat.not_lt_zero i),rfl⟩ fun _ _ => trivial

/-- After a restart the next store spares the log, except for the oldest event
of a full ring, and the next counter is none that an event already has. -/
structure Kept (events : List Event) (r : Recovery) : Prop where
  spared : ∀ i, i < events.length → events.length ≤ i + eventSlots → r.ptr = eventMemSize * (i % eventSlots) →
    i + eventSlots = events.length
  fresh : (events.map Event.cnt ++ [(r.cnt + 1) % 2 ^ 32]).Nodup

/-- A log whose end can be recognised: the newest event is not in the last slot,
the events of its round are valid, and of those of the round before, either the
oldest is invalid or all in slots that are scanned are valid. -/
structure Clean (rtcValid : Rtc → Bool) (events : List Event) : Prop where
  few : events.length < 2 ^ 32
  placed : 0 < events.length % eventSlots
  newer : ∀ i, (bound : i < events.length) → events.length - events.length % eventSlots ≤ i →
    events[i].valid rtcValid = true
  older : (full : eventSlots ≤ events.length) →
    events.length % eventSlots < initRounds ∧
        (∃ bound : events.length - eventSlots < events.length,
          events[events.length - eventSlots].valid rtcValid = false) ∨
      ∀ i, (bound : i < events.length) → events.length - eventSlots ≤ i →
        i + 1 < events.length - events.length % eventSlots → events[i].valid rtcValid = true

section Counters

variable {events : List Event}

theorem Numbered.cnt_eq (numbered : Numbered events) (few : events.length < 2 ^ 32) (i : Nat)
    (bound : i < events.length) : events[i].cnt = i + 1 := by
  rw [numbered i bound,Nat.mod_eq_of_lt (by omega)]

theorem Numbered.increasing (numbered : Numbered events) (few : events.length < 2 ^ 32) :
    events.Pairwise fun a b => a.cnt < b.cnt := by
  rw [List.pairwise_iff_getElem]
  intro i k iBound kBound before
  rw [numbered.cnt_eq few i iBound,numbered.cnt_eq few k kBound]
  omega

theorem Numbered.cnts (numbered : Numbered events) (few : events.length < 2 ^ 32) :
    events.map Event.cnt = (List.range events.length).map (· + 1) := by
  apply List.ext_getElem
  · simp
  · intro i bound _
    simp only [List.length_map] at bound
    simp [numbered.cnt_eq few i bound]

theorem Numbered.newest (numbered : Numbered events) (few : events.length < 2 ^ 32) :
    newestCnt events = events.length := by
  by_cases none : events.length = 0
  · rw [List.length_eq_zero_iff.mp none]
    rfl
  · have bound : events.length - 1 < events.length := by omega
    rw [newestCnt_eq bound,numbered.cnt_eq few _ bound]
    omega

theorem Kept.few {r : Recovery} (numbered : Numbered events) (kept : Kept events r) :
    events.length < 2 ^ 32 := by
  have within : events.map Event.cnt ++ [(r.cnt + 1) % 2 ^ 32] ⊆ List.range (2 ^ 32) := by
    intro c member
    rw [List.mem_range]
    rcases List.mem_append.mp member with old | new
    · obtain ⟨e,inside,rfl⟩ := List.mem_map.mp old
      obtain ⟨i,bound,rfl⟩ := List.getElem_of_mem inside
      rw [numbered i bound]
      exact Nat.mod_lt _ (by decide)
    · rw [List.mem_singleton.mp new]
      exact Nat.mod_lt _ (by decide)
  have size := (kept.fresh.subperm within).length_le
  rw [List.length_append,List.length_map,List.length_singleton,List.length_range] at size
  omega

end Counters

section Restart

variable {rtcValid : Rtc → Bool} {m : Memory} {events : List Event}

theorem kept_behind (numbered : Numbered events) (few : events.length < 2 ^ 32) :
    Kept events ⟨true,eventMemSize * (events.length % eventSlots),events.length⟩ := by
  constructor
  · intro i bound recent same
    have slot : events.length % eventSlots = i % eventSlots :=
      Nat.eq_of_mul_eq_mul_left (by decide) same
    by_contra other
    exact Ring.mod_ne (n := eventSlots) bound (by omega) slot.symm
  · rw [numbered.cnts few]
    have counters : ((List.range events.length).map (· + 1)).Nodup :=
      List.nodup_range.map fun _ _ same => Nat.succ.inj same
    refine counters.append (List.nodup_singleton _) ?_
    rw [List.disjoint_singleton]
    intro member
    obtain ⟨i,inside,same⟩ := List.mem_map.mp member
    have bound := List.mem_range.mp inside
    change i + 1 = (events.length + 1) % 2 ^ 32 at same
    by_cases wraps : events.length + 1 = 2 ^ 32
    · rw [wraps,Nat.mod_self] at same
      omega
    · rw [Nat.mod_eq_of_lt (by omega)] at same
      omega

theorem Clean.kept (holds : Holds m events) (numbered : Numbered events) (clean : Clean rtcValid events) :
    Kept events (eventMemoryInit rtcValid m.flash) := by
  have limit := Nat.mod_lt events.length (show 0 < eventSlots by decide)
  have rounds := initRounds_succ
  have found : eventMemoryInit rtcValid m.flash =
      ⟨true,eventMemSize * (events.length % eventSlots),newestCnt events⟩ := by
    refine holds.init_clean (numbered.increasing clean.few) clean.placed ?_ ?_
    · intro j below
      obtain ⟨bound,same⟩ := holds.newer below
      rw [same]
      exact clean.newer _ bound (Nat.le_add_right _ _)
    · by_cases full : eventSlots ≤ events.length
      · have whole := whole_round full
        refine (clean.older full).imp ?_ ?_
        · rintro ⟨inside,bound,invalid⟩
          obtain ⟨_,same⟩ := holds.oldest full
          exact ⟨inside,by rw [same]; exact invalid⟩
        · intro valid j below passed
          obtain ⟨bound,same⟩ := holds.older full passed (by omega)
          rw [same]
          exact valid _ bound (by omega) (by omega)
      · by_cases short : events.length < initRounds
        · rw [Nat.mod_eq_of_lt (Nat.lt_of_not_le full)]
          exact Or.inl ⟨short,holds.blank (Nat.lt_of_not_le full)⟩
        · refine Or.inr fun j below passed => ?_
          rw [Nat.mod_eq_of_lt (Nat.lt_of_not_le full)] at passed
          omega
  rw [found,numbered.newest clean.few]
  exact kept_behind numbered clean.few

/-- The slot the next store takes can only be that of the event to lose next. -/
theorem Kept.stop {f : Nat} (holds : Holds m events) (numbered : Numbered events)
    (kept : Kept events (eventMemoryInit rtcValid m.flash)) (some : events.length ≠ 0) (inside : f < initRounds)
    (invalid : (slotOf m.flash f).valid rtcValid = false)
    (before : ∀ j < f, (slotOf m.flash j).valid rtcValid = true) :
    f = events.length % eventSlots ∧ 0 < f := by
  have limit := Nat.mod_lt events.length (show 0 < eventSlots by decide)
  have least := Nat.mod_le events.length eventSlots
  have rounds := initRounds_succ
  rw [init_stops rtcValid inside invalid before] at kept
  constructor
  · by_contra other
    by_cases current : f < events.length % eventSlots
    · have lost := kept.spared (events.length - events.length % eventSlots + f) (by omega) (by omega)
        (by rw [newer_slot current])
      omega
    · by_cases full : eventSlots ≤ events.length
      · have whole := whole_round full
        have lost := kept.spared (events.length - events.length % eventSlots - eventSlots + f) (by omega) (by omega)
          (by rw [older_slot (by omega)])
        omega
      · rw [Nat.mod_eq_of_lt (Nat.lt_of_not_le full)] at current other
        have valid := before events.length (by omega)
        rw [holds.blank (Nat.lt_of_not_le full)] at valid
        exact absurd valid (by decide)
  · by_contra first
    obtain rfl : f = 0 := Nat.eq_zero_of_not_pos first
    have bound : 0 < events.length := Nat.pos_of_ne_zero some
    have issued : (0 + 1) % 2 ^ 32 ∈ events.map Event.cnt := by
      rw [← numbered 0 bound]
      exact List.mem_map_of_mem (List.getElem_mem bound)
    exact (List.disjoint_of_nodup_append kept.fresh) issued (List.mem_singleton_self _)

theorem Kept.clean (holds : Holds m events) (numbered : Numbered events) (some : events.length ≠ 0)
    (kept : Kept events (eventMemoryInit rtcValid m.flash)) : Clean rtcValid events := by
  have limit := Nat.mod_lt events.length (show 0 < eventSlots by decide)
  have least := Nat.mod_le events.length eventSlots
  have rounds := initRounds_succ
  have few := kept.few numbered
  have newerAt {i : Nat} (bound : i < events.length) (late : events.length - events.length % eventSlots ≤ i)
      (valid : (slotOf m.flash (i - (events.length - events.length % eventSlots))).valid rtcValid = true) :
      events[i].valid rtcValid = true := by
    obtain ⟨_,same⟩ := holds.newer (j := i - (events.length - events.length % eventSlots)) (by omega)
    simpa only [same,Nat.add_sub_cancel' late] using valid
  by_cases all : ∀ j < initRounds, (slotOf m.flash j).valid rtcValid = true
  · have reached := holds.reached all
    refine ⟨few,?_,fun i bound late => newerAt bound late (all _ (by omega)),fun full => Or.inr ?_⟩
    · by_contra whole
      have closed : events.length % eventSlots = 0 := Nat.eq_zero_of_not_pos whole
      have full : eventSlots ≤ events.length := by
        by_contra short
        rw [Nat.mod_eq_of_lt (Nat.lt_of_not_le short)] at closed
        exact some closed
      have round := whole_round full
      have lost := kept.spared (events.length - events.length % eventSlots - eventSlots + (eventSlots - 1))
        (by omega) (by omega) (by
          rw [older_slot (by omega),init_scans rtcValid all,holds.best_missed (numbered.increasing few) full closed]
          exact ptrInc_slot (j := eventSlots - 2) (by decide))
      have slots : eventSlots = 8192 := rfl
      omega
    · intro i bound late early
      have round := whole_round full
      have first : events.length - events.length % eventSlots - eventSlots ≤ i := by omega
      have valid := all (i - (events.length - events.length % eventSlots - eventSlots)) (by omega)
      obtain ⟨_,same⟩ := holds.older (j := i - (events.length - events.length % eventSlots - eventSlots)) full
        (by omega) (by omega)
      simpa only [same,Nat.add_sub_cancel' first] using valid
  · obtain ⟨f,⟨inside,invalid⟩,before⟩ : ∃ f, (f < initRounds ∧ (slotOf m.flash f).valid rtcValid = false) ∧
        ∀ j < f, (slotOf m.flash j).valid rtcValid = true := by
      have exists_ : ∃ f, f < initRounds ∧ (slotOf m.flash f).valid rtcValid = false := by
        simpa using all
      have found := Nat.find_spec exists_
      refine ⟨Nat.find exists_,found,fun j below => ?_⟩
      have passed := Nat.find_min exists_ below
      simpa [Nat.lt_trans below found.1] using passed
    obtain ⟨rfl,placed⟩ := Kept.stop holds numbered kept some inside invalid before
    refine ⟨few,placed,fun i bound late => newerAt bound late (before _ (by omega)),fun full => Or.inl ⟨inside,?_⟩⟩
    obtain ⟨bound,same⟩ := holds.oldest full
    rw [same] at invalid
    exact ⟨bound,invalid⟩

theorem empty_kept (holds : Holds m []) : Kept [] (eventMemoryInit rtcValid m.flash) := by
  have blank : (slotOf m.flash 0).valid rtcValid = false := holds.blank (by decide)
  rw [init_stops rtcValid (by decide) blank fun j below => absurd below (Nat.not_lt_zero j)]
  exact ⟨fun i bound => absurd bound (Nat.not_lt_zero i),List.nodup_singleton _⟩

end Restart

/-- Where every event created so far has been stored, a restart keeps the log
exactly when there is none or its end can be recognised. -/
theorem log_kept_iff (rtcValid : Rtc → Bool) (buffer : Nat → Event) (inputs : List EventQueue.Input) (s : State)
    (ran : run buffer inputs = .ok s) (complete : s.events.stored = s.events.accepted) :
    Kept s.events.accepted (eventMemoryInit rtcValid s.memory.flash) ↔
      s.events.accepted.length = 0 ∨ Clean rtcValid s.events.accepted := by
  obtain ⟨s',ran',inv⟩ := run_inv buffer inputs
  cases ran.symm.trans ran'
  have holds := inv.log
  rw [complete] at holds
  constructor
  · intro kept
    by_cases none : s.events.accepted.length = 0
    · exact Or.inl none
    · exact Or.inr (Kept.clean holds inv.numbered none kept)
  · rintro (none | clean)
    · rw [List.length_eq_zero_iff] at none
      rw [none] at holds ⊢
      exact empty_kept holds
    · exact clean.kept holds inv.numbered

def clockless : List EventQueue.Input :=
  [.create .bootUp .unit none ⟨0,0,0,0,0,0⟩,.task,.task,.task]

def noEvents (_ : Nat) : Event := Event.erased

/-- It is overwritten after a restart, and its counter is used again. -/
theorem clockless_overwritten : ∃ s, run noEvents clockless = .ok s ∧ s.events.stored = s.events.accepted ∧
    ¬ Kept s.events.accepted (eventMemoryInit (fun _ => false) s.memory.flash) := by
  refine ⟨_,rfl,rfl,fun kept => ?_⟩
  have lost := kept.spared 0 (by decide) (by decide) (by decide)
  exact absurd lost (by decide)

theorem clockless_kept_iff : ∃ s, run noEvents clockless = .ok s ∧ s.events.stored = s.events.accepted ∧
    (Kept s.events.accepted (eventMemoryInit (fun _ => true) s.memory.flash) ↔
      s.events.accepted.length = 0 ∨ Clean (fun _ => true) s.events.accepted) :=
  ⟨_,rfl,rfl,log_kept_iff (fun _ => true) noEvents clockless _ rfl rfl⟩

end JcaFirmware.EventLog
