import JcaFirmware.EventQueue

/-! The events `event_task` has still to react to, from any state of the ring:
also where a create has closed it, and whatever the task is doing. A reaction
takes the first of them, and the task gets to every one. -/
namespace JcaFirmware.EventQueue
open Foundation

def Task.held (q : Queue) : Task → List Event
  | .store _ | .dispatch _ | .react _ => [q.buffer q.rdPtr]
  | _ => []

/-- The slot that the task reads next, after the event in hand. -/
def Task.tail (q : Queue) : Task → Nat
  | .store _ | .dispatch _ | .react _ | .advance _ => Ring.next eventBufSize q.rdPtr
  | _ => q.rdPtr

def pending (q : Queue) (t : Task) : List Event :=
  t.held q ++ Ring.contents eventBufSize q.buffer (t.tail q) q.wrPtr

/-- The task's pointer is the read index, whatever the write index is. -/
def Task.Follows (q : Queue) : Task → Prop
  | .test ptr | .store ptr | .dispatch ptr | .react ptr | .advance ptr => ptr = q.rdPtr
  | .idle => True
  | .failed _ => False

/-- No assertion of the task can fail. -/
structure Serves (q : Queue) (t : Task) : Prop where
  rdIn : q.rdPtr < eventBufSize
  wrIn : q.wrPtr < eventBufSize
  task : t.Follows q
  valid : ∀ e ∈ pending q t, e.id < eventIdSize ∧ e.source < eventSourceSize

def Effect.reacted : Option Effect → List Event
  | some (.react e) => [e]
  | _ => []

theorem Effect.reacted_cases (effect : Option Effect) :
    Effect.reacted effect = [] ∨ ∃ e, Effect.reacted effect = [e] := by
  unfold Effect.reacted
  split
  · exact Or.inr ⟨_,rfl⟩
  · exact Or.inl rfl

/-- A bound on the steps of the task to the last reaction. -/
def effort (q : Queue) (t : Task) : Nat :=
  5 * (pending q t).length + match t with
    | .idle | .advance _ => 4
    | .test _ => 3
    | .store _ => 2
    | .dispatch _ => 1
    | .react _ | .failed _ => 0

theorem Serves.tailIn {q : Queue} {t : Task} (serves : Serves q t) : t.tail q < eventBufSize := by
  cases t with
  | store | dispatch | react | advance => exact Ring.next_lt serves.rdIn
  | idle | test | failed => exact serves.rdIn

theorem start_serves (buffer : Nat → Event) (cnt : Nat) : Serves (start buffer cnt).queue .idle := by
  have pos : 0 < eventBufSize := by decide
  refine ⟨pos,pos,trivial,?_⟩
  have none : pending (start buffer cnt).queue .idle = [] :=
    congrArg (List.map buffer) (Ring.window_self eventBufSize 0)
  rw [none]
  exact fun e member => absurd member List.not_mem_nil

def created (q : Queue) (id : EventId) (source : EventSource) (time : Option Rtc) (now : Rtc) : Event :=
  ⟨(q.cnt + 1) % 2 ^ 32,time.getD now,id.code,source.code⟩

section Create
variable {q : Queue} {t : Task} (serves : Serves q t) (id : EventId) (source : EventSource)
  (time : Option Rtc) (now : Rtc)

theorem created_tail : t.tail (eventCreateExt q id source time now).2 = t.tail q := by
  rw [eventCreateExt_accepts]
  cases t <;> rfl

include serves

theorem create_appends (open_ : Ring.next eventBufSize q.wrPtr ≠ t.tail q) :
    pending (eventCreateExt q id source time now).2 t = pending q t ++ [created q id source time now] := by
  have grown := Ring.contents_push q.buffer (created q id source time now) serves.tailIn serves.wrIn open_
  have kept : t.held (eventCreateExt q id source time now).2 = t.held q := by
    rw [eventCreateExt_accepts]
    cases t with
    | store ptr | dispatch ptr | react ptr =>
      -- the write does not fall on the event in hand, which is just before the tail
      have apart : q.rdPtr ≠ q.wrPtr := fun same => open_ (congrArg (Ring.next eventBufSize) same.symm)
      exact congrArg (fun e => [e]) (Function.update_of_ne apart _ _)
    | idle | test | advance | failed => rfl
  rw [pending,pending,List.append_assoc,← grown,created_tail,kept,eventCreateExt_accepts]
  rfl

theorem create_closes (closed : Ring.next eventBufSize q.wrPtr = t.tail q) :
    ∀ e ∈ pending (eventCreateExt q id source time now).2 t, e = created q id source time now := by
  have none : Ring.contents eventBufSize (eventCreateExt q id source time now).2.buffer
      (t.tail (eventCreateExt q id source time now).2) (eventCreateExt q id source time now).2.wrPtr = [] := by
    rw [created_tail,eventCreateExt_accepts]
    dsimp only
    rw [closed,Ring.contents,Ring.window_self]
    rfl
  rw [pending,none,List.append_nil,eventCreateExt_accepts]
  cases t with
  | store ptr | dispatch ptr | react ptr =>
    have same : q.wrPtr = q.rdPtr := Ring.next_inj closed
    intro e member
    rw [List.mem_singleton.mp member]
    exact same ▸ Function.update_self _ _ _
  | idle | test | advance | failed => exact fun e member => absurd member List.not_mem_nil

theorem create_pending : ∀ e ∈ pending (eventCreateExt q id source time now).2 t,
    e ∈ pending q t ∨ e = created q id source time now := by
  intro e member
  by_cases closed : Ring.next eventBufSize q.wrPtr = t.tail q
  · exact Or.inr (create_closes serves id source time now closed e member)
  · rw [create_appends serves id source time now closed] at member
    simpa using member

theorem create_serves : Serves (eventCreateExt q id source time now).2 t := by
  refine ⟨?_,?_,?_,?_⟩
  · rw [eventCreateExt_accepts]
    exact serves.rdIn
  · rw [eventCreateExt_accepts]
    exact Ring.next_lt serves.wrIn
  · have task := serves.task
    rw [eventCreateExt_accepts]
    cases t <;> exact task
  · intro e member
    rcases create_pending serves id source time now e member with old | new
    · exact serves.valid e old
    · rw [new]
      exact ⟨id.code_lt,source.code_lt⟩

end Create

/-- What a step of the task does where no assertion fails. -/
theorem eventTask_eq {q : Queue} {t : Task} :
    Serves q t → eventTask q t = match t with
      | .idle => (q,.test q.rdPtr,none)
      | .test ptr => if ptr = q.wrPtr then (q,.idle,none) else (q,.store ptr,none)
      | .store ptr => (q,.dispatch ptr,some (.store (q.buffer q.rdPtr)))
      | .dispatch ptr => (q,.react ptr,some (.dispatch (q.buffer q.rdPtr)))
      | .react ptr => (q,.advance ptr,some (.react (q.buffer q.rdPtr)))
      | .advance _ => ({q with rdPtr := Ring.next eventBufSize q.rdPtr},
          .test (Ring.next eventBufSize q.rdPtr),none)
      | .failed message => (q,.failed message,none) := by
  intro serves
  cases t with
  | idle => simp [eventTask,serves.wrIn]
  | test ptr => simp [eventTask]
  | store ptr =>
    have valid := serves.valid (q.buffer q.rdPtr) List.mem_cons_self
    simp [eventTask,serves.rdIn,valid.1]
  | dispatch ptr => rfl
  | react ptr =>
    have valid := serves.valid (q.buffer q.rdPtr) List.mem_cons_self
    simp [eventTask,UInt8.not_le.mpr valid.1,UInt8.not_le.mpr valid.2]
  | advance ptr =>
    have same : ptr = q.rdPtr := serves.task
    simp [eventTask,same,Ring.next]
  | failed message => rfl

/-- A step of the task reacts to the first event that waits, or to none. -/
theorem task_pending {q : Queue} {t : Task} (serves : Serves q t) :
    pending q t = Effect.reacted (eventTask q t).2.2 ++ pending (eventTask q t).1 (eventTask q t).2.1 := by
  rw [eventTask_eq serves]
  cases t with
  | test ptr =>
    have same : ptr = q.rdPtr := serves.task
    by_cases empty : ptr = q.wrPtr
    · simp [empty,Effect.reacted,pending,Task.held,Task.tail]
    · have distinct : q.rdPtr ≠ q.wrPtr := by rwa [← same]
      have head := Ring.contents_pop q.buffer serves.rdIn serves.wrIn distinct
      simp [empty,Effect.reacted,pending,Task.held,Task.tail,head]
  | idle | store | dispatch | react | advance | failed => rfl

theorem task_serves {q : Queue} {t : Task} (serves : Serves q t) :
    Serves (eventTask q t).1 (eventTask q t).2.1 := by
  have valid : ∀ e ∈ pending (eventTask q t).1 (eventTask q t).2.1, e.id < eventIdSize ∧ e.source < eventSourceSize := by
    intro e member
    apply serves.valid e
    rw [task_pending serves]
    exact List.mem_append_right _ member
  refine ⟨?_,?_,?_,valid⟩
  all_goals
    rw [eventTask_eq serves]
    have task := serves.task
  · cases t with
    | test ptr => dsimp only; split <;> exact serves.rdIn
    | advance ptr => exact Ring.next_lt serves.rdIn
    | idle | store | dispatch | react | failed => exact serves.rdIn
  · cases t with
    | test ptr => dsimp only; split <;> exact serves.wrIn
    | idle | store | dispatch | react | advance | failed => exact serves.wrIn
  · cases t with
    | test ptr => dsimp only; split; exacts [trivial,task]
    | idle | advance => rfl
    | store | dispatch | react | failed => exact task

theorem task_effort {q : Queue} {t : Task} (serves : Serves q t) (waits : pending q t ≠ []) :
    effort (eventTask q t).1 (eventTask q t).2.1 < effort q t := by
  have taken := congrArg List.length (task_pending serves)
  rw [List.length_append] at taken
  rw [eventTask_eq serves] at taken ⊢
  unfold effort
  rw [taken]
  cases t with
  | test ptr =>
    have same : ptr = q.rdPtr := serves.task
    have filled : ptr ≠ q.wrPtr := by
      intro empty
      apply waits
      change Ring.contents eventBufSize q.buffer q.rdPtr q.wrPtr = []
      rw [← same,empty,Ring.contents,Ring.window_self]
      rfl
    simp [filled,Effect.reacted]
  | react ptr =>
    simp only [Effect.reacted,List.length_singleton]
    omega
  | idle | store | dispatch | advance => simp [Effect.reacted]
  | failed message => exact serves.task.elim

end JcaFirmware.EventQueue
