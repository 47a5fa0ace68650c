import JcaFirmware.Event
import JcaFirmware.Foundation.Ring
import JcaFirmware.Foundation.Run

/-! The primary event queue (`app/event.c`): `event_create_ext` writes a ring of
32 slots, `event_task` reads it. A create is atomic and may fall between any
two actions of the task, which therefore runs in steps of one action each. -/
namespace JcaFirmware.EventQueue
open Foundation

def eventBufSize : Nat := 32

/-- `_event_buffer`, `_buf_rd_ptr`, `_buf_wr_ptr` and `_event_cnt`. -/
structure Queue where
  buffer : Nat → Event
  rdPtr : Nat
  wrPtr : Nat
  cnt : Nat

/-- `event_create_ext`; `now` is what `rtc_get_time` answers when no time is given. -/
def eventCreateExt (q : Queue) (id : EventId) (source : EventSource) (time : Option Rtc) (now : Rtc) :
    Bool × Queue :=
  let ptr := if q.wrPtr + 1 = eventBufSize then 0 else q.wrPtr + 1
  if ptr = q.wrPtr then (false,q)
  else
    let cnt := (q.cnt + 1) % 2 ^ 32
    (true,{q with
      buffer := Function.update q.buffer q.wrPtr ⟨cnt,time.getD now,id.code,source.code⟩
      cnt := cnt
      wrPtr := ptr})

/-- Where `event_task` stands, with its local `ptr`. -/
inductive Task
  | idle
  | test (ptr : Nat)
  | store (ptr : Nat)
  | dispatch (ptr : Nat)
  | react (ptr : Nat)
  | advance (ptr : Nat)
  | failed (message : String)
deriving DecidableEq, Repr

/-- What the task does with an event: `event_memory_store`, the SMS and CMS
buffers as configured, `system_event`. -/
inductive Effect
  | store (e : Event)
  | dispatch (e : Event)
  | react (e : Event)
deriving DecidableEq, Repr

def eventTask (q : Queue) : Task → Queue × Task × Option Effect
  | .idle => if q.wrPtr < eventBufSize then (q,.test q.rdPtr,none) else (q,.failed "_buf_wr_ptr",none)
  | .test ptr => if ptr ≠ q.wrPtr then (q,.store ptr,none) else (q,.idle,none)
  | .store ptr =>
    if q.rdPtr < eventBufSize then
      let e := q.buffer q.rdPtr
      if e.id < eventIdSize then (q,.dispatch ptr,some (.store e)) else (q,.failed "e->id",none)
    else (q,.failed "_buf_rd_ptr",none)
  | .dispatch ptr => (q,.react ptr,some (.dispatch (q.buffer q.rdPtr)))
  | .react ptr =>
    -- the log line looks up both names before `system_event` is called
    let e := q.buffer q.rdPtr
    if eventIdSize ≤ e.id then (q,.failed "EVENT_ID_SIZE",none)
    else if eventSourceSize ≤ e.source then (q,.failed "EVENT_SOURCE_SIZE",none)
    else (q,.advance ptr,some (.react e))
  | .advance ptr =>
    let ptr := if ptr + 1 = eventBufSize then 0 else ptr + 1
    ({q with rdPtr := ptr},.test ptr,none)
  | .failed message => (q,.failed message,none)

def Queue.contents (q : Queue) : List Event := Ring.contents eventBufSize q.buffer q.rdPtr q.wrPtr

/-- The queue and its task with a record of what was accepted and what was done
with it, in order. -/
structure State where
  queue : Queue
  task : Task
  accepted : List Event
  stored : List Event
  dispatched : List Event
  reacted : List Event

inductive Input
  | create (id : EventId) (source : EventSource) (time : Option Rtc) (now : Rtc)
  | task

def note (s : State) : Option Effect → State
  | some (.store e) => {s with stored := s.stored ++ [e]}
  | some (.dispatch e) => {s with dispatched := s.dispatched ++ [e]}
  | some (.react e) => {s with reacted := s.reacted ++ [e]}
  | none => s

def step (s : State) : Input → State
  | .create id source time now =>
    let (accepted,queue) := eventCreateExt s.queue id source time now
    if accepted then {s with queue := queue, accepted := s.accepted ++ [queue.buffer s.queue.wrPtr]}
    else {s with queue := queue}
  | .task =>
    let (queue,task,effect) := eventTask s.queue s.task
    note {s with queue := queue, task := task} effect

def start (buffer : Nat → Event) (cnt : Nat) : State :=
  ⟨⟨buffer,0,0,cnt⟩,.idle,[],[],[],[]⟩

/-- How many of the events in the ring the task has stored, dispatched, reacted to. -/
def Task.stage : Task → Nat × Nat × Nat
  | .dispatch _ => (1,0,0)
  | .react _ => (1,1,0)
  | .advance _ => (1,1,1)
  | _ => (0,0,0)

def waiting (s : State) : List Event := s.queue.contents.drop s.task.stage.2.2

/-- A bounded queue: what was accepted is what was processed followed by what
waits, each stage follows this order and is at most one event ahead. -/
structure Fifo (s : State) : Prop where
  order : s.accepted = s.reacted ++ waiting s
  reacted : s.reacted <+: s.dispatched
  dispatched : s.dispatched <+: s.stored
  stored : s.stored <+: s.accepted
  ahead : s.stored.length ≤ s.reacted.length + 1
  bound : (waiting s).length ≤ eventBufSize - 1
  running : ∀ message, s.task ≠ .failed message

def Room (s : State) : Input → Prop
  | .create .. => Ring.next eventBufSize s.queue.wrPtr ≠ s.queue.rdPtr
  | .task => True

/-- The task's pointer is the read index, and an event stands there while it is processed. -/
def Task.At (q : Queue) : Task → Prop
  | .idle => True
  | .test ptr => ptr = q.rdPtr
  | .store ptr | .dispatch ptr | .react ptr | .advance ptr => ptr = q.rdPtr ∧ q.rdPtr ≠ q.wrPtr
  | .failed _ => False

/-- The logs in terms of the events in the ring, the first of which may be partly processed. -/
structure Logs (s : State) (done : List Event) : Prop where
  accepted : s.accepted = done ++ s.queue.contents
  stored : s.stored = done ++ s.queue.contents.take s.task.stage.1
  dispatched : s.dispatched = done ++ s.queue.contents.take s.task.stage.2.1
  reacted : s.reacted = done ++ s.queue.contents.take s.task.stage.2.2

structure Inv (s : State) : Prop where
  rdIn : s.queue.rdPtr < eventBufSize
  wrIn : s.queue.wrPtr < eventBufSize
  valid : ∀ e ∈ s.queue.contents, e.id < eventIdSize ∧ e.source < eventSourceSize
  task : s.task.At s.queue
  logs : ∃ done, Logs s done

theorem Task.stage_le (t : Task) : t.stage.2.2 ≤ t.stage.2.1 ∧ t.stage.2.1 ≤ t.stage.1 ∧ t.stage.1 ≤ 1 := by
  cases t <;> simp [Task.stage]

theorem Inv.length {s : State} (inv : Inv s) : s.queue.contents.length < eventBufSize := by
  rw [Queue.contents,Ring.contents,List.length_map,Ring.window_length]
  exact Ring.gap_lt inv.rdIn inv.wrIn

theorem Inv.head {s : State} (inv : Inv s) (distinct : s.queue.rdPtr ≠ s.queue.wrPtr) :
    s.queue.contents = s.queue.buffer s.queue.rdPtr ::
      Ring.contents eventBufSize s.queue.buffer (Ring.next eventBufSize s.queue.rdPtr) s.queue.wrPtr :=
  Ring.contents_pop s.queue.buffer inv.rdIn inv.wrIn distinct

theorem Inv.fifo {s : State} (inv : Inv s) : Fifo s := by
  obtain ⟨done,logs⟩ := inv.logs
  obtain ⟨right,middle,left⟩ := s.task.stage_le
  have size := inv.length
  have slice {m n : Nat} (le : m ≤ n) : done ++ s.queue.contents.take m <+: done ++ s.queue.contents.take n :=
    (List.prefix_append_right_inj done).mpr (List.take_prefix_take_left le)
  refine ⟨?_,?_,?_,?_,?_,?_,?_⟩
  · rw [logs.accepted,logs.reacted,waiting,List.append_assoc,List.take_append_drop]
  · rw [logs.reacted,logs.dispatched]
    exact slice right
  · rw [logs.dispatched,logs.stored]
    exact slice middle
  · rw [logs.stored,logs.accepted]
    exact (List.prefix_append_right_inj done).mpr (List.take_prefix _ _)
  · rw [logs.stored,logs.reacted,List.length_append,List.length_append,List.length_take,List.length_take]
    omega
  · rw [waiting,List.length_drop]
    omega
  · intro message failed
    have task := inv.task
    rw [failed] at task
    exact task

theorem start_inv (buffer : Nat → Event) (cnt : Nat) : Inv (start buffer cnt) := by
  have none : (start buffer cnt).queue.contents = [] := by
    rw [Queue.contents,Ring.contents]
    exact congrArg (List.map buffer) (Ring.window_self eventBufSize 0)
  have pos : 0 < eventBufSize := by decide
  refine ⟨pos,pos,?_,trivial,[],?_,?_,?_,?_⟩
  · rw [none]
    exact fun e member => absurd member List.not_mem_nil
  all_goals
    rw [none]
    rfl

/-- `event_create_ext` accepts every event: its overflow test never holds. -/
theorem eventCreateExt_accepts (q : Queue) (id : EventId) (source : EventSource) (time : Option Rtc) (now : Rtc) :
    eventCreateExt q id source time now = (true,{q with
      buffer := Function.update q.buffer q.wrPtr ⟨(q.cnt + 1) % 2 ^ 32,time.getD now,id.code,source.code⟩
      cnt := (q.cnt + 1) % 2 ^ 32
      wrPtr := Ring.next eventBufSize q.wrPtr}) := by
  have moved : Ring.next eventBufSize q.wrPtr ≠ q.wrPtr := by
    unfold Ring.next
    unfold eventBufSize
    split <;> omega
  exact if_neg moved

theorem Task.At.create {t : Task} {q q' : Queue} (at_ : t.At q) (sameRd : q'.rdPtr = q.rdPtr)
    (filled : q'.rdPtr ≠ q'.wrPtr) : t.At q' := by
  cases t with
  | idle => trivial
  | test ptr => exact at_.trans sameRd.symm
  | store ptr | dispatch ptr | react ptr | advance ptr => exact ⟨at_.1.trans sameRd.symm,filled⟩
  | failed message => exact at_

theorem create_inv {s : State} (inv : Inv s) (id : EventId) (source : EventSource) (time : Option Rtc) (now : Rtc)
    (room : Room s (.create id source time now)) : Inv (step s (.create id source time now)) := by
  let e : Event := ⟨(s.queue.cnt + 1) % 2 ^ 32,time.getD now,id.code,source.code⟩
  have stepped : step s (.create id source time now) = {s with
      queue := {s.queue with
        buffer := Function.update s.queue.buffer s.queue.wrPtr e
        cnt := (s.queue.cnt + 1) % 2 ^ 32
        wrPtr := Ring.next eventBufSize s.queue.wrPtr}
      accepted := s.accepted ++ [e]} := by
    rw [step,eventCreateExt_accepts]
    simp [e]
  have grown : (step s (.create id source time now)).queue.contents = s.queue.contents ++ [e] := by
    rw [stepped]
    exact Ring.contents_push s.queue.buffer e inv.rdIn inv.wrIn room
  obtain ⟨done,logs⟩ := inv.logs
  -- an event is partly processed only if the ring holds one, which the new one then leaves first
  have kept {n : Nat} (le : n ≤ s.task.stage.1) :
      (s.queue.contents ++ [e]).take n = s.queue.contents.take n := by
    apply List.take_append_of_le_length
    have task := inv.task
    cases pc : s.task <;> rw [pc] at task le
    case dispatch | react | advance =>
      rw [inv.head task.2]
      exact Nat.le_trans le (by simp [Task.stage])
    all_goals exact Nat.le_trans le (Nat.zero_le _)
  obtain ⟨right,middle,_⟩ := s.task.stage_le
  have sameTask : (step s (.create id source time now)).task = s.task := by rw [stepped]
  refine ⟨?_,?_,?_,?_,done,?_,?_,?_,?_⟩
  · rw [stepped]
    exact inv.rdIn
  · rw [stepped]
    exact Ring.next_lt inv.wrIn
  · rw [grown]
    intro e' member
    rcases List.mem_append.mp member with old | new
    · exact inv.valid e' old
    · rw [List.mem_singleton.mp new]
      exact ⟨id.code_lt,source.code_lt⟩
  · rw [stepped]
    exact inv.task.create rfl fun closed => room closed.symm
  · rw [grown,stepped,logs.accepted,List.append_assoc]
  · rw [grown,sameTask,kept (Nat.le_refl _),stepped,logs.stored]
  · rw [grown,sameTask,kept middle,stepped,logs.dispatched]
  · rw [grown,sameTask,kept (Nat.le_trans right middle),stepped,logs.reacted]

theorem create_overflow {s : State} (inv : Inv s) {input : Input} (full : ¬ Room s input) :
    ¬ Fifo (step s input) := by
  cases input with
  | task => exact absurd trivial full
  | create id source time now =>
    intro fifo
    have closed : Ring.next eventBufSize s.queue.wrPtr = s.queue.rdPtr := not_not.mp full
    have lost := fifo.order
    have none : waiting (step s (.create id source time now)) = [] := by
      rw [waiting,step,eventCreateExt_accepts]
      simp [Queue.contents,Ring.contents,closed,Ring.window_self]
    have same : (step s (.create id source time now)).reacted = s.reacted := by
      rw [step,eventCreateExt_accepts]
      rfl
    have longer : (step s (.create id source time now)).accepted.length = s.accepted.length + 1 := by
      rw [step,eventCreateExt_accepts]
      simp
    rw [none,same,List.append_nil] at lost
    have before := inv.fifo.order
    rw [lost,before,List.length_append] at longer
    omega

theorem Logs.task {s : State} {done : List Event} (logs : Logs s done) {t : Task} (same : t.stage = s.task.stage) :
    Logs {s with task := t} done := by
  refine ⟨logs.accepted,?_,?_,?_⟩
  · rw [same]
    exact logs.stored
  · rw [same]
    exact logs.dispatched
  · rw [same]
    exact logs.reacted

/-- The event that has been processed leaves the ring. -/
theorem Inv.advance {s : State} (inv : Inv s) {ptr : Nat} (pc : s.task = .advance ptr) : Inv (step s .task) := by
  obtain ⟨done,logs⟩ := inv.logs
  have task := inv.task
  rw [pc] at task
  have head := inv.head task.2
  have stepped : step s .task = {s with
      queue := {s.queue with rdPtr := Ring.next eventBufSize s.queue.rdPtr}
      task := .test (Ring.next eventBufSize s.queue.rdPtr)} := by
    simp [step,eventTask,pc,note,task.1,Ring.next]
  rw [stepped]
  have tail : Queue.contents {s.queue with rdPtr := Ring.next eventBufSize s.queue.rdPtr} =
      s.queue.contents.drop 1 := by
    rw [head]
    rfl
  refine ⟨Ring.next_lt inv.rdIn,inv.wrIn,?_,rfl,done ++ s.queue.contents.take 1,?_,?_,?_,?_⟩
  · rw [tail]
    exact fun e member => inv.valid e (List.mem_of_mem_drop member)
  · rw [tail,List.append_assoc,List.take_append_drop]
    exact logs.accepted
  · simpa [pc,Task.stage] using logs.stored
  · simpa [pc,Task.stage] using logs.dispatched
  · simpa [pc,Task.stage] using logs.reacted

theorem task_inv {s : State} (inv : Inv s) : Inv (step s .task) := by
  obtain ⟨done,logs⟩ := inv.logs
  have task := inv.task
  cases pc : s.task with
  | idle =>
    have stepped : step s .task = {s with task := .test s.queue.rdPtr} := by
      simp [step,eventTask,pc,inv.wrIn,note]
    rw [stepped]
    exact ⟨inv.rdIn,inv.wrIn,inv.valid,rfl,done,logs.task (by rw [pc]; rfl)⟩
  | test ptr =>
    rw [pc] at task
    by_cases filled : ptr = s.queue.wrPtr
    · have stepped : step s .task = {s with task := .idle} := by
        simp [step,eventTask,pc,filled,note]
      rw [stepped]
      exact ⟨inv.rdIn,inv.wrIn,inv.valid,trivial,done,logs.task (by rw [pc]; rfl)⟩
    · have stepped : step s .task = {s with task := .store ptr} := by
        simp [step,eventTask,pc,filled,note]
      rw [stepped]
      exact ⟨inv.rdIn,inv.wrIn,inv.valid,⟨task,task ▸ filled⟩,done,logs.task (by rw [pc]; rfl)⟩
  | store ptr =>
    rw [pc] at task
    have head := inv.head task.2
    have valid := inv.valid (s.queue.buffer s.queue.rdPtr) (by rw [head]; simp)
    have stepped : step s .task =
        {s with task := .dispatch ptr, stored := s.stored ++ [s.queue.buffer s.queue.rdPtr]} := by
      simp [step,eventTask,pc,inv.rdIn,valid.1,note]
    rw [stepped]
    refine ⟨inv.rdIn,inv.wrIn,inv.valid,task,done,logs.accepted,?_,by simpa [pc,Task.stage] using logs.dispatched,
      by simpa [pc,Task.stage] using logs.reacted⟩
    have stored := logs.stored
    simp only [pc,Task.stage,List.take_zero,List.append_nil] at stored
    simp [Task.stage,head,stored]
  | dispatch ptr =>
    rw [pc] at task
    have head := inv.head task.2
    have stepped : step s .task =
        {s with task := .react ptr, dispatched := s.dispatched ++ [s.queue.buffer s.queue.rdPtr]} := by
      simp [step,eventTask,pc,note]
    rw [stepped]
    refine ⟨inv.rdIn,inv.wrIn,inv.valid,task,done,logs.accepted,by simpa [pc,Task.stage] using logs.stored,?_,
      by simpa [pc,Task.stage] using logs.reacted⟩
    have dispatched := logs.dispatched
    simp only [pc,Task.stage,List.take_zero,List.append_nil] at dispatched
    simp [Task.stage,head,dispatched]
  | react ptr =>
    rw [pc] at task
    have head := inv.head task.2
    obtain ⟨id,source⟩ := inv.valid (s.queue.buffer s.queue.rdPtr) (by rw [head]; simp)
    have stepped : step s .task =
        {s with task := .advance ptr, reacted := s.reacted ++ [s.queue.buffer s.queue.rdPtr]} := by
      simp [step,eventTask,pc,UInt8.not_le.mpr id,UInt8.not_le.mpr source,note]
    rw [stepped]
    refine ⟨inv.rdIn,inv.wrIn,inv.valid,task,done,logs.accepted,by simpa [pc,Task.stage] using logs.stored,
      by simpa [pc,Task.stage] using logs.dispatched,?_⟩
    have reacted := logs.reacted
    simp only [pc,Task.stage,List.take_zero,List.append_nil] at reacted
    simp [Task.stage,head,reacted]
  | advance ptr => exact inv.advance pc
  | failed message =>
    rw [pc] at task
    exact task.elim

theorem step_inv (s : State) (input : Input) (inv : Inv s) (room : Room s input) : Inv (step s input) := by
  cases input with
  | create id source time now => exact create_inv inv id source time now room
  | task => exact task_inv inv

/-- The queue is a bounded queue all along a run exactly when no create of the
run meets a ring that it closes. -/
theorem run_fifo_iff (buffer : Nat → Event) (cnt : Nat) (inputs : List Input) :
    (∀ first rest, inputs = first ++ rest → Fifo (Run.run step (start buffer cnt) first)) ↔
      Run.Admits step Room (start buffer cnt) inputs :=
  Run.always_iff_admits step Room Inv Fifo (fun _ inv => inv.fifo) step_inv
    (fun _ _ inv full => create_overflow inv full) (start buffer cnt) inputs (start_inv buffer cnt)

def alarm : Input := .create .alarm .door none ⟨24,1,1,12,0,0⟩

/-- A burst of 32 events before the task runs once: all are accepted, none waits. -/
theorem burst_lost : ¬ Fifo (Run.run step (start (fun _ => Event.erased) 0) (List.replicate 32 alarm)) := by
  intro fifo
  have lost := congrArg List.length fifo.order
  revert lost
  decide +kernel

end JcaFirmware.EventQueue
