import JcaFirmware.Foundation.Ring
import JcaFirmware.Foundation.Run

/-! What is sent over BLE (`app/ble.c`, `ble_send` and the TX part of `ble_task`): a ring
between its callers and the UART. The bytes taken from the callers and the bytes given
to the UART are kept since the last connection. -/
namespace JcaFirmware.BleTx
open Foundation

structure State where
  connected : Bool
  txBuf : Nat → UInt8
  txBufRdIdx : Nat
  txBufWrIdx : Nat
  accepted : List UInt8
  written : List UInt8

-- The UART takes a byte or refuses it.
inductive Input
  | bleSend (data : List UInt8)
  | bleTask (accepts : Bool)

/-- A connection line of the module, or something done with the ring. -/
inductive Event
  | response (connected : Bool)
  | transfer (input : Input)

section Step

variable (bufSize : Nat)

def initial : State := ⟨false,fun _ => 0,0,0,[],[]⟩

def clearBuf (s : State) : State := {s with txBufRdIdx := s.txBufWrIdx}

def processResponse (connected : Bool) (s : State) : State :=
  if connected then {clearBuf s with connected := true, accepted := [], written := []}
  else {s with connected := false}

def nextIdx (i : Nat) : Nat := if bufSize ≤ i + 1 then 0 else i + 1

def put : List UInt8 → State → State
  | [], s => s
  | b :: data, s =>
    let idx := nextIdx bufSize s.txBufWrIdx
    if idx = s.txBufRdIdx then s
    else put data {s with txBuf := Function.update s.txBuf idx b, txBufWrIdx := idx, accepted := s.accepted ++ [b]}

def bleSend (data : List UInt8) (s : State) : State := if s.connected = false then s else put bufSize data s

-- It is one byte in every call, so the chunks of 128 have no effect.
def bleTask (accepts : Bool) (s : State) : State :=
  if s.connected = false then s
  else if s.txBufWrIdx = s.txBufRdIdx then s
  else if accepts = false then s
  else {s with txBufRdIdx := nextIdx bufSize s.txBufRdIdx, written := s.written ++ [s.txBuf s.txBufRdIdx]}

def step (s : State) : Input → State
  | .bleSend data => bleSend bufSize data s
  | .bleTask accepts => bleTask bufSize accepts s

def handle (s : State) : Event → State
  | .response connected => processResponse connected s
  | .transfer input => step bufSize s input

end Step

section Property

/-- The UART has the first of the accepted bytes, and has them all after some more rounds. -/
def Delivered (bufSize : Nat) (s : State) : Prop :=
  s.written <+: s.accepted ∧
    ∃ enough, ∀ rounds, enough ≤ rounds → (Run.run (step bufSize) s (List.replicate rounds (.bleTask true))).written = s.accepted

def room (bufSize : Nat) (s : State) : Nat := bufSize - 1 - Ring.gap bufSize s.txBufRdIdx s.txBufWrIdx

def taken (bufSize : Nat) (s : State) : Input → List UInt8
  | .bleSend data => data.take (room bufSize s)
  | .bleTask _ => []

def Repeats (bufSize : Nat) (stale : UInt8) (s : State) (input : Input) : Prop := ∀ b ∈ taken bufSize s input, b = stale

end Property

section Invariant

structure Valid (bufSize : Nat) (s : State) : Prop where
  rd : s.txBufRdIdx < bufSize
  wr : s.txBufWrIdx < bufSize

/-- The reader is one slot behind the writer: what is written and what is stored is a stale
byte before the accepted ones. -/
structure Shifted (bufSize : Nat) (stale : UInt8) (s : State) : Prop extends Valid bufSize s where
  connected : s.connected = true
  stream : s.written ++ Ring.contents bufSize s.txBuf s.txBufRdIdx s.txBufWrIdx ++ [s.txBuf s.txBufWrIdx] = stale :: s.accepted

variable {bufSize : Nat} {stale : UInt8} {s : State}

theorem nextIdx_eq {i : Nat} (inside : i < bufSize) : nextIdx bufSize i = Ring.next bufSize i := by
  unfold nextIdx Ring.next
  split_ifs <;> omega

theorem nextIdx_lt (some : 0 < bufSize) (i : Nat) : nextIdx bufSize i < bufSize := by
  unfold nextIdx
  split_ifs <;> omega

theorem initial_valid (some : 0 < bufSize) : Valid bufSize initial := ⟨some,some⟩

theorem Valid.put (valid : Valid bufSize s) (data : List UInt8) : Valid bufSize (put bufSize data s) := by
  induction data generalizing s with
  | nil => exact valid
  | cons b data ih =>
    rw [BleTx.put]
    split_ifs with full
    · exact valid
    · exact ih ⟨valid.rd,nextIdx_lt (Nat.zero_lt_of_lt valid.rd) _⟩

theorem Valid.handle (valid : Valid bufSize s) (event : Event) : Valid bufSize (handle bufSize s event) := by
  have some : 0 < bufSize := Nat.zero_lt_of_lt valid.rd
  cases event with
  | response connected =>
    cases connected
    · exact ⟨valid.rd,valid.wr⟩
    · exact ⟨valid.wr,valid.wr⟩
  | transfer input =>
    cases input with
    | bleSend data =>
      rw [BleTx.handle,step,bleSend]
      split_ifs
      · exact valid
      · exact valid.put data
    | bleTask accepts =>
      rw [BleTx.handle,step,bleTask]
      split_ifs
      · exact valid
      · exact valid
      · exact valid
      · exact ⟨nextIdx_lt some _,valid.wr⟩

/-- After a connection line the byte under the read index is the stale one. -/
theorem Valid.shifted (valid : Valid bufSize s) :
    Shifted bufSize (s.txBuf s.txBufWrIdx) (processResponse true s) where
  rd := valid.wr
  wr := valid.wr
  connected := rfl
  stream := by
    have none : Ring.contents bufSize s.txBuf s.txBufWrIdx s.txBufWrIdx = [] := by
      rw [Ring.contents,Ring.window_self,List.map_nil]
    change [] ++ Ring.contents bufSize s.txBuf s.txBufWrIdx s.txBufWrIdx ++ [s.txBuf s.txBufWrIdx] = _
    rw [none]
    rfl

theorem gap_push (valid : Valid bufSize s) (free : nextIdx bufSize s.txBufWrIdx ≠ s.txBufRdIdx) :
    Ring.gap bufSize s.txBufRdIdx (nextIdx bufSize s.txBufWrIdx) = Ring.gap bufSize s.txBufRdIdx s.txBufWrIdx + 1 := by
  rw [nextIdx_eq valid.wr] at free ⊢
  rw [← Ring.window_length,Ring.window_push valid.rd valid.wr free,List.length_append,Ring.window_length]
  rfl

theorem gap_pop (valid : Valid bufSize s) (some : s.txBufWrIdx ≠ s.txBufRdIdx) :
    Ring.gap bufSize s.txBufRdIdx s.txBufWrIdx = Ring.gap bufSize (nextIdx bufSize s.txBufRdIdx) s.txBufWrIdx + 1 := by
  rw [nextIdx_eq valid.rd,← Ring.window_length,Ring.window_pop valid.rd valid.wr some.symm,List.length_cons,Ring.window_length]

/-- There is room as long as the writer does not come upon the reader. -/
theorem room_eq_zero (valid : Valid bufSize s) : room bufSize s = 0 ↔ nextIdx bufSize s.txBufWrIdx = s.txBufRdIdx := by
  have rd := valid.rd
  have wr := valid.wr
  unfold room nextIdx Ring.gap
  split_ifs <;> omega

theorem Shifted.push (shifted : Shifted bufSize stale s) (free : nextIdx bufSize s.txBufWrIdx ≠ s.txBufRdIdx) (b : UInt8) :
    Shifted bufSize stale {s with
      txBuf := Function.update s.txBuf (nextIdx bufSize s.txBufWrIdx) b
      txBufWrIdx := nextIdx bufSize s.txBufWrIdx
      accepted := s.accepted ++ [b]} where
  rd := shifted.rd
  wr := nextIdx_lt (Nat.zero_lt_of_lt shifted.rd) _
  connected := shifted.connected
  stream := by
    have same := nextIdx_eq shifted.wr
    have idxIn := nextIdx_lt (Nat.zero_lt_of_lt shifted.rd) s.txBufWrIdx
    have stored : Ring.contents bufSize (Function.update s.txBuf (nextIdx bufSize s.txBufWrIdx) b) s.txBufRdIdx
        (nextIdx bufSize s.txBufWrIdx) = Ring.contents bufSize s.txBuf s.txBufRdIdx s.txBufWrIdx ++ [s.txBuf s.txBufWrIdx] := by
      have untouched : (Ring.window bufSize s.txBufRdIdx (nextIdx bufSize s.txBufWrIdx)).map
          (Function.update s.txBuf (nextIdx bufSize s.txBufWrIdx) b) =
          (Ring.window bufSize s.txBufRdIdx (nextIdx bufSize s.txBufWrIdx)).map s.txBuf := by
        apply List.map_congr_left
        intro i member
        exact Function.update_of_ne (Ring.mem_window shifted.rd idxIn member).2 b s.txBuf
      rw [Ring.contents,untouched,same,Ring.window_push shifted.rd shifted.wr (same ▸ free),List.map_append]
      rfl
    dsimp only
    rw [stored,Function.update_self,← List.append_assoc,shifted.stream,List.cons_append]

theorem Shifted.pop (shifted : Shifted bufSize stale s) (some : s.txBufWrIdx ≠ s.txBufRdIdx) :
    Shifted bufSize stale {s with
      txBufRdIdx := nextIdx bufSize s.txBufRdIdx
      written := s.written ++ [s.txBuf s.txBufRdIdx]} where
  rd := nextIdx_lt (Nat.zero_lt_of_lt shifted.rd) _
  wr := shifted.wr
  connected := shifted.connected
  stream := by
    have stream := shifted.stream
    rw [Ring.contents_pop s.txBuf shifted.rd shifted.wr some.symm] at stream
    rw [nextIdx_eq shifted.rd,List.append_assoc s.written]
    exact stream

theorem put_spec (shifted : Shifted bufSize stale s) (data : List UInt8) :
    Shifted bufSize stale (put bufSize data s) ∧ (put bufSize data s).accepted = s.accepted ++ data.take (room bufSize s) := by
  induction data generalizing s with
  | nil => exact ⟨shifted,by rw [List.take_nil,List.append_nil]; rfl⟩
  | cons b data ih =>
    rw [put]
    split_ifs with full
    · rw [(room_eq_zero shifted.toValid).mpr full,List.take_zero,List.append_nil]
      exact ⟨shifted,rfl⟩
    · obtain ⟨next,taken⟩ := ih (shifted.push full b)
      have some : room bufSize s ≠ 0 := fun none => full ((room_eq_zero shifted.toValid).mp none)
      have less : room bufSize s = room bufSize {s with
          txBuf := Function.update s.txBuf (nextIdx bufSize s.txBufWrIdx) b
          txBufWrIdx := nextIdx bufSize s.txBufWrIdx
          accepted := s.accepted ++ [b]} + 1 := by
        have grown := gap_push shifted.toValid full
        unfold room at some ⊢
        dsimp only
        omega
      refine ⟨next,taken.trans ?_⟩
      rw [less,List.take_succ_cons,List.append_assoc]
      rfl

theorem step_accepted (shifted : Shifted bufSize stale s) (input : Input) :
    (step bufSize s input).accepted = s.accepted ++ taken bufSize s input := by
  cases input with
  | bleSend data =>
    rw [step,bleSend,if_neg (by simp [shifted.connected])]
    exact (put_spec shifted data).2
  | bleTask accepts =>
    rw [step,bleTask,taken,List.append_nil]
    split_ifs <;> rfl

theorem Shifted.step (shifted : Shifted bufSize stale s) (input : Input) : Shifted bufSize stale (step bufSize s input) := by
  cases input with
  | bleSend data =>
    rw [BleTx.step,bleSend,if_neg (by simp [shifted.connected])]
    exact (put_spec shifted data).1
  | bleTask accepts =>
    rw [BleTx.step,bleTask]
    split_ifs with _ some _
    · exact shifted
    · exact shifted
    · exact shifted
    · exact shifted.pop some

/-- After as many rounds as bytes are stored the UART has one byte less than the stale one and all others. -/
theorem Shifted.drained (shifted : Shifted bufSize stale s) {rounds : Nat}
    (enough : Ring.gap bufSize s.txBufRdIdx s.txBufWrIdx ≤ rounds) :
    (Run.run (BleTx.step bufSize) s (List.replicate rounds (.bleTask true))).written = (stale :: s.accepted).dropLast := by
  induction rounds generalizing s with
  | zero =>
    have empty : Ring.window bufSize s.txBufRdIdx s.txBufWrIdx = [] := by
      rw [← List.length_eq_zero_iff,Ring.window_length]
      exact Nat.le_zero.mp enough
    have stream := shifted.stream
    rw [Ring.contents,empty,List.map_nil,List.append_nil] at stream
    rw [← stream,List.dropLast_concat]
    rfl
  | succ rounds ih =>
    rw [List.replicate_succ,Run.run_cons]
    by_cases empty : s.txBufWrIdx = s.txBufRdIdx
    · have still : BleTx.step bufSize s (.bleTask true) = s := by
        rw [BleTx.step,bleTask,if_neg (by simp [shifted.connected]),if_pos empty]
      rw [still]
      apply ih shifted
      rw [empty,Ring.gap,if_pos (Nat.le_refl _),Nat.sub_self]
      exact Nat.zero_le _
    · have popped : BleTx.step bufSize s (.bleTask true) = {s with
          txBufRdIdx := nextIdx bufSize s.txBufRdIdx
          written := s.written ++ [s.txBuf s.txBufRdIdx]} := by
        rw [BleTx.step,bleTask,if_neg (by simp [shifted.connected]),if_neg empty,if_neg Bool.noConfusion]
      have less := gap_pop shifted.toValid empty
      rw [popped]
      exact ih (shifted.pop empty) (by dsimp only; omega)

end Invariant

section Delivery

variable {bufSize : Nat} {stale : UInt8} {s : State}

/-- Bytes shifted by one stay the same if they are all that byte. -/
theorem dropLast_cons_eq {α : Type} {a : α} {l : List α} : (a :: l).dropLast = l ↔ ∀ b ∈ l, b = a := by
  induction l generalizing a with
  | nil => simp
  | cons b l ih =>
    rw [List.dropLast_cons_cons,List.cons.injEq,ih]
    constructor
    · rintro ⟨rfl,rest⟩ c member
      rcases List.mem_cons.mp member with rfl | later
      · rfl
      · exact rest c later
    · intro all
      have same := all b List.mem_cons_self
      exact ⟨same.symm,fun c later => (all c (List.mem_cons_of_mem b later)).trans same.symm⟩

theorem Shifted.delivered_iff (shifted : Shifted bufSize stale s) : Delivered bufSize s ↔ ∀ b ∈ s.accepted, b = stale := by
  constructor
  · rintro ⟨_,enough,all⟩
    have drained := shifted.drained (Nat.le_max_left (Ring.gap bufSize s.txBufRdIdx s.txBufWrIdx) enough)
    rw [all _ (Nat.le_max_right _ _)] at drained
    exact dropLast_cons_eq.mp drained.symm
  · intro same
    have shift := dropLast_cons_eq.mpr same
    refine ⟨?_,Ring.gap bufSize s.txBufRdIdx s.txBufWrIdx,fun rounds enough => (shifted.drained enough).trans shift⟩
    have stream := shifted.stream
    rw [← shift,← stream,List.dropLast_concat]
    exact List.prefix_append _ _

/-- While a client is connected, its bytes are delivered exactly if they all are the byte that was left in
the slot under the read index. -/
theorem delivered_iff_repeats {bufSize : Nat} (some : 0 < bufSize) (before : List Event) (session : List Input) :
    (∀ first rest, session = first ++ rest →
      Delivered bufSize (Run.run (step bufSize) (processResponse true (Run.run (handle bufSize) initial before)) first)) ↔
    Run.Admits (step bufSize)
      (Repeats bufSize ((Run.run (handle bufSize) initial before).txBuf (Run.run (handle bufSize) initial before).txBufWrIdx))
      (processResponse true (Run.run (handle bufSize) initial before)) session := by
  have valid : Valid bufSize (Run.run (handle bufSize) initial before) :=
    Run.run_invariant _ (fun _ _ => True) (Valid bufSize) (fun _ event valid _ => valid.handle event) initial before
      (initial_valid some) (Run.admits_of_forall _ _ _ _ fun _ _ _ => trivial)
  generalize Run.run (handle bufSize) initial before = s at valid
  apply Run.always_iff_admits (step bufSize) (Repeats bufSize (s.txBuf s.txBufWrIdx))
    (fun s' => Shifted bufSize (s.txBuf s.txBufWrIdx) s' ∧ ∀ b ∈ s'.accepted, b = s.txBuf s.txBufWrIdx) (Delivered bufSize)
  · exact fun s' inv => inv.1.delivered_iff.mpr inv.2
  · rintro s' input ⟨shifted,same⟩ repeats
    refine ⟨shifted.step input,?_⟩
    rw [step_accepted shifted input]
    intro b member
    rcases List.mem_append.mp member with old | new
    · exact same b old
    · exact repeats b new
  · rintro s' input ⟨shifted,same⟩ other delivered
    have all := (shifted.step input).delivered_iff.mp delivered
    rw [step_accepted shifted input] at all
    exact other fun b member => all b (List.mem_append_right _ member)
  · exact ⟨valid.shifted,fun b member => absurd member List.not_mem_nil⟩

theorem delivered_iff_repeats_nul :
    Delivered 256 (Run.run (step 256) (processResponse true (Run.run (handle 256) initial [])) [.bleSend [0,0],.bleTask true]) :=
  (delivered_iff_repeats (by decide) [] [.bleSend [0,0],.bleTask true]).mpr
    ⟨by unfold Repeats; decide +kernel,by unfold Repeats; decide +kernel,trivial⟩ _ [] (List.append_nil _).symm

/-- The first byte that a fresh unit writes is not the one that was sent. -/
theorem first_byte_stale :
    ¬ Delivered 256 (Run.run (step 256) (processResponse true initial) [.bleSend [0x41],.bleTask true]) := by
  rintro ⟨inOrder,_⟩
  exact absurd inOrder (by decide)

end Delivery

end JcaFirmware.BleTx
