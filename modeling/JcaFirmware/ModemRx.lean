import JcaFirmware.Foundation.Lines
import JcaFirmware.Foundation.Memory
import JcaFirmware.Foundation.Run
import JcaFirmware.Modem

/-! The receiver of the modem (`modem_at_rx` in `modem/modem_at.c`), byte by byte: lines are put together in `rx_buf`, which
is full at some length, and are handled where they end. -/
namespace JcaFirmware.ModemRx
open Foundation Numeral CText
open Modem (Sdk Line)

def modemAtRxBufSize : Nat := 2048

/-- The text at the front of a buffer. -/
@[irreducible] def textOf (buf : Bytes) : List UInt8 := cString (buf.read 0 modemAtRxBufSize)

def Terminated (buf : Bytes) : Prop := ∃ i < modemAtRxBufSize, buf i = 0

/-- What the line handlers meet. -/
structure Presented where
  rxBuf : Bytes
  bufLen : Nat
  now : Nat

def Presented.line (p : Presented) : Line := ⟨textOf p.rxBuf,p.bufLen,p.now⟩

/-- The receiver of `modem_at_t`, with its flag `AT_ST_RAB`; the other flags and what is parsed of a line are in the modem. -/
structure Rx where
  rxBuf : Bytes
  bufLen : Nat
  response : Bytes
  rab : Bool
  modem : Modem.State

section Code

variable (sdk : Sdk)

/-- A line that is nothing else is copied, if it is what is waited for. -/
def copied (m : Modem.State) (line : Line) : Bool :=
  if Modem.stricmp line.rxBuf (ascii "OK") then false
  else if Modem.stricmp line.rxBuf (ascii "ERROR") then false
  else
    match Modem.modemParseUrc sdk {m with modemAt := {m.modemAt with line := true}} line with
    | (true,_) => false
    | (false,m) =>
      if m.modemAt.responseLen = 0 then
        match m.modemAt.userStr with
        | some str => sameUpTo str.length line.rxBuf str
        | none => true
      else false

def modemAtRx (rxChar : UInt8) (now : Nat) (s : Rx) : Rx × Option Presented :=
  let rxChar := if rxChar = 0x0A ∨ rxChar = 0x0D then 0 else rxChar
  let rxBuf := s.rxBuf.write s.bufLen [rxChar]
  let bufLen := if s.bufLen < modemAtRxBufSize - 1 then s.bufLen + 1 else s.bufLen
  if rxChar = 0 then
    if 1 < bufLen then
      let presented : Presented := ⟨rxBuf,bufLen,now⟩
      let response := if copied sdk s.modem presented.line then s.response.write 0 (rxBuf.read 0 bufLen) else s.response
      (⟨rxBuf,0,response,s.rab,Modem.modemAtRx sdk s.modem presented.line⟩,some presented)
    else ({s with rxBuf := rxBuf, bufLen := 0},none)
  else ({s with rxBuf := rxBuf, bufLen := bufLen, rab := s.rab || rxChar = 0x3E},none)

def clrResponse (s : Rx) : Rx :=
  {s with
    response := s.response.write 0 [0]
    rab := false
    modem := {s.modem with modemAt := {s.modem.modemAt with
      ok := false, error := false, userStrFound := false, line := false, response := [], responseLen := 0, userStr := none}}}

/-- Behind `modem_at_init`, with anything in the rest of the modem. -/
def modemAtInit (modem : Modem.State) : Rx := ⟨fun _ => 0,0,fun _ => 0,false,modem⟩

/-- A received byte, or what other tasks do between two: they clear the response, and change the modem in any way outside of
the two buffers. -/
inductive Input
  | rx (c : UInt8) (now : Nat)
  | clrResponse
  | elsewhere (rab : Bool) (modem : Modem.State)

/-- The receiver, and what it has presented so far. -/
abbrev Trace := Rx × List Presented

def step (t : Trace) : Input → Trace
  | .rx c now =>
    let (s,presented) := modemAtRx sdk c now t.1
    (s,t.2 ++ presented.toList)
  | .clrResponse => (clrResponse t.1,t.2)
  | .elsewhere rab modem => ({t.1 with rab := rab, modem := modem},t.2)

end Code

section Stream

/-- A NUL ends a line too. -/
def lineEnd (c : UInt8) : Bool := c = 0x0A ∨ c = 0x0D ∨ c = 0

def heard : List Input → List UInt8
  | [] => []
  | .rx c _ :: inputs => c :: heard inputs
  | _ :: inputs => heard inputs

/-- The lines of a stream that have ended, but for the empty ones. -/
def linesOf (stream : List UInt8) : List (List UInt8) := (stream.splitOnP lineEnd).dropLast.filter fun line => line ≠ []

def lineLimit : Nat := modemAtRxBufSize - 1

theorem linesOf_eq (stream : List UInt8) : linesOf stream = (Lines.cut lineEnd stream).done.filter fun line => line ≠ [] := by
  rw [linesOf,Lines.cut_done]

theorem heard_concat (inputs : List Input) (input : Input) : heard (inputs ++ [input]) = heard inputs ++ heard [input] := by
  induction inputs with
  | nil => rfl
  | cons first inputs ih =>
    cases first with
    | rx c now => exact congrArg (c :: ·) ih
    | clrResponse => exact ih
    | elsewhere rab modem => exact ih

theorem lineEnd_iff (c : UInt8) : lineEnd c = true ↔ (if c = 0x0A ∨ c = 0x0D then 0 else c) = (0 : UInt8) := by
  rw [lineEnd,decide_eq_true_iff]
  split_ifs with ends
  · exact iff_of_true (ends.elim Or.inl fun cr => Or.inr (Or.inl cr)) rfl
  · constructor
    · rintro (lf | cr | nul)
      · exact absurd (Or.inl lf) ends
      · exact absurd (Or.inr cr) ends
      · exact nul
    · exact fun nul => Or.inr (Or.inr nul)

theorem char_inside {c : UInt8} (inside : lineEnd c = false) : (if c = 0x0A ∨ c = 0x0D then 0 else c) = c := by
  apply if_neg
  rintro (rfl | rfl)
  · exact absurd inside (by decide)
  · exact absurd inside (by decide)

end Stream

section Buffer

/-- A text in front of a NUL is the text of the buffer. -/
theorem textOf_eq {buf : Bytes} {len : Nat} (short : len < modemAtRxBufSize) (nulFree : 0 ∉ buf.read 0 len) (nul : buf len = 0) :
    textOf buf = buf.read 0 len := by
  have split := buf.read_add 0 len (modemAtRxBufSize - len)
  obtain ⟨more,count⟩ : ∃ more, modemAtRxBufSize - len = more + 1 := ⟨modemAtRxBufSize - len - 1,by omega⟩
  have behind : buf.read (0 + len) (more + 1) = 0 :: buf.read (len + 1) more := by
    rw [Nat.zero_add,Nat.add_comm more 1,Bytes.read_add,← nul]
    rfl
  rw [Nat.add_sub_cancel' (Nat.le_of_lt short),count,behind] at split
  unfold textOf
  rw [split,cString_append nulFree,cString_nul,List.append_nil]

/-- What a character does to the front of the buffer; where it is full, only its last place changes. -/
theorem read_next {buf : Bytes} {tail : List UInt8} {len : Nat} (counted : len = min tail.length lineLimit)
    (kept : buf.read 0 len = tail.take lineLimit) (c : UInt8) :
    (buf.write len [c]).read 0 (min (tail.length + 1) lineLimit) = (tail ++ [c]).take lineLimit := by
  have size : lineLimit = 2047 := rfl
  have untouched : (buf.write len [c]).read 0 len = buf.read 0 len := Bytes.read_write_apart buf (by right; omega)
  by_cases room : tail.length < lineLimit
  · have whole : min (tail.length + 1) lineLimit = len + 1 := by omega
    have one : (buf.write len [c]).read (0 + len) 1 = [c] := by
      rw [Nat.zero_add]
      exact Bytes.read_write buf len [c]
    rw [whole,Bytes.read_add,untouched,one,kept,List.take_of_length_le (Nat.le_of_lt room),List.take_of_length_le (by simp; omega)]
  · have full : min (tail.length + 1) lineLimit = len := by omega
    rw [full,untouched,kept,List.take_append_of_le_length (Nat.not_lt.mp room)]

end Buffer

section Receiver

/-- What has been heard is in the buffer as far as it belongs to the line that has not ended, and else has been presented. -/
structure Holds (stream : List UInt8) (t : Trace) : Prop where
  counted : t.1.bufLen = min (Lines.cut lineEnd stream).tail.length lineLimit
  kept : t.1.rxBuf.read 0 t.1.bufLen = (Lines.cut lineEnd stream).tail.take lineLimit
  last : t.1.response lineLimit = 0
  terminated : ∀ p ∈ t.2, Terminated p.rxBuf
  texts : t.2.map (fun p => textOf p.rxBuf) = (linesOf stream).map (List.take lineLimit)

variable (sdk : Sdk)

theorem start_holds (modem : Modem.State) : Holds [] (modemAtInit modem,[]) := ⟨rfl,rfl,rfl,fun _ => nofun,rfl⟩

/-- The last place of the response is never written. -/
theorem response_last {response : Bytes} (last : response lineLimit = 0) {bytes : List UInt8} (short : bytes.length ≤ lineLimit) :
    response.write 0 bytes lineLimit = 0 := by
  rw [Bytes.write_outside response (by right; omega)]
  exact last

theorem nul_not_tail (stream : List UInt8) : 0 ∉ ((Lines.cut lineEnd stream).tail).take lineLimit := fun member =>
  absurd (Lines.cut_tail_plain lineEnd stream 0 (List.mem_of_mem_take member)) (by decide)

theorem inside_holds {stream : List UInt8} {t : Trace} (holds : Holds stream t) {c : UInt8} (inside : lineEnd c = false) (now : Nat) :
    Holds (stream ++ [c]) (step sdk t (.rx c now)) := by
  have size : lineLimit = 2047 := rfl
  have counted := holds.counted
  have next : Lines.cut lineEnd (stream ++ [c]) = ⟨(Lines.cut lineEnd stream).done,(Lines.cut lineEnd stream).tail ++ [c]⟩ := by
    rw [Lines.cut_concat,Lines.Cut.next,if_neg (by simp [inside])]
  have going : ¬ c = 0 := fun nul => absurd ((lineEnd_iff c).mpr ((char_inside inside).trans nul)) (by simp [inside])
  have stepped : step sdk t (.rx c now) =
      ({t.1 with
        rxBuf := t.1.rxBuf.write t.1.bufLen [c]
        bufLen := min ((Lines.cut lineEnd stream).tail.length + 1) lineLimit
        rab := t.1.rab || c = 0x3E},t.2) := by
    have more : (if t.1.bufLen < modemAtRxBufSize - 1 then t.1.bufLen + 1 else t.1.bufLen) =
        min ((Lines.cut lineEnd stream).tail.length + 1) lineLimit := by
      change (if t.1.bufLen < lineLimit then _ else _) = _
      split_ifs <;> omega
    rw [step,modemAtRx,char_inside inside,more]
    dsimp only
    rw [if_neg going]
    simp
  rw [stepped]
  refine ⟨?_,?_,holds.last,holds.terminated,?_⟩
  · rw [next,List.length_append,List.length_singleton]
  · rw [next]
    exact read_next counted holds.kept c
  · rw [linesOf_eq,next,← linesOf_eq]
    exact holds.texts

/-- The end of a line closes the text that is in the buffer. -/
theorem text_ended {stream : List UInt8} {t : Trace} (holds : Holds stream t) :
    t.1.bufLen < modemAtRxBufSize ∧ t.1.rxBuf.write t.1.bufLen [0] t.1.bufLen = 0 ∧
      (t.1.rxBuf.write t.1.bufLen [0]).read 0 t.1.bufLen = (Lines.cut lineEnd stream).tail.take lineLimit ∧
      textOf (t.1.rxBuf.write t.1.bufLen [0]) = (Lines.cut lineEnd stream).tail.take lineLimit := by
  have size : lineLimit = 2047 := rfl
  have full : modemAtRxBufSize = 2048 := rfl
  have counted := holds.counted
  have short : t.1.bufLen < modemAtRxBufSize := by omega
  have ended : t.1.rxBuf.write t.1.bufLen [0] t.1.bufLen = 0 := by
    rw [Bytes.write_get _ (Nat.le_refl _) (by simp),Nat.sub_self]
    rfl
  have front : (t.1.rxBuf.write t.1.bufLen [0]).read 0 t.1.bufLen = (Lines.cut lineEnd stream).tail.take lineLimit := by
    rw [Bytes.read_write_apart t.1.rxBuf (by right; omega),holds.kept]
  refine ⟨short,ended,front,?_⟩
  rw [textOf_eq short _ ended,front]
  rw [front]
  exact nul_not_tail stream

theorem end_holds {stream : List UInt8} {t : Trace} (holds : Holds stream t) {c : UInt8} (ends : lineEnd c = true) (now : Nat) :
    Holds (stream ++ [c]) (step sdk t (.rx c now)) := by
  have size : lineLimit = 2047 := rfl
  have full : modemAtRxBufSize = 2048 := rfl
  have counted := holds.counted
  have next : Lines.cut lineEnd (stream ++ [c]) = ⟨(Lines.cut lineEnd stream).done ++ [(Lines.cut lineEnd stream).tail],[]⟩ := by
    rw [Lines.cut_concat,Lines.Cut.next,if_pos ends]
  have nul := (lineEnd_iff c).mp ends
  obtain ⟨short,ended,_,text⟩ := text_ended holds
  rw [step,modemAtRx]
  dsimp only
  rw [nul,if_pos rfl]
  generalize grown : (if t.1.bufLen < modemAtRxBufSize - 1 then t.1.bufLen + 1 else t.1.bufLen) = bufLen
  have most : bufLen ≤ lineLimit ∧ (1 < bufLen ↔ 0 < (Lines.cut lineEnd stream).tail.length) := by
    split_ifs at grown <;> omega
  by_cases empty : (Lines.cut lineEnd stream).tail = []
  · rw [if_neg fun some => absurd (most.2.mp some) (by simp [empty])]
    refine ⟨?_,?_,holds.last,?_,?_⟩
    · rw [next]; rfl
    · rw [next]; rfl
    · simpa using holds.terminated
    · rw [linesOf_eq,next,List.filter_append,← linesOf_eq,empty]
      simpa using holds.texts
  · have some := List.length_pos_iff.mpr empty
    rw [if_pos (most.2.mpr some)]
    refine ⟨?_,?_,?_,?_,?_⟩
    · rw [next]; rfl
    · rw [next]; rfl
    · dsimp only
      split_ifs
      · exact response_last holds.last (by rw [Bytes.length_read]; exact most.1)
      · exact holds.last
    · intro p member
      rcases List.mem_append.mp member with old | new
      · exact holds.terminated p old
      · obtain rfl := List.mem_singleton.mp new
        exact ⟨t.1.bufLen,short,ended⟩
    · rw [linesOf_eq,next,List.filter_append,← linesOf_eq,List.map_append,List.map_append,holds.texts]
      simp [empty,text]

theorem step_holds {stream : List UInt8} {t : Trace} (holds : Holds stream t) (input : Input) :
    Holds (stream ++ heard [input]) (step sdk t input) := by
  cases input with
  | rx c now =>
    cases ends : lineEnd c with
    | true => exact end_holds sdk holds ends now
    | false => exact inside_holds sdk holds ends now
  | clrResponse =>
    have quiet : heard [.clrResponse] = [] := rfl
    have last : (clrResponse t.1).response lineLimit = 0 := @response_last t.1.response holds.last [0] (by decide)
    rw [quiet,List.append_nil]
    exact ⟨holds.counted,holds.kept,last,holds.terminated,holds.texts⟩
  | elsewhere rab modem =>
    have quiet : heard [.elsewhere rab modem] = [] := rfl
    rw [quiet,List.append_nil]
    exact ⟨holds.counted,holds.kept,holds.last,holds.terminated,holds.texts⟩

theorem run_holds (modem : Modem.State) (inputs : List Input) :
    Holds (heard inputs) (Run.run (step sdk) (modemAtInit modem,[]) inputs) := by
  induction inputs using List.reverseRecOn with
  | nil => exact start_holds modem
  | append_singleton inputs input ih =>
    rw [Run.run_append,heard_concat]
    exact step_holds sdk ih input

/-- The modem takes a copied line for its response. -/
theorem copied_response {m : Modem.State} {line : Line} (long : 1 < line.bufLen) (copy : copied sdk m line = true) :
    (Modem.modemAtRx sdk m line).modemAt.response = line.rxBuf ∧ (Modem.modemAtRx sdk m line).modemAt.responseLen = line.bufLen := by
  unfold copied at copy
  rw [Modem.modemAtRx,if_neg (Nat.not_le.mpr long)]
  dsimp only
  split_ifs at copy with ok error
  rw [if_neg ok,if_neg error]
  cases parsed : Modem.modemParseUrc sdk {m with modemAt := {m.modemAt with line := true}} line with
  | mk handled m' =>
    rw [parsed] at copy
    cases handled with
    | true => exact absurd copy nofun
    | false =>
      dsimp only at copy
      split_ifs at copy with free
      dsimp only
      rw [Modem.respond,if_neg (not_not.mpr free)]
      cases waited : m'.modemAt.userStr with
      | none => exact ⟨rfl,rfl⟩
      | some str =>
        rw [waited] at copy
        dsimp only
        rw [if_pos copy]
        exact ⟨rfl,rfl⟩

/-- A copied response holds the whole text of its line, also where its length leaves out the NUL. -/
theorem response_copied {stream : List UInt8} {t : Trace} (holds : Holds stream t) {c : UInt8} {now : Nat} {s : Rx} {p : Presented}
    (presented : modemAtRx sdk c now t.1 = (s,some p)) (copy : copied sdk t.1.modem p.line = true) :
    textOf s.response = p.line.rxBuf ∧ s.modem.modemAt.response = textOf s.response := by
  have size : lineLimit = 2047 := rfl
  have full : modemAtRxBufSize = 2048 := rfl
  have counted := holds.counted
  obtain ⟨short,ended,front,text⟩ := text_ended holds
  rw [modemAtRx] at presented
  dsimp only at presented
  generalize grown : (if t.1.bufLen < modemAtRxBufSize - 1 then t.1.bufLen + 1 else t.1.bufLen) = bufLen at presented
  have most : bufLen = t.1.bufLen + 1 ∨ bufLen = t.1.bufLen ∧ t.1.bufLen = lineLimit := by
    split_ifs at grown <;> omega
  by_cases nul : (if c = 0x0A ∨ c = 0x0D then 0 else c) = 0
  · rw [nul,if_pos rfl] at presented
    by_cases some : 1 < bufLen
    · rw [if_pos some] at presented
      obtain ⟨rfl,same⟩ := Prod.mk.inj presented
      obtain rfl := Option.some.inj same
      have parsed := (copied_response sdk some copy).1
      generalize t.1.rxBuf.write t.1.bufLen [0] = rxBuf at *
      have copiedFront : (t.1.response.write 0 (rxBuf.read 0 bufLen)).read 0 t.1.bufLen = rxBuf.read 0 t.1.bufLen := by
        have whole := t.1.response.read_write 0 (rxBuf.read 0 bufLen)
        rw [Bytes.length_read] at whole
        rw [← Bytes.take_read _ (by omega : t.1.bufLen ≤ bufLen),whole,Bytes.take_read _ (by omega)]
      have copiedEnd : t.1.response.write 0 (rxBuf.read 0 bufLen) t.1.bufLen = 0 := by
        rcases most with nulCopied | ⟨same,atEnd⟩
        · rw [Bytes.write_get _ (Nat.zero_le _) (by rw [Bytes.length_read]; omega),Bytes.getD_read _ (by omega),Nat.zero_add,Nat.sub_zero]
          exact ended
        · rw [atEnd]
          exact response_last holds.last (by rw [Bytes.length_read]; omega)
      have same : textOf (t.1.response.write 0 (rxBuf.read 0 bufLen)) = textOf rxBuf := by
        rw [text,← front,textOf_eq short _ copiedEnd,copiedFront]
        rw [copiedFront,front]
        exact nul_not_tail stream
      dsimp only
      rw [if_pos copy,same]
      exact ⟨rfl,parsed⟩
    · rw [if_neg some] at presented
      exact absurd (Prod.mk.inj presented).2 nofun
  · rw [if_neg nul] at presented
    exact absurd (Prod.mk.inj presented).2 nofun

theorem modemAtRx_modem (c : UInt8) (now : Nat) (s : Rx) :
    (modemAtRx sdk c now s).1.modem = (modemAtRx sdk c now s).2.elim s.modem fun p => Modem.modemAtRx sdk s.modem p.line := by
  rw [modemAtRx]
  generalize (if c = 0x0A ∨ c = 0x0D then 0 else c) = rxChar
  generalize (if s.bufLen < modemAtRxBufSize - 1 then s.bufLen + 1 else s.bufLen) = bufLen
  dsimp only
  split_ifs <;> rfl

/-- The lines that are presented drive the modem as whole lines do. -/
theorem modem_lines (modem : Modem.State) (bytes : List (UInt8 × Nat)) :
    let t := Run.run (step sdk) (modemAtInit modem,[]) (bytes.map fun b => .rx b.1 b.2)
    t.1.modem = Run.run (Modem.modemAtRx sdk) modem (t.2.map Presented.line) := by
  induction bytes using List.reverseRecOn with
  | nil => rfl
  | append_singleton bytes b ih =>
    dsimp only at ih ⊢
    rw [List.map_append,Run.run_append]
    generalize Run.run (step sdk) (modemAtInit modem,[]) (bytes.map fun b => .rx b.1 b.2) = t at ih ⊢
    have own := modemAtRx_modem sdk b.1 b.2 t.1
    change (modemAtRx sdk b.1 b.2 t.1).1.modem =
      Run.run (Modem.modemAtRx sdk) modem ((t.2 ++ (modemAtRx sdk b.1 b.2 t.1).2.toList).map Presented.line)
    rw [own,ih,List.map_append,Run.run_append]
    cases (modemAtRx sdk b.1 b.2 t.1).2 <;> rfl

/-- A line that is cut is as long as the limit. -/
theorem filter_whole (limit : Nat) (lines : List (List UInt8)) :
    (lines.map (List.take limit)).filter (fun line => line.length < limit) = lines.filter fun line => line.length < limit := by
  induction lines with
  | nil => rfl
  | cons line lines ih =>
    rw [List.map_cons,List.filter_cons,List.filter_cons,ih,List.length_take]
    by_cases short : line.length < limit
    · rw [if_pos (by simp [short]),if_pos (by simp [short]),List.take_of_length_le (Nat.le_of_lt short)]
    · rw [if_neg (by simp [short]),if_neg (by simp [short])]

/-- The handlers are called for a byte exactly if it presents a line, and with that line; a response that is filled is its text. -/
structure Handled (c : UInt8) (now : Nat) (s : Rx) : Prop where
  modem : (modemAtRx sdk c now s).1.modem = (modemAtRx sdk c now s).2.elim s.modem fun p => Modem.modemAtRx sdk s.modem p.line
  response : ∀ p ∈ (modemAtRx sdk c now s).2, copied sdk s.modem p.line = true →
    textOf (modemAtRx sdk c now s).1.response = p.line.rxBuf ∧
      (modemAtRx sdk c now s).1.modem.modemAt.response = textOf (modemAtRx sdk c now s).1.response

theorem Holds.handled {stream : List UInt8} {t : Trace} (holds : Holds stream t) (c : UInt8) (now : Nat) : Handled sdk c now t.1 where
  modem := modemAtRx_modem sdk c now t.1
  response p member copy := by
    have presented : modemAtRx sdk c now t.1 = ((modemAtRx sdk c now t.1).1,some p) := Prod.ext rfl member
    exact response_copied sdk holds presented copy

/-- Whatever is heard, the index stays inside the buffer, the buffers are terminated, and the lines are presented in their
order, each once, as far as they fit; so those that fit are complete. What is presented is what the handlers get. -/
theorem receiver_presents (modem : Modem.State) (inputs : List Input) :
    let t := Run.run (step sdk) (modemAtInit modem,[]) inputs
    t.1.bufLen < modemAtRxBufSize ∧ Terminated t.1.response ∧ (∀ p ∈ t.2, Terminated p.rxBuf) ∧
      t.2.map (fun p => p.line.rxBuf) = (linesOf (heard inputs)).map (List.take lineLimit) ∧
      (t.2.map fun p => p.line.rxBuf).filter (fun line => line.length < lineLimit) =
        ((linesOf (heard inputs)).filter fun line => line.length < lineLimit) ∧
      (∀ c now, Handled sdk c now t.1) ∧
      ∀ bytes : List (UInt8 × Nat), inputs = bytes.map (fun b => .rx b.1 b.2) →
        t.1.modem = Run.run (Modem.modemAtRx sdk) modem (t.2.map Presented.line) := by
  have holds := run_holds sdk modem inputs
  have size : lineLimit = 2047 := rfl
  have full : modemAtRxBufSize = 2048 := rfl
  have counted := holds.counted
  have texts : (Run.run (step sdk) (modemAtInit modem,[]) inputs).2.map (fun p => p.line.rxBuf) =
    (linesOf (heard inputs)).map (List.take lineLimit) := holds.texts
  dsimp only
  refine ⟨by omega,⟨lineLimit,by omega,holds.last⟩,holds.terminated,texts,?_,holds.handled sdk,?_⟩
  · rw [texts]
    exact filter_whole lineLimit _
  · rintro bytes rfl
    exact modem_lines sdk modem bytes

end Receiver

end JcaFirmware.ModemRx
