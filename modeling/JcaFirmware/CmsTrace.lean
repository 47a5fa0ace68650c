import JcaFirmware.CmsRun

/-! Which record a frame carries, and which records its acknowledgement removes. The
records of the buffer are told apart by tags beside it; the frames sent can be answered
at any later time, any number of times and in any order. -/
namespace JcaFirmware.CmsTrace
open EventBuf Cms CmsSia CmsRun Foundation Foundation.Numeral

structure Trace where
  cms : State Sia
  tags : List Nat
  carried : Nat
  frames : List (List UInt8 × Nat)
  removed : List (Nat × Nat)

inductive Move
  | reinit (cfg : Config)
  | process (w : World) (env : Env)
  | ack (frame port : Nat)
  | nak (frame port : Nat)

/-- The tags of the records in processing. -/
def sendingOf (tags : List Nat) (rs : List Record) : List Nat :=
  (tags.zip rs).filterMap fun x => if x.2.status = .processing then some x.1 else none

def restingOf (tags : List Nat) (rs : List Record) : List Nat :=
  (tags.zip rs).filterMap fun x => if x.2.status = .processing then none else some x.1

/-- The tag of the record that has come into processing. -/
def takenOf : List Nat → List Record → List Record → Option Nat
  | tag :: tags, r :: old, r' :: new =>
    if r.status = .pending ∧ r'.status = .processing then some tag else takenOf tags old new
  | _,_,_ => none

def Trace.processed (t : Trace) (c : State Sia) (sent : Option (List UInt8)) : Trace :=
  let carried := (takenOf t.tags (records t.cms.buf) (records c.buf)).getD t.carried
  {t with cms := c, carried := carried, frames := t.frames ++ sent.toList.map fun packet => (packet,carried)}

def Trace.answered (t : Trace) (answer : List UInt8 → List UInt8) (frame port : Nat) : Except Fault Trace :=
  match t.frames[frame]? with
  | none => .ok t
  | some (packet,carried) => do
    let (_,c) ← cmsUdpRx (cmsProtoSiaIp untexted) (answer packet) port t.cms
    if (records c.buf).length < (records t.cms.buf).length then
      .ok {t with
        cms := c, tags := restingOf t.tags (records t.cms.buf),
        removed := t.removed ++ (sendingOf t.tags (records t.cms.buf)).map fun tag => (tag,carried)}
    else .ok {t with cms := c}

def step (state : Except Fault Trace) (move : Move) : Except Fault Trace := do
  let t ← state
  match move with
  | .reinit cfg => .ok {t with cms := (cmsReinit (cmsProtoSiaIp untexted) cfg t.cms).2}
  | .process w env => do
    let (c,sent) ← cmsMainProcess (cmsProtoSiaIp w) env t.cms
    osAssert (c.proto.fits = true) "cms_sia_ip_build_msg() len"
    .ok (t.processed c sent)
  | .ack frame port => t.answered ackOf frame port
  | .nak frame port => t.answered nakOf frame port

def begun (cfg : Config) (b : Buf) : Trace := ⟨started cfg b,List.range (records b).length,0,[],[]⟩

/-- At most one record is in processing, and what was removed is what the frame
acknowledged had carried. -/
structure Faithful (t : Trace) : Prop where
  single : (processing (records t.cms.buf)).length ≤ 1
  own : ∀ x ∈ t.removed, x.1 = x.2

/-- No message is dropped before it was sent, and no late acknowledgement has the line
of another message that is waited for. -/
def Fresh (state : Except Fault Trace) (move : Move) : Prop :=
  ∀ t, state = .ok t → match move with
    | .reinit _ => t.cms.waiting = true ∨ t.cms.proto.packetOk = false
    | .ack frame port => ∀ packet record, t.frames[frame]? = some (packet,record) → port = t.cms.serverPort →
        t.cms.waiting = true → lineOf packet = line t.cms.proto.cnt t.cms.proto.linePrefix t.cms.proto.account →
          record = t.carried
    | _ => True

section Tags

variable {tags tags' : List Nat} {old new rs rs' : List Record}

theorem sendingOf_length (same : tags.length = rs.length) : (sendingOf tags rs).length = (processing rs).length := by
  induction tags generalizing rs with
  | nil =>
    cases List.eq_nil_of_length_eq_zero same.symm
    rfl
  | cons tag tags ih =>
    cases rs with
    | nil => exact absurd same (by simp)
    | cons r rs =>
      have tail := ih (Nat.succ.inj same)
      unfold sendingOf processing at tail ⊢
      by_cases sent : r.status = .processing
      · simp [sent,tail]
      · simp [sent,tail]

theorem sendingOf_nil (none : ∀ r ∈ rs, r.status ≠ .processing) (tags : List Nat) : sendingOf tags rs = [] := by
  apply List.filterMap_eq_nil_iff.mpr
  intro x member
  exact if_neg (none x.2 (List.of_mem_zip member).2)

theorem restingOf_length (same : tags.length = rs.length) :
    (restingOf tags rs).length = (rs.filterMap (doneRecord true)).length := by
  induction tags generalizing rs with
  | nil =>
    cases List.eq_nil_of_length_eq_zero same.symm
    rfl
  | cons tag tags ih =>
    cases rs with
    | nil => exact absurd same (by simp)
    | cons r rs =>
      have tail := ih (Nat.succ.inj same)
      unfold restingOf at tail ⊢
      by_cases sent : r.status = .processing
      · simp [sent,doneRecord,tail]
      · simp [sent,doneRecord,tail]

theorem done_length (rs : List Record) :
    (rs.filterMap (doneRecord true)).length + (processing rs).length = rs.length := by
  induction rs with
  | nil => rfl
  | cons r rs ih =>
    unfold processing at ih ⊢
    by_cases sent : r.status = .processing
    · simp [doneRecord,sent]
      omega
    · simp [doneRecord,sent]
      omega

theorem done_rests (delivered : Bool) : ∀ r ∈ rs.filterMap (doneRecord delivered), r.status ≠ .processing := by
  intro r member
  obtain ⟨r',_,becomes⟩ := List.mem_filterMap.mp member
  unfold doneRecord at becomes
  split_ifs at becomes with sent
  · cases becomes
    simp
  · cases becomes
    exact sent

theorem sendingOf_cons (tag : Nat) (r : Record) :
    sendingOf (tag :: tags) (r :: rs) = (if r.status = .processing then [tag] else []) ++ sendingOf tags rs := by
  by_cases sent : r.status = .processing
  · simp [sendingOf,sent]
  · simp [sendingOf,sent]

theorem takenOf_same (tags : List Nat) (rs : List Record) : takenOf tags rs rs = none := by
  induction tags generalizing rs with
  | nil => rfl
  | cons tag tags ih =>
    cases rs with
    | nil => rfl
    | cons r rs =>
      rw [takenOf,if_neg (by rintro ⟨pending,sent⟩; exact absurd (pending.symm.trans sent) (by decide))]
      exact ih rs

theorem takenOf_none (rests : ∀ r ∈ new, r.status ≠ .processing) (tags : List Nat) (old : List Record) :
    takenOf tags old new = none := by
  induction tags generalizing old new with
  | nil => rfl
  | cons tag tags ih =>
    cases old with
    | nil => rfl
    | cons r old =>
      cases new with
      | nil => rfl
      | cons r' new =>
        rw [takenOf,if_neg fun sent => rests r' (by simp) sent.2]
        exact ih (fun r member => rests r (by simp [member])) old

theorem Takes.tagged {user : Nat} {r : Record} (takes : Takes user old new r) (same : tags.length = old.length)
    (free : sendingOf tags old = []) :
    new.length = old.length ∧ ∃ tag, takenOf tags old new = some tag ∧ sendingOf tags new = [tag] := by
  obtain ⟨wanted,pre,post,rfl,-,rfl⟩ := takes
  refine ⟨by simp,?_⟩
  induction pre generalizing tags with
  | nil =>
    cases tags with
    | nil => exact absurd same (by simp)
    | cons tag tags =>
      rw [List.nil_append,sendingOf_cons,List.append_eq_nil_iff] at free
      refine ⟨tag,if_pos ⟨wanted.1,rfl⟩,?_⟩
      rw [List.nil_append,sendingOf_cons,if_pos rfl,free.2]
      rfl
  | cons r' pre ih =>
    cases tags with
    | nil => exact absurd same (by simp)
    | cons first tags =>
      rw [List.cons_append,sendingOf_cons,List.append_eq_nil_iff] at free
      have rests : ¬ r'.status = .processing := fun sent => absurd free.1 (by simp [sent])
      obtain ⟨tag,taken,sending⟩ := ih (Nat.succ.inj same) free.2
      refine ⟨tag,?_,?_⟩
      · rw [List.cons_append,List.cons_append,takenOf,if_neg fun sent => rests sent.2]
        exact taken
      · rw [List.cons_append,sendingOf_cons,if_neg rests,sending]
        rfl

end Tags

section Replies

/-- A message of the module: its line is one that can be read back. -/
def Known (packet : List UInt8) : Prop :=
  ∃ seq linePrefix account, seq < 10 ^ 4 ∧ linePrefix ≤ scanMax ∧ account ≤ scanMax ∧
    Carries packet seq linePrefix account

theorem Coherent.known {s : Sia} (coherent : Coherent s) (ready : s.packetOk = true) : Known s.packet :=
  ⟨_,_,_,coherent.cnt,coherent.prefixWord,coherent.account,(coherent.ready ready).2⟩

theorem Known.acked {packet : List UInt8} (known : Known packet) {s : Sia}
    (ack : siaProtoPacketReply s (ackOf packet) = .ack) : lineOf packet = line s.cnt s.linePrefix s.account := by
  obtain ⟨seq,linePrefix,account,seqSmall,prefixWord,word,carries⟩ := known
  rw [reply_ackOf s carries seqSmall prefixWord word] at ack
  split_ifs at ack with current
  obtain ⟨rfl,rfl,rfl⟩ := current
  exact carries.lineOf

theorem rxAck_nak (s : Sia) {data rest : List UInt8} (named : cString (data.drop siaIdxData) = ascii "\"NAK\"" ++ rest) :
    ∀ seq, cmsSiaIpRxAck s data ≠ some (seq,false) := by
  intro seq answer
  have other : (ascii "\"ACK\"").isPrefixOf (ascii "\"NAK\"" ++ rest) = false := by
    have texts : ascii "\"ACK\"" = 0x22 :: 0x41 :: [0x43,0x4B,0x22] ∧ ascii "\"NAK\"" = 0x22 :: 0x4E :: [0x41,0x4B,0x22] := by
      decide
    rw [texts.1,texts.2]
    simp [List.isPrefixOf]
  unfold cmsSiaIpRxAck at answer
  dsimp only at answer
  rw [named,other,if_neg Bool.false_ne_true] at answer
  split_ifs at answer
  · cases lined : scanLine ((ascii "\"NAK\"" ++ rest).drop 5) with
    | none => exact absurd answer (by simp [lined])
    | some fields =>
      rw [lined,Option.bind_eq_bind,Option.bind_some] at answer
      split_ifs at answer
      exact absurd answer (by simp)

theorem Known.nak {packet : List UInt8} (known : Known packet) (s : Sia) :
    siaProtoPacketReply s (nakOf packet) ≠ .ack := by
  obtain ⟨seq,linePrefix,account,seqSmall,prefixWord,word,carries⟩ := known
  obtain ⟨_,short⟩ := @line_length seq linePrefix account seqSmall prefixWord word
  let text := (lineOf packet).takeWhile fun c => c ≠ 0x23
  have five : (ascii "\"NAK\"").length = 5 ∧ ∀ c ∈ ascii "\"NAK\"", (decide (c ≠ 0)) = true := by decide +kernel
  have length : (ascii "\"NAK\"" ++ text).length < 16 ^ 3 := by
    have less : text.length ≤ (lineOf packet).length := (List.takeWhile_sublist _).length_le
    rw [carries.lineOf] at less
    rw [List.length_append,five.1]
    omega
  have named : cString ((nakOf packet).drop siaIdxData) =
      ascii "\"NAK\"" ++ (text ++ [0x0D]).takeWhile fun c => decide (c ≠ 0) := by
    rw [nakOf,frame_drop_data length,List.append_assoc,cString,List.takeWhile_append_of_pos five.2]
  intro ack
  unfold siaProtoPacketReply at ack
  split at ack
  · exact absurd ack (by decide)
  · next seq nak answer =>
    cases nak with
    | false => exact rxAck_nak s named seq answer
    | true =>
      rw [if_pos rfl] at ack
      split_ifs at ack

end Replies

/-- What a trace keeps between two moves. -/
structure Tracked (t : Trace) : Prop where
  settled : Settled t.cms
  length : t.tags.length = (records t.cms.buf).length
  busy : t.cms.waiting = true ∨ t.cms.proto.packetOk = true → sendingOf t.tags (records t.cms.buf) = [t.carried]
  free : t.cms.waiting = false → t.cms.proto.packetOk = false → sendingOf t.tags (records t.cms.buf) = []
  out : t.cms.waiting = true → Known t.cms.packet
  known : ∀ frame ∈ t.frames, Known frame.1
  own : ∀ x ∈ t.removed, x.1 = x.2

theorem Tracked.faithful {t : Trace} (tracked : Tracked t) : Faithful t := by
  refine ⟨?_,tracked.own⟩
  rw [← sendingOf_length tracked.length]
  by_cases busy : t.cms.waiting = true ∨ t.cms.proto.packetOk = true
  · rw [tracked.busy busy]
    exact Nat.le_refl 1
  · rw [not_or,Bool.not_eq_true,Bool.not_eq_true] at busy
    rw [tracked.free busy.1 busy.2]
    exact Nat.zero_le 1

theorem begun_tracked (cfg : Config) {b : Buf} (sound : Sound b) (pending : ∀ r ∈ records b, r.status = .pending) :
    Tracked (begun cfg b) := by
  obtain ⟨idle,unready⟩ := started_ready cfg b
  refine ⟨started_settled cfg sound,?_,fun busy => ?_,fun _ _ => ?_,fun waiting => ?_,?_,?_⟩
  · exact List.length_range
  · exact absurd busy (by simp [begun,idle,unready])
  · apply sendingOf_nil
    intro r member
    rw [pending r member]
    decide
  · exact absurd (idle.symm.trans waiting) (by simp)
  · simp [begun]
  · simp [begun]

section Moves

variable {t : Trace}

theorem Tracked.reread (tracked : Tracked t) {w : World} {cfg : Config} {c : State Sia}
    (rereads : Rereads (cmsProtoSiaIp w) cfg t.cms c)
    (safe : t.cms.waiting = true ∨ t.cms.proto.packetOk = false) : Tracked {t with cms := c} := by
  have unready : c.proto.packetOk = false := by
    rw [rereads.proto]
    rfl
  refine ⟨Rereads.settled rereads tracked.settled,?_,?_,?_,?_,tracked.known,tracked.own⟩
  · rw [tracked.length,rereads.buf]
  · rintro (waiting | ready)
    · rw [rereads.buf]
      exact tracked.busy (Or.inl (rereads.waiting.symm.trans waiting))
    · exact absurd (unready.symm.trans ready) (by simp)
  · intro idle _
    rw [rereads.buf]
    have before := rereads.waiting.symm.trans idle
    refine tracked.free before (safe.resolve_left ?_)
    simp [before]
  · rw [rereads.waiting,rereads.packet]
    exact tracked.out

/-- After the end of a message that was not delivered, and after an event that is not
reported, nothing is in processing. -/
theorem Tracked.ended (tracked : Tracked t) {c : State Sia} (settled : Settled c) (idle : c.waiting = false)
    (unready : c.proto.packetOk = false) (length : (records c.buf).length = (records t.cms.buf).length)
    (rests : ∀ r ∈ records c.buf, r.status ≠ .processing) : Tracked {t with cms := c} := by
  refine ⟨settled,tracked.length.trans length.symm,fun busy => ?_,fun _ _ => sendingOf_nil rests _,fun waiting => ?_,
    tracked.known,tracked.own⟩
  · exact absurd busy (by simp [idle,unready])
  · exact absurd (idle.symm.trans waiting) (by simp)

theorem Tracked.same (tracked : Tracked t) {c : State Sia} (settled : Settled c) (left : records c.buf = records t.cms.buf)
    (waiting : c.waiting = t.cms.waiting) (proto : c.proto = t.cms.proto) (packet : c.packet = t.cms.packet) :
    Tracked {t with cms := c} where
  settled := settled
  length := by
    rw [left]
    exact tracked.length
  busy := by
    rw [left,waiting,proto]
    exact tracked.busy
  free := by
    rw [left,waiting,proto]
    exact tracked.free
  out := by
    rw [waiting,packet]
    exact tracked.out
  known := tracked.known
  own := tracked.own

theorem Tracked.sends (tracked : Tracked t) {packet : List UInt8} (known : Known packet) :
    Tracked {t with frames := t.frames ++ [(packet,t.carried)]} := by
  refine ⟨tracked.settled,tracked.length,tracked.busy,tracked.free,tracked.out,fun frame member => ?_,tracked.own⟩
  rcases List.mem_append.mp member with before | last
  · exact tracked.known frame before
  · rw [List.mem_singleton.mp last]
    exact known

theorem processed_untaken {c : State Sia} {sent : Option (List UInt8)}
    (none : takenOf t.tags (records t.cms.buf) (records c.buf) = none) : t.processed c sent =
      {t with cms := c, frames := t.frames ++ sent.toList.map fun packet => (packet,t.carried)} := by
  rw [Trace.processed,none,Option.getD_none]

/-- A message that is ready is sent: it is the one its record was taken for. -/
theorem Tracked.sent (tracked : Tracked t) {c : State Sia} (settled : Settled c) (ready : c.proto.packetOk = true)
    (packet : c.packet = c.proto.packet) {carried : Nat} (length : (records c.buf).length = (records t.cms.buf).length)
    (sending : sendingOf t.tags (records c.buf) = [carried]) :
    Tracked {t with cms := c, carried := carried, frames := t.frames ++ [(c.packet,carried)]} := by
  have known : Known c.packet := packet ▸ Coherent.known settled.proto ready
  have taken : Tracked {t with cms := c, carried := carried} :=
    ⟨settled,tracked.length.trans length.symm,fun _ => sending,
      fun _ unready => absurd (ready.symm.trans unready) (by simp),fun _ => known,tracked.known,tracked.own⟩
  exact taken.sends known

theorem Tracked.processed (tracked : Tracked t) {w : World} {env : Env} {c : State Sia} {sent : Option (List UInt8)}
    (processed : Processed (cmsProtoSiaIp w) env t.cms c sent) (settled : Settled c) : Tracked (t.processed c sent) := by
  have same (left : records c.buf = records t.cms.buf) :
      takenOf t.tags (records t.cms.buf) (records c.buf) = none := by
    rw [left]
    exact takenOf_same _ _
  have quiet (untaken : takenOf t.tags (records t.cms.buf) (records c.buf) = none) (after : Tracked {t with cms := c}) :
      Tracked (t.processed c none) := by
    rw [processed_untaken untaken]
    simpa using after
  cases processed with
  | rest _ alike =>
    have left : records c.buf = records t.cms.buf := by rw [alike.buf]
    exact quiet (same left) (tracked.same settled left alike.waiting alike.proto alike.packet)
  | resent waiting _ alike =>
    have left : records c.buf = records t.cms.buf := by rw [alike.buf]
    rw [processed_untaken (same left)]
    have after := tracked.same settled left alike.waiting alike.proto alike.packet
    exact after.sends (tracked.out waiting)
  | reread unset cfg rereads =>
    have left : records c.buf = records t.cms.buf := by rw [rereads.buf]
    exact quiet (same left) (tracked.reread rereads (Or.inr (tracked.settled.unset unset)))
  | failed _ _ _ _ ends =>
    have rests : ∀ r ∈ records c.buf, r.status ≠ .processing := by
      rw [ends.records]
      exact done_rests false
    apply quiet (takenOf_none rests _ _)
    apply tracked.ended settled ends.waiting _ _ rests
    · rw [ends.proto]
      rfl
    · rw [ends.records,done_false,List.length_map]
  | prepared _ _ ready sends proto buf =>
    have left : records c.buf = records t.cms.buf := by rw [buf]
    rw [processed_untaken (same left)]
    apply tracked.sent settled (proto ▸ ready) sends.packet (by rw [left])
    rw [left]
    exact tracked.busy (Or.inr ready)
  | nothing _ idle _ _ _ _ proto packet waiting _ left =>
    exact quiet (same left) (tracked.same settled left (waiting.trans idle.symm) proto packet)
  | refused _ _ unready r new takes unreported proto _ _ _ idle _ left =>
    have rests : ∀ r ∈ records c.buf, r.status ≠ .processing := by
      rw [left]
      exact done_rests false
    have length : new.length = (records t.cms.buf).length := by
      obtain ⟨_,pre,post,split,_,rfl⟩ := takes
      rw [split]
      simp
    apply quiet (takenOf_none rests _ _)
    apply tracked.ended settled idle _ _ rests
    · rw [proto]
      exact (newEvent_ready unready).trans unreported
    · rw [left,done_false,List.length_map,length]
  | taken _ idle unready r takes reported proto sends =>
    obtain ⟨length,tag,taken,sending⟩ := Takes.tagged takes tracked.length (tracked.free idle unready)
    rw [Trace.processed,taken,Option.getD_some]
    apply tracked.sent settled _ sends.packet length sending
    rw [proto]
    exact (newEvent_ready unready).trans reported

/-- What an answer does that is no acknowledgement, or one of the record that is out. -/
theorem Tracked.answered (tracked : Tracked t) (answer : List UInt8 → List UInt8) (frame port : Nat)
    (own : ∀ packet record, t.frames[frame]? = some (packet,record) → port = t.cms.serverPort → t.cms.waiting = true →
      siaProtoPacketReply t.cms.proto (answer packet) = .ack → record = t.carried) :
    ∃ t', t.answered answer frame port = .ok t' ∧ Tracked t' := by
  unfold Trace.answered
  cases asked : t.frames[frame]? with
  | none => exact ⟨t,rfl,tracked⟩
  | some message =>
    obtain ⟨packet,record⟩ := message
    obtain ⟨handled,c,ran,received⟩ := cmsUdpRx_received (cmsProtoSiaIp untexted) (answer packet) port tracked.settled.sound
    dsimp only
    rw [ran,ok_bind]
    dsimp only
    have unchanged (same : (records c.buf).length = (records t.cms.buf).length) :
        ¬ (records c.buf).length < (records t.cms.buf).length := Nat.not_lt_of_le (Nat.le_of_eq same.symm)
    cases received with
    | ignored _ ip listens packet waiting buf proto =>
      have left : records c.buf = records t.cms.buf := by rw [buf]
      rw [if_neg (unchanged (by rw [left]))]
      have kept : c.proto = t.cms.proto := proto.elim id id
      refine ⟨_,rfl,tracked.same ?_ left waiting kept packet⟩
      exact tracked.settled.of_same ip listens kept (buf ▸ tracked.settled.sound)
    | refused _ _ _ ends =>
      have same : (records c.buf).length = (records t.cms.buf).length := by
        rw [ends.records,done_false,List.length_map]
      rw [if_neg (unchanged same)]
      refine ⟨_,rfl,tracked.ended (Ends.settled ends tracked.settled.proto) ends.waiting ?_ same ?_⟩
      · rw [ends.proto]
        rfl
      · rw [ends.records]
        exact done_rests false
    | acked here waiting ack ends =>
      have mine : record = t.carried :=
        own packet record asked here waiting ((cmsProtoSiaIp_reply untexted _ _).symm.trans ack)
      have sending := tracked.busy (Or.inl waiting)
      have rests : ∀ r ∈ records c.buf, r.status ≠ .processing := by
        rw [ends.records]
        exact done_rests true
      have shrunk : (records c.buf).length < (records t.cms.buf).length := by
        have one := sendingOf_length tracked.length
        have split := done_length (records t.cms.buf)
        have left : (records c.buf).length = ((records t.cms.buf).filterMap (doneRecord true)).length :=
          congrArg List.length ends.records
        rw [sending,List.length_singleton] at one
        omega
      rw [if_pos shrunk,sending,mine]
      refine ⟨_,rfl,Ends.settled ends tracked.settled.proto,?_,fun busy => ?_,fun _ _ => ?_,fun busy => ?_,tracked.known,?_⟩
      · rw [ends.records]
        exact restingOf_length tracked.length
      · rw [ends.waiting,ends.proto] at busy
        exact absurd busy (by simp [cmsProtoSiaIp])
      · exact sendingOf_nil rests _
      · exact absurd (ends.waiting.symm.trans busy) (by simp)
      · intro x member
        rcases List.mem_append.mp member with before | last
        · exact tracked.own x before
        · rw [List.mem_singleton.mp last]

theorem step_tracked (state : Except Fault Trace) (move : Move) (tracked : Run.Unless tooLong Tracked state)
    (fresh : Fresh state move) : Run.Unless tooLong Tracked (step state move) := by
  cases state with
  | error fault => exact tracked
  | ok t =>
    have tracked : Tracked t := tracked
    have fresh := fresh t rfl
    cases move with
    | reinit cfg =>
      have rereads := cmsReinit_rereads (cmsProtoSiaIp untexted) cfg t.cms
      exact tracked.reread rereads fresh
    | process w env =>
      obtain ⟨c,sent,ran,processed⟩ := cmsMainProcess_processed (cmsProtoSiaIp w) env tracked.settled.sound
      rw [step,ok_bind]
      dsimp only
      rw [ran,ok_bind,osAssert]
      dsimp only
      by_cases fits : c.proto.fits = true
      · rw [if_pos fits]
        exact tracked.processed processed (Stepped.settled (.mainProcess env processed) tracked.settled fits)
      · rw [if_neg fits]
        rfl
    | ack frame port =>
      obtain ⟨t',ran,after⟩ := tracked.answered ackOf frame port fun packet record asked here waiting ack => by
        have known := tracked.known (packet,record) (List.mem_of_getElem? asked)
        exact fresh packet record asked here waiting (known.acked ack)
      change Run.Unless tooLong Tracked (t.answered ackOf frame port)
      rw [ran]
      exact after
    | nak frame port =>
      obtain ⟨t',ran,after⟩ := tracked.answered nakOf frame port fun packet record asked _ _ ack => by
        have known := tracked.known (packet,record) (List.mem_of_getElem? asked)
        exact absurd ack (known.nak t.cms.proto)
      change Run.Unless tooLong Tracked (t.answered nakOf frame port)
      rw [ran]
      exact after

/-- In a run without a dropped message or a late answer to another line, every record
removed is the one the acknowledged frame had carried, and none is sent beside another. -/
theorem run_faithful (cfg : Config) {b : Buf} (sound : Sound b) (pending : ∀ r ∈ records b, r.status = .pending)
    (moves : List Move) (fresh : Run.Admits step Fresh (.ok (begun cfg b)) moves) (first rest : List Move)
    (split : moves = first ++ rest) : Run.Unless tooLong Faithful (Run.run step (.ok (begun cfg b)) first) := by
  subst split
  have tracked : Run.Unless tooLong Tracked (Run.run step (.ok (begun cfg b)) first) :=
    Run.run_invariant step Fresh (Run.Unless tooLong Tracked) step_tracked (.ok (begun cfg b)) first (begun_tracked cfg sound pending)
      ((Run.admits_append step Fresh _ first rest).mp fresh).1
  exact tracked.mono fun _ => Tracked.faithful

end Moves

section Loss

def alarms : List Event := [alarmEvent,alarmEvent]

theorem alarms_stocked : ∃ b, stocked alarms = .ok b ∧ Sound b ∧ records b = [doorAlarm,doorAlarm] :=
  stocked_sound alarms (by rfl)

theorem run_seen {b : Buf} (added : stocked alarms = .ok b) {α : Type} {observe : Trace → α} {moves : List Move} {a : α}
    (seen : (do
      let b ← stocked alarms
      let t ← Run.run step (.ok (begun demoConfig b)) moves
      .ok (observe t)) = .ok a) : ∃ t, Run.run step (.ok (begun demoConfig b)) moves = .ok t ∧ observe t = a := by
  rw [added,ok_bind] at seen
  cases ran : Run.run step (.ok (begun demoConfig b)) moves with
  | error fault => exact absurd seen (by simp [ran,bind,Except.bind])
  | ok t =>
    rw [ran,ok_bind] at seen
    exact ⟨t,rfl,Except.ok.inj seen⟩

def dropping : List Move := [.process untexted {meeting userNone with sent := false},.reinit demoConfig,
  .process untexted (meeting userNone),.ack 1 4000]

/-- The configuration is read again while a message could not be sent yet: the next
acknowledgement removes the record of the dropped message too. -/
theorem dropped_removed : ¬ ∀ (cfg : Config) (b : Buf), Sound b → (∀ r ∈ records b, r.status = .pending) →
    ∀ moves, Run.Unless tooLong Faithful (Run.run step (.ok (begun cfg b)) moves) := by
  intro always
  obtain ⟨b,added,sound,waiting⟩ := alarms_stocked
  have faithful := always demoConfig b sound (by simp [waiting,doorAlarm,newRecord]) dropping
  have seen : (do
      let b ← stocked alarms
      let t ← Run.run step (.ok (begun demoConfig b)) dropping
      .ok t.removed) = .ok [(0,1),(1,1)] := by decide +kernel
  obtain ⟨t,ran,removed⟩ := run_seen added seen
  rw [ran] at faithful
  have own := Faithful.own faithful (0,1) (by simp [removed])
  exact absurd own (by decide)

def answering : List Move := [.process untexted (meeting userNone),.ack 0 4000]

theorem answered_faithful : ∃ b, Sound b ∧ records b = [doorAlarm,doorAlarm] ∧
    Run.Unless tooLong Faithful (Run.run step (.ok (begun demoConfig b)) answering) := by
  obtain ⟨b,added,sound,waiting⟩ := alarms_stocked
  refine ⟨b,sound,waiting,run_faithful demoConfig sound ?_ answering ⟨fun _ _ => trivial,?_,trivial⟩ answering [] rfl⟩
  · simp [waiting,doorAlarm,newRecord]
  · have seen : (do
        let b ← stocked alarms
        let t ← Run.run step (.ok (begun demoConfig b)) [.process untexted (meeting userNone)]
        .ok (t.frames.map Prod.snd,t.carried)) = .ok ([0],0) := by decide +kernel
    obtain ⟨t,ran,observed⟩ := run_seen added seen
    obtain ⟨frames,carried⟩ := Prod.mk.inj observed
    intro t' same packet record asked _ _ _
    cases ran.symm.trans same
    have member : record ∈ t.frames.map Prod.snd := List.mem_map.mpr ⟨(packet,record),List.mem_of_getElem? asked,rfl⟩
    rw [frames] at member
    rw [carried]
    exact List.mem_singleton.mp member

end Loss

end JcaFirmware.CmsTrace
