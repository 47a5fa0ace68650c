import JcaFirmware.Tracer
import JcaFirmware.TracerUndelivered

/-! The upload of stored points (`tracer_comm_process`). Points are numbered, so
that a run says which point each slot holds, from which one the packet prepared
was built, and which ones have been acknowledged while theirs was. -/
namespace JcaFirmware.TracerComm
open Foundation Numeral TracerUpload TracerH02 Tracer TracerUndelivered
open TracerBuffer hiding State Input Inv step start
open TracerRecovery hiding Input Point step start

/-- A run so far. `owner` is the number of the point in each slot. -/
structure Traced where
  s : State
  owner : Nat → Option Nat
  count : Nat
  pending : Option Nat
  acked : List Nat

def delivered (flash : Nat → TracerBuf) (slot : Nat) : Bool := !undelivered (slotOf flash slot)

-- A slot `tracer_buf_hard_erase` has come to holds no point.
def nextOwner (g : Traced) (s : State) : Input → Nat → Option Nat
  | .trackTask env =>
    if env.written ∧ s.comm.ring.savePtr ≠ g.s.comm.ring.savePtr then
      Function.update g.owner g.s.comm.ring.savePtr (some g.count)
    else g.owner
  | .comm _ => fun slot => if slotOf s.comm.ring.flash slot = erasedFlash slot then none else g.owner slot
  | _ => g.owner

-- An acknowledgement is of the packet that is being waited for.
def nextAcked (sdk : Sdk) (g : Traced) : Input → List Nat
  | .packetRx data port =>
    match g.s.comm.phase with
    | .waiting _ => if (tracerPacketRx sdk data port g.s).1 then g.pending.toList ++ g.acked else g.acked
    | _ => g.acked
  | _ => g.acked

def nextPending (g : Traced) (s : State) (slot : Option Nat) : Option Nat :=
  if packetReady s.comm.h02 = false then none
  else
    match slot with
    | some slot => g.owner slot
    | none => g.pending

def step (sdk : Sdk) (g : Traced) (input : Input) : Traced :=
  let (s,slot) := input.apply sdk g.s
  ⟨s,nextOwner g s input,g.count + 1,nextPending g s slot,nextAcked sdk g input⟩

/-- The points found in the flash by `tracer_init` have the numbers of their
slots; those already delivered count as acknowledged. -/
def start (cfg : Config) (alloc : Bool) (readable : Nat → Bool) (flash : Nat → TracerBuf) : Traced where
  s := (tracerInit cfg alloc readable (statics flash)).2
  owner slot := if slot < bufStoreLimit then some slot else none
  count := bufStoreLimit
  pending := none
  acked := (List.range bufStoreLimit).filter (delivered flash)

/-- No point has the delivered flag without an acknowledgement. -/
def Honest (g : Traced) : Prop :=
  ∀ slot k, g.owner slot = some k → delivered g.s.comm.ring.flash slot = true → k ∈ g.acked

/-- The slots read but not marked yet. -/
def unmarked (ring : Statics) : List Nat := Ring.window bufStoreLimit ring.lastUndelivered ring.readPtr

/-- The point of the packet prepared, where its slot is still to be marked, has been acknowledged. -/
def Settled (g : Traced) : Prop :=
  ∀ slot ∈ unmarked g.s.comm.ring, ∀ k, g.owner slot = some k → g.pending = some k → k ∈ g.acked

/-- The packet of a point not acknowledged is not thrown away, and no point is
written over one that has been read but not marked. -/
def Keeps (g : Traced) : Input → Prop
  | .reinit _ => Settled g
  | .setId id saved => id ≤ tracerUnitIdMax → saved = true → Settled g
  | .trackTask env => env.written = true → (trackTask env g.s).comm.ring.savePtr ≠ g.s.comm.ring.savePtr →
    g.s.comm.ring.savePtr ∉ unmarked g.s.comm.ring
  | _ => True

structure Inv (g : Traced) : Prop where
  readIn : g.s.comm.ring.readPtr < bufStoreLimit
  saveIn : g.s.comm.ring.savePtr < bufStoreLimit
  lastIn : g.s.comm.ring.lastUndelivered < bufStoreLimit
  honest : Honest g
  read : ∀ slot ∈ unmarked g.s.comm.ring, ∀ k, g.owner slot = some k → k ∈ g.acked ∨ g.pending = some k
  ready : ∀ k, g.pending = some k → packetReady g.s.comm.h02 = true
  answered : ∀ t, g.s.comm.phase = .waiting t → g.s.comm.packetAck = true → ∀ k ∈ g.pending, k ∈ g.acked
  served : g.s.comm.phase = .connecting → ∀ k, g.pending = some k → g.s.server.ip ≠ 0 ∧ g.s.server.port ≠ 0

/-- What a part of `tracer_comm_process` can do. -/
inductive Effect (env : CommEnv) (s s' : State) : Option Nat → Prop
  | rest (ring : s'.comm.ring = s.comm.ring) (h02 : s'.comm.h02 = s.comm.h02)
      (phase : s'.comm.phase = .idle ∨ s' = s) : Effect env s s' none
  | connect (ring : s'.comm.ring = s.comm.ring) (h02 : s'.comm.h02 = s.comm.h02)
      (phase : s'.comm.phase = .connecting) (served : s'.server.ip ≠ 0 ∧ s'.server.port ≠ 0) : Effect env s s' none
  | send (ring : s'.comm.ring = s.comm.ring) (h02 : s'.comm.h02 = s.comm.h02)
      (phase : s'.comm.phase ≠ .connecting) (ack : s'.comm.packetAck = false) : Effect env s s' none
  | drop (ring : s'.comm.ring = s.comm.ring) (before : s.comm.phase = .connecting)
      (unserved : s.server.ip = 0 ∨ s.server.port = 0) (idle : s'.comm.phase = .idle)
      (done : packetReady s'.comm.h02 = false) : Effect env s s' none
  | read (empty : packetReady s.comm.h02 = false)
      (loaded : Intact env.readable s.comm.ring.flash s.comm.ring.readPtr)
      (ring : s'.comm.ring = {s.comm.ring with readPtr := bufIncPtr s.comm.ring.readPtr})
      (built : packetReady s'.comm.h02 = true) (idle : s'.comm.phase = .idle) :
      Effect env s s' (some s.comm.ring.readPtr)
  | erase (asked : s.comm.newTrackIdSet ≠ 0) (ring : s'.comm.ring = (tracerBufHardErase s.comm.ring true env.written).2)
      (h02 : s'.comm.h02 = s.comm.h02) (idle : s'.comm.phase = .idle) : Effect env s s' none
  | done (t : Nat) (before : s.comm.phase = .waiting t) (ack : s.comm.packetAck = true)
      (ring : s'.comm.ring = (tracerBufDeliveredAll s.comm.ring env.alloc env.readable env.written).2)
      (idle : s'.comm.phase = .idle) (done : packetReady s'.comm.h02 = false) : Effect env s s' none

@[simp] theorem tracerServerReinit_ring (unitId : Nat) (s : State) :
    (tracerServerReinit unitId s).comm.ring = s.comm.ring := rfl

@[simp] theorem tracerServerReinit_ready (unitId : Nat) (s : State) :
    packetReady (tracerServerReinit unitId s).comm.h02 = false := rfl

@[simp] theorem tracerReinit_ring (cfg : Config) (s : State) : (tracerReinit cfg s).comm.ring = s.comm.ring := by
  unfold tracerReinit
  dsimp only
  rw [tracerServerReinit_ring]

@[simp] theorem tracerReinit_ready (cfg : Config) (s : State) : packetReady (tracerReinit cfg s).comm.h02 = false := by
  unfold tracerReinit
  dsimp only
  rw [tracerServerReinit_ready]

section Effects

variable (sdk : Sdk) (env : CommEnv) (s : State)

@[simp] theorem tracerCommSleep_ring (now tm : Nat) (c : Comm) : (tracerCommSleep now tm c).ring = c.ring := by
  rw [tracerCommSleep]

@[simp] theorem tracerCommSleep_h02 (now tm : Nat) (c : Comm) : (tracerCommSleep now tm c).h02 = c.h02 := by
  rw [tracerCommSleep]

@[simp] theorem tracerCommSleep_phase (now tm : Nat) (c : Comm) : (tracerCommSleep now tm c).phase = c.phase := by
  rw [tracerCommSleep]

theorem sendFailed_frame (now pause : Nat) (c : Comm) : (sendFailed now pause c).ring = c.ring ∧
    (sendFailed now pause c).h02 = c.h02 ∧ (sendFailed now pause c).phase = .idle := by
  unfold sendFailed
  dsimp only
  split_ifs <;> simp

theorem ackMissing_frame (now : Nat) (c : Comm) : (ackMissing now c).ring = c.ring ∧
    (ackMissing now c).h02 = c.h02 ∧ (ackMissing now c).phase = .idle := by
  rw [ackMissing]
  exact sendFailed_frame now 1 {c with tmout := updateTmout c.tmout}

theorem commProcess_effect (idle : s.comm.phase = .idle) :
    Effect env s (commProcess sdk env s).1 (commProcess sdk env s).2 := by
  unfold commProcess
  dsimp only
  by_cases early : env.now < s.comm.sleepTmr
  · rw [if_pos early]
    exact .rest rfl rfl (Or.inr rfl)
  rw [if_neg early]
  by_cases reset : s.comm.newTrackIdSet ≠ 0 ∧ tracerIsActive s.track = false
  · rw [if_pos reset]
    cases granted : env.alloc with
    | false => exact .rest rfl rfl (Or.inl idle)
    | true => exact .erase reset.1 rfl rfl idle
  rw [if_neg reset]
  generalize resolved : (if tracerServerSetupOk s = false ∧ s.server.ip = 0 ∧ s.server.port ≠ 0 ∧ env.connected then
    {s with server := s.server.resolve env.cfg.target} else s) = s'
  have comm : s'.comm = s.comm := by
    rw [← resolved]
    split <;> rfl
  rw [← comm] at idle
  by_cases setup : tracerServerSetupOk s' = false
  · rw [if_pos setup]
    exact .rest (by simp [comm]) (by simp [comm]) (Or.inl (by simpa using idle))
  rw [if_neg setup]
  split_ifs with ready off bulk empty
  · exact .rest (by simp [comm]) (by simp [comm]) (Or.inl (by simpa using idle))
  · exact .rest (by simp [comm]) (by simp [comm]) (Or.inl (by simpa using idle))
  · simp only [tracerServerSetupOk,Bool.not_eq_false,Bool.and_eq_true,decide_eq_true_eq] at setup
    exact .connect (by rw [comm]) (by rw [comm]) rfl setup.1
  · exact .rest (by simp [comm]) (by simp [comm]) (Or.inl (by simpa using idle))
  · rcases readNext_cases s'.comm.ring.toBuffer env.alloc (env.readable s'.comm.ring.readPtr) with
      ⟨same,_⟩ | ⟨_,_,b,loaded,moved⟩
    · rw [same]
      exact .rest (by simp [comm]) (by simp [comm]) (Or.inl (by simpa using idle))
    · rw [moved]
      dsimp only
      rw [comm] at loaded ready ⊢
      exact .read (by simpa using ready) (Option.isSome_of_eq_some loaded) rfl (newPoint_ready _ _ _) (by rw [← comm]; exact idle)

theorem commConnected_effect (before : s.comm.phase = .connecting) :
    Effect env s (commConnected env s).1 none := by
  unfold commConnected
  dsimp only
  split_ifs with off unserved inTime
  · obtain ⟨ring,h02,phase⟩ := sendFailed_frame env.now 5 s.comm
    exact .rest ring h02 (Or.inl phase)
  · exact .drop (by simp) before unserved rfl (packetDone_ready _)
  · exact .send rfl rfl (by simp) rfl
  · obtain ⟨ring,h02,phase⟩ := ackMissing_frame env.now {s.comm with packetAck := false}
    exact .rest ring h02 (Or.inl phase)

theorem commWake_effect (t : Nat) (before : s.comm.phase = .waiting t) : Effect env s (commWake env t s) none := by
  unfold commWake
  dsimp only
  split_ifs with ack inTime
  · exact .done t before ack rfl rfl rfl
  · exact .rest rfl rfl (Or.inr rfl)
  · obtain ⟨ring,h02,phase⟩ := ackMissing_frame env.now s.comm
    exact .rest ring h02 (Or.inl phase)

theorem commStep_effect : Effect env s (commStep sdk env s).1 (commStep sdk env s).2 := by
  unfold commStep
  cases before : s.comm.phase with
  | idle => exact commProcess_effect sdk env s before
  | connecting => exact commConnected_effect env s before
  | waiting t => exact commWake_effect env s t before

end Effects

section Invariant

variable {g : Traced} {s' : State} {owner' : Nat → Option Nat} {n : Nat} {acked' : List Nat}

theorem Inv.of_ring {ring : Statics} {pending : Option Nat} (same : s'.comm.ring = ring)
    (readIn : ring.readPtr < bufStoreLimit) (saveIn : ring.savePtr < bufStoreLimit) (lastIn : ring.lastUndelivered < bufStoreLimit)
    (honest : ∀ slot k, owner' slot = some k → delivered ring.flash slot = true → k ∈ acked')
    (read : ∀ slot ∈ unmarked ring, ∀ k, owner' slot = some k → k ∈ acked' ∨ pending = some k)
    (ready : ∀ k, pending = some k → packetReady s'.comm.h02 = true)
    (answered : ∀ t, s'.comm.phase = .waiting t → s'.comm.packetAck = true → ∀ k ∈ pending, k ∈ acked')
    (served : s'.comm.phase = .connecting → ∀ k, pending = some k → s'.server.ip ≠ 0 ∧ s'.server.port ≠ 0) :
    Inv ⟨s',owner',n,pending,acked'⟩ := by
  subst same
  exact ⟨readIn,saveIn,lastIn,honest,read,ready,answered,served⟩

theorem Inv.nextPending_eq (inv : Inv g) (h02 : s'.comm.h02 = g.s.comm.h02) : nextPending g s' none = g.pending := by
  rw [nextPending,h02]
  cases waiting : g.pending with
  | none => split <;> rfl
  | some k => rw [if_neg (by rw [inv.ready k waiting]; simp)]

theorem Inv.keep (inv : Inv g) (ring : s'.comm.ring = g.s.comm.ring) (h02 : s'.comm.h02 = g.s.comm.h02)
    (fewer : ∀ slot k, owner' slot = some k → g.owner slot = some k) (more : ∀ k ∈ g.acked, k ∈ acked')
    (answered : ∀ t, s'.comm.phase = .waiting t → s'.comm.packetAck = true → ∀ k ∈ g.pending, k ∈ acked')
    (served : s'.comm.phase = .connecting → ∀ k, g.pending = some k → s'.server.ip ≠ 0 ∧ s'.server.port ≠ 0) :
    Inv ⟨s',owner',n,nextPending g s' none,acked'⟩ := by
  rw [inv.nextPending_eq h02]
  apply Inv.of_ring ring inv.readIn inv.saveIn inv.lastIn
  · intro slot k held flagged
    exact more k (inv.honest slot k (fewer slot k held) flagged)
  · intro slot member k held
    exact (inv.read slot member k (fewer slot k held)).imp_left (more k)
  · intro k waiting
    rw [h02]
    exact inv.ready k waiting
  · exact answered
  · exact served

theorem Inv.clear (inv : Inv g) (ring : s'.comm.ring = g.s.comm.ring) (cleared : packetReady s'.comm.h02 = false)
    (fewer : ∀ slot k, owner' slot = some k → g.owner slot = some k) (settled : Settled g) :
    Inv ⟨s',owner',n,nextPending g s' none,g.acked⟩ := by
  rw [nextPending,if_pos cleared]
  apply Inv.of_ring ring inv.readIn inv.saveIn inv.lastIn
  · intro slot k held flagged
    exact inv.honest slot k (fewer slot k held) flagged
  · intro slot member k held
    exact Or.inl ((inv.read slot member k (fewer slot k held)).elim id (settled slot member k (fewer slot k held)))
  · exact fun k none => absurd none (by simp)
  · exact fun _ _ _ k none => absurd none (by simp)
  · exact fun _ k none => absurd none (by simp)

theorem Inv.trackOnly (inv : Inv g) (only : TrackOnly g.s s') :
    Inv ⟨s',g.owner,n,nextPending g s' none,g.acked⟩ := by
  apply inv.keep (by rw [only.comm]) (by rw [only.comm]) (fun _ _ held => held) fun _ member => member
  · rw [only.comm]
    exact inv.answered
  · rw [only.comm,only.server]
    exact inv.served

theorem Inv.read_step (inv : Inv g) (empty : packetReady g.s.comm.h02 = false)
    (ring : s'.comm.ring = {g.s.comm.ring with readPtr := bufIncPtr g.s.comm.ring.readPtr})
    (built : packetReady s'.comm.h02 = true) (idle : s'.comm.phase = .idle)
    (fewer : ∀ slot k, owner' slot = some k → g.owner slot = some k) :
    Inv ⟨s',owner',n,nextPending g s' (some g.s.comm.ring.readPtr),g.acked⟩ := by
  have nothing : g.pending = none := by
    cases waiting : g.pending with
    | none => rfl
    | some k => exact absurd (inv.ready k waiting) (by rw [empty]; simp)
  rw [nextPending,if_neg (by rw [built]; simp)]
  apply Inv.of_ring ring (bufIncPtr_lt inv.readIn) inv.saveIn inv.lastIn
  · intro slot k held flagged
    exact inv.honest slot k (fewer slot k held) flagged
  · intro slot member k held
    rw [unmarked] at member
    by_cases closed : Ring.next bufStoreLimit g.s.comm.ring.readPtr = g.s.comm.ring.lastUndelivered
    · rw [bufIncPtr_eq inv.readIn,closed,Ring.window_self] at member
      exact absurd member List.not_mem_nil
    · rw [bufIncPtr_eq inv.readIn,Ring.window_push inv.lastIn inv.readIn closed] at member
      rcases List.mem_append.mp member with old | new
      · have known := inv.read slot old k (fewer slot k held)
        rw [nothing] at known
        exact Or.inl (known.resolve_right (by simp))
      · rw [List.mem_singleton.mp new] at held
        exact Or.inr (fewer _ k held)
  · exact fun _ _ => built
  · intro t waiting
    exact absurd (idle.symm.trans waiting) (by simp)
  · intro connecting
    exact absurd (idle.symm.trans connecting) (by simp)

/-- Marking sets the flag in the slots read since the last marking, and nowhere else. -/
theorem delivered_all_spec (ring : Statics) (alloc : Bool) (readable written : Nat → Bool)
    (readIn : ring.readPtr < bufStoreLimit) (lastIn : ring.lastUndelivered < bufStoreLimit) :
    ∃ flash last, (tracerBufDeliveredAll ring alloc readable written).2 = {ring with flash := flash, lastUndelivered := last} ∧
      last < bufStoreLimit ∧ (∀ slot ∈ Ring.window bufStoreLimit last ring.readPtr, slot ∈ unmarked ring) ∧
      ∀ slot, slot ∉ unmarked ring → slotOf flash slot = slotOf ring.flash slot := by
  cases alloc with
  | false => exact ⟨ring.flash,ring.lastUndelivered,rfl,lastIn,fun _ member => member,fun _ _ => rfl⟩
  | true =>
    have enough : (Ring.window bufStoreLimit ring.lastUndelivered ring.readPtr).length ≤ bufStoreLimit := by
      rw [Ring.window_length]
      exact Nat.le_of_lt (Ring.gap_lt lastIn readIn)
    obtain ⟨flash,ran,slots⟩ := deliver_spec readable written bufStoreLimit ring lastIn readIn enough
    refine ⟨flash,ring.readPtr,?_,readIn,?_,fun slot outside => ?_⟩
    · rw [tracerBufDeliveredAll,if_neg (by simp),ran]
    · rw [Ring.window_self]
      exact fun _ none => absurd none List.not_mem_nil
    · exact (slots slot).trans (if_neg outside)

theorem Inv.done_step (inv : Inv g) {env : CommEnv} {t : Nat} (before : g.s.comm.phase = .waiting t)
    (ack : g.s.comm.packetAck = true)
    (ring : s'.comm.ring = (tracerBufDeliveredAll g.s.comm.ring env.alloc env.readable env.written).2)
    (cleared : packetReady s'.comm.h02 = false)
    (fewer : ∀ slot k, owner' slot = some k → g.owner slot = some k) :
    Inv ⟨s',owner',n,nextPending g s' none,g.acked⟩ := by
  have settled (slot : Nat) (member : slot ∈ unmarked g.s.comm.ring) (k : Nat) (held : owner' slot = some k) :
      k ∈ g.acked := (inv.read slot member k (fewer slot k held)).elim id (inv.answered t before ack k)
  obtain ⟨flash,last,marked,lastIn,left,same⟩ :=
    delivered_all_spec g.s.comm.ring env.alloc env.readable env.written inv.readIn inv.lastIn
  rw [marked] at ring
  rw [nextPending,if_pos cleared]
  apply Inv.of_ring ring inv.readIn inv.saveIn lastIn
  · intro slot k held flagged
    by_cases inside : slot ∈ unmarked g.s.comm.ring
    · exact settled slot inside k held
    · rw [delivered,same slot inside] at flagged
      exact inv.honest slot k (fewer slot k held) flagged
  · intro slot member k held
    exact Or.inl (settled slot (left slot member) k held)
  · exact fun k none => absurd none (by simp)
  · exact fun _ _ _ k none => absurd none (by simp)
  · exact fun _ k none => absurd none (by simp)

theorem eraseLoop_slot (written : Nat → Bool) (rounds : Nat) (flash : Nat → TracerBuf) (slot : Nat) :
    slotOf (eraseLoop written rounds flash) slot = slotOf flash slot ∨
      slotOf (eraseLoop written rounds flash) slot = erasedFlash slot := by
  induction rounds generalizing flash with
  | zero => exact Or.inl rfl
  | succ rounds ih =>
    rw [eraseLoop]
    cases written (bufStoreLimit - (rounds + 1)) with
    | false => exact Or.inl rfl
    | true =>
      rw [if_pos rfl]
      rcases ih (Function.update flash ((bufStoreLimit - (rounds + 1)) * saveGridSize)
        (erasedFlash (bufStoreLimit - (rounds + 1)))) with kept | erased
      · rw [kept,slotOf_update]
        by_cases here : slot = bufStoreLimit - (rounds + 1)
        · rw [here,Function.update_self]
          exact Or.inr rfl
        · rw [Function.update_of_ne here]
          exact Or.inl rfl
      · exact Or.inr erased

theorem Inv.erase_step (inv : Inv g) {env : CommEnv}
    (ring : s'.comm.ring = (tracerBufHardErase g.s.comm.ring true env.written).2)
    (h02 : s'.comm.h02 = g.s.comm.h02) (idle : s'.comm.phase = .idle) :
    Inv ⟨s',nextOwner g s' (.comm env),n,nextPending g s' none,g.acked⟩ := by
  have pos : 0 < bufStoreLimit := by decide
  rw [tracerBufHardErase,if_neg (by simp)] at ring
  rw [inv.nextPending_eq h02]
  apply Inv.of_ring ring pos pos pos
  · intro slot k held flagged
    dsimp only [nextOwner] at held
    split at held
    · exact absurd held (by simp)
    · next kept =>
      rw [ring] at kept
      have same := (eraseLoop_slot env.written bufStoreLimit g.s.comm.ring.flash slot).resolve_right kept
      rw [delivered,same] at flagged
      exact inv.honest slot k held flagged
  · intro slot member
    rw [unmarked,Ring.window_self] at member
    exact absurd member List.not_mem_nil
  · intro k waiting
    rw [h02]
    exact inv.ready k waiting
  · intro t waiting
    exact absurd (idle.symm.trans waiting) (by simp)
  · intro connecting
    exact absurd (idle.symm.trans connecting) (by simp)

/-- A step that writes at most the record of a new point, which is not delivered. -/
theorem Inv.write (inv : Inv g) {save : Nat} {flash : Nat → TracerBuf} (saveIn : save < bufStoreLimit)
    (comm : s'.comm = {g.s.comm with ring := {g.s.comm.ring with savePtr := save, flash := flash}})
    (server : s'.server = g.s.server)
    (slots : ∀ slot k, owner' slot = some k →
      g.owner slot = some k ∧ slotOf flash slot = slotOf g.s.comm.ring.flash slot ∨
      slot ∉ unmarked g.s.comm.ring ∧ delivered flash slot = false) :
    Inv ⟨s',owner',n,nextPending g s' none,g.acked⟩ := by
  rw [inv.nextPending_eq (by rw [comm])]
  apply Inv.of_ring (congrArg Comm.ring comm) inv.readIn saveIn inv.lastIn
  · intro slot k held flagged
    rcases slots slot k held with ⟨before,same⟩ | ⟨_,fresh⟩
    · rw [delivered,same] at flagged
      exact inv.honest slot k before flagged
    · exact absurd (flagged.symm.trans fresh) (by simp)
  · intro slot member k held
    rcases slots slot k held with ⟨before,_⟩ | ⟨outside,_⟩
    · exact inv.read slot member k before
    · exact absurd member outside
  · rw [comm]
    exact inv.ready
  · rw [comm]
    exact inv.answered
  · rw [comm,server]
    exact inv.served

theorem bufIncPtr_ne {x : Nat} (inside : x < bufStoreLimit) : bufIncPtr x ≠ x := by
  have limit : bufStoreLimit = 32768 := rfl
  rw [limit] at inside
  rw [bufIncPtr,limit]
  split_ifs <;> omega

theorem Inv.track_step (inv : Inv g) {env : Env} (keeps : Keeps g (.trackTask env)) :
    Inv ⟨trackTask env g.s,nextOwner g (trackTask env g.s) (.trackTask env),n,
      nextPending g (trackTask env g.s) none,g.acked⟩ := by
  obtain ⟨server,stores⟩ := trackTask_stores env g.s
  have apart : env.written = true → (trackTask env g.s).comm.ring.savePtr ≠ g.s.comm.ring.savePtr →
    g.s.comm.ring.savePtr ∉ unmarked g.s.comm.ring := keeps
  generalize trackTask env g.s = s' at server stores apart ⊢
  rcases stores with same | ⟨b,fresh,stored⟩
  · have unmoved : ¬ (env.written ∧ s'.comm.ring.savePtr ≠ g.s.comm.ring.savePtr) := by
      rw [same]
      exact fun moved => moved.2 rfl
    rw [nextOwner,if_neg unmoved]
    exact inv.trackOnly ⟨server,same⟩
  · have moved : s'.comm.ring.savePtr ≠ g.s.comm.ring.savePtr := by
      rw [stored]
      exact bufIncPtr_ne inv.saveIn
    apply inv.write (bufIncPtr_lt inv.saveIn) stored server
    intro slot k held
    cases written : env.written with
    | false =>
      rw [nextOwner,if_neg (by simp [written])] at held
      refine Or.inl ⟨held,?_⟩
      rw [tracerBufSave]
      split <;> rfl
    | true =>
      rw [nextOwner,if_pos ⟨written,moved⟩] at held
      rw [save_slot _ inv.saveIn]
      dsimp only
      rw [slotOf_update]
      by_cases here : slot = g.s.comm.ring.savePtr
      · rw [here]
        refine Or.inr ⟨apart written moved,?_⟩
        have kept : undelivered b.sealed = true := fresh
        rw [delivered,slotOf_update,Function.update_self,kept]
        rfl
      · rw [Function.update_of_ne here] at held ⊢
        exact Or.inl ⟨held,rfl⟩

theorem comm_step_inv (sdk : Sdk) (env : CommEnv) (g : Traced) (inv : Inv g) : Inv (step sdk g (.comm env)) := by
  have effect := commStep_effect sdk env g.s
  have fewer (s' : State) (slot k : Nat) (held : nextOwner g s' (.comm env) slot = some k) : g.owner slot = some k := by
    dsimp only [nextOwner] at held
    split at held
    · exact absurd held (by simp)
    · exact held
  rw [step,Input.apply]
  dsimp only [nextAcked]
  generalize commStep sdk env g.s = out at effect ⊢
  obtain ⟨s',slot⟩ := out
  dsimp only at effect ⊢
  cases effect with
  | rest ring h02 phase =>
    apply inv.keep ring h02 (fewer s') fun _ member => member
    · rcases phase with idle | same
      · exact fun t waiting => absurd (idle.symm.trans waiting) (by simp)
      · exact same ▸ inv.answered
    · rcases phase with idle | same
      · exact fun connecting => absurd (idle.symm.trans connecting) (by simp)
      · exact same ▸ inv.served
  | connect ring h02 phase served =>
    apply inv.keep ring h02 (fewer s') fun _ member => member
    · exact fun t waiting => absurd (phase.symm.trans waiting) (by simp)
    · exact fun _ _ _ => served
  | send ring h02 phase ack =>
    apply inv.keep ring h02 (fewer s') fun _ member => member
    · exact fun _ _ answered => absurd (ack.symm.trans answered) (by simp)
    · exact fun connecting => absurd connecting phase
  | drop ring before unserved idle done =>
    apply inv.clear ring done (fewer s')
    intro slot _ k _ waiting
    obtain ⟨ip,port⟩ := inv.served before k waiting
    exact absurd unserved (not_or.mpr ⟨ip,port⟩)
  | read empty loaded ring built idle => exact inv.read_step empty ring built idle (fewer s')
  | erase asked ring h02 idle => exact inv.erase_step ring h02 idle
  | done t before ack ring idle done => exact inv.done_step before ack ring done (fewer s')

theorem packetRx_step_inv (sdk : Sdk) (data : List UInt8) (port : Nat) (g : Traced) (inv : Inv g) :
    Inv (step sdk g (.packetRx data port)) := by
  have more : ∀ k ∈ g.acked, k ∈ nextAcked sdk g (.packetRx data port) := by
    intro k member
    unfold nextAcked
    dsimp only
    split
    · split_ifs
      · exact List.mem_append_right _ member
      · exact member
    · exact member
  have answer : ∀ t, g.s.comm.phase = .waiting t → (tracerPacketRx sdk data port g.s).1 = true →
      ∀ k ∈ g.pending, k ∈ nextAcked sdk g (.packetRx data port) := by
    intro t waiting accepted k pending
    simp only [nextAcked,waiting,accepted,if_true]
    exact List.mem_append_left _ (Option.mem_toList.mpr pending)
  rw [step,Input.apply]
  dsimp only
  generalize nextAcked sdk g (.packetRx data port) = acked' at more answer ⊢
  unfold tracerPacketRx at answer ⊢
  split_ifs at answer ⊢
  · exact inv.keep rfl rfl (fun _ _ held => held) more (fun t waiting ack k pending => more k (inv.answered t waiting ack k pending)) inv.served
  · exact inv.keep rfl rfl (fun _ _ held => held) more (fun t waiting ack k pending => more k (inv.answered t waiting ack k pending)) inv.served
  · exact inv.keep rfl rfl (fun _ _ held => held) more (fun t waiting _ => answer t waiting rfl) inv.served

theorem step_inv (sdk : Sdk) (g : Traced) (input : Input) (inv : Inv g) (keeps : Keeps g input) :
    Inv (step sdk g input) := by
  cases input with
  | start now => exact inv.trackOnly (tracerStart_only now g.s)
  | keyStart now => exact inv.trackOnly (tracerKeyStart_only now g.s)
  | stop now => exact inv.trackOnly (tracerStop_only now g.s)
  | test now => exact inv.trackOnly (tracerTest_only now g.s)
  | shockStart env state => exact inv.trackOnly (tracerShockStart_only env state g.s)
  | shockTask env => exact inv.trackOnly (tracerShockTask_only env g.s)
  | startPendingTask env => exact inv.trackOnly (startPendingTask_only env g.s)
  | trackTask env => exact inv.track_step keeps
  | reinit cfg => exact inv.clear (tracerReinit_ring cfg g.s) (tracerReinit_ready cfg g.s) (fun _ _ held => held) keeps
  | setId id saved =>
    have settled : id ≤ tracerUnitIdMax → saved = true → Settled g := keeps
    rw [step,Input.apply]
    dsimp only [nextOwner,nextAcked]
    unfold tracerSetId
    dsimp only
    split_ifs with big failed
    · exact inv.keep rfl rfl (fun _ _ held => held) (fun _ member => member) inv.answered inv.served
    · exact inv.keep rfl rfl (fun _ _ held => held) (fun _ member => member) inv.answered inv.served
    · exact inv.clear rfl rfl (fun _ _ held => held) (settled (Nat.le_of_not_lt big) (by simpa using failed))
  | setTrackId id now =>
    rw [step,Input.apply]
    dsimp only [nextOwner,nextAcked]
    unfold tracerSetTrackId
    exact inv.keep rfl rfl (fun _ _ held => held) (fun _ member => member) inv.answered inv.served
  | packetRx data port => exact packetRx_step_inv sdk data port g inv
  | comm env => exact comm_step_inv sdk env g inv

theorem start_inv (cfg : Config) (alloc : Bool) (readable : Nat → Bool) (flash : Nat → TracerBuf) :
    Inv (start cfg alloc readable flash) := by
  have pos : 0 < bufStoreLimit := by decide
  have initialised : (start cfg alloc readable flash).s.comm.ring =
      (tracerBufInit ⟨⟨0,0,flash⟩,0⟩ alloc readable).ring := by
    unfold start tracerInit
    dsimp only
    rw [tracerReinit_ring]
    rfl
  obtain ⟨kept,read,saveIn,lastIn⟩ := tracerBufInit_inside ⟨⟨0,0,flash⟩,0⟩ alloc readable rfl pos pos
  rw [← initialised] at kept read saveIn lastIn
  refine ⟨?_,saveIn,lastIn,?_,?_,?_,?_,?_⟩
  · rw [read]
    exact lastIn
  · intro slot k held flagged
    rw [kept] at flagged
    unfold start at held ⊢
    dsimp only at held ⊢
    split at held
    · next inside =>
      rw [← Option.some.inj held]
      exact List.mem_filter.mpr ⟨List.mem_range.mpr inside,flagged⟩
    · exact absurd held (by simp)
  · intro slot member
    rw [unmarked,read,Ring.window_self] at member
    exact absurd member List.not_mem_nil
  · exact fun k none => absurd none (by simp [start])
  · exact fun _ _ _ k none => absurd none (by simp [start])
  · exact fun _ k none => absurd none (by simp [start])

/-- Nothing is marked without an acknowledgement of it while no packet of an
unacknowledged point is thrown away. -/
theorem run_honest (sdk : Sdk) (cfg : Config) (alloc : Bool) (readable : Nat → Bool) (flash : Nat → TracerBuf)
    (inputs : List Input) (keeps : Run.Admits (step sdk) Keeps (start cfg alloc readable flash) inputs) :
    ∀ first rest, inputs = first ++ rest → Honest (Run.run (step sdk) (start cfg alloc readable flash) first) := by
  intro first rest split
  subst split
  apply Inv.honest
  exact Run.run_invariant (step sdk) Keeps Inv (step_inv sdk) _ first (start_inv cfg alloc readable flash)
    ((Run.admits_append (step sdk) Keeps _ first rest).mp keeps).1

end Invariant

/-- The read index stands on a slot that does not load. -/
structure Stuck (readable : Nat → Bool) (slot : Nat) (s : State) : Prop where
  here : s.comm.ring.readPtr = slot
  inside : slot < bufStoreLimit
  last : s.comm.ring.lastUndelivered < bufStoreLimit
  broken : ¬ Intact readable s.comm.ring.flash slot

theorem commStep_stuck {readable : Nat → Bool} {slot : Nat} (sdk : Sdk) (s : State) (env : CommEnv)
    (stuck : Stuck readable slot s) (same : env.readable = readable) (unasked : s.comm.newTrackIdSet = 0) :
    Stuck readable slot (commStep sdk env s).1 := by
  have effect := commStep_effect sdk env s
  have keep {s' : State} (ring : s'.comm.ring = s.comm.ring) : Stuck readable slot s' :=
    ⟨ring ▸ stuck.here,stuck.inside,ring ▸ stuck.last,ring ▸ stuck.broken⟩
  generalize commStep sdk env s = out at effect ⊢
  obtain ⟨s',read⟩ := out
  dsimp only at effect ⊢
  cases effect with
  | rest ring _ _ => exact keep ring
  | connect ring _ _ _ => exact keep ring
  | send ring _ _ _ => exact keep ring
  | drop ring _ _ _ _ => exact keep ring
  | read _ loaded _ _ _ =>
    rw [same,stuck.here] at loaded
    exact absurd loaded stuck.broken
  | erase asked _ _ _ => exact absurd unasked asked
  | done t _ _ ring _ _ =>
    have readIn : s.comm.ring.readPtr < bufStoreLimit := stuck.here ▸ stuck.inside
    obtain ⟨flash,last,marked,lastIn,_,kept⟩ :=
      delivered_all_spec s.comm.ring env.alloc env.readable env.written readIn stuck.last
    rw [marked] at ring
    have outside : slot ∉ unmarked s.comm.ring := by
      intro member
      exact (Ring.mem_window stuck.last readIn member).2 stuck.here.symm
    have slot_same := kept slot outside
    refine ⟨by rw [ring]; exact stuck.here,stuck.inside,by rw [ring]; exact lastIn,?_⟩
    have broken := stuck.broken
    unfold slotOf at slot_same
    rw [Intact,tracerBufLoad,← slot_same] at broken
    rw [Intact,tracerBufLoad,ring]
    exact broken

/-- `tracer_comm_process` stays on such a slot as long as the memory is not erased. -/
theorem comm_stuck {readable : Nat → Bool} {slot : Nat} (sdk : Sdk) (s : State) (envs : List CommEnv)
    (stuck : Stuck readable slot s)
    (admitted : Run.Admits (fun s env => (commStep sdk env s).1)
      (fun s env => env.readable = readable ∧ s.comm.newTrackIdSet = 0) s envs) :
    (Run.run (fun s env => (commStep sdk env s).1) s envs).comm.ring.readPtr = slot :=
  (Run.run_invariant (fun s env => (commStep sdk env s).1)
    (fun s env => env.readable = readable ∧ s.comm.newTrackIdSet = 0) (Stuck readable slot)
    (fun s env stuck allowed => commStep_stuck sdk s env stuck allowed.1 allowed.2) s envs stuck admitted).here

/-- A parser of patterns and decimal numbers, and positions without content. -/
def plainSdk : Sdk where
  stamp _ := ⟨0,0,0,0,0,⟨0,0,0,0,0,0⟩⟩
  knots speed := speed
  parsePattern data pattern := if pattern.isPrefixOf data then some (data.drop pattern.length) else none
  parseNumber data :=
    let digits := data.takeWhile fun c => 0x30 ≤ c ∧ c ≤ 0x39
    if digits = [] then none
    else some (digits.foldl (fun n c => 10 * n + (c.toNat - 0x30)) 0,data.drop digits.length)

def unitOne : Config := ⟨some (1,some 5013),some {paramDefault with unitId := 1}⟩

def driving (now : Nat) : Env where
  now := now
  powerFail := false
  battery := true
  gpsFix := true
  gpsSpeed := 50
  stampAge := 0
  direction := none
  roaming := false
  position := Vector.replicate 22 0
  positionValid := true
  ioTrack := false
  inputs := 0
  alloc := true
  written := true

def online (now : Nat) : CommEnv := ⟨now,true,fun _ => true,fun _ => true,true,unitOne⟩

/-- A point is stored, read and sent. -/
def upload (now : Nat) : List Input :=
  [.trackTask (driving now),.comm (online now),.comm (online now),.comm (online now)]

def ackOne : Input := .packetRx (ascii "*HQ,1,V4,V1,20240930174037#") 5013

def freshStart : Traced := start unitOne true (fun _ => true) erasedFlash

/-- The configuration is read again after the packet of the first point has been
built; the second point is then uploaded. -/
def reinitBeforeSending : List Input :=
  [.start 1000,.trackTask (driving 6000),.comm (online 6000),.reinit unitOne] ++ upload 7000

theorem nextAcked_mem {sdk : Sdk} {g : Traced} {input : Input} {k : Nat} (member : k ∈ nextAcked sdk g input) :
    k ∈ g.acked ∨ g.pending = some k := by
  unfold nextAcked at member
  split at member
  · split at member
    · split_ifs at member
      · exact (List.mem_append.mp member).symm.imp_right Option.mem_toList.mp
      · exact Or.inl member
    · exact Or.inl member
  · exact Or.inl member

theorem step_acked (sdk : Sdk) (g : Traced) (input : Input) : (step sdk g input).acked = nextAcked sdk g input := rfl

theorem reinitBeforeSending_acked :
    (Run.run (step plainSdk) freshStart reinitBeforeSending).acked = freshStart.acked := by
  simp only [reinitBeforeSending,upload,List.cons_append,List.nil_append,Run.run,List.foldl_cons,
    List.foldl_nil,step_acked,nextAcked]

/-- The acknowledgement of the second point marks the first one too. -/
theorem reinitBeforeSending_marks : ¬ Honest
    (Run.run (step plainSdk) freshStart (reinitBeforeSending ++ [ackOne,.comm (online 7000)])) := by
  intro honest
  have member := honest 0 (bufStoreLimit + 1) (by decide +kernel) (by decide +kernel)
  rw [Run.run_append] at member
  have answered : bufStoreLimit + 1 ∈
      nextAcked plainSdk (Run.run (step plainSdk) freshStart reinitBeforeSending) ackOne := member
  rcases nextAcked_mem answered with before | pending
  · rw [reinitBeforeSending_acked,freshStart,start] at before
    dsimp only at before
    rw [List.mem_filter,List.mem_range] at before
    omega
  · have second : (Run.run (step plainSdk) freshStart reinitBeforeSending).pending = some (bufStoreLimit + 4) := by
      decide +kernel
    have same := Option.some.inj (pending.symm.trans second)
    omega

def ackedUpload : List Input := [.start 1000] ++ upload 6000 ++ [ackOne,.comm (online 6000)]

theorem ackedUpload_honest : delivered (Run.run (step plainSdk) freshStart ackedUpload).s.comm.ring.flash 0 = true ∧
    Honest (Run.run (step plainSdk) freshStart ackedUpload) := by
  have keeps : Run.Admits (step plainSdk) Keeps freshStart ackedUpload :=
    ⟨trivial,fun _ _ => by decide +kernel,trivial,trivial,trivial,trivial,trivial,trivial⟩
  exact ⟨by decide +kernel,
    run_honest plainSdk unitOne true (fun _ => true) erasedFlash ackedUpload keeps ackedUpload [] (List.append_nil _).symm⟩

end JcaFirmware.TracerComm
