import Mathlib.Data.Nat.Basic
import JcaFirmware.EventBufRun
import JcaFirmware.Foundation.FirstMin

/-! Which record a full event buffer gives up: `_buf_replace_prio` in terms of
the records, and the add that goes by it. -/
namespace JcaFirmware.EventBuf
open Foundation Foundation.Linked

section Search

theorem lowestPrio_lowest (s : Search) (es : List (Nat × Record)) :
    (walk lowestPrioVisit s es).1.lowestPrio ≤ s.lowestPrio ∧
      (∀ e ∈ es, (walk lowestPrioVisit s es).1.lowestPrio ≤ e.2.prio) ∧
      ((walk lowestPrioVisit s es).1.lowestPrio = s.lowestPrio ∨
        ∃ e ∈ es, e.2.prio = (walk lowestPrioVisit s es).1.lowestPrio) := by
  induction es generalizing s with
  | nil => exact ⟨le_rfl,by simp,Or.inl rfl⟩
  | cons e es ih =>
    obtain ⟨start,least,met⟩ := ih (lowestPrioVisit s e.1 e.2).acc
    change (walk lowestPrioVisit _ es).1.lowestPrio ≤ _ ∧ _
    have here : (lowestPrioVisit s e.1 e.2).acc.lowestPrio = min e.2.prio s.lowestPrio := by
      simp only [lowestPrioVisit]
      split_ifs with lower
      · exact (min_eq_left lower.le).symm
      · exact (min_eq_right (Nat.le_of_not_lt lower)).symm
    rw [here] at start met
    refine ⟨start.trans (min_le_right _ _),?_,?_⟩
    · intro e' member
      rcases List.mem_cons.mp member with rfl | later
      · exact start.trans (min_le_left _ _)
      · exact least e' later
    · rcases met with kept | ⟨e',member,found⟩
      · rcases le_total e.2.prio s.lowestPrio with lower | higher
        · exact Or.inr ⟨e,by simp,(kept.trans (min_eq_left lower)).symm⟩
        · exact Or.inl (kept.trans (min_eq_right higher))
      · exact Or.inr ⟨e',by simp [member],found⟩

theorem oldestPrio_first (s : Search) (es : List (Nat × Record)) (present : ∃ e ∈ es, e.2.prio = s.lowestPrio) :
    ∃ pre e post, es = pre ++ e :: post ∧ e.2.prio = s.lowestPrio ∧
      (∀ e' ∈ pre, e'.2.prio ≠ s.lowestPrio) ∧ (walk oldestPrioVisit s es).1.found = some e.1 := by
  induction es with
  | nil => simp at present
  | cons e es ih =>
    by_cases low : e.2.prio = s.lowestPrio
    · exact ⟨[],e,es,rfl,low,by simp,by simp [walk,oldestPrioVisit,low]⟩
    · obtain ⟨pre,e',post,split,same,before,found⟩ := ih (by simpa [low] using present)
      refine ⟨e :: pre,e',post,by rw [split]; rfl,same,?_,?_⟩
      · simpa [low] using before
      · simpa [walk,oldestPrioVisit,low] using found

end Search

/-- What `_buf_replace_prio` returns for a buffer with the chain `l`. When the
lowest priority is the one of the new event, the slot is the first of the
chain, whatever it holds. -/
inductive Victim (b : Buf) (l : List Nat) (prio : Nat) : Nat → Prop
  | refused (above : ∀ j ∈ l, prio < (record b j).prio) : Victim b l prio indexNil
  | start (present : ∃ j ∈ l, (record b j).prio = prio) (least : ∀ j ∈ l, prio ≤ (record b j).prio) :
      Victim b l prio b.startIndex
  | oldest (a c : List Nat) (index : Nat) (first : FirstMin (fun j => (record b j).prio) l a index c)
      (below : (record b index).prio < prio) : Victim b l prio index

theorem bufReplacePrio_victim {b : Buf} {l : List Nat} (rep : Rep b l) (filled : l ≠ [])
    (bounded : ∀ j ∈ l, (record b j).prio ≤ prioHi) (prio : Nat) :
    ∃ index, bufReplacePrio b prio = .ok index ∧ Victim b l prio index := by
  obtain ⟨s,searched,_,ran⟩ := bufReplacePrio_eq rep filled prio
  obtain ⟨_,least,met⟩ := lowestPrio_lowest ⟨prioHi,none⟩ (entries b l)
  rw [← searched] at least met
  have least : ∀ j ∈ l, s.lowestPrio ≤ (record b j).prio := by
    simpa [entries] using least
  have present : ∃ j ∈ l, (record b j).prio = s.lowestPrio := by
    rcases met with high | found
    · -- Nothing is below HI, and nothing is above it.
      obtain ⟨j,member⟩ := List.exists_mem_of_ne_nil l filled
      exact ⟨j,member,le_antisymm ((bounded j member).trans high.ge) (least j member)⟩
    · simpa [entries] using found
  rw [ran]
  split_ifs with above same
  · exact ⟨_,rfl,.refused fun j member => lt_of_lt_of_le above (least j member)⟩
  · exact ⟨_,rfl,.start (same ▸ present) (same ▸ least)⟩
  · obtain ⟨pre,e,post,split,low,before,found⟩ :=
      oldestPrio_first s (entries b l) (by simpa [entries] using present)
    obtain ⟨a,rest,rfl,preEq,restEq⟩ := List.map_eq_append_iff.mp split
    obtain ⟨i,c,rfl,eEq,postEq⟩ := List.map_eq_cons_iff.mp restEq
    subst preEq eEq postEq
    rw [found]
    have low : (record b i).prio = s.lowestPrio := low
    refine ⟨_,rfl,.oldest a c i ⟨rfl,?_,?_⟩ (by omega)⟩
    · intro j member
      have more := least j (by simp [member])
      have other := before (j,record b j) (List.mem_map_of_mem member)
      change (record b i).prio < (record b j).prio
      change (record b j).prio ≠ _ at other
      omega
    · intro j member
      exact low ▸ least j (by simp [member])

theorem bufFindFree_none (rounds : Nat) : ∀ b, Full b → b.testIndex < b.size → b.size ≤ 255 → rounds ≤ b.size →
    bufFindFree rounds b = .ok (indexNil,{b with testIndex := Ring.slot b.size b.testIndex rounds}) := by
  induction rounds with
  | zero =>
    intro b _ inside _ _
    have here : Ring.slot b.size b.testIndex 0 = b.testIndex := if_pos inside
    rw [here]
    rfl
  | succ rounds ih =>
    intro b full inside le enough
    have pos := Nat.zero_lt_of_lt inside
    have within := nextTest_lt pos
    have rest := ih {b with testIndex := nextTest b} full within le (Nat.le_of_succ_le enough)
    rw [bufFindFree_step pos,if_neg (full _ within),rest]
    have around : Ring.slot b.size (nextTest b) rounds = Ring.slot b.size b.testIndex (rounds + 1) := by
      unfold Ring.slot nextTest
      split_ifs <;> omega
    exact congrArg (fun test => Except.ok (indexNil,{b with testIndex := test})) around

/-- In a full buffer the search leaves nothing behind but its own cursor, which
comes back to where it stood in the array. -/
theorem bufFindFree_around {b : Buf} (full : Full b) (pos : 0 < b.size) (le : b.size ≤ 255) :
    ∃ test, bufFindFree b.size b = .ok (indexNil,{b with testIndex := test}) ∧
      (b.testIndex < b.size → test = b.testIndex) := by
  by_cases inside : b.testIndex < b.size
  · refine ⟨_,bufFindFree_none b.size b full inside le le_rfl,fun _ => ?_⟩
    unfold Ring.slot
    split_ifs <;> omega
  · obtain ⟨index,test,ran,⟨within,free⟩ | ⟨rfl,_⟩⟩ := bufFindFree_full pos le
    · exact absurd free (full index within)
    · exact ⟨test,ran,fun within => absurd within inside⟩

theorem full_used {b : Buf} {l : List Nat} (rep : Rep b l) (full : Full b) : b.lastIndex ≠ indexNil ∧ l ≠ [] := by
  have filled : l ≠ [] := List.ne_nil_of_mem ((rep.used 0).mpr ⟨rep.size_pos,full 0 rep.size_pos⟩)
  exact ⟨fun none => filled (rep.last_nil.mp none),filled⟩

theorem addEvent_evicts {b : Buf} {a c : List Nat} {i test prio user : Nat} (rep : Rep b (a ++ i :: c)) (full : Full b)
    (e : Event) (somebody : user ≠ userNone) (none : bufFindFree b.size b = .ok (indexNil,{b with testIndex := test}))
    (replaced : bufReplacePrio {b with testIndex := test} prio = .ok i) :
    ∃ b', addEvent b (some e) prio user = .ok (true,b') ∧
      records b' = a.map (record b) ++ c.map (record b) ++ [newRecord e prio user] := by
  have found : i ≠ indexNil := rep.ne_nil (by simp)
  have tested := rep.withTest test
  have absent : i ∉ a ++ c := (List.nodup_cons.mp (List.nodup_middle.mp rep.distinct)).1
  have start : a ++ c = [] → (unlinked {b with testIndex := test} a i c).startIndex = i := by
    intro empty
    obtain ⟨rfl,rfl⟩ := List.append_eq_nil_iff.mp empty
    exact rep.start
  have chose := writeIndex_replaced (full_used rep full).1 none replaced
  rw [if_pos found,deleteItem_eq tested,ok_bind] at chose
  obtain ⟨b',added,stored,_,new⟩ :=
    addEvent_stored e somebody chose found (unlinked_rep tested) (rep.lt (by simp)) absent start
  have kept : (a ++ c).map (record (unlinked {b with testIndex := test} a i c)) = (a ++ c).map (record b) :=
    List.map_congr_left fun j member => unlinked_record fun same => absent (same ▸ member)
  have parts : (a ++ c).map (record b) = a.map (record b) ++ c.map (record b) := List.map_append
  rw [kept,parts] at new
  exact ⟨b',added,stored.records_eq.trans new⟩

/-- The two ways an add to a full buffer succeeds: the head goes when `prio` is
the lowest priority stored, else the first record of the lowest. -/
inductive Discards (rs : List Record) (prio : Nat) : List Record → Record → List Record → Prop
  | head (r : Record) (post : List Record) (at_ : rs = r :: post) (present : ∃ r ∈ rs, r.prio = prio)
      (least : ∀ r ∈ rs, prio ≤ r.prio) : Discards rs prio [] r post
  | first (pre : List Record) (r : Record) (post : List Record) (first : FirstMin Record.prio rs pre r post)
      (below : r.prio < prio) : Discards rs prio pre r post

theorem addEvent_full {b : Buf} (sound : Sound b) (full : Full b) (bounded : ∀ r ∈ records b, r.prio ≤ prioHi)
    (e : Event) (prio : Nat) {user : Nat} (somebody : user ≠ userNone) :
    ((∀ r ∈ records b, prio < r.prio) ∧ ∃ test, (b.testIndex < b.size → test = b.testIndex) ∧
        addEvent b (some e) prio user = .ok (false,{b with testIndex := test})) ∨
      ∃ pre r post b', Discards (records b) prio pre r post ∧ addEvent b (some e) prio user = .ok (true,b') ∧
        records b' = pre ++ post ++ [newRecord e prio user] := by
  have rep := sound.rep
  obtain ⟨used,filled⟩ := full_used rep full
  obtain ⟨test,none,around⟩ := bufFindFree_around full rep.size_pos rep.size_le
  have limited : ∀ j ∈ chain b, (record b j).prio ≤ prioHi := fun j member =>
    bounded _ (List.mem_map_of_mem member)
  obtain ⟨index,replaced,victim⟩ := bufReplacePrio_victim (rep.withTest test) filled limited prio
  cases victim with
  | refused above =>
    have above : ∀ j ∈ chain b, prio < (record b j).prio := above
    refine Or.inl ⟨by simpa [records] using above,test,around,?_⟩
    have chose := writeIndex_replaced used none replaced
    rw [if_neg (by simp)] at chose
    rw [addEvent,if_neg somebody,chose,ok_bind]
    exact if_pos rfl
  | start present least =>
    have present : ∃ j ∈ chain b, (record b j).prio = prio := present
    have least : ∀ j ∈ chain b, prio ≤ (record b j).prio := least
    obtain ⟨i,c,split⟩ := List.exists_cons_of_ne_nil filled
    have start : b.startIndex = i := by
      rw [rep.start,split]
      rfl
    obtain ⟨b',added,new⟩ := addEvent_evicts (a := []) (c := c) (split ▸ rep) full e somebody none
      (replaced.trans (congrArg Except.ok start))
    refine Or.inr ⟨[],record b i,c.map (record b),b',.head _ _ ?_ ?_ ?_,added,new⟩
    · rw [records,split,List.map_cons]
    · simpa [records] using present
    · simpa [records] using least
  | oldest a c index first below =>
    obtain ⟨b',added,new⟩ := addEvent_evicts (first.split ▸ rep) full e somebody none replaced
    exact Or.inr ⟨_,record b index,_,b',.first _ _ _ (first.map (record b)) below,added,new⟩

/-- The policy: the oldest record of the lowest priority present goes, and only
if it is not above the new one; a refused add leaves the buffer as it was, up to
the cursor of the search for a free slot, if it was not in the array yet. -/
def Policy (b : Buf) (e : Event) (prio user : Nat) : Prop :=
  ∃ result b', addEvent b (some e) prio user = .ok (result,b') ∧
    ((∀ r ∈ records b, prio < r.prio) → result = false ∧ b' = {b with testIndex := b'.testIndex} ∧
      (b.testIndex < b.size → b' = b)) ∧
    ((∃ r ∈ records b, r.prio ≤ prio) → result = true ∧
      ∃ pre r post, FirstMin Record.prio (records b) pre r post ∧ r.prio ≤ prio ∧
        records b' = pre ++ post ++ [newRecord e prio user])

/-- When `prio` is the lowest priority stored, the oldest record has it. -/
def HeadLowest (b : Buf) (prio : Nat) : Prop :=
  (∃ r ∈ records b, r.prio = prio) → (∀ r ∈ records b, prio ≤ r.prio) → ∀ r ∈ (records b).head?, r.prio = prio

theorem policy_head {b : Buf} (sound : Sound b) (full : Full b) (bounded : ∀ r ∈ records b, r.prio ≤ prioHi)
    {e : Event} {prio user : Nat} (somebody : user ≠ userNone) (policy : Policy b e prio user) : HeadLowest b prio := by
  intro present least r atHead
  obtain ⟨r₀,member,same⟩ := present
  obtain ⟨result,b₁,ran₁,_,kept⟩ := policy
  obtain ⟨rfl,pre,r₁,post,first,_,new₁⟩ := kept ⟨r₀,member,same.le⟩
  have low : r₁.prio = prio := (first.key_eq member (same ▸ least)).trans same
  rcases addEvent_full sound full bounded e prio somebody with ⟨above,_⟩ | ⟨_,old,_,b',discards,ran,new⟩
  · exact absurd (above r₀ member) (by omega)
  obtain rfl : b₁ = b' := (Prod.mk.inj (Except.ok.inj (ran₁.symm.trans ran))).2
  cases discards with
  | head _ _ split _ _ =>
    rw [split] at atHead first
    obtain rfl : old = r := Option.some.inj atHead
    have same := List.append_cancel_right (new₁.symm.trans new)
    exact (first.removed_head same).trans low
  | first _ r' _ first' below =>
    have := least _ first'.mem
    omega

theorem head_policy {b : Buf} (sound : Sound b) (full : Full b) (bounded : ∀ r ∈ records b, r.prio ≤ prioHi)
    (e : Event) {prio user : Nat} (somebody : user ≠ userNone) (head : HeadLowest b prio) : Policy b e prio user := by
  rcases addEvent_full sound full bounded e prio somebody with
    ⟨above,test,around,ran⟩ | ⟨pre,old,post,b',discards,ran,new⟩
  · refine ⟨false,_,ran,fun _ => ⟨rfl,rfl,fun inside => by rw [around inside]⟩,?_⟩
    rintro ⟨r,member,low⟩
    exact absurd (above r member) (Nat.not_lt.mpr low)
  · have first : FirstMin Record.prio (records b) pre old post ∧ old.prio ≤ prio := by
      cases discards with
      | head _ _ split present least =>
        have low : old.prio = prio := head present least old (by simp [split])
        refine ⟨?_,low.le⟩
        rw [split] at least ⊢
        exact FirstMin.head fun r member => low ▸ least r (by simp [member])
      | first _ _ _ first below => exact ⟨first,below.le⟩
    refine ⟨true,b',ran,fun above => ?_,fun _ => ⟨rfl,pre,old,post,first.1,first.2,new⟩⟩
    exact absurd (above old first.1.mem) (Nat.not_lt.mpr first.2)

/-- A full buffer follows the policy exactly when its oldest record is of the
lowest priority stored, or that priority is not the one of the new event. -/
theorem evicts_iff {b : Buf} (sound : Sound b) (full : Full b) (bounded : ∀ r ∈ records b, r.prio ≤ prioHi)
    (e : Event) {prio user : Nat} (somebody : user ≠ userNone) : Policy b e prio user ↔ HeadLowest b prio :=
  ⟨policy_head sound full bounded somebody,head_policy sound full bounded e somebody⟩

def mixed : Except Fault Buf :=
  runOps (init emptySlots 2) [.addEvent (some Event.erased) prioHi 7,.addEvent (some Event.erased) prioLo 7]

theorem mixed_full : ∃ b, mixed = .ok b ∧ Sound b ∧ Full b ∧ (∀ r ∈ records b, r.prio ≤ prioHi) ∧
    records b = [newRecord Event.erased prioHi 7,newRecord Event.erased prioLo 7] := by
  obtain ⟨b,ran,sound⟩ := reachable_sound emptySlots ⟨2,by decide⟩
    [.addEvent (some Event.erased) prioHi 7,.addEvent (some Event.erased) prioLo 7]
  have seen : (do
      let b ← mixed
      .ok (b.size,(b.items 0).flag,(b.items 1).flag,records b)) = Except.ok (2,Status.pending.flag,
        Status.pending.flag,[newRecord Event.erased prioHi 7,newRecord Event.erased prioLo 7]) := by rfl
  have ran : mixed = .ok b := ran
  rw [ran,ok_bind] at seen
  simp only [Except.ok.injEq,Prod.mk.injEq] at seen
  obtain ⟨size,first,second,stored⟩ := seen
  refine ⟨b,ran,sound,?_,by rw [stored]; decide,stored⟩
  intro i inside
  obtain rfl | rfl : i = 0 ∨ i = 1 := by omega
  · exact first ▸ status_flag_ne_zero _
  · exact second ▸ status_flag_ne_zero _

/-- The new LO record takes the place of the HI one. -/
theorem evicts_high : ∃ b, mixed = .ok b ∧ Sound b ∧ Full b ∧ (∀ r ∈ records b, r.prio ≤ prioHi) ∧
    ¬ Policy b Event.erased prioLo 7 := by
  obtain ⟨b,ran,sound,full,bounded,stored⟩ := mixed_full
  refine ⟨b,ran,sound,full,bounded,fun policy => ?_⟩
  have head := policy_head sound full bounded (by decide) policy
  unfold HeadLowest at head
  rw [stored] at head
  exact absurd head (by decide)

theorem evicts_iff_mixed : ∃ b, mixed = .ok b ∧ Policy b Event.erased prioStd 7 := by
  obtain ⟨b,ran,sound,full,bounded,stored⟩ := mixed_full
  refine ⟨b,ran,(evicts_iff sound full bounded _ (by decide)).mpr ?_⟩
  unfold HeadLowest
  rw [stored]
  decide

end JcaFirmware.EventBuf
