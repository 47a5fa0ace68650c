import Mathlib.Logic.Basic
import Mathlib.Data.List.Basic

/-! Tasks of a cooperative system. A task changes a state and takes an input of the environment wherever it waits; when the
inputs end it stands where it is. A statement about all inputs is thus one about all interleavings. -/
namespace JcaFirmware.Foundation

variable {S I α β : Type}

/-- The result, if the task has come to its end, the state, and the inputs that are left. -/
def Task (S I α : Type) : Type := S → List I → Option α × S × List I

namespace Task

def pure (a : α) : Task S I α := fun s inputs => (some a,s,inputs)

def bind (t : Task S I α) (f : α → Task S I β) : Task S I β := fun s inputs =>
  match t s inputs with
  | (some a,s,inputs) => f a s inputs
  | (none,s,inputs) => (none,s,inputs)

instance : Monad (Task S I) where
  pure := Task.pure
  bind := Task.bind

def read (f : S → α) : Task S I α := fun s inputs => (some (f s),s,inputs)

def modify (f : S → S) : Task S I Unit := fun s inputs => (some (),f s,inputs)

/-- Wait for one input. -/
def next (f : I → S → S) : Task S I Unit := fun s inputs =>
  match inputs with
  | [] => (none,s,[])
  | input :: inputs => (some (),f input s,inputs)

/-- Wait until there is a result. -/
def await (f : I → S → S) (done : S → Option α) : Task S I α := fun s inputs =>
  match done s with
  | some a => (some a,s,inputs)
  | none =>
    match inputs with
    | [] => (none,s,[])
    | input :: inputs => await f done (f input s) inputs

/-- The task over and over again. -/
def loop (t : Task S I Unit) : Nat → Task S I Unit
  | 0 => Task.pure ()
  | n + 1 => t.bind fun _ => loop t n

/-- From the precondition, the task keeps the invariant, wherever it stands, and ends in the postcondition. -/
def Triple (always pre : S → Prop) (t : Task S I α) (post : α → S → Prop) : Prop :=
  ∀ s inputs, always s → pre s → always (t s inputs).2.1 ∧ ∀ a, (t s inputs).1 = some a → post a (t s inputs).2.1

namespace Triple
variable {always pre pre' : S → Prop} {t : Task S I α} {post post' : α → S → Prop}

theorem pure {a : α} (holds : ∀ s, always s → pre s → post a s) : Triple always pre (Pure.pure a : Task S I α) post := by
  intro s inputs invariant start
  refine ⟨invariant,fun b same => ?_⟩
  cases same
  exact holds s invariant start

theorem bind (mid : α → S → Prop) {f : α → Task S I β} {post : β → S → Prop} (first : Triple always pre t mid)
    (second : ∀ a, Triple always (mid a) (f a) post) : Triple always pre (t >>= f) post := by
  intro s inputs invariant start
  obtain ⟨kept,ends⟩ := first s inputs invariant start
  change always (Task.bind t f s inputs).2.1 ∧ ∀ b, (Task.bind t f s inputs).1 = some b → post b (Task.bind t f s inputs).2.1
  unfold Task.bind
  generalize t s inputs = result at kept ends ⊢
  rcases result with ⟨_ | a,s',inputs'⟩
  · exact ⟨kept,nofun⟩
  · exact second a s' inputs' kept (ends a rfl)

theorem read {f : S → β} {post : β → S → Prop} (holds : ∀ s, always s → pre s → post (f s) s) :
    Triple always pre (Task.read f : Task S I β) post := by
  intro s inputs invariant start
  refine ⟨invariant,fun b same => ?_⟩
  cases same
  exact holds s invariant start

theorem modify {f : S → S} {post : Unit → S → Prop} (holds : ∀ s, always s → pre s → always (f s) ∧ post () (f s)) :
    Triple always pre (Task.modify f : Task S I Unit) post := by
  intro s inputs invariant start
  obtain ⟨kept,reached⟩ := holds s invariant start
  exact ⟨kept,fun _ _ => reached⟩

theorem next {f : I → S → S} {post : Unit → S → Prop} (holds : ∀ input s, always s → pre s → always (f input s) ∧ post () (f input s)) :
    Triple always pre (Task.next f) post := by
  intro s inputs invariant start
  cases inputs with
  | nil => exact ⟨invariant,nofun⟩
  | cons input inputs =>
    obtain ⟨kept,reached⟩ := holds input s invariant start
    exact ⟨kept,fun _ _ => reached⟩

/-- What every input keeps is there when the wait ends. -/
theorem await {f : I → S → S} {done : S → Option β} {post : β → S → Prop}
    (holds : ∀ input s, always s → pre s → always (f input s) ∧ pre (f input s))
    (ends : ∀ s b, always s → pre s → done s = some b → post b s) : Triple always pre (Task.await f done) post := by
  intro s inputs invariant start
  induction inputs generalizing s with
  | nil =>
    rw [Task.await]
    cases found : done s with
    | none => exact ⟨invariant,nofun⟩
    | some b =>
      refine ⟨invariant,fun c same => ?_⟩
      cases same
      exact ends s b invariant start found
  | cons input inputs ih =>
    rw [Task.await]
    cases found : done s with
    | none =>
      obtain ⟨kept,again⟩ := holds input s invariant start
      exact ih (f input s) kept again
    | some b =>
      refine ⟨invariant,fun c same => ?_⟩
      cases same
      exact ends s b invariant start found

theorem weaken (holds : Triple always pre t post) (before : ∀ s, always s → pre' s → pre s)
    (behind : ∀ a s, post a s → post' a s) : Triple always pre' t post' := by
  intro s inputs invariant start
  obtain ⟨kept,ends⟩ := holds s inputs invariant (before s invariant start)
  exact ⟨kept,fun a same => behind a _ (ends a same)⟩

/-- A precondition that is kept beside the invariant. -/
theorem frame (holds : Triple (fun s => always s ∧ pre s) (fun _ => True) t post) : Triple always pre t fun a s => pre s ∧ post a s := by
  intro s inputs invariant start
  obtain ⟨⟨kept,still⟩,ends⟩ := holds s inputs ⟨invariant,start⟩ trivial
  exact ⟨kept,fun a same => ⟨still,ends a same⟩⟩

/-- A precondition that says nothing of the state. -/
theorem given {fact : Prop} (holds : fact → Triple always (fun _ => True) t post) : Triple always (fun _ => fact) t post :=
  fun s inputs invariant start => holds start s inputs invariant trivial

theorem ite {condition : Prop} [Decidable condition] {t' : Task S I α} (yes : condition → Triple always pre t post)
    (no : ¬ condition → Triple always pre t' post) : Triple always pre (if condition then t else t') post := by
  split
  · exact yes ‹_›
  · exact no ‹_›

theorem loop {t : Task S I Unit} (body : Triple always pre t fun _ s => pre s) (n : Nat) :
    Triple always pre (Task.loop t n) fun _ s => pre s := by
  induction n with
  | zero => exact .pure fun _ _ start => start
  | succ n ih => exact .bind _ body fun _ => ih

end Triple

/-- The task keeps the invariant. -/
def Keeps (always : S → Prop) (t : Task S I α) : Prop := Triple always (fun _ => True) t fun _ _ => True

namespace Keeps
variable {always : S → Prop} {t : Task S I α}

theorem pure (a : α) : Keeps always (Pure.pure a : Task S I α) := Triple.pure fun _ _ _ => trivial

theorem bind {f : α → Task S I β} (first : Keeps always t) (second : ∀ a, Keeps always (f a)) : Keeps always (t >>= f) :=
  Triple.bind _ first second

theorem read (f : S → β) : Keeps always (Task.read f : Task S I β) := Triple.read fun _ _ _ => trivial

theorem modify {f : S → S} (holds : ∀ s, always s → always (f s)) : Keeps always (Task.modify f : Task S I Unit) :=
  Triple.modify fun s invariant _ => ⟨holds s invariant,trivial⟩

theorem next {f : I → S → S} (holds : ∀ input s, always s → always (f input s)) : Keeps always (Task.next f) :=
  Triple.next fun input s invariant _ => ⟨holds input s invariant,trivial⟩

theorem await {f : I → S → S} (done : S → Option β) (holds : ∀ input s, always s → always (f input s)) :
    Keeps always (Task.await f done) :=
  Triple.await (fun input s invariant _ => ⟨holds input s invariant,trivial⟩) fun _ _ _ _ _ => trivial

theorem ite {condition : Prop} [Decidable condition] {t' : Task S I α} (yes : Keeps always t) (no : Keeps always t') :
    Keeps always (if condition then t else t') :=
  Triple.ite (fun _ => yes) fun _ => no

theorem of_triple {post : α → S → Prop} (holds : Triple always (fun _ => True) t post) : Keeps always t :=
  holds.weaken (fun _ _ start => start) fun _ _ _ => trivial

/-- A condition that is kept beside the invariant is still there at the end. -/
theorem triple {pre : S → Prop} (holds : Keeps (fun s => always s ∧ pre s) t) : Triple always pre t fun _ s => pre s :=
  (Triple.frame holds).weaken (fun _ _ start => start) fun _ _ reached => reached.1

/-- A stronger condition that is kept takes the task from it back to it. -/
theorem within {inner : S → Prop} (holds : Keeps inner t) (implies : ∀ s, inner s → always s) :
    Triple always inner t fun _ s => inner s := by
  intro s inputs _ start
  have kept := (holds s inputs start trivial).1
  exact ⟨implies _ kept,fun _ _ => kept⟩

theorem loop {t : Task S I Unit} (body : Keeps always t) (n : Nat) : Keeps always (Task.loop t n) := Triple.loop body n

/-- An invariant of the start holds wherever a task stands. -/
theorem run (holds : Keeps always t) {s : S} (start : always s) (inputs : List I) : always (t s inputs).2.1 :=
  (holds s inputs start trivial).1

end Keeps

end Task
end JcaFirmware.Foundation
