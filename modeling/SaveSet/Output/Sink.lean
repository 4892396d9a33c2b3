import SaveSet.Content.Feed
import SaveSet.Time.Stamp

namespace SaveSet

inductive Fault where
  | other
  | invalidInput
  | notFound
  | alreadyExists
  | notADirectory
  | isADirectory
  | invalidFilename
  deriving DecidableEq, Repr

/-- The state that a step leaves, and the fault that stopped it, if any. -/
structure Outcome (σ : Type) where
  state : σ
  fault : Option Fault
  deriving DecidableEq, Repr

namespace Outcome

variable {σ τ : Type}

def ok (s : σ) : Outcome σ := ⟨s, none⟩

def stop (s : σ) (f : Fault) : Outcome σ := ⟨s, some f⟩

def andThen (o : Outcome σ) (step : σ → Outcome σ) : Outcome σ :=
  match o.fault with
  | none => step o.state
  | some _ => o

def map (f : σ → τ) (o : Outcome σ) : Outcome τ := ⟨f o.state, o.fault⟩

@[simp] theorem andThen_ok (s : σ) (step : σ → Outcome σ) : (ok s).andThen step = step s := rfl

@[simp] theorem andThen_stop (s : σ) (f : Fault) (step : σ → Outcome σ) :
    (stop s f).andThen step = stop s f := rfl

theorem andThen_assoc (o : Outcome σ) (f g : σ → Outcome σ) :
    (o.andThen f).andThen g = o.andThen fun s => (f s).andThen g := by
  rcases o with ⟨s, _ | e⟩ <;> rfl

def each {α : Type} (step : α → σ → Outcome σ) : List α → σ → Outcome σ
  | [], s => ok s
  | x :: xs, s =>
    match step x s with
    | ⟨s, none⟩ => each step xs s
    | ⟨s, some f⟩ => stop s f

theorem each_cons {α : Type} (step : α → σ → Outcome σ) (x : α) (xs : List α) (s : σ) :
    each step (x :: xs) s = (step x s).andThen (each step xs) := by
  rw [each]
  rcases step x s with ⟨s, _ | f⟩ <;> rfl

end Outcome

structure Handle where
  index : Nat
  deriving DecidableEq, Repr

structure OpenRequest where
  name : String
  created : Stamp
  modified : Stamp
  deriving DecidableEq, Repr

class Sink (σ : Type) where
  openFile : OpenRequest → σ → Except Fault Handle × σ
  write : Handle → Bytes → σ → Outcome σ
  closeFile : Handle → σ → Outcome σ
  overwritten : σ → Option (Array UInt8) := fun _ => none

def deliver {σ : Type} [Sink σ] (h : Handle) (final : Content) :
    List Write → σ → Outcome (Content × σ)
  | [], s => .ok (final, s)
  | w :: ws, s =>
    match Sink.write h w.bytes s with
    | ⟨s, none⟩ => deliver h final ws s
    | ⟨s, some f⟩ => .stop (w.refused, s) f

end SaveSet
