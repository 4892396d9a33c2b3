import SaveSet.Input.Reader
import SaveSet.Walk.Session

/-! One pass over a save set: its blocks in order, and the end of the last file however the pass
ends. Blocks are equal pieces of the bytes from a position on, the last one perhaps shorter. -/

namespace SaveSet

structure Walked (σ : Type) where
  outcome : Outcome (Session σ)
  reader : Reader

variable {σ : Type} [Sink σ]

def Session.refresh (s : Session σ) (r : Reader) : Reader :=
  match Sink.overwritten s.sink with
  | none => r
  | some bytes => r.replace bytes

theorem Session.length_refresh (s : Session σ) (r : Reader) : (s.refresh r).length = r.length := by
  unfold refresh
  split <;> rfl

theorem Session.position_refresh (s : Session σ) (r : Reader) : (s.refresh r).position = r.position := by
  unfold refresh
  split <;> rfl

def walkBlocks (rules : PassRules) (g : Geometry) (r : Reader) (s : Session σ) : Walked σ :=
  if _h : r.atEnd then ⟨.ok s, r⟩
  else
    match _hr : (s.refresh r).read g.blockSize with
    | (.error f, r') => ⟨.stop s f, r'⟩
    | (.ok bytes, r') =>
      if _hb : bytes.isEmpty then ⟨.ok s, r'⟩
      else
        match s.applyAll rules (r.length - r.position ≤ g.blockSize) (readBlock g bytes).events with
        | ⟨t, some f⟩ => ⟨.stop t f, r'⟩
        | ⟨t, none⟩ =>
          if Bytes.holds g.blockSize bytes then walkBlocks rules g r' t else ⟨.ok t, r'⟩
termination_by r.length - r.position
decreasing_by
  have hl := (s.refresh r).read_length g.blockSize
  have hp := @Reader.read_position (s.refresh r) g.blockSize bytes (by rw [_hr])
  simp only [_hr, Session.length_refresh, Session.position_refresh] at hl hp
  have hn : ¬ r.length ≤ r.position := fun hle => _h (decide_eq_true hle)
  have hb : bytes.length ≠ 0 := by simpa using _hb
  omega

structure PassState (σ : Type) where
  catalog : Catalog
  sink : σ
  reader : Reader
  report : Report
  passes : Nat

/-- Walks the save set that starts at `origin`. The active file is closed in any case; of several
faults the first one counts. -/
def traverse (rules : PassRules) (g : Geometry) (origin : Nat) (p : PassState σ) :
    Outcome (PassState σ) :=
  let start : Session σ := { catalog := p.catalog.reset, sink := p.sink }
  let walked := walkBlocks rules g (p.reader.moveTo origin) start
  let closed := walked.outcome.state.close
  ⟨⟨closed.state.catalog, closed.state.sink, walked.reader, closed.state.report, p.passes⟩,
    walked.outcome.fault <|> closed.fault⟩

end SaveSet
