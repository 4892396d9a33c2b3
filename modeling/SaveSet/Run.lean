import SaveSet.Walk.Traversal

namespace SaveSet

inductive RunError where
  | truncated (shortfall : Shortfall)
  | geometry (g : Geometry)
  | io (fault : Fault)
  deriving DecidableEq, Repr

def RunError.message : RunError → String
  | truncated s => s.message
  | geometry g =>
    "block size " ++ Numeral.natural g.blockSize ++ " cannot frame a " ++
      Numeral.natural g.headerSize ++ "-byte block header"
  | io _ => ""

structure Summary where
  passes : Nat
  name : String
  blockSize : Nat
  files : List Listed
  extracted : Nat
  warnings : List Warning
  deriving DecidableEq, Repr

structure RunResult (σ : Type) where
  result : Except RunError Summary
  reader : Reader
  sink : σ

namespace Geometry

def maxBlockSize : Nat := 16 * 1024 * 1024

def ofHeader (h : BlockHeader) : Geometry := ⟨h.blockSize, h.headerSize⟩

def isFramed (g : Geometry) : Bool :=
  g.blockSize != 0 && g.headerSize ≤ g.blockSize && g.blockSize ≤ maxBlockSize

end Geometry

/-- Contents are sniffed and versions learnt in a pass of its own, if anything depends on them. -/
def passesOf (o : Options) : List Pass := if o.needsScan then [.scan, .extract] else [.extract]

variable {σ : Type} [Sink σ]

def runPass (o : Options) (g : Geometry) (origin : Nat) (pass : Pass) (p : PassState σ) : Outcome (PassState σ) :=
  (traverse (.ofOptions o pass) g origin p).andThen fun q => .ok { q with passes := q.passes + 1 }

theorem sink_runPass (o : Options) (g : Geometry) (origin : Nat) (pass : Pass) (p : PassState σ) :
    (runPass o g origin pass p).state.sink = (traverse (.ofOptions o pass) g origin p).state.sink := by
  unfold runPass
  rcases traverse (.ofOptions o pass) g origin p with ⟨q, _ | f⟩ <;> rfl

def runPasses (o : Options) (g : Geometry) (origin : Nat) (reader : Reader) (sink : σ) :
    Outcome (PassState σ) :=
  Outcome.each (runPass o g origin) (passesOf o) ⟨.ofOptions o, sink, reader, {}, 0⟩

def run (o : Options) (reader : Reader) (sink : σ) : RunResult σ :=
  match reader.read BlockHeader.layout.length with
  | (.error f, reader) => ⟨.error (.io f), reader, sink⟩
  | (.ok probe, probed) =>
    match BlockHeader.decode probe with
    | .error s => ⟨.error (.truncated s), probed, sink⟩
    | .ok h =>
      let g := Geometry.ofHeader h
      if !g.isFramed then ⟨.error (.geometry g), probed, sink⟩
      else
        let done := runPasses o g reader.position probed sink
        let p := done.state
        match done.fault with
        | some f => ⟨.error (.io f), p.reader, p.sink⟩
        | none =>
          ⟨.ok {
            passes := p.passes
            name := h.name
            blockSize := g.blockSize
            files := p.report.files.toList
            extracted := p.report.extracted
            warnings := p.report.warnings.toList }, p.reader, p.sink⟩

/-- A run is refused before its first pass, or it leaves what its passes leave. -/
theorem run_cases (o : Options) (r : Reader) (s : σ) :
    (∃ e r', run o r s = ⟨.error e, r', s⟩) ∨
      ∃ g probed, (run o r s).sink = (runPasses o g r.position probed s).state.sink ∧
        ∀ summary, (run o r s).result = .ok summary →
          ∃ q, runPasses o g r.position probed s = .ok q ∧ summary.passes = q.passes := by
  rw [run]
  split
  · exact .inl ⟨_, _, rfl⟩
  · next probe probed hread =>
    split
    · exact .inl ⟨_, _, rfl⟩
    · next h hd =>
      dsimp only
      split
      · exact .inl ⟨_, _, rfl⟩
      · refine .inr ⟨.ofHeader h, probed, ?_⟩
        rcases runPasses o (.ofHeader h) r.position probed s with ⟨q, _ | f⟩
        · refine ⟨rfl, fun summary hok => ⟨q, rfl, ?_⟩⟩
          cases hok
          rfl
        · refine ⟨rfl, fun summary hok => ?_⟩
          cases hok

end SaveSet
