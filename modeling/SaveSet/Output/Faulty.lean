import SaveSet.Output.Sink

namespace SaveSet

structure FaultPlan where
  openFile : Nat → Option Fault
  write : Nat → Option Fault
  closeFile : Nat → Option Fault

def FaultPlan.once (openFile write closeFile : Nat) : FaultPlan where
  openFile n := if n = openFile then some .other else none
  write n := if n = write then some .other else none
  closeFile n := if n = closeFile then some .other else none

structure Faulty (σ : Type) where
  plan : FaultPlan
  sink : σ
  opens : Nat := 0
  writes : Nat := 0
  closes : Nat := 0

namespace Faulty

variable {σ : Type} [Sink σ]

def openFile (r : OpenRequest) (s : Faulty σ) : Except Fault Handle × Faulty σ :=
  let s := { s with opens := s.opens + 1 }
  match s.plan.openFile s.opens with
  | some f => (.error f, s)
  | none =>
    let o := Sink.openFile r s.sink
    (o.1, { s with sink := o.2 })

def write (h : Handle) (data : Bytes) (s : Faulty σ) : Outcome (Faulty σ) :=
  let s := { s with writes := s.writes + 1 }
  match s.plan.write s.writes with
  | some f => .stop s f
  | none => (Sink.write h data s.sink).map fun t => { s with sink := t }

def closeFile (h : Handle) (s : Faulty σ) : Outcome (Faulty σ) :=
  let s := { s with closes := s.closes + 1 }
  match s.plan.closeFile s.closes with
  | some f => .stop s f
  | none => (Sink.closeFile h s.sink).map fun t => { s with sink := t }

instance : Sink (Faulty σ) where
  openFile := openFile
  write := write
  closeFile := closeFile
  overwritten s := Sink.overwritten s.sink

end Faulty

end SaveSet
