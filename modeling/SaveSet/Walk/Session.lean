import SaveSet.Walk.Catalog
import SaveSet.Walk.Event

namespace SaveSet

inductive Pass where
  | scan
  | extract
  deriving DecidableEq, Repr

structure Listed where
  attributes : FileAttributes
  flags : RecordFlags
  deriving DecidableEq, Repr

structure Report where
  files : Array Listed := #[]
  extracted : Nat := 0
  warnings : Array Warning := #[]
  deriving DecidableEq, Repr, Inhabited

structure Session (σ : Type) where
  catalog : Catalog
  sink : σ
  active : Option String := none
  report : Report := {}

structure PassRules where
  pass : Pass
  extract : Bool
  detail : Detail
  deriving DecidableEq, Repr

def PassRules.ofOptions (o : Options) (pass : Pass) : PassRules := ⟨pass, o.extract, o.detail⟩

namespace Session

variable {σ : Type} [Sink σ]

def warn (s : Session σ) (w : Warning) : Session σ :=
  { s with report := { s.report with warnings := s.report.warnings.push w } }

def setTarget (s : Session σ) (key : String) (t : Target) : Session σ :=
  { s with catalog := s.catalog.modify key fun _ => t }

/-- Ends the active file if it is open: puts out what is held back, closes it in any case, and warns
if it is not complete. Of two faults the first one counts. -/
def close (s : Session σ) : Outcome (Session σ) :=
  match s.active with
  | none => .ok s
  | some key =>
    let s := { s with active := none }
    match s.catalog.target? key with
    | none => .ok s
    | some t =>
      match t.handle with
      | none => .ok s
      | some h =>
        let flushed := t.finish s.sink
        let closed := Sink.closeFile h flushed.state.2
        let t := { flushed.state.1 with handle := none }
        let s := { s.setTarget key t with sink := closed.state }
        let s := if t.content.isComplete then s
          else s.warn (.incomplete key t.content.position t.content.size)
        ⟨s, flushed.fault <|> closed.fault⟩

def list (s : Session σ) (a : FileAttributes) (flags : RecordFlags) : Session σ :=
  { s with report := { s.report with files := s.report.files.push ⟨a, flags⟩ } }

def startScan (rules : PassRules) (t : Target) : Target :=
  { t with content :=
    { t.content.reset with settled := !(rules.extract && t.content.mode == .smart) } }

def startExtract (t : Target) : Target :=
  { t with content :=
    { t.content.reset with mode := if t.content.mode = .smart then .ascii else t.content.mode } }

def startListing (t : Target) : Target :=
  { t with content := { t.content.reset with settled := true } }

def start (rules : PassRules) (key : String) (a : FileAttributes) (flags : RecordFlags)
    (s : Session σ) : Outcome (Session σ) :=
  match rules.pass with
  | .scan =>
    .ok { s with catalog := s.catalog.modify key (startScan rules), active := some key }
  | .extract =>
    if rules.extract then
      let s := { s with catalog := s.catalog.modify key startExtract }
      match Sink.openFile ⟨key, a.created, a.revised⟩ s.sink with
      | (.error f, sink) => .stop { s with sink } f
      | (.ok h, sink) =>
        let s := { s with sink, catalog := s.catalog.modify key fun t => { t with handle := some h } }
        let s := { s with report := { s.report with extracted := s.report.extracted + 1 } }
        .ok { s.list a flags with active := some key }
    else
      let s := { s with catalog := s.catalog.modify key startListing }
      .ok { s.list a flags with active := some key }

def file (rules : PassRules) (a : FileAttributes) (flags : RecordFlags) (s : Session σ) :
    Outcome (Session σ) :=
  let r := s.catalog.register a
  let s := { s with catalog := r.2 }
  if r.1.selected then s.start rules r.1.key a flags else .ok s

def data (payload : Bytes) (s : Session σ) : Outcome (Session σ) :=
  match s.active with
  | none => .ok s
  | some key =>
    match s.catalog.target? key with
    | none => .ok s
    | some t =>
      if t.content.settled then .ok s
      else (t.feed payload s.sink).map fun r => { s.setTarget key r.1 with sink := r.2 }

def reportsRecord (rules : PassRules) (last : Bool) : Bool :=
  rules.pass == .extract && !(last && rules.detail == .none)

def reportsBlock (rules : PassRules) (last : Bool) : Bool := rules.pass == .extract && !last

def apply (rules : PassRules) (last : Bool) (e : Event) (s : Session σ) : Outcome (Session σ) :=
  match e with
  | .idle => .ok s
  | .boundary => s.close
  | .file a flags => s.close.andThen (file rules a flags)
  | .data payload => s.data payload
  | .badRecord w => s.close.andThen fun s => .ok (if reportsRecord rules last then s.warn w else s)
  | .badBlock w => s.close.andThen fun s => .ok (if reportsBlock rules last then s.warn w else s)

def applyAll (rules : PassRules) (last : Bool) (es : List Event) (s : Session σ) :
    Outcome (Session σ) :=
  Outcome.each (apply rules last) es s

end Session

end SaveSet
