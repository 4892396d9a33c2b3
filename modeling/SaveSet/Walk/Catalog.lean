import SaveSet.Attribute.File
import SaveSet.Name.Mask
import SaveSet.Name.Version
import SaveSet.Output.Sink
import SaveSet.Selection.Options
import SaveSet.Table

/-! The files met so far, by full specification, and the newest version of each name. Versions and
settled modes outlive a pass; everything else about the content starts anew. -/

namespace SaveSet

structure Target where
  name : String
  version : Int
  selected : Bool
  content : Content
  handle : Option Handle
  deriving DecidableEq, Repr

namespace Target

variable {σ : Type} [Sink σ]

def put (t : Target) (e : Emission Content) (s : σ) : Outcome (Target × σ) :=
  match t.handle with
  | none => .ok ({ t with content := e.value }, s)
  | some h => (deliver h e.value e.writes s).map fun r => ({ t with content := r.1 }, r.2)

def feed (t : Target) (payload : Bytes) (s : σ) : Outcome (Target × σ) :=
  t.put (t.content.feed t.handle.isSome payload) s

def finish (t : Target) (s : σ) : Outcome (Target × σ) :=
  if t.handle.isSome then t.put t.content.finish s else .ok (t, s)

end Target

structure Decision where
  key : String
  version : Int
  matched : Bool
  selected : Bool
  deriving DecidableEq, Repr

structure Catalog where
  mask : Mask
  selector : Selector
  mode : ContentMode
  newest : Table String Int
  targets : Table String Target
  deriving DecidableEq, Repr

namespace Catalog

def ofOptions (o : Options) : Catalog :=
  { mask := .compile o.mask, selector := o.version, mode := o.mode, newest := .empty, targets := .empty }

def newTarget (mode : ContentMode) (key : String) (a : FileAttributes) : Target :=
  { name := key
    version := Name.version key
    selected := false
    content := { size := a.fileSize, format := a.recordFormat, mode }
    handle := none }

def raiseNewest (t : Table String Int) (base : String) (version : Int) : Table String Int :=
  t.put base (max ((t.get? base).getD version) version)

/-- Takes note of a file and decides whether it is wanted. The newest version is the newest so far,
and only counts names that match. -/
def register (c : Catalog) (a : FileAttributes) : Decision × Catalog :=
  let key := a.filename
  let base := Name.base key
  let version := Name.version key
  let matched := c.mask.accepts base
  let newest := if matched then raiseNewest c.newest base version else c.newest
  let selected := matched && c.selector.selects version ((newest.get? base).getD version)
  let target := (c.targets.get? key).getD (newTarget c.mode key a)
  ({ key, version, matched, selected },
    { c with newest, targets := c.targets.put key { target with selected } })

def target? (c : Catalog) (key : String) : Option Target := c.targets.get? key

def modify (c : Catalog) (key : String) (f : Target → Target) : Catalog :=
  { c with targets := c.targets.modify key f }

def byName (c : Catalog) : List Target :=
  c.targets.values.mergeSort fun s t => ! decide (t.name < s.name)

def reset (c : Catalog) : Catalog :=
  { c with targets := c.targets.map fun t => { t with content := t.content.reset, handle := none } }

end Catalog

end SaveSet
