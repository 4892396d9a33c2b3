import SaveSet.Content.Mode
import SaveSet.Selection.Selector

namespace SaveSet

inductive ListingStyle where
  | suppress
  | brief
  | full
  | csv
  deriving DecidableEq, Repr

inductive Detail where
  | none
  | basic
  | enhanced
  deriving DecidableEq, Repr

structure Options where
  listing : ListingStyle := .brief
  extract : Bool := true
  mode : ContentMode := .smart
  mask : String := "*.*"
  version : Selector := .relative 0
  folders : Bool := false
  versions : Bool := false
  timestamps : Bool := false
  cached : Bool := false
  detail : Detail := .none
  deriving DecidableEq, Repr

namespace Options

/-- Takes `NAME` or `NAME;VERSION`, the version first. What was set before an error stays as it is. -/
def takeMask (text : String) : EStateM SelectionError Options Unit :=
  match text.toList.splitOn ';' with
  | [name] => modify fun o => { o with mask := String.ofList name }
  | [name, version] => do
    match Selector.parse (String.ofList version) with
    | .ok v => modify fun o => { o with version := v }
    | .error e => throw e
    modify fun o => { o with mask := String.ofList name }
  | _ => throw (.mask text)

def setMask (o : Options) (text : String) : Except SelectionError Options :=
  match (takeMask text).run o with
  | .ok _ o => .ok o
  | .error e _ => .error e

def needsScan (o : Options) : Bool := (o.extract && o.mode == .smart) || o.version.isRelative

end Options

end SaveSet
