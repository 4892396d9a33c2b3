import SaveSet.Text.Blank
import SaveSet.Text.Numeral

namespace SaveSet

inductive SelectionError where
  | version (text : String)
  | mask (text : String)
  deriving DecidableEq, Repr

def SelectionError.message : SelectionError → String
  | version text => "invalid version selector '" ++ text ++ "'"
  | mask text => "invalid mask '" ++ text ++ "'"

inductive Selector where
  | all
  | exact (version : Nat)
  | relative (offset : Int)
  deriving DecidableEq, Repr

namespace Selector

def selects (s : Selector) (version newest : Int) : Bool :=
  match s with
  | all => true
  | exact v => (v : Int) == version
  | relative r => newest + r == version

def isRelative : Selector → Bool
  | relative _ => true
  | _ => false

def text : Selector → String
  | all => "*"
  | exact v => Numeral.natural v
  | relative r => Numeral.integer r

def ofInt? (v : Int) : Option Selector :=
  if 0 < v then if v < 0x100000000 then some (exact v.toNat) else none
  else if -0x80000000 ≤ v then some (relative v) else none

def parse (s : String) : Except SelectionError Selector :=
  let cs := trim s.toList
  if cs = ['*'] then .ok all
  else match (Numeral.readInteger cs).bind ofInt? with
    | some v => .ok v
    | none => .error (.version (String.ofList cs))

end Selector

end SaveSet
