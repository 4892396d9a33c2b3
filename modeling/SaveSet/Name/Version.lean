import SaveSet.Text.Blank
import SaveSet.Text.Numeral

namespace SaveSet.Name

def base (spec : String) : String := String.ofList (spec.toList.takeWhile (· ≠ ';'))

def versionText? (spec : String) : Option (List Char) :=
  match spec.toList.dropWhile (· ≠ ';') with
  | [] => none
  | _ :: cs => some cs

def readVersion (cs : List Char) : Int :=
  match Numeral.readInteger (trim cs) with
  | some v => if -0x80000000 ≤ v ∧ v < 0x80000000 then v else 0
  | none => 0

def version (spec : String) : Int := ((versionText? spec).map readVersion).getD 0

end SaveSet.Name
