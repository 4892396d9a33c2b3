import SaveSet.Layout
import SaveSet.Text.Numeral

namespace SaveSet

inductive Warning where
  | truncated (shortfall : Shortfall)
  | blockSize (expected found : Nat)
  | unknownKind (number size : Nat)
  | incomplete (name : String) (written expected : Nat)
  deriving DecidableEq, Repr

def Shortfall.message (s : Shortfall) : String :=
  "truncated " ++ s.what ++ ": " ++ Numeral.natural s.needed ++ " bytes declared, " ++
    Numeral.natural s.available ++ " available"

def Warning.message : Warning → String
  | truncated s => s.message
  | blockSize expected found =>
    "invalid block size " ++ Numeral.natural found ++ " read, " ++ Numeral.natural expected ++
      " expected"
  | unknownKind number size =>
    "invalid record type " ++ Numeral.natural number ++ " (size " ++ Numeral.natural size ++ ")"
  | incomplete name written expected =>
    name ++ " extracted " ++ Numeral.natural written ++ "/" ++ Numeral.natural expected ++ " bytes"

end SaveSet
