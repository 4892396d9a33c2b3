namespace SaveSet.Numeral

def digit (d : Nat) : Char := Char.ofNat ('0'.toNat + d)

def digits (base n : Nat) : List Char :=
  if 1 < base ∧ base ≤ n then digits base (n / base) ++ [digit (n % base)] else [digit n]
termination_by n
decreasing_by exact Nat.div_lt_self (by omega) (by omega)

def natural (n : Nat) : String := String.ofList (digits 10 n)

def integer (i : Int) : String := if i < 0 then "-" ++ natural i.natAbs else natural i.natAbs

def padLeft (width : Nat) (c : Char) (s : String) : String :=
  String.ofList (s.toList.leftpad width c)

def padRight (width : Nat) (c : Char) (s : String) : String :=
  String.ofList (s.toList.rightpad width c)

def isDigit (c : Char) : Bool := '0' ≤ c && c ≤ '9'

def readDigits (cs : List Char) : Option Nat :=
  if cs ≠ [] ∧ cs.all isDigit then
    some (cs.foldl (fun n c => 10 * n + (c.toNat - '0'.toNat)) 0)
  else none

def readInteger : List Char → Option Int
  | '-' :: cs => (readDigits cs).map fun n => -(n : Int)
  | '+' :: cs => (readDigits cs).map Int.ofNat
  | cs => (readDigits cs).map Int.ofNat

end SaveSet.Numeral
