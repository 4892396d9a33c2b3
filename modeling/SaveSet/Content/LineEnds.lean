import SaveSet.Bytes

/-! Line ends of text. CR, LF and CR LF each become the line end of the host; a CR is held back until
the next byte shows what it is, so text may come in any pieces. -/

namespace SaveSet

structure LineEnds where
  pending : Bool := false
  lastEnded : Bool := false
  containsEnd : Bool := false
  deriving DecidableEq, Repr, Inhabited

namespace LineEnds

def cr : UInt8 := 13
def lf : UInt8 := 10

def isEnd (b : UInt8) : Bool := b == cr || b == lf

def hostEnd : Bytes := [lf]

/-- What one more byte puts out, and whether a CR is held back after it. A CR that follows a held
back CR is put out as it is. -/
def step (pending : Bool) (b : UInt8) : Bool × Bytes :=
  if b = lf then (false, hostEnd)
  else if pending then (false, hostEnd ++ [b])
  else if b = cr then (true, [])
  else (false, [b])

def hostTextAfter (before : Bytes) (pending : Bool) : Bytes → Bool × Bytes
  | [] => (pending, before.reverse)
  | b :: bs =>
    let first := step pending b
    hostTextAfter (first.2.reverse ++ before) first.1 bs

def hostText (pending : Bool) (bytes : Bytes) : Bool × Bytes := hostTextAfter [] pending bytes

theorem hostTextAfter_eq (before : Bytes) (pending : Bool) (bs : Bytes) :
    hostTextAfter before pending bs =
      ((hostText pending bs).1, before.reverse ++ (hostText pending bs).2) := by
  unfold hostText
  induction bs generalizing before pending with
  | nil => simp [hostTextAfter]
  | cons b bs ih =>
    simp only [hostTextAfter]
    rw [ih, ih (_ ++ [])]
    simp

@[simp] theorem hostText_nil (pending : Bool) : hostText pending [] = (pending, []) := rfl

theorem hostText_cons (pending : Bool) (b : UInt8) (bs : Bytes) :
    hostText pending (b :: bs) =
      ((hostText (step pending b).1 bs).1, (step pending b).2 ++ (hostText (step pending b).1 bs).2) := by
  rw [hostText, hostTextAfter, hostTextAfter_eq]
  simp

theorem hostText_append (pending : Bool) (xs ys : Bytes) :
    hostText pending (xs ++ ys) =
      ((hostText (hostText pending xs).1 ys).1,
        (hostText pending xs).2 ++ (hostText (hostText pending xs).1 ys).2) := by
  induction xs generalizing pending with
  | nil => simp
  | cons b xs ih => simp [hostText_cons, ih]

def normalize (s : LineEnds) (piece : Bytes) : LineEnds × Bytes :=
  let out := hostText s.pending piece
  ({ pending := out.1, lastEnded := piece.getLast?.any isEnd, containsEnd := piece.any isEnd }, out.2)

def finish (s : LineEnds) : LineEnds × Bytes :=
  ({ s with pending := false }, if s.pending then hostEnd else [])

end LineEnds

end SaveSet
