import SaveSet.Bytes

namespace SaveSet

inductive RecordFormat where
  | udf
  | fix
  | var
  | vfc
  | stm
  | stmLf
  | stmCr
  | unknown (nibble : Nat)
  deriving DecidableEq, Repr

namespace RecordFormat

def ofByte (b : Nat) : RecordFormat :=
  match b % 16 with
  | 0 => udf
  | 1 => fix
  | 2 => var
  | 3 => vfc
  | 4 => stm
  | 5 => stmLf
  | 6 => stmCr
  | n => unknown n

def isVariable : RecordFormat → Bool
  | var | vfc => true
  | _ => false

def isStreamLike : RecordFormat → Bool
  | fix | stm | stmLf | stmCr => true
  | _ => false

def controlLength : RecordFormat → Nat
  | vfc => 2
  | _ => 0

end RecordFormat

structure RecordAttributes where
  format : RecordFormat
  carriageControl : Nat
  recordSize : Nat
  highestBlock : Nat
  endOfFileBlock : Nat
  firstFreeByte : Nat
  deriving DecidableEq, Repr

namespace RecordAttributes

def decode (payload : Bytes) : RecordAttributes :=
  let word i := payload.words.getD i 0
  let long i := word i * 65536 + word (i + 1)
  { format := .ofByte (payload.getD 0 0).toNat
    carriageControl := (payload.getD 1 0).toNat
    recordSize := word 1
    highestBlock := long 2
    endOfFileBlock := long 4
    firstFreeByte := word 6 }

def fileSize (r : RecordAttributes) : Nat := r.endOfFileBlock * 512 + r.firstFreeByte - 512

def usedBlocks (r : RecordAttributes) : Nat :=
  if r.firstFreeByte = 0 then r.endOfFileBlock - 1 else r.endOfFileBlock

end RecordAttributes

end SaveSet
