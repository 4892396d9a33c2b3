import SaveSet.Bytes
import SaveSet.Time.Stamp

namespace SaveSet

inductive Tag where
  | filename
  | structureLevel
  | fid
  | backlink
  | fileSize
  | uic
  | fileProtection
  | recordProtection
  | accessLevel
  | characteristics
  | recordAttributes
  | revision
  | created
  | revised
  | expires
  | backedUp
  | versionLimit
  | highwater
  | unknown (number : Nat)
  deriving DecidableEq, Repr

inductive AttributeValue where
  | text (s : String)
  | bytes (bs : Bytes)
  | words (ws : List Nat)
  | word (n : Nat)
  | count (n : Nat)
  | time (t : Stamp)
  deriving DecidableEq, Repr

namespace Tag

def known : List (Tag × Nat) :=
  [(filename, 42), (structureLevel, 43), (fid, 44), (backlink, 45), (fileSize, 46), (uic, 47),
   (fileProtection, 48), (recordProtection, 49), (accessLevel, 50), (characteristics, 51),
   (recordAttributes, 52), (revision, 53), (created, 54), (revised, 55), (expires, 56),
   (backedUp, 57), (versionLimit, 75), (highwater, 79)]

def ofNumber (n : Nat) : Tag :=
  match known.find? (·.2 == n) with
  | some (t, _) => t
  | none => unknown n

def number : Tag → Nat
  | unknown n => n
  | t => (known.lookup t).getD 0

def rank : Tag → Nat
  | unknown n => known.length + n
  | t => known.findIdx (·.1 == t)

def scalar (width : Nat) (payload : Bytes) : Nat :=
  if payload.length < width then 0 else Bytes.toNat (payload.take width)

def stamp (payload : Bytes) : Stamp :=
  if payload.length < 8 then ⟨0⟩ else ⟨Bytes.toInt (payload.take 8)⟩

def decode (payload : Bytes) : Tag → AttributeValue
  | filename => .text payload.latin1
  | fid | backlink | uic | characteristics | recordAttributes => .words payload.words
  | revision | versionLimit => .word (scalar 2 payload)
  | fileSize | highwater => .count (scalar 4 payload)
  | created | revised | expires | backedUp => .time (stamp payload)
  | structureLevel | fileProtection | recordProtection | accessLevel | unknown _ => .bytes payload

end Tag

end SaveSet
