import SaveSet.Layout
import SaveSet.Table
import SaveSet.Attribute.Record
import SaveSet.Attribute.Tag

namespace SaveSet

structure Attribute where
  tag : Tag
  payload : Bytes
  deriving DecidableEq, Repr

namespace Attribute

def layout : Layout := .resolve
  [ { anchor := .start, width := 2 },      -- 0 payload size
    { anchor := .after 0, width := 2 } ]   -- 1 tag

theorem length_layout : layout.length = 4 := by decide

def decode (buf : Bytes) : Except Shortfall Attribute := do
  layout.check "attribute header" buf
  let size := layout.number 0 buf
  if !Bytes.holds (layout.length + size) buf then
    throw ⟨"attribute payload", layout.length + size, buf.length⟩
  return ⟨.ofNumber (layout.number 1 buf), buf.slice layout.length size⟩

def length (a : Attribute) : Nat := layout.length + a.payload.length

end Attribute

structure FileAttributes where
  table : Table Tag Bytes
  deriving DecidableEq, Repr, Inhabited

namespace FileAttributes

def empty : FileAttributes := ⟨.empty⟩

def put (a : FileAttributes) (t : Tag) (payload : Bytes) : FileAttributes := ⟨a.table.put t payload⟩

def decodeChain (a : FileAttributes) (buf : Bytes) : Except Shortfall FileAttributes :=
  if _hb : Bytes.holds Attribute.layout.length buf then
    match Attribute.decode buf with
    | .error e => .error e
    | .ok r => decodeChain (a.put r.tag r.payload) (buf.drop r.length)
  else .ok a
termination_by buf.length
decreasing_by
  have hl := Attribute.length_layout
  have hb := Bytes.holds_iff.mp _hb
  simp only [List.length_drop, Attribute.length]
  omega

def decode (payload : Bytes) (declared : Nat) : Except Shortfall FileAttributes :=
  decodeChain empty ((payload.take declared).drop 2)

def toList (a : FileAttributes) : List Attribute :=
  (a.table.entries.map fun e => ⟨e.1, e.2⟩).mergeSort fun x y => x.tag.rank ≤ y.tag.rank

def raw? (a : FileAttributes) (t : Tag) : Option Bytes := a.table.get? t

def value? (a : FileAttributes) (t : Tag) : Option AttributeValue := (a.raw? t).map (Tag.decode · t)

def raw (a : FileAttributes) (t : Tag) : Bytes := (a.raw? t).getD []

def filename (a : FileAttributes) : String := (a.raw .filename).latin1

def fid (a : FileAttributes) : List Nat := (a.raw .fid).words
def backlink (a : FileAttributes) : List Nat := (a.raw .backlink).words
def allocatedBlocks (a : FileAttributes) : Nat := Tag.scalar 4 (a.raw .fileSize)

def uic (a : FileAttributes) : List Nat := (a.raw .uic).words

def protection (a : FileAttributes) : Bytes := a.raw .fileProtection
def characteristics (a : FileAttributes) : List Nat := (a.raw .characteristics).words
def recordAttributes (a : FileAttributes) : RecordAttributes := .decode (a.raw .recordAttributes)
def recordFormat (a : FileAttributes) : RecordFormat := a.recordAttributes.format
def fileSize (a : FileAttributes) : Nat := a.recordAttributes.fileSize
def revision (a : FileAttributes) : Nat := Tag.scalar 2 (a.raw .revision)
def created (a : FileAttributes) : Stamp := Tag.stamp (a.raw .created)
def revised (a : FileAttributes) : Stamp := Tag.stamp (a.raw .revised)
def expires (a : FileAttributes) : Stamp := Tag.stamp (a.raw .expires)
def backedUp (a : FileAttributes) : Stamp := Tag.stamp (a.raw .backedUp)
def versionLimit (a : FileAttributes) : Nat := Tag.scalar 2 (a.raw .versionLimit)
def highwater (a : FileAttributes) : Nat := Tag.scalar 4 (a.raw .highwater)

end FileAttributes

end SaveSet
