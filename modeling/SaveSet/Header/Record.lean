import SaveSet.Layout

namespace SaveSet

inductive RecordKind where
  | null
  | summary
  | volume
  | file
  | vbn
  | physicalVolume
  | lbn
  | fid
  | fileExtension
  | lbn576
  | directoryAttributes
  | aliasEntry
  | unknown (number : Nat)
  deriving DecidableEq, Repr

namespace RecordKind

def ofNumber : Nat → RecordKind
  | 0 => null
  | 1 => summary
  | 2 => volume
  | 3 => file
  | 4 => vbn
  | 5 => physicalVolume
  | 6 => lbn
  | 7 => fid
  | 8 => fileExtension
  | 9 => lbn576
  | 10 => directoryAttributes
  | 11 => aliasEntry
  | n => unknown n

def continuesFile : RecordKind → Bool
  | vbn | volume | null => true
  | _ => false

end RecordKind

structure RecordFlags where
  bits : Nat
  deriving DecidableEq, Repr

namespace RecordFlags

def badData (f : RecordFlags) : Bool := f.bits.testBit 7
def directory (f : RecordFlags) : Bool := f.bits.testBit 6
def nonSequential (f : RecordFlags) : Bool := f.bits.testBit 5
def blockErrors (f : RecordFlags) : Bool := f.bits.testBit 4
def aliasEntry (f : RecordFlags) : Bool := f.bits.testBit 3
def headOnly (f : RecordFlags) : Bool := f.bits.testBit 2

end RecordFlags

structure RecordHeader where
  size : Nat
  kindNumber : Nat
  flags : RecordFlags
  address : Nat
  blockFlags : Nat
  image : Bytes
  deriving DecidableEq, Repr

namespace RecordHeader

def layout : Layout := .resolve
  [ { anchor := .start, width := 2 },      -- 0 payload size
    { anchor := .after 0, width := 2 },    -- 1 record kind
    { anchor := .after 1, width := 4 },    -- 2 flags
    { anchor := .after 2, width := 4 },    -- 3 address
    { anchor := .after 3, width := 2 },    -- 4 block flags
    { anchor := .after 4, width := 2 } ]   -- 5 reserved

theorem length_layout : layout.length = 16 := by decide

def decode (buf : Bytes) : Except Shortfall RecordHeader := do
  layout.check "record header" buf
  return {
    size := layout.number 0 buf
    kindNumber := layout.number 1 buf
    flags := ⟨layout.number 2 buf⟩
    address := layout.number 3 buf
    blockFlags := layout.number 4 buf
    image := buf.take layout.length }

theorem length_of_decode {buf : Bytes} {h : RecordHeader} (hh : decode buf = .ok h) : layout.length ≤ buf.length := by
  rw [decode] at hh
  cases hcheck : layout.check "record header" buf with
  | ok _ => exact Layout.check_eq_ok.mp hcheck
  | error s =>
    rw [hcheck] at hh
    cases hh

def kind (h : RecordHeader) : RecordKind := .ofNumber h.kindNumber

end RecordHeader

end SaveSet
