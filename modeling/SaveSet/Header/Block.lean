import SaveSet.Layout

namespace SaveSet

structure BlockHeader where
  headerSize : Nat
  system : Nat
  number : Nat
  structureVersion : Nat
  structureLevel : Nat
  volume : Nat
  crc : Nat
  blockSize : Nat
  flags : Nat
  name : String
  checksum : Nat
  deriving DecidableEq, Repr

namespace BlockHeader

def layout : Layout := .resolve
  [ { anchor := .start, width := 2 },                    --  0 header size
    { anchor := .after 0, width := 2 },                  --  1 operating system
    { anchor := .after 1, width := 2 },                  --  2 subsystem
    { anchor := .after 2, width := 2 },                  --  3 application
    { anchor := .after 3, width := 4 },                  --  4 block number
    { anchor := .after 4, width := 1, count := 20 },     --  5 reserved
    { anchor := .after 5, width := 2 },                  --  6 structure
    { anchor := .overlay 6, width := 1 },                --  7 structure version
    { anchor := .after 7, width := 1 },                  --  8 structure level
    { anchor := .after 6, width := 2 },                  --  9 volume number
    { anchor := .after 9, width := 4 },                  -- 10 block CRC
    { anchor := .after 10, width := 4 },                 -- 11 block size
    { anchor := .after 11, width := 4 },                 -- 12 flags
    { anchor := .after 12, width := 1, count := 32 },    -- 13 save-set name
    { anchor := .after 13, width := 2, count := 3 },     -- 14 file identification
    { anchor := .after 14, width := 2, count := 3 },     -- 15 directory identification
    { anchor := .after 15, width := 1, count := 128 },   -- 16 file name
    { anchor := .after 16, width := 1 },                 -- 17 record format
    { anchor := .after 17, width := 1 },                 -- 18 record attributes
    { anchor := .after 18, width := 2 },                 -- 19 record size
    { anchor := .after 19, width := 1 },                 -- 20 bucket size
    { anchor := .after 20, width := 1 },                 -- 21 control area size
    { anchor := .after 21, width := 2 },                 -- 22 maximum record size
    { anchor := .after 22, width := 4 },                 -- 23 file size
    { anchor := .after 23, width := 1, count := 22 },    -- 24 reserved
    { anchor := .after 24, width := 2 } ]                -- 25 header checksum

theorem length_layout : layout.length = 256 := by decide

def countedText : Bytes → String
  | [] => ""
  | count :: text => Bytes.latin1 ((text.take count.toNat).filter (· ≠ 0))

def decode (buf : Bytes) : Except Shortfall BlockHeader := do
  layout.check "block header" buf
  return {
    headerSize := layout.number 0 buf
    system := layout.number 1 buf
    number := layout.number 4 buf
    structureVersion := layout.number 7 buf
    structureLevel := layout.number 8 buf
    volume := layout.number 9 buf
    crc := layout.number 10 buf
    blockSize := layout.number 11 buf
    flags := layout.number 12 buf
    name := countedText (layout.bytes 13 buf)
    checksum := layout.number 25 buf }

theorem decode_error {buf : Bytes} {s : Shortfall} (h : decode buf = .error s) :
    buf.length < 256 ∧ s = ⟨"block header", 256, buf.length⟩ := by
  rw [decode] at h
  cases hcheck : layout.check "block header" buf with
  | ok _ =>
    rw [hcheck] at h
    cases h
  | error s' =>
    rw [hcheck] at h
    cases h
    exact length_layout ▸ Layout.check_eq_error hcheck

theorem length_of_decode {buf : Bytes} {h : BlockHeader} (hh : decode buf = .ok h) : 256 ≤ buf.length := by
  rw [decode] at hh
  cases hcheck : layout.check "block header" buf with
  | ok _ => exact length_layout ▸ Layout.check_eq_ok.mp hcheck
  | error s =>
    rw [hcheck] at hh
    cases hh

def crcDisabled (h : BlockHeader) : Bool := h.flags.testBit 0

def isCompatible (h : BlockHeader) (blockSize : Nat) : Bool :=
  h.blockSize == 0 || h.blockSize == blockSize

end BlockHeader

end SaveSet
