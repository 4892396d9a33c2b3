import SaveSet.Attribute.File
import SaveSet.Header.Block
import SaveSet.Header.Record
import SaveSet.Walk.Warning

/-! What the bytes of a block ask for, record by record. Nothing here depends on what was read before,
on the pass or on the options. -/

namespace SaveSet

structure Geometry where
  blockSize : Nat
  headerSize : Nat
  deriving DecidableEq, Repr

inductive Event where
  | idle
  | boundary
  | file (attributes : FileAttributes) (flags : RecordFlags)
  | data (payload : Bytes)
  | badRecord (warning : Warning)
  | badBlock (warning : Warning)
  deriving DecidableEq, Repr

structure RecordReading where
  event : Event
  next : Option Nat
  deriving DecidableEq, Repr

namespace RecordReading

def damaged (w : Warning) : RecordReading := ⟨.badRecord w, none⟩

def ofPayload (h : RecordHeader) (payload : Bytes) (next blockLength : Nat) : RecordReading :=
  match h.kind with
  | .null => ⟨.idle, some next⟩
  | .volume => ⟨.idle, some blockLength⟩
  | .vbn => ⟨.data payload, some next⟩
  | .file =>
    match FileAttributes.decode payload h.size with
    | .ok attributes => ⟨.file attributes h.flags, some next⟩
    | .error s => damaged (.truncated s)
  | .unknown number => damaged (.unknownKind number h.size)
  | _ => ⟨.boundary, some next⟩

theorem next_ofPayload {h : RecordHeader} {payload : Bytes} {next blockLength found : Nat}
    (hn : (ofPayload h payload next blockLength).next = some found) : found = next ∨ found = blockLength := by
  unfold ofPayload at hn
  split at hn
  · next hnull => exact .inl (Option.some.inj hn).symm
  · next hvolume => exact .inr (Option.some.inj hn).symm
  · next hvbn => exact .inl (Option.some.inj hn).symm
  · next hfile =>
    split at hn
    · next attributes hdecode => exact .inl (Option.some.inj hn).symm
    · next s hdecode => cases hn
  · next number hunknown => cases hn
  · next => exact .inl (Option.some.inj hn).symm

end RecordReading

/-- Reads the record that `rest`, the end of a block from `cursor` on, starts with. A record of size
zero ends its block. -/
def readRecord (blockLength cursor : Nat) (rest : Bytes) : RecordReading :=
  match RecordHeader.decode rest with
  | .error s => .damaged (.truncated s)
  | .ok h =>
    let start := cursor + RecordHeader.layout.length
    if h.size = 0 then ⟨.idle, some blockLength⟩
    else if blockLength < start + h.size then
      .damaged (.truncated ⟨"record payload", h.size, blockLength - start⟩)
    else .ofPayload h (rest.slice RecordHeader.layout.length h.size) (start + h.size) blockLength

theorem readRecord_next {blockLength cursor next : Nat} {rest : Bytes} (hc : cursor < blockLength)
    (h : (readRecord blockLength cursor rest).next = some next) :
    cursor < next ∧ next ≤ blockLength := by
  unfold readRecord at h
  split at h
  · cases h
  · next header hheader =>
    simp only [RecordHeader.length_layout] at h
    split at h
    · next hempty =>
      cases h
      omega
    · split at h
      · cases h
      · next hroom =>
        obtain rfl | rfl := RecordReading.next_ofPayload h
        · omega
        · omega

structure BlockReading where
  events : List Event
  sound : Bool
  deriving DecidableEq, Repr

def readRecordsAfter (before : List Event) (blockLength cursor : Nat) (rest : Bytes) : BlockReading :=
  if _hc : cursor < blockLength then
    let r := readRecord blockLength cursor rest
    match _h : r.next with
    | none => ⟨(r.event :: before).reverse, false⟩
    | some next => readRecordsAfter (r.event :: before) blockLength next (rest.drop (next - cursor))
  else ⟨before.reverse, true⟩
termination_by blockLength - cursor
decreasing_by
  have := readRecord_next _hc _h
  omega

section

variable {blockLength cursor : Nat} {rest : Bytes}

theorem readRecordsAfter_some {next : Nat} (hc : cursor < blockLength)
    (h : (readRecord blockLength cursor rest).next = some next) (before : List Event) :
    readRecordsAfter before blockLength cursor rest =
      readRecordsAfter ((readRecord blockLength cursor rest).event :: before) blockLength next
        (rest.drop (next - cursor)) := by
  rw [readRecordsAfter, dif_pos hc]
  dsimp only
  split
  · next hn => exact absurd (h.symm.trans hn) (Option.some_ne_none _)
  · next n hn => rw [Option.some.inj (hn.symm.trans h)]

theorem readRecordsAfter_none (hc : cursor < blockLength) (h : (readRecord blockLength cursor rest).next = none)
    (before : List Event) :
    readRecordsAfter before blockLength cursor rest =
      ⟨((readRecord blockLength cursor rest).event :: before).reverse, false⟩ := by
  rw [readRecordsAfter, dif_pos hc]
  dsimp only
  split
  · rfl
  · next hn => exact absurd (hn.symm.trans h) (Option.some_ne_none _)

theorem readRecordsAfter_past (hc : blockLength ≤ cursor) (before : List Event) :
    readRecordsAfter before blockLength cursor rest = ⟨before.reverse, true⟩ := by
  rw [readRecordsAfter, dif_neg (Nat.not_lt.mpr hc)]

end

theorem readRecordsAfter_append (earlier before : List Event) (blockLength cursor : Nat) (rest : Bytes) :
    readRecordsAfter (before ++ earlier) blockLength cursor rest =
      ⟨earlier.reverse ++ (readRecordsAfter before blockLength cursor rest).events,
        (readRecordsAfter before blockLength cursor rest).sound⟩ := by
  fun_induction readRecordsAfter before blockLength cursor rest with
  | case1 before cursor rest hc r h =>
    rw [readRecordsAfter_none hc h]
    simp [r]
  | case2 before cursor rest hc r next h ih =>
    rw [readRecordsAfter_some hc h]
    exact ih
  | case3 before cursor rest hc =>
    rw [readRecordsAfter_past (Nat.not_lt.mp hc)]
    simp

def readRecords (block : Bytes) (cursor : Nat) : BlockReading :=
  readRecordsAfter [] block.length cursor (block.drop cursor)

def readBlock (g : Geometry) (bytes : Bytes) : BlockReading :=
  match BlockHeader.decode bytes with
  | .error s => ⟨[.badBlock (.truncated s)], false⟩
  | .ok h =>
    if h.isCompatible g.blockSize then readRecords (bytes.take g.blockSize) g.headerSize
    else ⟨[.badBlock (.blockSize g.blockSize h.blockSize)], false⟩

end SaveSet
