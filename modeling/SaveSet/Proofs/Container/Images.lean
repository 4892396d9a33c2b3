import SaveSet.Proofs.Container.Records
import SaveSet.Proofs.Runs

namespace SaveSet

lemma BlockHeader.decode_ok (bytes : Bytes) (hl : 256 ≤ bytes.length) :
    ∃ h, decode bytes = .ok h ∧ h.headerSize = Bytes.toNat (bytes.slice 0 2) ∧
      h.blockSize = Bytes.toNat (bytes.slice 40 4) := by
  have hcheck : layout.check "block header" bytes = .ok () := by
    refine if_pos (Bytes.holds_iff.mpr ?_)
    rw [length_layout]
    exact hl
  rw [decode, hcheck]
  exact ⟨_, rfl, rfl, rfl⟩

def Geometry.declaredBy (bytes : Bytes) : Geometry where
  blockSize := Bytes.toNat (bytes.slice 40 4)
  headerSize := Bytes.toNat (bytes.slice 0 2)

lemma framing_short {bytes : Bytes} (hl : bytes.length < 256) :
    framing bytes = .error (.truncated ⟨"block header", 256, bytes.length⟩) := by
  have htake : bytes.take 256 = bytes := List.take_of_length_le (Nat.le_of_lt hl)
  rw [framing, BlockHeader.length_layout, htake]
  cases hd : BlockHeader.decode bytes with
  | error s =>
    obtain ⟨-, rfl⟩ := BlockHeader.decode_error hd
    rfl
  | ok h => exact absurd (BlockHeader.length_of_decode hd) (Nat.not_le_of_lt hl)

lemma framing_long {bytes : Bytes} (hl : 256 ≤ bytes.length) :
    ∃ h, Geometry.ofHeader h = Geometry.declaredBy bytes ∧
      framing bytes = if (Geometry.declaredBy bytes).isFramed then .ok h
        else .error (.geometry (Geometry.declaredBy bytes)) := by
  obtain ⟨h, hd, hheader, hblock⟩ := BlockHeader.decode_ok (bytes.take 256) (by
    rw [List.length_take]
    omega)
  rw [Bytes.slice_take (by decide)] at hheader hblock
  have hg : Geometry.ofHeader h = Geometry.declaredBy bytes := by
    rw [Geometry.ofHeader, hheader, hblock, Geometry.declaredBy]
  refine ⟨h, hg, ?_⟩
  rw [framing, BlockHeader.length_layout, hd, ← hg]

lemma framing_ok_iff {bytes : Bytes} {g : Geometry} :
    (∃ h, framing bytes = .ok h ∧ Geometry.ofHeader h = g) ↔
      256 ≤ bytes.length ∧ Geometry.declaredBy bytes = g ∧ g.isFramed = true := by
  rcases Nat.lt_or_ge bytes.length 256 with hl | hl
  · rw [framing_short hl]
    simp [Nat.not_le_of_lt hl]
  · obtain ⟨h, hg, hf⟩ := framing_long hl
    rw [hf]
    constructor
    · rintro ⟨h', hf', rfl⟩
      split at hf'
      · next hframed =>
        cases hf'
        exact ⟨hl, hg.symm, hg ▸ hframed⟩
      · cases hf'
    · rintro ⟨-, rfl, hframed⟩
      exact ⟨h, if_pos hframed, hg⟩

structure BlockImage (g : Geometry) where
  header : Bytes
  records : List StoredRecord
  ending : BlockEnd
  header_length : header.length = g.headerSize
  fills : header.length + ((records.flatMap StoredRecord.encode).length + ending.encode.length) = g.blockSize
  declares : Bytes.toNat (header.slice 40 4) = 0 ∨ Bytes.toNat (header.slice 40 4) = g.blockSize

namespace BlockImage

variable {g : Geometry} (b : BlockImage g)

def encode : Bytes := b.header ++ (b.records.flatMap StoredRecord.encode ++ b.ending.encode)

def items : List StoredItem := b.records.map StoredRecord.item

lemma length_encode : b.encode.length = g.blockSize := by
  rw [encode, List.length_append, List.length_append]
  exact b.fills

lemma slice_header (rest : Bytes) {offset count : Nat} (h : offset + count ≤ g.headerSize) :
    (b.encode ++ rest).slice offset count = b.header.slice offset count := by
  rw [encode, List.append_assoc]
  refine Bytes.slice_append_left _ ?_
  rw [b.header_length]
  exact h

lemma tells (hg : 256 ≤ g.headerSize) : Say (readBlock g b.encode).events (b.items.flatMap StoredItem.sayings) := by
  have hfills := b.fills
  rw [b.header_length] at hfills
  have hlen := b.length_encode
  obtain ⟨h, hd, -, hsize⟩ := BlockHeader.decode_ok b.encode (by omega)
  have hslice : (b.encode ++ []).slice 40 4 = b.header.slice 40 4 := b.slice_header [] (by omega)
  rw [List.append_nil] at hslice
  rw [hslice] at hsize
  have hcompatible : h.isCompatible g.blockSize = true := by
    rw [BlockHeader.isCompatible, hsize, Bool.or_eq_true_iff, beq_iff_eq, beq_iff_eq]
    exact b.declares
  have hrecords : b.encode.drop g.headerSize = b.records.flatMap StoredRecord.encode ++ b.ending.encode := by
    rw [encode, ← b.header_length, List.drop_left]
  have htake : b.encode.take g.blockSize = b.encode := List.take_of_length_le (Nat.le_of_eq hlen)
  rw [readBlock, hd]
  dsimp only
  rw [if_pos hcompatible, htake, readRecords, hlen, hrecords, items, List.flatMap_map]
  have hfit : g.headerSize + (b.records.flatMap StoredRecord.encode).length ≤ g.blockSize := by omega
  have hend : g.headerSize + (b.records.flatMap StoredRecord.encode).length + b.ending.encode.length =
      g.blockSize := by omega
  have htells := tells_records b.records hfit (b.ending.tells hend)
  rw [List.append_nil] at htells
  exact htells

end BlockImage

lemma Geometry.tells_blocks {g : Geometry} (hg : 256 ≤ g.headerSize) (bs : List (BlockImage g)) :
    Say ((g.events (bs.flatMap BlockImage.encode)).map PlacedEvent.event)
      ((bs.flatMap BlockImage.items).flatMap StoredItem.sayings) := by
  induction bs with
  | nil =>
    rw [List.flatMap_nil, events, blocks_nil]
    exact ⟨by simp, rfl⟩
  | cons b bs ih =>
    have hlen := b.length_encode
    have hfills := b.fills
    rw [b.header_length] at hfills
    have hn : b.encode ++ bs.flatMap BlockImage.encode ≠ [] := by
      intro hn
      have := congrArg List.length hn
      rw [List.length_append, List.length_nil] at this
      omega
    have hblock (last : Bool) : (Block.events g ⟨b.encode, last⟩).map PlacedEvent.event =
        (readBlock g b.encode).events := by
      rw [Block.events, List.map_map]
      exact List.map_id _
    rw [List.flatMap_cons, List.flatMap_cons, List.flatMap_append, events, blocks_cons g hn (by omega),
      List.flatMap_cons, List.map_append, ← hlen, List.take_left, List.drop_left, hblock]
    exact (b.tells hg).append ih

namespace StoredFile

def items (f : StoredFile) : List StoredItem := .file f :: f.pieces.map .data

end StoredFile

def StoredItem.isNull : StoredItem → Bool
  | null _ => true
  | _ => false

/-- A save set: files, and blocks that hold them and nothing else. -/
structure SaveSetImage where
  geometry : Geometry
  files : List StoredFile
  first : BlockImage geometry
  later : List (BlockImage geometry)
  headerSize_ge : 256 ≤ geometry.headerSize
  blockSize_le : geometry.blockSize ≤ Geometry.maxBlockSize
  first_headerSize : Bytes.toNat (first.header.slice 0 2) = geometry.headerSize
  first_blockSize : Bytes.toNat (first.header.slice 40 4) = geometry.blockSize
  holds : ((first :: later).flatMap BlockImage.items).filter (fun x => !x.isNull) =
    files.flatMap StoredFile.items

namespace SaveSetImage

variable (k : SaveSetImage)

def bytes : Bytes := (k.first :: k.later).flatMap BlockImage.encode

def sayings : List Saying := k.files.flatMap fun f => .file f.read :: f.pieces.map .data

lemma framed : ∃ h, framing k.bytes = .ok h ∧ Geometry.ofHeader h = k.geometry := by
  have hge := k.headerSize_ge
  have hle := k.blockSize_le
  have hlen := k.first.length_encode
  have hfills := k.first.fills
  rw [k.first.header_length] at hfills
  have hbytes : k.bytes = k.first.encode ++ k.later.flatMap BlockImage.encode := List.flatMap_cons
  have hslice {offset count : Nat} (h : offset + count ≤ 256) :
      k.bytes.slice offset count = k.first.header.slice offset count := by
    rw [hbytes]
    exact k.first.slice_header _ (Nat.le_trans h hge)
  refine framing_ok_iff.mpr ⟨?_, ?_, ?_⟩
  · rw [hbytes, List.length_append]
    omega
  · rw [Geometry.declaredBy, hslice (by decide), hslice (by decide), k.first_headerSize, k.first_blockSize]
  · rw [Geometry.isFramed, Bool.and_eq_true_iff, Bool.and_eq_true_iff, decide_eq_true_iff, decide_eq_true_iff,
      bne_iff_ne]
    omega

lemma sayings_filter (xs : List StoredItem) :
    (xs.filter fun x => !x.isNull).flatMap StoredItem.sayings = xs.flatMap StoredItem.sayings := by
  induction xs with
  | nil => rfl
  | cons x xs ih =>
    rw [List.filter_cons, List.flatMap_cons]
    cases x with
    | file f => exact congrArg (_ :: ·) ih
    | data p => exact congrArg (_ :: ·) ih
    | null p => exact ih

lemma tells : Say ((k.geometry.events k.bytes).map PlacedEvent.event) k.sayings := by
  have hitems : ((k.first :: k.later).flatMap BlockImage.items).flatMap StoredItem.sayings = k.sayings := by
    rw [← sayings_filter, k.holds, List.flatMap_assoc, sayings]
    congr 1
    funext f
    rw [StoredFile.items, List.flatMap_cons, List.flatMap_map]
    exact congrArg (_ :: ·) List.map_eq_flatMap.symm
  rw [← hitems]
  exact Geometry.tells_blocks k.headerSize_ge _

end SaveSetImage

end SaveSet
