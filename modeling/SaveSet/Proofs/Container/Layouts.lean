import SaveSet.Proofs.Container.Images

namespace SaveSet

namespace StoredFile

def plainArea (format : UInt8) (size : Nat) : Bytes :=
  (format :: List.replicate 7 0) ++ (Bytes.ofNat 2 ((size / 512 + 1) / 65536) ++
    (Bytes.ofNat 2 ((size / 512 + 1) % 65536) ++ Bytes.ofNat 2 (size % 512)))

lemma length_plainArea (format : UInt8) (size : Nat) : (plainArea format size).length = 14 := by
  rw [plainArea, List.length_append, List.length_append, List.length_append, Bytes.length_ofNat,
    Bytes.length_ofNat, Bytes.length_ofNat]
  rfl

lemma declares_plainArea (format : UInt8) {size : Nat} (h : size / 512 + 1 < 4294967296) :
    DeclaresSize (plainArea format size) size := by
  have hfront : (format :: List.replicate 7 0).length = 8 := rfl
  have hdeclares := declares_storedEnd h hfront []
  rwa [List.append_nil] at hdeclares

def plain (name : Bytes) (format : UInt8) (pieces : List Bytes) (hname : name.length < 65536)
    (hsize : pieces.flatten.length / 512 + 1 < 4294967296) : StoredFile where
  preamble := [1, 1]
  attributes := [⟨42, name, by decide, hname⟩,
    ⟨52, plainArea format pieces.flatten.length, by decide, by rw [length_plainArea]; decide⟩]
  slack := []
  pieces
  preamble_length := rfl
  slack_length := by decide
  declares := ⟨_, rfl, declares_plainArea format hsize⟩

end StoredFile

def StoredItem.record (x : StoredItem) (hpos : 0 < x.payload.length) (hlt : x.payload.length < 65536) :
    StoredRecord :=
  ⟨x, List.replicate 12 0, rfl, hpos, hlt⟩

namespace Geometry

def header (g : Geometry) : Bytes :=
  Bytes.ofNat 2 g.headerSize ++ (List.replicate 38 0 ++
    (Bytes.ofNat 4 g.blockSize ++ List.replicate (g.headerSize - 44) 0))

lemma length_header {g : Geometry} (h : 256 ≤ g.headerSize) : g.header.length = g.headerSize := by
  rw [header, List.length_append, List.length_append, List.length_append, Bytes.length_ofNat,
    Bytes.length_ofNat, List.length_replicate, List.length_replicate]
  omega

lemma headerSize_header {g : Geometry} (h : g.headerSize < 65536) :
    Bytes.toNat (g.header.slice 0 2) = g.headerSize := by
  have hslice : g.header.slice 0 2 = Bytes.ofNat 2 g.headerSize := Bytes.slice_zero _ _
  rw [hslice, Bytes.toNat_ofNat_of_lt h]

lemma blockSize_header {g : Geometry} (h : g.blockSize < 4294967296) :
    Bytes.toNat (g.header.slice 40 4) = g.blockSize := by
  have hslice : g.header.slice 40 4 = Bytes.ofNat 4 g.blockSize :=
    (Bytes.slice_append_right (Bytes.ofNat 2 g.headerSize) _ 38 4).trans
      ((Bytes.slice_append_right (List.replicate 38 0) _ 0 4).trans (Bytes.slice_zero _ _))
  rw [hslice, Bytes.toNat_ofNat_of_lt h]

end Geometry

def BlockImage.plain (g : Geometry) (records : List StoredRecord) (ending : BlockEnd) (hg : 256 ≤ g.headerSize)
    (hb : g.blockSize < 4294967296)
    (hf : g.headerSize + ((records.flatMap StoredRecord.encode).length + ending.encode.length) = g.blockSize) :
    BlockImage g where
  header := g.header
  records
  ending
  header_length := Geometry.length_header hg
  fills := by
    rw [Geometry.length_header hg]
    exact hf
  declares := Or.inr (Geometry.blockSize_header hb)

lemma filter_items (fs : List StoredFile) :
    (fs.flatMap StoredFile.items).filter (fun x => !x.isNull) = fs.flatMap StoredFile.items := by
  refine List.filter_eq_self.mpr fun x hx => ?_
  obtain ⟨f, -, hf⟩ := List.mem_flatMap.mp hx
  rcases List.mem_cons.mp hf with rfl | hf
  · rfl
  · obtain ⟨p, -, rfl⟩ := List.mem_map.mp hf
    rfl

def SaveSetImage.plain (files : List StoredFile) (records : List StoredRecord)
    (hr : records.map StoredRecord.item = files.flatMap StoredFile.items)
    (hs : 256 + (records.flatMap StoredRecord.encode).length ≤ Geometry.maxBlockSize) : SaveSetImage where
  geometry := ⟨256 + (records.flatMap StoredRecord.encode).length, 256⟩
  files
  first := .plain _ records .full (Nat.le_refl _) (Nat.lt_of_le_of_lt hs (by decide)) rfl
  later := []
  headerSize_ge := Nat.le_refl _
  blockSize_le := hs
  first_headerSize := Geometry.headerSize_header (by decide : 256 < 65536)
  first_blockSize := Geometry.blockSize_header (Nat.lt_of_le_of_lt hs (by decide))
  holds := by
    rw [← filter_items, ← hr, List.flatMap_singleton]
    rfl

end SaveSet
