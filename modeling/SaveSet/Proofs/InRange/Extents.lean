import SaveSet.Proofs.Container.Attributes
import SaveSet.Proofs.InRange.Layouts

namespace SaveSet

lemma Bytes.lt_of_mem_words {w : Nat} : {bytes : Bytes} → w ∈ bytes.words → w < 65536
  | low :: high :: rest, h => by
    rw [words_cons_cons, List.mem_cons] at h
    rcases h with rfl | h
    · exact toNat_lt [low, high]
    · exact lt_of_mem_words h

lemma Bytes.words_getD_lt (bytes : Bytes) (i : Nat) : bytes.words.getD i 0 < 65536 := by
  rw [List.getD_eq_getElem?_getD]
  cases h : bytes.words[i]? with
  | none => decide
  | some w => exact lt_of_mem_words (List.mem_of_getElem? h)

namespace RecordAttributes

lemma endOfFileBlock_lt (payload : Bytes) : (decode payload).endOfFileBlock < 4294967296 := by
  have hhigh := payload.words_getD_lt 4
  have hlow := payload.words_getD_lt 5
  change payload.words.getD 4 0 * 65536 + payload.words.getD 5 0 < 4294967296
  omega

lemma firstFreeByte_lt (payload : Bytes) : (decode payload).firstFreeByte < 65536 := payload.words_getD_lt 6

def fileSize? (r : RecordAttributes) : Option Nat := do
  let full ← fit? 64 (r.endOfFileBlock * 512)
  let stop ← fit? 64 (full + r.firstFreeByte)
  -- There is no block in front of the first one.
  if stop < 512 then return 0
  stop.psub 512

lemma fileSize?_eq {r : RecordAttributes} (hblock : r.endOfFileBlock < 4294967296) (hfree : r.firstFreeByte < 65536) :
    r.fileSize? = some r.fileSize := by
  unfold fileSize
  rw [fileSize?, fit?_eq (by omega)]
  simp only [Option.bind_eq_bind, Option.bind_some]
  rw [fit?_eq (by omega), Option.bind_some]
  split
  · next hshort => rw [Nat.sub_eq_zero_of_le (Nat.le_of_lt hshort), Option.pure_def]
  · next hlong => exact Nat.psub_eq_sub (Nat.le_of_not_lt hlong)

lemma usedBlocks_eq_iff (r : RecordAttributes) : r.usedBlocks = (r.fileSize + 511) / 512 ↔ r.firstFreeByte ≤ 512 := by
  unfold fileSize
  rw [usedBlocks]
  -- Where nothing of the last block is in use, the block in front of it is the last one used.
  split <;> omega

/-- A stored size is read back whatever stands beside it. Any payload, a short one too, declares as many blocks as its
size takes, unless it has more bytes in use of the last block than that holds. -/
theorem sizes_come_back_and_fill_their_blocks :
    (∀ (size : Nat) (front behind : Bytes), size / 512 + 1 < 4294967296 → front.length = 8 →
      (decode (front ++ (storedEnd size ++ behind))).fileSize = size) ∧
      ∀ payload : Bytes,
        ((decode payload).usedBlocks = ((decode payload).fileSize + 511) / 512 ↔
          (decode payload).firstFreeByte ≤ 512) ∧
        (decode payload).fileSize? = some (decode payload).fileSize :=
  ⟨fun _ _ behind hsize hfront => (declares_storedEnd hsize hfront behind).fileSize_eq,
    fun payload => ⟨usedBlocks_eq_iff _, fileSize?_eq (endOfFileBlock_lt payload) (firstFreeByte_lt payload)⟩⟩

def fullBlock : Bytes := [1, 0, 0, 2, 0, 0, 0, 0, 0, 0, 1, 0, 0, 2]

def overfullBlock : Bytes := [1, 0, 0, 2, 0, 0, 0, 0, 0, 0, 1, 0, 1, 2]

theorem a_full_last_block_is_one_block :
    (decode ([2, 1, 128, 0, 255, 255, 255, 255] ++ (storedEnd 2199023255039 ++ [7, 7, 7]))).fileSize = 2199023255039 ∧
      (decode fullBlock).usedBlocks = ((decode fullBlock).fileSize + 511) / 512 ∧
      (decode fullBlock).fileSize? = some 512 ∧
      (decode [1, 0, 0]).usedBlocks = ((decode [1, 0, 0]).fileSize + 511) / 512 ∧
      (decode overfullBlock).usedBlocks ≠ ((decode overfullBlock).fileSize + 511) / 512 := by
  obtain ⟨hread, hblocks⟩ := sizes_come_back_and_fill_their_blocks
  exact ⟨hread _ _ _ (by decide) rfl, (hblocks fullBlock).1.mpr (by decide), (hblocks fullBlock).2,
    (hblocks [1, 0, 0]).1.mpr (by decide), mt (hblocks overfullBlock).1.mp (by decide)⟩

end RecordAttributes

end SaveSet
