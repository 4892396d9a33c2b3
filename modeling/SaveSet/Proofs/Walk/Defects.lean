import SaveSet.Proofs.Walk.Members

namespace SaveSet

inductive Defect where
  | block (w : Warning)
  | record (w : Warning)
  deriving DecidableEq, Repr

def Defect.warning : Defect → Warning
  | block w | record w => w

def Warning.isIncomplete : Warning → Bool
  | incomplete .. => true
  | truncated _ | blockSize .. | unknownKind .. => false

def Event.defect? : Event → Option Defect
  | badBlock w => some (.block w)
  | badRecord w => some (.record w)
  | idle | boundary | file .. | data _ => none

inductive LostRecord (blockLength cursor : Nat) (rest : Bytes) : Warning → Prop where
  | header {s : Shortfall} (hh : RecordHeader.decode rest = .error s) :
      LostRecord blockLength cursor rest (.truncated s)
  | payload {h : RecordHeader} (hh : RecordHeader.decode rest = .ok h) (hsize : h.size ≠ 0)
      (hend : blockLength < cursor + RecordHeader.layout.length + h.size) :
      LostRecord blockLength cursor rest
        (.truncated ⟨"record payload", h.size, blockLength - (cursor + RecordHeader.layout.length)⟩)
  | attributes {h : RecordHeader} {s : Shortfall} (hh : RecordHeader.decode rest = .ok h) (hkind : h.kind = .file)
      (hs : FileAttributes.decode (rest.slice RecordHeader.layout.length h.size) h.size = .error s) :
      LostRecord blockLength cursor rest (.truncated s)
  | kind {h : RecordHeader} {number : Nat} (hh : RecordHeader.decode rest = .ok h) (hkind : h.kind = .unknown number) :
      LostRecord blockLength cursor rest (.unknownKind number h.size)

lemma LostRecord.isIncomplete {blockLength cursor : Nat} {rest : Bytes} {w : Warning}
    (h : LostRecord blockLength cursor rest w) : w.isIncomplete = false := by
  cases h <;> rfl

lemma readRecord_cases (blockLength cursor : Nat) (rest : Bytes) :
    (∃ next, (readRecord blockLength cursor rest).next = some next ∧
        (readRecord blockLength cursor rest).event.defect? = none) ∨
      ∃ w, readRecord blockLength cursor rest = .damaged w ∧ LostRecord blockLength cursor rest w := by
  rw [readRecord]
  cases hh : RecordHeader.decode rest with
  | error s => exact Or.inr ⟨_, rfl, .header hh⟩
  | ok h =>
    dsimp only
    split
    · exact Or.inl ⟨_, rfl, rfl⟩
    · next hsize =>
      split
      · next hend => exact Or.inr ⟨_, rfl, .payload hh hsize hend⟩
      · rw [RecordReading.ofPayload]
        split
        · next hnull => exact Or.inl ⟨_, rfl, rfl⟩
        · next hvolume => exact Or.inl ⟨_, rfl, rfl⟩
        · next hvbn => exact Or.inl ⟨_, rfl, rfl⟩
        · next hfile =>
          split
          · exact Or.inl ⟨_, rfl, rfl⟩
          · next hs => exact Or.inr ⟨_, rfl, .attributes hh hfile hs⟩
        · next number hunknown => exact Or.inr ⟨_, rfl, .kind hh hunknown⟩
        · exact Or.inl ⟨_, rfl, rfl⟩

inductive DamagedFrom (block : Bytes) : Nat → Warning → Prop where
  | here {cursor : Nat} {w : Warning} (hc : cursor < block.length)
      (h : LostRecord block.length cursor (block.drop cursor) w) : DamagedFrom block cursor w
  | behind {cursor next : Nat} {w : Warning} (hc : cursor < block.length)
      (hnext : (readRecord block.length cursor (block.drop cursor)).next = some next) (h : DamagedFrom block next w) :
      DamagedFrom block cursor w

lemma DamagedFrom.isIncomplete {block : Bytes} {cursor : Nat} {w : Warning} (h : DamagedFrom block cursor w) :
    w.isIncomplete = false := by
  induction h with
  | here hc h => exact h.isIncomplete
  | behind hc hnext h ih => exact ih

lemma defects_readRecordsAfter (before : List Event) (block : Bytes) (cursor : Nat) :
    ∃ found : Option Warning,
      (readRecordsAfter before block.length cursor (block.drop cursor)).events.filterMap Event.defect? =
        before.reverse.filterMap Event.defect? ++ (found.map Defect.record).toList ∧
      (readRecordsAfter before block.length cursor (block.drop cursor)).sound = found.isNone ∧
      ∀ w ∈ found, DamagedFrom block cursor w := by
  generalize hl : block.length = length
  generalize hr : block.drop cursor = rest
  fun_induction readRecordsAfter before length cursor rest with
  | case1 before cursor rest hc r h =>
    rcases readRecord_cases length cursor rest with ⟨next, hnext, -⟩ | ⟨w, hw, hlost⟩
    · rw [hnext] at h
      cases h
    · refine ⟨some w, ?_, rfl, ?_⟩
      · have hevent : r.event = .badRecord w := congrArg RecordReading.event hw
        simp [hevent, Event.defect?]
      · intro w' hw'
        cases hw'
        subst hl hr
        exact .here hc hlost
  | case2 before cursor rest hc r next h ih =>
    rcases readRecord_cases length cursor rest with ⟨next', -, hsound⟩ | ⟨w, hw, -⟩
    · have hlt := (readRecord_next hc h).1
      obtain ⟨found, hdefects, hend, hfound⟩ := ih (by
        rw [← hr, List.drop_drop]
        congr 1
        omega)
      have hnone : r.event.defect? = none := hsound
      refine ⟨found, ?_, hend, ?_⟩
      · rw [hdefects]
        simp [hnone]
      · intro w hw
        subst hl hr
        exact .behind hc h (hfound w hw)
    · have hnext : r.next = none := congrArg RecordReading.next hw
      rw [hnext] at h
      cases h
  | case3 before cursor rest hc =>
    refine ⟨none, by simp, rfl, ?_⟩
    intro w hw
    cases hw

namespace Geometry

def defect? (g : Geometry) (bytes : Bytes) : Option Defect := (readBlock g bytes).events.findSome? Event.defect?

/-- Why a block of these bytes is lost: its header is short, it declares another size, or a record is lost. -/
def Suffers (g : Geometry) (bytes : Bytes) : Defect → Prop
  | .block w => (bytes.length < 256 ∧ w = .truncated ⟨"block header", 256, bytes.length⟩) ∨
      ∃ h, BlockHeader.decode bytes = .ok h ∧ h.blockSize ≠ 0 ∧ h.blockSize ≠ g.blockSize ∧
        w = .blockSize g.blockSize h.blockSize
  | .record w => (∃ h, BlockHeader.decode bytes = .ok h ∧ h.isCompatible g.blockSize = true) ∧
      DamagedFrom (bytes.take g.blockSize) g.headerSize w

lemma Suffers.isIncomplete {g : Geometry} {bytes : Bytes} {d : Defect} (h : g.Suffers bytes d) :
    d.warning.isIncomplete = false := by
  cases d with
  | block w => rcases h with ⟨-, rfl⟩ | ⟨h, -, -, -, rfl⟩ <;> rfl
  | record w => exact h.2.isIncomplete

end Geometry

lemma defects_readBlock (g : Geometry) (bytes : Bytes) :
    ∃ found : Option Defect, (readBlock g bytes).events.filterMap Event.defect? = found.toList ∧
      (readBlock g bytes).sound = found.isNone ∧
      ∀ d ∈ found, g.Suffers bytes d := by
  rw [readBlock]
  cases hd : BlockHeader.decode bytes with
  | error s =>
    obtain ⟨hl, rfl⟩ := BlockHeader.decode_error hd
    refine ⟨some (.block _), rfl, rfl, ?_⟩
    intro d hd
    cases hd
    exact Or.inl ⟨hl, rfl⟩
  | ok h =>
    dsimp only
    cases hc : h.isCompatible g.blockSize with
    | true =>
      obtain ⟨found, hdefects, hsound, hfound⟩ := defects_readRecordsAfter [] (bytes.take g.blockSize) g.headerSize
      refine ⟨found.map Defect.record, hdefects, ?_, ?_⟩
      · rw [if_pos rfl, Option.isNone_map]
        exact hsound
      · intro d hd'
        obtain ⟨w, hw, rfl⟩ := Option.map_eq_some_iff.mp hd'
        exact ⟨⟨h, hd, hc⟩, hfound w hw⟩
    | false =>
      refine ⟨some (.block _), rfl, rfl, ?_⟩
      intro d hd'
      cases hd'
      rw [BlockHeader.isCompatible, Bool.or_eq_false_iff, beq_eq_false_iff_ne, beq_eq_false_iff_ne] at hc
      exact Or.inr ⟨h, hd, hc.1, hc.2, rfl⟩

namespace Geometry

variable (g : Geometry) (bytes : Bytes)

lemma filterMap_defect : (readBlock g bytes).events.filterMap Event.defect? = (g.defect? bytes).toList := by
  obtain ⟨found, hdefects, -, -⟩ := defects_readBlock g bytes
  rw [defect?, ← List.head?_filterMap, hdefects]
  cases found <;> rfl

lemma sound_iff : (readBlock g bytes).sound = (g.defect? bytes).isNone := by
  obtain ⟨found, hdefects, hsound, -⟩ := defects_readBlock g bytes
  rw [hsound, defect?, ← List.head?_filterMap, hdefects]
  cases found <;> rfl

lemma suffers_of_defect {d : Defect} (h : g.defect? bytes = some d) : g.Suffers bytes d := by
  obtain ⟨found, hdefects, -, hfound⟩ := defects_readBlock g bytes
  apply hfound
  rw [defect?, ← List.head?_filterMap, hdefects] at h
  cases found with
  | none => cases h
  | some d' => exact h

end Geometry

end SaveSet
