import SaveSet.Proofs.InRange.Blocks
import SaveSet.Proofs.InRange.Content
import SaveSet.Proofs.Reports

/-! What can make a run fail if no call and no read does. Nothing but the first header of the save set can, whatever
stands behind it. -/

namespace SaveSet

def Geometry.IsUnframed (g : Geometry) : Prop :=
  g.blockSize = 0 ∨ g.blockSize < g.headerSize ∨ maxBlockSize < g.blockSize

lemma Geometry.isFramed_iff (g : Geometry) : g.isFramed = true ↔ ¬ g.IsUnframed := by
  rw [isFramed, Bool.and_eq_true_iff, Bool.and_eq_true_iff, bne_iff_ne, decide_eq_true_iff, decide_eq_true_iff,
    IsUnframed]
  omega

def Options.NeedsTwoPasses (o : Options) : Prop :=
  (o.extract = true ∧ o.mode = .smart) ∨ ∃ r, o.version = .relative r

lemma Options.needsScan_iff (o : Options) : o.needsScan = true ↔ o.NeedsTwoPasses := by
  rw [needsScan, NeedsTwoPasses, Bool.or_eq_true_iff, Bool.and_eq_true_iff, beq_iff_eq]
  apply or_congr_right
  cases o.version <;> simp [Selector.isRelative]

lemma length_passesOf (o : Options) :
    (o.NeedsTwoPasses → (passesOf o).length = 2) ∧ (¬ o.NeedsTwoPasses → (passesOf o).length = 1) := by
  rw [← o.needsScan_iff, passesOf]
  cases o.needsScan <;> simp

variable {σ : Type} [Sink σ] [ReliableSink σ]

/-- A run that reads and writes without faults ends well or is refused for the header that the save set starts with.
On the way every slice, index and difference is in range. -/
theorem only_framing_stops (o : Options) {r : Reader} (hr : r.Reliable) (s : σ) :
    ((run o r s).result = .error (.truncated ⟨"block header", 256, r.rest.length⟩) ↔ r.rest.length < 256) ∧
      (256 ≤ r.rest.length → ((run o r s).result = .error (.geometry (Geometry.declaredBy r.rest)) ↔
        (Geometry.declaredBy r.rest).IsUnframed)) ∧
      (256 ≤ r.rest.length → ¬ (Geometry.declaredBy r.rest).IsUnframed →
        ∃ summary, (run o r s).result = .ok summary ∧ (o.NeedsTwoPasses → summary.passes = 2) ∧
          (¬ o.NeedsTwoPasses → summary.passes = 1)) ∧
      (∀ reader want, Reader.read? reader want = some (reader.read want)) ∧
      (∀ bytes, BlockHeader.decode? bytes = some (BlockHeader.decode bytes)) ∧
      (∀ g bytes, readBlock? g bytes = some (readBlock g bytes)) ∧
      ∀ writing c payload, Content.feed? writing c payload = some (Content.feed writing c payload) := by
  refine ⟨?_, ?_, ?_, Reader.read?_eq, BlockHeader.decode?_eq, readBlock?_eq, Content.feed?_eq⟩
  · rw [result_refused o hr]
    constructor
    · intro hf
      apply Nat.lt_of_not_le
      intro hl
      obtain ⟨h, -, hlong⟩ := framing_long hl
      rw [hlong] at hf
      split at hf <;> cases hf
    · exact framing_short
  · intro hl
    obtain ⟨h, -, hf⟩ := framing_long hl
    rw [result_refused o hr, hf, ← not_iff_not, ← Geometry.isFramed_iff]
    split <;> simp [*]
  · intro hl hframed
    obtain ⟨h, -, hf⟩ := framing_long hl
    rw [if_pos ((Geometry.isFramed_iff _).mpr hframed)] at hf
    have hok := summary_framed o hr s hf
    refine ⟨_, hok, ?_⟩
    rw [passes_run hok]
    exact length_passesOf o

def readNoSize : Reader := .ofBytes (List.replicate 300 0) 1 .prompt

def readShort : Reader := .ofBytes (List.replicate 300 0) 45 .prompt

theorem lost_blocks_do_not_stop :
    (run allVersions readShort ({} : MemorySink)).result = .error (.truncated ⟨"block header", 256, 255⟩) ∧
      (run allVersions readNoSize ({} : MemorySink)).result = .error (.geometry ⟨0, 0⟩) ∧
      ∃ summary, (run allVersions readTwoLost ({} : MemorySink)).result = .ok summary ∧ summary.passes = 2 := by
  have hlength : readShort.rest.length = 255 := by decide +kernel
  have hunframed : Geometry.declaredBy readNoSize.rest = ⟨0, 0⟩ := by decide +kernel
  have hframed : Geometry.declaredBy readTwoLost.rest = letterShape := by decide +kernel
  obtain ⟨hshort, -⟩ :=
    only_framing_stops allVersions (r := readShort) (Reader.reliable_ofBytes _ _) ({} : MemorySink)
  obtain ⟨-, hunsized, -⟩ :=
    only_framing_stops allVersions (r := readNoSize) (Reader.reliable_ofBytes _ _) ({} : MemorySink)
  obtain ⟨-, -, hruns, -⟩ :=
    only_framing_stops allVersions (r := readTwoLost) (Reader.reliable_ofBytes _ _) ({} : MemorySink)
  rw [hlength] at hshort
  rw [hunframed] at hunsized
  rw [hframed] at hruns
  refine ⟨hshort.mpr (by decide), (hunsized (by decide +kernel)).mpr (.inl rfl), ?_⟩
  obtain ⟨summary, hok, htwo, -⟩ := hruns (by decide +kernel) ((Geometry.isFramed_iff _).mp (by decide))
  exact ⟨summary, hok, htwo (.inl ⟨rfl, rfl⟩)⟩

end SaveSet
