import SaveSet.Proofs.Handles
import SaveSet.Proofs.Reports

/-! What a run says does not depend on what it writes. A run that writes has as much to say about files that come out
incomplete in addition, and nothing else. -/

namespace SaveSet

variable {o p : Options} {ms : List Member}

structure Options.Agrees (o p : Options) : Prop where
  mask : p.mask = o.mask
  version : p.version = o.version
  detail : p.detail = o.detail

lemma Options.Agrees.wants_eq (h : o.Agrees p) (ms : List Member) : p.wants ms = o.wants ms := by
  funext m
  rw [wants, wants, h.mask, h.version]

lemma Options.Agrees.files_eq (h : o.Agrees p) (header : BlockHeader) (ps : List Passage) :
    (p.summary header ps).files = (o.summary header ps).files := by
  rw [files_summary, files_summary, h.wants_eq]

def Listed.request (l : Listed) : OpenRequest := ⟨l.spec, l.attributes.created, l.attributes.revised⟩

lemma requests_writes (hx : o.extract = true) (header : BlockHeader) (ps : List Passage) :
    (o.writes (members ps)).map OutputFile.request = (o.summary header ps).files.map Listed.request := by
  rw [files_summary, Options.writes, if_pos hx, List.map_map, List.map_map]
  rfl

section

variable {σ : Type} [Sink σ]

lemma runPasses_mute (hx : o.extract = false) (g : Geometry) (origin : Nat) (r : Reader) (s : σ) :
    (runPasses o g origin r s).state.sink = s := by
  apply Outcome.state_each (P := fun p : PassState σ => p.sink = s)
  · intro pass p hp
    have hmute : (PassRules.ofOptions o pass).IsMute := Or.inr hx
    rw [sink_runPass]
    exact (traverse_mute hmute g origin p).1.trans hp
  · rfl

lemma run_mute (hx : o.extract = false) (r : Reader) (s : σ) : (run o r s).sink = s := by
  rcases run_cases o r s with ⟨e, r', hrun⟩ | ⟨g, probed, hsink, -⟩
  · rw [hrun]
  · rw [hsink]
    exact runPasses_mute hx g r.position probed s

end

variable {σ τ : Type} [Sink σ] [Sink τ] [ReliableSink σ] [ReliableSink τ] {r : Reader}

lemma extracted_summary (hx : o.extract = true) (header : BlockHeader) (ps : List Passage) :
    (o.summary header ps).extracted = (o.summary header ps).files.length := by
  rw [files_summary, List.length_map, Options.summary, Options.writes, if_pos hx, List.length_map]

lemma requests_run (hx : o.extract = true) (hr : r.Reliable) (s : σ) {header : BlockHeader}
    (hf : framing r.rest = .ok header) :
    (run o r (Journaled.start s)).sink.calls.filterMap Call.request? =
      (o.summary header (header.passages r.rest)).files.map Listed.request := by
  have hfiles : filesOf (run o r (Journaled.start s)).sink.calls = [] ++ o.writes (header.members r.rest) :=
    (run_framed o hr (Journaled.start s) hf).2
  rw [← requests_filesOf, hfiles, List.nil_append]
  exact requests_writes hx header (header.passages r.rest)

/-- Runs that choose the same files list the same, whether they write or not and in whatever mode. The one that does
not write calls nothing and has nothing to say about incomplete files; the one that does opens what is listed. -/
theorem listing_ignores_extraction (h : o.Agrees p) (hr : r.Reliable) (s : σ) (t : τ) :
    (∀ e, (run o r s).result = .error e ↔ (run p r t).result = .error e) ∧
      (o.extract = false → (run o r (Journaled.start s)).sink.calls = []) ∧
      ∀ x, (run o r s).result = .ok x → ∃ y, (run p r t).result = .ok y ∧
        y.files = x.files ∧ y.name = x.name ∧ y.blockSize = x.blockSize ∧
        (o.extract = false → x.warnings = y.warnings.filter Warning.isDamage) ∧
        (p.extract = true → y.extracted = y.files.length ∧
          (run p r (Journaled.start t)).sink.calls.filterMap Call.request? = y.files.map Listed.request) := by
  refine ⟨?_, ?_, ?_⟩
  · intro e
    rw [result_refused o hr, result_refused p hr]
  · intro hx
    rw [run_mute hx]
    rfl
  · intro x hok
    obtain ⟨header, hf, rfl⟩ := framed_of_ok hr hok
    refine ⟨_, summary_framed p hr t hf, h.files_eq header _, rfl, rfl, ?_, ?_⟩
    · intro hx
      rw [o.warnings_listing hx hf, p.filter_warnings hf, h.detail]
    · intro hx
      exact ⟨extracted_summary hx header _, requests_run hx hr t hf⟩

lemma length_letterFile : (StoredItem.file (letterFile 67 3)).payload.length = 29 := rfl

lemma headerSize_letterShape : 256 ≤ letterShape.headerSize := by decide

lemma blockSize_letterShape : letterShape.blockSize < 4294967296 := by decide

def readOpenLetter : Reader := .ofBytes (twoLetters.encode ++ (lostBlock ++ openLetter.encode)) 0 .prompt
where
  openLetter : BlockImage letterShape :=
    .plain _ [(StoredItem.file (letterFile 67 3)).record (by rw [length_letterFile]; decide)
      (by rw [length_letterFile]; decide)] (.blank (List.replicate 63 0)) headerSize_letterShape
      blockSize_letterShape rfl

lemma framed_openLetter : ∃ h, framing readOpenLetter.rest = .ok h ∧ Geometry.ofHeader h = letterShape :=
  framing_ok_iff.mpr ⟨by decide +kernel, by decide +kernel, by decide +kernel⟩

def listOnly : Options := { allVersions with extract := false }

theorem letters_are_listed_and_extracted : ∃ x y,
    (run listOnly readOpenLetter ({} : MemorySink)).result = .ok x ∧
      (run allVersions readOpenLetter ({} : MemorySink)).result = .ok y ∧ x.passes = 1 ∧ y.passes = 2 ∧
      y.files = x.files ∧ y.files.map Listed.spec = ["A.T;1", "B.T;1", "C.T;1"] ∧ y.extracted = 3 ∧
      x.warnings = [lostPayload] ∧ y.warnings = [lostPayload, .incomplete "C.T;1" 0 1] := by
  obtain ⟨header, hf, hshape⟩ := framed_openLetter
  have hr : readOpenLetter.Reliable := Reader.reliable_ofBytes _ _
  have hx := summary_framed listOnly hr ({} : MemorySink) hf
  have hy := summary_framed allVersions hr ({} : MemorySink) hf
  have hfiles : (allVersions.summary header (header.passages readOpenLetter.rest)).files.map Listed.spec =
      ["A.T;1", "B.T;1", "C.T;1"] := by
    rw [Options.summary, BlockHeader.passages, hshape]
    dsimp only
    decide +kernel
  have hwarnings : (allVersions.summary header (header.passages readOpenLetter.rest)).warnings =
      [lostPayload, .incomplete "C.T;1" 0 1] := by
    rw [Options.summary, BlockHeader.passages, hshape]
    dsimp only
    decide +kernel
  have hagree : listOnly.Agrees allVersions := ⟨rfl, rfl, rfl⟩
  obtain ⟨-, -, hok⟩ := listing_ignores_extraction hagree hr ({} : MemorySink) ({} : MemorySink)
  obtain ⟨y, hy', hsame, -, -, hlisting, hextracting⟩ := hok _ hx
  cases hy.symm.trans hy'
  refine ⟨_, _, hx, hy, rfl, rfl, hsame, hfiles, ?_, ?_, hwarnings⟩
  · rw [(hextracting rfl).1, ← List.length_map Listed.spec, hfiles]
    rfl
  · rw [hlisting rfl, hwarnings]
    rfl

end SaveSet
