import SaveSet.Proofs.Selection

/-! What it means that a run has nothing to warn of: every file that it lists is written to its end. The end is
where the first record of a specification puts it, for later records of the same specification too. -/

namespace SaveSet

open Content SaveSetImage

def firstRecord (ls : List Listed) (spec : String) : Option Listed := ls.find? fun l => l.spec == spec

lemma firstRecord_listed (ms : List Member) (key : String) :
    firstRecord (ms.map Member.listed) key = (declared ms key).map Member.listed := List.find?_map ..

lemma mem_members {ps : List Passage} {m : Member} : m ∈ members ps ↔ Passage.member m ∈ ps := by
  rw [members, List.mem_filterMap]
  constructor
  · rintro ⟨p, hp, hm⟩
    cases p with
    | member n =>
      cases hm
      exact hp
    | badRecord w last => cases hm
    | badBlock w last => cases hm
  · intro hm
    exact ⟨_, hm, rfl⟩

variable {o : Options} {ms : List Member} {m : Member}

lemma shortfall_of_silent {ps : List Passage} (hx : o.extract = true)
    (hw : ps.flatMap (Passage.warned o (members ps)) = []) (hm : m ∈ members ps)
    (hwanted : o.wants (members ps) m = true) : Session.shortfall m.key (m.ended o (members ps)) = [] := by
  have h := List.flatMap_eq_nil_iff.mp hw _ (mem_members.mp hm)
  rwa [Passage.warned, hx, hwanted, Bool.and_self, if_pos rfl] at h

lemma length_written {d : Member} (hd : declared ms m.key = some d)
    (hv : Verbatim o.mode d.attributes.recordFormat)
    (hs : Session.shortfall m.key (m.ended o ms) = []) : (m.written o ms).data.length = d.attributes.fileSize := by
  rw [data_written hd hv, List.length_take]
  exact Nat.min_eq_left ((shortfall_ended hd hv).mp hs)

variable {σ : Type} [Sink σ] [FileSink σ]

/-- A run that copies content and warns of nothing wrote all that it lists. Every file has the size that the first
record of its specification declares. -/
theorem silent_run_is_complete (o : Options) (hx : o.extract = true) {r : Reader} (hr : r.Reliable)
    (hv : ∀ l ∈ fileRecords r.rest, Verbatim o.mode l.attributes.recordFormat) (s : σ) {summary : Summary}
    (h : (run o r s).result = .ok summary) (hw : summary.warnings = []) :
    ∃ new, FileSink.files (run o r s).sink = FileSink.files s ++ new ∧ new.length = summary.files.length ∧
      ∀ (i : Nat) (f : OutputFile) (l : Listed), new[i]? = some f → summary.files[i]? = some l →
        f.name = l.spec ∧ ∃ first, firstRecord (fileRecords r.rest) l.spec = some first ∧
          f.data.length = first.attributes.fileSize := by
  obtain ⟨header, hf, rfl⟩ := run_ok hr h
  have hms : savedMembers r.rest = members (header.passages r.rest) := savedMembers_framed hf
  rw [fileRecords_eq, hms] at hv ⊢
  rw [files_summary]
  refine ⟨_, (run_framed o hr s hf).2, ?_, ?_⟩
  · rw [Options.writes, if_pos hx, List.length_map, List.length_map]
    rfl
  · intro i f l hi hl
    rw [Options.writes, if_pos hx, List.getElem?_map] at hi
    rw [List.getElem?_map] at hl
    obtain ⟨m, hm, rfl⟩ := Option.map_eq_some_iff.mp hi
    obtain ⟨n, hn, rfl⟩ := Option.map_eq_some_iff.mp hl
    obtain rfl := Option.some.inj (hm.symm.trans hn)
    obtain ⟨hmem, hwanted⟩ := List.mem_filter.mp (List.mem_of_getElem? hm)
    obtain ⟨d, hd, -⟩ := declared_of_mem hmem
    have hdm : d ∈ members (header.passages r.rest) := List.mem_of_find?_eq_some hd
    refine ⟨rfl, d.listed, ?_, ?_⟩
    · rw [firstRecord_listed]
      exact congrArg (Option.map Member.listed) hd
    · exact length_written hd (hv d.listed (List.mem_map_of_mem hdm)) (shortfall_of_silent hx hw hmem hwanted)

lemma length_sharedName : ([78, 46, 84, 59, 49] : Bytes).length < 65536 := by decide

def shorterRecord : StoredFile := .plain [78, 46, 84, 59, 49] 1 [[1, 2, 3]] length_sharedName (by decide)

def longerRecord : StoredFile := .plain [78, 46, 84, 59, 49] 1 [[4, 5, 6, 7, 8]] length_sharedName (by decide)

def oneNameTwice : SaveSetImage :=
  .plain [shorterRecord, longerRecord]
    [(StoredItem.file shorterRecord).record (by decide) (by decide),
      (StoredItem.data [1, 2, 3]).record (by decide) (by decide),
      (StoredItem.file longerRecord).record (by decide) (by decide),
      (StoredItem.data [4, 5, 6, 7, 8]).record (by decide) (by decide)] rfl (by decide +kernel)

def readOneNameTwice : Reader := .ofBytes oneNameTwice.bytes 0 .prompt

lemma reliable_readOneNameTwice : readOneNameTwice.Reliable := Reader.reliable_ofBytes _ _

lemma verbatim_oneNameTwice :
    ∀ l ∈ fileRecords readOneNameTwice.rest, Verbatim .binary l.attributes.recordFormat := by
  simp only [Verbatim]
  decide +kernel

lemma run_oneNameTwice : ∃ summary, (run copyAll readOneNameTwice ({} : MemorySink)).result = .ok summary ∧
    summary.warnings = [] ∧ summary.files.map (fun l => l.attributes.fileSize) = [3, 5] := by
  obtain ⟨header, hf, hg⟩ := oneNameTwice.framed
  have hrest : readOneNameTwice.rest = oneNameTwice.bytes := Reader.rest_ofBytes _ _
  rw [← hrest] at hf
  refine ⟨_, (run_framed copyAll reliable_readOneNameTwice ({} : MemorySink) hf).1, ?_, ?_⟩
  · rw [Options.summary, BlockHeader.passages, hg]
    dsimp only
    decide +kernel
  · rw [Options.summary, BlockHeader.passages, hg]
    dsimp only
    decide +kernel

lemma lengths_oneNameTwice :
    (extracted copyAll readOneNameTwice ({} : MemorySink)).map (fun f => f.data.length) = [3, 3] := by
  rw [extracted_eq _ reliable_readOneNameTwice]
  decide +kernel

theorem one_name_twice_is_complete : ∃ summary,
    (run copyAll readOneNameTwice ({} : MemorySink)).result = .ok summary ∧ summary.warnings = [] ∧
      ∃ new, FileSink.files (run copyAll readOneNameTwice ({} : MemorySink)).sink =
          FileSink.files ({} : MemorySink) ++ new ∧ new.length = summary.files.length ∧
        ∀ (i : Nat) (f : OutputFile) (l : Listed), new[i]? = some f → summary.files[i]? = some l →
          f.name = l.spec ∧ ∃ first, firstRecord (fileRecords readOneNameTwice.rest) l.spec = some first ∧
            f.data.length = first.attributes.fileSize := by
  obtain ⟨summary, hresult, hsilent, -⟩ := run_oneNameTwice
  exact ⟨summary, hresult, hsilent, silent_run_is_complete copyAll rfl reliable_readOneNameTwice
    verbatim_oneNameTwice ({} : MemorySink) hresult hsilent⟩

theorem longer_record_is_cut_silently :
    ¬ ∀ summary, (run copyAll readOneNameTwice ({} : MemorySink)).result = .ok summary → summary.warnings = [] →
      ∀ (i : Nat) (f : OutputFile) (l : Listed), (extracted copyAll readOneNameTwice ({} : MemorySink))[i]? = some f →
        summary.files[i]? = some l → f.data.length = l.attributes.fileSize := by
  intro h
  obtain ⟨summary, hresult, hsilent, hsizes⟩ := run_oneNameTwice
  have hsize := congrArg (·[1]?) hsizes
  have hlength := congrArg (·[1]?) lengths_oneNameTwice
  rw [List.getElem?_map] at hsize hlength
  obtain ⟨l, hl, hfive⟩ := Option.map_eq_some_iff.mp hsize
  obtain ⟨f, hf, hthree⟩ := Option.map_eq_some_iff.mp hlength
  have hsame := h summary hresult hsilent 1 f l hf hl
  rw [hthree, hfive] at hsame
  exact absurd hsame (by decide)

end SaveSet
