import SaveSet.Proofs.SmartMode

namespace SaveSet

namespace Listed

def spec (l : Listed) : String := l.attributes.filename

def base (l : Listed) : String := Name.base l.spec

def version (l : Listed) : Int := Name.version l.spec

def IsNewest (ls : List Listed) (l : Listed) : Prop := ∀ k ∈ ls, k.base = l.base → k.version ≤ l.version

instance (ls : List Listed) (l : Listed) : Decidable (l.IsNewest ls) :=
  inferInstanceAs (Decidable (∀ k ∈ ls, k.base = l.base → k.version ≤ l.version))

end Listed

def Selector.Picks (s : Selector) (ls : List Listed) (l : Listed) : Prop :=
  match s with
  | all => True
  | exact v => l.version = v
  | relative r => ∃ newest ∈ ls, newest.base = l.base ∧ newest.IsNewest ls ∧ l.version = newest.version + r

instance (s : Selector) (ls : List Listed) (l : Listed) : Decidable (s.Picks ls l) :=
  match s with
  | .all => isTrue trivial
  | .exact v => inferInstanceAs (Decidable (l.version = v))
  | .relative r => inferInstanceAs (Decidable (∃ newest ∈ ls,
      newest.base = l.base ∧ newest.IsNewest ls ∧ l.version = newest.version + r))

def Options.Takes (o : Options) (ls : List Listed) (l : Listed) : Prop :=
  (Mask.compile o.mask).accepts l.base = true ∧ o.version.Picks ls l

instance (o : Options) (ls : List Listed) (l : Listed) : Decidable (o.Takes ls l) :=
  inferInstanceAs (Decidable (_ ∧ _))

def Event.record? : Event → Option Listed
  | file a flags => some ⟨a, flags⟩
  | _ => none

def fileRecords (bytes : Bytes) : List Listed :=
  match framing bytes with
  | .ok h => ((Geometry.ofHeader h).events bytes).filterMap fun e => e.event.record?
  | .error _ => []

def Member.listed (m : Member) : Listed := ⟨m.attributes, m.flags⟩

lemma listed_members (es : List PlacedEvent) :
    (members (passages es)).map Member.listed = es.filterMap fun e => e.event.record? := by
  induction es with
  | nil => rfl
  | cons e es ih =>
    rcases e with ⟨e, last⟩
    cases e with
    | file a flags => exact congrArg (⟨a, flags⟩ :: ·) ih
    | idle => exact ih
    | boundary => exact ih
    | data p => exact ih
    | badRecord w => exact ih
    | badBlock w => exact ih

lemma fileRecords_eq (bytes : Bytes) : fileRecords bytes = (savedMembers bytes).map Member.listed := by
  rw [fileRecords, savedMembers]
  cases framing bytes with
  | error e => rfl
  | ok h => exact (listed_members _).symm

lemma keys_savedMembers (bytes : Bytes) :
    (savedMembers bytes).map Member.key = (fileRecords bytes).map Listed.spec := by
  rw [fileRecords_eq, List.map_map]
  rfl

variable {o : Options} {ms : List Member} {m : Member}

lemma highest_of_newest {n : Member} (hn : n ∈ ms) (hb : n.base = m.base)
    (h : n.listed.IsNewest (ms.map Member.listed)) : highest ms m.base = some n.version := by
  apply highest_eq_some.mpr
  refine ⟨⟨n, hn, hb, rfl⟩, ?_⟩
  intro k hk hkb
  exact h k.listed (List.mem_map_of_mem hk) (hkb.trans hb.symm)

lemma exists_newest (hm : m ∈ ms) :
    ∃ n ∈ ms, n.base = m.base ∧ n.listed.IsNewest (ms.map Member.listed) := by
  cases hh : highest ms m.base with
  | none => exact absurd rfl (highest_eq_none.mp hh m hm)
  | some v =>
    obtain ⟨⟨n, hn, hb, rfl⟩, hle⟩ := highest_eq_some.mp hh
    refine ⟨n, hn, hb, ?_⟩
    intro l hl hlb
    obtain ⟨k, hk, rfl⟩ := List.mem_map.mp hl
    exact hle k hk (hlb.trans hb)

lemma picks_iff (s : Selector) (hm : m ∈ ms) :
    s.Picks (ms.map Member.listed) m.listed ↔
      s.selects m.version ((highest ms m.base).getD m.version) = true := by
  cases s with
  | all => simp [Selector.Picks, Selector.selects]
  | exact v =>
    simp only [Selector.Picks, Selector.selects, beq_iff_eq]
    exact eq_comm
  | relative r =>
    simp only [Selector.Picks, Selector.selects, beq_iff_eq]
    constructor
    · rintro ⟨l, hl, hb, hnewest, hv⟩
      obtain ⟨n, hn, rfl⟩ := List.mem_map.mp hl
      rw [highest_of_newest hn hb hnewest]
      exact hv.symm
    · intro hv
      obtain ⟨n, hn, hb, hnewest⟩ := exists_newest hm
      rw [highest_of_newest hn hb hnewest] at hv
      exact ⟨n.listed, List.mem_map_of_mem hn, hb, hnewest, hv.symm⟩

lemma takes_iff (hm : m ∈ ms) : o.Takes (ms.map Member.listed) m.listed ↔ o.wants ms m = true := by
  rw [Options.Takes, picks_iff o.version hm, Options.wants, Bool.and_eq_true]
  rfl

lemma listed_wanted (o : Options) (ms : List Member) :
    (ms.filter (o.wants ms)).map Member.listed =
      (ms.map Member.listed).filter fun l => o.Takes (ms.map Member.listed) l := by
  rw [List.filter_map]
  congr 1
  apply List.filter_congr
  intro m hm
  rw [Function.comp_apply, Bool.eq_iff_iff, decide_eq_true_iff]
  exact (takes_iff hm).symm

lemma files_summary (o : Options) (h : BlockHeader) (ps : List Passage) :
    (o.summary h ps).files = ((members ps).filter (o.wants (members ps))).map Member.listed := by
  rw [← flatMap_wanted, List.map_flatMap]
  rfl

lemma names_writes (hx : o.extract = true) (ms : List Member) :
    (o.writes ms).map OutputFile.name = ((ms.filter (o.wants ms)).map Member.listed).map Listed.spec := by
  rw [Options.writes, if_pos hx, List.map_map, List.map_map]
  rfl

variable {σ : Type} [Sink σ] [FileSink σ]

/-- A run lists the files it takes, and opens them in the same order. -/
theorem files_are_taken (o : Options) {r : Reader} (hr : r.Reliable) (s : σ) {summary : Summary}
    (h : (run o r s).result = .ok summary) :
    summary.files = (fileRecords r.rest).filter (fun l => o.Takes (fileRecords r.rest) l) ∧
      (o.extract = true → ∃ new, FileSink.files (run o r s).sink = FileSink.files s ++ new ∧
        new.map OutputFile.name = summary.files.map Listed.spec) := by
  obtain ⟨header, hf, rfl⟩ := run_ok hr h
  have hms : savedMembers r.rest = members (header.passages r.rest) := savedMembers_framed hf
  refine ⟨?_, ?_⟩
  · rw [files_summary, listed_wanted, fileRecords_eq, hms]
  · intro hx
    refine ⟨_, (run_framed o hr s hf).2, ?_⟩
    rw [names_writes hx, files_summary]
    rfl

lemma taken_twoVersions :
    ((fileRecords readTwoVersions.rest).filter fun l => beforeNewest.Takes (fileRecords readTwoVersions.rest) l).map
      Listed.spec = ["N.T;1"] := by
  decide +kernel

theorem version_before_newest_is_taken :
    ∃ summary, (run beforeNewest readTwoVersions ({} : MemorySink)).result = .ok summary ∧
      summary.files.map Listed.spec = ["N.T;1"] ∧
      ∃ new, FileSink.files (run beforeNewest readTwoVersions ({} : MemorySink)).sink =
          FileSink.files ({} : MemorySink) ++ new ∧ new.map OutputFile.name = ["N.T;1"] := by
  obtain ⟨header, hf, -⟩ := twoVersions.framed
  have hrest : readTwoVersions.rest = twoVersions.bytes := Reader.rest_ofBytes _ _
  have hresult := (run_framed beforeNewest reliable_readTwoVersions ({} : MemorySink) (hrest ▸ hf)).1
  obtain ⟨hfiles, hnew⟩ := files_are_taken beforeNewest reliable_readTwoVersions ({} : MemorySink) hresult
  obtain ⟨new, hsink, hnames⟩ := hnew rfl
  rw [hfiles, taken_twoVersions] at hnames
  exact ⟨_, hresult, by rw [hfiles, taken_twoVersions], new, hsink, hnames⟩

end SaveSet
