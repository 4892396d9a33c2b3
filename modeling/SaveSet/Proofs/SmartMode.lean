import SaveSet.Proofs.Container.RoundTrip

namespace SaveSet

open Content

variable {o : Options} {ms : List Member} {m : Member}

def Options.inMode (o : Options) (mode : ContentMode) : Options := { o with mode }

lemma modeOf_explicit {mode : ContentMode} (h : mode ≠ .smart) (ms : List Member) (key : String) :
    (o.inMode mode).modeOf ms key = mode :=
  modeOf_of_ne_smart (o := o.inMode mode) h ms key

lemma modeOf_smart (ms : List Member) (key : String) :
    (o.inMode .smart).modeOf ms key = if (o.inMode .smart).sniffs ms key then .binary else .ascii := by
  rw [Options.modeOf, Options.scannedMode]
  split <;> rfl

lemma written_smart (o : Options) (ms : List Member) (m : Member) :
    m.written (o.inMode .smart) ms =
      if (o.inMode .smart).sniffs ms m.key then m.written (o.inMode .binary) ms
      else m.written (o.inMode .ascii) ms := by
  rw [Member.written, Member.written, Member.written, Member.started, Member.started, Member.started,
    modeOf_smart, modeOf_explicit (by decide), modeOf_explicit (by decide)]
  split <;> rfl

lemma requests_inMode (o : Options) (ms : List Member) (mode mode' : ContentMode) :
    ((o.inMode mode).writes ms).map OutputFile.request =
      ((o.inMode mode').writes ms).map OutputFile.request := by
  have h (mode : ContentMode) : ((o.inMode mode).writes ms).map OutputFile.request =
      if o.extract then (ms.filter (o.wants ms)).map Member.request else [] := by
    rw [Options.writes]
    change List.map _ (if o.extract then _ else _) = _
    split
    · rw [List.map_map]
      rfl
    · rfl
  rw [h, h]

lemma writes_getElem? {mode : ContentMode} {i : Nat} {f : OutputFile}
    (h : ((o.inMode mode).writes ms)[i]? = some f) :
    o.extract = true ∧ ∃ m, (ms.filter (o.wants ms))[i]? = some m ∧ m.written (o.inMode mode) ms = f := by
  rw [Options.writes] at h
  change (if o.extract then _ else _)[i]? = _ at h
  split at h
  · next hx =>
    rw [List.getElem?_map] at h
    obtain ⟨m, hm, hf⟩ := Option.map_eq_some_iff.mp h
    exact ⟨hx, m, hm, hf⟩
  · cases h

lemma writes_side_by_side {i : Nat} {f b a : OutputFile} (hf : ((o.inMode .smart).writes ms)[i]? = some f)
    (hb : ((o.inMode .binary).writes ms)[i]? = some b) (ha : ((o.inMode .ascii).writes ms)[i]? = some a) :
    o.extract = true ∧ ∃ m ∈ ms, o.wants ms m = true ∧ m.written (o.inMode .smart) ms = f ∧
      m.written (o.inMode .binary) ms = b ∧ m.written (o.inMode .ascii) ms = a := by
  obtain ⟨hx, m, hm, rfl⟩ := writes_getElem? hf
  obtain ⟨-, n, hn, rfl⟩ := writes_getElem? hb
  obtain rfl := Option.some.inj (hm.symm.trans hn)
  obtain ⟨-, n, hn, rfl⟩ := writes_getElem? ha
  obtain rfl := Option.some.inj (hm.symm.trans hn)
  obtain ⟨hmem, hw⟩ := List.mem_filter.mp (List.mem_of_getElem? hm)
  exact ⟨hx, m, hmem, hw, rfl, rfl, rfl⟩

lemma written_of_udf {d : Member} (hd : declared ms m.key = some d) (hf : d.attributes.recordFormat = .udf)
    (mode mode' : ContentMode) : m.written (o.inMode mode) ms = m.written (o.inMode mode') ms := by
  have h (mode : ContentMode) : (m.started (o.inMode mode) ms).output m.payloads =
      m.payloads.flatten.take d.attributes.fileSize := by
    rw [Member.started, hd]
    exact output_verbatim (c := d.content _) (Or.inr (Or.inl hf)) m.payloads
  rw [Member.written, Member.written, h, h]

lemma sniffsAfter_absent {key : String} (h : ∀ n ∈ ms, n.key ≠ key) (earlier : List Member) :
    o.sniffsAfter key earlier ms = false := by
  cases hs : o.sniffsAfter key earlier ms with
  | false => rfl
  | true =>
    obtain ⟨before, n, later, rfl, hk, -⟩ := (o.sniffsAfter_iff key earlier ms).mp hs
    exact absurd hk (h n (List.mem_append_right _ List.mem_cons_self))

lemma sniffs_distinct {before later : List Member} (hd : ((before ++ m :: later).map Member.key).Nodup) :
    o.sniffs (before ++ m :: later) m.key = o.betrays before m := by
  rw [List.map_append, List.map_cons, List.nodup_append] at hd
  obtain ⟨-, hlater, hbefore⟩ := hd
  have hb : ∀ n ∈ before, n.key ≠ m.key := fun n hn =>
    hbefore n.key (List.mem_map_of_mem hn) m.key List.mem_cons_self
  have hl : ∀ n ∈ later, n.key ≠ m.key := fun n hn he =>
    (List.nodup_cons.mp hlater).1 (he ▸ List.mem_map_of_mem hn)
  rw [Options.sniffs, Options.sniffsAfter_append, sniffsAfter_absent hb, Options.sniffsAfter,
    sniffsAfter_absent hl, beq_self_eq_true, Bool.false_or, Bool.true_and, Bool.or_false, List.nil_append]

lemma wants_when_met (hv : o.version = .all ∨ (∃ v, o.version = .exact v) ∨ o.version = .relative 0)
    {known : List Member} (hm : m ∈ known) (hk : known ⊆ ms) (hw : o.wants ms m = true) :
    o.wants known m = true := by
  rcases hv with hv | ⟨v, hv⟩ | hv
  · rw [Options.wants_absolute (by rw [hv]; rfl) known ms, hw]
  · rw [Options.wants_absolute (by rw [hv]; rfl) known ms, hw]
  · exact Options.wants_newest hv hm hk hw

lemma sniffs_wanted (hx : o.extract = true)
    (hv : o.version = .all ∨ (∃ v, o.version = .exact v) ∨ o.version = .relative 0)
    (hd : (ms.map Member.key).Nodup) (hm : m ∈ ms) (hw : o.wants ms m = true) :
    (o.inMode .smart).sniffs ms m.key = m.holdsBinary m.payloads := by
  obtain ⟨before, later, rfl⟩ := List.append_of_mem hm
  have hseen : before ++ [m] ⊆ before ++ m :: later := subset_of_eq rfl
  have hlast : m ∈ before ++ [m] := List.mem_append_right _ (List.mem_singleton_self m)
  have hbefore : ((before ++ [m]).map Member.key).Nodup :=
    hd.sublist (List.Sublist.map _ (by simp))
  have hwmet : (o.inMode .smart).wants (before ++ [m]) m = true := wants_when_met hv hlast hseen hw
  have hsmart : ((o.inMode .smart).extract && (o.inMode .smart).mode == .smart) = true := by
    simp [Options.inMode, hx]
  rw [sniffs_distinct hd, Options.betrays_of_wants hsmart hwmet (declared_distinct hbefore hlast)]

variable {σ : Type} [Sink σ] [FileSink σ]

/-- The first pass found `key` to be binary: some record of it was wanted, as far as the save set was
read by then, and its data as binary has a byte above seven bits. -/
def FoundBinary (o : Options) (ms : List Member) (key : String) : Prop :=
  ∃ before m later d, ms = before ++ m :: later ∧ m.key = key ∧ o.wants (before ++ [m]) m = true ∧
    declared (before ++ [m]) key = some d ∧ d.holdsBinary m.payloads = true

lemma sniffs_iff_found (hx : o.extract = true) {key : String} :
    (o.inMode .smart).sniffs ms key = true ↔ FoundBinary o ms key := by
  have hsmart : ((o.inMode .smart).extract && (o.inMode .smart).mode == .smart) = true := by
    simp [Options.inMode, hx]
  rw [Options.sniffs_iff]
  constructor
  · rintro ⟨before, m, later, hms, rfl, hb⟩
    obtain ⟨d, hd, -⟩ := declared_of_mem (List.mem_append_right before (List.mem_singleton_self m))
    cases hw : o.wants (before ++ [m]) m with
    | false =>
      rw [Options.betrays_of_not_wants (o := o.inMode .smart) hw] at hb
      exact absurd hb Bool.false_ne_true
    | true =>
      rw [Options.betrays_of_wants hsmart hw hd] at hb
      exact ⟨before, m, later, d, hms, rfl, hw, hd, hb⟩
  · rintro ⟨before, m, later, d, hms, rfl, hw, hd, hb⟩
    refine ⟨before, m, later, hms, rfl, ?_⟩
    rw [Options.betrays_of_wants hsmart hw hd, hb]

/-- Of files with distinct specifications each is written as binary if it is binary, and as text if it
is not, whichever of them are wanted. -/
theorem smart_is_choice (o : Options)
    (hv : o.version = .all ∨ (∃ v, o.version = .exact v) ∨ o.version = .relative 0) {r : Reader}
    (hr : r.Reliable) (hd : ((savedMembers r.rest).map Member.key).Nodup) (s : σ) :
    (extracted (o.inMode .smart) r s).map OutputFile.request =
        (extracted (o.inMode .binary) r s).map OutputFile.request ∧
      (extracted (o.inMode .smart) r s).map OutputFile.request =
        (extracted (o.inMode .ascii) r s).map OutputFile.request ∧
      ∀ (i : Nat) (f b a : OutputFile), (extracted (o.inMode .smart) r s)[i]? = some f →
        (extracted (o.inMode .binary) r s)[i]? = some b → (extracted (o.inMode .ascii) r s)[i]? = some a →
        f.data = if high b.data then b.data else a.data := by
  simp only [extracted_eq _ hr s]
  refine ⟨requests_inMode o _ _ _, requests_inMode o _ _ _, fun i f b a hf hb ha => ?_⟩
  obtain ⟨hx, m, hmem, hw, rfl, rfl, rfl⟩ := writes_side_by_side hf hb ha
  have hdecl := declared_distinct hd hmem
  rw [written_smart, sniffs_wanted hx hv hd hmem hw]
  -- Undefined content is never sniffed, but no mode changes it either.
  by_cases hu : m.attributes.recordFormat = .udf
  · rw [written_of_udf hdecl hu .binary .ascii]
    simp only [ite_self]
  · have hbinary : high (m.written (o.inMode .binary) (savedMembers r.rest)).data = m.holdsBinary m.payloads := by
      rw [Member.written, Member.started, hdecl, modeOf_explicit (by decide), Member.holdsBinary]
      simp [OutputFile.append, OutputFile.ofRequest, hu]
    rw [hbinary]
    split <;> rfl

def olderVersion : StoredFile := .plain [78, 46, 84, 59, 49] 1 [[0x80, 13, 10]] (by decide) (by decide)

def newestVersion : StoredFile := .plain [78, 46, 84, 59, 50] 1 [[72, 105]] (by decide) (by decide)

def twoVersions : SaveSetImage :=
  .plain [olderVersion, newestVersion]
    [(StoredItem.file olderVersion).record (by decide) (by decide),
      (StoredItem.data [0x80, 13, 10]).record (by decide) (by decide),
      (StoredItem.file newestVersion).record (by decide) (by decide),
      (StoredItem.data [72, 105]).record (by decide) (by decide)] rfl (by decide +kernel)

def readTwoVersions : Reader := .ofBytes twoVersions.bytes 0 .prompt

lemma reliable_readTwoVersions : readTwoVersions.Reliable := Reader.reliable_ofBytes _ _

lemma keys_twoVersions : (savedMembers readTwoVersions.rest).map Member.key = ["N.T;1", "N.T;2"] := by
  rw [readTwoVersions, Reader.rest_ofBytes, SaveSetImage.keys_stored (SaveSetImage.savedMembers_stored twoVersions)]
  decide

def allVersions : Options := { version := .all }

theorem all_versions_are_chosen :
    (extracted (allVersions.inMode .smart) readTwoVersions ({} : MemorySink)).map OutputFile.request =
        (extracted (allVersions.inMode .binary) readTwoVersions ({} : MemorySink)).map OutputFile.request ∧
      (extracted (allVersions.inMode .smart) readTwoVersions ({} : MemorySink)).map OutputFile.request =
        (extracted (allVersions.inMode .ascii) readTwoVersions ({} : MemorySink)).map OutputFile.request ∧
      ∀ (i : Nat) (f b a : OutputFile),
        (extracted (allVersions.inMode .smart) readTwoVersions ({} : MemorySink))[i]? = some f →
        (extracted (allVersions.inMode .binary) readTwoVersions ({} : MemorySink))[i]? = some b →
        (extracted (allVersions.inMode .ascii) readTwoVersions ({} : MemorySink))[i]? = some a →
        f.data = if high b.data then b.data else a.data :=
  smart_is_choice allVersions (Or.inl rfl) reliable_readTwoVersions (by rw [keys_twoVersions]; decide)
    ({} : MemorySink)

/-- Each file is written as binary if the first pass found it to be binary, and as text if not. -/
theorem smart_follows_scan (o : Options) {r : Reader} (hr : r.Reliable) (s : σ) :
    (extracted (o.inMode .smart) r s).map OutputFile.request =
        (extracted (o.inMode .binary) r s).map OutputFile.request ∧
      (extracted (o.inMode .smart) r s).map OutputFile.request =
        (extracted (o.inMode .ascii) r s).map OutputFile.request ∧
      ∀ (i : Nat) (f b a : OutputFile), (extracted (o.inMode .smart) r s)[i]? = some f →
        (extracted (o.inMode .binary) r s)[i]? = some b → (extracted (o.inMode .ascii) r s)[i]? = some a →
        (FoundBinary o (savedMembers r.rest) f.name → f.data = b.data) ∧
        (¬ FoundBinary o (savedMembers r.rest) f.name → f.data = a.data) := by
  simp only [extracted_eq _ hr s]
  refine ⟨requests_inMode o _ _ _, requests_inMode o _ _ _, fun i f b a hf hb ha => ?_⟩
  obtain ⟨hx, m, -, -, rfl, rfl, rfl⟩ := writes_side_by_side hf hb ha
  have hname : (m.written (o.inMode .smart) (savedMembers r.rest)).name = m.key := rfl
  rw [hname, written_smart, ← sniffs_iff_found hx]
  refine ⟨fun h => ?_, fun h => ?_⟩
  · rw [if_pos h]
  · rw [if_neg h]

def beforeNewest : Options := { version := .relative (-1) }

theorem older_version_follows_scan :
    (extracted (beforeNewest.inMode .smart) readTwoVersions ({} : MemorySink)).map OutputFile.request =
        (extracted (beforeNewest.inMode .binary) readTwoVersions ({} : MemorySink)).map OutputFile.request ∧
      (extracted (beforeNewest.inMode .smart) readTwoVersions ({} : MemorySink)).map OutputFile.request =
        (extracted (beforeNewest.inMode .ascii) readTwoVersions ({} : MemorySink)).map OutputFile.request ∧
      ∀ (i : Nat) (f b a : OutputFile),
        (extracted (beforeNewest.inMode .smart) readTwoVersions ({} : MemorySink))[i]? = some f →
        (extracted (beforeNewest.inMode .binary) readTwoVersions ({} : MemorySink))[i]? = some b →
        (extracted (beforeNewest.inMode .ascii) readTwoVersions ({} : MemorySink))[i]? = some a →
        (FoundBinary beforeNewest (savedMembers readTwoVersions.rest) f.name → f.data = b.data) ∧
        (¬ FoundBinary beforeNewest (savedMembers readTwoVersions.rest) f.name → f.data = a.data) :=
  smart_follows_scan beforeNewest reliable_readTwoVersions ({} : MemorySink)

lemma members_twoVersions : ∃ flags flags', savedMembers readTwoVersions.rest =
    [⟨olderVersion.read, flags, [[0x80, 13, 10]]⟩, ⟨newestVersion.read, flags', [[72, 105]]⟩] := by
  rw [readTwoVersions, Reader.rest_ofBytes]
  exact twoVersions.savedMembers_pair rfl

lemma accepts_twoVersions (mode : ContentMode) (hb : m.base = "N.T") :
    (Mask.compile (beforeNewest.inMode mode).mask).accepts m.base = true := by
  have hmask : (Mask.compile "*.*").accepts "N.T" = true := by decide +kernel
  rw [hb]
  exact hmask

lemma unwanted_alone (mode : ContentMode) (hm : m.key = "N.T;1") :
    (beforeNewest.inMode mode).wants ([] ++ [m]) m = false := by
  have hb : m.base = "N.T" := by rw [Member.base, hm]; decide
  have hv : m.version = 1 := by rw [Member.version, hm]; decide
  have hhighest : highest ([] ++ [m]) m.base = some 1 := by
    rw [highest_snoc, hv]
    rfl
  rw [Options.wants_of_highest (accepts_twoVersions mode hb) hhighest, hv]
  rfl

lemma wanted_beforeNewest {n : Member} (mode : ContentMode) (hm : m.key = "N.T;1") (hn : n.key = "N.T;2") :
    [m, n].filter ((beforeNewest.inMode mode).wants [m, n]) = [m] := by
  have hbm : m.base = "N.T" := by rw [Member.base, hm]; decide
  have hbn : n.base = "N.T" := by rw [Member.base, hn]; decide
  have hvm : m.version = 1 := by rw [Member.version, hm]; decide
  have hvn : n.version = 2 := by rw [Member.version, hn]; decide
  have hhighest : highest [m, n] "N.T" = some 2 := by
    refine highest_eq_some.mpr ⟨⟨n, by simp, hbn, hvn⟩, fun x hx _ => ?_⟩
    rcases List.mem_pair.mp hx with rfl | rfl
    · rw [hvm]
      decide
    · exact Int.le_of_eq hvn
  have hwm : (beforeNewest.inMode mode).wants [m, n] m = true := by
    rw [Options.wants_of_highest (accepts_twoVersions mode hbm) (hbm ▸ hhighest), hvm]
    rfl
  have hwn : (beforeNewest.inMode mode).wants [m, n] n = false := by
    rw [Options.wants_of_highest (accepts_twoVersions mode hbn) (hbn ▸ hhighest), hvn]
    rfl
  rw [List.filter_cons_of_pos hwm, List.filter_cons_of_neg (by rw [hwn]; decide), List.filter_nil]

theorem older_version_is_changed :
    ¬ ∀ (i : Nat) (f b : OutputFile),
      (extracted (beforeNewest.inMode .smart) readTwoVersions ({} : MemorySink))[i]? = some f →
      (extracted (beforeNewest.inMode .binary) readTwoVersions ({} : MemorySink))[i]? = some b →
      high b.data = true → f.data = b.data := by
  intro h
  have hkeys := keys_twoVersions
  obtain ⟨flags, flags', hms⟩ := members_twoVersions
  let m : Member := ⟨olderVersion.read, flags, [[0x80, 13, 10]]⟩
  let n : Member := ⟨newestVersion.read, flags', [[72, 105]]⟩
  rw [hms] at hkeys
  have hm : m.key = "N.T;1" := (List.cons.inj hkeys).1
  have hn : n.key = "N.T;2" := (List.cons.inj (List.cons.inj hkeys).2).1
  have hd : ([m, n].map Member.key).Nodup := by
    rw [hkeys]
    decide
  have hwrites (mode : ContentMode) : (beforeNewest.inMode mode).writes [m, n] =
      [m.written (beforeNewest.inMode mode) [m, n]] := by
    have hwanted : [m, n].filter ((beforeNewest.inMode mode).wants [m, n]) = [m] := wanted_beforeNewest mode hm hn
    have hextract : (beforeNewest.inMode mode).extract = true := rfl
    rw [Options.writes, if_pos hextract, hwanted]
    rfl
  have hunseen : (beforeNewest.inMode .smart).sniffs [m, n] m.key = false := by
    have hunwanted : (beforeNewest.inMode .smart).wants ([] ++ [m]) m = false := unwanted_alone .smart hm
    have hsniffs : (beforeNewest.inMode .smart).sniffs ([] ++ m :: [n]) m.key =
        (beforeNewest.inMode .smart).betrays [] m := sniffs_distinct hd
    exact hsniffs.trans (Options.betrays_of_not_wants hunwanted)
  have hdata {mode : ContentMode} (he : mode ≠ .smart) : (m.written (beforeNewest.inMode mode) [m, n]).data =
      ({ size := 3, format := .fix, mode } : Content).output [[0x80, 13, 10]] := by
    have hsize : m.attributes.fileSize = 3 := olderVersion.fileSize_read
    have hformat : m.attributes.recordFormat = .fix := olderVersion.format_read.trans (by decide)
    rw [Member.written, Member.started, declared_distinct hd List.mem_cons_self, modeOf_explicit he,
      Option.getD_some, Member.content, hsize, hformat]
    rfl
  simp only [extracted_eq _ reliable_readTwoVersions, hms] at h
  rw [hwrites, hwrites] at h
  have hsame := h 0 _ _ rfl rfl (by rw [hdata (by decide)]; decide)
  rw [written_smart, hunseen, if_neg Bool.false_ne_true, hdata (by decide), hdata (by decide)] at hsame
  exact absurd hsame (by decide)

end SaveSet
