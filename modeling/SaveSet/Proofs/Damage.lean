import SaveSet.Proofs.Selection
import SaveSet.Proofs.Walk.Regions

/-! Damage stays where it is. If no specification occurs twice and versions are not counted from the newest one, a file
is written from its own record and its own data alone. -/

namespace SaveSet

/-- Two save sets with blocks of one shape that agree outside the blocks from number `a` up to number `b`. -/
structure AgreeOutside (g : Geometry) (a b : Nat) (x y : Bytes) : Prop where
  length_eq : y.length = x.length
  declared_eq : Geometry.declaredBy y = Geometry.declaredBy x
  before : y.take (a * g.blockSize) = x.take (a * g.blockSize)
  behind : y.drop (b * g.blockSize) = x.drop (b * g.blockSize)

variable {o : Options} {ms : List Member} {m : Member}

lemma isRelative_of_absolute (hv : o.version = .all ∨ ∃ v, o.version = .exact v) :
    o.version.isRelative = false := by
  rcases hv with hv | ⟨v, hv⟩
  · rw [hv]
    rfl
  · rw [hv]
    rfl

lemma declared_singleton (m : Member) : declared [m] m.key = some m :=
  declared_distinct (by simp) (List.mem_singleton_self m)

lemma modeOf_alone (hv : o.version.isRelative = false) (hd : (ms.map Member.key).Nodup) (hm : m ∈ ms) :
    o.modeOf ms m.key = o.modeOf [m] m.key := by
  obtain ⟨before, later, rfl⟩ := List.append_of_mem hm
  have hlast : m ∈ before ++ [m] := List.mem_append_right _ (List.mem_singleton_self m)
  have hbefore : ((before ++ [m]).map Member.key).Nodup := hd.sublist (List.Sublist.map _ (by simp))
  have hbetrays : o.betrays before m = o.betrays [] m := by
    rw [Options.betrays, Options.betrays, Options.wants_absolute hv _ ([] ++ [m]), declared_distinct hbefore hlast,
      List.nil_append, declared_singleton]
  have halone : o.sniffs ([] ++ [m]) m.key = o.betrays [] m := sniffs_distinct (by simp)
  rw [Options.modeOf, Options.scannedMode, sniffs_distinct hd, hbetrays, ← halone]
  rfl

lemma written_alone (hv : o.version.isRelative = false) (hd : (ms.map Member.key).Nodup) (hm : m ∈ ms) :
    m.written o ms = m.written o [m] := by
  rw [Member.written, Member.started, declared_distinct hd hm, modeOf_alone hv hd hm, Member.written, Member.started,
    declared_singleton]

lemma writes_singleton (hx : o.extract = true) (m : Member) :
    o.writes [m] = if o.wants [m] m then [m.written o [m]] else [] := by
  rw [Options.writes, if_pos hx, List.filter_cons, List.filter_nil]
  split <;> rfl

lemma flatMap_alone (hx : o.extract = true) (ms : List Member) :
    (ms.flatMap fun m => o.writes [m]) = (ms.filter fun m => o.wants [m] m).map fun m => m.written o [m] := by
  induction ms with
  | nil => rfl
  | cons m ms ih =>
    rw [List.flatMap_cons, writes_singleton hx, List.filter_cons, ih]
    split <;> rfl

lemma writes_alone (hv : o.version.isRelative = false) (hd : (ms.map Member.key).Nodup) :
    o.writes ms = ms.flatMap fun m => o.writes [m] := by
  cases hx : o.extract with
  | false => simp [Options.writes, hx]
  | true =>
    have hwants : ms.filter (o.wants ms) = ms.filter fun m => o.wants [m] m := by
      apply List.filter_congr
      intro m _
      exact o.wants_absolute hv ms [m] m
    rw [flatMap_alone hx, ← hwants, Options.writes, if_pos hx]
    apply List.map_congr_left
    intro m hm
    exact written_alone hv hd (List.mem_filter.mp hm).1

def Options.takenNames (o : Options) (ls : List Listed) (ms : List Member) : List String :=
  (ms.filter fun m => o.Takes ls m.listed).map Member.key

lemma names_alone (hx : o.extract = true) (hv : o.version.isRelative = false) {known : List Member}
    (hms : ms ⊆ known) :
    (ms.flatMap fun m => o.writes [m]).map OutputFile.name = o.takenNames (known.map Member.listed) ms := by
  rw [flatMap_alone hx, List.map_map, Options.takenNames]
  have htakes : (ms.filter fun m => o.wants [m] m) =
      ms.filter fun m => o.Takes (known.map Member.listed) m.listed := by
    apply List.filter_congr
    intro m hm
    rw [Bool.eq_iff_iff, decide_eq_true_iff, takes_iff (hms hm), o.wants_absolute hv known [m] m]
  rw [htakes]
  rfl

lemma savedMembers_between {x : Bytes} {g : Geometry} (hg : ∃ h, framing x = .ok h ∧ Geometry.ofHeader h = g)
    {a b : Nat} (hab : a ≤ b) :
    ∃ others, savedMembers x = g.endedBefore a x ++ (others ++ g.startedFrom b x) := by
  obtain ⟨h, hf, rfl⟩ := hg
  obtain ⟨between, hevents⟩ := (Geometry.ofHeader h).events_between hab x
  obtain ⟨cut, hcut⟩ := members_append ((Geometry.ofHeader h).eventsBefore a x)
    (between ++ (Geometry.ofHeader h).eventsFrom b x)
  obtain ⟨cut', hcut'⟩ := members_append between ((Geometry.ofHeader h).eventsFrom b x)
  refine ⟨cut.toList ++ (closedMembers between ++ cut'.toList), ?_⟩
  rw [savedMembers_framed hf, BlockHeader.members, BlockHeader.passages, hevents, hcut, hcut']
  simp only [List.append_assoc]
  rfl

variable {σ : Type} [Sink σ] [FileSink σ]

lemma run_between (hv : o.version.isRelative = false) {r : Reader} (hr : r.Reliable) {g : Geometry}
    (hg : ∃ h, framing r.rest = .ok h ∧ Geometry.ofHeader h = g) {a b : Nat} (hab : a ≤ b)
    (hd : ((fileRecords r.rest).map Listed.spec).Nodup) (s : σ) :
    (∃ summary, (run o r s).result = .ok summary) ∧ ∃ others, FileSink.files (run o r s).sink =
      FileSink.files s ++ (((g.endedBefore a r.rest).flatMap fun m => o.writes [m]) ++
        (others ++ ((g.startedFrom b r.rest).flatMap fun m => o.writes [m]))) := by
  obtain ⟨others, hothers⟩ := savedMembers_between hg hab
  obtain ⟨h, hf, -⟩ := hg
  obtain ⟨hresult, hfiles⟩ := run_framed o hr s hf
  rw [← keys_savedMembers] at hd
  refine ⟨⟨_, hresult⟩, others.flatMap fun m => o.writes [m], ?_⟩
  rw [hfiles, ← savedMembers_framed hf, writes_alone hv hd, hothers, List.flatMap_append, List.flatMap_append]

/-- Whatever stands in some blocks of a save set, the files that end before these and the files that start behind them
are written in the same way. -/
theorem damage_is_contained (o : Options) (hv : o.version = .all ∨ ∃ v, o.version = .exact v) {r r' : Reader}
    (hr : r.Reliable) (hr' : r'.Reliable) {g : Geometry}
    (hg : ∃ h, framing r.rest = .ok h ∧ Geometry.ofHeader h = g) {a b : Nat} (hab : a ≤ b)
    (hagree : AgreeOutside g a b r.rest r'.rest) (hd : ((fileRecords r.rest).map Listed.spec).Nodup)
    (hd' : ((fileRecords r'.rest).map Listed.spec).Nodup) (s s' : σ) :
    ∃ summary summary' before damaged damaged' behind,
      (run o r s).result = .ok summary ∧ (run o r' s').result = .ok summary' ∧
      FileSink.files (run o r s).sink = FileSink.files s ++ (before ++ (damaged ++ behind)) ∧
      FileSink.files (run o r' s').sink = FileSink.files s' ++ (before ++ (damaged' ++ behind)) ∧
      (o.extract = true →
        before.map OutputFile.name = o.takenNames (fileRecords r.rest) (g.endedBefore a r.rest) ∧
        behind.map OutputFile.name = o.takenNames (fileRecords r.rest) (g.startedFrom b r.rest)) := by
  have hv := isRelative_of_absolute hv
  have hg' : ∃ h, framing r'.rest = .ok h ∧ Geometry.ofHeader h = g := by
    rw [framing_ok_iff] at hg ⊢
    rwa [hagree.length_eq, hagree.declared_eq]
  have hbefore : g.endedBefore a r'.rest = g.endedBefore a r.rest := by
    rw [Geometry.endedBefore, g.eventsBefore_congr hagree.length_eq hagree.before, Geometry.endedBefore]
  have hbehind : g.startedFrom b r'.rest = g.startedFrom b r.rest := by
    rw [Geometry.startedFrom, g.eventsFrom_eq, hagree.behind, ← g.eventsFrom_eq, Geometry.startedFrom]
  obtain ⟨⟨summary, hresult⟩, damaged, hfiles⟩ := run_between hv hr hg hab hd s
  obtain ⟨⟨summary', hresult'⟩, damaged', hfiles'⟩ := run_between hv hr' hg' hab hd' s'
  rw [hbefore, hbehind] at hfiles'
  refine ⟨summary, summary', _, damaged, damaged', _, hresult, hresult', hfiles, hfiles', ?_⟩
  intro hx
  obtain ⟨others, hothers⟩ := savedMembers_between hg hab
  rw [fileRecords_eq]
  refine ⟨names_alone hx hv ?_, names_alone hx hv ?_⟩
  · rw [hothers]
    exact List.subset_append_left _ _
  · rw [hothers]
    intro m hm
    exact List.mem_append_right _ (List.mem_append_right _ hm)

def letterFile (letter byte : UInt8) : StoredFile :=
  .plain [letter, 46, 84, 59, 49] 1 [[byte]] (by exact (by decide : 5 < 65536))
    (by exact (by decide : 1 / 512 + 1 < 4294967296))

def letterRecords (letter byte : UInt8) : List StoredRecord :=
  [(StoredItem.file (letterFile letter byte)).record (by exact (by decide : 0 < 29))
      (by exact (by decide : 29 < 65536)),
    (StoredItem.data [byte]).record (by exact (by decide : 0 < 1)) (by exact (by decide : 1 < 65536))]

def letterShape : Geometry := ⟨380, 256⟩

def twoLetters : BlockImage letterShape :=
  .plain _ (letterRecords 65 1 ++ letterRecords 66 0x82) .full (by decide) (by decide) (by decide +kernel)

def oneLetter (letter byte : UInt8) : BlockImage letterShape :=
  .plain _ (letterRecords letter byte) (.blank (List.replicate 46 0)) (by decide) (by decide) rfl

def letters (middle : Bytes) : Bytes := twoLetters.encode ++ (middle ++ (oneLetter 68 4).encode)

def readLetters : Reader := .ofBytes (letters (oneLetter 67 3).encode) 0 .prompt

def readDamaged : Reader := .ofBytes (letters (List.replicate 256 0 ++ List.replicate 124 0x55)) 0 .prompt

lemma reliable_readLetters : readLetters.Reliable := Reader.reliable_ofBytes _ _

lemma reliable_readDamaged : readDamaged.Reliable := Reader.reliable_ofBytes _ _

lemma framed_letters : ∃ h, framing readLetters.rest = .ok h ∧ Geometry.ofHeader h = letterShape :=
  framing_ok_iff.mpr ⟨by decide +kernel, by decide +kernel, by decide +kernel⟩

lemma agree_letters : AgreeOutside letterShape 1 2 readLetters.rest readDamaged.rest where
  length_eq := by decide +kernel
  declared_eq := by decide +kernel
  before := by decide +kernel
  behind := by decide +kernel

theorem lost_block_is_contained :
    (fileRecords readLetters.rest).map Listed.spec = ["A.T;1", "B.T;1", "C.T;1", "D.T;1"] ∧
      (fileRecords readDamaged.rest).map Listed.spec = ["A.T;1", "B.T;1", "D.T;1"] ∧
      ∃ summary summary' before damaged damaged' behind,
        (run allVersions readLetters ({} : MemorySink)).result = .ok summary ∧
        (run allVersions readDamaged ({} : MemorySink)).result = .ok summary' ∧
        FileSink.files (run allVersions readLetters ({} : MemorySink)).sink =
          FileSink.files ({} : MemorySink) ++ (before ++ (damaged ++ behind)) ∧
        FileSink.files (run allVersions readDamaged ({} : MemorySink)).sink =
          FileSink.files ({} : MemorySink) ++ (before ++ (damaged' ++ behind)) ∧
        before.map OutputFile.name = ["A.T;1"] ∧ behind.map OutputFile.name = ["D.T;1"] := by
  have hspecs : (fileRecords readLetters.rest).map Listed.spec = ["A.T;1", "B.T;1", "C.T;1", "D.T;1"] := by
    decide +kernel
  have hspecs' : (fileRecords readDamaged.rest).map Listed.spec = ["A.T;1", "B.T;1", "D.T;1"] := by
    decide +kernel
  have hbefore : allVersions.takenNames (fileRecords readLetters.rest) (letterShape.endedBefore 1 readLetters.rest) =
      ["A.T;1"] := by decide +kernel
  have hbehind : allVersions.takenNames (fileRecords readLetters.rest) (letterShape.startedFrom 2 readLetters.rest) =
      ["D.T;1"] := by decide +kernel
  obtain ⟨summary, summary', before, damaged, damaged', behind, hresult, hresult', hfiles, hfiles', hnames⟩ :=
    damage_is_contained allVersions (Or.inl rfl) reliable_readLetters reliable_readDamaged framed_letters (by decide)
      agree_letters (by rw [hspecs]; decide) (by rw [hspecs']; decide) ({} : MemorySink) ({} : MemorySink)
  obtain ⟨hnames, hnames'⟩ := hnames rfl
  exact ⟨hspecs, hspecs', summary, summary', before, damaged, damaged', behind, hresult, hresult', hfiles, hfiles',
    hnames.trans hbefore, hnames'.trans hbehind⟩

end SaveSet
