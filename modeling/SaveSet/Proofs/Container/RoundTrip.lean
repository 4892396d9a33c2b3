import SaveSet.Proofs.Container.Layouts
import SaveSet.Proofs.Walk.Copies

namespace SaveSet

open Content

def Member.stored (m : Member) : FileAttributes × List Bytes := (m.attributes, m.payloads)

def StoredFile.stored (f : StoredFile) : FileAttributes × List Bytes := (f.read, f.pieces)

def copied (p : FileAttributes × List Bytes) : OutputFile := ⟨p.1.filename, p.1.created, p.1.revised, p.2.flatten⟩

lemma StoredFile.copied_stored (f : StoredFile) : copied f.stored = f.output := by
  rw [copied, stored]
  dsimp only
  rw [f.filename_read, f.created_read, f.revised_read, output, content]

namespace Saying

def payloads : List Saying → List Bytes
  | .data p :: xs => p :: payloads xs
  | _ => []

def files : List Saying → List (FileAttributes × List Bytes)
  | [] => []
  | .file a :: xs => (a, payloads xs) :: files xs
  | .data _ :: xs => files xs

lemma payloads_data (ps : List Bytes) (xs : List Saying) :
    payloads (ps.map .data ++ xs) = ps ++ payloads xs := by
  induction ps with
  | nil => rfl
  | cons p ps ih => exact congrArg (p :: ·) ih

lemma files_data (ps : List Bytes) (xs : List Saying) : files (ps.map .data ++ xs) = files xs := by
  induction ps with
  | nil => rfl
  | cons p ps ih => exact ih

end Saying

lemma Say.of_cons {e : Event} {es : List Event} {xs : List Saying} (h : Say (e :: es) xs) :
    e.IsSound ∧ ∃ ys, xs = e.sayings ++ ys ∧ Say es ys := by
  refine ⟨h.sound e List.mem_cons_self, es.flatMap Event.sayings, ?_, fun f hf => ?_, rfl⟩
  · rw [← h.sayings, List.flatMap_cons]
  · exact h.sound f (List.mem_cons_of_mem _ hf)

lemma Say.payloads {es : List PlacedEvent} {xs : List Saying} (h : Say (es.map PlacedEvent.event) xs) :
    SaveSet.payloads es = Saying.payloads xs := by
  induction es generalizing xs with
  | nil => rw [← h.sayings]; rfl
  | cons e es ih =>
    rcases e with ⟨e, last⟩
    obtain ⟨hsound, ys, rfl, hys⟩ := h.of_cons
    cases e with
    | idle => exact ih hys
    | file a flags => rfl
    | data p => exact congrArg (p :: ·) (ih hys)
    | boundary => exact hsound.elim
    | badRecord w => exact hsound.elim
    | badBlock w => exact hsound.elim

lemma Say.passages {es : List PlacedEvent} {xs : List Saying} (h : Say (es.map PlacedEvent.event) xs) :
    ∃ ms : List Member, SaveSet.passages es = ms.map .member ∧
      ms.map Member.stored = Saying.files xs := by
  induction es generalizing xs with
  | nil =>
    refine ⟨[], rfl, ?_⟩
    rw [← h.sayings]
    rfl
  | cons e es ih =>
    rcases e with ⟨e, last⟩
    obtain ⟨hsound, ys, rfl, hys⟩ := h.of_cons
    obtain ⟨ms, hps, hfiles⟩ := ih hys
    cases e with
    | idle => exact ⟨ms, hps, hfiles⟩
    | file a flags =>
      refine ⟨⟨a, flags, SaveSet.payloads es⟩ :: ms, congrArg (_ :: ·) hps, ?_⟩
      rw [List.map_cons, hfiles, hys.payloads]
      rfl
    | data p => exact ⟨ms, hps, hfiles⟩
    | boundary => exact hsound.elim
    | badRecord w => exact hsound.elim
    | badBlock w => exact hsound.elim

lemma members_map (ms : List Member) : members (ms.map .member) = ms := by
  rw [members, List.filterMap_map]
  exact List.filterMap_some

namespace SaveSetImage

variable (k : SaveSetImage)

lemma payloads_sayings (fs : List StoredFile) :
    Saying.payloads (fs.flatMap fun f => .file f.read :: f.pieces.map .data) = [] := by
  cases fs with
  | nil => rfl
  | cons f fs => rfl

lemma files_sayings : Saying.files k.sayings = k.files.map StoredFile.stored := by
  rw [sayings]
  induction k.files with
  | nil => rfl
  | cons f fs ih =>
    rw [List.flatMap_cons, List.cons_append, Saying.files, Saying.payloads_data, Saying.files_data,
      payloads_sayings, List.append_nil, ih]
    rfl

lemma passages_stored {h : BlockHeader} (hg : Geometry.ofHeader h = k.geometry) :
    ∃ ms : List Member, h.passages k.bytes = ms.map .member ∧
      ms.map Member.stored = k.files.map StoredFile.stored := by
  rw [BlockHeader.passages, hg, ← k.files_sayings]
  exact k.tells.passages

lemma savedMembers_stored : (savedMembers k.bytes).map Member.stored = k.files.map StoredFile.stored := by
  obtain ⟨h, hframing, hg⟩ := k.framed
  obtain ⟨ms, hps, hstored⟩ := k.passages_stored hg
  rw [savedMembers, hframing]
  dsimp only
  rw [BlockHeader.members, hps, members_map, hstored]

lemma savedMembers_pair {f g : StoredFile} (hk : k.files = [f, g]) :
    ∃ flags flags', savedMembers k.bytes = [⟨f.read, flags, f.pieces⟩, ⟨g.read, flags', g.pieces⟩] := by
  have hstored := k.savedMembers_stored
  rw [hk] at hstored
  obtain ⟨⟨a, flags, ps⟩, ms, hms, hm, hrest⟩ := List.map_eq_cons_iff.mp hstored
  obtain ⟨⟨a', flags', ps'⟩, rfl, hn⟩ := List.map_eq_singleton_iff.mp hrest
  cases hm
  cases hn
  exact ⟨flags, flags', hms⟩

variable {k} {o : Options} {ms : List Member} {m : Member}

lemma stored_of_mem (h : ms.map Member.stored = k.files.map StoredFile.stored) (hm : m ∈ ms) :
    ∃ f ∈ k.files, f.read = m.attributes ∧ f.pieces = m.payloads := by
  have hstored : m.stored ∈ k.files.map StoredFile.stored := h ▸ List.mem_map_of_mem hm
  obtain ⟨f, hf, he⟩ := List.mem_map.mp hstored
  exact ⟨f, hf, congrArg Prod.fst he, congrArg Prod.snd he⟩

lemma keys_stored (h : ms.map Member.stored = k.files.map StoredFile.stored) :
    ms.map Member.key = k.files.map StoredFile.name := by
  have hkeys := congrArg (List.map fun p : FileAttributes × List Bytes => p.1.filename) h
  rw [List.map_map, List.map_map] at hkeys
  exact hkeys.trans (List.map_congr_left fun f _ => f.filename_read)

lemma written_stored {f : StoredFile} (hr : f.read = m.attributes) (hp : f.pieces = m.payloads)
    (hd : declared ms m.key = some m) (hv : Verbatim o.mode f.format) :
    m.written o ms = copied m.stored ∧ Session.shortfall m.key (m.ended o ms) = [] := by
  have hformat : m.attributes.recordFormat = f.format := by rw [← hr, f.format_read]
  have hsize : m.attributes.fileSize = m.payloads.flatten.length := by
    rw [← hr, f.fileSize_read, StoredFile.content, hp]
  rw [← hformat] at hv
  refine ⟨?_, (shortfall_ended hd hv).mpr (Nat.le_of_eq hsize)⟩
  have hdata : (m.written o ms).data = m.payloads.flatten := by
    rw [data_written hd hv]
    exact List.take_of_length_le (Nat.le_of_eq hsize.symm)
  rw [copied, Member.stored, ← hdata]
  rfl

variable {σ : Type} [Sink σ] [FileSink σ]

/-- However files are cut into pieces and laid out over blocks, a run that asks for all of them and
copies their content puts each out as it was, in order, and has nothing to warn of. -/
theorem files_come_back (k : SaveSetImage) (o : Options) (hx : o.extract = true) (ha : o.version = .all)
    (hm : ∀ f ∈ k.files, (Mask.compile o.mask).accepts (Name.base f.name) = true)
    (hd : (k.files.map StoredFile.name).Nodup) (hv : ∀ f ∈ k.files, Verbatim o.mode f.format)
    {r : Reader} (hr : r.Reliable) (hb : r.rest = k.bytes) (s : σ) :
    ∃ summary, (run o r s).result = .ok summary ∧ summary.extracted = k.files.length ∧ summary.warnings = [] ∧
      FileSink.files (run o r s).sink = FileSink.files s ++ k.files.map StoredFile.output := by
  obtain ⟨h, hframing, hg⟩ := k.framed
  obtain ⟨ms, hps, hstored⟩ := k.passages_stored hg
  obtain ⟨hresult, hfiles⟩ := run_framed o hr s (hb ▸ hframing)
  rw [hb] at hresult hfiles
  rw [BlockHeader.members, hps, members_map] at hfiles
  have hnodup : (ms.map Member.key).Nodup := keys_stored hstored ▸ hd
  have hwants : ∀ m ∈ ms, o.wants ms m = true := by
    intro m hms
    obtain ⟨f, hf, hread, -⟩ := stored_of_mem hstored hms
    have hkey : m.key = f.name := by rw [Member.key, ← hread, f.filename_read]
    rw [Options.wants, Member.base, hkey, hm f hf, ha]
    rfl
  have hwritten : ∀ m ∈ ms, m.written o ms = copied m.stored ∧ Session.shortfall m.key (m.ended o ms) = [] := by
    intro m hms
    obtain ⟨f, hf, hread, hpieces⟩ := stored_of_mem hstored hms
    exact written_stored hread hpieces (declared_distinct hnodup hms) (hv f hf)
  have hwrites : o.writes ms = k.files.map StoredFile.output := by
    rw [Options.writes, if_pos hx, List.filter_eq_self.mpr hwants,
      List.map_congr_left fun m hms => (hwritten m hms).1]
    have hmap := congrArg (List.map copied) hstored
    rw [List.map_map, List.map_map] at hmap
    exact hmap.trans (List.map_congr_left fun f _ => f.copied_stored)
  refine ⟨_, hresult, ?_, ?_, ?_⟩
  · rw [Options.summary, hps, members_map, hwrites, List.length_map]
  · rw [Options.summary, hps, members_map]
    refine List.flatMap_eq_nil_iff.mpr fun p hp => ?_
    obtain ⟨m, hms, rfl⟩ := List.mem_map.mp hp
    rw [Passage.warned, (hwritten m hms).2, ite_self]
  · rw [hfiles, hwrites]

def firstFile : StoredFile := .plain [65, 46, 66, 59, 49] 1 [[1], [2, 0x80]] (by decide) (by decide)

def secondFile : StoredFile := .plain [67, 46, 68, 59, 49] 0 [] (by decide) (by decide)

def twoBlocks : SaveSetImage where
  geometry := ⟨400, 256⟩
  files := [firstFile, secondFile]
  first := .plain ⟨400, 256⟩
    [(StoredItem.file firstFile).record (by decide) (by decide), (StoredItem.data [1]).record (by decide) (by decide)]
    (.blank (List.replicate 66 0)) (by decide) (by decide) (by decide)
  later := [.plain ⟨400, 256⟩
    [(StoredItem.null [9]).record (by decide) (by decide), (StoredItem.data [2, 0x80]).record (by decide) (by decide),
      (StoredItem.file secondFile).record (by decide) (by decide)]
    (.volume ⟨2, List.replicate 12 1, [8], by decide, rfl, by decide, by decide⟩ rfl (List.replicate 47 5))
    (by decide) (by decide) (by decide)]
  headerSize_ge := by decide
  blockSize_le := by decide
  first_headerSize := Geometry.headerSize_header (by decide)
  first_blockSize := Geometry.blockSize_header (by decide)
  holds := rfl

def copyAll : Options := { mode := .binary, version := .all }

theorem two_files_come_back :
    ∃ summary, (run copyAll (.ofBytes twoBlocks.bytes 0 .prompt) ({} : MemorySink)).result = .ok summary ∧
      summary.extracted = 2 ∧ summary.warnings = [] ∧
      FileSink.files (run copyAll (.ofBytes twoBlocks.bytes 0 .prompt) ({} : MemorySink)).sink =
        [⟨"A.B;1", ⟨0⟩, ⟨0⟩, [1, 2, 0x80]⟩, ⟨"C.D;1", ⟨0⟩, ⟨0⟩, []⟩] := by
  have hnames : twoBlocks.files.map StoredFile.name = ["A.B;1", "C.D;1"] := by decide
  have hmask : ∀ n ∈ twoBlocks.files.map StoredFile.name, (Mask.compile "*.*").accepts (Name.base n) = true := by
    rw [hnames]
    decide +kernel
  have hformats : ∀ f ∈ twoBlocks.files, Verbatim .binary f.format :=
    List.forall_mem_cons.mpr
      ⟨Or.inr (Or.inr ⟨rfl, by decide⟩), List.forall_mem_singleton.mpr (Or.inr (Or.inl (by decide)))⟩
  have houtput : twoBlocks.files.map StoredFile.output =
      [⟨"A.B;1", ⟨0⟩, ⟨0⟩, [1, 2, 0x80]⟩, ⟨"C.D;1", ⟨0⟩, ⟨0⟩, []⟩] := by decide
  rw [← houtput]
  exact files_come_back twoBlocks copyAll rfl rfl
    (fun f hf => hmask f.name (List.mem_map_of_mem hf)) (by rw [hnames]; decide) hformats
    (Reader.reliable_ofBytes _ _) (Reader.rest_ofBytes _ _) ({} : MemorySink)

end SaveSetImage

end SaveSet
