import SaveSet.Proofs.Walk.Extraction
import SaveSet.Run

/-! A whole run. With a reader of which no read fails and a sink that takes everything, what comes out is
a function of the bytes and of the options. -/

namespace SaveSet

lemma Outcome.andThen_eq_ok {σ : Type} {o : Outcome σ} {step : σ → Outcome σ} {t : σ} :
    o.andThen step = .ok t ↔ ∃ s, o = .ok s ∧ step s = .ok t := by
  rcases o with ⟨s, _ | f⟩
  · constructor
    · intro h
      exact ⟨s, rfl, h⟩
    · rintro ⟨u, hu, h⟩
      cases hu
      exact h
  · constructor
    · intro h
      cases h
    · rintro ⟨u, hu, -⟩
      cases hu

def framing (bytes : Bytes) : Except RunError BlockHeader :=
  match BlockHeader.decode (bytes.take BlockHeader.layout.length) with
  | .error s => .error (.truncated s)
  | .ok h => if (Geometry.ofHeader h).isFramed then .ok h else .error (.geometry (.ofHeader h))

def BlockHeader.passages (h : BlockHeader) (bytes : Bytes) : List Passage :=
  SaveSet.passages ((Geometry.ofHeader h).events bytes)

def BlockHeader.members (h : BlockHeader) (bytes : Bytes) : List Member := SaveSet.members (h.passages bytes)

def Options.summary (o : Options) (h : BlockHeader) (ps : List Passage) : Summary where
  passes := (passesOf o).length
  name := h.name
  blockSize := h.blockSize
  files := ps.flatMap (Passage.listed o (members ps))
  extracted := (o.writes (members ps)).length
  warnings := ps.flatMap (Passage.warned o (members ps))

section

variable {σ : Type} [Sink σ] {o : Options} {g : Geometry} {origin : Nat} {p q : PassState σ}

lemma passes_runPass {pass : Pass} (h : runPass o g origin pass p = .ok q) : q.passes = p.passes + 1 := by
  obtain ⟨t, ht, hq⟩ := Outcome.andThen_eq_ok.mp h
  have hkept : (traverse (.ofOptions o pass) g origin p).state.passes = p.passes := rfl
  rw [ht] at hkept
  cases hq
  exact congrArg (· + 1) hkept

lemma passes_each {ps : List Pass} (h : Outcome.each (runPass o g origin) ps p = .ok q) :
    q.passes = p.passes + ps.length := by
  induction ps generalizing p with
  | nil =>
    cases h
    rfl
  | cons pass ps ih =>
    rw [Outcome.each_cons] at h
    obtain ⟨t, ht, hq⟩ := Outcome.andThen_eq_ok.mp h
    rw [ih hq, passes_runPass ht, List.length_cons, Nat.add_right_comm, Nat.add_assoc]

lemma passes_runPasses {r : Reader} {s : σ} (h : runPasses o g origin r s = .ok q) :
    q.passes = (passesOf o).length := (passes_each h).trans (Nat.zero_add _)

/-- A run that ends well has made all of its passes, whatever it reads and writes. -/
lemma passes_run {r : Reader} {s : σ} {summary : Summary} (h : (run o r s).result = .ok summary) :
    summary.passes = (passesOf o).length := by
  rcases run_cases o r s with ⟨e, r', hrun⟩ | ⟨g, probed, -, hpasses⟩
  · rw [hrun] at h
    cases h
  · obtain ⟨q, hq, hcount⟩ := hpasses summary h
    exact hcount.trans (passes_runPasses hq)

end

variable {σ : Type} [Sink σ] [FileSink σ]

lemma traverse_ok (rules : PassRules) {g : Geometry} {origin : Nat} {p : PassState σ} {t : Session σ}
    (hr : p.reader.Reliable)
    (ht : Outcome.each (Session.passage rules) (passages (g.events (p.reader.moveTo origin).rest))
      { catalog := p.catalog.reset, sink := p.sink } = .ok t) :
    ∃ r, traverse rules g origin p = .ok ⟨t.catalog, t.sink, r, t.report, p.passes⟩ ∧ r.Reliable ∧
      r.data = p.reader.data := by
  let start : Session σ := { catalog := p.catalog.reset, sink := p.sink }
  obtain ⟨r, hwalk, hlater⟩ := walkBlocks_ready FileSink.overwritten_none rules g (hr.ready.moveTo origin) start
  rw [← Session.pass_passages rules _ (s := start) rfl] at ht
  obtain ⟨u, hu, hclose⟩ := Outcome.andThen_eq_ok.mp ht
  refine ⟨r, ?_, hlater.reliable (hr.moveTo origin), hlater.data⟩
  rw [traverse, hwalk, hu]
  dsimp only [Outcome.ok]
  rw [hclose]
  rfl

lemma scan_runPass (o : Options) (g : Geometry) {r : Reader} (hr : r.Reliable) (origin : Nat) (s : σ) :
    ∃ p, runPass o g origin .scan ⟨.ofOptions o, s, r, {}, 0⟩ = .ok p ∧ p.sink = s ∧ p.reader.Reliable ∧
      p.reader.data = r.data ∧ Scanned o (members (passages (g.events (r.moveTo origin).rest))) p.catalog := by
  have hstart : Scanned o [] (Catalog.ofOptions o).reset :=
    ⟨Catalog.knows_ofOptions o, (Catalog.shows_ofOptions o _).reset fun x => rfl⟩
  have hpass : (PassRules.ofOptions o .scan).pass = .scan := rfl
  obtain ⟨t, ht, hsink, -, hc⟩ := Session.scan_passages (s := { catalog := (Catalog.ofOptions o).reset, sink := s })
    hpass rfl (passages (g.events (r.moveTo origin).rest)) hstart rfl
  obtain ⟨r', htraverse, hrel, hdata⟩ := traverse_ok (.ofOptions o .scan) (p := ⟨.ofOptions o, s, r, {}, 0⟩) hr ht
  refine ⟨⟨t.catalog, t.sink, r', t.report, 1⟩, ?_, hsink, hrel, hdata, hc⟩
  rw [runPass, htraverse, Outcome.andThen_ok]

lemma extract_runPass {o : Options} {g : Geometry} {p : PassState σ} {origin : Nat} {prior : List Member}
    {ps : List Passage} (hps : passages (g.events (p.reader.moveTo origin).rest) = ps)
    (hr : p.reader.Reliable) (hprior : Prepared o prior (members ps))
    (hc : Extracting o prior (members ps) [] p.catalog.reset) :
    ∃ q, runPass o g origin .extract p = .ok q ∧
      FileSink.files q.sink = FileSink.files p.sink ++ o.writes (members ps) ∧
      q.report.files.toList = ps.flatMap (Passage.listed o (members ps)) ∧
      q.report.extracted = (o.writes (members ps)).length ∧
      q.report.warnings.toList = ps.flatMap (Passage.warned o (members ps)) := by
  obtain ⟨t, ht, hgains⟩ := Session.extract_passages (s := { catalog := p.catalog.reset, sink := p.sink })
    hprior ps rfl hc rfl
  obtain ⟨r, htraverse, -, -⟩ := traverse_ok (.ofOptions o .extract) hr (hps ▸ ht)
  rw [flatMap_written] at hgains
  refine ⟨⟨t.catalog, t.sink, r, t.report, p.passes + 1⟩, ?_, hgains.files, ?_, ?_, ?_⟩
  · rw [runPass, htraverse, Outcome.andThen_ok]
  · exact hgains.listed
  · exact hgains.extracted.trans (Nat.zero_add _)
  · exact hgains.warnings

lemma runPasses_reliable (o : Options) (g : Geometry) {r : Reader} (hr : r.Reliable) (origin : Nat) (s : σ)
    {ps : List Passage} (hps : passages (g.events (r.moveTo origin).rest) = ps) :
    ∃ q, runPasses o g origin r s = .ok q ∧
      FileSink.files q.sink = FileSink.files s ++ o.writes (members ps) ∧
      q.report.files.toList = ps.flatMap (Passage.listed o (members ps)) ∧
      q.report.extracted = (o.writes (members ps)).length ∧
      q.report.warnings.toList = ps.flatMap (Passage.warned o (members ps)) := by
  rw [runPasses, passesOf]
  cases hscan : o.needsScan with
  | true =>
    obtain ⟨p, hp, hsink, hrel, hdata, hc⟩ := scan_runPass o g hr origin s
    rw [hps] at hc
    have hps' : passages (g.events (p.reader.moveTo origin).rest) = ps := by
      rw [← hps, Reader.rest, Reader.rest]
      change passages (g.events (p.reader.data.toList.drop origin)) = _
      rw [hdata]
      rfl
    obtain ⟨q, hq, hgains⟩ := extract_runPass hps' hrel (prepared_scanned o (members ps)) hc.extracting
    rw [hsink] at hgains
    refine ⟨q, ?_, hgains⟩
    rw [if_pos rfl, Outcome.each_cons, hp, Outcome.andThen_ok, Outcome.each_cons, hq]
    rfl
  | false =>
    have hextracting : Extracting o [] (members ps) [] (Catalog.ofOptions o).reset :=
      ⟨Catalog.knows_ofOptions o, (Catalog.shows_ofOptions o _).reset fun x => rfl⟩
    obtain ⟨q, hq, hgains⟩ := extract_runPass (p := ⟨.ofOptions o, s, r, {}, 0⟩) hps hr
      (prepared_unscanned hscan (members ps)) hextracting
    refine ⟨q, ?_, hgains⟩
    rw [if_neg Bool.false_ne_true, Outcome.each_cons, hq]
    rfl

omit [FileSink σ] in
lemma run_refused (o : Options) {r : Reader} (hr : r.Reliable) (s : σ) {e : RunError}
    (he : framing r.rest = .error e) : (run o r s).result = .error e ∧ (run o r s).sink = s := by
  obtain ⟨r', hread, -, -⟩ := Reader.read_ready hr.ready BlockHeader.layout.length
  rw [framing] at he
  rw [run, hread]
  dsimp only
  cases hh : BlockHeader.decode (r.rest.take BlockHeader.layout.length) with
  | error short =>
    rw [hh] at he
    cases he
    exact ⟨rfl, rfl⟩
  | ok h =>
    rw [hh] at he
    dsimp only at he ⊢
    cases hf : (Geometry.ofHeader h).isFramed with
    | true =>
      rw [hf, if_pos rfl] at he
      cases he
    | false =>
      rw [hf, if_neg Bool.false_ne_true] at he
      cases he
      exact ⟨rfl, rfl⟩

lemma run_framed (o : Options) {r : Reader} (hr : r.Reliable) (s : σ) {h : BlockHeader}
    (hh : framing r.rest = .ok h) :
    (run o r s).result = .ok (o.summary h (h.passages r.rest)) ∧
      FileSink.files (run o r s).sink = FileSink.files s ++ o.writes (h.members r.rest) := by
  obtain ⟨r', hread, hlater, -⟩ := Reader.read_ready hr.ready BlockHeader.layout.length
  have hps : passages ((Geometry.ofHeader h).events (r'.moveTo r.position).rest) = h.passages r.rest := by
    rw [BlockHeader.passages, Reader.rest, Reader.rest]
    change passages ((Geometry.ofHeader h).events (r'.data.toList.drop r.position)) = _
    rw [hlater.data]
  obtain ⟨q, hq, hfiles, hlisted, hextracted, hwarned⟩ :=
    runPasses_reliable o (Geometry.ofHeader h) (hlater.reliable hr) r.position s hps
  rw [framing] at hh
  rw [run, hread]
  dsimp only
  cases hd : BlockHeader.decode (r.rest.take BlockHeader.layout.length) with
  | error short =>
    rw [hd] at hh
    cases hh
  | ok h' =>
    rw [hd] at hh
    dsimp only at hh ⊢
    cases hf : (Geometry.ofHeader h').isFramed with
    | false =>
      rw [hf, if_neg Bool.false_ne_true] at hh
      cases hh
    | true =>
      rw [hf, if_pos rfl] at hh
      cases hh
      rw [Bool.not_true, if_neg Bool.false_ne_true, hq]
      refine ⟨?_, hfiles⟩
      dsimp only [Outcome.ok]
      rw [passes_runPasses hq, hlisted, hextracted, hwarned]
      rfl

lemma run_ok {o : Options} {r : Reader} (hr : r.Reliable) {s : σ} {summary : Summary}
    (h : (run o r s).result = .ok summary) :
    ∃ header, framing r.rest = .ok header ∧ summary = o.summary header (header.passages r.rest) := by
  cases hf : framing r.rest with
  | error e =>
    rw [(run_refused o hr s hf).1] at h
    cases h
  | ok header =>
    rw [(run_framed o hr s hf).1] at h
    exact ⟨header, rfl, (Except.ok.inj h).symm⟩

def savedMembers (bytes : Bytes) : List Member :=
  match framing bytes with
  | .ok h => h.members bytes
  | .error _ => []

lemma savedMembers_framed {bytes : Bytes} {h : BlockHeader} (hf : framing bytes = .ok h) :
    savedMembers bytes = h.members bytes := by rw [savedMembers, hf]

def extracted (o : Options) (r : Reader) (s : σ) : List OutputFile :=
  (FileSink.files (run o r s).sink).drop (FileSink.files s).length

lemma extracted_eq (o : Options) {r : Reader} (hr : r.Reliable) (s : σ) :
    extracted o r s = o.writes (savedMembers r.rest) := by
  rw [extracted, savedMembers]
  cases hf : framing r.rest with
  | ok h => rw [(run_framed o hr s hf).2, List.drop_left]
  | error e =>
    rw [(run_refused o hr s hf).2, List.drop_length, Options.writes]
    exact (ite_self _).symm

end SaveSet
