import SaveSet.Proofs.Reports

/-! A run sees nothing of its reader but the bytes from where it stands, whatever stands before them and however its
reads are cut or interrupted. -/

namespace SaveSet

variable {σ τ α : Type}

structure Outcome.Beside (R : σ → τ → Prop) (o : Outcome σ) (p : Outcome τ) : Prop where
  fault : o.fault = p.fault
  state : R o.state p.state

lemma Outcome.Beside.andThen {R : σ → τ → Prop} {o : Outcome σ} {p : Outcome τ} {step : σ → Outcome σ}
    {step' : τ → Outcome τ} (ho : Beside R o p) (h : ∀ s t, R s t → Beside R (step s) (step' t)) :
    Beside R (o.andThen step) (p.andThen step') := by
  obtain ⟨hfault, hstate⟩ := ho
  rcases o with ⟨s, _ | f⟩
  · rcases p with ⟨t, _ | g⟩
    · exact h s t hstate
    · cases hfault
  · rcases p with ⟨t, _ | g⟩
    · cases hfault
    · exact ⟨hfault, hstate⟩

lemma Outcome.Beside.each {R : σ → τ → Prop} {step : α → σ → Outcome σ} {step' : α → τ → Outcome τ}
    (h : ∀ x s t, R s t → Beside R (step x s) (step' x t)) (xs : List α) {s : σ} {t : τ} (hst : R s t) :
    Beside R (each step xs s) (each step' xs t) := by
  induction xs generalizing s t with
  | nil => exact ⟨rfl, hst⟩
  | cons x xs ih =>
    rw [each_cons, each_cons]
    apply (h x s t hst).andThen
    intro u v huv
    exact ih huv

structure PassState.Matches (a b : Nat) (p q : PassState σ) : Prop where
  catalog : p.catalog = q.catalog
  sink : p.sink = q.sink
  report : p.report = q.report
  passes : p.passes = q.passes
  ready : p.reader.Ready
  ready' : q.reader.Ready
  rest : (p.reader.moveTo a).rest = (q.reader.moveTo b).rest

lemma Reader.Later.rest_moveTo {r s : Reader} (h : r.Later s) (position : Nat) :
    (s.moveTo position).rest = (r.moveTo position).rest := by
  change s.data.toList.drop position = r.data.toList.drop position
  rw [h.data]

variable [Sink σ]

def Session.traversed (rules : PassRules) (es : List PlacedEvent) (s : Session σ) : Outcome (Session σ) :=
  let walked := Outcome.each (Session.step rules) es s
  let closed := walked.state.close
  ⟨closed.state, walked.fault <|> closed.fault⟩

variable (hq : ∀ s : σ, Sink.overwritten s = none)

include hq

lemma traverse_ready (rules : PassRules) (g : Geometry) (origin : Nat) {p : PassState σ} (hr : p.reader.Ready) :
    ∃ r, p.reader.Later r ∧ traverse rules g origin p =
      (Session.traversed rules (g.events (p.reader.moveTo origin).rest)
        { catalog := p.catalog.reset, sink := p.sink }).map fun t => ⟨t.catalog, t.sink, r, t.report, p.passes⟩ := by
  obtain ⟨r, hwalk, hlater⟩ :=
    walkBlocks_ready hq rules g (hr.moveTo origin) { catalog := p.catalog.reset, sink := p.sink }
  refine ⟨r, ⟨hlater.ready, hlater.data, hlater.schedule⟩, ?_⟩
  rw [traverse, hwalk]
  rfl

lemma PassState.Matches.traverse {a b : Nat} {p q : PassState σ} (h : Matches a b p q) (rules : PassRules)
    (g : Geometry) : Outcome.Beside (Matches a b) (traverse rules g a p) (traverse rules g b q) := by
  obtain ⟨r, hlater, htraverse⟩ := traverse_ready hq rules g a h.ready
  obtain ⟨r', hlater', htraverse'⟩ := traverse_ready hq rules g b h.ready'
  rw [htraverse, htraverse', h.catalog, h.sink, h.rest]
  exact ⟨rfl, rfl, rfl, rfl, h.passes, hlater.ready, hlater'.ready,
    (hlater.rest_moveTo a).trans (h.rest.trans (hlater'.rest_moveTo b).symm)⟩

lemma PassState.Matches.runPass {a b : Nat} {p q : PassState σ} (h : Matches a b p q) (o : Options) (g : Geometry)
    (pass : Pass) : Outcome.Beside (Matches a b) (runPass o g a pass p) (runPass o g b pass q) := by
  apply (h.traverse hq (.ofOptions o pass) g).andThen
  intro p' q' h'
  exact ⟨rfl, { h' with passes := congrArg (· + 1) h'.passes }⟩

lemma runPasses_matches (o : Options) (g : Geometry) {a b : Nat} {r r' : Reader} (hr : r.Ready) (hr' : r'.Ready)
    (h : (r.moveTo a).rest = (r'.moveTo b).rest) (s : σ) :
    Outcome.Beside (PassState.Matches a b) (runPasses o g a r s) (runPasses o g b r' s) :=
  .each (fun pass _ _ hm => hm.runPass hq o g pass) (passesOf o) ⟨rfl, rfl, rfl, rfl, hr, hr', h⟩

lemma run_matches (o : Options) {r r' : Reader} (hr : r.Ready) (hr' : r'.Ready) (h : r.rest = r'.rest) (s : σ) :
    (run o r s).result = (run o r' s).result ∧ (run o r s).sink = (run o r' s).sink := by
  obtain ⟨probed, hread, hlater, -⟩ := Reader.read_ready hr BlockHeader.layout.length
  obtain ⟨probed', hread', hlater', -⟩ := Reader.read_ready hr' BlockHeader.layout.length
  rw [run, run, hread, hread', h]
  dsimp only
  cases BlockHeader.decode (r'.rest.take BlockHeader.layout.length) with
  | error short => exact ⟨rfl, rfl⟩
  | ok header =>
    have hrest : (probed.moveTo r.position).rest = (probed'.moveTo r'.position).rest :=
      (hlater.rest_moveTo r.position).trans (h.trans (hlater'.rest_moveTo r'.position).symm)
    obtain ⟨hfault, hstate⟩ :=
      runPasses_matches hq o (Geometry.ofHeader header) hlater.ready hlater'.ready hrest s
    dsimp only
    rw [hfault, hstate.sink, hstate.report, hstate.passes]
    split
    · exact ⟨rfl, rfl⟩
    · split <;> exact ⟨rfl, rfl⟩

/-- A save set that stands behind other bytes, read in pieces of any size and with interruptions, gives the same result
and leaves the sink the same as the save set alone, read at once. -/
theorem only_bytes_count (o : Options) (before saved : Bytes) {schedule : Schedule}
    (hs : ∀ n, 0 < n → schedule.event n ≠ .failed) (s : σ) :
    (run o (.ofBytes (before ++ saved) before.length schedule) s).result =
        (run o (.ofBytes saved 0 .prompt) s).result ∧
      (run o (.ofBytes (before ++ saved) before.length schedule) s).sink =
        (run o (.ofBytes saved 0 .prompt) s).sink := by
  have hr : (Reader.ofBytes (before ++ saved) before.length schedule).Ready := ⟨hs, rfl⟩
  refine run_matches hq o hr (Reader.reliable_ofBytes saved 0).ready ?_ s
  rw [Reader.rest_ofBytes, Reader.rest, Reader.ofBytes]
  exact List.drop_left

omit [Sink σ] hq in
theorem letters_are_read_in_pieces :
    (∀ n, 0 < n → (Schedule.periodic 7 0 2).event n ≠ .failed) ∧
      ∃ summary,
        (run allVersions (.ofBytes ([1, 2, 3] ++ letters lostBlock) 3 (.periodic 7 0 2)) ({} : MemorySink)).result =
          .ok summary ∧
        summary.files.map Listed.spec = ["A.T;1", "B.T;1", "D.T;1"] ∧
        FileSink.files
            (run allVersions (.ofBytes ([1, 2, 3] ++ letters lostBlock) 3 (.periodic 7 0 2)) ({} : MemorySink)).sink =
          [⟨"A.T;1", ⟨0⟩, ⟨0⟩, [1]⟩, ⟨"B.T;1", ⟨0⟩, ⟨0⟩, [0x82]⟩, ⟨"D.T;1", ⟨0⟩, ⟨0⟩, [4]⟩] := by
  have hs : ∀ n, 0 < n → (Schedule.periodic 7 0 2).event n ≠ .failed := by
    intro n hn
    change Schedule.periodicEvent 7 0 2 n ≠ .failed
    rw [Schedule.periodicEvent, if_neg (Nat.ne_of_gt hn)]
    split
    · exact ReadEvent.noConfusion
    · exact ReadEvent.noConfusion
  have hr : (Reader.ofBytes (letters lostBlock) 0 .prompt).Reliable := Reader.reliable_ofBytes _ _
  obtain ⟨header, hf, hshape⟩ :
      ∃ h, framing (Reader.ofBytes (letters lostBlock) 0 .prompt).rest = .ok h ∧ Geometry.ofHeader h = letterShape :=
    framing_ok_iff.mpr ⟨by decide +kernel, by decide +kernel, by decide +kernel⟩
  obtain ⟨hresult, hfiles⟩ := run_framed allVersions hr ({} : MemorySink) hf
  obtain ⟨hsame, hsink⟩ :=
    only_bytes_count (fun _ => rfl) allVersions [1, 2, 3] (letters lostBlock) hs ({} : MemorySink)
  refine ⟨hs, _, hsame.trans hresult, ?_, ?_⟩
  · rw [Options.summary, BlockHeader.passages, hshape]
    dsimp only
    decide +kernel
  · have hafter : FileSink.files (run allVersions (.ofBytes ([1, 2, 3] ++ letters lostBlock) 3 (.periodic 7 0 2))
        ({} : MemorySink)).sink = _ := congrArg FileSink.files hsink
    rw [hafter, hfiles, BlockHeader.members, BlockHeader.passages, hshape]
    decide +kernel

end SaveSet
