import SaveSet.Proofs.Container.RoundTrip
import SaveSet.Proofs.ReliableSink
import SaveSet.Proofs.Walk.InStep

/-! Runs over sinks of which some calls fail. A fault cuts the run short: what came before is as it would have been,
and nothing comes behind it but the end of the file that is open. -/

namespace SaveSet

variable {σ τ : Type} [Sink σ] [Sink τ] {R : σ → τ → Prop}

section Walk

variable {s : Session (Journaled σ)} {t : Session (Journaled τ)} {r : Reader}

lemma Session.delivers_refresh {ρ : Type} [Sink ρ] (hr : r.Delivers) (s : Session ρ) : (s.refresh r).Delivers := by
  rw [refresh]
  split <;> exact hr

lemma Session.InStep.refresh (hR : Mimics R) (h : s.InStep R t) (r : Reader) : t.refresh r = s.refresh r := by
  cases h with
  | @mk catalog active report p q sinks =>
    have hsame : Sink.overwritten q = Sink.overwritten p := hR.overwritten sinks.sink
    simp only [Session.refresh, hsame]

lemma walkBlocks_grows (rules : PassRules) (g : Geometry) (r : Reader) (s : Session (Journaled σ)) :
    s.sink.calls <+: (walkBlocks rules g r s).outcome.state.sink.calls := by
  apply walkBlocks_keeps (P := fun u : Session (Journaled σ) => s.sink.calls <+: u.sink.calls)
  · intro last e u hu
    exact hu.trans (Session.apply_grows rules last e u)
  · exact List.prefix_rfl

lemma walkBlocks_block {ρ : Type} [Sink ρ] (rules : PassRules) {g : Geometry} {r r' : Reader} {s : Session ρ}
    {bytes : Bytes} (hend : ¬r.atEnd = true) (hread : (s.refresh r).read g.blockSize = (.ok bytes, r'))
    (hb : ¬bytes.isEmpty = true) :
    walkBlocks rules g r s =
      match s.applyAll rules (r.length - r.position ≤ g.blockSize) (readBlock g bytes).events with
      | ⟨t, some f⟩ => ⟨.stop t f, r'⟩
      | ⟨t, none⟩ => if Bytes.holds g.blockSize bytes then walkBlocks rules g r' t else ⟨.ok t, r'⟩ := by
  rw [walkBlocks_eq, if_neg hend, hread]
  exact if_neg hb

lemma walkBlocks_tracks (hR : Mimics R) (rules : PassRules) (g : Geometry) (hr : r.Delivers) (h : s.InStep R t) :
    (∃ s' t' r', walkBlocks rules g r s = ⟨.ok s', r'⟩ ∧ walkBlocks rules g r t = ⟨.ok t', r'⟩ ∧
        s'.InStep R t' ∧ r'.Delivers) ∨
      ∃ t' f r', walkBlocks rules g r t = ⟨.stop t' f, r'⟩ ∧
        Session.CutShort (walkBlocks rules g r s).outcome.state t' f := by
  have hall (last : Bool) (es : List Event) {s : Session (Journaled σ)} {t : Session (Journaled τ)}
      (h : s.InStep R t) := h.applyAll rules hR last es
  -- Along the walk that may fail. Up to the fault both find the same bytes, since their sinks show the same.
  fun_induction walkBlocks rules g r t generalizing s with
  | case1 r t hend =>
    refine Or.inl ⟨s, t, r, ?_, rfl, h, hr⟩
    rw [walkBlocks_eq, if_pos hend]
  | case2 r t hend f r' hread =>
    obtain ⟨⟨_, hok⟩, -⟩ := Reader.read_delivers (Session.delivers_refresh hr t) hread
    cases hok
  | case3 r t hend bytes r' hread hb =>
    obtain ⟨-, hr'⟩ := Reader.read_delivers (Session.delivers_refresh hr t) hread
    rw [h.refresh hR] at hread
    refine Or.inl ⟨s, t, r', ?_, rfl, h, hr'⟩
    rw [walkBlocks_eq, if_neg hend, hread]
    exact if_pos hb
  | case4 r t hend bytes r' hread hb t' f ha =>
    rw [h.refresh hR] at hread
    rw [walkBlocks_block rules hend hread hb]
    rcases hall _ _ h with ⟨_, _, -, hok, -⟩ | ⟨_, _, hstop, hcut⟩
    · cases hok.symm.trans ha
    · cases hstop.symm.trans ha
      refine Or.inr ⟨t', f, r', rfl, ?_⟩
      split
      · next s' f' hs =>
        rw [hs] at hcut
        exact hcut
      · next s' hs =>
        rw [hs] at hcut
        split
        · exact hcut.grow (walkBlocks_grows rules g r' s')
        · exact hcut
  | case5 r t hend bytes r' hread hb t' ha hh ih =>
    obtain ⟨-, hr'⟩ := Reader.read_delivers (Session.delivers_refresh hr t) hread
    rw [h.refresh hR] at hread
    rw [walkBlocks_block rules hend hread hb]
    rcases hall _ _ h with ⟨s', _, hs, hok, hsame⟩ | ⟨_, _, hstop, -⟩
    · cases hok.symm.trans ha
      rw [hs]
      dsimp only [Outcome.ok]
      rw [if_pos hh]
      exact ih hr' hsame
    · cases hstop.symm.trans ha
  | case6 r t hend bytes r' hread hb t' ha hh =>
    obtain ⟨-, hr'⟩ := Reader.read_delivers (Session.delivers_refresh hr t) hread
    rw [h.refresh hR] at hread
    rw [walkBlocks_block rules hend hread hb]
    rcases hall _ _ h with ⟨s', _, hs, hok, hsame⟩ | ⟨_, _, hstop, -⟩
    · cases hok.symm.trans ha
      rw [hs]
      exact Or.inl ⟨s', t', r', if_neg hh, rfl, hsame, hr'⟩
    · cases hstop.symm.trans ha

end Walk

inductive PassState.InStep (R : σ → τ → Prop) : PassState (Journaled σ) → PassState (Journaled τ) → Prop where
  | mk (catalog : Catalog) (report : Report) (passes : Nat) {reader : Reader} {p : Journaled σ} {q : Journaled τ}
      (delivers : reader.Delivers) (sinks : Alike R p q) :
      InStep R ⟨catalog, p, reader, report, passes⟩ ⟨catalog, q, reader, report, passes⟩

variable {p : PassState (Journaled σ)} {q : PassState (Journaled τ)}

lemma traverse_grows (rules : PassRules) (g : Geometry) (origin : Nat) (p : PassState (Journaled σ)) :
    p.sink.calls <+: (traverse rules g origin p).state.sink.calls :=
  (walkBlocks_grows rules g _ { catalog := p.catalog.reset, sink := p.sink }).trans (Session.close_grows _)

lemma traverse_tracks (hR : Mimics R) (rules : PassRules) (g : Geometry) (origin : Nat) (h : p.InStep R q) :
    Outcome.Tracks (PassState.InStep R) (fun p q f => CutOff p.sink.calls q.sink.calls f)
      (traverse rules g origin p) (traverse rules g origin q) := by
  obtain ⟨catalog, report, passes, delivers, sinks⟩ := h
  have hstart := Session.InStep.mk catalog.reset none {} sinks
  rw [traverse, traverse]
  dsimp only
  rcases walkBlocks_tracks hR rules g (r := Reader.moveTo _ origin) delivers hstart with
    ⟨s, t, r, hs, ht, hsame, hr⟩ | ⟨t, f, r, ht, hcut⟩
  · rw [hs, ht]
    rcases hsame.close hR with ⟨s', t', hs', ht', hclosed⟩ | ⟨t', f, ht', hcut⟩
    · dsimp only [Outcome.ok]
      rw [hs', ht']
      cases hclosed with
      | mk catalog active report sinks => exact Or.inl ⟨_, _, rfl, rfl, .mk _ _ _ hr sinks⟩
    · dsimp only [Outcome.ok]
      rw [ht']
      refine Or.inr ⟨_, f, rfl, ?_⟩
      -- The end of a file leaves nothing open, whether it fails or not.
      rcases hcut with ⟨hcut, -⟩ | ⟨handle, -, hheld⟩
      · exact hcut
      · have hidle := Session.held_inactive t.active_close
        rw [ht'] at hidle
        cases hidle.symm.trans hheld
  · rw [ht]
    exact Or.inr ⟨_, f, rfl, hcut.close.grow (Session.close_grows _)⟩

lemma runPass_grows (o : Options) (g : Geometry) (origin : Nat) (pass : Pass) (p : PassState (Journaled σ)) :
    p.sink.calls <+: (runPass o g origin pass p).state.sink.calls := by
  rw [sink_runPass]
  exact traverse_grows (.ofOptions o pass) g origin p

lemma runPass_tracks (hR : Mimics R) (o : Options) (g : Geometry) (origin : Nat) (pass : Pass) (h : p.InStep R q) :
    Outcome.Tracks (PassState.InStep R) (fun p q f => CutOff p.sink.calls q.sink.calls f)
      (runPass o g origin pass p) (runPass o g origin pass q) := by
  apply (traverse_tracks hR (.ofOptions o pass) g origin h).andThen
  · intro p' q' _ _ h'
    cases h' with
    | mk catalog report passes delivers sinks => exact Or.inl ⟨_, _, rfl, rfl, .mk _ _ _ delivers sinks⟩
  · intro p' q' f hcut
    exact hcut

lemma runPasses_tracks (hR : Mimics R) (o : Options) (g : Geometry) (origin : Nat) {r : Reader} (hr : r.Delivers)
    {s : Journaled σ} {t : Journaled τ} (h : Alike R s t) :
    Outcome.Tracks (PassState.InStep R) (fun p q f => CutOff p.sink.calls q.sink.calls f)
      (runPasses o g origin r s) (runPasses o g origin r t) := by
  apply Outcome.Tracks.each
  · intro pass p q hsame
    exact runPass_tracks hR o g origin pass hsame
  · intro pass p q f hcut
    exact hcut.grow (runPass_grows o g origin pass p)
  · exact .mk _ _ _ hr h

/-- A run beside another over a sink that answers alike until a call fails. If none does, the runs are the same. Else
the second one makes the same calls up to the first that fails; behind it stands the end of a line at most and the end
of the file that is open; and the first fault is returned, whatever becomes of these calls. -/
theorem faults_cut_runs_short (hR : Mimics R) (o : Options) {r : Reader} (hr : r.Delivers) {s : σ} {t : τ} (h : R s t) :
    let whole := (run o r (Journaled.start s)).sink.calls
    let cut := (run o r (Journaled.start t)).sink.calls
    (cut = whole ∧ (∀ c ∈ cut, c.fault? = none) ∧ (run o r t).result = (run o r s).result) ∨
      ∃ f, CutOff whole cut f ∧ (run o r t).result = .error (.io f) := by
  have hstart : Alike R (Journaled.start s) (Journaled.start t) := ⟨h, rfl, by simp [Journaled.start]⟩
  have hnone : ∀ c ∈ (Journaled.start t).calls, c.fault? = none := by simp [Journaled.start]
  rw [← result_journaled o r s, ← result_journaled o r t]
  simp only [run]
  split
  · exact Or.inl ⟨rfl, hnone, rfl⟩
  · next probe probed hread =>
    obtain ⟨-, hprobed⟩ := Reader.read_delivers hr hread
    split
    · exact Or.inl ⟨rfl, hnone, rfl⟩
    · next header hd =>
      split
      · exact Or.inl ⟨rfl, hnone, rfl⟩
      · rcases runPasses_tracks hR o (.ofHeader header) r.position hprobed hstart with
          ⟨_, _, hp, hq, hsame⟩ | ⟨q, f, hq, hcut⟩
        · rw [hp, hq]
          cases hsame with
          | @mk catalog report passes reader p q delivers sinks =>
            have hsound : ∀ c ∈ q.calls, c.fault? = none := by
              rw [sinks.calls]
              exact sinks.sound
            exact Or.inl ⟨sinks.calls, hsound, rfl⟩
        · rw [hq]
          refine Or.inr ⟨f, ?_, rfl⟩
          split <;> exact hcut

def heldBack : StoredFile := .plain [72, 46, 84, 59, 49] 1 [[65, 13], [66, 13]] (by decide) (by decide)

def readHeldBack : Reader := .ofBytes heldBackSet.bytes 0 .prompt
where
  heldBackSet : SaveSetImage :=
    .plain [heldBack]
      [(StoredItem.file heldBack).record (by decide) (by decide),
        (StoredItem.data [65, 13]).record (by decide) (by decide),
        (StoredItem.data [66, 13]).record (by decide) (by decide)] rfl (by decide +kernel)

def copyText : Options := { mode := .ascii, version := .all }

def failingMemory : Faulty MemorySink where
  plan :=
    { openFile _ := none
      write n := if n = 2 then some .other else if n = 3 then some .notFound else none
      closeFile _ := some .invalidInput }
  sink := {}

theorem first_of_three_faults_is_returned :
    let whole := (run copyText readHeldBack (Journaled.start ({} : MemorySink))).sink.calls
    let cut := (run copyText readHeldBack (Journaled.start failingMemory)).sink.calls
    cut.map Call.fault? = [none, none, some .other, some .notFound, some .invalidInput] ∧ CutOff whole cut .other ∧
      (run copyText readHeldBack failingMemory).result = .error (.io .other) := by
  have hfaults : (run copyText readHeldBack (Journaled.start failingMemory)).sink.calls.map Call.fault? =
      [none, none, some .other, some .notFound, some .invalidInput] := by decide +kernel
  have hr : readHeldBack.Delivers := fun _ => ReadEvent.noConfusion
  rcases faults_cut_runs_short Faulty.mimics copyText hr (s := {}) (t := failingMemory) rfl with
    ⟨-, hnone, -⟩ | ⟨f, hcut, hf⟩
  · have hall : ∀ f ∈ [none, none, some .other, some .notFound, some Fault.invalidInput], f = none := by
      rw [← hfaults]
      simpa using hnone
    exact absurd hall (by decide)
  · have hfirst := hcut.first_fault
    rw [← Function.id_comp Call.fault?, ← List.findSome?_map, hfaults] at hfirst
    cases hfirst
    exact ⟨hfaults, hcut, hf⟩

end SaveSet
