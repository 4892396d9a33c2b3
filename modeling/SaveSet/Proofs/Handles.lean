import SaveSet.Proofs.Walk.Holding
import SaveSet.Proofs.Walk.Views

/-! Handles over a whole run. Every handle that the sink gives out is given back, and in time. -/

namespace SaveSet

def PassRules.IsMute (rules : PassRules) : Prop := rules.pass = .scan ∨ rules.extract = false

namespace Session

variable {σ : Type}

structure Quiet (rules : PassRules) (out : σ) (s : Session σ) : Prop where
  sink : s.sink = out
  report : rules.pass = .scan → s.report = {}
  closed : s.catalog.Closed

variable {s : Session σ} {out : σ} {rules : PassRules}

lemma held_closed (h : s.catalog.Closed) : s.held = none := by
  cases ha : s.active with
  | none => exact held_inactive ha
  | some key =>
    rw [held, ha, Option.bind_some]
    cases ht : s.catalog.target? key with
    | none => rfl
    | some t => exact h key t ht

lemma Quiet.warn (h : s.Quiet rules out) {reports : Bool} (hr : rules.pass = .scan → reports = false)
    (w : Warning) : (if reports then s.warn w else s).Quiet rules out := by
  split
  · next hreports => exact ⟨h.sink, fun hp => (by cases hreports.symm.trans (hr hp)), h.closed⟩
  · exact h

variable [Sink σ]

lemma Quiet.close (h : s.Quiet rules out) : s.close.state.Quiet rules out := by
  rw [close_unheld (held_closed h.closed)]
  exact ⟨h.sink, h.report, h.closed⟩

lemma Quiet.data (h : s.Quiet rules out) (payload : Bytes) : (s.data payload).state.Quiet rules out := by
  cases ha : s.active with
  | none =>
    rw [data_inactive ha]
    exact h
  | some key =>
    cases ht : s.catalog.target? key with
    | none =>
      rw [data_unknown ha ht]
      exact h
    | some t =>
      have hh := h.closed key t ht
      rw [data_active ha ht, Target.feed_closed hh]
      split
      · exact h
      · exact ⟨h.sink, h.report, h.closed.setTo (Catalog.setTo_modify ht _) hh⟩

lemma Quiet.file (hp : rules.IsMute) (h : s.Quiet rules out) (a : FileAttributes) (flags : RecordFlags) :
    (file rules a flags s).state.Quiet rules out := by
  have hc := h.closed.register a
  have ht := Catalog.target?_register s.catalog a a.filename
  rw [if_pos rfl] at ht
  have hh := hc a.filename _ ht
  rw [Session.file]
  split
  · rw [start]
    cases hpass : rules.pass with
    | scan => exact ⟨h.sink, h.report, hc.setTo (Catalog.setTo_modify ht (startScan rules)) hh⟩
    | extract =>
      have hx : rules.extract = false := hp.resolve_left (by rw [hpass]; decide)
      dsimp only
      rw [hx, if_neg Bool.false_ne_true]
      exact ⟨h.sink, fun hs => (by cases hpass.symm.trans hs), hc.setTo (Catalog.setTo_modify ht startListing) hh⟩
  · exact ⟨h.sink, h.report, hc⟩

lemma Quiet.apply (hp : rules.IsMute) (h : s.Quiet rules out) (last : Bool) (e : Event) :
    (s.apply rules last e).state.Quiet rules out := by
  have hrecord (hp : rules.pass = .scan) : reportsRecord rules last = false := by
    rw [reportsRecord, hp]
    rfl
  have hblock (hp : rules.pass = .scan) : reportsBlock rules last = false := by
    rw [reportsBlock, hp]
    rfl
  cases e with
  | idle => exact h
  | boundary => exact h.close
  | file a flags => exact Outcome.state_andThen h.close fun ht => ht.file hp a flags
  | data payload => exact h.data payload
  | badRecord w => exact Outcome.state_andThen h.close fun ht => ht.warn hrecord w
  | badBlock w => exact Outcome.state_andThen h.close fun ht => ht.warn hblock w

end Session

variable {σ : Type} [Sink σ]

structure PassState.AtRest (p : PassState (Journaled σ)) : Prop where
  closed : p.catalog.Closed
  orderly : Orderly none p.sink.calls

lemma traverse_atRest (rules : PassRules) (g : Geometry) (origin : Nat) {p : PassState (Journaled σ)}
    (h : p.AtRest) : (traverse rules g origin p).state.AtRest := by
  let start : Session (Journaled σ) := { catalog := p.catalog.reset, sink := p.sink }
  let walked := (walkBlocks rules g (p.reader.moveTo origin) start).outcome.state
  have hstart : start.Tidy := Session.tidy_idle p.catalog.closed_reset rfl h.orderly
  have hwalked : walked.Tidy := walkBlocks_keeps (fun last e s hs => hs.apply last e) g _ hstart
  have hheld := Session.held_inactive (Session.active_close walked)
  have hclosed := hwalked.close
  have ho := hclosed.orderly
  rw [hheld] at ho
  exact ⟨hclosed.closed hheld, ho⟩

lemma runPass_atRest (o : Options) (g : Geometry) (origin : Nat) (pass : Pass) {p : PassState (Journaled σ)}
    (h : p.AtRest) : (runPass o g origin pass p).state.AtRest :=
  Outcome.state_andThen (traverse_atRest (.ofOptions o pass) g origin h) fun hq => ⟨hq.closed, hq.orderly⟩

lemma runPasses_atRest (o : Options) (g : Geometry) (origin : Nat) (r : Reader) {s : Journaled σ}
    (hs : Orderly none s.calls) : (runPasses o g origin r s).state.AtRest :=
  Outcome.state_each (fun pass _ hp => runPass_atRest o g origin pass hp) (passesOf o)
    ⟨Catalog.closed_ofOptions o, hs⟩

lemma run_orderly (o : Options) (r : Reader) {s : Journaled σ} (hs : Orderly none s.calls) :
    Orderly none (run o r s).sink.calls := by
  rcases run_cases o r s with ⟨e, r', hrun⟩ | ⟨g, probed, hsink, -⟩
  · rw [hrun]
    exact hs
  · rw [hsink]
    exact (runPasses_atRest o g r.position probed hs).orderly

lemma traverse_mute {rules : PassRules} (hp : rules.IsMute) (g : Geometry) (origin : Nat) (p : PassState σ) :
    (traverse rules g origin p).state.sink = p.sink ∧
      (rules.pass = .scan → (traverse rules g origin p).state.report = {}) := by
  let start : Session σ := { catalog := p.catalog.reset, sink := p.sink }
  have hstart : start.Quiet rules p.sink := ⟨rfl, fun _ => rfl, p.catalog.closed_reset⟩
  have hwalked : (walkBlocks rules g (p.reader.moveTo origin) start).outcome.state.Quiet rules p.sink :=
    walkBlocks_keeps (fun last e s hs => hs.apply hp last e) g _ hstart
  exact ⟨hwalked.close.sink, hwalked.close.report⟩

lemma traverse_quiet {rules : PassRules} (hp : rules.pass = .scan) (g : Geometry) (origin : Nat) (p : PassState σ) :
    (traverse rules g origin p).state.sink = p.sink ∧ (traverse rules g origin p).state.report = {} := by
  obtain ⟨hsink, hreport⟩ := traverse_mute (.inl hp) g origin p
  exact ⟨hsink, hreport hp⟩

/-- Whatever a save set holds, and whichever calls and reads fail: when the calls of a run are written down, and this
changes nothing else, they have one file open at most and close it, also if the run fails. The first pass calls nothing
and reports nothing. -/
theorem handles_are_given_back (o : Options) (r : Reader) (s : σ) :
    (run o r (Journaled.start s)).result = (run o r s).result ∧
      (run o r (Journaled.start s)).sink.sink = (run o r s).sink ∧
      Disciplined (run o r (Journaled.start s)).sink.calls ∧
      (∀ g origin r', (runPasses o g origin r' s).state.catalog.Closed) ∧
      ∀ g origin (p : PassState (Journaled σ)),
        (traverse (.ofOptions o .scan) g origin p).state.sink = p.sink ∧
          (traverse (.ofOptions o .scan) g origin p).state.report = {} := by
  have hstart : Orderly none (Journaled.start s).calls := .start
  have hview : run o r s = ⟨_, _, _⟩ := Journaled.isView.run o r (Journaled.start s)
  refine ⟨?_, ?_, (run_orderly o r hstart).disciplined, ?_, ?_⟩
  · rw [hview]
  · rw [hview]
  · intro g origin r'
    have hpasses : runPasses o g origin r' s = _ := Journaled.isView.runPasses o g origin r' (Journaled.start s)
    rw [hpasses]
    exact (runPasses_atRest o g origin r' hstart).closed
  · intro g origin p
    exact traverse_quiet rfl g origin p

end SaveSet
