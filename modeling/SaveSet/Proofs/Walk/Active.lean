import SaveSet.Proofs.Content.Targets
import SaveSet.Proofs.Walk.Register

namespace SaveSet

open Content

variable {σ : Type} [Sink σ]

def Target.close (t : Target) (h : Handle) (s : σ) : Outcome (Target × σ) :=
  let flushed := t.finish s
  let closed := Sink.closeFile h flushed.state.2
  ⟨({ flushed.state.1 with handle := none }, closed.state), flushed.fault <|> closed.fault⟩

namespace Session

variable {s : Session σ} {key : String} {t : Target}

def held (s : Session σ) : Option Handle := s.active.bind fun key => (s.catalog.target? key).bind Target.handle

omit [Sink σ] in
lemma held_active (ha : s.active = some key) (ht : s.catalog.target? key = some t) : s.held = t.handle := by
  rw [held, ha, Option.bind_some, ht, Option.bind_some]

omit [Sink σ] in
lemma held_inactive (ha : s.active = none) : s.held = none := by
  rw [held, ha, Option.bind_none]

omit [Sink σ] in
lemma held_eq_some {h : Handle} (hh : s.held = some h) :
    ∃ key t, s.active = some key ∧ s.catalog.target? key = some t ∧ t.handle = some h := by
  obtain ⟨key, ha, hkey⟩ := Option.bind_eq_some_iff.mp hh
  obtain ⟨t, ht, hhandle⟩ := Option.bind_eq_some_iff.mp hkey
  exact ⟨key, t, ha, ht, hhandle⟩

def ended {σ : Type} (s : Session σ) (key : String) (t : Target) (out : σ) : Session σ :=
  let s := { s with
    catalog := s.catalog.modify key fun _ => t
    sink := out
    active := none }
  if t.content.isComplete then s else s.warn (.incomplete key t.content.position t.content.size)

omit [Sink σ] in
lemma catalog_ended (s : Session σ) (key : String) (t : Target) (out : σ) :
    (s.ended key t out).catalog = s.catalog.modify key fun _ => t := by
  rw [ended]
  split <;> rfl

omit [Sink σ] in
lemma sink_ended (s : Session σ) (key : String) (t : Target) (out : σ) : (s.ended key t out).sink = out := by
  rw [ended]
  split <;> rfl

omit [Sink σ] in
lemma active_ended (s : Session σ) (key : String) (t : Target) (out : σ) : (s.ended key t out).active = none := by
  rw [ended]
  split <;> rfl

lemma close_held {h : Handle} (ha : s.active = some key) (ht : s.catalog.target? key = some t)
    (hh : t.handle = some h) : s.close = (t.close h s.sink).map fun r => s.ended key r.1 r.2 := by
  rw [close, ha]
  dsimp only
  rw [ht]
  dsimp only
  rw [hh]
  rfl

lemma close_unheld (h : s.held = none) : s.close = .ok { s with active := none } := by
  cases ha : s.active with
  | none =>
    rw [close_inactive ha, ← ha]
  | some key =>
    rw [close, ha]
    dsimp only
    cases ht : s.catalog.target? key with
    | none => rfl
    | some t =>
      rw [held_active ha ht] at h
      dsimp only
      rw [h]

lemma data_active (ha : s.active = some key) (ht : s.catalog.target? key = some t) (payload : Bytes) :
    s.data payload = if t.content.settled then .ok s
      else (t.feed payload s.sink).map fun r => { s.setTarget key r.1 with sink := r.2 } := by
  rw [data, ha]
  dsimp only
  rw [ht]

lemma data_unknown (ha : s.active = some key) (ht : s.catalog.target? key = none) (payload : Bytes) :
    s.data payload = .ok s := by
  rw [data, ha]
  dsimp only
  rw [ht]

lemma data_closed (ps : List Bytes) (ha : s.active = some key) (ht : s.catalog.target? key = some t)
    (hh : t.handle = none) :
    ∃ c, Outcome.each data ps s = .ok { s with catalog := c } ∧
      s.catalog.SetTo c key { t with content := (absorbAll false ps t.content).value } := by
  induction ps generalizing s t with
  | nil => exact ⟨s.catalog, rfl, .refl ht⟩
  | cons p ps ih =>
    have hp : ∃ c, s.data p = .ok { s with catalog := c } ∧
        s.catalog.SetTo c key { t with content := (t.content.absorb false p).value } := by
      rw [data_active ha ht]
      by_cases hs : t.content.settled = true
      · rw [if_pos hs, absorb_settled hs]
        exact ⟨s.catalog, rfl, .refl ht⟩
      · rw [if_neg hs, absorb, if_neg hs, Target.feed_closed hh]
        exact ⟨_, rfl, Catalog.setTo_modify ht _⟩
    obtain ⟨c, hd, hc⟩ := hp
    obtain ⟨c', hd', hc'⟩ := ih (s := { s with catalog := c }) ha hc.target_eq hh
    refine ⟨c', ?_, hc.trans hc'⟩
    rw [Outcome.each_cons, hd]
    exact hd'

lemma close_closed (ha : s.active = some key) (ht : s.catalog.target? key = some t)
    (hh : t.handle = none) : s.close = .ok { s with active := none } :=
  close_unheld ((held_active ha ht).trans hh)

variable [FileSink σ] {h : Handle} {fs : List OutputFile} {f : OutputFile}

lemma data_open (ps : List Bytes) (ha : s.active = some key) (ht : s.catalog.target? key = some t)
    (hh : t.handle = some h) (ho : FileSink.IsOpen h s.sink) (hf : FileSink.files s.sink = fs ++ [f]) :
    ∃ c out, Outcome.each data ps s = .ok { s with catalog := c, sink := out } ∧
      s.catalog.SetTo c key { t with content := (absorbAll true ps t.content).value } ∧
      FileSink.IsOpen h out ∧ FileSink.files out = fs ++ [f.append (absorbAll true ps t.content).bytes] := by
  induction ps generalizing s t f with
  | nil =>
    refine ⟨s.catalog, s.sink, rfl, .refl ht, ho, ?_⟩
    rw [hf, absorbAll, Emission.bytes_silent, OutputFile.append_nil]
  | cons p ps ih =>
    have hp : ∃ c out, s.data p = .ok { s with catalog := c, sink := out } ∧
        s.catalog.SetTo c key { t with content := (t.content.absorb true p).value } ∧
        FileSink.IsOpen h out ∧ FileSink.files out = fs ++ [f.append (t.content.absorb true p).bytes] := by
      rw [data_active ha ht]
      by_cases hs : t.content.settled = true
      · rw [if_pos hs, absorb_settled hs, Emission.bytes_silent, OutputFile.append_nil]
        exact ⟨s.catalog, s.sink, rfl, .refl ht, ho, hf⟩
      · obtain ⟨out, hfeed, hout, hfiles⟩ := Target.feed_open p hh ho hf
        rw [if_neg hs, absorb, if_neg hs, hfeed]
        exact ⟨_, out, rfl, Catalog.setTo_modify ht _, hout, hfiles⟩
    obtain ⟨c, out, hd, hc, hout, hfiles⟩ := hp
    obtain ⟨c', out', hd', hc', hout', hfiles'⟩ :=
      ih (s := { s with catalog := c, sink := out }) ha hc.target_eq hh hout hfiles
    refine ⟨c', out', ?_, hc.trans hc', hout', ?_⟩
    · rw [Outcome.each_cons, hd]
      exact hd'
    · rw [hfiles', absorbAll, Emission.bytes_andThen, OutputFile.append_append]

def shortfall (key : String) (c : Content) : List Warning :=
  if c.isComplete then [] else [.incomplete key c.position c.size]

lemma close_open (ha : s.active = some key) (ht : s.catalog.target? key = some t)
    (hh : t.handle = some h) (ho : FileSink.IsOpen h s.sink) (hf : FileSink.files s.sink = fs ++ [f]) :
    ∃ c out, s.close = .ok { s with
        catalog := c, sink := out, active := none
        report := { s.report with warnings := s.report.warnings ++ (shortfall key t.content).toArray } } ∧
      s.catalog.SetTo c key { t with content := t.content.finish.value, handle := none } ∧
      FileSink.files out = fs ++ [f.append t.content.finish.bytes] := by
  obtain ⟨flushed, hfinish, hopen, hfiles⟩ := Target.finish_open hh ho hf
  obtain ⟨out, hclose, hout⟩ := FileSink.closeFile_ok hopen
  let u : Target := { t with content := t.content.finish.value, handle := none }
  have hended : t.close h s.sink = .ok (u, out) := by
    rw [Target.close, hfinish]
    dsimp only [Outcome.ok]
    rw [hclose]
    rfl
  refine ⟨s.catalog.modify key fun _ => u, out, ?_, Catalog.setTo_modify ht fun _ => u, hout.trans hfiles⟩
  rw [close_held ha ht hh, hended]
  change Outcome.ok (if t.content.isComplete then _ else _) = _
  rw [shortfall]
  split
  · simp [Outcome.ok, u]
  · simp [Outcome.ok, warn, u, finish]

lemma data_close_open (ps : List Bytes) (ha : s.active = some key) (ht : s.catalog.target? key = some t)
    (hh : t.handle = some h) (ho : FileSink.IsOpen h s.sink) (hf : FileSink.files s.sink = fs ++ [f]) :
    ∃ u, (Outcome.each data ps s).andThen close = .ok u ∧ u.active = none ∧
      s.catalog.SetTo u.catalog key
        { t with content := ((absorbAll true ps t.content).andThen finish).value, handle := none } ∧
      FileSink.files u.sink = fs ++ [f.append (t.content.output ps)] ∧
      u.report = { s.report with
        warnings := s.report.warnings ++ (shortfall key (absorbAll true ps t.content).value).toArray } := by
  obtain ⟨c, out, hdata, hc, hout, hfiles⟩ := data_open ps ha ht hh ho hf
  obtain ⟨c', out', hclose, hc', hfiles'⟩ :=
    close_open (s := { s with catalog := c, sink := out }) ha hc.target_eq hh hout hfiles
  refine ⟨_, (congrArg (Outcome.andThen · close) hdata).trans hclose, rfl, hc.trans hc', ?_, rfl⟩
  rw [output, Emission.bytes_andThen, ← OutputFile.append_append]
  exact hfiles'

end Session

end SaveSet
