import SaveSet.Proofs.Walk.Cuts

namespace SaveSet

variable {σ τ : Type} {R : σ → τ → Prop}

namespace Session

inductive InStep (R : σ → τ → Prop) : Session (Journaled σ) → Session (Journaled τ) → Prop where
  | mk (catalog : Catalog) (active : Option String) (report : Report) {p : Journaled σ} {q : Journaled τ}
      (sinks : Alike R p q) : InStep R ⟨catalog, p, active, report⟩ ⟨catalog, q, active, report⟩

def CutShort (s : Session (Journaled σ)) (t : Session (Journaled τ)) (f : Fault) : Prop :=
  (CutOff s.sink.calls t.sink.calls f ∧ t.held = none) ∨
    ∃ handle, WriteFails handle s.sink t.sink f ∧ t.held = some handle

variable {s : Session (Journaled σ)} {t : Session (Journaled τ)} {f : Fault}

lemma InStep.warn (h : InStep R s t) (w : Warning) : InStep R (s.warn w) (t.warn w) := by
  cases h with
  | mk catalog active report sinks => exact .mk _ _ _ sinks

lemma CutShort.grow (h : CutShort s t f) {s' : Session (Journaled σ)} (hs : s.sink.calls <+: s'.sink.calls) :
    CutShort s' t f := by
  rcases h with ⟨hcut, hheld⟩ | ⟨handle, ⟨data, hfails⟩, hheld⟩
  · exact Or.inl ⟨hcut.grow hs, hheld⟩
  · exact Or.inr ⟨handle, ⟨data, hfails.grow hs⟩, hheld⟩

end Session

namespace Journaled

def behind (before : List Call) (s : Journaled σ) : Journaled σ := { s with calls := before ++ s.calls }

lemma isView_behind [Sink σ] (before : List Call) : IsView (behind before : Journaled σ → Journaled σ) where
  openFile r s := by
    change Journaled.openFile r _ = ((Journaled.openFile r s).1, behind before (Journaled.openFile r s).2)
    rw [Journaled.openFile, Journaled.openFile]
    rcases hopen : Sink.openFile r s.sink with ⟨f | h, t⟩ <;> simp [behind, hopen]
  write h data s := by
    change Journaled.write h data _ = (Journaled.write h data s).map _
    simp [Journaled.write, behind, Outcome.map]
  closeFile h s := by
    change Journaled.closeFile h _ = (Journaled.closeFile h s).map _
    simp [Journaled.closeFile, behind, Outcome.map]
  overwritten _ := rfl

end Journaled

namespace Session

variable [Sink σ] [Sink τ] {s : Session (Journaled σ)} {t : Session (Journaled τ)} {f : Fault}

omit [Sink σ] in
lemma calls_grow {step : Session (Journaled σ) → Outcome (Session (Journaled σ))}
    (hstep : ∀ before u, step (u.through (.behind before)) = (step u).map (through (.behind before)))
    (s : Session (Journaled σ)) : s.sink.calls <+: (step s).state.sink.calls := by
  let bare : Session (Journaled σ) := { s with sink := .start s.sink.sink }
  have hbare : bare.through (.behind s.sink.calls) = s := by simp [bare, through, Journaled.behind, Journaled.start]
  have h := hstep s.sink.calls bare
  rw [hbare] at h
  rw [h]
  exact List.prefix_append _ _

lemma close_grows (s : Session (Journaled σ)) : s.sink.calls <+: s.close.state.sink.calls :=
  calls_grow (fun before u => (Journaled.isView_behind before).close u) s

lemma apply_grows (rules : PassRules) (last : Bool) (e : Event) (s : Session (Journaled σ)) :
    s.sink.calls <+: (s.apply rules last e).state.sink.calls :=
  calls_grow (fun before u => (Journaled.isView_behind before).apply rules last e u) s

lemma InStep.close (hR : Mimics R) (h : InStep R s t) : Outcome.Tracks (InStep R) CutShort s.close t.close := by
  cases h with
  | @mk catalog active report p q sinks =>
  cases hh : held ⟨catalog, p, active, report⟩ with
  | none =>
    rw [close_unheld hh, close_unheld (s := ⟨catalog, q, active, report⟩) hh]
    exact Or.inl ⟨_, _, rfl, rfl, .mk _ _ _ sinks⟩
  | some handle =>
    obtain ⟨key, u, ha, hu, hhandle⟩ := held_eq_some hh
    rw [close_held ha hu hhandle, close_held (s := ⟨catalog, q, active, report⟩) ha hu hhandle]
    apply (Target.close_tracks hR hhandle sinks).map
    · rintro ⟨v, p⟩ ⟨_, q⟩ ⟨rfl, halike⟩
      rw [ended, ended]
      dsimp only
      split <;> exact .mk _ _ _ halike
    · intro p q f hcut
      refine Or.inl ⟨?_, held_inactive (active_ended _ key _ _)⟩
      rw [sink_ended, sink_ended]
      exact hcut

omit [Sink σ] in
lemma CutShort.close (h : CutShort s t f) : CutOff s.sink.calls t.close.state.sink.calls f := by
  rcases h with ⟨hcut, hheld⟩ | ⟨handle, ⟨data, hfails⟩, hheld⟩
  · rw [close_unheld hheld]
    exact hcut
  · obtain ⟨key, u, ha, hu, hhandle⟩ := held_eq_some hheld
    obtain ⟨after, hcalls, hclean⟩ := Target.close_calls hhandle data (some f) t.sink
    rw [close_held ha hu hhandle]
    change CutOff _ (t.ended key _ _).sink.calls f
    rw [sink_ended, hcalls]
    exact ⟨_, after, hfails.append after, hclean⟩

lemma InStep.data (hR : Mimics R) (h : InStep R s t) (payload : Bytes) :
    Outcome.Tracks (InStep R) CutShort (s.data payload) (t.data payload) := by
  cases h with
  | mk catalog active report sinks =>
  cases active with
  | none =>
    rw [data_inactive rfl, data_inactive rfl]
    exact Or.inl ⟨_, _, rfl, rfl, .mk _ _ _ sinks⟩
  | some key =>
    cases hu : catalog.target? key with
    | none =>
      rw [data_unknown rfl hu, data_unknown rfl hu]
      exact Or.inl ⟨_, _, rfl, rfl, .mk _ _ _ sinks⟩
    | some u =>
      rw [data_active rfl hu, data_active rfl hu]
      split
      · exact Or.inl ⟨_, _, rfl, rfl, .mk _ _ _ sinks⟩
      · cases hh : u.handle with
        | none =>
          rw [Target.feed_closed hh, Target.feed_closed hh]
          exact Or.inl ⟨_, _, rfl, rfl, .mk _ _ _ sinks⟩
        | some handle =>
          apply (Target.put_tracks hR hh _ sinks).map
          · rintro ⟨v, p⟩ ⟨_, q⟩ ⟨rfl, halike⟩
            exact .mk _ _ _ halike
          · rintro p q f ⟨hhandle, hcut⟩
            refine Or.inr ⟨handle, hcut, ?_⟩
            exact (held_active rfl (Catalog.setTo_modify hu fun _ => q.1).target_eq).trans hhandle

variable (rules : PassRules)

lemma InStep.start (hR : Mimics R) (h : InStep R s t) (ha : t.active = none) (key : String) (a : FileAttributes)
    (flags : RecordFlags) :
    Outcome.Tracks (InStep R) CutShort (s.start rules key a flags) (t.start rules key a flags) := by
  cases h with
  | mk catalog active report sinks =>
  rw [Session.start, Session.start]
  cases rules.pass with
  | scan => exact Or.inl ⟨_, _, rfl, rfl, .mk _ _ _ sinks⟩
  | extract =>
    dsimp only
    split
    · let request : OpenRequest := ⟨key, a.created, a.revised⟩
      rcases sinks.openFile hR request with ⟨handle, p, q, hp, hq, halike⟩ | ⟨f, q, hq, hcut⟩
      · rw [hp, hq]
        exact Or.inl ⟨_, _, rfl, rfl, .mk _ _ _ halike⟩
      · rw [hq]
        refine Or.inr ⟨_, f, rfl, Or.inl ⟨⟨.refused request f, [], ?_, rfl⟩, held_inactive ha⟩⟩
        split
        · next he =>
          rw [he] at hcut
          exact hcut
        · next he =>
          rw [he] at hcut
          exact hcut
    · exact Or.inl ⟨_, _, rfl, rfl, .mk _ _ _ sinks⟩

lemma InStep.file (hR : Mimics R) (h : InStep R s t) (ha : t.active = none) (a : FileAttributes)
    (flags : RecordFlags) : Outcome.Tracks (InStep R) CutShort (s.file rules a flags) (t.file rules a flags) := by
  cases h with
  | mk catalog active report sinks =>
  rw [Session.file, Session.file]
  dsimp only
  split
  · exact (InStep.mk (catalog.register a).2 active report sinks).start rules hR ha _ a flags
  · exact Or.inl ⟨_, _, rfl, rfl, .mk _ _ _ sinks⟩

lemma InStep.apply (hR : Mimics R) (last : Bool) (e : Event) (h : InStep R s t) :
    Outcome.Tracks (InStep R) CutShort (s.apply rules last e) (t.apply rules last e) := by
  have hwarn (reports : Bool) (w : Warning) :
      Outcome.Tracks (InStep R) CutShort (s.close.andThen fun s => .ok (if reports then s.warn w else s))
        (t.close.andThen fun t => .ok (if reports then t.warn w else t)) := by
    apply (h.close hR).andThen
    · intro s' t' _ _ h'
      refine Or.inl ⟨_, _, rfl, rfl, ?_⟩
      split
      · exact h'.warn w
      · exact h'
    · intro s' t' f hcut
      apply hcut.grow
      split <;> exact List.prefix_rfl
  cases e with
  | idle => exact Or.inl ⟨_, _, rfl, rfl, h⟩
  | boundary => exact h.close hR
  | data payload => exact h.data hR payload
  | file a flags =>
    apply (h.close hR).andThen
    · intro s' t' _ ht h'
      have ha := t.active_close
      rw [ht] at ha
      exact h'.file rules hR ha a flags
    · intro s' t' f hcut
      exact hcut.grow (calls_grow (fun before u => (Journaled.isView_behind before).file rules a flags u) s')
  | badRecord w => exact hwarn _ w
  | badBlock w => exact hwarn _ w

lemma InStep.applyAll (hR : Mimics R) (last : Bool) (es : List Event) (h : InStep R s t) :
    Outcome.Tracks (InStep R) CutShort (s.applyAll rules last es) (t.applyAll rules last es) :=
  Outcome.Tracks.each (fun e _ _ h => h.apply rules hR last e)
    (fun e s' _ _ hcut => hcut.grow (apply_grows rules last e s')) es h

end Session

end SaveSet
