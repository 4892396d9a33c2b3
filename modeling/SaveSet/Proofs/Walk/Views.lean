import SaveSet.Proofs.Output.Journal
import SaveSet.Proofs.Walk.Blocks
import SaveSet.Run

/-! A run depends on its sink only by what the calls answer: it is the same seen through any view of the sink. -/

namespace SaveSet

namespace Outcome

variable {σ τ α : Type} {f : σ → τ}

lemma map_andThen {o : Outcome σ} {step : σ → Outcome σ} {step' : τ → Outcome τ}
    (h : ∀ s, step' (f s) = (step s).map f) : (o.map f).andThen step' = (o.andThen step).map f := by
  rcases o with ⟨s, _ | e⟩
  · exact h s
  · rfl

lemma map_each {step : α → σ → Outcome σ} {step' : α → τ → Outcome τ}
    (h : ∀ x s, step' x (f s) = (step x s).map f) (xs : List α) (s : σ) :
    each step' xs (f s) = (each step xs s).map f := by
  induction xs generalizing s with
  | nil => rfl
  | cons x xs ih =>
    rw [each_cons, each_cons, h]
    exact map_andThen ih

end Outcome

structure IsView {σ τ : Type} [Sink σ] [Sink τ] (view : σ → τ) : Prop where
  openFile : ∀ r s, Sink.openFile r (view s) = ((Sink.openFile r s).1, view (Sink.openFile r s).2)
  write : ∀ h data s, Sink.write h data (view s) = (Sink.write h data s).map view
  closeFile : ∀ h s, Sink.closeFile h (view s) = (Sink.closeFile h s).map view
  overwritten : ∀ s, Sink.overwritten (view s) = Sink.overwritten s

variable {σ τ : Type} [Sink σ] [Sink τ] {view : σ → τ}

lemma Journaled.isView : IsView (Journaled.sink : Journaled σ → σ) where
  openFile r s := by
    change _ = ((Journaled.openFile r s).1, (Journaled.openFile r s).2.sink)
    rw [Journaled.openFile]
    rcases Sink.openFile r s.sink with ⟨f | h, t⟩ <;> rfl
  write _ _ _ := rfl
  closeFile _ _ := rfl
  overwritten _ := rfl

namespace IsView

lemma deliver (hv : IsView view) (h : Handle) (final : Content) (ws : List Write) (s : σ) :
    SaveSet.deliver h final ws (view s) = (SaveSet.deliver h final ws s).map (Prod.map id view) := by
  induction ws generalizing s with
  | nil => rfl
  | cons w ws ih =>
    rw [SaveSet.deliver, SaveSet.deliver, hv.write]
    rcases Sink.write h w.bytes s with ⟨t, _ | f⟩
    · exact ih t
    · rfl

lemma put (hv : IsView view) (t : Target) (e : Emission Content) (s : σ) :
    t.put e (view s) = (t.put e s).map (Prod.map id view) := by
  rw [Target.put, Target.put]
  split
  · rfl
  · rw [hv.deliver]
    rfl

lemma feed (hv : IsView view) (t : Target) (payload : Bytes) (s : σ) :
    t.feed payload (view s) = (t.feed payload s).map (Prod.map id view) := hv.put t _ s

lemma finish (hv : IsView view) (t : Target) (s : σ) :
    t.finish (view s) = (t.finish s).map (Prod.map id view) := by
  rw [Target.finish, Target.finish]
  split
  · exact hv.put t _ s
  · rfl

end IsView

def Session.through (view : σ → τ) (s : Session σ) : Session τ := { s with sink := view s.sink }

namespace IsView

open Session (through)

omit [Sink σ] [Sink τ] in
lemma active_through (view : σ → τ) (s : Session σ) : (s.through view).active = s.active := rfl

lemma close (hv : IsView view) (s : Session σ) : (s.through view).close = s.close.map (through view) := by
  rw [Session.close, Session.close]
  rw [active_through]
  cases s.active with
  | none => rfl
  | some key =>
    dsimp only [through]
    cases s.catalog.target? key with
    | none => rfl
    | some t =>
      dsimp only
      cases t.handle with
      | none => rfl
      | some h =>
        dsimp only
        rw [hv.finish]
        rcases t.finish s.sink with ⟨⟨t', out⟩, f⟩
        dsimp only [Outcome.map, Prod.map, id]
        rw [hv.closeFile]
        by_cases hc : t'.content.isComplete = true
        · simp [hc, through, Session.setTarget, Outcome.map]
        · simp [hc, through, Session.setTarget, Session.warn, Outcome.map]

lemma start (hv : IsView view) (rules : PassRules) (key : String) (a : FileAttributes) (flags : RecordFlags)
    (s : Session σ) :
    (s.through view).start rules key a flags = (s.start rules key a flags).map (through view) := by
  rw [Session.start, Session.start]
  cases rules.pass with
  | scan => rfl
  | extract =>
    dsimp only
    split
    · dsimp only [through]
      rw [hv.openFile]
      rcases Sink.openFile ⟨key, a.created, a.revised⟩ s.sink with ⟨f | h, t⟩ <;> rfl
    · rfl

lemma file (hv : IsView view) (rules : PassRules) (a : FileAttributes) (flags : RecordFlags) (s : Session σ) :
    (s.through view).file rules a flags = (s.file rules a flags).map (through view) := by
  rw [Session.file, Session.file]
  change (if (s.catalog.register a).1.selected then _ else _) = _
  split
  · exact hv.start rules _ a flags { s with catalog := (s.catalog.register a).2 }
  · rfl

lemma data (hv : IsView view) (payload : Bytes) (s : Session σ) :
    (s.through view).data payload = (s.data payload).map (through view) := by
  rw [Session.data, Session.data]
  rw [active_through]
  cases s.active with
  | none => rfl
  | some key =>
    dsimp only [through]
    cases s.catalog.target? key with
    | none => rfl
    | some t =>
      dsimp only
      rw [hv.feed]
      split <;> rfl

lemma apply (hv : IsView view) (rules : PassRules) (last : Bool) (e : Event) (s : Session σ) :
    (s.through view).apply rules last e = (s.apply rules last e).map (through view) := by
  cases e with
  | idle => rfl
  | boundary => exact hv.close s
  | file a flags =>
    rw [Session.apply, Session.apply, hv.close]
    exact Outcome.map_andThen (hv.file rules a flags)
  | data payload => exact hv.data payload s
  | badRecord w =>
    rw [Session.apply, Session.apply, hv.close]
    apply Outcome.map_andThen
    intro t
    split <;> rfl
  | badBlock w =>
    rw [Session.apply, Session.apply, hv.close]
    apply Outcome.map_andThen
    intro t
    split <;> rfl

lemma refresh (hv : IsView view) (s : Session σ) (r : Reader) : (s.through view).refresh r = s.refresh r := by
  rw [Session.refresh, Session.refresh]
  dsimp only [through]
  rw [hv.overwritten]

lemma walkBlocks (hv : IsView view) (rules : PassRules) (g : Geometry) (r : Reader) (s : Session σ) :
    SaveSet.walkBlocks rules g r (s.through view) =
      ⟨(SaveSet.walkBlocks rules g r s).outcome.map (through view), (SaveSet.walkBlocks rules g r s).reader⟩ := by
  have hall (last : Bool) (es : List Event) (s : Session σ) :
      (s.through view).applyAll rules last es = (s.applyAll rules last es).map (through view) :=
    Outcome.map_each (hv.apply rules last) es s
  fun_induction SaveSet.walkBlocks rules g r s with
  | case1 r s hend =>
    rw [walkBlocks_eq, if_pos hend]
    rfl
  | case2 r s hend f r' hread =>
    rw [walkBlocks_eq, if_neg hend, hv.refresh, hread]
    rfl
  | case3 r s hend bytes r' hread hb =>
    rw [walkBlocks_eq, if_neg hend, hv.refresh, hread]
    dsimp only
    rw [if_pos hb]
    rfl
  | case4 r s hend bytes r' hread hb t f ha =>
    rw [walkBlocks_eq, if_neg hend, hv.refresh, hread]
    dsimp only
    rw [if_neg hb, hall, ha]
    rfl
  | case5 r s hend bytes r' hread hb t ha hh ih =>
    rw [walkBlocks_eq, if_neg hend, hv.refresh, hread]
    dsimp only
    rw [if_neg hb, hall, ha]
    dsimp only [Outcome.map]
    rw [if_pos hh]
    exact ih
  | case6 r s hend bytes r' hread hb t ha hh =>
    rw [walkBlocks_eq, if_neg hend, hv.refresh, hread]
    dsimp only
    rw [if_neg hb, hall, ha]
    dsimp only [Outcome.map]
    rw [if_neg hh]
    rfl

end IsView

def PassState.through (view : σ → τ) (p : PassState σ) : PassState τ := { p with sink := view p.sink }

namespace IsView

lemma traverse (hv : IsView view) (rules : PassRules) (g : Geometry) (origin : Nat) (p : PassState σ) :
    SaveSet.traverse rules g origin (p.through view) =
      (SaveSet.traverse rules g origin p).map (PassState.through view) := by
  have hwalk := hv.walkBlocks rules g (p.reader.moveTo origin) { catalog := p.catalog.reset, sink := p.sink }
  dsimp only [Session.through] at hwalk
  rw [SaveSet.traverse]
  dsimp only [PassState.through]
  rw [hwalk]
  dsimp only [Outcome.map]
  rw [hv.close]
  rfl

lemma runPass (hv : IsView view) (o : Options) (g : Geometry) (origin : Nat) (pass : Pass) (p : PassState σ) :
    SaveSet.runPass o g origin pass (p.through view) =
      (SaveSet.runPass o g origin pass p).map (PassState.through view) := by
  rw [SaveSet.runPass, hv.traverse]
  exact Outcome.map_andThen fun q => rfl

lemma runPasses (hv : IsView view) (o : Options) (g : Geometry) (origin : Nat) (r : Reader) (s : σ) :
    SaveSet.runPasses o g origin r (view s) =
      (SaveSet.runPasses o g origin r s).map (PassState.through view) :=
  Outcome.map_each (hv.runPass o g origin) (passesOf o) ⟨.ofOptions o, s, r, {}, 0⟩

lemma run (hv : IsView view) (o : Options) (r : Reader) (s : σ) :
    SaveSet.run o r (view s) =
      ⟨(SaveSet.run o r s).result, (SaveSet.run o r s).reader, view (SaveSet.run o r s).sink⟩ := by
  rw [SaveSet.run, SaveSet.run]
  split
  · rfl
  · split
    · rfl
    · dsimp only
      split
      · rfl
      · rw [hv.runPasses]
        dsimp only [Outcome.map]
        split <;> rfl

end IsView

structure Sink.Keeps (P : σ → Prop) : Prop where
  openFile : ∀ r s, P s → P (Sink.openFile r s).2
  write : ∀ h data s, P s → P (Sink.write h data s).state
  closeFile : ∀ h s, P s → P (Sink.closeFile h s).state

namespace Sink.Keeps

variable {P : σ → Prop}

@[reducible]
def sink (hk : Keeps P) : Sink {s : σ // P s} where
  openFile r s := ((Sink.openFile r s.1).1, ⟨_, hk.openFile r s.1 s.2⟩)
  write h data s := ⟨⟨_, hk.write h data s.1 s.2⟩, (Sink.write h data s.1).fault⟩
  closeFile h s := ⟨⟨_, hk.closeFile h s.1 s.2⟩, (Sink.closeFile h s.1).fault⟩
  overwritten s := Sink.overwritten s.1

lemma run (hk : Keeps P) (o : Options) (r : Reader) {s : σ} (hs : P s) : P (SaveSet.run o r s).sink := by
  let _ : Sink {s : σ // P s} := hk.sink
  have hview : IsView (Subtype.val : {s : σ // P s} → σ) :=
    ⟨fun _ _ => rfl, fun _ _ _ => rfl, fun _ _ => rfl, fun _ => rfl⟩
  have hrun := hview.run o r ⟨s, hs⟩
  rw [hrun]
  exact (SaveSet.run o r (⟨s, hs⟩ : {s : σ // P s})).sink.2

end Sink.Keeps

end SaveSet
