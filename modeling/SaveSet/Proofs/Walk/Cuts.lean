import SaveSet.Output.Faulty
import SaveSet.Proofs.Walk.Holding
import SaveSet.Proofs.Walk.Views

/-! A sink beside another that answers alike until it fails. The calls on both are the same up to the first one that
fails, and nothing but the end of the open file comes behind it. -/

namespace SaveSet

inductive Demand where
  | openFile (request : OpenRequest)
  | write (handle : Handle) (data : Bytes)
  | closeFile (handle : Handle)
  deriving DecidableEq, Repr

namespace Call

def demand : Call → Demand
  | opened r _ | refused r _ => .openFile r
  | written h data _ => .write h data
  | closed h _ => .closeFile h

def fault? : Call → Option Fault
  | opened _ _ => none
  | refused _ f => some f
  | written _ _ f | closed _ f => f

def CleanedUp (after : List Call) : Call → Prop
  | written h _ _ => ∃ g, after = [.closed h g] ∨ ∃ f, after = [.written h LineEnds.hostEnd f, .closed h g]
  | opened _ _ | refused _ _ | closed _ _ => after = []

end Call

def FailsAt (whole cut : List Call) (c : Call) (f : Fault) (after : List Call) : Prop :=
  ∃ before answer later, whole = before ++ answer :: later ∧ cut = before ++ c :: after ∧
    (∀ b ∈ before, b.fault? = none) ∧ c.fault? = some f ∧ answer.demand = c.demand

namespace FailsAt

variable {whole cut after : List Call} {c : Call} {f : Fault}

lemma grow (h : FailsAt whole cut c f after) {longer : List Call} (hl : whole <+: longer) :
    FailsAt longer cut c f after := by
  obtain ⟨more, rfl⟩ := hl
  obtain ⟨before, answer, later, rfl, hcut⟩ := h
  exact ⟨before, answer, later ++ more, by simp, hcut⟩

lemma append (h : FailsAt whole cut c f after) (more : List Call) :
    FailsAt whole (cut ++ more) c f (after ++ more) := by
  obtain ⟨before, answer, later, hwhole, rfl, hrest⟩ := h
  exact ⟨before, answer, later, hwhole, by simp, hrest⟩

lemma first_fault (h : FailsAt whole cut c f after) : cut.findSome? Call.fault? = some f := by
  obtain ⟨before, answer, later, -, rfl, hbefore, hc, -⟩ := h
  rw [List.findSome?_append, List.findSome?_eq_none_iff.mpr hbefore, Option.none_or]
  simp [hc]

lemma first {calls : List Call} {answer : Call} (hcalls : ∀ b ∈ calls, b.fault? = none) (hc : c.fault? = some f)
    (hsame : answer.demand = c.demand) : FailsAt (calls ++ [answer]) (calls ++ [c]) c f [] :=
  ⟨calls, answer, [], rfl, rfl, hcalls, hc, hsame⟩

end FailsAt

/-- The calls are the same up to the first one that fails, with fault `f`; behind it only the open file is ended. -/
def CutOff (whole cut : List Call) (f : Fault) : Prop :=
  ∃ c after, FailsAt whole cut c f after ∧ c.CleanedUp after

lemma CutOff.grow {whole longer cut : List Call} {f : Fault} (h : CutOff whole cut f) (hl : whole <+: longer) :
    CutOff longer cut f := by
  obtain ⟨c, after, hfails, hclean⟩ := h
  exact ⟨c, after, hfails.grow hl, hclean⟩

lemma CutOff.first_fault {whole cut : List Call} {f : Fault} (h : CutOff whole cut f) :
    cut.findSome? Call.fault? = some f := by
  obtain ⟨c, after, hfails, -⟩ := h
  exact hfails.first_fault

namespace Outcome

variable {α α' β β' ι : Type} {o : Outcome α} {p : Outcome β}

lemma of_map_eq_ok {f : α → β} {t : β} (h : o.map f = .ok t) :
    ∃ s, o = .ok s ∧ f s = t := by
  rcases o with ⟨s, _ | e⟩
  · cases h
    exact ⟨s, rfl, rfl⟩
  · cases h

def Tracks (Same : α → β → Prop) (Cut : α → β → Fault → Prop) (o : Outcome α) (p : Outcome β) : Prop :=
  (∃ s t, o = .ok s ∧ p = .ok t ∧ Same s t) ∨ ∃ t f, p = .stop t f ∧ Cut o.state t f

variable {Same : α → β → Prop} {Cut : α → β → Fault → Prop}

lemma Tracks.map {Same' : α' → β' → Prop} {Cut' : α' → β' → Fault → Prop} (h : Tracks Same Cut o p) {g : α → α'}
    {g' : β → β'} (hsame : ∀ s t, Same s t → Same' (g s) (g' t)) (hcut : ∀ s t f, Cut s t f → Cut' (g s) (g' t) f) :
    Tracks Same' Cut' (o.map g) (p.map g') := by
  rcases h with ⟨s, t, rfl, rfl, h⟩ | ⟨t, f, rfl, h⟩
  · exact Or.inl ⟨_, _, rfl, rfl, hsame s t h⟩
  · exact Or.inr ⟨_, f, rfl, hcut _ t f h⟩

lemma Tracks.andThen (h : Tracks Same Cut o p) {step : α → Outcome α} {step' : β → Outcome β}
    (hstep : ∀ s t, o = .ok s → p = .ok t → Same s t → Tracks Same Cut (step s) (step' t))
    (hgrow : ∀ s t f, Cut s t f → Cut (step s).state t f) : Tracks Same Cut (o.andThen step) (p.andThen step') := by
  rcases h with ⟨s, t, rfl, rfl, h⟩ | ⟨t, f, rfl, h⟩
  · exact hstep s t rfl rfl h
  · refine Or.inr ⟨t, f, rfl, ?_⟩
    rcases o with ⟨s, _ | f'⟩
    · exact hgrow s t f h
    · exact h

lemma Tracks.each {step : ι → α → Outcome α} {step' : ι → β → Outcome β}
    (hstep : ∀ x s t, Same s t → Tracks Same Cut (step x s) (step' x t))
    (hgrow : ∀ x s t f, Cut s t f → Cut (step x s).state t f) (xs : List ι) {s : α} {t : β} (h : Same s t) :
    Tracks Same Cut (each step xs s) (each step' xs t) := by
  induction xs generalizing s t with
  | nil => exact Or.inl ⟨s, t, rfl, rfl, h⟩
  | cons x xs ih =>
    rw [each_cons, each_cons]
    apply (hstep x s t h).andThen
    · intro s t _ _ h
      exact ih h
    · intro s t f h
      exact state_each (P := fun s => Cut s t f) (fun x s h => hgrow x s t f h) xs h

end Outcome

/-- What `τ` does without failing, `σ` does as well and with the same answer, from states that `R` relates. -/
structure Mimics {σ τ : Type} [Sink σ] [Sink τ] (R : σ → τ → Prop) : Prop where
  openFile : ∀ {s t}, R s t → ∀ {r h t'}, Sink.openFile r t = (.ok h, t') →
    ∃ s', Sink.openFile r s = (.ok h, s') ∧ R s' t'
  write : ∀ {s t}, R s t → ∀ {h data t'}, Sink.write h data t = .ok t' → ∃ s', Sink.write h data s = .ok s' ∧ R s' t'
  closeFile : ∀ {s t}, R s t → ∀ {h t'}, Sink.closeFile h t = .ok t' → ∃ s', Sink.closeFile h s = .ok s' ∧ R s' t'
  overwritten : ∀ {s t}, R s t → Sink.overwritten t = Sink.overwritten s

lemma Faulty.mimics {σ : Type} [Sink σ] : Mimics fun (s : σ) (t : Faulty σ) => t.sink = s where
  openFile {s t} hs r h t' hopen := by
    subst hs
    change Faulty.openFile r t = _ at hopen
    rw [openFile] at hopen
    split at hopen
    · cases (Prod.mk.inj hopen).1
    · obtain ⟨hanswer, rfl⟩ := Prod.mk.inj hopen
      exact ⟨_, Prod.ext hanswer rfl, rfl⟩
  write {s t} hs h data t' hwrite := by
    subst hs
    change Faulty.write h data t = _ at hwrite
    rw [write] at hwrite
    split at hwrite
    · cases hwrite
    · obtain ⟨s', hs', rfl⟩ := Outcome.of_map_eq_ok hwrite
      exact ⟨s', hs', rfl⟩
  closeFile {s t} hs h t' hclose := by
    subst hs
    change Faulty.closeFile h t = _ at hclose
    rw [closeFile] at hclose
    split at hclose
    · cases hclose
    · obtain ⟨s', hs', rfl⟩ := Outcome.of_map_eq_ok hclose
      exact ⟨s', hs', rfl⟩
  overwritten {s t} hs := by
    subst hs
    rfl

variable {σ τ : Type} {R : σ → τ → Prop}

structure Alike (R : σ → τ → Prop) (s : Journaled σ) (t : Journaled τ) : Prop where
  sink : R s.sink t.sink
  calls : t.calls = s.calls
  sound : ∀ c ∈ s.calls, c.fault? = none

def WriteFails (h : Handle) (s : Journaled σ) (t : Journaled τ) (f : Fault) : Prop :=
  ∃ data, FailsAt s.calls t.calls (.written h data (some f)) f []

lemma Alike.snoc {s s' : Journaled σ} {t t' : Journaled τ} (h : Alike R s t) {c : Call} (hc : c.fault? = none)
    (hs : s'.calls = s.calls ++ [c]) (ht : t'.calls = t.calls ++ [c]) (hR : R s'.sink t'.sink) : Alike R s' t' where
  sink := hR
  calls := by rw [hs, ht, h.calls]
  sound := by
    rw [hs]
    intro d hd
    rcases List.mem_append.mp hd with hd | hd
    · exact h.sound d hd
    · rw [List.mem_singleton.mp hd]
      exact hc

lemma Alike.answered {s : Journaled σ} {t : Journaled τ} (h : Alike R s t) {o : Outcome σ} {p : Outcome τ}
    (hp : ∀ t', p = .ok t' → ∃ s', o = .ok s' ∧ R s' t') {c : Option Fault → Call} (hfault : ∀ f, (c f).fault? = f)
    (hdemand : ∀ f g, (c f).demand = (c g).demand) :
    Outcome.Tracks (Alike R) (fun s t f => FailsAt s.calls t.calls (c (some f)) f [])
      ⟨⟨o.state, s.calls ++ [c o.fault]⟩, o.fault⟩ ⟨⟨p.state, t.calls ++ [c p.fault]⟩, p.fault⟩ := by
  rcases p with ⟨t', _ | f⟩
  · obtain ⟨s', rfl, hR⟩ := hp t' rfl
    exact Or.inl ⟨_, _, rfl, rfl, h.snoc (hfault none) rfl rfl hR⟩
  · refine Or.inr ⟨_, f, rfl, ?_⟩
    rw [h.calls]
    exact FailsAt.first h.sound (hfault _) (hdemand _ _)

variable [Sink σ] [Sink τ] {s : Journaled σ} {t : Journaled τ}

lemma Alike.write (hR : Mimics R) (h : Alike R s t) (handle : Handle) (data : Bytes) :
    Outcome.Tracks (Alike R) (fun s t f => FailsAt s.calls t.calls (.written handle data (some f)) f [])
      (Sink.write handle data s) (Sink.write handle data t) :=
  h.answered (c := .written handle data) (fun _ => hR.write h.sink) (fun _ => rfl) fun _ _ => rfl

lemma Alike.closeFile (hR : Mimics R) (h : Alike R s t) (handle : Handle) :
    Outcome.Tracks (Alike R) (fun s t f => FailsAt s.calls t.calls (.closed handle (some f)) f [])
      (Sink.closeFile handle s) (Sink.closeFile handle t) :=
  h.answered (c := .closed handle) (fun _ => hR.closeFile h.sink) (fun _ => rfl) fun _ _ => rfl

lemma Alike.openFile (hR : Mimics R) (h : Alike R s t) (request : OpenRequest) :
    (∃ handle s' t', Sink.openFile request s = (.ok handle, s') ∧ Sink.openFile request t = (.ok handle, t') ∧
        Alike R s' t') ∨
      ∃ f t', Sink.openFile request t = (.error f, t') ∧
        FailsAt (Sink.openFile request s).2.calls t'.calls (.refused request f) f [] := by
  change (∃ handle s' t', Journaled.openFile request s = _ ∧ Journaled.openFile request t = _ ∧ _) ∨
    ∃ f t', Journaled.openFile request t = _ ∧ FailsAt (Journaled.openFile request s).2.calls _ _ _ _
  rw [Journaled.openFile, Journaled.openFile]
  cases ht : Sink.openFile request t.sink with
  | mk answer out =>
    cases answer with
    | ok handle =>
      obtain ⟨out', hs, hout⟩ := hR.openFile h.sink ht
      rw [hs]
      exact Or.inl ⟨handle, _, _, rfl, rfl, h.snoc rfl rfl rfl hout⟩
    | error f =>
      refine Or.inr ⟨f, _, rfl, ?_⟩
      rw [h.calls]
      split <;> exact FailsAt.first h.sound rfl rfl

lemma deliver_grows (handle : Handle) (final : Content) (ws : List Write) (s : Journaled σ) :
    s.calls <+: (deliver handle final ws s).state.2.calls := by
  induction ws generalizing s with
  | nil => exact List.prefix_rfl
  | cons w ws ih =>
    have hw : s.calls <+: (Sink.write handle w.bytes s).state.calls := List.prefix_append _ _
    rw [deliver]
    split
    · next u he =>
      rw [he] at hw
      exact hw.trans (ih u)
    · next u f he =>
      rw [he] at hw
      exact hw

lemma Alike.deliver (hR : Mimics R) (handle : Handle) (final : Content) (ws : List Write) (h : Alike R s t) :
    Outcome.Tracks (fun p q => q.1 = p.1 ∧ Alike R p.2 q.2) (fun p q f => WriteFails handle p.2 q.2 f)
      (deliver handle final ws s) (deliver handle final ws t) := by
  induction ws generalizing s t with
  | nil => exact Or.inl ⟨_, _, rfl, rfl, rfl, h⟩
  | cons w ws ih =>
    rw [SaveSet.deliver, SaveSet.deliver]
    rcases h.write hR handle w.bytes with ⟨s', t', hs, ht, hwrite⟩ | ⟨t', f, ht, hcut⟩
    · rw [hs, ht]
      exact ih hwrite
    · refine Or.inr ⟨(w.refused, t'), f, by rw [ht]; rfl, w.bytes, ?_⟩
      split
      · next u hs =>
        rw [hs] at hcut
        exact hcut.grow (deliver_grows handle final ws u)
      · next u f' hs =>
        rw [hs] at hcut
        exact hcut

lemma deliver_single (handle : Handle) (final : Content) (w : Write) (s : Journaled σ) :
    (deliver handle final [w] s).state.2.calls =
      s.calls ++ [.written handle w.bytes (Sink.write handle w.bytes s).fault] := by
  change _ = (Sink.write handle w.bytes s).state.calls
  rw [deliver]
  split
  · next u he =>
    rw [he]
    rfl
  · next u f he =>
    rw [he]
    rfl

lemma Content.writes_finish (c : Content) : c.finish.writes = [] ∨ ∃ d, c.finish.writes = [⟨LineEnds.hostEnd, d⟩] := by
  cases hp : c.lines.pending with
  | false =>
    left
    simp [Content.finish, LineEnds.finish, hp, piece]
  | true =>
    right
    simp [Content.finish, LineEnds.finish, hp, piece, LineEnds.hostEnd]

namespace Target

variable {t : Target} {handle : Handle} {s : Journaled σ} {u : Journaled τ}

lemma put_tracks (hR : Mimics R) (hh : t.handle = some handle) (e : Emission Content) (h : Alike R s u) :
    Outcome.Tracks (fun p q => q.1 = p.1 ∧ Alike R p.2 q.2)
      (fun p q f => q.1.handle = some handle ∧ WriteFails handle p.2 q.2 f) (t.put e s) (t.put e u) := by
  rw [put, put, hh]
  apply (h.deliver hR handle e.value e.writes).map
  · rintro p q ⟨hcontent, hsink⟩
    exact ⟨by rw [hcontent], hsink⟩
  · intro p q f hcut
    exact ⟨rfl, hcut⟩

lemma finish_calls (hh : t.handle = some handle) (s : Journaled σ) :
    (t.finish s).state.2.calls = s.calls ∨
      ∃ f, (t.finish s).state.2.calls = s.calls ++ [.written handle LineEnds.hostEnd f] := by
  have hput : (t.finish s).state.2 = (deliver handle t.content.finish.value t.content.finish.writes s).state.2 := by
    simp [finish, put, hh, Outcome.map]
  rw [hput]
  rcases t.content.writes_finish with hnone | ⟨c, hend⟩
  · left
    rw [hnone]
    rfl
  · right
    rw [hend]
    exact ⟨_, deliver_single handle _ ⟨LineEnds.hostEnd, c⟩ s⟩

lemma finish_tracks (hR : Mimics R) (hh : t.handle = some handle) (h : Alike R s u) :
    Outcome.Tracks (fun p q => q.1 = p.1 ∧ Alike R p.2 q.2)
      (fun p q f => q.1.handle = some handle ∧ WriteFails handle p.2 q.2 f) (t.finish s) (t.finish u) := by
  rw [finish_held hh, finish_held hh]
  exact put_tracks hR hh _ h

lemma close_calls (hh : t.handle = some handle) (data : Bytes) (fault : Option Fault) (s : Journaled σ) :
    ∃ after, (t.close handle s).state.2.calls = s.calls ++ after ∧
      (Call.written handle data fault).CleanedUp after := by
  let g := (Sink.closeFile handle (t.finish s).state.2).fault
  change ∃ after, (t.finish s).state.2.calls ++ [.closed handle g] = s.calls ++ after ∧ Call.CleanedUp after _
  rcases finish_calls hh s with h | ⟨f, h⟩
  · rw [h]
    exact ⟨_, rfl, _, Or.inl rfl⟩
  · rw [h, List.append_assoc]
    exact ⟨_, rfl, _, Or.inr ⟨f, rfl⟩⟩

lemma close_tracks (hR : Mimics R) (hh : t.handle = some handle) (h : Alike R s u) :
    Outcome.Tracks (fun p q => q.1 = p.1 ∧ Alike R p.2 q.2) (fun p q f => CutOff p.2.calls q.2.calls f)
      (t.close handle s) (t.close handle u) := by
  rw [close, close]
  rcases finish_tracks hR hh h with ⟨⟨v, p⟩, ⟨_, q⟩, hp, hq, rfl, halike⟩ | ⟨q, f, hq, _, data, hcut⟩
  · rw [hp, hq]
    dsimp only [Outcome.ok]
    rcases halike.closeFile hR handle with ⟨p', q', hp', hq', hclosed⟩ | ⟨q', f, hq', hcut⟩
    · rw [hp', hq']
      exact Or.inl ⟨_, _, rfl, rfl, rfl, hclosed⟩
    · rw [hq']
      exact Or.inr ⟨_, f, rfl, .closed handle (some f), [], hcut, rfl⟩
  · -- The first fault stands, however the call that closes the file ends.
    rw [hq]
    let g := (Sink.closeFile handle q.2).fault
    refine Or.inr ⟨_, f, rfl, .written handle data (some f), [.closed handle g], ?_, g, Or.inl rfl⟩
    exact (hcut.append [.closed handle g]).grow (List.prefix_append _ _)

end Target

end SaveSet
