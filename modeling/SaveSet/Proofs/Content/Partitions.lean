import SaveSet.Proofs.Content.Reassembly

/-! Where a stream of records is cut into payloads leaves no trace, not in a stream that makes no sense
either: the machine knows no cuts, and all that a target keeps of the stream can be read off the machine. -/

namespace SaveSet

open Content ByteMachine

namespace Content

variable {m : ByteMachine} {c d : Content} {x : State}

def unmarked (c : Content) : Content := { c with lines := { c.lines with containsEnd := false } }

lemma Follows.unique (hc : Follows m c x) (hd : Follows m d x) (hreset : c.reset = d.reset)
    (hsettled : c.settled = d.settled) : c.unmarked = d.unmarked := by
  have hlines : { c.lines with containsEnd := false } = { d.lines with containsEnd := false } := by
    dsimp only
    rw [hc.pending, hd.pending, hc.lastEnded, hd.lastEnded]
  have hposition := hc.position.trans hd.position.symm
  have hcarry := hc.carry.trans hd.carry.symm
  have hoffset := hc.offset.trans hd.offset.symm
  injection hreset with hsize hformat hmode
  rw [unmarked, unmarked, hlines, hsize, hformat, hmode, hposition, hsettled, hcarry, hoffset]

lemma Follows.finish (h : Follows m c x) : Follows m c.finish.value { x with pending := false, out := x.total } :=
  ⟨⟨⟨h.position, rfl, h.lastEnded⟩, h.carry, h.proper⟩, h.machine, h.offset⟩

end Content

def FileSink.Grew {σ : Type} [Sink σ] [FileSink σ] (bytes : Bytes) (s out : σ) : Prop :=
  ∃ fs f, FileSink.files s = fs ++ [f] ∧ FileSink.files out = fs ++ [f.append bytes]

lemma FileSink.Grew.unique {σ : Type} [Sink σ] [FileSink σ] {xs ys : Bytes} {s out : σ}
    (hx : FileSink.Grew xs s out) (hy : FileSink.Grew ys s out) : xs = ys := by
  obtain ⟨fs, f, hs, hout⟩ := hx
  obtain ⟨gs, g, hs', hout'⟩ := hy
  obtain ⟨-, hfg⟩ := List.append_inj' (hs.symm.trans hs') rfl
  obtain ⟨-, happend⟩ := List.append_inj' (hout.symm.trans hout') rfl
  obtain rfl : f = g := List.singleton_inj.mp hfg
  exact List.append_cancel_left (congrArg OutputFile.data (List.singleton_inj.mp happend))

namespace Target

def unmarked (t : Target) : Target := { t with content := t.content.unmarked }

variable {σ : Type} [Sink σ] [FileSink σ]

def Writes (t : Target) (s : σ) (payloads : List Bytes) (bytes : Bytes) : Prop :=
  ∃ u out, ((t.feedAll payloads s).andThen fun r => r.1.finish r.2) = .ok (u, out) ∧ FileSink.Grew bytes s out

lemma Writes.unique {t : Target} {s : σ} {payloads : List Bytes} {xs ys : Bytes} (hx : t.Writes s payloads xs)
    (hy : t.Writes s payloads ys) : xs = ys := by
  obtain ⟨u, out, hu, hgrew⟩ := hx
  obtain ⟨v, out', hv, hgrew'⟩ := hy
  have hout := congrArg Outcome.state (hu.symm.trans hv)
  obtain rfl : out = out' := congrArg Prod.snd hout
  exact hgrew.unique hgrew'

/-- The target `t` and its sink once the machine is in the state `x`. All that the machine has put out stands
in the last file, behind what is in `f`. -/
structure Reached (t : Target) (fs : List OutputFile) (f : OutputFile) (x : State) (r : Target × σ) : Prop where
  target : r.1 = { t with content := r.1.content }
  reset : r.1.content.reset = t.content.reset
  framed : Framed r.1.content
  follows : Follows t.content.machine r.1.content x
  isOpen : ∃ h, t.handle = some h ∧ FileSink.IsOpen h r.2
  files : FileSink.files r.2 = fs ++ [f.append x.out]

variable {t : Target} {s : σ} {fs : List OutputFile} {f : OutputFile} {x y : State} {r q : Target × σ}

lemma reached_start {h : Handle} (hf : t.content.format.isVariable = true)
    (hm : t.content.mode = .binary ∨ t.content.mode = .ascii) (hfresh : t.content = t.content.reset)
    (hh : t.handle = some h) (ho : FileSink.IsOpen h s) (hfiles : FileSink.files s = fs ++ [f]) :
    Reached t fs f {} (t, s) where
  target := rfl
  reset := rfl
  framed := hfresh ▸ framed_reset hf hm
  follows := by
    have hreset : Follows t.content.machine t.content.reset {} := follows_reset t.content
    rw [← hfresh] at hreset
    exact hreset
  isOpen := ⟨h, hh, ho⟩
  files := by rw [hfiles, OutputFile.append_nil]

lemma Reached.held (h : Reached t fs f x r) : ∃ handle, r.1.handle = some handle ∧ t.handle = some handle ∧
    FileSink.IsOpen handle r.2 := by
  obtain ⟨handle, hh, ho⟩ := h.isOpen
  refine ⟨handle, ?_, hh, ho⟩
  rw [h.target]
  exact hh

lemma Reached.put (h : Reached t fs f x r) {e : Emission Content} (hout : y.out = x.out ++ e.bytes)
    (hreset : e.value.reset = r.1.content.reset) (hframed : Framed e.value)
    (hfollows : Follows t.content.machine e.value y) : ∃ q, r.1.put e r.2 = .ok q ∧ Reached t fs f y q := by
  obtain ⟨handle, hheld, hh, ho⟩ := h.held
  obtain ⟨out, hput, hopen, hfiles⟩ := put_open e hheld ho h.files
  refine ⟨_, hput, ?_, hreset.trans h.reset, hframed, hfollows, ⟨handle, hh, hopen⟩, ?_⟩
  · dsimp only
    rw [h.target]
  · rw [hfiles, OutputFile.append_append, hout]

lemma Reached.feed (h : Reached t fs f x r) (payload : Bytes) :
    ∃ q, r.1.feed payload r.2 = .ok q ∧ Reached t fs f (t.content.machine.run x payload) q := by
  obtain ⟨hout, hfollows⟩ := follows_feedRecords h.follows payload
  rw [← h.framed.feed_eq] at hout hfollows
  obtain ⟨handle, hheld, -⟩ := h.held
  rw [feed_held hheld]
  exact h.put hout (reset_feed (Or.inl rfl) payload) (h.framed.feed payload) hfollows

lemma Reached.feedAll (h : Reached t fs f x r) (payloads : List Bytes) :
    ∃ q, r.1.feedAll payloads r.2 = .ok q ∧ Reached t fs f (t.content.machine.run x payloads.flatten) q := by
  induction payloads generalizing x r with
  | nil => exact ⟨r, rfl, h⟩
  | cons p ps ih =>
    obtain ⟨q, hq, hreached⟩ := h.feed p
    obtain ⟨q', hq', hreached'⟩ := ih hreached
    refine ⟨q', ?_, ?_⟩
    · rw [Target.feedAll, Outcome.each_cons, hq, Outcome.andThen_ok]
      exact hq'
    · rw [List.flatten_cons, run_append]
      exact hreached'

lemma Reached.finish (h : Reached t fs f x r) :
    ∃ q, r.1.finish r.2 = .ok q ∧ Reached t fs f { x with pending := false, out := x.total } q := by
  have hframed : Framed r.1.content.finish.value := ⟨h.framed.isVariable, h.framed.mode_ne_raw, h.framed.unsettled⟩
  have hout : x.total = x.out ++ r.1.content.finish.bytes := by
    rw [State.total, bytes_finish, h.follows.pending]
  obtain ⟨handle, hheld, -⟩ := h.held
  rw [finish_held hheld]
  exact h.put hout (reset_finish _) hframed h.follows.finish

lemma Reached.rebase (h : Reached t fs f x r) : Reached t fs (f.append x.out) { x with out := [] } r where
  target := h.target
  reset := h.reset
  framed := h.framed
  follows := ⟨⟨⟨h.follows.position, h.follows.pending, h.follows.lastEnded⟩, h.follows.carry, h.follows.proper⟩,
    h.follows.machine, h.follows.offset⟩
  isOpen := h.isOpen
  files := by rw [h.files, OutputFile.append_nil]

lemma Reached.unique (hr : Reached t fs f x r) (hq : Reached t fs f x q) : r.1.unmarked = q.1.unmarked := by
  rw [unmarked, unmarked, hr.follows.unique hq.follows (hr.reset.trans hq.reset.symm)
    (hr.framed.unsettled.trans hq.framed.unsettled.symm), hr.target, hq.target]

lemma Reached.grew (hr : Reached t fs f x r) (hout : x.out = []) (hq : Reached t fs f y q) :
    FileSink.Grew y.out r.2 q.2 :=
  ⟨fs, f, by rw [hr.files, hout, OutputFile.append_nil], hq.files⟩

lemma Reached.writes (h : Reached t fs f x r) (hout : x.out = []) (payloads : List Bytes) :
    r.1.Writes r.2 payloads (t.content.machine.run x payloads.flatten).total := by
  obtain ⟨q, hq, hreached⟩ := h.feedAll payloads
  obtain ⟨q', hq', hreached'⟩ := hreached.finish
  refine ⟨q'.1, q'.2, ?_, h.grew hout hreached'⟩
  rw [hq, Outcome.andThen_ok]
  exact hq'

/-- After any payloads, two more may as well be one, and all that counts of any more is the bytes that they are
together. -/
theorem cuts_leave_no_trace {h : Handle} (hf : t.content.format.isVariable = true)
    (hm : t.content.mode = .binary ∨ t.content.mode = .ascii) (hfresh : t.content = t.content.reset)
    (hh : t.handle = some h) (ho : FileSink.IsOpen h s) (hfiles : FileSink.files s = fs ++ [f])
    (earlier : List Bytes) :
    ∃ u mid, t.feedAll earlier s = .ok (u, mid) ∧
      (∀ a b, ∃ v w one two bytes, u.feed (a ++ b) mid = .ok (v, one) ∧
        ((u.feed a mid).andThen fun r => r.1.feed b r.2) = .ok (w, two) ∧
        FileSink.Grew bytes mid one ∧ FileSink.Grew bytes mid two ∧ v.unmarked = w.unmarked) ∧
      ∀ ps qs, ps.flatten = qs.flatten → ∃ bytes, u.Writes mid ps bytes ∧ u.Writes mid qs bytes := by
  obtain ⟨⟨u, mid⟩, hu, hreached⟩ := (reached_start hf hm hfresh hh ho hfiles).feedAll earlier
  -- What the earlier payloads have put out is taken for a part of the file that was there before.
  have hbase := hreached.rebase
  refine ⟨u, mid, hu, fun a b => ?_, fun ps qs hpq => ?_⟩
  · obtain ⟨⟨v, one⟩, hone, hv⟩ := hbase.feed (a ++ b)
    obtain ⟨⟨v', two⟩, htwo, hv'⟩ := hbase.feed a
    obtain ⟨⟨w, three⟩, hthree, hw⟩ := hv'.feed b
    rw [← run_append] at hw
    refine ⟨v, w, one, three, _, hone, ?_, hbase.grew rfl hv, hbase.grew rfl hw, hv.unique hw⟩
    rw [htwo, Outcome.andThen_ok]
    exact hthree
  · have hp := hbase.writes rfl ps
    rw [hpq] at hp
    exact ⟨_, hp, hbase.writes rfl qs⟩

lemma files_openedRecords : FileSink.files openedRecords = [] ++ [.ofRequest ⟨"A.B;1", ⟨0⟩, ⟨0⟩⟩] := rfl

theorem cuts_in_a_control_area_leave_no_trace :
    ∃ u mid, openRecords.feedAll [[5], [0, 1]] openedRecords = .ok (u, mid) ∧
      (∀ a b, ∃ v w one two bytes, u.feed (a ++ b) mid = .ok (v, one) ∧
        ((u.feed a mid).andThen fun r => r.1.feed b r.2) = .ok (w, two) ∧
        FileSink.Grew bytes mid one ∧ FileSink.Grew bytes mid two ∧ v.unmarked = w.unmarked) ∧
      ∀ ps qs, ps.flatten = qs.flatten → ∃ bytes, u.Writes mid ps bytes ∧ u.Writes mid qs bytes :=
  cuts_leave_no_trace rfl (Or.inr rfl) rfl rfl rfl files_openedRecords [[5], [0, 1]]

end Target

end SaveSet
