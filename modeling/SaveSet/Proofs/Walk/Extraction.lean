import SaveSet.Proofs.Walk.Scan

namespace SaveSet

open Content

def Content.settle (c : Content) : Content := { c.reset with mode := c.mode.settle }

lemma ContentMode.settle_settle (mode : ContentMode) : mode.settle.settle = mode.settle := by
  cases mode <;> rfl

variable {o : Options} {prior ms seen : List Member}

structure Prepared (o : Options) (prior ms : List Member) : Prop where
  wants_eq : ∀ seen m later, ms = seen ++ m :: later → o.wants (prior ++ (seen ++ [m])) m = o.wants ms m
  declared_eq : ∀ seen m later, ms = seen ++ m :: later →
    declared (prior ++ (seen ++ [m])) m.key = declared ms m.key
  mode_eq : ∀ m ∈ ms, declared prior m.key = none → o.mode.settle = o.modeOf ms m.key

lemma subset_of_eq {m : Member} {later : List Member} (h : ms = seen ++ m :: later) : seen ++ [m] ⊆ ms := by
  rw [h]
  intro n hn
  simp only [List.mem_append, List.mem_singleton] at hn
  rcases hn with hn | rfl
  · exact List.mem_append_left _ hn
  · exact List.mem_append_right _ List.mem_cons_self

lemma prepared_scanned (o : Options) (ms : List Member) : Prepared o ms ms where
  wants_eq seen m later h := o.wants_again (subset_of_eq h) m
  declared_eq seen m later h := by
    obtain ⟨d, hd, -⟩ := declared_of_mem (subset_of_eq h (List.mem_append_right _ (List.mem_singleton_self m)))
    rw [hd, declared_append hd]
  mode_eq m hm hd := by
    obtain ⟨d, hd', -⟩ := declared_of_mem hm
    rw [hd'] at hd
    cases hd

lemma scannedMode_unscanned (h : (o.extract && o.mode == .smart) = false) (ms : List Member) (key : String) :
    o.scannedMode ms key = o.mode := by
  rw [Options.scannedMode, if_neg]
  intro hs
  obtain ⟨before, m, later, -, -, hb⟩ := (o.sniffs_iff ms key).mp hs
  rw [Options.betrays_of_not_scanned h] at hb
  exact Bool.false_ne_true hb

lemma modeOf_of_ne_smart (h : o.mode ≠ .smart) (ms : List Member) (key : String) :
    o.modeOf ms key = o.mode := by
  have hn : (o.extract && o.mode == .smart) = false := by simp [h]
  rw [Options.modeOf, scannedMode_unscanned hn]
  exact if_neg h

lemma prepared_unscanned (h : o.needsScan = false) (ms : List Member) : Prepared o [] ms := by
  obtain ⟨hsmart, hrel⟩ := Bool.or_eq_false_iff.mp h
  refine ⟨fun seen m later _ => o.wants_absolute hrel _ _ _, fun seen m later hms => ?_, fun m _ _ => ?_⟩
  · obtain ⟨d, hd, -⟩ := declared_of_mem (List.mem_append_right seen (List.mem_singleton_self m))
    have hall : ms = seen ++ [m] ++ later := by simp [hms]
    rw [List.nil_append, hd, hall, declared_append hd]
  · rw [Options.modeOf, scannedMode_unscanned hsmart]

structure Extracting (o : Options) (prior ms seen : List Member) (c : Catalog) : Prop where
  knows : c.Knows o (prior ++ seen)
  shows : c.Shows Content.settle fun k => (declared (prior ++ seen) k).map fun d => d.content (o.modeOf ms k)

lemma Scanned.extracting {c : Catalog} (h : Scanned o ms c) : Extracting o ms ms [] c.reset where
  knows := by
    rw [List.append_nil]
    exact h.knows.agrees ⟨rfl, rfl, rfl, rfl⟩
  shows := by
    rw [List.append_nil]
    refine Catalog.Shows.reset (fun x => rfl) ⟨fun k => ?_, h.shows.closed⟩
    have hview := congrArg (Option.map Content.settle) (h.shows.content k)
    rw [Option.map_map, Option.map_map] at hview
    exact hview

namespace Member

def ended (o : Options) (ms : List Member) (m : Member) : Content :=
  (absorbAll true m.payloads (m.started o ms)).value

end Member

namespace Passage

def wanted? (o : Options) (ms : List Member) (p : Passage) : Option Member := p.member?.filter (o.wants ms)

def listed (o : Options) (ms : List Member) (p : Passage) : List Listed :=
  (p.wanted? o ms).toList.map fun m => ⟨m.attributes, m.flags⟩

def written (o : Options) (ms : List Member) (p : Passage) : List OutputFile :=
  if o.extract then (p.wanted? o ms).toList.map (Member.written o ms) else []

def warned (o : Options) (ms : List Member) (p : Passage) : List Warning :=
  match p with
  | member m =>
    if o.extract && o.wants ms m then Session.shortfall m.key (m.ended o ms) else []
  | badRecord w last => if Session.reportsRecord (.ofOptions o .extract) last then [w] else []
  | badBlock w last => if Session.reportsBlock (.ofOptions o .extract) last then [w] else []

end Passage

variable {σ : Type} [Sink σ] [FileSink σ]

structure Session.Gains (s t : Session σ) (listed : List Listed) (written : List OutputFile)
    (warnings : List Warning) : Prop where
  files : FileSink.files t.sink = FileSink.files s.sink ++ written
  listed : t.report.files.toList = s.report.files.toList ++ listed
  extracted : t.report.extracted = s.report.extracted + written.length
  warnings : t.report.warnings.toList = s.report.warnings.toList ++ warnings

lemma Session.Gains.refl (s : Session σ) : s.Gains s [] [] [] := by
  constructor <;> simp

lemma Session.Gains.trans {s t u : Session σ} {l l' : List Listed} {f f' : List OutputFile}
    {w w' : List Warning} (h : s.Gains t l f w) (h' : t.Gains u l' f' w') :
    s.Gains u (l ++ l') (f ++ f') (w ++ w') where
  files := by rw [h'.files, h.files, List.append_assoc]
  listed := by rw [h'.listed, h.listed, List.append_assoc]
  extracted := by rw [h'.extracted, h.extracted, List.length_append, Nat.add_assoc]
  warnings := by rw [h'.warnings, h.warnings, List.append_assoc]

lemma settle_of_reset {x : Content} {d : Member} {key : String}
    (h : x.reset = d.content (o.modeOf ms key)) : x.settle = d.content (o.modeOf ms key) := by
  have hmode : x.mode = o.modeOf ms key := congrArg Content.mode h
  rw [Content.settle, h, hmode, Options.modeOf, ContentMode.settle_settle]
  rfl

lemma Extracting.register {c : Catalog} (hprior : Prepared o prior ms) {m : Member} {later : List Member}
    (hms : ms = seen ++ m :: later) (h : Extracting o prior ms seen c) :
    Extracting o prior ms (seen ++ [m]) (c.register m.attributes).2 ∧
      (c.register m.attributes).1.selected = o.wants ms m := by
  refine ⟨⟨?_, ?_⟩, ?_⟩
  · rw [← List.append_assoc]
    exact h.knows.register m
  · rw [← List.append_assoc]
    refine h.shows.register h.knows m fun hd => ?_
    have hprior' : declared prior m.key = none := by
      cases hp : declared prior m.key with
      | none => rfl
      | some d =>
        rw [declared_append hp] at hd
        cases hd
    have hm : m ∈ ms := by rw [hms]; exact List.mem_append_right _ List.mem_cons_self
    rw [← hprior.mode_eq m hm hprior']
    rfl
  · rw [h.knows.register_selected, List.append_assoc, hprior.wants_eq seen m later hms]

namespace Session

variable {rules : PassRules} {s : Session σ} {m : Member} {later : List Member}

lemma start_open {key : String} (a : FileAttributes) (flags : RecordFlags) {u : Target}
    (hp : rules.pass = .extract) (hx : rules.extract = true) (hu : s.catalog.target? key = some u) :
    ∃ handle t, start rules key a flags s = .ok t ∧ t.active = some key ∧
      s.catalog.SetTo t.catalog key { startExtract u with handle := some handle } ∧
      FileSink.IsOpen handle t.sink ∧
      FileSink.files t.sink = FileSink.files s.sink ++ [.ofRequest ⟨key, a.created, a.revised⟩] ∧
      t.report = { s.report with
        files := s.report.files.push ⟨a, flags⟩, extracted := s.report.extracted + 1 } := by
  obtain ⟨handle, out, hopen, hisopen, hfiles⟩ :=
    FileSink.openFile_ok ⟨key, a.created, a.revised⟩ s.sink
  have hset := Catalog.setTo_modify hu startExtract
  refine ⟨handle, ⟨(s.catalog.modify key startExtract).modify key fun t => { t with handle := some handle },
    out, some key, _⟩, ?_, rfl, hset.trans (Catalog.setTo_modify hset.target_eq _), hisopen, hfiles, rfl⟩
  rw [start, hp]
  dsimp only
  rw [if_pos hx, hopen]
  rfl

omit [FileSink σ] in
lemma start_listing {key : String} (a : FileAttributes) (flags : RecordFlags) {u : Target}
    (hp : rules.pass = .extract) (hx : rules.extract = false) (hu : s.catalog.target? key = some u) :
    ∃ t, start rules key a flags s = .ok t ∧ t.active = some key ∧
      s.catalog.SetTo t.catalog key (startListing u) ∧ t.sink = s.sink ∧
      t.report = { s.report with files := s.report.files.push ⟨a, flags⟩ } := by
  refine ⟨⟨s.catalog.modify key startListing, s.sink, some key, _⟩, ?_, rfl,
    Catalog.setTo_modify hu startListing, rfl, rfl⟩
  rw [start, hp]
  dsimp only
  rw [hx, if_neg Bool.false_ne_true]
  rfl

lemma extract_wanted (hx : o.extract = true) (hprior : Prepared o prior ms)
    (hms : ms = seen ++ m :: later) (h : Extracting o prior ms seen s.catalog) (hw : o.wants ms m = true) :
    ∃ t, s.member (.ofOptions o .extract) m = .ok t ∧ t.active = none ∧
      Extracting o prior ms (seen ++ [m]) t.catalog ∧
      s.Gains t [⟨m.attributes, m.flags⟩] [m.written o ms] (shortfall m.key (m.ended o ms)) := by
  obtain ⟨⟨hknows, hshows⟩, hsel⟩ := h.register hprior hms
  obtain ⟨d, hd, -⟩ := declared_of_mem
    (List.mem_append_right prior (List.mem_append_right seen (List.mem_singleton_self m)))
  obtain ⟨u, hu, -, hview⟩ := hshows.target hd
  have hstarted : m.started o ms = d.content (o.modeOf ms m.key) := by
    rw [Member.started, ← hprior.declared_eq seen m later hms, hd]
    rfl
  have hcontent : (startExtract u).content = m.started o ms := hview.trans hstarted.symm
  have hpass : (PassRules.ofOptions o .extract).pass = .extract := rfl
  obtain ⟨handle, s₁, hstart, hactive, hset, hisopen, hfiles, hreport⟩ :=
    start_open (s := { s with catalog := (s.catalog.register m.attributes).2 }) m.attributes m.flags hpass hx hu
  obtain ⟨t, hdata, hidle, hset', hfiles', hreport'⟩ :=
    data_close_open m.payloads hactive hset.target_eq rfl hisopen hfiles
  dsimp only at hset' hfiles' hreport'
  rw [hcontent] at hset' hfiles' hreport'
  refine ⟨t, ?_, hidle, ⟨hknows.agrees (hset.trans hset').agrees, ?_⟩, ?_⟩
  · rw [member, file_wanted (hsel.trans hw), hstart, Outcome.andThen_ok, hdata]
  · refine hshows.setTo (hset.trans hset') rfl hd (settle_of_reset ?_) fun _ _ => rfl
    rw [Emission.value_andThen, reset_finish, reset_absorbAll, hstarted]
    rfl
  · refine ⟨hfiles', ?_, ?_, ?_⟩
    · rw [hreport', hreport]
      simp
    · rw [hreport', hreport]
      rfl
    · rw [hreport', hreport, Member.ended]
      simp

omit [FileSink σ] in
lemma list_wanted (hx : o.extract = false) (hprior : Prepared o prior ms)
    (hms : ms = seen ++ m :: later) (h : Extracting o prior ms seen s.catalog) (hw : o.wants ms m = true) :
    ∃ t, s.member (.ofOptions o .extract) m = .ok t ∧ t.active = none ∧
      Extracting o prior ms (seen ++ [m]) t.catalog ∧ t.sink = s.sink ∧
      t.report = { s.report with files := s.report.files.push ⟨m.attributes, m.flags⟩ } := by
  obtain ⟨⟨hknows, hshows⟩, hsel⟩ := h.register hprior hms
  obtain ⟨d, hd, -⟩ := declared_of_mem
    (List.mem_append_right prior (List.mem_append_right seen (List.mem_singleton_self m)))
  obtain ⟨u, hu, hclosed, hview⟩ := hshows.target hd
  have hpass : (PassRules.ofOptions o .extract).pass = .extract := rfl
  obtain ⟨s₁, hstart, hactive, hset, hsink, hreport⟩ :=
    start_listing (s := { s with catalog := (s.catalog.register m.attributes).2 }) m.attributes m.flags hpass hx hu
  obtain ⟨c, hdata, hset'⟩ := data_closed m.payloads hactive hset.target_eq hclosed
  have hclose := close_closed (s := { s₁ with catalog := c }) hactive hset'.target_eq hclosed
  refine ⟨{ s₁ with catalog := c, active := none }, ?_, rfl,
    ⟨hknows.agrees (hset.trans hset').agrees, ?_⟩, hsink, hreport⟩
  · rw [member, file_wanted (hsel.trans hw), hstart, Outcome.andThen_ok, hdata, Outcome.andThen_ok, hclose]
  · refine hshows.setTo (hset.trans hset') hclosed hd ?_ fun _ _ => rfl
    dsimp only
    rw [absorbAll_settled rfl]
    exact hview

lemma extract_member (hprior : Prepared o prior ms) (hms : ms = seen ++ m :: later)
    (h : Extracting o prior ms seen s.catalog) (ha : s.active = none) :
    ∃ t, s.member (.ofOptions o .extract) m = .ok t ∧ t.active = none ∧
      Extracting o prior ms (seen ++ [m]) t.catalog ∧
      s.Gains t (Passage.listed o ms (.member m)) (Passage.written o ms (.member m))
        (Passage.warned o ms (.member m)) := by
  cases hw : o.wants ms m with
  | false =>
    obtain ⟨h', hsel⟩ := h.register hprior hms
    have hnone : Passage.wanted? o ms (.member m) = none := by
      simp [Passage.wanted?, Passage.member?, Option.filter, hw]
    refine ⟨_, member_unwanted ha (hsel.trans hw), ha, h', ?_⟩
    simp only [Passage.listed, Passage.written, Passage.warned, hnone, hw]
    constructor <;> simp
  | true =>
    have hsome : Passage.wanted? o ms (.member m) = some m := by
      simp [Passage.wanted?, Passage.member?, Option.filter, hw]
    cases hx : o.extract with
    | true =>
      obtain ⟨t, ht, hidle, hc, hgains⟩ := extract_wanted hx hprior hms h hw
      refine ⟨t, ht, hidle, hc, ?_⟩
      rw [Passage.listed, Passage.written, Passage.warned, hsome, hw, hx]
      exact hgains
    | false =>
      obtain ⟨t, ht, hidle, hc, hsink, hreport⟩ := list_wanted hx hprior hms h hw
      refine ⟨t, ht, hidle, hc, ?_⟩
      simp only [Passage.listed, Passage.written, Passage.warned, hsome, hw, hx]
      constructor <;> simp [hsink, hreport]

lemma gains_damage (reports : Bool) (w : Warning) {p : Passage} (hp : p.member? = none) :
    s.Gains (if reports then s.warn w else s) (p.listed o ms) (p.written o ms)
      (if reports then [w] else []) := by
  have hnone : p.wanted? o ms = none := by rw [Passage.wanted?, hp]; rfl
  rw [Passage.listed, Passage.written, hnone]
  cases reports with
  | true => constructor <;> simp [warn]
  | false => constructor <;> simp

lemma extract_passages (hprior : Prepared o prior ms) (ps : List Passage) (hms : ms = seen ++ members ps)
    (h : Extracting o prior ms seen s.catalog) (ha : s.active = none) :
    ∃ t, Outcome.each (passage (.ofOptions o .extract)) ps s = .ok t ∧
      s.Gains t (ps.flatMap (Passage.listed o ms)) (ps.flatMap (Passage.written o ms))
        (ps.flatMap (Passage.warned o ms)) := by
  induction ps generalizing seen s with
  | nil => exact ⟨s, rfl, .refl s⟩
  | cons p ps ih =>
    have hp : ∃ t, s.passage (.ofOptions o .extract) p = .ok t ∧ t.active = none ∧
        Extracting o prior ms (seen ++ p.member?.toList) t.catalog ∧
        s.Gains t (p.listed o ms) (p.written o ms) (p.warned o ms) := by
      cases p with
      | member m => exact extract_member hprior hms h ha
      | badRecord w last =>
        have hc : Extracting o prior ms (seen ++ []) s.catalog := by rw [List.append_nil]; exact h
        refine ⟨_, rfl, ?_, ?_, gains_damage (reportsRecord (.ofOptions o .extract) last) w rfl⟩
        · split <;> exact ha
        · split <;> exact hc
      | badBlock w last =>
        have hc : Extracting o prior ms (seen ++ []) s.catalog := by rw [List.append_nil]; exact h
        refine ⟨_, rfl, ?_, ?_, gains_damage (reportsBlock (.ofOptions o .extract) last) w rfl⟩
        · split <;> exact ha
        · split <;> exact hc
    obtain ⟨t, ht, hidle, hc, hgains⟩ := hp
    have hrest : ms = seen ++ p.member?.toList ++ members ps := by
      rw [hms, List.append_assoc]
      cases p <;> rfl
    obtain ⟨u, hu, hgains'⟩ := ih hrest hc hidle
    refine ⟨u, ?_, hgains.trans hgains'⟩
    rw [Outcome.each_cons, ht]
    exact hu

end Session

lemma flatMap_wanted (o : Options) (ms : List Member) (ps : List Passage) :
    (ps.flatMap fun p => (p.wanted? o ms).toList) = (members ps).filter (o.wants ms) := by
  induction ps with
  | nil => rfl
  | cons p ps ih =>
    rw [List.flatMap_cons, ih]
    cases p with
    | member m =>
      have hms : members (.member m :: ps) = m :: members ps := rfl
      rw [hms, List.filter_cons, Passage.wanted?, Passage.member?, Option.filter]
      cases o.wants ms m <;> rfl
    | badRecord w last => rfl
    | badBlock w last => rfl

lemma flatMap_written (o : Options) (ps : List Passage) :
    ps.flatMap (Passage.written o (members ps)) = o.writes (members ps) := by
  rw [Options.writes, ← flatMap_wanted, List.map_flatMap]
  have hwritten : Passage.written o (members ps) = fun p =>
      if o.extract then (p.wanted? o (members ps)).toList.map (Member.written o (members ps)) else [] := rfl
  rw [hwritten]
  cases o.extract with
  | true => rfl
  | false => simp

end SaveSet
