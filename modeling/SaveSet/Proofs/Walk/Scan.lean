import SaveSet.Proofs.Walk.Active

namespace SaveSet

open Content

namespace Options

lemma betrays_of_not_wants {o : Options} {earlier : List Member} {m : Member}
    (h : o.wants (earlier ++ [m]) m = false) : o.betrays earlier m = false := by
  rw [betrays, h, Bool.and_false, Bool.false_and]

lemma betrays_of_not_scanned {o : Options} (h : (o.extract && o.mode == .smart) = false)
    (earlier : List Member) (m : Member) : o.betrays earlier m = false := by
  rw [betrays, h, Bool.false_and, Bool.false_and]

lemma betrays_of_wants {o : Options} (h : (o.extract && o.mode == .smart) = true) {earlier : List Member}
    {m d : Member} (hw : o.wants (earlier ++ [m]) m = true) (hd : declared (earlier ++ [m]) m.key = some d) :
    o.betrays earlier m = d.holdsBinary m.payloads := by
  rw [betrays, h, hw, hd, Bool.true_and, Bool.true_and, Option.any_some]

lemma scannedMode_snoc (o : Options) (ms : List Member) (m : Member) (key : String) :
    o.scannedMode (ms ++ [m]) key =
      if m.key = key ∧ o.betrays ms m = true then .binary else o.scannedMode ms key := by
  rw [scannedMode, sniffs_snoc, scannedMode]
  cases hs : o.sniffs ms key with
  | true => simp
  | false => simp

lemma scannedMode_new (o : Options) {ms : List Member} {key : String} (h : declared ms key = none) :
    o.scannedMode ms key = o.mode := by
  rw [scannedMode, if_neg]
  intro hs
  obtain ⟨before, m, later, rfl, rfl, -⟩ := (o.sniffs_iff ms key).mp hs
  obtain ⟨d, hd, -⟩ := declared_of_mem (List.mem_append_right before (List.mem_cons_self (a := m) (l := later)))
  rw [hd] at h
  cases h

end Options

variable {o : Options} {seen : List Member} {m d : Member} {x : Content}

lemma scanned_unsettled (hd : declared (seen ++ [m]) m.key = some d) (hw : o.wants (seen ++ [m]) m = true)
    (ho : (o.extract && o.mode == .smart) = true) (hmode : o.scannedMode seen m.key = .smart) :
    (absorbAll false m.payloads (d.content .smart).reset).value.reset =
      d.content (o.scannedMode (seen ++ [m]) m.key) := by
  rw [o.scannedMode_snoc, Options.betrays_of_wants ho hw hd, hmode, Member.holdsBinary]
  by_cases hf : d.attributes.recordFormat = .udf
  · rw [absorbAll_udf (c := (d.content .smart).reset) hf, if_neg (by simp [hf])]
    rfl
  · rw [mode_absorbAll (c := d.content .smart) rfl hf]
    have hasBinary : (d.content .smart).reset.asBinary = d.content .binary := rfl
    rw [hasBinary]
    cases high ((d.content .binary).output m.payloads) with
    | true =>
      rw [if_pos rfl, if_pos ⟨rfl, by simp [hf]⟩]
      rfl
    | false =>
      rw [if_neg Bool.false_ne_true, if_neg (by simp)]
      rfl

lemma scannedMode_settled (h : (o.extract && o.scannedMode seen m.key == .smart) = false) :
    o.scannedMode (seen ++ [m]) m.key = o.scannedMode seen m.key := by
  rw [o.scannedMode_snoc]
  split
  · next hb =>
    cases ho : (o.extract && o.mode == .smart) with
    | false =>
      rw [Options.betrays_of_not_scanned ho] at hb
      exact absurd hb.2 Bool.false_ne_true
    | true =>
      rw [Options.scannedMode] at h ⊢
      split
      · rfl
      · next hn =>
        rw [if_neg hn, ho] at h
        cases h
  · rfl

lemma scanned_content (hd : declared (seen ++ [m]) m.key = some d) (hw : o.wants (seen ++ [m]) m = true)
    (hx : x.reset = d.content (o.scannedMode seen m.key)) :
    (absorbAll false m.payloads { x.reset with settled := !(o.extract && x.mode == .smart) }).value.reset =
      d.content (o.scannedMode (seen ++ [m]) m.key) := by
  have hmode : x.mode = o.scannedMode seen m.key := congrArg Content.mode hx
  cases hs : (o.extract && x.mode == .smart) with
  | true =>
    obtain ⟨he, hsmart⟩ := Bool.and_eq_true_iff.mp hs
    have hsmart : o.scannedMode seen m.key = .smart := hmode.symm.trans (beq_iff_eq.mp hsmart)
    have hno : o.mode = .smart := by
      rw [Options.scannedMode] at hsmart
      split at hsmart
      · cases hsmart
      · exact hsmart
    have hstart : ({ x.reset with settled := !true } : Content) = (d.content .smart).reset := by
      rw [hx, hsmart]
      rfl
    rw [hstart]
    exact scanned_unsettled hd hw (by rw [he, hno]; rfl) hsmart
  | false =>
    rw [absorbAll_settled rfl, scannedMode_settled (hmode ▸ hs)]
    exact hx

structure Scanned (o : Options) (seen : List Member) (c : Catalog) : Prop where
  knows : c.Knows o seen
  shows : c.Shows Content.reset fun k => (declared seen k).map fun d => d.content (o.scannedMode seen k)

lemma Scanned.register {c : Catalog} (h : Scanned o seen c) (m : Member) :
    (c.register m.attributes).2.Knows o (seen ++ [m]) ∧
      (c.register m.attributes).2.Shows Content.reset
        fun k => (declared (seen ++ [m]) k).map fun d => d.content (o.scannedMode seen k) :=
  ⟨h.knows.register m, h.shows.register h.knows m fun hd => by rw [o.scannedMode_new hd]; rfl⟩

namespace Session

variable {σ : Type} [Sink σ] {rules : PassRules} {s : Session σ}

lemma each_inactive (ps : List Bytes) (h : s.active = none) : Outcome.each data ps s = .ok s := by
  induction ps with
  | nil => rfl
  | cons p ps ih => rw [Outcome.each_cons, data_inactive h, Outcome.andThen_ok, ih]

lemma member_unwanted (h : s.active = none) (hw : (s.catalog.register m.attributes).1.selected = false) :
    s.member rules m = .ok { s with catalog := (s.catalog.register m.attributes).2 } := by
  let t : Session σ := { s with catalog := (s.catalog.register m.attributes).2 }
  have ht : t.active = none := h
  have hfile : file rules m.attributes m.flags s = .ok t := by
    rw [file, hw, if_neg Bool.false_ne_true]
  rw [member, hfile, Outcome.andThen_ok, each_inactive _ ht, Outcome.andThen_ok]
  exact close_inactive ht

lemma file_wanted (hw : (s.catalog.register m.attributes).1.selected = true) :
    file rules m.attributes m.flags s =
      start rules m.key m.attributes m.flags { s with catalog := (s.catalog.register m.attributes).2 } := by
  rw [file, hw, if_pos rfl]
  rfl

lemma scan_member (hp : rules.pass = .scan) (he : rules.extract = o.extract)
    (h : Scanned o seen s.catalog) (ha : s.active = none) (m : Member) :
    ∃ t, s.member rules m = .ok t ∧ t.sink = s.sink ∧ t.active = none ∧ Scanned o (seen ++ [m]) t.catalog := by
  obtain ⟨hknows, hshows⟩ := h.register m
  have hsel := h.knows.register_selected m
  cases hw : o.wants (seen ++ [m]) m with
  | false =>
    refine ⟨_, member_unwanted ha (hsel.trans hw), rfl, ha, hknows, ?_⟩
    have hmode : ∀ k, o.scannedMode (seen ++ [m]) k = o.scannedMode seen k := fun k => by
      rw [o.scannedMode_snoc, Options.betrays_of_not_wants hw, if_neg (by simp)]
    simp only [hmode]
    exact hshows
  | true =>
    obtain ⟨d, hd, -⟩ := declared_of_mem (List.mem_append_right seen (List.mem_singleton_self m))
    obtain ⟨t, ht, hclosed, hx⟩ := hshows.target hd
    have hset := Catalog.setTo_modify ht (startScan rules)
    let s₁ : Session σ := { s with
      catalog := (s.catalog.register m.attributes).2.modify m.key (startScan rules)
      active := some m.key }
    have hstart : file rules m.attributes m.flags s = .ok s₁ := by
      rw [file_wanted (hsel.trans hw), start, hp]
    obtain ⟨c, hdata, hc⟩ := data_closed (s := s₁) m.payloads rfl hset.target_eq hclosed
    have hclose := close_closed (s := { s₁ with catalog := c }) rfl hc.target_eq hclosed
    have hall := hset.trans hc
    refine ⟨{ s with catalog := c }, ?_, rfl, ha, hknows.agrees hall.agrees, ?_⟩
    · rw [member, hstart, Outcome.andThen_ok, hdata, Outcome.andThen_ok, hclose]
      simp only [s₁, ← ha]
    · refine hshows.setTo hall hclosed hd ?_ fun k hk => ?_
      · have hcontent := scanned_content hd hw hx
        rw [← he] at hcontent
        exact hcontent
      · rw [o.scannedMode_snoc, if_neg fun hb => hk hb.1]

lemma scan_passages (hp : rules.pass = .scan) (he : rules.extract = o.extract) (ps : List Passage)
    (h : Scanned o seen s.catalog) (ha : s.active = none) :
    ∃ t, Outcome.each (passage rules) ps s = .ok t ∧ t.sink = s.sink ∧ t.active = none ∧
      Scanned o (seen ++ members ps) t.catalog := by
  induction ps generalizing seen s with
  | nil => exact ⟨s, rfl, rfl, ha, by simpa [members] using h⟩
  | cons p ps ih =>
    have hp' : ∃ t, s.passage rules p = .ok t ∧ t.sink = s.sink ∧ t.active = none ∧
        Scanned o (seen ++ p.member?.toList) t.catalog := by
      cases p with
      | member m => exact scan_member hp he h ha m
      | badRecord w last =>
        have hquiet : reportsRecord rules last = false := by rw [reportsRecord, hp]; rfl
        rw [passage, hquiet]
        exact ⟨s, rfl, rfl, ha, by simpa [Passage.member?] using h⟩
      | badBlock w last =>
        have hquiet : reportsBlock rules last = false := by rw [reportsBlock, hp]; rfl
        rw [passage, hquiet]
        exact ⟨s, rfl, rfl, ha, by simpa [Passage.member?] using h⟩
    obtain ⟨t, ht, hsink, hactive, hcat⟩ := hp'
    obtain ⟨u, hu, husink, huactive, hucat⟩ := ih hcat hactive
    refine ⟨u, ?_, husink.trans hsink, huactive, ?_⟩
    · rw [Outcome.each_cons, ht]
      exact hu
    · have hms : members (p :: ps) = p.member?.toList ++ members ps := by
        cases p <;> rfl
      rw [hms, ← List.append_assoc]
      exact hucat

end Session

end SaveSet
