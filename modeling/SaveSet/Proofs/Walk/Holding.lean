import SaveSet.Proofs.Output.Journal
import SaveSet.Proofs.Walk.Active

namespace SaveSet

variable {σ : Type}

namespace Session

structure Tidy (s : Session (Journaled σ)) : Prop where
  orderly : Orderly s.held s.sink.calls
  others : ∀ k t, s.catalog.target? k = some t → s.active ≠ some k → t.handle = none

variable {s u : Session (Journaled σ)} {key : String} {t : Target}

lemma tidy_idle (hc : s.catalog.Closed) (ha : s.active = none) (ho : Orderly none s.sink.calls) : s.Tidy where
  orderly := by
    rw [held_inactive ha]
    exact ho
  others k t ht _ := hc k t ht

lemma tidy_active (hothers : ∀ k t', s.catalog.target? k = some t' → k ≠ key → t'.handle = none)
    (hs : s.catalog.SetTo u.catalog key t) (ha : u.active = some key) (ho : Orderly t.handle u.sink.calls) :
    u.Tidy where
  orderly := by
    rw [held_active ha hs.target_eq]
    exact ho
  others k t' hk hn := by
    rw [ha] at hn
    have hkey : key ≠ k := fun he => hn (congrArg some he)
    rw [hs.target?, if_neg hkey] at hk
    exact hothers k t' hk hkey.symm

lemma Tidy.apart (h : s.Tidy) (ha : s.active = some key) (k : String) (t' : Target)
    (hk : s.catalog.target? k = some t') (hn : k ≠ key) : t'.handle = none := by
  apply h.others k t' hk
  rw [ha]
  intro he
  exact hn (Option.some.inj he).symm

lemma Tidy.closed (h : s.Tidy) (hh : s.held = none) : s.catalog.Closed := by
  intro k t ht
  by_cases ha : s.active = some k
  · rw [← held_active ha ht, hh]
  · exact h.others k t ht ha

lemma Tidy.warn (h : s.Tidy) (w : Warning) : (s.warn w).Tidy := ⟨h.orderly, h.others⟩

end Session

variable [Sink σ]

lemma deliver_orderly {h : Handle} (final : Content) (ws : List Write) {s : Journaled σ}
    (ho : Orderly (some h) s.calls) : Orderly (some h) (deliver h final ws s).state.2.calls := by
  induction ws generalizing s with
  | nil => exact ho
  | cons w ws ih =>
    have hw : Orderly (some h) (Sink.write h w.bytes s).state.calls := ho.written w.bytes _
    rw [deliver]
    split
    · next t he =>
      rw [he] at hw
      exact ih hw
    · next t f he =>
      rw [he] at hw
      exact hw

lemma openFile_orderly (r : OpenRequest) {s : Journaled σ} (ho : Orderly none s.calls) :
    match Sink.openFile r s with
    | (.ok h, t) => Orderly (some h) t.calls
    | (.error _, t) => Orderly none t.calls := by
  change match Journaled.openFile r s with
    | (.ok h, t) => Orderly (some h) t.calls
    | (.error _, t) => Orderly none t.calls
  rw [Journaled.openFile]
  rcases Sink.openFile r s.sink with ⟨f | h, t⟩
  · exact ho.refused r f
  · exact ho.opened r h

namespace Target

variable {t : Target} {s : Journaled σ}

lemma put_orderly (e : Emission Content) (ho : Orderly t.handle s.calls) :
    Orderly t.handle (t.put e s).state.2.calls ∧ (t.put e s).state.1.handle = t.handle := by
  cases hh : t.handle with
  | none =>
    rw [put_closed hh]
    rw [hh] at ho
    exact ⟨ho, hh⟩
  | some h =>
    rw [hh] at ho
    rw [put, hh]
    exact ⟨deliver_orderly e.value e.writes ho, rfl⟩

lemma feed_orderly (payload : Bytes) (ho : Orderly t.handle s.calls) :
    Orderly t.handle (t.feed payload s).state.2.calls ∧ (t.feed payload s).state.1.handle = t.handle :=
  put_orderly _ ho

lemma finish_orderly (ho : Orderly t.handle s.calls) : Orderly t.handle (t.finish s).state.2.calls := by
  rw [finish]
  split
  · exact (put_orderly _ ho).1
  · exact ho

end Target

namespace Session

variable {s : Session (Journaled σ)} {key : String} {t : Target}

lemma Tidy.data (h : s.Tidy) (payload : Bytes) : (s.data payload).state.Tidy := by
  cases ha : s.active with
  | none =>
    rw [data_inactive ha]
    exact h
  | some key =>
    cases ht : s.catalog.target? key with
    | none =>
      rw [data_unknown ha ht]
      exact h
    | some t =>
      rw [data_active ha ht]
      split
      · exact h
      · have ho := h.orderly
        rw [held_active ha ht] at ho
        obtain ⟨hfeed, hh⟩ := Target.feed_orderly payload ho
        refine tidy_active (h.apart ha) (Catalog.setTo_modify ht fun _ => (t.feed payload s.sink).state.1) ?_ ?_
        · exact ha
        · rw [hh]
          exact hfeed

lemma Tidy.close (h : s.Tidy) : s.close.state.Tidy := by
  cases hh : s.held with
  | none =>
    have ho := h.orderly
    rw [hh] at ho
    rw [close_unheld hh]
    exact tidy_idle (h.closed hh) rfl ho
  | some handle =>
    obtain ⟨key, t, ha, ht, hhandle⟩ := held_eq_some hh
    have ho := h.orderly
    rw [held_active ha ht] at ho
    have hfinish := Target.finish_orderly ho
    rw [hhandle] at hfinish
    rw [close_held ha ht hhandle]
    apply tidy_idle
    · intro k u hk
      change (s.ended key _ _).catalog.target? k = _ at hk
      rw [catalog_ended, (Catalog.setTo_modify ht _).target?] at hk
      split at hk
      · cases hk
        rfl
      · next hn => exact h.apart ha k u hk (Ne.symm hn)
    · exact active_ended s key _ _
    · -- The handle is given back also if what was held back could not be written.
      change Orderly none (s.ended key _ _).sink.calls
      rw [sink_ended]
      exact hfinish.closed _

variable {rules : PassRules}

lemma tidy_start (hc : s.catalog.Closed) (ha : s.active = none) (ho : Orderly none s.sink.calls)
    (ht : s.catalog.target? key = some t) (a : FileAttributes) (flags : RecordFlags) :
    (start rules key a flags s).state.Tidy := by
  have hh : t.handle = none := hc key t ht
  have hthen {u : Session (Journaled σ)} {t' : Target} (hs : s.catalog.SetTo u.catalog key t')
      (hactive : u.active = some key) (hcalls : Orderly t'.handle u.sink.calls) : u.Tidy :=
    tidy_active (fun k t hk _ => hc k t hk) hs hactive hcalls
  have hstill : Orderly t.handle s.sink.calls := hh ▸ ho
  rw [start]
  cases rules.pass with
  | scan => exact hthen (Catalog.setTo_modify ht (startScan rules)) rfl hstill
  | extract =>
    dsimp only
    split
    · have hset := Catalog.setTo_modify ht startExtract
      have hopen := openFile_orderly ⟨key, a.created, a.revised⟩ ho
      split
      · next f sink he =>
        rw [he] at hopen
        exact tidy_idle (hc.setTo hset hh) ha hopen
      · next handle sink he =>
        rw [he] at hopen
        exact hthen (hset.trans (Catalog.setTo_modify hset.target_eq _)) rfl hopen
    · exact hthen (Catalog.setTo_modify ht startListing) rfl hstill

lemma Tidy.file (h : s.Tidy) (ha : s.active = none) (a : FileAttributes) (flags : RecordFlags) :
    (file rules a flags s).state.Tidy := by
  have ho := h.orderly
  rw [held_inactive ha] at ho
  have hc := (h.closed (held_inactive ha)).register a
  have ht := Catalog.target?_register s.catalog a a.filename
  rw [if_pos rfl] at ht
  rw [Session.file]
  split
  · exact tidy_start (s := { s with catalog := (s.catalog.register a).2 }) hc ha ho ht a flags
  · exact tidy_idle hc ha ho

lemma Tidy.apply (h : s.Tidy) (last : Bool) (e : Event) : (s.apply rules last e).state.Tidy := by
  have hclose {step : Session (Journaled σ) → Outcome (Session (Journaled σ))}
      (hstep : ∀ t : Session (Journaled σ), t.Tidy → t.active = none → (step t).state.Tidy) :
      (s.close.andThen step).state.Tidy := by
    apply Outcome.state_andThen h.close
    intro ht
    exact hstep _ ht s.active_close
  cases e with
  | idle => exact h
  | boundary => exact h.close
  | file a flags => exact hclose fun t ht ha => ht.file ha a flags
  | data payload => exact h.data payload
  | badRecord w =>
    apply hclose
    intro t ht ha
    split
    · exact ht.warn w
    · exact ht
  | badBlock w =>
    apply hclose
    intro t ht ha
    split
    · exact ht.warn w
    · exact ht

end Session

end SaveSet
