import Mathlib.Data.List.Nodup
import SaveSet.Proofs.Content.Sniffing
import SaveSet.Proofs.Output.FileSink
import SaveSet.Proofs.Walk.Members

namespace SaveSet

def highest (ms : List Member) (base : String) : Option Int :=
  ((ms.filter fun m => m.base == base).map Member.version).max?

lemma highest_eq_some {ms : List Member} {base : String} {v : Int} :
    highest ms base = some v ↔
      (∃ m ∈ ms, m.base = base ∧ m.version = v) ∧ ∀ m ∈ ms, m.base = base → m.version ≤ v := by
  simp only [highest, List.max?_eq_some_iff, List.mem_map, List.mem_filter, beq_iff_eq, and_assoc,
    forall_exists_index, and_imp]
  refine and_congr_right fun _ => ⟨fun h m hm hb => h m.version m hm hb rfl, fun h w m hm hb hw => ?_⟩
  rw [← hw]
  exact h m hm hb

lemma highest_eq_none {ms : List Member} {base : String} :
    highest ms base = none ↔ ∀ m ∈ ms, m.base ≠ base := by
  simp [highest, List.filter_eq_nil_iff]

lemma highest_snoc_apart (ms : List Member) {m : Member} {base : String} (h : m.base ≠ base) :
    highest (ms ++ [m]) base = highest ms base := by
  simp [highest, h]

lemma highest_snoc (ms : List Member) (m : Member) :
    highest (ms ++ [m]) m.base = some (max ((highest ms m.base).getD m.version) m.version) := by
  rw [highest_eq_some]
  cases h : highest ms m.base with
  | none =>
    have hn := highest_eq_none.mp h
    refine ⟨⟨m, by simp, rfl, by simp⟩, fun n hm hb => ?_⟩
    rcases List.mem_append.mp hm with hm | hm
    · exact absurd hb (hn n hm)
    · obtain rfl := List.mem_singleton.mp hm
      exact Int.le_max_right _ _
  | some v =>
    obtain ⟨⟨n, hn, hb, rfl⟩, hle⟩ := highest_eq_some.mp h
    refine ⟨?_, fun p hp hb => ?_⟩
    · rcases Int.le_total m.version n.version with hv | hv
      · exact ⟨n, by simp [hn], hb, by simp [Int.max_eq_left hv]⟩
      · exact ⟨m, by simp, rfl, by simp [Int.max_eq_right hv]⟩
    · rcases List.mem_append.mp hp with hp | hp
      · exact Int.le_trans (hle p hp hb) (Int.le_max_left _ _)
      · obtain rfl := List.mem_singleton.mp hp
        exact Int.le_max_right _ _

lemma highest_again {ms seen : List Member} (h : seen ⊆ ms) (base : String) :
    highest (ms ++ seen) base = highest ms base := by
  cases hm : highest ms base with
  | none =>
    have hn := highest_eq_none.mp hm
    refine highest_eq_none.mpr fun m hms => ?_
    rcases List.mem_append.mp hms with hms | hms
    · exact hn m hms
    · exact hn m (h hms)
  | some v =>
    obtain ⟨⟨n, hn, hb, hv⟩, hle⟩ := highest_eq_some.mp hm
    refine highest_eq_some.mpr ⟨⟨n, List.mem_append_left _ hn, hb, hv⟩, fun m hms => ?_⟩
    rcases List.mem_append.mp hms with hms | hms
    · exact hle m hms
    · exact hle m (h hms)

def Options.wants (o : Options) (known : List Member) (m : Member) : Bool :=
  (Mask.compile o.mask).accepts m.base &&
    o.version.selects m.version ((highest known m.base).getD m.version)

lemma Options.wants_of_highest {o : Options} {known : List Member} {m : Member} {v : Int}
    (ha : (Mask.compile o.mask).accepts m.base = true) (hh : highest known m.base = some v) :
    o.wants known m = o.version.selects m.version v := by
  rw [wants, ha, hh, Bool.true_and, Option.getD_some]

lemma Options.wants_again (o : Options) {ms seen : List Member} (h : seen ⊆ ms) (m : Member) :
    o.wants (ms ++ seen) m = o.wants ms m := by
  rw [wants, highest_again h, wants]

lemma Options.wants_absolute {o : Options} (h : o.version.isRelative = false) (known ms : List Member)
    (m : Member) : o.wants known m = o.wants ms m := by
  rw [wants, wants]
  cases hv : o.version with
  | all => rfl
  | exact v => rfl
  | relative r =>
    rw [hv] at h
    cases h

lemma Options.wants_newest {o : Options} (hv : o.version = .relative 0) {ms known : List Member}
    {m : Member} (hm : m ∈ known) (hk : known ⊆ ms) (hw : o.wants ms m = true) :
    o.wants known m = true := by
  obtain ⟨ha, hs⟩ := (Bool.and_eq_true_iff).mp hw
  rw [hv] at hs
  have hms : highest ms m.base = some m.version := by
    cases hh : highest ms m.base with
    | none => exact absurd rfl (highest_eq_none.mp hh m (hk hm))
    | some v =>
      rw [hh] at hs
      simp only [Selector.selects, Option.getD_some, Int.add_zero, beq_iff_eq] at hs
      rw [hs]
  have hknown : highest known m.base = some m.version := by
    obtain ⟨-, hle⟩ := highest_eq_some.mp hms
    exact highest_eq_some.mpr ⟨⟨m, hm, rfl, rfl⟩, fun n hn => hle n (hk hn)⟩
  rw [wants, ha, hv, hknown]
  simp [Selector.selects]

namespace Member

def content (m : Member) (mode : ContentMode) : Content :=
  { size := m.attributes.fileSize, format := m.attributes.recordFormat, mode }

def holdsBinary (m : Member) (payloads : List Bytes) : Bool :=
  m.attributes.recordFormat != .udf && Content.high ((m.content .binary).output payloads)

end Member

def declared (ms : List Member) (key : String) : Option Member := ms.find? fun m => m.key == key

lemma declared_snoc (ms : List Member) (m : Member) (key : String) :
    declared (ms ++ [m]) key = (declared ms key).or (if m.key = key then some m else none) := by
  rw [declared, List.find?_append, declared]
  by_cases h : m.key = key <;> simp [h]

lemma declared_append {ms : List Member} {key : String} {m : Member} (h : declared ms key = some m)
    (later : List Member) : declared (ms ++ later) key = some m := by
  rw [declared, List.find?_append, ← declared, h]
  rfl

lemma declared_of_mem {ms : List Member} {m : Member} (h : m ∈ ms) :
    ∃ d, declared ms m.key = some d ∧ d.key = m.key := by
  cases hd : declared ms m.key with
  | none => exact absurd (beq_self_eq_true m.key) (List.find?_eq_none.mp hd m h)
  | some d =>
    have hk := List.find?_some (p := fun n : Member => n.key == m.key) hd
    exact ⟨d, rfl, beq_iff_eq.mp hk⟩

lemma declared_distinct {ms : List Member} {m : Member} (hd : (ms.map Member.key).Nodup)
    (hm : m ∈ ms) : declared ms m.key = some m := by
  obtain ⟨d, hdecl, hkey⟩ := declared_of_mem hm
  have hdm : d ∈ ms := List.mem_of_find?_eq_some hdecl
  rw [hdecl, List.inj_on_of_nodup_map hd hdm hm hkey]

namespace Options

def betrays (o : Options) (earlier : List Member) (m : Member) : Bool :=
  o.extract && o.mode == .smart && o.wants (earlier ++ [m]) m &&
    (declared (earlier ++ [m]) m.key).any fun d => d.holdsBinary m.payloads

def sniffsAfter (o : Options) (key : String) : List Member → List Member → Bool
  | _, [] => false
  | earlier, m :: later => (m.key == key && o.betrays earlier m) || o.sniffsAfter key (earlier ++ [m]) later

def sniffs (o : Options) (ms : List Member) (key : String) : Bool := o.sniffsAfter key [] ms

lemma sniffsAfter_append (o : Options) (key : String) (earlier ms later : List Member) :
    o.sniffsAfter key earlier (ms ++ later) =
      (o.sniffsAfter key earlier ms || o.sniffsAfter key (earlier ++ ms) later) := by
  induction ms generalizing earlier with
  | nil => simp [sniffsAfter]
  | cons m ms ih => simp [sniffsAfter, ih, Bool.or_assoc]

lemma sniffs_snoc (o : Options) (ms : List Member) (m : Member) (key : String) :
    o.sniffs (ms ++ [m]) key = (o.sniffs ms key || (m.key == key && o.betrays ms m)) := by
  rw [sniffs, sniffsAfter_append, List.nil_append]
  simp [sniffsAfter, sniffs]

lemma sniffsAfter_iff (o : Options) (key : String) (earlier ms : List Member) :
    o.sniffsAfter key earlier ms = true ↔
      ∃ before m later, ms = before ++ m :: later ∧ m.key = key ∧ o.betrays (earlier ++ before) m = true := by
  induction ms generalizing earlier with
  | nil => simp [sniffsAfter]
  | cons m ms ih =>
    rw [sniffsAfter, Bool.or_eq_true_iff, Bool.and_eq_true_iff, beq_iff_eq, ih]
    constructor
    · rintro (⟨hk, hb⟩ | ⟨before, n, later, rfl, hk, hb⟩)
      · exact ⟨[], m, ms, rfl, hk, by simpa using hb⟩
      · exact ⟨m :: before, n, later, rfl, hk, by simpa using hb⟩
    · rintro ⟨before, n, later, he, hk, hb⟩
      cases before with
      | nil =>
        obtain ⟨rfl, rfl⟩ := List.cons.inj he
        exact Or.inl ⟨hk, by simpa using hb⟩
      | cons first before =>
        obtain ⟨rfl, rfl⟩ := List.cons.inj he
        exact Or.inr ⟨before, n, later, rfl, hk, by simpa using hb⟩

lemma sniffs_iff (o : Options) (ms : List Member) (key : String) :
    o.sniffs ms key = true ↔
      ∃ before m later, ms = before ++ m :: later ∧ m.key = key ∧ o.betrays before m = true :=
  o.sniffsAfter_iff key [] ms

def scannedMode (o : Options) (ms : List Member) (key : String) : ContentMode :=
  if o.sniffs ms key then .binary else o.mode

end Options

def ContentMode.settle (mode : ContentMode) : ContentMode := if mode = .smart then .ascii else mode

def Options.modeOf (o : Options) (ms : List Member) (key : String) : ContentMode :=
  (o.scannedMode ms key).settle

namespace Member

def started (o : Options) (ms : List Member) (m : Member) : Content :=
  ((declared ms m.key).getD m).content (o.modeOf ms m.key)

def written (o : Options) (ms : List Member) (m : Member) : OutputFile :=
  (OutputFile.ofRequest m.request).append ((m.started o ms).output m.payloads)

end Member

def Options.writes (o : Options) (ms : List Member) : List OutputFile :=
  if o.extract then (ms.filter (o.wants ms)).map (Member.written o ms) else []

end SaveSet
