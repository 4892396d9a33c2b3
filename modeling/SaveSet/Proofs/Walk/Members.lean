import SaveSet.Proofs.Walk.Blocks

/-! A pass as a fold over the files of the save set, each with all of its data, and over the damage
between them. -/

namespace SaveSet

/-- A file of the save set: its record, and the data that belongs to it. -/
structure Member where
  attributes : FileAttributes
  flags : RecordFlags
  payloads : List Bytes
  deriving DecidableEq, Repr

namespace Member

def key (m : Member) : String := m.attributes.filename
def base (m : Member) : String := Name.base m.key
def version (m : Member) : Int := Name.version m.key
def request (m : Member) : OpenRequest := ⟨m.key, m.attributes.created, m.attributes.revised⟩

end Member

inductive Passage where
  | member (m : Member)
  | badRecord (w : Warning) (last : Bool)
  | badBlock (w : Warning) (last : Bool)
  deriving DecidableEq, Repr

def payloads : List PlacedEvent → List Bytes
  | [] => []
  | e :: es =>
    match e.event with
    | .data p => p :: payloads es
    | .idle => payloads es
    | _ => []

def passages : List PlacedEvent → List Passage
  | [] => []
  | e :: es =>
    match e.event with
    | .file a flags => .member ⟨a, flags, payloads es⟩ :: passages es
    | .badRecord w => .badRecord w e.last :: passages es
    | .badBlock w => .badBlock w e.last :: passages es
    | _ => passages es

def Passage.member? : Passage → Option Member
  | member m => some m
  | _ => none

def members (ps : List Passage) : List Member := ps.filterMap Passage.member?

namespace Session

variable {σ : Type} [Sink σ]

lemma active_close (s : Session σ) : s.close.state.active = none := by
  unfold close
  split
  · assumption
  · dsimp only
    split
    · rfl
    · split
      · rfl
      · split <;> rfl

lemma close_inactive {s : Session σ} (h : s.active = none) : s.close = .ok s := by
  rw [close, h]

lemma close_andThen_congr (s : Session σ) {f g : Session σ → Outcome (Session σ)}
    (h : ∀ t : Session σ, t.active = none → f t = g t) : s.close.andThen f = s.close.andThen g := by
  have ha := s.active_close
  rcases hc : s.close with ⟨t, _ | e⟩
  · rw [hc] at ha
    exact h t ha
  · rfl

lemma close_close (s : Session σ) : s.close.andThen close = s.close := by
  rw [s.close_andThen_congr (g := .ok) fun t ht => close_inactive ht]
  rcases s.close with ⟨t, _ | e⟩ <;> rfl

lemma close_absorb (s : Session σ) (f : Session σ → Outcome (Session σ)) :
    s.close.andThen (fun t => t.close.andThen f) = s.close.andThen f :=
  s.close_andThen_congr fun t ht => by rw [close_inactive ht, Outcome.andThen_ok]

def member (rules : PassRules) (m : Member) (s : Session σ) : Outcome (Session σ) :=
  ((file rules m.attributes m.flags s).andThen (Outcome.each data m.payloads)).andThen close

def passage (rules : PassRules) (p : Passage) (s : Session σ) : Outcome (Session σ) :=
  match p with
  | .member m => s.member rules m
  | .badRecord w last => .ok (if reportsRecord rules last then s.warn w else s)
  | .badBlock w last => .ok (if reportsBlock rules last then s.warn w else s)

def pass (rules : PassRules) (es : List PlacedEvent) (s : Session σ) : Outcome (Session σ) :=
  (Outcome.each (step rules) es s).andThen close

lemma pass_cons (rules : PassRules) (e : PlacedEvent) (es : List PlacedEvent) (s : Session σ) :
    s.pass rules (e :: es) = (s.step rules e).andThen (pass rules es) := by
  rw [pass, Outcome.each_cons, Outcome.andThen_assoc]
  rfl

lemma data_inactive {s : Session σ} (h : s.active = none) (payload : Bytes) : s.data payload = .ok s := by
  rw [data, h]

def Ends : Event → Prop
  | .idle | .data _ => False
  | _ => True

lemma eq_of_not_ends {e : Event} (h : ¬ Ends e) : e = .idle ∨ ∃ payload, e = .data payload := by
  cases e with
  | idle => exact Or.inl rfl
  | data payload => exact Or.inr ⟨payload, rfl⟩
  | boundary => exact absurd trivial h
  | file => exact absurd trivial h
  | badRecord => exact absurd trivial h
  | badBlock => exact absurd trivial h

lemma payloads_of_ends {e : PlacedEvent} (h : Ends e.event) (es : List PlacedEvent) :
    payloads (e :: es) = [] := by
  rcases e with ⟨e, last⟩
  cases e <;> first | rfl | exact h.elim

lemma step_of_ends (rules : PassRules) {e : PlacedEvent} (h : Ends e.event) (s : Session σ) :
    s.step rules e = s.close.andThen (step rules e) := by
  rcases e with ⟨e, last⟩
  cases e with
  | idle => exact h.elim
  | data => exact h.elim
  | boundary => exact s.close_close.symm
  | file a flags => exact (s.close_absorb _).symm
  | badRecord w =>
    exact (s.close_absorb fun t => .ok (if reportsRecord rules last then t.warn w else t)).symm
  | badBlock w =>
    exact (s.close_absorb fun t => .ok (if reportsBlock rules last then t.warn w else t)).symm

lemma pass_active (rules : PassRules) (es : List PlacedEvent) (s : Session σ) :
    s.pass rules es =
      ((Outcome.each data (payloads es) s).andThen close).andThen (pass rules es) := by
  induction es generalizing s with
  | nil => exact s.close_close.symm
  | cons e es ih =>
    by_cases he : Ends e.event
    · rw [payloads_of_ends he, pass_cons, step_of_ends rules he, Outcome.andThen_assoc]
      refine s.close_andThen_congr fun t _ => ?_
      rw [pass_cons]
    · rcases e with ⟨e, last⟩
      obtain rfl | ⟨payload, rfl⟩ := eq_of_not_ends he
      · rw [pass_cons]
        change s.pass rules es = _
        rw [ih]
        rfl
      · rw [pass_cons]
        change (s.data payload).andThen _ =
          ((Outcome.each data (payload :: payloads es) s).andThen close).andThen _
        rw [Outcome.each_cons, Outcome.andThen_assoc, Outcome.andThen_assoc]
        congr 1
        funext t
        rw [ih, Outcome.andThen_assoc]
        congr 1
        funext u
        refine u.close_andThen_congr fun v hv => ?_
        rw [pass_cons]
        change _ = (v.data payload).andThen _
        rw [data_inactive hv]
        rfl

lemma pass_passages (rules : PassRules) (es : List PlacedEvent) {s : Session σ} (h : s.active = none) :
    s.pass rules es = Outcome.each (passage rules) (passages es) s := by
  induction es generalizing s with
  | nil => exact close_inactive h
  | cons e es ih =>
    rcases e with ⟨e, last⟩
    rw [pass_cons]
    cases e with
    | idle => exact ih h
    | data payload =>
      change (s.data payload).andThen _ = _
      rw [data_inactive h]
      exact ih h
    | boundary =>
      change s.close.andThen _ = _
      rw [close_inactive h]
      exact ih h
    | file a flags =>
      change (s.close.andThen (file rules a flags)).andThen _ =
        Outcome.each (passage rules) (.member ⟨a, flags, payloads es⟩ :: passages es) s
      rw [close_inactive h, Outcome.each_cons, Outcome.andThen_ok]
      change _ = (((file rules a flags s).andThen (Outcome.each data (payloads es))).andThen close).andThen _
      rw [Outcome.andThen_assoc, Outcome.andThen_assoc]
      congr 1
      funext t
      rw [pass_active, Outcome.andThen_assoc]
      congr 1
      funext u
      exact u.close_andThen_congr fun v hv => ih hv
    | badRecord w =>
      change (s.close.andThen _).andThen _ =
        Outcome.each (passage rules) (.badRecord w last :: passages es) s
      rw [close_inactive h, Outcome.each_cons]
      refine ih ?_
      split <;> exact h
    | badBlock w =>
      change (s.close.andThen _).andThen _ =
        Outcome.each (passage rules) (.badBlock w last :: passages es) s
      rw [close_inactive h, Outcome.each_cons]
      refine ih ?_
      split <;> exact h

end Session

end SaveSet
