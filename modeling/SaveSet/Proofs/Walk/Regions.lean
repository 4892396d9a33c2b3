import SaveSet.Proofs.Walk.Members

/-! A save set cut between two of its blocks. Each part tells its own events, whatever stands in the other, and
only the file that is open at the cut has data on both sides. -/

namespace SaveSet

instance : DecidablePred Session.Ends := fun e =>
  match e with
  | .idle | .data _ => isFalse id
  | .boundary | .file _ _ | .badRecord _ | .badBlock _ => isTrue trivial

namespace Geometry

def eventsBefore (g : Geometry) (a : Nat) (bytes : Bytes) : List PlacedEvent :=
  ((g.blocks bytes).take a).flatMap (Block.events g)

def eventsFrom (g : Geometry) (b : Nat) (bytes : Bytes) : List PlacedEvent :=
  ((g.blocks bytes).drop b).flatMap (Block.events g)

variable (g : Geometry) {x y : Bytes}

lemma events_split (a : Nat) (bytes : Bytes) :
    g.events bytes = g.eventsBefore a bytes ++ g.eventsFrom a bytes := by
  rw [eventsBefore, eventsFrom, ← List.flatMap_append, List.take_append_drop, events]

lemma blocks_take {a : Nat} (hl : y.length = x.length)
    (ht : y.take (a * g.blockSize) = x.take (a * g.blockSize)) : (g.blocks y).take a = (g.blocks x).take a := by
  induction a generalizing x y with
  | zero => rw [List.take_zero, List.take_zero]
  | succ a ih =>
    by_cases hx : x = [] ∨ g.blockSize = 0
    · have hy : y = [] ∨ g.blockSize = 0 := hx.imp_left fun h => by simpa [h] using hl
      rw [blocks, if_pos hy, blocks, if_pos hx]
    · obtain ⟨hn, hg⟩ := not_or.mp hx
      have hny : y ≠ [] := fun h => hn (List.length_eq_zero_iff.mp (by rw [← hl, h]; rfl))
      rw [Nat.succ_mul] at ht
      have hfirst : y.take g.blockSize = x.take g.blockSize := by
        have h := congrArg (List.take g.blockSize) ht
        rwa [List.take_take, List.take_take, Nat.min_eq_left (Nat.le_add_left _ _)] at h
      have hlater : (y.drop g.blockSize).take (a * g.blockSize) = (x.drop g.blockSize).take (a * g.blockSize) := by
        have h := congrArg (List.drop g.blockSize) ht
        rwa [List.drop_take, List.drop_take, Nat.add_sub_cancel] at h
      have hlength : (y.drop g.blockSize).length = (x.drop g.blockSize).length := by
        rw [List.length_drop, List.length_drop, hl]
      rw [blocks_cons g hny hg, blocks_cons g hn hg, List.take_succ_cons, List.take_succ_cons, hfirst, hl,
        ih hlength hlater]

lemma blocks_drop (b : Nat) (bytes : Bytes) : (g.blocks bytes).drop b = g.blocks (bytes.drop (b * g.blockSize)) := by
  induction b generalizing bytes with
  | zero => rw [List.drop_zero, Nat.zero_mul, List.drop_zero]
  | succ b ih =>
    by_cases hb : bytes = [] ∨ g.blockSize = 0
    · have hrest : bytes.drop ((b + 1) * g.blockSize) = [] ∨ g.blockSize = 0 :=
        hb.imp_left fun h => by rw [h, List.drop_nil]
      rw [blocks, if_pos hb, blocks, if_pos hrest, List.drop_nil]
    · obtain ⟨hn, hg⟩ := not_or.mp hb
      rw [blocks_cons g hn hg, List.drop_succ_cons, ih, List.drop_drop, Nat.succ_mul, Nat.add_comm]

lemma eventsBefore_congr {a : Nat} (hl : y.length = x.length)
    (ht : y.take (a * g.blockSize) = x.take (a * g.blockSize)) : g.eventsBefore a y = g.eventsBefore a x := by
  rw [eventsBefore, g.blocks_take hl ht, eventsBefore]

lemma eventsFrom_eq (b : Nat) (bytes : Bytes) : g.eventsFrom b bytes = g.events (bytes.drop (b * g.blockSize)) := by
  rw [eventsFrom, blocks_drop, events]

lemma events_between {a b : Nat} (hab : a ≤ b) (bytes : Bytes) :
    ∃ between, g.events bytes = g.eventsBefore a bytes ++ (between ++ g.eventsFrom b bytes) := by
  refine ⟨g.eventsBefore (b - a) (bytes.drop (a * g.blockSize)), ?_⟩
  have hb : a * g.blockSize + (b - a) * g.blockSize = b * g.blockSize := by
    rw [← Nat.add_mul, Nat.add_sub_cancel' hab]
  rw [g.events_split a, g.eventsFrom_eq a, g.events_split (b - a), g.eventsFrom_eq (b - a), List.drop_drop, hb,
    g.eventsFrom_eq b]

end Geometry

def closedMembers : List PlacedEvent → List Member
  | [] => []
  | e :: es =>
    match e.event with
    | .file a flags =>
      if ∃ f ∈ es, Session.Ends f.event then ⟨a, flags, payloads es⟩ :: closedMembers es else closedMembers es
    | _ => closedMembers es

namespace Geometry

def endedBefore (g : Geometry) (a : Nat) (bytes : Bytes) : List Member := closedMembers (g.eventsBefore a bytes)

def startedFrom (g : Geometry) (b : Nat) (bytes : Bytes) : List Member := members (passages (g.eventsFrom b bytes))

end Geometry

lemma payloads_append {es : List PlacedEvent} (h : ∃ e ∈ es, Session.Ends e.event) (fs : List PlacedEvent) :
    payloads (es ++ fs) = payloads es := by
  induction es with
  | nil =>
    obtain ⟨e, he, -⟩ := h
    cases he
  | cons e es ih =>
    by_cases he : Session.Ends e.event
    · rw [List.cons_append, Session.payloads_of_ends he, Session.payloads_of_ends he]
    · have hes : ∃ f ∈ es, Session.Ends f.event := by
        obtain ⟨f, hf, hends⟩ := h
        rcases List.mem_cons.mp hf with rfl | hf
        · exact absurd hends he
        · exact ⟨f, hf, hends⟩
      rcases e with ⟨e, last⟩
      obtain rfl | ⟨p, rfl⟩ := Session.eq_of_not_ends he
      · exact ih hes
      · exact congrArg (p :: ·) (ih hes)

lemma members_of_open {es : List PlacedEvent} (h : ¬ ∃ e ∈ es, Session.Ends e.event) (fs : List PlacedEvent) :
    closedMembers es = [] ∧ members (passages (es ++ fs)) = members (passages fs) := by
  induction es with
  | nil => exact ⟨rfl, rfl⟩
  | cons e es ih =>
    have hes : ¬ ∃ f ∈ es, Session.Ends f.event := by
      rintro ⟨f, hf, hends⟩
      exact h ⟨f, List.mem_cons_of_mem _ hf, hends⟩
    have he : ¬ Session.Ends e.event := fun hends => h ⟨e, List.mem_cons_self, hends⟩
    rcases e with ⟨e, last⟩
    obtain rfl | ⟨p, rfl⟩ := Session.eq_of_not_ends he
    · exact ih hes
    · exact ih hes

lemma members_append (es fs : List PlacedEvent) : ∃ cut : Option Member,
    members (passages (es ++ fs)) = closedMembers es ++ (cut.toList ++ members (passages fs)) := by
  induction es with
  | nil => exact ⟨none, rfl⟩
  | cons e es ih =>
    obtain ⟨cut, ih⟩ := ih
    rcases e with ⟨e, last⟩
    cases e with
    | file a flags =>
      have hmembers : members (passages (⟨.file a flags, last⟩ :: es ++ fs)) =
          ⟨a, flags, payloads (es ++ fs)⟩ :: members (passages (es ++ fs)) := rfl
      rw [hmembers, closedMembers]
      dsimp only
      by_cases hes : ∃ f ∈ es, Session.Ends f.event
      · refine ⟨cut, ?_⟩
        rw [ih, payloads_append hes, if_pos hes, List.cons_append]
      · refine ⟨some ⟨a, flags, payloads (es ++ fs)⟩, ?_⟩
        obtain ⟨hclosed, hmembers⟩ := members_of_open hes fs
        rw [if_neg hes, hclosed, hmembers]
        rfl
    | idle => exact ⟨cut, ih⟩
    | boundary => exact ⟨cut, ih⟩
    | data p => exact ⟨cut, ih⟩
    | badRecord w => exact ⟨cut, ih⟩
    | badBlock w => exact ⟨cut, ih⟩

end SaveSet
