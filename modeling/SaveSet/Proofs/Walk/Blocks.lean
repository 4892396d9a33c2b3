import SaveSet.Proofs.Input.Reliable
import SaveSet.Walk.Traversal

/-! A pass over a reader of which no read fails is a fold over the events of its blocks, which depend on
nothing but the bytes. -/

namespace SaveSet

namespace Outcome

variable {σ α β : Type}

lemma each_append (step : α → σ → Outcome σ) (xs ys : List α) (s : σ) :
    each step (xs ++ ys) s = (each step xs s).andThen (each step ys) := by
  induction xs generalizing s with
  | nil => rfl
  | cons x xs ih =>
    rw [List.cons_append, each_cons, each_cons, andThen_assoc]
    congr 1
    funext t
    exact ih t

lemma each_map (f : β → α) (step : α → σ → Outcome σ) (xs : List β) (s : σ) :
    each step (xs.map f) s = each (fun x => step (f x)) xs s := by
  induction xs generalizing s with
  | nil => rfl
  | cons x xs ih =>
    rw [List.map_cons, each_cons, each_cons]
    congr 1
    funext t
    exact ih t

lemma state_andThen {P : σ → Prop} {o : Outcome σ} {step : σ → Outcome σ} (ho : P o.state)
    (hs : P o.state → P (step o.state).state) : P (o.andThen step).state := by
  rcases o with ⟨s, _ | f⟩
  · exact hs ho
  · exact ho

lemma state_each {P : σ → Prop} {step : α → σ → Outcome σ} (h : ∀ x s, P s → P (step x s).state) (xs : List α) {s : σ}
    (hs : P s) : P (each step xs s).state := by
  induction xs generalizing s with
  | nil => exact hs
  | cons x xs ih =>
    rw [each_cons]
    apply state_andThen (h x s hs)
    intro hx
    exact ih hx

end Outcome

structure Block where
  bytes : Bytes
  last : Bool
  deriving DecidableEq, Repr

structure PlacedEvent where
  event : Event
  last : Bool
  deriving DecidableEq, Repr

def Block.events (g : Geometry) (b : Block) : List PlacedEvent :=
  (readBlock g b.bytes).events.map (⟨·, b.last⟩)

namespace Geometry

def blocks (g : Geometry) (bytes : Bytes) : List Block :=
  if bytes = [] ∨ g.blockSize = 0 then []
  else ⟨bytes.take g.blockSize, bytes.length ≤ g.blockSize⟩ :: g.blocks (bytes.drop g.blockSize)
termination_by bytes.length
decreasing_by
  have hb : 0 < bytes.length := List.length_pos_iff.mpr (not_or.mp ‹_›).1
  have hg := (not_or.mp ‹_›).2
  rw [List.length_drop]
  omega

def events (g : Geometry) (bytes : Bytes) : List PlacedEvent := (g.blocks bytes).flatMap (Block.events g)

lemma blocks_nil (g : Geometry) : g.blocks [] = [] := by
  rw [blocks, if_pos (Or.inl rfl)]

lemma blocks_cons (g : Geometry) {bytes : Bytes} (hb : bytes ≠ []) (hg : g.blockSize ≠ 0) :
    g.blocks bytes =
      ⟨bytes.take g.blockSize, bytes.length ≤ g.blockSize⟩ :: g.blocks (bytes.drop g.blockSize) := by
  rw [blocks, if_neg (not_or.mpr ⟨hb, hg⟩)]

end Geometry

variable {σ : Type} [Sink σ]

def Session.step (rules : PassRules) (e : PlacedEvent) (s : Session σ) : Outcome (Session σ) :=
  s.apply rules e.last e.event

lemma Session.each_block (rules : PassRules) (g : Geometry) (b : Block) (s : Session σ) :
    Outcome.each (Session.step rules) (b.events g) s =
      s.applyAll rules b.last (readBlock g b.bytes).events :=
  Outcome.each_map _ _ _ s

lemma Session.refresh_apart (hq : ∀ s : σ, Sink.overwritten s = none) (s : Session σ) (r : Reader) :
    s.refresh r = r := by
  rw [refresh, hq]

lemma Session.read_block (hq : ∀ s : σ, Sink.overwritten s = none) {s : Session σ} {r r' : Reader}
    (hr : r.Ready) {want : Nat} {result : Except Fault Bytes}
    (he : (s.refresh r).read want = (result, r')) :
    result = .ok (r.rest.take want) ∧ r.Later r' ∧ r'.rest = r.rest.drop want := by
  obtain ⟨r'', hs, hlater, hrest⟩ := Reader.read_ready hr want
  rw [s.refresh_apart hq, hs] at he
  cases he
  exact ⟨rfl, hlater, hrest⟩

lemma events_step {g : Geometry} {r : Reader} (hr : r.Ready)
    (hb : ¬ (r.rest.take g.blockSize).isEmpty = true) :
    g.events r.rest =
      (Block.events g ⟨r.rest.take g.blockSize, r.length - r.position ≤ g.blockSize⟩) ++
        g.events (r.rest.drop g.blockSize) := by
  have hn : r.rest ≠ [] := by rintro hn; simp [hn] at hb
  have hg : g.blockSize ≠ 0 := by intro hz; simp [hz] at hb
  rw [Geometry.events, Geometry.blocks_cons g hn hg, List.flatMap_cons, Reader.length_rest,
    hr.length_eq]
  rfl

lemma walkBlocks_ready (hq : ∀ s : σ, Sink.overwritten s = none) (rules : PassRules) (g : Geometry)
    {r : Reader} (hr : r.Ready) (s : Session σ) :
    ∃ r', walkBlocks rules g r s = ⟨Outcome.each (Session.step rules) (g.events r.rest) s, r'⟩ ∧ r.Later r' := by
  fun_induction walkBlocks rules g r s with
  | case1 r s h =>
    rw [(Reader.atEnd_iff hr).mp h, Geometry.events, Geometry.blocks_nil]
    exact ⟨r, rfl, hr, rfl, rfl⟩
  | case2 r s h f r' he =>
    cases (Session.read_block hq hr he).1
  | case3 r s h bytes r' he hb =>
    obtain ⟨hbytes, hlater, -⟩ := Session.read_block hq hr he
    cases hbytes
    -- There are bytes left, so only blocks of no size can be empty.
    have hz : g.blockSize = 0 := by
      have hn : r.rest ≠ [] := fun hn => h ((Reader.atEnd_iff hr).mpr hn)
      simpa [hn] using hb
    refine ⟨r', ?_, hlater⟩
    rw [Geometry.events, Geometry.blocks, if_pos (Or.inr hz)]
    rfl
  | case4 r s h bytes r' he hb t f ha =>
    obtain ⟨hbytes, hlater, -⟩ := Session.read_block hq hr he
    cases hbytes
    refine ⟨r', ?_, hlater⟩
    rw [events_step hr hb, Outcome.each_append, Session.each_block, ha]
    rfl
  | case5 r s h bytes r' he hb t ha hh ih =>
    obtain ⟨hbytes, hlater, hrest⟩ := Session.read_block hq hr he
    cases hbytes
    obtain ⟨r'', hw, hlater'⟩ := ih hlater.ready
    refine ⟨r'', ?_, hlater.trans hlater'⟩
    rw [hw, events_step hr hb, Outcome.each_append, Session.each_block, ha, hrest]
    rfl
  | case6 r s h bytes r' he hb t ha hh =>
    obtain ⟨hbytes, hlater, hrest⟩ := Session.read_block hq hr he
    cases hbytes
    -- A short block is the last one.
    have hend : r.rest.drop g.blockSize = [] := by
      rw [Bytes.holds_iff, List.length_take] at hh
      exact List.drop_eq_nil_of_le (by omega)
    refine ⟨r', ?_, hlater⟩
    rw [events_step hr hb, Outcome.each_append, Session.each_block, ha, hend, Geometry.events,
      Geometry.blocks_nil]
    rfl

lemma walkBlocks_eq (rules : PassRules) (g : Geometry) (r : Reader) (s : Session σ) :
    walkBlocks rules g r s =
      if r.atEnd then ⟨.ok s, r⟩
      else
        match (s.refresh r).read g.blockSize with
        | (.error f, r') => ⟨.stop s f, r'⟩
        | (.ok bytes, r') =>
          if bytes.isEmpty then ⟨.ok s, r'⟩
          else
            match s.applyAll rules (r.length - r.position ≤ g.blockSize) (readBlock g bytes).events with
            | ⟨t, some f⟩ => ⟨.stop t f, r'⟩
            | ⟨t, none⟩ => if Bytes.holds g.blockSize bytes then walkBlocks rules g r' t else ⟨.ok t, r'⟩ := by
  rw [walkBlocks]
  split
  · rfl
  · split
    · next h => rw [h]
    · next h =>
      rw [h]
      rfl

lemma walkBlocks_keeps {rules : PassRules} {P : Session σ → Prop}
    (h : ∀ last e s, P s → P (s.apply rules last e).state) (g : Geometry) (r : Reader) {s : Session σ} (hs : P s) :
    P (walkBlocks rules g r s).outcome.state := by
  have hall (last : Bool) (es : List Event) {s : Session σ} (hs : P s) : P (s.applyAll rules last es).state :=
    Outcome.state_each (h last) es hs
  fun_induction walkBlocks rules g r s with
  | case1 r s hend => exact hs
  | case2 r s hend f r' hread => exact hs
  | case3 r s hend bytes r' hread hb => exact hs
  | case4 r s hend bytes r' hread hb t f ha =>
    have ht := hall (r.length - r.position ≤ g.blockSize) (readBlock g bytes).events hs
    rw [ha] at ht
    exact ht
  | case5 r s hend bytes r' hread hb t ha hh ih =>
    have ht := hall (r.length - r.position ≤ g.blockSize) (readBlock g bytes).events hs
    rw [ha] at ht
    exact ih ht
  | case6 r s hend bytes r' hread hb t ha hh =>
    have ht := hall (r.length - r.position ≤ g.blockSize) (readBlock g bytes).events hs
    rw [ha] at ht
    exact ht

end SaveSet
