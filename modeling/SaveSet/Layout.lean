import SaveSet.Bytes

/-! Field tables: where the fields of a fixed header lie, given relative to earlier fields. -/

namespace SaveSet

structure Shortfall where
  what : String
  needed : Nat
  available : Nat
  deriving DecidableEq, Repr

inductive Anchor where
  | start
  | after (field : Nat)
  | overlay (field : Nat)
  deriving DecidableEq, Repr

structure FieldSpec where
  anchor : Anchor
  width : Nat
  count : Nat := 1
  deriving DecidableEq, Repr

structure Field where
  offset : Nat
  size : Nat
  deriving DecidableEq, Repr, Inhabited

def Field.stop (f : Field) : Nat := f.offset + f.size

def Anchor.offset (placed : List Field) : Anchor → Nat
  | start => 0
  | after i => (placed.getD i ⟨0, 0⟩).stop
  | overlay i => (placed.getD i ⟨0, 0⟩).offset

def FieldSpec.place (placed : List Field) (s : FieldSpec) : Field :=
  ⟨s.anchor.offset placed, s.width * s.count⟩

structure Layout where
  fields : List Field
  deriving DecidableEq, Repr

namespace Layout

def placeAll (placed : List Field) : List FieldSpec → List Field
  | [] => placed
  | s :: specs => placeAll (placed ++ [s.place placed]) specs

def resolve (specs : List FieldSpec) : Layout := ⟨placeAll [] specs⟩

def length (l : Layout) : Nat := (l.fields.map Field.stop).foldl max 0

def field (l : Layout) (i : Nat) : Field := l.fields.getD i ⟨0, 0⟩

def check (l : Layout) (what : String) (buf : Bytes) : Except Shortfall Unit :=
  if Bytes.holds l.length buf then .ok () else .error ⟨what, l.length, buf.length⟩

theorem check_eq_ok {l : Layout} {what : String} {buf : Bytes} :
    l.check what buf = .ok () ↔ l.length ≤ buf.length := by
  rw [check, ← Bytes.holds_iff]
  split
  · next h => simp [h]
  · next h => simp [h]

theorem check_eq_error {l : Layout} {what : String} {buf : Bytes} {s : Shortfall} (h : l.check what buf = .error s) :
    buf.length < l.length ∧ s = ⟨what, l.length, buf.length⟩ := by
  rw [check] at h
  split at h
  · cases h
  · next hl =>
    rw [Bytes.holds_iff] at hl
    cases h
    exact ⟨Nat.lt_of_not_le hl, rfl⟩

def bytes (l : Layout) (i : Nat) (buf : Bytes) : Bytes :=
  buf.slice (l.field i).offset (l.field i).size

def number (l : Layout) (i : Nat) (buf : Bytes) : Nat := (l.bytes i buf).toNat

end Layout

end SaveSet
