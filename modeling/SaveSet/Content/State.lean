import SaveSet.Attribute.Record
import SaveSet.Content.LineEnds
import SaveSet.Content.Mode

namespace SaveSet

/-- Where a stream of records was cut by the end of a payload: what is to be passed over, what the record in flight
still has to come, and the first byte of a length word. -/
structure Carry where
  skip : Nat := 0
  owed : Nat := 0
  inRecord : Bool := false
  lowByte : Option UInt8 := none
  deriving DecidableEq, Repr, Inhabited

structure Content where
  size : Nat
  format : RecordFormat
  mode : ContentMode
  position : Nat := 0
  settled : Bool := false
  carry : Carry := {}
  offset : Nat := 0
  lines : LineEnds := {}
  deriving DecidableEq, Repr

namespace Content

def reset (c : Content) : Content := { size := c.size, format := c.format, mode := c.mode }

def isComplete (c : Content) : Bool := c.position == c.size

def remaining (c : Content) : Nat := c.size - c.position

end Content

/-- A piece of output, and the content as it is left if the output does not take it. -/
structure Write where
  bytes : Bytes
  refused : Content
  deriving DecidableEq, Repr

structure Emission (α : Type) where
  writes : List Write
  value : α
  deriving DecidableEq, Repr

namespace Emission

variable {α β : Type}

def silent (a : α) : Emission α := ⟨[], a⟩

def andThen (e : Emission α) (f : α → Emission β) : Emission β :=
  ⟨e.writes ++ (f e.value).writes, (f e.value).value⟩

def map (f : α → β) (e : Emission α) : Emission β := ⟨e.writes, f e.value⟩

def bytes (e : Emission α) : Bytes := e.writes.flatMap Write.bytes

@[simp] theorem bytes_silent (a : α) : (silent a).bytes = [] := rfl

@[simp] theorem bytes_andThen (e : Emission α) (f : α → Emission β) :
    (e.andThen f).bytes = e.bytes ++ (f e.value).bytes := by
  simp [andThen, bytes]

@[simp] theorem bytes_map (f : α → β) (e : Emission α) : (e.map f).bytes = e.bytes := rfl

end Emission

def piece (bytes : Bytes) (refused : Content) : List Write :=
  if bytes.isEmpty then [] else [⟨bytes, refused⟩]

theorem flatMap_piece (bytes : Bytes) (c : Content) : (piece bytes c).flatMap Write.bytes = bytes := by
  cases bytes <;> simp [piece]

end SaveSet
