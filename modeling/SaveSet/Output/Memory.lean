import SaveSet.Output.Sink

namespace SaveSet

structure MemoryFile where
  name : String
  created : Stamp
  modified : Stamp
  pieces : List Bytes := []
  deriving DecidableEq, Repr

namespace MemoryFile

def data (f : MemoryFile) : Bytes := f.pieces.reverse.flatten

def append (f : MemoryFile) (piece : Bytes) : MemoryFile := { f with pieces := piece :: f.pieces }

@[simp] theorem data_append (f : MemoryFile) (piece : Bytes) : (f.append piece).data = f.data ++ piece := by
  simp [data, append]

end MemoryFile

structure MemorySink where
  files : Array MemoryFile := #[]
  opens : Nat := 0
  closes : Nat := 0
  maxOpen : Nat := 0
  openNow : Nat := 0
  deriving DecidableEq, Repr, Inhabited

namespace MemorySink

def openFile (r : OpenRequest) (s : MemorySink) : Handle × MemorySink :=
  (⟨s.files.size⟩,
    { files := s.files.push ⟨r.name, r.created, r.modified, []⟩
      opens := s.opens + 1
      closes := s.closes
      maxOpen := max s.maxOpen (s.openNow + 1)
      openNow := s.openNow + 1 })

def write (h : Handle) (data : Bytes) (s : MemorySink) : Outcome MemorySink :=
  if h.index < s.files.size then .ok { s with files := s.files.modify h.index (·.append data) }
  else .stop s .notFound

def closeFile (_ : Handle) (s : MemorySink) : MemorySink :=
  { s with closes := s.closes + 1, openNow := s.openNow - 1 }

def file? (s : MemorySink) (name : String) : Option Bytes :=
  (s.files.toList.reverse.find? (·.name == name)).map MemoryFile.data

instance : Sink MemorySink where
  openFile r s := ((s.openFile r).1 |> .ok, (s.openFile r).2)
  write := write
  closeFile h s := .ok (s.closeFile h)

end MemorySink

end SaveSet
