import SaveSet.Output.Sink

namespace SaveSet

def HostFile.room : Nat := 8192

/-- A file and what its writer holds back. Small pieces are held back until there is no room for the
next one. -/
structure HostFile where
  path : List String
  stored : List Bytes := []
  held : List Bytes := []
  spare : Nat := HostFile.room
  modified : Option Int := none
  deriving DecidableEq, Repr

namespace HostFile

def ofBytes (path : List String) (data : Bytes) : HostFile := { path, stored := [data] }

def data (f : HostFile) : Bytes := (f.held ++ f.stored).reverse.flatten

def visible (f : HostFile) : Bytes := f.stored.reverse.flatten

def flush (f : HostFile) : HostFile :=
  { f with stored := f.held ++ f.stored, held := [], spare := room }

def hold (f : HostFile) (piece : Bytes) (size : Nat) : HostFile :=
  { f with held := piece :: f.held, spare := f.spare - size }

def append (f : HostFile) (piece : Bytes) : HostFile :=
  let size := piece.length
  if room ≤ size then { f.flush with stored := piece :: f.flush.stored }
  else if size ≤ f.spare then f.hold piece size
  else f.flush.hold piece size

@[simp] theorem visible_flush (f : HostFile) : f.flush.visible = f.data := by simp [visible, data, flush]

@[simp] theorem data_append (f : HostFile) (piece : Bytes) : (f.append piece).data = f.data ++ piece := by
  simp only [append]
  split
  · simp [data, flush]
  · split <;> simp [data, hold, flush]

def pathText (f : HostFile) : String := "/".intercalate f.path

def isInside (f : HostFile) : Bool := f.path.head? != some "/" && f.path.head? != some ".."

end HostFile

structure HostTree where
  files : List HostFile := []
  folders : List (List String) := []
  deriving DecidableEq, Repr, Inhabited

namespace HostTree

def maxName : Nat := 255

def maxPath : Nat := 4095

def isTooLong (path : String) : Bool := maxPath < path.utf8ByteSize

def file? (t : HostTree) (path : List String) : Option HostFile := t.files.find? (·.path == path)

def hasFile (t : HostTree) (path : List String) : Bool := (t.file? path).isSome

def hasFolder (t : HostTree) (path : List String) : Bool := path == [] || t.folders.contains path

def names (path : String) : List String :=
  (if path.startsWith "/" then ["/"] else []) ++
    ((path.toList.splitOn '/').map String.ofList).filter fun n => n != "" && n != "."

def follow (path : List String) (name : String) : List String :=
  if name = ".." ∧ path ≠ [] ∧ path.getLast? ≠ some ".." then path.dropLast else path ++ [name]

def enter (t : HostTree) (path : List String) : List String → Except Fault (List String) × HostTree
  | [] => (.ok path, t)
  | name :: names =>
    let next := follow path name
    if name = ".." ∨ t.hasFolder next then enter t next names
    else if t.hasFile next then (.error (if names = [] then .alreadyExists else .notADirectory), t)
    else if maxName < name.utf8ByteSize then (.error .invalidFilename, t)
    else enter { t with folders := t.folders ++ [next] } next names

def create (t : HostTree) (path : List String) (name : String) :
    Except Fault (List String) × HostTree :=
  let file := path ++ [name]
  if t.hasFolder file then (.error .isADirectory, t)
  else if maxName < name.utf8ByteSize then (.error .invalidFilename, t)
  else (.ok file, { t with files := { path := file } :: t.files.filter (·.path != file) })

def modifyFirst (path : List String) (f : HostFile → HostFile) : List HostFile → List HostFile
  | [] => []
  | h :: hs => if h.path = path then f h :: hs else h :: modifyFirst path f hs

def modifyFile (t : HostTree) (path : List String) (f : HostFile → HostFile) : HostTree :=
  { t with files := modifyFirst path f t.files }

def meansFolder (path : String) : Bool :=
  let last := (path.toList.splitOn '/').getLastD []
  last = [] || last = ['.']

def locateFrom (t : HostTree) (path : List String) : List String → Except Fault HostFile
  | [] => .error .isADirectory
  | name :: names =>
    let next := follow path name
    match t.file? next with
    | some f => if names = [] then .ok f else .error .notADirectory
    | none =>
      if name = ".." ∨ t.hasFolder next then t.locateFrom next names
      else .error (if maxName < name.utf8ByteSize then .invalidFilename else .notFound)

def locate (t : HostTree) (path : String) : Except Fault HostFile :=
  if isTooLong path then .error .invalidFilename
  else if meansFolder path then .error .notADirectory
  else t.locateFrom [] (names path)

def holding (path : String) (data : Bytes) : HostTree :=
  let file := (names path).foldl follow []
  { files := [.ofBytes file data], folders := file.dropLast.scanl (fun p n => p ++ [n]) [] }

def listed (t : HostTree) : List HostFile :=
  (t.files.filter HostFile.isInside).mergeSort fun f g => !decide (g.pathText < f.pathText)

end HostTree

end SaveSet
