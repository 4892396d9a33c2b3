import SaveSet.Name.Version

/-! Where a file specification lies below an output folder. Names come from untrusted bytes: the
components are harmless whatever the specification says. -/

namespace SaveSet.Name

def brackets? (spec : String) : Option (List Char × List Char) :=
  let cs := spec.toList
  let opening := cs.idxOf '['
  let closing := cs.idxOf ']'
  if opening < closing ∧ closing < cs.length then
    some ((cs.take closing).drop (opening + 1), cs.drop (closing + 1))
  else none

def directories (spec : String) : List String :=
  match brackets? spec with
  | some (inner, _) => ((inner.splitOn '.').filter (· ≠ [])).map String.ofList
  | none => []

def filePart (spec : String) : String :=
  match brackets? spec with
  | some (_, rest) => String.ofList rest
  | none => spec

def isHarmless (c : Char) : Bool :=
  ('A' ≤ c && c ≤ 'Z') || ('a' ≤ c && c ≤ 'z') || ('0' ≤ c && c ≤ '9') ||
    c == '.' || c == '_' || c == '-' || c == ';' || c == '$'

/-- One path component: other characters become underscores, and so do dots where there is nothing
else, so that no component is empty or leads elsewhere. -/
def sanitize (component : String) : String :=
  let cleaned := component.toList.map fun c => if isHarmless c then c else '_'
  if cleaned.all (· == '.') then String.ofList (List.replicate (max cleaned.length 1) '_')
  else String.ofList cleaned

structure PathStyle where
  folders : Bool
  versions : Bool
  deriving DecidableEq, Repr

def components (style : PathStyle) (spec : String) : List String :=
  let file := if style.versions then filePart spec else base (filePart spec)
  (if style.folders then (directories spec).map sanitize else []) ++ [sanitize file]

def join (path component : String) : String :=
  if component.startsWith '/' then component
  else if path.isEmpty || path.endsWith '/' then path ++ component
  else path ++ "/" ++ component

def hostPath (root : String) (style : PathStyle) (spec : String) : String :=
  (components style spec).foldl join root

end SaveSet.Name
