import SaveSet.Name.HostPath
import SaveSet.Output.HostTree
import SaveSet.Selection.Options

namespace SaveSet

structure FolderSink where
  tree : HostTree
  root : String
  style : Name.PathStyle
  timestamps : Bool
  source : Option (List String) := none
  sourceOpened : Bool := false
  opened : Array (List String × Option Int) := #[]
  deriving DecidableEq, Repr

namespace FolderSink

def ofOptions (tree : HostTree) (root : String) (o : Options) : FolderSink :=
  { tree, root, style := ⟨o.folders, o.versions⟩, timestamps := o.timestamps }

def place (s : FolderSink) (name : String) : Except Fault (List String) × HostTree :=
  let components := Name.components s.style name
  let folder := components.dropLast.foldl Name.join s.root
  let file := components.getLastD ""
  if HostTree.isTooLong folder then (.error .invalidFilename, s.tree)
  else match s.tree.enter [] (HostTree.names s.root ++ components.dropLast) with
    | (.error f, tree) => (.error f, tree)
    | (.ok path, tree) =>
      if HostTree.isTooLong (Name.join folder file) then (.error .invalidFilename, tree)
      else tree.create path file

def openFile (r : OpenRequest) (s : FolderSink) : Except Fault Handle × FolderSink :=
  match s.place r.name with
  | (.error f, tree) => (.error f, { s with tree })
  | (.ok file, tree) =>
    let date := if s.timestamps then r.modified.seconds? else none
    (.ok ⟨s.opened.size⟩, { s with
      tree
      sourceOpened := s.sourceOpened || some file == s.source
      opened := s.opened.push (file, date) })

def write (h : Handle) (data : Bytes) (s : FolderSink) : Outcome FolderSink :=
  match s.opened[h.index]? with
  | some (file, _) => .ok { s with tree := s.tree.modifyFile file (·.append data) }
  | none => .stop s .notFound

def closeFile (h : Handle) (s : FolderSink) : Outcome FolderSink :=
  match s.opened[h.index]? with
  | some (file, date) =>
    .ok { s with tree := s.tree.modifyFile file fun f =>
      { f.flush with modified := date <|> f.modified } }
  | none => .stop s .notFound

def overwritten (s : FolderSink) : Option (Array UInt8) :=
  if s.sourceOpened then (s.source.bind s.tree.file?).map (·.visible.toArray) else none

instance : Sink FolderSink where
  openFile := openFile
  write := write
  closeFile := closeFile
  overwritten := overwritten

end FolderSink

end SaveSet
