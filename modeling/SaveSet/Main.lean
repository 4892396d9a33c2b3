import SaveSet.CommandLine

namespace SaveSet

def usageText : String :=
  "Usage: saveset [OPTIONS] <SAVESET>\n\n" ++
  "  -l, --list <suppress|brief|full|csv>      listing style\n" ++
  "  -n, --no-extract                          list only\n" ++
  "  -x, --mode <smart|ascii|binary|raw>       how content is read\n" ++
  "  -m, --mask <NAME[;VERSION]>               files to select\n" ++
  "  -f, --folders                             make the folders of the files\n" ++
  "  -V, --with-version                        keep versions in names\n" ++
  "  -t, --timestamps                          set the dates of revision\n" ++
  "  -r, --ram-cache                           read the save set into memory first\n" ++
  "  -d                                        diagnostics\n" ++
  "  -C, --output-dir <DIR>                    where files are put\n" ++
  "  -h, --help                                this text"

def readSaveSet (path : String) : IO HostTree := do
  try
    return .holding path (← IO.FS.readBinFile path).data.toList
  catch _ =>
    return {}

def leaveFile (f : HostFile) : IO Unit := do
  let folder := "/".intercalate f.path.dropLast
  if folder != "" then
    IO.FS.createDirAll folder
  IO.FS.writeBinFile f.pathText ⟨f.data.toArray⟩

def perform (i : Invocation) : IO UInt32 := do
  let tree ← readSaveSet i.saveSet
  let done := i.perform tree
  for f in done.tree.files do
    if !tree.files.contains f then
      leaveFile f
  IO.print done.output
  IO.eprint done.errors
  return UInt32.ofNat done.exitCode

end SaveSet

def main (args : List String) : IO UInt32 := do
  match SaveSet.Invocation.parse args with
  | .ok i => SaveSet.perform i
  | .error .help =>
    IO.println SaveSet.usageText
    return 0
  | .error .usage =>
    IO.eprintln SaveSet.usageText
    return 2
