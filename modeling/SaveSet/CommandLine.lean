import SaveSet.Listing
import SaveSet.Output.Folder
import SaveSet.Run

namespace SaveSet

inductive Switch where
  | noExtract
  | folders
  | withVersion
  | timestamps
  | ramCache
  | debug
  | help
  deriving DecidableEq, Repr

inductive Setting where
  | list
  | mode
  | mask
  | outputDir
  deriving DecidableEq, Repr

inductive Refusal where
  | usage
  | help
  deriving DecidableEq, Repr

inductive Argument where
  | switch (s : Switch)
  | setting (s : Setting)
  deriving DecidableEq, Repr

structure Arguments where
  switches : List Switch := []
  settings : List (Setting × String) := []
  saveSet : Option String := none
  pending : Option Setting := none
  trailing : Bool := false
  deriving DecidableEq, Repr

namespace Arguments

def letters : List (Char × Argument) :=
  [('l', .setting .list), ('n', .switch .noExtract), ('x', .setting .mode), ('m', .setting .mask),
   ('f', .switch .folders), ('V', .switch .withVersion), ('t', .switch .timestamps),
   ('r', .switch .ramCache), ('d', .switch .debug), ('C', .setting .outputDir), ('h', .switch .help)]

def words : List (String × Argument) :=
  [("list", .setting .list), ("no-extract", .switch .noExtract), ("mode", .setting .mode),
   ("mask", .setting .mask), ("folders", .switch .folders), ("with-version", .switch .withVersion),
   ("timestamps", .switch .timestamps), ("ram-cache", .switch .ramCache),
   ("output-dir", .setting .outputDir), ("help", .switch .help)]

def listings : List (String × ListingStyle) :=
  [("suppress", .suppress), ("brief", .brief), ("full", .full), ("csv", .csv)]

def modes : List (String × ContentMode) :=
  [("smart", .smart), ("ascii", .ascii), ("binary", .binary), ("raw", .raw)]

def isValue (value : String) : Setting → Bool
  | .list => (listings.lookup value).isSome
  | .mode => (modes.lookup value).isSome
  | .mask => true
  | .outputDir => value != ""

def addSwitch (a : Arguments) (s : Switch) : Except Refusal Arguments :=
  if s = .help then .error .help
  else if s ≠ .debug ∧ s ∈ a.switches then .error .usage
  else .ok { a with switches := s :: a.switches }

def addSetting (a : Arguments) (s : Setting) (value : String) : Except Refusal Arguments :=
  if (a.settings.lookup s).isSome || !isValue value s then .error .usage
  else .ok { a with settings := (s, value) :: a.settings, pending := none }

def addSaveSet (a : Arguments) (path : String) : Except Refusal Arguments :=
  if a.saveSet.isSome || path == "" then .error .usage else .ok { a with saveSet := some path }

def addLetters (a : Arguments) : List Char → Except Refusal Arguments
  | [] => .ok a
  | c :: cs =>
    match letters.lookup c with
    | none => .error .usage
    | some (.switch s) =>
      match a.addSwitch s with
      | .ok a => addLetters a cs
      | .error e => .error e
    | some (.setting s) =>
      match cs with
      | [] => .ok { a with pending := some s }
      | '=' :: value => a.addSetting s (String.ofList value)
      | value => a.addSetting s (String.ofList value)

def addWord (a : Arguments) (cs : List Char) : Except Refusal Arguments :=
  let value := cs.dropWhile (· ≠ '=')
  match words.lookup (String.ofList (cs.takeWhile (· ≠ '='))), value with
  | some (.switch s), [] => a.addSwitch s
  | some (.setting s), [] => .ok { a with pending := some s }
  | some (.setting s), _ :: value => a.addSetting s (String.ofList value)
  | _, _ => .error .usage

def add (a : Arguments) (arg : String) : Except Refusal Arguments :=
  if a.trailing then a.addSaveSet arg
  else match arg.toList, a.pending with
    | '-' :: _ :: _, some _ => .error .usage
    | ['-', '-'], none => .ok { a with trailing := true }
    | '-' :: '-' :: cs, none => a.addWord cs
    | '-' :: c :: cs, none => a.addLetters (c :: cs)
    | _, some s => a.addSetting s arg
    | _, none => a.addSaveSet arg

def read (args : List String) : Except Refusal Arguments := args.foldlM add {}

end Arguments

structure Invocation where
  saveSet : String
  outputDir : String
  options : Options
  maskError : Option SelectionError
  deriving DecidableEq, Repr

namespace Invocation

def detailOf (count : Nat) : Detail :=
  match count with
  | 0 => .none
  | 1 => .basic
  | _ => .enhanced

def ofArguments (a : Arguments) : Except Refusal Invocation :=
  match a.saveSet, a.pending with
  | some saveSet, none =>
    let o : Options := {
      listing := ((a.settings.lookup .list).bind (List.lookup · Arguments.listings)).getD .brief
      extract := !a.switches.contains .noExtract
      mode := ((a.settings.lookup .mode).bind (List.lookup · Arguments.modes)).getD .smart
      folders := a.switches.contains .folders
      versions := a.switches.contains .withVersion
      timestamps := a.switches.contains .timestamps
      cached := a.switches.contains .ramCache
      detail := detailOf (a.switches.count .debug) }
    let outputDir := (a.settings.lookup .outputDir).getD "."
    match (Options.takeMask ((a.settings.lookup .mask).getD o.mask)).run o with
    | .ok _ o => .ok ⟨saveSet, outputDir, o, none⟩
    | .error e o => .ok ⟨saveSet, outputDir, o, some e⟩
  | _, _ => .error .usage

def parse (args : List String) : Except Refusal Invocation := do ofArguments (← Arguments.read args)

end Invocation

structure Execution where
  exitCode : Nat
  output : String
  errors : String
  tree : HostTree
  deriving DecidableEq, Repr

def RunError.report : RunError → String
  | truncated s =>
    "Error: TruncatedHeader \x7b what: \"" ++ s.what ++ "\", needed: " ++ Numeral.natural s.needed ++
      ", available: " ++ Numeral.natural s.available ++ " \x7d"
  | geometry g =>
    "Error: InvalidBlockSize \x7b block_size: " ++ Numeral.natural g.blockSize ++ ", header_size: " ++
      Numeral.natural g.headerSize ++ " \x7d"
  | io _ => "Error: Io"

namespace Invocation

def maskWarning (i : Invocation) : String :=
  match i.maskError with
  | some e => e.message ++ ", using '*.*'\n"
  | none => ""

def warningCount (s : Summary) : String :=
  if s.warnings.isEmpty then "" else Numeral.natural s.warnings.length ++ " warning(s)\n"

def outputOf (i : Invocation) (s : Summary) : String :=
  (if i.options.listing = .suppress then "" else Listing.banner s.name s.blockSize ++ "\n") ++
    String.join (s.files.filterMap (Listing.render i.options.listing))

def stopped (i : Invocation) (e : RunError) (tree : HostTree) : Execution :=
  ⟨1, "", i.maskWarning ++ e.report ++ "\n", tree⟩

def perform (i : Invocation) (tree : HostTree) : Execution :=
  match tree.locate i.saveSet with
  | .error f => i.stopped (.io f) tree
  | .ok file =>
    let sink := FolderSink.ofOptions tree i.outputDir i.options
    let done :=
      if i.options.cached then run i.options (.ofBytes file.data 0 .prompt) sink
      else run i.options (.ofFile file.data) { sink with source := some file.path }
    match done.result with
    | .error e => i.stopped e done.sink.tree
    | .ok s => ⟨0, i.outputOf s, i.maskWarning ++ warningCount s, done.sink.tree⟩

end Invocation

end SaveSet
