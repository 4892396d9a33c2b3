import SaveSet.Selection.Options
import SaveSet.Walk.Session

namespace SaveSet.Listing

open Numeral (natural integer padLeft padRight)

def banner (name : String) (blockSize : Nat) : String :=
  "Save set:          " ++ name ++ "\nBlock size:        " ++ natural blockSize ++ "\n"

def accessText (nibble : Nat) : String :=
  String.ofList
    (([('R', 0), ('W', 1), ('E', 2), ('D', 3)].filter fun a => !nibble.testBit a.2).map Prod.fst)

def formatText (format : RecordFormat) (recordSize : Nat) : String :=
  let maximum name :=
    if recordSize = 0 then name else name ++ ", maximum " ++ natural recordSize ++ " bytes"
  match format with
  | .fix => "Fixed length 512 byte records"
  | .var => maximum "Variable length"
  | .vfc => maximum "VFC, 2 byte header"
  | .stm => maximum "Stream"
  | .stmLf => maximum "Stream_LF"
  | .stmCr => maximum "Stream_CR"
  | .udf | .unknown _ => ""

def carriageControlText : Nat → String
  | 0 => "None"
  | 1 | 3 => ""
  | 2 => "Carriage return carriage control"
  | 4 => "Print file carriage control"
  | n => "WARNING : Unknown attribute " ++ natural n

def organizationText (f : RecordFlags) : String := if f.nonSequential then "????" else "Sequential"

def contiguousBestTry (a : FileAttributes) : Bool := a.characteristics.getD 0 0 == 0x20

def octal (n : Nat) : String := padLeft 6 '0' (String.ofList (Numeral.digits 8 n))

def group (a : FileAttributes) : String := octal (a.uic.getD 1 0)
def member (a : FileAttributes) : String := octal (a.uic.getD 0 0)

def access (a : FileAttributes) (i : Nat) : String :=
  let byte := (a.protection.getD (i / 2) 0).toNat
  accessText (if i % 2 = 0 then byte % 16 else byte / 16)

def fid (a : FileAttributes) (i : Nat) : Nat := a.fid.getD i 0

def brief (e : Listed) : String :=
  let a := e.attributes
  a.filename ++ "\n                      Size: " ++
    padLeft 7 ' ' (natural a.recordAttributes.usedBlocks) ++ "/" ++
    padRight 7 ' ' (natural a.allocatedBlocks) ++ "   Created: " ++ a.created.format 2 ++ "\n"

def full (e : Listed) : String :=
  let a := e.attributes
  let r := a.recordAttributes
  let lines := [
    a.filename ++ "                  File ID:  (" ++ natural (fid a 0) ++ "," ++ natural (fid a 1) ++
      "," ++ integer (fid a 2 - 1 : Int) ++ ")",
    "Size: " ++ padLeft 12 ' ' (natural r.usedBlocks) ++ "/" ++
      padRight 12 ' ' (natural a.allocatedBlocks) ++ "Owner: [" ++ group a ++ "," ++ member a ++ "]",
    "Created:  " ++ a.created.format 2,
    "Revised:  " ++ a.revised.format 2 ++ " (" ++ natural a.revision ++ ")",
    "Expires:  " ++ a.expires.format 2,
    "Backup:  " ++ a.backedUp.format 2,
    "File organization:  " ++ organizationText e.flags,
    "File attributes:    Allocation: " ++ natural a.allocatedBlocks ++
      ", Extend: 0, Global Buffer Count: 0, Version limit: " ++ natural a.versionLimit ++
      (if contiguousBestTry a then ", Contiguous best try" else ""),
    "  Record format:      " ++ formatText r.format r.recordSize,
    "  Record attributes:  " ++ carriageControlText r.carriageControl,
    "  File protection:    System:" ++ access a 0 ++ ", Owner:" ++ access a 1 ++ ", Group:" ++
      access a 2 ++ ", World:" ++ access a 3]
  String.join (lines.map (· ++ "\n"))

def quoted (s : String) : String := "\"" ++ s ++ "\""

def csvFields (e : Listed) : List String :=
  let a := e.attributes
  let r := a.recordAttributes
  [quoted a.filename, natural r.usedBlocks, natural a.allocatedBlocks, quoted (a.created.format 7),
    group a, member a, quoted (a.revised.format 7), natural a.revision, natural (fid a 0),
    natural (fid a 1), natural (fid a 2), quoted (a.expires.format 7), quoted (a.backedUp.format 7),
    quoted (access a 0), quoted (access a 1), quoted (access a 2), quoted (access a 3),
    organizationText e.flags, natural a.allocatedBlocks, "0", "0",
    if contiguousBestTry a then "Contiguous best try" else "",
    quoted (formatText r.format r.recordSize), quoted (carriageControlText r.carriageControl)]

def csv (e : Listed) : String := ",".intercalate (csvFields e) ++ "\n"

def render (style : ListingStyle) (e : Listed) : Option String :=
  match style with
  | .suppress => none
  | .brief => some (brief e)
  | .full => some (full e)
  | .csv => some (csv e)

def text (style : ListingStyle) (name : String) (blockSize : Nat) (files : List Listed) : String :=
  (if style = .suppress then "" else banner name blockSize) ++
    String.join (files.filterMap (render style))

end SaveSet.Listing
