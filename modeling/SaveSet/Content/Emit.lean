import SaveSet.Content.State

namespace SaveSet.Content

def sniff (c : Content) (data : Bytes) : Content × Bool :=
  if c.mode == .smart && data.any Bytes.isHigh then
    ({ c with mode := .binary, settled := true }, false)
  else (c, true)

/-- Puts out `data` when writing, with the line ends of the host in text; else sniffs it. The second part
of the value says whether to go on. -/
def emit (writing : Bool) (c : Content) (data : Bytes) : Emission (Content × Bool) :=
  if !writing then .silent (c.sniff data)
  else if c.mode = .ascii then
    let out := c.lines.normalize data
    let c := { c with lines := out.1 }
    ⟨piece out.2 c, (c, true)⟩
  else
    let c := { c with lines := {} }
    ⟨piece data c, (c, true)⟩

def endRecord (writing : Bool) (c : Content) : Emission Content :=
  if writing && c.mode == .ascii && !c.lines.lastEnded then ⟨[⟨LineEnds.hostEnd, c⟩], c⟩
  else .silent c

def copyRaw (writing : Bool) (c : Content) (payload : Bytes) : Emission Content :=
  let data := payload.take c.remaining
  ⟨if writing then piece data c else [], { c with position := c.position + data.length }⟩

def copyStream (writing : Bool) (c : Content) (payload : Bytes) : Emission Content :=
  let data := payload.take c.remaining
  (c.emit writing data).map fun r => { r.1 with position := r.1.position + data.length }

def finish (c : Content) : Emission Content :=
  let out := c.lines.finish
  let c := { c with lines := out.1 }
  ⟨piece out.2 c, c⟩

end SaveSet.Content
