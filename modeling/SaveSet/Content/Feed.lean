import SaveSet.Content.Records

namespace SaveSet.Content

def feed (writing : Bool) (c : Content) (payload : Bytes) : Emission Content :=
  if c.mode = .raw ∨ c.format = .udf then c.copyRaw writing payload
  else if c.format.isStreamLike then c.copyStream writing payload
  else if c.format.isVariable then c.feedRecords writing payload
  else .silent c

end SaveSet.Content
