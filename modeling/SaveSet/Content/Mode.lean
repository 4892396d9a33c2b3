namespace SaveSet

/-- `smart` settles for `ascii` or `binary` file by file, `binary` only undoes the framing of
records, `raw` keeps even that. -/
inductive ContentMode where
  | smart
  | ascii
  | binary
  | raw
  deriving DecidableEq, Repr

end SaveSet
