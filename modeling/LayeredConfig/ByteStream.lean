import LayeredConfig.Fault

/-! Streams of bytes that are read piece by piece and may fail. -/

namespace LayeredConfig

/-- The pieces that reads return one after the other, and why the next read fails, if it
does. -/
structure ByteStream where
  chunks : List (List UInt8)
  failure : Option Text

namespace ByteStream

/-- Joins what is read up to an empty piece, where a stream ends. -/
def drain : List (List UInt8) → Option Text → Except Fault (List UInt8)
  | [], none => .ok []
  | [], some reason => .error (.brokenStream reason)
  | chunk :: rest, failure =>
    if chunk.isEmpty then .ok [] else (drain rest failure).map (chunk ++ ·)

def read (s : ByteStream) : Except Fault (List UInt8) := drain s.chunks s.failure

end ByteStream

end LayeredConfig
