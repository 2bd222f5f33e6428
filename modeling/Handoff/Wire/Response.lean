import Handoff.Wire.Field

namespace Handoff.Wire

/-- What a worker answers. -/
inductive Response where
  | created (h : Handle)
  | status (s : Status)
  /-- An error text of this many bytes is kept. -/
  | announced (s : Status) (length : UInt32)
  | text (s : String)
  deriving DecidableEq

def Response.encode : Response → List UInt8
  | created h => Wire.handle h
  | status s => Wire.status s
  | announced s length => Wire.status s ++ word length
  | text s => Wire.text s

end Handoff.Wire
