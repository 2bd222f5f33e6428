namespace Handoff

/-- An opaque number for a server, a listener or a connection. Which of the three it names is
known from the operation that returned it, never from its value. -/
structure Handle where
  raw : UInt32
  deriving DecidableEq

instance : ToString Handle := ⟨fun h => toString h.raw.toNat⟩

inductive HandleKind where
  | server
  | listener
  | conn
  deriving DecidableEq

def HandleKind.name : HandleKind → String
  | .server => "server"
  | .listener => "listener"
  | .conn => "conn"

def HandleKind.title : HandleKind → String
  | .server => "Server"
  | .listener => "Listener"
  | .conn => "Conn"

/-- First handle of each kind. -/
def HandleKind.base : HandleKind → UInt32
  | .server => 2752513
  | .listener => 2818049
  | .conn => 2883585

end Handoff
