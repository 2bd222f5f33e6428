namespace Handoff

/-- A refusal by the operating system. -/
inductive SystemError where
  | noEntry
  | accessDenied
  | entryExists
  | notDirectory
  | isDirectory
  | invalidArgument
  | brokenPipe
  | nameTooLong
  | notSocket
  | addressInUse
  | networkUnreachable
  | connectionReset
  | notConnected
  | connectionRefused
  /-- Refused before the system is asked: a name with a NUL in it cannot be passed on. -/
  | nulInName
  /-- The same for the arguments of a program. -/
  | nulInArgument
  | unnamed (code : Int)
  deriving DecidableEq

namespace SystemError

def code : SystemError → Int
  | noEntry => 2
  | accessDenied => 13
  | entryExists => 17
  | notDirectory => 20
  | isDirectory => 21
  | invalidArgument => 22
  | brokenPipe => 32
  | nameTooLong => 36
  | notSocket => 88
  | addressInUse => 98
  | networkUnreachable => 101
  | connectionReset => 104
  | notConnected => 107
  | connectionRefused => 111
  | nulInName | nulInArgument => 22
  | unnamed code => code

def named : List SystemError :=
  [noEntry, accessDenied, entryExists, notDirectory, isDirectory, invalidArgument, brokenPipe,
    nameTooLong, notSocket, addressInUse, networkUnreachable, connectionReset, notConnected,
    connectionRefused]

def ofCode (code : Int) : SystemError :=
  (named.find? fun e => e.code = code).getD (unnamed code)

def reason : SystemError → String
  | noEntry => "No such file or directory"
  | accessDenied => "Permission denied"
  | entryExists => "File exists"
  | notDirectory => "Not a directory"
  | isDirectory => "Is a directory"
  | invalidArgument => "Invalid argument"
  | brokenPipe => "Broken pipe"
  | nameTooLong => "File name too long"
  | notSocket => "Socket operation on non-socket"
  | addressInUse => "Address already in use"
  | networkUnreachable => "Network is unreachable"
  | connectionReset => "Connection reset by peer"
  | notConnected => "Transport endpoint is not connected"
  | connectionRefused => "Connection refused"
  | nulInName => "file name contained an unexpected NUL byte"
  | nulInArgument => "nul byte found in provided data"
  | unnamed code => s!"Unknown error {code}"

def message (e : SystemError) : String :=
  match e with
  | nulInName | nulInArgument => e.reason
  | _ => s!"{e.reason} (os error {e.code})"

/-- A send failed because nobody can receive any more. -/
def isReceiverGone : SystemError → Bool
  | brokenPipe | connectionReset | notConnected => true
  | _ => false

end SystemError
end Handoff
