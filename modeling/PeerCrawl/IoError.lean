set_option autoImplicit false

/-! # Input and output errors

What can go wrong at a socket or at another descriptor. -/

namespace PeerCrawl

/-- The kind of a failed input or output. -/
inductive IoError where
  | wouldBlock
  | interrupted
  | connectionRefused
  | connectionReset
  | connectionAborted
  | notConnected
  | brokenPipe
  | timedOut
  | unexpectedEof
  | permissionDenied
  | addrInUse
  | invalidInput
  /-- A socket took none of the bytes it was offered. -/
  | writeZero
  /-- Any other failure that the operating system tells, with its text. -/
  | other (text : String)
deriving DecidableEq

def IoError.message : IoError → String
  | .wouldBlock => "operation would block"
  | .interrupted => "operation interrupted"
  | .connectionRefused => "connection refused"
  | .connectionReset => "connection reset"
  | .connectionAborted => "connection aborted"
  | .notConnected => "not connected"
  | .brokenPipe => "broken pipe"
  | .timedOut => "timed out"
  | .unexpectedEof => "unexpected end of file"
  | .permissionDenied => "permission denied"
  | .addrInUse => "address in use"
  | .invalidInput => "invalid input parameter"
  | .writeZero => "socket accepted no bytes"
  | .other text => text

end PeerCrawl
