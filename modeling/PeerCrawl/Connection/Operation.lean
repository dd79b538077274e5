import PeerCrawl.Connection.Basic

set_option autoImplicit false

/-! # Operations on a connection

Everything that its owner, or the world behind its socket, can do to a connection, as data:
`Connection.perform` carries out one operation and `Connection.performAll` a sequence of them, going
on after failures. -/

namespace PeerCrawl

/-- One thing that can happen to a connection. -/
inductive Operation where
  | markConnecting
  | established
  | writable
  | flush
  | readable
  | receive (bytes : Bytes)
  | error
  /-- The world behind the socket changes; what was written stays. -/
  | socket (change : Socket → Socket)

/-- What an operation answers. -/
inductive Answer where
  | nothing
  | done
  | flag (value : Bool)
  | failed (error : ConnectionError)

/-- An outcome with its result, or its failure, as an answer. -/
def Outcome.answered {α : Type} (o : Outcome α) (answer : α → Answer) : Outcome Answer :=
  { connection := o.connection
    result := .ok (match o.result with
      | .ok a => answer a
      | .error e => .failed e)
    events := o.events
    notices := o.notices }

namespace Connection

/-- Carry out one operation; a failure is its answer. -/
def perform (c : Connection) : Operation → Outcome Answer
  | .markConnecting => .unchanged c.markConnecting .nothing
  | .established => c.established.answered fun _ => .nothing
  | .writable => c.onWritable.answered .flag
  | .flush => c.flush.answered .flag
  | .readable => c.onReadable.answered fun _ => .done
  | .receive bytes => (c.receive bytes).answered fun _ => .done
  | .error => .unchanged c.onError.1 (.failed c.onError.2)
  | .socket change =>
    .unchanged { c with socket := { change c.socket with written := c.socket.written } } .nothing

/-- Carry out operations one after the other, and collect what they told. -/
def performAll (c : Connection) : List Operation → Outcome Unit
  | [] => .unchanged c ()
  | op :: ops => (c.perform op).andThen fun _ c => c.performAll ops

end Connection

end PeerCrawl
