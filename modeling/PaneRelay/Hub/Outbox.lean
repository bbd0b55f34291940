/-! # The outbox of a connection

Everything meant for a consumer goes through one queue of bounded size, from which the connection's
writer takes it in order.

* `Outgoing`: what is queued.
* `Outbox`: everything ever queued, and how much of it the writer has taken.
* `Outbox.put`, `Outbox.next`: the two ends. -/

namespace PaneRelay.Hub

/-- **A message to a consumer.** -/
inductive Outgoing where
  /-- An encoded frame with so many bytes of output. -/
  | frame (bytes : ByteArray) (count : Nat)
  /-- A text. -/
  | text (t : String)
  /-- A ping. -/
  | ping

/-- The bytes a message takes in a socket, headers apart. -/
def Outgoing.size : Outgoing → Nat
  | .frame bytes _ => bytes.size
  | .text t => t.utf8ByteSize
  | .ping => 0

/-- **An outbox.** -/
structure Outbox where
  /-- What was queued, oldest first. -/
  log : List Outgoing := []
  /-- How many of these messages the writer has taken. -/
  taken : Nat := 0

namespace Outbox

/-- What waits for the writer. -/
def waiting (o : Outbox) : List Outgoing := o.log.drop o.taken

/-- Whether another message fits. -/
def hasRoom (o : Outbox) (capacity : Nat) : Bool := o.waiting.length < capacity

/-- **Queues a message**, if there is room. -/
def put (o : Outbox) (capacity : Nat) (m : Outgoing) : Option Outbox :=
  if o.hasRoom capacity then some { o with log := o.log ++ [m] } else none

/-- Queues a message, or forgets it if there is no room. -/
def offer (o : Outbox) (capacity : Nat) (m : Outgoing) : Outbox := (o.put capacity m).getD o

/-- The writer takes the oldest message. -/
def next (o : Outbox) : Outbox := { o with taken := o.taken + 1 }

end Outbox

end PaneRelay.Hub
