/-! # The socket between hub and consumer

A consumer that reads gets what is written at once. For one that does not read, writes fit into the
buffers on the way until these are full. To one that has gone away everything can be written and
nothing arrives.

* `Item`: what a consumer gets.
* `Socket.accepts`, `Socket.put`: writing.
* `Socket.read`, `Socket.mute`, `Socket.leave`: what the consumer does. -/

namespace PaneRelay.Hub

/-- **What a consumer gets.** -/
inductive Item where
  /-- A binary message. -/
  | binary (bytes : ByteArray)
  /-- A text message. -/
  | text (t : String)
  /-- A close frame. -/
  | close (code : Nat) (reason : String)

/-- The bytes an item takes on the way. -/
def Item.size : Item → Nat
  | .binary bytes => bytes.size
  | .text t => t.utf8ByteSize
  | .close _ reason => reason.utf8ByteSize

/-- **A socket**, its consumer's end included. -/
structure Socket where
  /-- Whether the consumer reads. -/
  reading : Bool := true
  /-- Whether the consumer has gone away. -/
  left : Bool := false
  /-- What is on the way, oldest first. -/
  unread : List Item := []
  /-- What the consumer got, oldest first. -/
  received : List Item := []

namespace Socket

/-- How many bytes fit between hub and consumer. -/
def buffered : Nat := 4194304

/-- How many bytes are on the way. -/
def load (s : Socket) : Nat := s.unread.foldr (fun i n => i.size + n) 0

/-- Whether a message of so many bytes can be written without waiting. -/
def accepts (s : Socket) (size : Nat) : Bool :=
  s.reading || s.left || s.load + size ≤ buffered

/-- Something is written. -/
def put (s : Socket) (i : Item) : Socket :=
  if s.left then s
  else if s.reading then { s with received := s.received ++ [i] }
  else { s with unread := s.unread ++ [i] }

/-- The consumer reads, and gets what is on the way. -/
def read (s : Socket) : Socket :=
  if s.left then { s with reading := true }
  else { s with reading := true, unread := [], received := s.received ++ s.unread }

/-- The consumer stops to read. -/
def mute (s : Socket) : Socket := { s with reading := false }

/-- The consumer goes away. -/
def leave (s : Socket) : Socket := { s with left := true }

end Socket

end PaneRelay.Hub
