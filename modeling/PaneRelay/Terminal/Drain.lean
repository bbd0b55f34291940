import PaneRelay.Terminal.Error

/-! # Reading to the end

A read loop reads until the other side is gone, and hands every chunk on that is not empty. With two
streams there are two such loops, whose chunks come in any order.

* `drain`: a read loop over the results of its reads.
* `Interleaved`: the orders in which the chunks of two loops may come.
* `joined`: the result of two loops. -/

namespace PaneRelay.Terminal

/-- The most bytes that a read loop asks for at a time. -/
def chunkSize : Nat := 4096

/-- **A read loop**, given what its reads return: the chunks that it hands on, and its result. The
end of a stream is no failure. -/
def drain : List (Except TerminalError ByteArray) → List ByteArray × Except TerminalError Unit
  | [] => ([], .ok ())
  | .ok data :: rest =>
    let (chunks, result) := drain rest
    (if data.isEmpty then chunks else data :: chunks, result)
  | .error .closed :: _ => ([], .ok ())
  | .error e :: _ => ([], .error e)

/-- Reads that succeed: all their chunks are handed on but those that are empty. -/
theorem drain_ok_append (chunks : List ByteArray) (rest : List (Except TerminalError ByteArray)) :
    drain (chunks.map .ok ++ rest) =
      (chunks.filter (fun c => !c.isEmpty) ++ (drain rest).1, (drain rest).2) := by
  induction chunks with
  | nil => rfl
  | cons c chunks ih =>
    rw [List.map_cons, List.cons_append, drain, ih, List.filter_cons]
    cases c.isEmpty <;> rfl

/-- **An order in which two lists may come together**; each keeps its own. -/
inductive Interleaved {α : Type} : List α → List α → List α → Prop where
  /-- Nothing is left. -/
  | nil : Interleaved [] [] []
  /-- The next one is from the first list. -/
  | left {a : α} {l m n : List α} : Interleaved l m n → Interleaved (a :: l) m (a :: n)
  /-- The next one is from the second list. -/
  | right {a : α} {l m n : List α} : Interleaved l m n → Interleaved l (a :: m) (a :: n)

/-- **The result of two read loops:** the failure of the first, else that of the second. -/
def joined (first second : Except TerminalError Unit) : Except TerminalError Unit :=
  match first with
  | .error e => .error e
  | .ok () => second

/-- A text in chunks of at most `size` bytes; the number bounds how many there are. -/
def chunksOf (size : Nat) : Nat → ByteArray → List ByteArray
  | 0, _ => []
  | n + 1, data =>
    if data.isEmpty then []
    else data.extract 0 size :: chunksOf size n (data.extract size data.size)

/-- What the reads of a loop return on a stream with some text, after which it ends. -/
def readsOf (data : ByteArray) : List (Except TerminalError ByteArray) :=
  (chunksOf chunkSize (data.size + 1) data).map .ok ++ [.error .closed]

end PaneRelay.Terminal
