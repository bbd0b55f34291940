import PaneRelay.Config.Views

/-! # Supervised loops

A loop that fails or panics is started again after a pause. Pauses double up to a limit, failures in
a row are counted, and a run of some length forgets the failures before it. Too many failures end
the loop for good, and so does cancellation, at any moment.

* `Ending`: how an attempt ends; `Ending.reason?` is the text of a failure.
* `Streak`: failures in a row and the next pause.
* `State`, with `begin`, `finish`, `resume`, `cancel`: the steps of a supervised loop.
* `run`: the loop on a clock of its own, given what every attempt does. -/

namespace PaneRelay.Supervisor

/-- **How an attempt ends.** -/
inductive Ending where
  /-- The loop is done. -/
  | completed
  /-- The loop failed, with its causes from the innermost outwards. -/
  | failed (causes : List String)
  /-- The loop panicked, with a text if it left one. -/
  | panicked (text : Option String)
deriving DecidableEq, Repr

/-- The reason of a failure: causes from the outermost inwards, or the panic's text. -/
def Ending.reason? : Ending → Option String
  | .completed => none
  | .failed causes => some (String.intercalate ": " causes.reverse)
  | .panicked (some t) => some ("panic: " ++ t)
  | .panicked none => some "panic: non-string panic payload"

/-- **What is reported.** -/
inductive Event where
  /-- An attempt failed and another one follows. -/
  | restarted (name : String) (attempt : UInt32) (reason : String)
  /-- An attempt failed and none follows. -/
  | fatal (name reason : String)
deriving DecidableEq, Repr

/-- **How a supervised loop ends.** -/
inductive Outcome where
  /-- An attempt completed. -/
  | completed
  /-- The loop was cancelled. -/
  | cancelled
  /-- The loop failed too often. -/
  | exhausted
deriving DecidableEq, Repr

/-! ## Failures in a row -/

/-- **A streak of failures.** -/
structure Streak where
  /-- Failures in a row. -/
  failures : UInt32
  /-- The next pause. -/
  backoff : Nat
deriving DecidableEq, Repr

namespace Streak

/-- No failures yet. -/
def start (p : RestartPolicy) : Streak := ⟨0, p.initialBackoff⟩

/-- One failure more, of an attempt that lasted for some time. -/
def fail (p : RestartPolicy) (s : Streak) (lasted : Nat) : Streak :=
  let s := if p.stableAfter ≤ lasted then start p else s
  { s with failures := s.failures + 1 }

/-- Whether there were too many failures. -/
def isExhausted (p : RestartPolicy) (s : Streak) : Bool := p.maxRestarts < s.failures

/-- The next pause is twice as long, up to the limit. -/
def double (p : RestartPolicy) (s : Streak) : Streak :=
  { s with backoff := min (s.backoff * 2) p.maxBackoff }

end Streak

/-! ## Steps of a supervised loop -/

/-- Where a supervised loop stands. -/
inductive Phase where
  /-- An attempt is about to start. -/
  | ready
  /-- An attempt runs. -/
  | running (since : Nat)
  /-- A pause lasts up to some moment. -/
  | pausing (ends : Nat)
  /-- The loop is over. -/
  | done (outcome : Outcome)
deriving DecidableEq, Repr

/-- **A supervised loop.** -/
structure State where
  /-- Where it stands. -/
  phase : Phase
  /-- Its failures in a row. -/
  streak : Streak
  /-- What was reported so far. -/
  events : List Event
deriving DecidableEq, Repr

/-- A loop that was not started yet. -/
def State.fresh (p : RestartPolicy) : State := ⟨.ready, .start p, []⟩

/-- The next attempt starts. -/
def State.begin (s : State) (now : Nat) : State :=
  match s.phase with
  | .ready => { s with phase := .running now }
  | _ => s

/-- The running attempt ends: its loop is done, pauses, or was restarted too often. -/
def State.finish (p : RestartPolicy) (name : String) (s : State) (now : Nat) (e : Ending) : State :=
  match s.phase, e.reason? with
  | .running _, none => { s with phase := .done .completed }
  | .running since, some reason =>
    let streak := s.streak.fail p (now - since)
    if streak.isExhausted p then
      { phase := .done .exhausted, streak, events := s.events ++ [.fatal name reason] }
    else
      { phase := .pausing (now + streak.backoff), streak
        events := s.events ++ [.restarted name streak.failures reason] }
  | _, _ => s

/-- The pause is over. -/
def State.resume (p : RestartPolicy) (s : State) : State :=
  match s.phase with
  | .pausing _ => { s with phase := .ready, streak := s.streak.double p }
  | _ => s

/-- The loop is cancelled, unless it is over. -/
def State.cancel (s : State) : State :=
  match s.phase with
  | .done _ => s
  | _ => { s with phase := .done .cancelled }

/-! ## A run on a clock -/

/-- **What an attempt does:** it may cancel its own loop at once, else it runs for a while and
ends. -/
structure Attempt where
  /-- Whether it cancels the loop. -/
  cancels : Bool := false
  /-- How long it runs. -/
  lasts : Nat := 0
  /-- How it ends. -/
  ending : Ending := .completed
deriving DecidableEq, Repr

/-- **A run seen from outside.** -/
structure Report where
  /-- How the run ended, if it did. -/
  outcome : Option Outcome
  /-- When its attempts started. -/
  starts : List Nat
  /-- When it ended. -/
  finished : Nat
  /-- What was reported. -/
  events : List Event
deriving DecidableEq, Repr

/-- Whether a loop that waits up to some moment is cancelled before. What the loop does at a moment
comes before a cancellation at that moment. -/
def cancelledBefore (cancelAt : Option Nat) (till : Nat) : Bool := cancelAt.any (· < till)

/-- Up to `fuel` attempts, from number `k` on and from a moment on; `starts` holds earlier ones. -/
def runFrom (p : RestartPolicy) (name : String) (cancelAt : Option Nat) (script : Nat → Attempt) :
    (fuel k now : Nat) → (starts : List Nat) → State → Report
  | 0, _, now, starts, s => ⟨none, starts, now, s.events⟩
  | fuel + 1, k, now, starts, s =>
    let a := script k
    let starts := starts ++ [now]
    let till := now + a.lasts
    if a.cancels then ⟨some .cancelled, starts, now, s.events⟩
    else if cancelledBefore cancelAt till then
      ⟨some .cancelled, starts, cancelAt.getD till, s.events⟩
    else
      let s := (s.begin now).finish p name till a.ending
      match s.phase with
      | .done o => ⟨some o, starts, till, s.events⟩
      | .pausing wake =>
        if cancelledBefore cancelAt wake then
          ⟨some .cancelled, starts, cancelAt.getD wake, s.events⟩
        else runFrom p name cancelAt script fuel (k + 1) wake starts (s.resume p)
      | _ => ⟨none, starts, till, s.events⟩

/-- The attempt with some number: the last one listed goes on for ever, and an empty list stands for
attempts that complete at once. -/
def scripted (attempts : List Attempt) (k : Nat) : Attempt :=
  attempts.getD (min k (attempts.length - 1)) {}

/-- **A supervised loop on a clock that starts at 0**, cancelled beforehand, or at some moment, or
never. The bound on the number of attempts is that of a loop which uses up its restarts, or which
takes a millisecond a time until it is cancelled. -/
def run (p : RestartPolicy) (name : String) (cancelled : Bool) (cancelAt : Option Nat)
    (attempts : List Attempt) : Report :=
  if cancelled then ⟨some .cancelled, [], 0, []⟩
  else
    let fuel := attempts.length + p.maxRestarts.toNat + cancelAt.getD 0 + 2
    runFrom p name cancelAt (scripted attempts) fuel 0 0 [] (.fresh p)

/-! ## Watching for the end -/

/-- The fatal events among those reported, with the loop's name and the reason. -/
def fatalEvents (events : List Event) : List (String × String) :=
  events.filterMap fun
    | .fatal name reason => some (name, reason)
    | .restarted .. => none

end PaneRelay.Supervisor
