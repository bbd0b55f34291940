import PaneRelay.Json.Shape
import PaneRelay.PaneMap

/-! # Control messages

A consumer chooses the panes it wants to see by sending JSON texts. An action that is not known is
no error, and neither is an empty pane ID, which is left out.

* `Request`, `Message`: what a text asks for.
* `parse`: reads a text.
* `ControlError`: why a text is refused. -/

namespace PaneRelay.Control

/-- **What a consumer asks for.** -/
inductive Request where
  /-- To be sent these panes too. -/
  | subscribe (ids : List PaneId)
  /-- To be sent these panes no more. -/
  | unsubscribe (ids : List PaneId)
  /-- Something else. -/
  | unknown (action : String)
deriving DecidableEq, Repr

/-- **A control message.** -/
structure Message where
  /-- The request. -/
  request : Request
  /-- How many empty IDs were left out. -/
  rejected : Nat
deriving DecidableEq, Repr

/-- Why a text is no control message. -/
inductive ControlError where
  /-- The text is not of the right form; `reason` says where and why. -/
  | malformed (reason : String)
deriving DecidableEq, Repr

/-- The wording of an error. -/
def ControlError.message : ControlError → String
  | .malformed reason => "malformed control message: " ++ reason

/-- The form of a control message: an action, and pane IDs that may be missing. -/
def shape : Json.Shape :=
  .record "RawControl" [("action", .text, none), ("paneIds", .texts, some (.texts []))]

/-- A message with an action and the IDs listed. -/
def Message.of (action : String) (listed : List PaneId) : Message :=
  let ids := listed.filter (fun id => !id.isEmpty)
  let request :=
    if action = "subscribe" then .subscribe ids
    else if action = "unsubscribe" then .unsubscribe ids
    else .unknown action
  { request, rejected := listed.length - ids.length }

/-- **Reads a control message.** -/
def parse (text : String) : Except ControlError Message :=
  match Json.decode shape text with
  | .error f => .error (.malformed (f.report text))
  | .ok (.record [.text action, .texts ids]) => .ok (.of action ids)
  | .ok _ => .error (.malformed "")

end PaneRelay.Control
