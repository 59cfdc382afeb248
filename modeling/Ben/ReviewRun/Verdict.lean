import Ben.Review.Report

/-!
# The machine verdict in a run's output

The reviewer writes one envelope to its standard output: an opening delimiter, a report and a
closing delimiter.  The output is the model's text itself, or a stream of JSON events one to a
line whose agent messages are joined to that text.  The scan collects the blocks between an opener
and the next closer, and more than one block is refused.

What the scan does not look for is an opener inside a block, nor an object outside a fence.  So the
report it takes is the sole one of the output exactly if the block has neither an opener nor a
second object that is a report.
-/

namespace Ben.ReviewRun

open List hiding contains
open Ben.Review

/-- What begins an envelope. -/
def verdictOpen : Text := txt "<<<BEN-REVIEW-VERDICT>>>"

/-- What ends an envelope. -/
def verdictClose : Text := txt "<<</BEN-REVIEW-VERDICT>>>"

/-- Why no verdict is taken from an output. -/
inductive VerdictErr where
  /-- There is no envelope. -/
  | noVerdictBlock
  /-- An envelope is unterminated. -/
  | unterminated
  /-- A line of an event stream is not an event. -/
  | malformedEvent
  /-- An event of an event stream has no type. -/
  | untypedEvent
  /-- There are several envelopes, so none of them is the verdict. -/
  | ambiguousVerdict (envelopes : Nat)
  /-- The envelope holds no report. -/
  | report (e : ReportErr)
  deriving DecidableEq

/-! ## The text of the model -/

/-- What an event is about. -/
structure Item where
  type : Text := []
  text : Text := []

/-- One line of an event stream. -/
structure Event where
  type : Text := []
  item : Option Item := none

/-- One member decoded into an item; other members are let go. -/
def Item.set (i : Item) (m : Text × Json.Value) : Option Item :=
  if names m.1 (txt "type") then (decodeText i.type m.2).map fun s => { i with type := s }
  else if names m.1 (txt "text") then (decodeText i.text m.2).map fun s => { i with text := s }
  else some i

/-- One member decoded into an event.  An item that is there already is decoded over. -/
def Event.set (ev : Event) (m : Text × Json.Value) : Option Event :=
  if names m.1 (txt "type") then (decodeText ev.type m.2).map fun s => { ev with type := s }
  else if names m.1 (txt "item") then
    match m.2 with
    | .null => some { ev with item := none }
    | .object ms =>
      (ms.foldlM Item.set (ev.item.getD {})).map fun i => { ev with item := some i }
    | _ => none
  else some ev

/-- A line decoded into an event. -/
def decodeEvent (line : Text) : Option Event :=
  (Json.document line).bind fun v =>
    match v with
    | .object ms => ms.foldlM Event.set {}
    | .null => some {}
    | _ => none

/-- The message of the agent that an event completes. -/
def Event.agentMessage (ev : Event) : Option Text :=
  ev.item.bind fun i =>
    if ev.type = txt "item.completed" && i.type = txt "agent_message" then some i.text else none

/-- Go through the lines with the messages so far.  Once one line was an event all must be. -/
def unwrapLines (output : Text) : Bool → List Text → List Text → Except VerdictErr Text
  | recognized, messages, [] =>
    .ok (if recognized then join (txt "\n") messages else output)
  | recognized, messages, line :: lines =>
    if trimSpace line = [] then unwrapLines output recognized messages lines
    else
      match decodeEvent (trimSpace line) with
      | none => if recognized then .error .malformedEvent else .ok output
      | some ev =>
        if ev.type = [] then if recognized then .error .untypedEvent else .ok output
        else unwrapLines output true (messages ++ ev.agentMessage.toList) lines

/-- The text of the model in an output. -/
def unwrapCodexJSONL (output : Text) : Except VerdictErr Text :=
  unwrapLines output false [] (Scan.split (txt "\n") output)

/-! ## The envelope -/

/-- The blocks between an opener and the next closer. -/
def blocksFrom : Nat → Text → Except VerdictErr (List Text)
  | 0, _ => .ok []
  | n + 1, rest =>
    match Scan.cut verdictOpen rest with
    | none => .ok []
    | some (_, rest) =>
      match Scan.cut verdictClose rest with
      | none => .error .unterminated
      | some (block, rest) => (blocksFrom n rest).map (block :: ·)

/-- The blocks of a text; there are fewer of them than bytes. -/
def blocks (text : Text) : Except VerdictErr (List Text) := blocksFrom (text.length + 1) text

/-- Find the sole machine verdict of an output. -/
def extractVerdict (output : Text) : Except VerdictErr Report :=
  match unwrapCodexJSONL output with
  | .error e => .error e
  | .ok text =>
    match blocks text with
    | .error e => .error e
    | .ok [] => .error .noVerdictBlock
    | .ok [block] => (parseReport block).mapError .report
    | .ok found => .error (.ambiguousVerdict found.length)

end Ben.ReviewRun
