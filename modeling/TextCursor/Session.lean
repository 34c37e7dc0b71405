import TextCursor.Cursor.Snapshot
import TextCursor.Operation

/-!
# Sessions

A session is a cursor at work: beside the cursor it keeps copies of it under names, spans under names, and one sink that
everything is written to. Commands act on these, one at a time, and each yields an answer, the session after it, the
notes of the probes it asked and the records it left. A command that reports an error changes nothing but the sink's
count of writes; the session goes on after it.
-/

set_option autoImplicit false

namespace TextCursor

/-- A cursor with its named copies, its named spans and its sink. Of several entries under one name the first counts. -/
structure Session where
  cursor : Cursor
  saved : List (String × Cursor)
  spans : List (String × Span)
  sink : Sink

inductive Command where
  | act (op : Operation)
  | ask (q : Query)
  /-- Keep the current result as a span. -/
  | keepResult (name : String)
  /-- Keep the range between two offsets as a span. -/
  | keepRange (name : String) (first last : Nat)
  /-- Keep a part of one span as another. -/
  | keepPart (source name : String) (first last : Nat)
  | showSpan (name : String)
  | spanCharAt (name : String) (offset : Nat)
  | spanChars (name : String)
  /-- Compare two spans as places. -/
  | spansEqual (left right : String)
  /-- Compare what a span reads with a string. -/
  | spanReads (name content : String)
  | appendResult
  | appendSubstring (first last : Nat)
  | write (content : String)
  | save (name : String)
  | restore (name : String)
  | snapshot

inductive Answer where
  | reply (r : Reply)
  | span (report : Span.Report)
  | chars (cs : List Char)
  /-- Whether a span reads like a string. -/
  | reads (b : Bool)
  /-- The sink after a write from the cursor that went through. -/
  | appended (sink : Sink)
  /-- The sink after a result that it refused. -/
  | resultRefused (e : SinkError) (sink : Sink)
  /-- The sink after a range that failed its check or was refused. -/
  | rangeRefused (e : ScanError) (sink : Sink)
  /-- The sink after a write of a string, and whether it went through. -/
  | wrote (accepted : Bool) (sink : Sink)
  | snapshot (s : Snapshot)

inductive SessionFault where
  | unknownSpan (name : String)
  | unknownCursor (name : String)
  /-- The step could not be carried out. -/
  | breach (b : Breach)
deriving DecidableEq, Repr

structure Reaction where
  answer : Answer
  session : Session
  asked : List Inquiry
  log : List Record

namespace Session

/-- The session at the beginning of its cursor's text. -/
def ofCursor (c : Cursor) (capacity : Option Nat) : Session :=
  ⟨c, [], [], Sink.empty capacity⟩

/-- Lets a session answer through a part that knows breaches only. -/
def guard {α : Type} : Except Breach α → Except SessionFault α
  | .ok a => .ok a
  | .error b => .error (.breach b)

def span (s : Session) (name : String) : Except SessionFault Span :=
  match s.spans.lookup name with
  | some v => .ok v
  | none => .error (.unknownSpan name)

def copy (s : Session) (name : String) : Except SessionFault Cursor :=
  match s.saved.lookup name with
  | some c => .ok c
  | none => .error (.unknownCursor name)

/-- The session that shows something and stays as it is. -/
def showing (s : Session) (answer : Answer) : Reaction :=
  ⟨answer, s, [], []⟩

def after (s : Session) (o : Outcome Reply) : Reaction :=
  ⟨.reply o.reply, { s with cursor := o.cursor }, o.asked, o.log⟩

/-- Keeps a span under a name and shows it, or shows the error that stands in its place. -/
def keep (s : Session) (name : String) (made : Except ScanError Span) : Except Breach Reaction :=
  match made with
  | .error e => .ok (s.showing (.reply (.failure e)))
  | .ok v => do return { s with spans := (name, v) :: s.spans }.showing (.span (← v.report))

def step (s : Session) : Command → Except SessionFault Reaction
  | .act op => do return s.after (← guard (op.run s.cursor))
  | .ask q => do return s.after (← guard (q.run s.cursor))
  | .keepResult name => guard do s.keep name (.ok (← s.cursor.resultSpan))
  | .keepRange name first last => guard do s.keep name (← s.cursor.substringSpan first last)
  | .keepPart source name first last => do
    let v ← s.span source
    guard do s.keep name (← v.sub first last)
  | .showSpan name => do
    let v ← s.span name
    return s.showing (.span (← guard v.report))
  | .spanCharAt name offset => do
    let v ← s.span name
    return s.showing (.reply (.ofExcept .char (← guard (v.charAt offset))))
  | .spanChars name => do
    let v ← s.span name
    return s.showing (.chars (← guard v.chars))
  | .spansEqual left right => do
    let v ← s.span left
    let w ← s.span right
    return s.showing (.reply (.flag (v = w)))
  | .spanReads name content => do
    let v ← s.span name
    return s.showing (.reads (← guard (v.reads content)))
  | .appendResult => do
    let written ← guard (s.cursor.appendResult s.sink)
    let answer := match written.result with
      | .ok () => .appended written.sink
      | .error e => .resultRefused e written.sink
    return { s with sink := written.sink }.showing answer
  | .appendSubstring first last => do
    let written ← guard (s.cursor.appendSubstring s.sink first last)
    let answer := match written.result with
      | .ok () => .appended written.sink
      | .error e => .rangeRefused e written.sink
    return { s with sink := written.sink }.showing answer
  | .write content =>
    let written := s.sink.write content
    .ok ({ s with sink := written.sink }.showing (.wrote written.result.isOk written.sink))
  | .save name => .ok ({ s with saved := (name, s.cursor) :: s.saved }.showing (.reply .unit))
  | .restore name => do
    let c ← s.copy name
    return { s with cursor := c }.showing (.reply .unit)
  | .snapshot => do return s.showing (.snapshot (← guard s.cursor.snapshot))

def run (s : Session) : List Command → Except SessionFault (List Reaction)
  | [] => .ok []
  | command :: commands => do
    let r ← s.step command
    return r :: (← r.session.run commands)

end Session

end TextCursor
