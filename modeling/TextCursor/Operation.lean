import TextCursor.Cursor.Extend
import TextCursor.Cursor.Match
import TextCursor.Cursor.Number
import TextCursor.Cursor.Position
import TextCursor.Cursor.Skip

/-!
# Operations and queries as data

The operations that may move a cursor and the queries that may not, each as one type, so that a run of operations is a
list. The families of operations are types of their own: a match leaves the cursor alone when it fails, an extension
gives its token up, a skip cannot fail.

`Operation.run` and `Query.run` carry one out. `Cursor.Reachable` holds of the cursors that some run of operations leads
to from the beginning of a text.
-/

set_option autoImplicit false

namespace TextCursor

inductive MatchOp where
  | char (ch : Char)
  | literal (literal : String)
  | charIf (t : CharTest)
  | anyOf (set : String)
  | whileHolds (t : CharTest)
  | whileMax (max : Nat) (t : CharTest)
  | whileBounded (max min : Nat) (t : CharTest)
  | decimal
  | decimalMax (max : Nat)
  | decimalBounded (max min : Nat)
  | hex
  | hexMax (max : Nat)
  | hexBounded (max min : Nat)

inductive ExtendOp where
  | whileHolds (t : CharTest)
  | whileMax (max : Nat) (t : CharTest)
  | whileBounded (max min : Nat) (t : CharTest)

inductive SkipOp where
  | anyOf (set : String)
  | whileHolds (t : CharTest)
  | char (ch : Char)
  | toChar (ch : Char)
  | toLiteral (literal : String)
  | toEnd

/-- Everything that may move a cursor. -/
inductive Operation where
  | tryMatch (op : MatchOp)
  | extend (op : ExtendOp)
  | skip (op : SkipOp)
  | skipCount (n : Nat)
  | nextChar
  | setStart (start : Nat)
  | setIndex (index : Nat)
  | revert

/-- Everything that may be asked of a cursor and has a simple answer. -/
inductive Query where
  | isAtEnd
  | charAt (offset : Nat)
  | result
  | resultLength
  | resultChar
  | substring (first last : Nat)
  | decimal (size : Numeral.Size) (negative : Bool) (first last : Nat)
  | hex (size : Numeral.Size) (first last : Nat)
  | resultDecimal (size : Numeral.Size) (negative : Bool)
  | resultHex (size : Numeral.Size)

inductive Reply where
  | unit
  | flag (b : Bool)
  | char (ch : Char)
  | text (s : String)
  | count (n : Nat)
  | integer (n : Int)
  | failure (e : ScanError)
deriving DecidableEq, Repr

def Reply.ofExcept {α : Type} (reply : α → Reply) : Except ScanError α → Reply
  | .ok a => reply a
  | .error e => failure e

namespace Outcome

def map {α β : Type} (f : α → β) (o : Outcome α) : Outcome β :=
  ⟨f o.reply, o.cursor, o.asked, o.log⟩

/-- The outcome of a question that leaves no trace. -/
def ofReply {α : Type} (c : Cursor) (reply : α) : Outcome α :=
  ⟨reply, c, [], []⟩

end Outcome

def MatchOp.run (op : MatchOp) (c : Cursor) : Except Breach (Outcome Bool) :=
  match op with
  | char ch => c.matchChar ch
  | literal s => c.matchLiteral s
  | charIf t => c.matchCharIf t
  | anyOf set => c.matchAnyOf set
  | whileHolds t => c.matchWhile t
  | whileMax max t => c.matchWhileMax max t
  | whileBounded max min t => c.matchWhileBounded max min t
  | decimal => c.matchDecimal
  | decimalMax max => c.matchDecimalMax max
  | decimalBounded max min => c.matchDecimalBounded max min
  | hex => c.matchHex
  | hexMax max => c.matchHexMax max
  | hexBounded max min => c.matchHexBounded max min

def ExtendOp.run (op : ExtendOp) (c : Cursor) : Except Breach (Outcome Bool) :=
  match op with
  | whileHolds t => c.extendWhile t
  | whileMax max t => c.extendWhileMax max t
  | whileBounded max min t => c.extendWhileBounded max min t

def SkipOp.run (op : SkipOp) (c : Cursor) : Except Breach (Outcome Unit) :=
  match op with
  | anyOf set => c.skipAnyOf set
  | whileHolds t => c.skipWhile t
  | char ch => c.skipChar ch
  | toChar ch => c.skipToChar ch
  | toLiteral literal => c.skipToLiteral literal
  | toEnd => .ok c.skipToEnd

def Operation.run (op : Operation) (c : Cursor) : Except Breach (Outcome Reply) :=
  match op with
  | tryMatch op => do return (← op.run c).map .flag
  | extend op => do return (← op.run c).map .flag
  | skip op => do return (← op.run c).map fun _ => .unit
  | skipCount n => do return (← c.skipCount n).map (.ofExcept fun _ => .unit)
  | nextChar => do return (← c.nextChar).map (.ofExcept .char)
  | setStart start => .ok ((c.setStart start).map (.ofExcept fun _ => .unit))
  | setIndex index => .ok ((c.setIndex index).map (.ofExcept fun _ => .unit))
  | revert => .ok (c.revert.map fun _ => .unit)

def Query.run (q : Query) (c : Cursor) : Except Breach (Outcome Reply) :=
  match q with
  | isAtEnd => .ok (.ofReply c (.flag c.isAtEnd))
  | charAt offset => do return .ofReply c (.ofExcept .char (← c.charAt offset))
  | result => do return .ofReply c (.text (← c.result))
  | resultLength => do return .ofReply c (.count (← c.resultLength))
  | resultChar => do return .ofReply c (.ofExcept .char (← c.resultChar))
  | substring first last => do return .ofReply c (.ofExcept .text (← c.substring first last))
  | decimal size negative first last => do
    return (← c.decimal size negative first last).map (.ofExcept .integer)
  | hex size first last => do return (← c.hex size first last).map (.ofExcept fun n => .integer n.toNat)
  | resultDecimal size negative => do return (← c.resultDecimal size negative).map (.ofExcept .integer)
  | resultHex size => do return (← c.resultHex size).map (.ofExcept fun n => .integer n.toNat)

/-- The cursors that runs of operations lead to. -/
inductive Cursor.Reachable (t : Text) : Cursor → Prop where
  | ofText : Reachable t (Cursor.ofText t)
  | step {c : Cursor} {op : Operation} {o : Outcome Reply} :
      Reachable t c → op.run c = .ok o → Reachable t o.cursor

end TextCursor
