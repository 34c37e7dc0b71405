/-!
# Classes of ASCII characters

There are fifteen named classes, and a character may belong to many of them. A `CharClass` is any union of the classes,
one bit for each in a word of sixteen. The sixteenth bit has no meaning: it is kept where it is given, and no
character has it.

`of` looks a character up in a table with an entry for every ASCII code; a character outside ASCII belongs to no class.
-/

set_option autoImplicit false

namespace TextCursor

namespace CharClass

/-- The named classes, in the order of their bits. -/
inductive Kind where
  | newline | alpha | blank | control | digit | graph | lower | print | punct | space | upper | hexDigit | word
  | alnum | ascii
deriving DecidableEq, Repr

namespace Kind

def all : List Kind :=
  [newline, alpha, blank, control, digit, graph, lower, print, punct, space, upper, hexDigit, word, alnum, ascii]

def bit : Kind → Nat
  | newline => 0
  | alpha => 1
  | blank => 2
  | control => 3
  | digit => 4
  | graph => 5
  | lower => 6
  | print => 7
  | punct => 8
  | space => 9
  | upper => 10
  | hexDigit => 11
  | word => 12
  | alnum => 13
  | ascii => 14

def label : Kind → String
  | newline => "NEWLINE"
  | alpha => "ALPHA"
  | blank => "BLANK"
  | control => "CNTRL"
  | digit => "DIGIT"
  | graph => "GRAPH"
  | lower => "LOWER"
  | print => "PRINT"
  | punct => "PUNCT"
  | space => "SPACE"
  | upper => "UPPER"
  | hexDigit => "XDIGIT"
  | word => "WORD"
  | alnum => "ALNUM"
  | ascii => "ASCII"

def ofLabel? (name : String) : Option Kind :=
  all.find? (·.label == name)

end Kind

end CharClass

/-- A union of classes, as the bits of its members. -/
structure CharClass where
  bits : BitVec 16
deriving DecidableEq, Repr

namespace CharClass

def empty : CharClass := ⟨0#16⟩

def single (kind : Kind) : CharClass := ⟨BitVec.twoPow 16 kind.bit⟩

def union (a b : CharClass) : CharClass := ⟨a.bits ||| b.bits⟩

def inter (a b : CharClass) : CharClass := ⟨a.bits &&& b.bits⟩

/-- The bits of the first union that the second lacks, the meaningless one included. -/
def diff (a b : CharClass) : CharClass := ⟨a.bits &&& ~~~b.bits⟩

def symmDiff (a b : CharClass) : CharClass := ⟨a.bits ^^^ b.bits⟩

def ofKinds (kinds : List Kind) : CharClass :=
  kinds.foldl (fun a kind => a.union (single kind)) empty

def full : CharClass := ofKinds Kind.all

/-- The part of a union that has a meaning. -/
def truncate (a : CharClass) : CharClass := a.inter full

/-- The union of given bits, unless the meaningless one is among them. -/
def ofBits? (bits : BitVec 16) : Option CharClass :=
  if (truncate ⟨bits⟩).bits = bits then some ⟨bits⟩ else none

/-- The named classes that are not in the union. -/
def complement (a : CharClass) : CharClass := full.diff a

def includes (a b : CharClass) : Bool := a.bits &&& b.bits == b.bits

def meets (a b : CharClass) : Bool := a.bits &&& b.bits != 0#16

def isEmpty (a : CharClass) : Bool := a.bits == 0#16

def isFull (a : CharClass) : Bool := a.includes full

def kinds (a : CharClass) : List Kind :=
  Kind.all.filter fun kind => a.bits.getLsbD kind.bit

/-- The bits of the classes of every ASCII code. -/
def asciiTable : Vector (BitVec 16) 128 := #v[
  0x4008, 0x4008, 0x4008, 0x4008, 0x4008, 0x4008, 0x4008, 0x4008,
  0x4008, 0x420c, 0x4209, 0x4208, 0x4208, 0x4208, 0x4008, 0x4008,
  0x4008, 0x4008, 0x4008, 0x4008, 0x4008, 0x4008, 0x4008, 0x4008,
  0x4008, 0x4008, 0x4008, 0x4008, 0x4008, 0x4008, 0x4008, 0x4008,
  0x4284, 0x41a0, 0x41a0, 0x41a0, 0x41a0, 0x41a0, 0x41a0, 0x41a0,
  0x41a0, 0x41a0, 0x41a0, 0x41a0, 0x41a0, 0x41a0, 0x41a0, 0x41a0,
  0x78b0, 0x78b0, 0x78b0, 0x78b0, 0x78b0, 0x78b0, 0x78b0, 0x78b0,
  0x78b0, 0x78b0, 0x41a0, 0x41a0, 0x41a0, 0x41a0, 0x41a0, 0x41a0,
  0x41a0, 0x7ca2, 0x7ca2, 0x7ca2, 0x7ca2, 0x7ca2, 0x7ca2, 0x74a2,
  0x74a2, 0x74a2, 0x74a2, 0x74a2, 0x74a2, 0x74a2, 0x74a2, 0x74a2,
  0x74a2, 0x74a2, 0x74a2, 0x74a2, 0x74a2, 0x74a2, 0x74a2, 0x74a2,
  0x74a2, 0x74a2, 0x74a2, 0x41a0, 0x41a0, 0x41a0, 0x41a0, 0x51a0,
  0x41a0, 0x78e2, 0x78e2, 0x78e2, 0x78e2, 0x78e2, 0x78e2, 0x70e2,
  0x70e2, 0x70e2, 0x70e2, 0x70e2, 0x70e2, 0x70e2, 0x70e2, 0x70e2,
  0x70e2, 0x70e2, 0x70e2, 0x70e2, 0x70e2, 0x70e2, 0x70e2, 0x70e2,
  0x70e2, 0x70e2, 0x70e2, 0x41a0, 0x41a0, 0x41a0, 0x41a0, 0x4008]

def of (ch : Char) : CharClass :=
  if h : ch.toNat < 128 then ⟨asciiTable[ch.toNat]⟩ else empty

/-- Whether the character belongs to some class of the union. -/
def accepts (a : CharClass) (ch : Char) : Bool :=
  (of ch).meets a

/-- The union by the names of its members; the meaningless bit, which has none, follows as a number. -/
def inspect (a : CharClass) : String :=
  let rest := a.diff full
  let named := a.kinds.map Kind.label
  let unnamed := if rest.isEmpty then [] else ["0x" ++ String.ofList (Nat.toDigits 16 rest.bits.toNat)]
  let parts := if a.isEmpty then ["0x0"] else named ++ unnamed
  "CharClass(" ++ " | ".intercalate parts ++ ")"

end CharClass

def isDigit (ch : Char) : Bool :=
  '0' ≤ ch && ch ≤ '9'

/-- Whether the character is an ASCII digit or a letter from A to F of either case. -/
def isHexDigit (ch : Char) : Bool :=
  (CharClass.single .hexDigit).accepts ch

end TextCursor
