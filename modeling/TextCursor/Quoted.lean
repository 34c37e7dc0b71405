import TextCursor.Unicode.DefaultIgnorable
import TextCursor.Unicode.ExtendingMark
import TextCursor.Unicode.Unprintable

/-!
# Quoted text

The form in which characters and strings appear inside messages. The delimiter, the backslash and four controls have a
short escape; a character that cannot be read where it stands, because it has no printed form, may be shown as nothing
or attaches to its neighbour, is written by its code point; every other character stands for itself.
-/

set_option autoImplicit false

namespace TextCursor.Quoted

/-- The letter of the short escape of a character, if it has one. -/
def shortEscape? (ch : Char) : Option Char :=
  if ch = '\x00' then some '0'
  else if ch = '\t' then some 't'
  else if ch = '\r' then some 'r'
  else if ch = '\n' then some 'n'
  else if ch = '\\' then some '\\'
  else none

/-- The code point in braces, in lower-case hexadecimal digits without padding. -/
def codePoint (ch : Char) : List Char :=
  ['\\', 'u', '\x7b'] ++ Nat.toDigits 16 ch.toNat ++ ['\x7d']

/-- Whether the character cannot be read where it stands. -/
def isHidden (ch : Char) : Bool :=
  Unicode.extendingMark.covers ch || Unicode.defaultIgnorable.covers ch || Unicode.unprintable.covers ch

/-- One character between delimiters of the given kind. -/
def escape (delimiter ch : Char) : List Char :=
  if ch = delimiter then ['\\', ch]
  else match shortEscape? ch with
    | some letter => ['\\', letter]
    | none => if isHidden ch then codePoint ch else [ch]

def ofChar (ch : Char) : String :=
  String.ofList (['\''] ++ escape '\'' ch ++ ['\''])

def ofString (s : String) : String :=
  String.ofList (['"'] ++ s.toList.flatMap (escape '"') ++ ['"'])

end TextCursor.Quoted
