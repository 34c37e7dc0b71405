/-!
# Searching bytes

The least offset at which a byte, or a sequence of bytes, occurs. The search knows nothing about characters: that an
encoded literal is found only between two characters is a property of the encoding, not of the search.

Who moves over a text does not care how a search comes to its answer, and takes the two searches as they are given.
-/

set_option autoImplicit false

namespace TextCursor.Utf8

def findByte? (byte : UInt8) (bytes : List UInt8) : Option Nat :=
  bytes.idxOf? byte

/-- The least offset at which the sequence occurs; the empty sequence occurs at the front. -/
def findBytes? (sequence : List UInt8) : List UInt8 → Option Nat
  | [] => if sequence.isEmpty then some 0 else none
  | byte :: bytes =>
    if sequence.isPrefixOf (byte :: bytes) then some 0
    else (findBytes? sequence bytes).map (· + 1)

/-- Looking for one byte is looking for the sequence of that byte alone. -/
theorem findByte?_eq_findBytes? (byte : UInt8) (bytes : List UInt8) :
    findByte? byte bytes = findBytes? [byte] bytes := by
  unfold findByte?
  induction bytes with
  | nil => rfl
  | cons first bytes ih =>
    rw [List.idxOf?_cons, findBytes?, ih]
    by_cases h : first = byte
    · simp [h]
    · have hne : ¬ byte = first := fun heq => h heq.symm
      simp [h, hne]

/-- A search for one byte and a search for a sequence of bytes. -/
structure ByteSearch where
  byte? : UInt8 → List UInt8 → Option Nat
  bytes? : List UInt8 → List UInt8 → Option Nat

def ByteSearch.least : ByteSearch := ⟨findByte?, findBytes?⟩

end TextCursor.Utf8
