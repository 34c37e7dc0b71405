import TextCursor.CharClass
import TextCursor.Proofs.AsciiKey

/-!
# Members of classes

The rules of the classes are in `CharClass.Kind.admits`, on ASCII codes, and the table has for every code the classes
whose rule admits it (`CharClass.asciiTable_eq_classify`). So a class asked about alone accepts the ASCII characters whose
code its rule admits, and no others (`CharClass.accepts_single`): the bits of the other classes do not interfere. For the
two classes that digits are matched by, this gives the codes of the digits.
-/

set_option autoImplicit false

namespace TextCursor

namespace CharClass

namespace Kind

def isUpper (n : Nat) : Bool := 0x41 ≤ n && n ≤ 0x5A

def isLower (n : Nat) : Bool := 0x61 ≤ n && n ≤ 0x7A

def isDigit (n : Nat) : Bool := 0x30 ≤ n && n ≤ 0x39

def isAlnum (n : Nat) : Bool := isUpper n || isLower n || isDigit n

/-- The codes of characters that leave a mark on paper. -/
def isGraph (n : Nat) : Bool := 0x21 ≤ n && n ≤ 0x7E

def admits : Kind → Nat → Bool
  | newline, n => n == 0x0A
  | alpha, n => isUpper n || isLower n
  | blank, n => n == 0x09 || n == 0x20
  | control, n => n < 0x20 || n == 0x7F
  | digit, n => isDigit n
  | graph, n => isGraph n
  | lower, n => isLower n
  | print, n => isGraph n || n == 0x20
  | punct, n => isGraph n && !isAlnum n
  | space, n => (0x09 ≤ n && n ≤ 0x0D) || n == 0x20
  | upper, n => isUpper n
  | hexDigit, n => isDigit n || (0x41 ≤ n && n ≤ 0x46) || (0x61 ≤ n && n ≤ 0x66)
  | word, n => isAlnum n || n == 0x5F
  | alnum, n => isAlnum n
  | ascii, n => n < 0x80

end Kind

/-- The classes of an ASCII code by their rules. -/
def classify (code : Fin 128) : CharClass :=
  ofKinds (Kind.all.filter (·.admits code))

/-- Every entry of the table follows from the rules. -/
theorem asciiTable_eq_classify : ∀ code : Fin 128, ⟨asciiTable[code]⟩ = classify code := by
  decide +kernel

theorem of_eq_classify {ch : Char} (h : ch.toNat < 128) : of ch = classify ⟨ch.toNat, h⟩ := by
  rw [of, dif_pos h]
  exact asciiTable_eq_classify ⟨ch.toNat, h⟩

theorem of_eq_empty {ch : Char} (h : 128 ≤ ch.toNat) : of ch = empty :=
  dif_neg (Nat.not_lt.2 h)

/-- The bits tell the classes apart. -/
theorem Kind.bit_inj {a b : Kind} (h : a.bit = b.bit) : a = b := by
  have hlookup (kind : Kind) : Kind.all[kind.bit]? = some kind := by cases kind <;> rfl
  exact Option.some.inj (by rw [← hlookup a, ← hlookup b, h])

theorem Kind.bit_lt (kind : Kind) : kind.bit < 16 := by
  cases kind <;> decide

theorem getLsbD_union_single (a : CharClass) (kind other : Kind) :
    (a.union (single kind)).bits.getLsbD other.bit = (a.bits.getLsbD other.bit || decide (kind = other)) := by
  have hbit : other.bit = kind.bit ↔ kind = other := ⟨fun h => (Kind.bit_inj h).symm, fun h => h ▸ rfl⟩
  simp [union, single, other.bit_lt, hbit]

/-- A union of listed classes has the bits of those that are listed. -/
theorem getLsbD_ofKinds (kinds : List Kind) (kind : Kind) :
    (ofKinds kinds).bits.getLsbD kind.bit = decide (kind ∈ kinds) := by
  suffices h : ∀ a : CharClass, (kinds.foldl (fun a other => a.union (single other)) a).bits.getLsbD kind.bit =
      (a.bits.getLsbD kind.bit || decide (kind ∈ kinds)) by
    simp [ofKinds, h, empty]
  induction kinds with
  | nil => simp
  | cons other kinds ih =>
    intro a
    rw [List.foldl_cons, ih, getLsbD_union_single, Bool.or_assoc]
    by_cases heq : kind = other
    · simp [heq]
    · simp [heq, Ne.symm heq]

theorem Kind.mem_all (kind : Kind) : kind ∈ Kind.all := by
  cases kind <;> decide

theorem accepts_single (kind : Kind) (ch : Char) :
    (single kind).accepts ch = (decide (ch.toNat < 128) && kind.admits ch.toNat) := by
  by_cases hascii : ch.toNat < 128
  · have hmeets : (classify ⟨ch.toNat, hascii⟩).meets (single kind) =
        (classify ⟨ch.toNat, hascii⟩).bits.getLsbD kind.bit := and_twoPow_bne_zero _ kind.bit_lt
    rw [accepts, of_eq_classify hascii, hmeets, classify, getLsbD_ofKinds]
    simp [Kind.mem_all, hascii]
  · rw [accepts, of_eq_empty (Nat.not_lt.1 hascii)]
    simp [meets, empty, hascii]

end CharClass

theorem isDigit_iff_toNat {ch : Char} : isDigit ch = true ↔ 48 ≤ ch.toNat ∧ ch.toNat ≤ 57 := by
  simp only [isDigit, Bool.and_eq_true, decide_eq_true_eq, Char.le_def, UInt32.le_iff_toNat_le]
  exact Iff.rfl

theorem isHexDigit_iff_toNat {ch : Char} :
    isHexDigit ch = true ↔ (48 ≤ ch.toNat ∧ ch.toNat ≤ 57) ∨ (65 ≤ ch.toNat ∧ ch.toNat ≤ 70) ∨
      (97 ≤ ch.toNat ∧ ch.toNat ≤ 102) := by
  simp only [isHexDigit, CharClass.accepts_single, CharClass.Kind.admits, CharClass.Kind.isDigit, Bool.and_eq_true,
    Bool.or_eq_true, decide_eq_true_eq]
  omega

theorem toNat_lt_of_isDigit {ch : Char} (h : isDigit ch = true) : ch.toNat < 128 := by
  have := isDigit_iff_toNat.1 h
  omega

theorem toNat_lt_of_isHexDigit {ch : Char} (h : isHexDigit ch = true) : ch.toNat < 128 := by
  have := isHexDigit_iff_toNat.1 h
  omega

end TextCursor
