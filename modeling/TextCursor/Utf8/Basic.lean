/-!
# Bytes of characters

A text is a list of characters, and its offsets count the bytes of their UTF-8 form. `width` is the number of those
bytes and `encode` the bytes themselves. The two agree (`length_encode`), and both turn the joining of lists into a
sum and a joining of bytes, which is all that positions are computed from.
-/

set_option autoImplicit false

namespace TextCursor.Utf8

/-- The number of bytes that the characters take. -/
def width : List Char → Nat
  | [] => 0
  | ch :: cs => ch.utf8Size + width cs

def encode (cs : List Char) : List UInt8 :=
  cs.flatMap String.utf8EncodeChar

@[simp] theorem width_nil : width [] = 0 := rfl

@[simp] theorem width_cons (ch : Char) (cs : List Char) : width (ch :: cs) = ch.utf8Size + width cs := rfl

@[simp] theorem width_append (as bs : List Char) : width (as ++ bs) = width as + width bs := by
  induction as with
  | nil => simp
  | cons ch as ih => simp [ih, Nat.add_assoc]

@[simp] theorem encode_nil : encode [] = [] := rfl

@[simp] theorem encode_cons (ch : Char) (cs : List Char) :
    encode (ch :: cs) = String.utf8EncodeChar ch ++ encode cs := rfl

@[simp] theorem encode_append (as bs : List Char) : encode (as ++ bs) = encode as ++ encode bs :=
  List.flatMap_append

/-- The width is the length of the encoding. -/
@[simp] theorem length_encode (cs : List Char) : (encode cs).length = width cs := by
  induction cs with
  | nil => rfl
  | cons ch cs ih => simp [ih]

/-- Every character takes at least one byte. -/
theorem length_le_width (cs : List Char) : cs.length ≤ width cs := by
  induction cs with
  | nil => simp
  | cons ch cs ih =>
    have := ch.utf8Size_pos
    simp only [List.length_cons, width_cons]
    omega

@[simp] theorem width_eq_zero_iff {cs : List Char} : width cs = 0 ↔ cs = [] := by
  constructor
  · intro h
    have := length_le_width cs
    exact List.length_eq_zero_iff.1 (by omega)
  · rintro rfl
    rfl

end TextCursor.Utf8
