import TextCursor.CharSet

/-!
# Shelves of sets

Character sets under names, and the commands that build them up and ask about them. Every set on a shelf comes from the
empty set by insertions, whichever of the commands made it.
-/

set_option autoImplicit false

namespace TextCursor

/-- Character sets under names. Of several entries under one name the first counts. -/
structure SetShelf where
  sets : List (String × CharSet)
deriving DecidableEq, Repr

inductive SetCommand where
  /-- Put up the set of the characters of a string. -/
  | ofString (name content : String)
  | empty (name : String)
  /-- Put up the set of the listed characters. -/
  | ofList (name : String) (cs : List Char)
  | copy (name source : String)
  | insert (name : String) (ch : Char)
  /-- Ask for each character of a string whether it is a member. -/
  | contains (name content : String)
  | equal (name other : String)
deriving DecidableEq, Repr

inductive SetAnswer where
  | unit | flag (b : Bool) | flags (bs : List Bool)
deriving DecidableEq, Repr

/-- What one command yields: its answer, the set it was about, and the shelf after it. -/
structure SetReaction where
  answer : SetAnswer
  subject : CharSet
  shelf : SetShelf
deriving DecidableEq, Repr

namespace SetShelf

def bare : SetShelf := ⟨[]⟩

def find? (shelf : SetShelf) (name : String) : Option CharSet :=
  shelf.sets.lookup name

def put (shelf : SetShelf) (name : String) (set : CharSet) : SetReaction :=
  ⟨.unit, set, ⟨(name, set) :: shelf.sets⟩⟩

def step? (shelf : SetShelf) : SetCommand → Option SetReaction
  | .ofString name content => some (shelf.put name (CharSet.ofString content))
  | .empty name => some (shelf.put name CharSet.empty)
  | .ofList name cs => some (shelf.put name (CharSet.ofList cs))
  | .copy name source => do
    let set ← shelf.find? source
    return shelf.put name set
  | .insert name ch => do
    let set ← shelf.find? name
    return shelf.put name (set.insert ch)
  | .contains name content => do
    let set ← shelf.find? name
    return ⟨.flags (content.toList.map set.contains), set, shelf⟩
  | .equal name other => do
    let set ← shelf.find? name
    return ⟨.flag (set = (← shelf.find? other)), set, shelf⟩

def run? (shelf : SetShelf) : List SetCommand → Option (List SetReaction)
  | [] => some []
  | command :: commands => do
    let r ← shelf.step? command
    return r :: (← r.shelf.run? commands)

end SetShelf

end TextCursor
