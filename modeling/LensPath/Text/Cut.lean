/-!
Pieces of texts by the bytes of their encoding. A cut inside a character makes no text, and neither
does one that ends before it starts.
-/

namespace LensPath.Text

def byteLength (text : List Char) : Nat :=
  text.foldr (fun c length => c.utf8Size + length) 0

def splitBytes? : Nat → List Char → Option (List Char × List Char)
  | 0, text => some ([], text)
  | _ + 1, [] => none
  | count + 1, c :: rest =>
      if c.utf8Size ≤ count + 1 then
        (splitBytes? (count + 1 - c.utf8Size) rest).map fun (before, after) => (c :: before, after)
      else none

def cut? (text : List Char) (start stop : Nat) : Option (List Char) :=
  if start ≤ stop then do
    let (_, rest) ← splitBytes? start text
    let (piece, _) ← splitBytes? (stop - start) rest
    return piece
  else none

@[simp] theorem byteLength_nil : byteLength [] = 0 := rfl

@[simp] theorem byteLength_cons (c : Char) (rest : List Char) :
    byteLength (c :: rest) = c.utf8Size + byteLength rest := rfl

@[simp] theorem byteLength_append (text more : List Char) :
    byteLength (text ++ more) = byteLength text + byteLength more := by
  induction text with
  | nil => simp
  | cons c rest ih => simp [ih, Nat.add_assoc]

theorem byteLength_ofList (text : List Char) :
    (String.ofList text).utf8ByteSize = byteLength text := by
  induction text with
  | nil => simp
  | cons c rest ih => simp [String.ofList_cons, ih]

@[simp] theorem byteLength_toList (text : String) :
    byteLength text.toList = text.utf8ByteSize := by
  rw [← byteLength_ofList, String.ofList_toList]

theorem splitBytes?_byteLength (before after : List Char) :
    splitBytes? (byteLength before) (before ++ after) = some (before, after) := by
  induction before with
  | nil => simp [splitBytes?]
  | cons c rest ih =>
      obtain ⟨count, equal⟩ : ∃ count, byteLength (c :: rest) = count + 1 :=
        ⟨byteLength (c :: rest) - 1, by have := c.utf8Size_pos; simp; omega⟩
      have remaining : count + 1 - c.utf8Size = byteLength rest := by
        rw [← equal]; simp
      have fits : c.utf8Size ≤ count + 1 := by
        rw [← equal]; simp
      rw [equal, List.cons_append, splitBytes?, if_pos fits, remaining, ih]
      rfl

end LensPath.Text
