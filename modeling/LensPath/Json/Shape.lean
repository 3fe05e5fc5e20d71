import LensPath.Json.Value

/-!
Shapes of JSON values. A shape says what a value has to look like and what it stands for; a
record is an object, or the list of its members in the order of their declaration.
-/

namespace LensPath.Json

mutual

/-- A shape of JSON values, with the type of what a value of the shape stands for. -/
inductive Shape : Type → Type 1
  | text : Shape String
  | flag : Shape Bool
  | offset : Shape Nat
  /-- One of some names, alone or as the key of an object whose only value is null. -/
  | choice {α : Type} (options : List (String × α)) : Shape α
  | list {α : Type} (item : Shape α) : Shape (List α)
  /-- An object with keys of any name; all its members count, in their order. -/
  | table {α : Type} (entry : Shape α) : Shape (List (String × α))
  | record {α σ γ : Type} (name : String) (members : Members σ γ) (build : γ → α) : Shape α
  /-- An object whose `direct` members are read where they stand. All others are kept and read
  when the object is over. -/
  | split {α σ γ ρ δ : Type} (name : String) (direct : Members σ γ) (kept : Members ρ δ)
      (build : γ → δ → α) : Shape α

/-- The members of a record in the order of their declaration. `Members σ γ` stands for values
of type `γ`; while they are read, those seen so far are a `σ`. -/
inductive Members : Type → Type → Type 1
  | nil : Members Unit Unit
  | member {α σ γ : Type} (key : String) (shape : Shape α) (fallback : Option α)
      (rest : Members σ γ) : Members (Option α × σ) (α × γ)

end

namespace Members

def unseen : Members σ γ → σ
  | nil => ()
  | member _ _ _ rest => (none, rest.unseen)

def count : Members σ γ → Nat
  | nil => 0
  | member _ _ _ rest => rest.count + 1

/-- The values of all members. One that was not seen has its fallback or is missing. -/
def complete : Members σ γ → σ → Except Error γ
  | nil, _ => .ok ()
  | member key _ fallback rest, (seen, others) =>
      match seen <|> fallback with
      | some value => (value, ·) <$> rest.complete others
      | none => .error (.missingMember key)

def expectedItems (name : String) (count : Nat) : String :=
  "struct " ++ name ++ " with " ++ toString count ++
    (if count == 1 then " element" else " elements")

/-- The values of the members after the end of a list, given the number of items in it and the
error for a list that is too short. -/
def fallbacks (tooShort : Nat → Error) : (index : Nat) → Members σ γ → Except Error γ
  | _, nil => .ok ()
  | index, member _ _ fallback rest =>
      match fallback with
      | some value => (value, ·) <$> rest.fallbacks tooShort (index + 1)
      | none => .error (tooShort index)

end Members

def option (options : List (String × α)) (name : String) : Except Error α :=
  match options.lookup name with
  | some value => .ok value
  | none => .error (.unknownVariant name (options.map Prod.fst))

end LensPath.Json
