/-!
What a path is resolved against. A type model says which members a type has and which types can
be looked into; the types themselves are handles of which nothing else is known.
-/

namespace LensPath

structure TypeModel (τ : Type) where
  Field : Type
  Method : Type
  findField : τ → String → Option Field
  /-- The method of a name, without parameters, that a path can reach on a type. -/
  findMethod : τ → String → Option Method
  fieldType : Field → τ
  returnType : Method → τ
  /-- The form of a type whose members can be looked up; `none` for an opaque type. -/
  inspectable : τ → Option τ
  presentableName : τ → String
  /-- Whether lenses declared on a type are checked at all. -/
  isHost : τ → Bool := fun _ => true

end LensPath
