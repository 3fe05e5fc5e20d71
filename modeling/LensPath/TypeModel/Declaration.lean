/-!
Declarations of types: fields, methods and what kind of type they belong to.
-/

namespace LensPath

inductive TypeKind
  | classType
  | interfaceType
deriving DecidableEq, Repr

structure FieldDecl where
  name : String
  type : String
  isStatic : Bool := false
deriving DecidableEq, Repr

structure MethodDecl where
  name : String
  returns : String
  /-- The types of the parameters; a path can only call a method that has none. -/
  params : List String := []
  isStatic : Bool := false
deriving DecidableEq, Repr

structure TypeDecl where
  kind : TypeKind := .classType
  isNested : Bool := false
  fields : List FieldDecl := []
  methods : List MethodDecl := []
deriving DecidableEq, Repr

def FieldDecl.isVisible (field : FieldDecl) : Bool := !field.isStatic

/-- A path can reach a method that is not static and has no parameters. -/
def MethodDecl.isVisible (method : MethodDecl) : Bool :=
  !method.isStatic && method.params.isEmpty

namespace TypeDecl

def ofKind (kind : TypeKind) : TypeDecl := { kind }

def addField (decl : TypeDecl) (field : FieldDecl) : TypeDecl :=
  { decl with fields := decl.fields ++ [field] }

def addMethod (decl : TypeDecl) (method : MethodDecl) : TypeDecl :=
  { decl with methods := decl.methods ++ [method] }

def nested (decl : TypeDecl) : TypeDecl := { decl with isNested := true }

def findField (decl : TypeDecl) (name : String) : Option FieldDecl :=
  decl.fields.find? fun field => field.isVisible && field.name == name

def findMethod (decl : TypeDecl) (name : String) : Option MethodDecl :=
  decl.methods.find? fun method => method.isVisible && method.name == name

end TypeDecl

end LensPath
