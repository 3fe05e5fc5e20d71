import LensPath.Json.Shape.Stream
import LensPath.TypeModel.Table

/-!
Type tables and their parts as JSON: the shape that is read, and the value that is written. All
members are written, in the order of the shape; those with a fallback may be left out in what is
read.
-/

namespace LensPath

open Json

def TypeKind.name : TypeKind → String
  | classType => "class"
  | interfaceType => "interface"

def TypeKind.shape : Shape TypeKind :=
  .choice ([TypeKind.classType, .interfaceType].map fun kind => (kind.name, kind))

def TypeKind.toJson (kind : TypeKind) : Value := .text kind.name

def FieldDecl.shape : Shape FieldDecl :=
  .record "FieldDef"
    (.member "name" .text none <|
      .member "type" .text none <|
      .member "static" .flag (some false) .nil)
    fun (name, type, isStatic, ()) => { name, type, isStatic }

def FieldDecl.toJson (field : FieldDecl) : Value :=
  .object [("name", .text field.name), ("type", .text field.type), ("static", .flag field.isStatic)]

def MethodDecl.shape : Shape MethodDecl :=
  .record "MethodDef"
    (.member "name" .text none <|
      .member "returns" .text none <|
      .member "params" (.list .text) (some []) <|
      .member "static" .flag (some false) .nil)
    fun (name, returns, params, isStatic, ()) => { name, returns, params, isStatic }

def MethodDecl.toJson (method : MethodDecl) : Value :=
  .object [
    ("name", .text method.name),
    ("returns", .text method.returns),
    ("params", .list (method.params.map .text)),
    ("static", .flag method.isStatic)]

def TypeDecl.shape : Shape TypeDecl :=
  .record "TypeDef"
    (.member "kind" TypeKind.shape (some .classType) <|
      .member "nested" .flag (some false) <|
      .member "fields" (.list FieldDecl.shape) (some []) <|
      .member "methods" (.list MethodDecl.shape) (some []) .nil)
    fun (kind, isNested, fields, methods, ()) => { kind, isNested, fields, methods }

def TypeDecl.toJson (decl : TypeDecl) : Value :=
  .object [
    ("kind", decl.kind.toJson),
    ("nested", .flag decl.isNested),
    ("fields", .list (decl.fields.map FieldDecl.toJson)),
    ("methods", .list (decl.methods.map MethodDecl.toJson))]

namespace TypeTable

/-- The members of a table. Of several declarations under one name the last one counts. -/
def members : Members (Option (List (String × TypeDecl)) × Unit)
    (List (String × TypeDecl) × Unit) :=
  .member "types" (.table TypeDecl.shape) (some []) .nil

def shape : Shape TypeTable := .record "TypeTable" members fun (types, ()) => ofList types

def toJson (table : TypeTable) : Value :=
  .object [("types", .object (table.entries.map fun entry => (entry.1, entry.2.toJson)))]

end TypeTable

end LensPath
