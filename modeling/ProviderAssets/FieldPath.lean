import ProviderAssets.Error
import ProviderAssets.Resource.Basic
import ProviderAssets.Resource.Selector

/-!
# Field paths

A field path leads from the fields of a resource to values inside it: a plain segment takes a field,
a segment for items takes every item of the array in a field. `FieldPath.update` visits the values
that a path leads to, in the order of the document, and changes nothing else. What is missing or
null on the way ends that branch; a value of the wrong type on the way is an error.
-/

namespace ProviderAssets

open Json (Object Value)

/-- A step of a field path. -/
inductive Segment where
  | field (name : String)
  | items (name : String)
  deriving DecidableEq

/-- How a path names a step. -/
def Segment.text : Segment → String
  | field name => name
  | items name => name ++ "[]"

/-- A way from the fields of an object to values inside it. -/
abbrev FieldPath := List Segment

/-- A type of values that paths lead to. -/
structure Target (α : Type) where
  /-- The name of the type in messages. -/
  description : String
  /-- Reads a value, if it is of the type. -/
  ofValue? : Value → Option α
  /-- Writes a value. -/
  toValue : α → Value

namespace Target

/-- Any value. -/
def value : Target Value := ⟨"any value", some, id⟩

/-- Texts. -/
def text : Target String := ⟨"a string", Value.string?, .string⟩

/-- Objects. -/
def object : Target Object := ⟨"an object", Value.object?, .object⟩

end Target

namespace FieldPath

variable {α : Type} {m : Type → Type} [Monad m]

/-- How messages name a path. -/
def text (path : FieldPath) : String := Text.joinWith "/" (path.map Segment.text)

/-- Visits the last value of a path, in the field `name`. -/
def visit (t : Target α) (f : α → ExceptT Error m α) (fault : String → String → Error)
    (name : String) (v : Value) : ExceptT Error m Value :=
  match t.ofValue? v with
  | some a => t.toValue <$> f a
  | none => throw (fault t.description name)

/-- Visits the values that a path leads to from an object, and gives the object with what `f` makes
of them. `fault expected field` is the error where the value in a field is not as expected. -/
def updateFrom (t : Target α) (f : α → ExceptT Error m α) (fault : String → String → Error) :
    FieldPath → Object → ExceptT Error m Object
  | [], o => pure o
  | .field name :: rest, o =>
    match Fields.get? o name with
    | none => pure o
    | some v =>
      let changed : ExceptT Error m Value :=
        if rest.isEmpty then visit t f fault name v
        else
          match v with
          | .null => pure .null
          | .object inner => .object <$> updateFrom t f fault rest inner
          | _ => throw (fault "an object" name)
      Fields.insert o name <$> changed
  | .items name :: rest, o =>
    match Fields.get? o name with
    | none | some .null => pure o
    | some (.array xs) =>
      let changed : ExceptT Error m (List Value) := xs.mapM fun x =>
        if rest.isEmpty then visit t f fault name x
        else
          match x with
          | .object inner => .object <$> updateFrom t f fault rest inner
          | _ => throw (fault "a sequence of objects" name)
      (Fields.insert o name <| .array ·) <$> changed
    | some _ => throw (fault "a sequence" name)

/-- Visits the values that a path leads to in a resource. -/
def update (path : FieldPath) (t : Target α) (f : α → ExceptT Error m α) (r : Resource) :
    ExceptT Error m Resource := do
  let fault (expected field : String) : Error :=
    .malformed r.id (.shape expected field path.text)
  return { r with root := ← updateFrom t f fault path r.root }

end FieldPath

/-- A path for the resources that a selector admits. -/
structure FieldRule where
  /-- Which resources the path is for. -/
  selector : KindSelector
  /-- Where it leads. -/
  path : FieldPath

namespace FieldRule

variable {α : Type} {m : Type → Type} [Monad m]

/-- The rule of a path for one kind, in any group and version. -/
def ofKind (kind : String) (path : FieldPath) : FieldRule :=
  ⟨{ group := none, version := none, kind := some kind }, path⟩

/-- Visits the values that the rule leads to in a resource. -/
def update (rule : FieldRule) (t : Target α) (f : α → ExceptT Error m α) (r : Resource) :
    ExceptT Error m Resource :=
  if rule.selector.admits r.id.gvk then rule.path.update t f r else pure r

/-- Visits the values that some rules lead to, rule after rule. -/
def updateAll (rules : List FieldRule) (t : Target α) (f : α → ExceptT Error m α) (r : Resource) :
    ExceptT Error m Resource :=
  rules.foldlM (fun r rule => rule.update t f r) r

end FieldRule

end ProviderAssets
