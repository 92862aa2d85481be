import ProviderAssets.Json.Value
import ProviderAssets.Yaml.Error
import ProviderAssets.Yaml.Node
import ProviderAssets.Yaml.Scalar

/-!
# Decoding documents

A decoder looks at a node and makes a value of it. It follows aliases, of which a document may not
use too many, and opens collections, which may not nest too deeply. Nodes are visited in the order
of the text, so the first error is the one reported; where the text breaks off, the error is its
fault.
-/

namespace ProviderAssets.Yaml

/-- What decoders consult. -/
structure Surroundings where
  /-- The nodes with anchors, by the numbers of these. -/
  anchors : List (Nat × Node)
  /-- How many aliases may be followed. -/
  aliasLimit : Nat
  /-- The fault at which the text breaks off, if it does. -/
  fault : Option Fault

/-- A computation that decodes; its state counts the aliases followed. -/
abbrev Decode := ReaderT Surroundings (StateT Nat (Except Error))

/-- Where a decoder stands. -/
structure Place where
  /-- The path to the node. -/
  path : Path := .root
  /-- How many collections may still be opened. -/
  depth : Nat := 128

/-- A way to make a value of a node. -/
abbrev Decoder (α : Type) := Place → Node → Decode α

namespace Decode

variable {α β σ : Type}

/-- Fails because a value does not fit. -/
def mismatch (m : Mismatch) : Decode α := throw (.mismatch m none)

/-- Fails because the text breaks off here. -/
def broken : Decode α := do
  match (← read).fault with
  | some f => throw (.fault f)
  | none => throw .noDocument

/-- Names the site of a mismatch that has none yet. -/
def located (mark : Mark) (path : Path) (d : Decode α) : Decode α :=
  tryCatch d fun e => throw (e.locate mark path)

/-- The node that is meant by a node: that of the anchor, if it is an alias. -/
def follow : Node → Decode Node
  | .aliasOf _ n => do
    let followed := (← get) + 1
    set followed
    let s ← read
    if followed > s.aliasLimit then throw .repetition
    return (s.anchors.lookup n).getD .missing
  | n => return n

/-- What a node is, in the words of a mismatch. -/
def found : Node → Decode Found
  | .absent _ => throw .noDocument
  | .missing => broken
  | .aliasOf _ _ => return .null
  | .scalar info text style =>
    match readScalar info.tag text style with
    | .ok f => return f
    | .error m => mismatch m
  | .sequence _ _ => return .sequence
  | .mapping _ _ => return .map

/-- Fails because a node is not of the expected type. -/
def unexpected (p : Place) (expected : String) (n : Node) : Decode α :=
  located n.mark p.path do mismatch (.invalidType (← found n) expected)

/-- The text of a scalar, whatever it stands for. -/
def stringAs (expected : String) : Decoder String := fun p n => do
  match ← follow n with
  | .scalar _ text _ => return text
  | n => unexpected p expected n

/-- The text of a scalar. -/
def string : Decoder String := stringAs "a string"

/-- Whether a scalar means that there is no value. -/
def isNone (info : NodeInfo) (text : String) (style : ScalarStyle) : Decode Bool := do
  if style ≠ .plain then return false
  match info.tag with
  | none => return text.isEmpty || isNullText text
  | some tag =>
    if tag = coreTag "null" then
      if isNullText text then return true
      mismatch (.invalidValue (.string text) "null")
    else return false

/-- A value that may be null. -/
def option (d : Decoder α) : Decoder (Option α) := fun p n => do
  match ← follow n with
  | .absent _ => return none
  | .missing => broken
  | n@(.scalar info text style) =>
    if ← isNone info text style then return none else return some (← d p n)
  | n => return some (← d p n)

/-- Opens a collection at `mark`. -/
def enter (mark : Mark) (p : Place) (body : Place → Decode α) : Decode α :=
  match p.depth with
  | 0 => throw (.depth mark)
  | depth + 1 => located mark p.path (body { p with depth })

/-- Whether a scalar is not written at all, so that it stands for an empty collection too. -/
def isUnwritten (text : String) (style : ScalarStyle) : Bool := text.isEmpty && style = .plain

/-- Decodes the items of a sequence from number `i` on. -/
def items (d : Decoder α) (p : Place) : Nat → List Node → Decode (List α)
  | _, [] => return []
  | _, .missing :: _ => broken
  | i, n :: rest => do
    let x ← d { p with path := p.path.item i } n
    return x :: (← items d p (i + 1) rest)

/-- A sequence. -/
def list (d : Decoder α) : Decoder (List α) := fun p n => do
  match ← follow n with
  | .absent _ => return []
  | .missing => broken
  | .sequence info xs => enter info.mark p fun p => items d p 0 xs
  | n@(.scalar _ text style) =>
    if isUnwritten text style then return [] else unexpected p "a sequence" n
  | n => unexpected p "a sequence" n

/-- A mapping, whose entries the body decodes. -/
def mapping (expected : String) (body : Place → List (Node × Node) → Decode α) : Decoder α :=
  fun p n => do
    match ← follow n with
    | .absent mark => located mark p.path (body p [])
    | .missing => broken
    | .mapping info entries => enter info.mark p (body · entries)
    | n@(.scalar info text style) =>
      if isUnwritten text style then located info.mark p.path (body p [])
      else unexpected p expected n
    | n => unexpected p expected n

/-- The place of the value of an entry with the given key. -/
def Place.ofKey (p : Place) : Node → Place
  | .scalar _ text _ => { p with path := p.path.field text }
  | _ => { p with path := p.path.unknown }

/-- Decodes the entries of a mapping. -/
def entries (key : Decoder α) (value : α → Decoder β) (p : Place) :
    List (Node × Node) → Decode (List (α × β))
  | [] => return []
  | (.missing, _) :: _ => broken
  | (k, v) :: rest => do
    let a ← key p k
    let b ← value a (Place.ofKey p k) v
    return (a, b) :: (← entries key value p rest)

/-- A mapping from texts to texts. -/
def stringMap : Decoder (List (String × String)) :=
  mapping "a map" (entries string fun _ => string)

mutual

/-- Looks at a value that does not matter, only to see whether the text breaks off in it. -/
def ignore : Node → Decode Unit
  | .absent _ | .aliasOf _ _ | .scalar _ _ _ => return
  | .missing => broken
  | .sequence _ xs => ignoreItems xs
  | .mapping _ es => ignoreEntries es

/-- Looks at the items of a sequence that does not matter. -/
def ignoreItems : List Node → Decode Unit
  | [] => return
  | n :: rest => do
    ignore n
    ignoreItems rest

/-- Looks at the entries of a mapping that does not matter. -/
def ignoreEntries : List (Node × Node) → Decode Unit
  | [] => return
  | (k, v) :: rest => do
    ignore k
    ignore v
    ignoreEntries rest

end

/-- What becomes of the fields that a record does not have. -/
inductive Others where
  | ignored
  | refused

/-- The name of a field, which must be one of `known` where others are refused. -/
def fieldName (known : List String) (others : Others) : Decoder String := fun p n => do
  let n ← follow n
  let name ← stringAs "field identifier" p n
  match others with
  | .ignored => return name
  | .refused =>
    if name ∈ known then return name
    else located n.mark p.path (mismatch (.unknownField name known))

/-- Decodes the fields of a record one after the other. `set` decodes a known field into the
record; a field may come only once. -/
def fields (known : List String) (others : Others) (set : String → Place → Node → σ → Decode σ)
    (p : Place) (seen : List String) : List (Node × Node) → σ → Decode σ
  | [], record => return record
  | (.missing, _) :: _, _ => broken
  | (k, v) :: rest, record => do
    let name ← fieldName known others p k
    if name ∈ known then
      -- Fields that the record does not have may come any number of times.
      if name ∈ seen then mismatch (.duplicateField name)
      let record ← set name (Place.ofKey p k) v record
      fields known others set p (name :: seen) rest record
    else
      ignore v
      fields known others set p seen rest record

/-- The contents of a tag that says all there is to say, so that they must be null. -/
def nothing (n : Node) : Decode Unit :=
  match n with
  | .scalar _ text _ =>
    if text.isEmpty || isNullText text then return
    else mismatch (.invalidValue (.string text) "null")
  | n => do mismatch (.invalidType (← found n) "unit")

/-- One of several words, given by a scalar or by a tag. -/
def word (words : List String) : Decoder String := fun p n => do
  let n ← follow n
  let known (w : String) : Decode String := do
    if w ∈ words then return w else mismatch (.unknownVariant w words)
  let ofTag (tag : Option String) (other : Decode String) : Decode String :=
    match ownTag? tag with
    | some w => do
      let w ← known w
      nothing n
      return w
    | none => other
  let tagExpected : Decode String := do
    mismatch (.invalidType (← found n) "a YAML tag starting with '!'")
  match n with
  | .scalar info text _ => located info.mark p.path (ofTag info.tag (known text))
  -- A collection has no text, so the word must be its tag.
  | .sequence info _ | .mapping info _ => located info.mark p.path (ofTag info.tag tagExpected)
  | n => unexpected p "" n

/-- The value of a field that must be there. -/
def required (name : String) : Option α → Decode α
  | some a => return a
  | none => mismatch (.missingField name)

end Decode

namespace Decoder

variable {α : Type}

/-- Reads a document as a whole. -/
def readDocument (d : Decoder α) (document : Document) : Except Error α := do
  let root := document.root
  let s : Surroundings :=
    { anchors := root.anchored.reverse, aliasLimit := 100 * root.size, fault := document.fault }
  let (a, _) ← d {} root s 0
  match document.fault with
  | some f => throw (.fault f)
  | none => return a

/-- Reads the only document of a text. -/
def readOnly (d : Decoder α) : List Document → Except Error α
  | [] => throw .noDocument
  | document :: rest => do
    let a ← d.readDocument document
    if rest.isEmpty then return a else throw .severalDocuments

end Decoder

end ProviderAssets.Yaml
