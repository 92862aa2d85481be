import ProviderAssets.Yaml.Lexer
import ProviderAssets.Yaml.Node
import ProviderAssets.Yaml.Source

/-!
# From tokens to documents

Reading the documents of a text from its tokens. The reader looks one token ahead. When the tokens
run out before the end of the text, because of a fault in the text or a token out of place, every
node that is still open ends in `Node.missing`.
-/

namespace ProviderAssets.Yaml

/-- The state of the reader. -/
structure Reader where
  /-- The tokens to come. -/
  lexemes : List Lexeme
  /-- The fault after them, if there is one. -/
  fault : Option Fault
  /-- The fault that has been reached. -/
  reached : Option Fault := none
  /-- The tag handles with what they stand for. -/
  handles : List (String × String) := []
  /-- The anchors of the document with their numbers, latest first. -/
  anchors : List (String × Nat) := []
  /-- How many names these anchors have. -/
  named : Nat := 0

/-- A computation that reads tokens. -/
abbrev Read := StateM Reader

namespace Reader

/-- The next token, if the text goes that far. -/
def peek : Read (Option Lexeme) := modifyGet fun r =>
  match r.lexemes with
  | x :: _ => (some x, r)
  | [] => (none, { r with reached := r.fault })

/-- Passes over a token. -/
def skip : Read Unit := modify fun r => { r with lexemes := r.lexemes.drop 1 }

/-- Ends the reading. -/
def fail (fault : Fault) : Read Unit :=
  modify fun r => { r with lexemes := [], fault := some fault, reached := some fault }

/-- Ends the reading because of a token at `mark`. -/
def failAt (problem : Malformed) (mark : Mark) (context : Option (Activity × Mark)) : Read Unit :=
  fail (.malformed problem mark context)

/-- Gives an anchor its number: the number of names in use before it. -/
def register : Option String → Read (Option Nat)
  | none => pure none
  | some name => modifyGet fun r =>
    let named := if (r.anchors.lookup name).isSome then r.named else r.named + 1
    (some r.named, { r with anchors := (name, r.named) :: r.anchors, named })

/-- A scalar that is not written, at `mark`. -/
def emptyScalar (mark : Mark) : Node := .scalar { mark } "" .plain

/-- Whether the token cannot begin the contents of an entry of a block. -/
def endsBlockEntry : Token → Bool
  | .key | .value | .blockEnd => true
  | _ => false

/-- The anchor and the tag before a node. -/
structure Properties where
  /-- Where the first of them begins. -/
  start : Mark
  /-- The anchor. -/
  anchor : Option String := none
  /-- The tag, in its two parts. -/
  tag : Option (String × String) := none
  /-- Where the tag begins. -/
  tagMark : Mark

/-- Reads an anchor, if one comes next. -/
def anchor? : Read (Option (String × Mark)) := do
  match ← peek with
  | some ⟨.anchorName name, start, _⟩ =>
    skip
    pure (some (name, start))
  | _ => pure none

/-- Reads a tag, if one comes next. -/
def tag? : Read (Option ((String × String) × Mark)) := do
  match ← peek with
  | some ⟨.tag handle suffix, start, _⟩ =>
    skip
    pure (some ((handle, suffix), start))
  | _ => pure none

/-- Reads the anchor and the tag before the contents of a node, in either order. -/
def properties (start : Mark) : Read Properties := do
  match ← anchor? with
  | some (name, _) =>
    match ← tag? with
    | some (tag, mark) => return { start, anchor := name, tag := tag, tagMark := mark }
    | none => return { start, anchor := name, tagMark := start }
  | none =>
    match ← tag? with
    | some (tag, mark) =>
      return { start, anchor := (← anchor?).map (·.1), tag := tag, tagMark := mark }
    | none => return { start, tagMark := start }

/-- The full tag, with the text of its handle in place. -/
def resolveTag (p : Properties) : Read (Option String) := do
  match p.tag with
  | none => return none
  | some ("", suffix) => return some suffix
  | some (handle, suffix) =>
    match (← get).handles.lookup handle with
    | some text => return some (text ++ suffix)
    | none =>
      failAt .undefinedTagHandle p.tagMark (some (.node, p.start))
      return none

mutual

/-- Reads a node. Block collections may begin inside a block, and a sequence at the indentation of
its mapping where `indentless` is set. -/
def node : Nat → Bool → Bool → Read Node
  | 0, _, _ => return .missing
  | fuel + 1, inBlock, indentless => do
    match ← peek with
    | none => return .missing
    | some ⟨.aliasName name, start, _⟩ =>
      match (← get).anchors.lookup name with
      | some n =>
        skip
        return .aliasOf start n
      | none =>
        fail (.unknownAnchor start)
        return .missing
    | some first =>
      let p ← properties first.start
      let some x ← peek | return .missing
      let tag ← resolveTag p
      -- The handle of the tag may be unknown, which ends the reading.
      if (← get).reached.isSome then return .missing
      let info : Read NodeInfo := do
        return { mark := p.start, anchor := ← register p.anchor, tag }
      match x.token with
      | .scalar text style =>
        let info ← info
        skip
        -- A lone exclamation mark is no tag of a scalar, though it is one of a collection.
        return .scalar (if tag = some "!" then { info with tag := none } else info) text style
      | .flowSequenceStart =>
        let info ← info
        skip
        return .sequence info (← flowSequence fuel x.start true)
      | .flowMappingStart =>
        let info ← info
        skip
        return .mapping info (← flowMapping fuel x.start true)
      | token =>
        if token = .blockEntry && indentless then
          let info ← info
          return .sequence info (← indentlessSequence fuel)
        else if token = .blockSequenceStart && inBlock then
          let info ← info
          skip
          return .sequence info (← blockSequence fuel x.start)
        else if token = .blockMappingStart && inBlock then
          let info ← info
          skip
          return .mapping info (← blockMapping fuel x.start)
        else if p.anchor.isSome || p.tag.isSome then
          return .scalar (← info) "" .plain
        else
          failAt .nodeContent x.start
            (some (if inBlock then .blockNode else .flowNode, p.start))
          return .missing

/-- Reads the entries of a block sequence that begins at `start`. -/
def blockSequence : Nat → Mark → Read (List Node)
  | 0, _ => return [.missing]
  | fuel + 1, start => do
    match ← peek with
    | none => return [.missing]
    | some ⟨.blockEntry, _, stop⟩ =>
      skip
      let some x ← peek | return [.missing]
      let item ←
        if x.token = .blockEntry || x.token = .blockEnd then pure (emptyScalar stop)
        else node fuel true false
      return item :: (← blockSequence fuel start)
    | some ⟨.blockEnd, _, _⟩ =>
      skip
      return []
    | some x =>
      failAt .blockEntry x.start (some (.blockSequence, start))
      return [.missing]

/-- Reads the entries of a block sequence at the indentation of the mapping around it. -/
def indentlessSequence : Nat → Read (List Node)
  | 0 => return [.missing]
  | fuel + 1 => do
    match ← peek with
    | none => return [.missing]
    | some ⟨.blockEntry, _, stop⟩ =>
      skip
      let some x ← peek | return [.missing]
      let item ←
        if x.token = .blockEntry || endsBlockEntry x.token then pure (emptyScalar stop)
        else node fuel true false
      return item :: (← indentlessSequence fuel)
    | some _ => return []

/-- Reads the entries of a block mapping that begins at `start`. -/
def blockMapping : Nat → Mark → Read (List (Node × Node))
  | 0, _ => return [(.missing, .missing)]
  | fuel + 1, start => do
    match ← peek with
    | none => return [(.missing, .missing)]
    | some ⟨.key, _, stop⟩ =>
      skip
      let some x ← peek | return [(.missing, .missing)]
      let key ←
        if endsBlockEntry x.token then pure (emptyScalar stop) else node fuel true true
      let value ← blockValue fuel
      return (key, value) :: (← blockMapping fuel start)
    | some ⟨.blockEnd, _, _⟩ =>
      skip
      return []
    | some x =>
      failAt .blockKey x.start (some (.blockMapping, start))
      return [(.missing, .missing)]

/-- Reads the value of an entry of a block mapping. -/
def blockValue : Nat → Read Node
  | 0 => return .missing
  | fuel + 1 => do
    match ← peek with
    | none => return .missing
    | some ⟨.value, _, stop⟩ =>
      skip
      let some x ← peek | return .missing
      if endsBlockEntry x.token then return emptyScalar stop else node fuel true true
    | some x => return emptyScalar x.start

/-- Reads the entries of a sequence in brackets; `first` is set before the first one. -/
def flowSequence : Nat → Mark → Bool → Read (List Node)
  | 0, _, _ => return [.missing]
  | fuel + 1, start, first => do
    let some x ← peek | return [.missing]
    if x.token = .flowSequenceEnd then
      skip
      return []
    if !first then
      if x.token = .flowEntry then skip
      else
        failAt .flowSequenceEnd x.start (some (.flowSequence, start))
        return [.missing]
    match ← peek with
    | none => return [.missing]
    | some ⟨.key, mark, _⟩ =>
      skip
      let entry ← flowPair fuel
      return .mapping { mark } [entry] :: (← flowSequence fuel start false)
    | some ⟨.flowSequenceEnd, _, _⟩ =>
      skip
      return []
    | some _ =>
      let item ← node fuel false false
      return item :: (← flowSequence fuel start false)

/-- Reads the single entry of a mapping that stands in a sequence without braces. -/
def flowPair : Nat → Read (Node × Node)
  | 0 => return (.missing, .missing)
  | fuel + 1 => do
    let some x ← peek | return (.missing, .missing)
    let key ←
      -- The token that shows that no key is written is passed over, even where it is the colon.
      if x.token = .value || x.token = .flowEntry || x.token = .flowSequenceEnd then
        skip
        pure (emptyScalar x.stop)
      else node fuel false false
    match ← peek with
    | none => return (key, .missing)
    | some ⟨.value, _, _⟩ =>
      skip
      let some y ← peek | return (key, .missing)
      if y.token = .flowEntry || y.token = .flowSequenceEnd then
        return (key, emptyScalar y.start)
      return (key, ← node fuel false false)
    | some y => return (key, emptyScalar y.start)

/-- Reads the entries of a mapping in braces; `first` is set before the first one. -/
def flowMapping : Nat → Mark → Bool → Read (List (Node × Node))
  | 0, _, _ => return [(.missing, .missing)]
  | fuel + 1, start, first => do
    let some x ← peek | return [(.missing, .missing)]
    if x.token = .flowMappingEnd then
      skip
      return []
    if !first then
      if x.token = .flowEntry then skip
      else
        failAt .flowMappingEnd x.start (some (.flowMapping, start))
        return [(.missing, .missing)]
    match ← peek with
    | none => return [(.missing, .missing)]
    | some ⟨.key, _, _⟩ =>
      skip
      let some y ← peek | return [(.missing, .missing)]
      let key ←
        if y.token = .value || y.token = .flowEntry || y.token = .flowMappingEnd then
          pure (emptyScalar y.start)
        else node fuel false false
      let value ← flowValue fuel
      return (key, value) :: (← flowMapping fuel start false)
    | some ⟨.flowMappingEnd, _, _⟩ =>
      skip
      return []
    | some _ =>
      let key ← node fuel false false
      let some y ← peek | return [(key, .missing)]
      -- Keys before a colon have a token in front, so this one has no value.
      return (key, emptyScalar y.start) :: (← flowMapping fuel start false)

/-- Reads the value of an entry of a mapping in braces. -/
def flowValue : Nat → Read Node
  | 0 => return .missing
  | fuel + 1 => do
    match ← peek with
    | none => return .missing
    | some ⟨.value, _, _⟩ =>
      skip
      let some x ← peek | return .missing
      if x.token = .flowEntry || x.token = .flowMappingEnd then return emptyScalar x.start
      else node fuel false false
    | some x => return emptyScalar x.start

end

/-- The handles that need no directive. -/
def defaultHandles : List (String × String) := [("!", "!"), ("!!", "tag:yaml.org,2002:")]

/-- Reads the directives before a document; `versioned` is set after a version directive. -/
def directives : Nat → Bool → List (String × String) → Read Unit
  | 0, _, _ => pure ()
  | fuel + 1, versioned, handles => do
    match ← peek with
    | some ⟨.versionDirective major minor, mark, _⟩ =>
      if versioned then failAt .repeatedVersion mark none
      else if major ≠ 1 || (minor ≠ 1 && minor ≠ 2) then failAt .unsupportedVersion mark none
      else
        skip
        directives fuel true handles
    | some ⟨.tagDirective handle text, mark, _⟩ =>
      if (handles.lookup handle).isSome then failAt .repeatedTagHandle mark none
      else
        skip
        directives fuel versioned (handles ++ [(handle, text)])
    | _ => modify ({ · with handles := handles ++ defaultHandles })

/-- Passes over the indicators that end a document. -/
def skipDocumentEnds : Nat → Read Unit
  | 0 => pure ()
  | fuel + 1 => do
    if let some ⟨.documentEnd, _, _⟩ ← peek then
      skip
      skipDocumentEnds fuel

/-- Whether a document without contents ends at the token. -/
def endsDocument : Token → Bool
  | .versionDirective _ _ | .tagDirective _ _ | .documentStart | .documentEnd | .streamEnd => true
  | _ => false

/-- Whether the token needs no indicator before the first document, since it is its contents. -/
def isBareStart : Token → Bool
  | .versionDirective _ _ | .tagDirective _ _ | .documentStart | .streamEnd => false
  | _ => true

/-- Reads the contents of a document from its first token on. Only the first document of a text
may do without the indicator of its beginning. -/
def root (fuel : Nat) (first : Bool) (x : Lexeme) : Read Node := do
  directives fuel false []
  if first && isBareStart x.token then return ← node fuel true false
  let some y ← peek | return .missing
  if y.token ≠ .documentStart then
    failAt .documentStart y.start none
    return .missing
  skip
  let some z ← peek | return .missing
  if endsDocument z.token then return emptyScalar z.start else node fuel true false

/-- Reads a document, unless the text ends here. -/
def document? (fuel : Nat) (first : Bool) : Read (Option Document) := do
  modify ({ · with anchors := [], named := 0 })
  if !first then skipDocumentEnds fuel
  match ← peek with
  | none => return some ⟨.missing, (← get).reached⟩
  | some x =>
    if x.token = .streamEnd then return if first then some ⟨.absent x.start, none⟩ else none
    let root ← root fuel first x
    if let some ⟨.documentEnd, _, _⟩ ← peek then skip
    return some ⟨root, (← get).reached⟩

/-- Reads the documents up to the end of the text or the first fault. -/
def documents : Nat → Bool → Read (List Document)
  | 0, _ => return []
  | fuel + 1, first => do
    match ← document? fuel first with
    | none => return []
    | some d =>
      match d.root, d.fault with
      | .absent _, _ | _, some _ => return [d]
      | _, none => return d :: (← documents fuel false)

end Reader

/-- The documents of the tokens. -/
def Tokens.documents (t : Tokens) : List Document :=
  let fuel := 3 * t.lexemes.length + 4
  ((Reader.documents fuel true).run { lexemes := t.lexemes, fault := t.fault }).1

/-- The documents of a text that is read in one way or another. -/
def documentsOfChars : Except Fault (List Char) → List Document
  | .ok cs => (Tokens.ofChars cs).documents
  | .error fault => [⟨.missing, some fault⟩]

/-- The documents of a text. There is always at least one. -/
def documents (s : String) : List Document := documentsOfChars (charsOfString s)

/-- The documents of a text given as bytes. -/
def documentsOfBytes (bytes : List UInt8) : List Document := documentsOfChars (charsOfBytes bytes)

end ProviderAssets.Yaml
