import ProviderAssets.Yaml.Mark

/-!
# Faults of a text

What can be wrong with a text before its contents are looked at: characters that may not occur,
tokens that cannot be formed, tokens out of place, and aliases without an anchor. A fault carries
its place, and most carry what was being read and where that began.
-/

namespace ProviderAssets.Yaml

/-- Why bytes do not form a text. -/
inductive Unreadable where
  | leadingOctet
  | incompleteSequence
  | trailingOctet
  | sequenceLength
  | noCharacter
  | controlCharacter
  deriving DecidableEq

/-- The wording of an encoding fault. -/
def Unreadable.message : Unreadable → String
  | leadingOctet => "invalid leading UTF-8 octet"
  | incompleteSequence => "incomplete UTF-8 octet sequence"
  | trailingOctet => "invalid trailing UTF-8 octet"
  | sequenceLength => "invalid length of a UTF-8 sequence"
  | noCharacter => "invalid Unicode character"
  | controlCharacter => "control characters are not allowed"

/-- What was being read when a fault was met. -/
inductive Activity where
  | nextToken
  | simpleKey
  | directive
  | versionDirective
  | tagDirective
  | tagDirectiveStart
  | tagDirectiveHandle
  | tagDirectiveValue
  | anchorToken
  | aliasToken
  | tag
  | tagValue
  | blockScalar
  | quotedScalar
  | quotedScalarEscape
  | plainScalar
  | node
  | blockNode
  | flowNode
  | blockSequence
  | blockMapping
  | flowSequence
  | flowMapping
  deriving DecidableEq

/-- The clause that names an activity. -/
def Activity.clause : Activity → String
  | nextToken => "while scanning for the next token"
  | simpleKey => "while scanning a simple key"
  | directive => "while scanning a directive"
  | versionDirective => "while scanning a %YAML directive"
  | tagDirective => "while scanning a %TAG directive"
  | tagDirectiveStart => "while scanning a tag directive"
  | tagDirectiveHandle => "while parsing a tag directive"
  | tagDirectiveValue => "while parsing a %TAG directive"
  | anchorToken => "while scanning an anchor"
  | aliasToken => "while scanning an alias"
  | tag => "while scanning a tag"
  | tagValue => "while parsing a tag"
  | blockScalar => "while scanning a block scalar"
  | quotedScalar => "while scanning a quoted scalar"
  | quotedScalarEscape => "while parsing a quoted scalar"
  | plainScalar => "while scanning a plain scalar"
  | node => "while parsing a node"
  | blockNode => "while parsing a block node"
  | flowNode => "while parsing a flow node"
  | blockSequence => "while parsing a block collection"
  | blockMapping => "while parsing a block mapping"
  | flowSequence => "while parsing a flow sequence"
  | flowMapping => "while parsing a flow mapping"

/-- Why characters do not form a token, or tokens no document. -/
inductive Malformed where
  | tokenStart
  | missingColon
  | blockEntryContext
  | keyContext
  | valueContext
  | directiveName
  | directiveNameMissing
  | directiveNameCharacter
  | lineEnd
  | versionSeparator
  | versionNumberMissing
  | versionNumberLength
  | space
  | spaceOrLineEnd
  | anchorName
  | tagBang
  | tagClose
  | tagText
  | tagEscape
  | tagLeadingOctet
  | tagTrailingOctet
  | zeroIndentation
  | tabIndentation
  | documentIndicator
  | endOfText
  | escapeLetter
  | escapeDigits
  | escapeCode
  | plainTab
  | plainColon
  | documentStart
  | repeatedVersion
  | unsupportedVersion
  | repeatedTagHandle
  | undefinedTagHandle
  | nodeContent
  | blockEntry
  | blockKey
  | flowSequenceEnd
  | flowMappingEnd
  deriving DecidableEq

/-- The wording of a fault in the form of a text. -/
def Malformed.message : Malformed → String
  | tokenStart => "found character that cannot start any token"
  | missingColon => "could not find expected ':'"
  | blockEntryContext => "block sequence entries are not allowed in this context"
  | keyContext => "mapping keys are not allowed in this context"
  | valueContext => "mapping values are not allowed in this context"
  | directiveName => "found unknown directive name"
  | directiveNameMissing => "could not find expected directive name"
  | directiveNameCharacter => "found unexpected non-alphabetical character"
  | lineEnd => "did not find expected comment or line break"
  | versionSeparator => "did not find expected digit or '.' character"
  | versionNumberMissing => "did not find expected version number"
  | versionNumberLength => "found extremely long version number"
  | space => "did not find expected whitespace"
  | spaceOrLineEnd => "did not find expected whitespace or line break"
  | anchorName => "did not find expected alphabetic or numeric character"
  | tagBang => "did not find expected '!'"
  | tagClose => "did not find the expected '>'"
  | tagText => "did not find expected tag URI"
  | tagEscape => "did not find URI escaped octet"
  | tagLeadingOctet => "found an incorrect leading UTF-8 octet"
  | tagTrailingOctet => "found an incorrect trailing UTF-8 octet"
  | zeroIndentation => "found an indentation indicator equal to 0"
  | tabIndentation => "found a tab character where an indentation space is expected"
  | documentIndicator => "found unexpected document indicator"
  | endOfText => "found unexpected end of stream"
  | escapeLetter => "found unknown escape character"
  | escapeDigits => "did not find expected hexdecimal number"
  | escapeCode => "found invalid Unicode character escape code"
  | plainTab => "found a tab character that violates indentation"
  | plainColon => "found unexpected ':'"
  | documentStart => "did not find expected <document start>"
  | repeatedVersion => "found duplicate %YAML directive"
  | unsupportedVersion => "found incompatible YAML document"
  | repeatedTagHandle => "found duplicate %TAG directive"
  | undefinedTagHandle => "found undefined tag handle"
  | nodeContent => "did not find expected node content"
  | blockEntry => "did not find expected '-' indicator"
  | blockKey => "did not find expected key"
  | flowSequenceEnd => "did not find expected ',' or ']'"
  | flowMappingEnd => "did not find expected ',' or '\x7d'"

/-- A fault of a text. -/
inductive Fault where
  /-- The bytes from `offset` on are no text. -/
  | unreadable (problem : Unreadable) (offset : Nat)
  /-- The text breaks the rules of the format at `mark`; `context` says what was being read and
  where it began. -/
  | malformed (problem : Malformed) (mark : Mark) (context : Option (Activity × Mark))
  /-- The alias at `mark` names no anchor before it. -/
  | unknownAnchor (mark : Mark)
  deriving DecidableEq

/-- The message of a fault: the problem and its place, then the activity and its place where that
is another one. -/
def Fault.message : Fault → String
  | unreadable problem offset =>
    problem.message ++ if offset = 0 then "" else " at position " ++ toString offset
  | malformed problem mark context =>
    problem.message ++ mark.clause ++
      match context with
      | none => ""
      | some (activity, start) =>
        ", " ++ activity.clause ++
          if start.line = mark.line && start.column = mark.column then "" else start.clause
  | unknownAnchor mark => "unknown anchor" ++ mark.clause

end ProviderAssets.Yaml
