/-!
# Patterns

A pattern describes texts. `Pattern.isFoundIn` says whether a part of a text fits a pattern; it
follows the sets of positions at which a match may have arrived, so that the number of ways to match
does not matter.
-/

namespace ProviderAssets

/-- A set of characters. -/
abbrev CharSet := Char → Bool

/-- A condition on the characters before and after a position, where there are any. -/
abbrev Boundary := Option Char → Option Char → Bool

/-- A pattern. -/
inductive Pattern where
  /-- The empty text. -/
  | empty
  /-- A character of a set. -/
  | one (set : CharSet)
  /-- The empty text, at a position where a condition holds. -/
  | look (holds : Boundary)
  /-- One text after the other. -/
  | seq (first second : Pattern)
  /-- A text of one of two patterns. -/
  | either (left right : Pattern)
  /-- At least `least` texts one after the other, and at most `most` if that is given. -/
  | repeated (p : Pattern) (least : Nat) (most : Option Nat)

namespace Pattern

/-- The character at a position. -/
def charAt (text : Array Char) (i : Nat) : Option Char := text[i]?

/-- The character before a position. -/
def charBefore (text : Array Char) : Nat → Option Char
  | 0 => none
  | i + 1 => text[i]?

/-- Adds positions to a list of positions. -/
def addTo (old new : List Nat) : List Nat := old ++ new.eraseDups.filter (· ∉ old)

/-- Goes `n` steps on. -/
def after (step : List Nat → List Nat) : Nat → List Nat → List Nat
  | 0, start => start
  | n + 1, start => if start.isEmpty then [] else after step n (step start)

/-- Goes at most `n` steps on, until no position is new. -/
def within (step : List Nat → List Nat) : Nat → List Nat → List Nat
  | 0, start => start
  | n + 1, start =>
    let reached := addTo start (step start)
    if reached.length = start.length then start else within step n reached

/-- The positions at which a match can end that begins at one of the given positions. -/
def ends (text : Array Char) : Pattern → List Nat → List Nat
  | empty, start => start
  | one set, start => (start.filter fun i => (charAt text i).any set).map (· + 1)
  | look holds, start => start.filter fun i => holds (charBefore text i) (charAt text i)
  | seq first second, start => ends text second (ends text first start)
  | either left right, start => addTo (ends text left start) (ends text right start)
  | repeated p least most, start =>
    let reached := after (ends text p) least start
    match most with
    | some most => within (ends text p) (most - least) reached
    | none => within (ends text p) (text.size + 1) reached

/-- Whether a part of the text fits the pattern. -/
def isFoundIn (p : Pattern) (s : String) : Bool :=
  let text := s.toList.toArray
  !(ends text p (List.range (text.size + 1))).isEmpty

/-- The number of sets and conditions that the pattern has when its repetitions are written out. -/
def size : Pattern → Nat
  | empty => 0
  | one _ | look _ => 1
  | seq first second => first.size + second.size
  | either left right => left.size + right.size
  | repeated p least most => p.size * (most.getD (least + 1))

end Pattern

end ProviderAssets
