import ProviderAssets.Fields
import ProviderAssets.Number.Binary64

/-!
# Values of the JSON data model

Objects keep the order of their fields. Equality of values is decidable; `sameAs` compares them as
data, where the order of fields does not count.
-/

namespace ProviderAssets.Json

/-- A number: an integer, or a finite double. -/
inductive Number where
  | integer (n : Int)
  | float (x : Binary64)
  deriving DecidableEq, Inhabited

/-- A value. -/
inductive Value where
  | null
  | bool (b : Bool)
  | number (n : Number)
  | string (s : String)
  | array (items : List Value)
  | object (fields : List (String × Value))
  deriving Inhabited

/-- The fields of an object. -/
abbrev Object := Fields Value

namespace Value

mutual

/-- Decides equality of values. -/
def decEq : (a b : Value) → Decidable (a = b)
  | null, null => isTrue rfl
  | bool a, bool b =>
    if h : a = b then isTrue (by rw [h]) else isFalse (fun e => h (by injection e))
  | number a, number b =>
    if h : a = b then isTrue (by rw [h]) else isFalse (fun e => h (by injection e))
  | string a, string b =>
    if h : a = b then isTrue (by rw [h]) else isFalse (fun e => h (by injection e))
  | array a, array b =>
    match decEqItems a b with
    | isTrue h => isTrue (by rw [h])
    | isFalse h => isFalse (fun e => h (by injection e))
  | object a, object b =>
    match decEqFields a b with
    | isTrue h => isTrue (by rw [h])
    | isFalse h => isFalse (fun e => h (by injection e))
  | null, bool _ | null, number _ | null, string _ | null, array _ | null, object _
  | bool _, null | bool _, number _ | bool _, string _ | bool _, array _ | bool _, object _
  | number _, null | number _, bool _ | number _, string _ | number _, array _ | number _, object _
  | string _, null | string _, bool _ | string _, number _ | string _, array _ | string _, object _
  | array _, null | array _, bool _ | array _, number _ | array _, string _ | array _, object _
  | object _, null | object _, bool _ | object _, number _ | object _, string _
  | object _, array _ => isFalse (fun e => by injection e)

/-- Decides equality of the items of arrays. -/
def decEqItems : (a b : List Value) → Decidable (a = b)
  | [], [] => isTrue rfl
  | x :: xs, y :: ys =>
    match decEq x y, decEqItems xs ys with
    | isTrue h, isTrue t => isTrue (by rw [h, t])
    | isFalse h, _ => isFalse (fun e => h (by injection e))
    | _, isFalse t => isFalse (fun e => t (by injection e))
  | [], _ :: _ | _ :: _, [] => isFalse (fun e => by injection e)

/-- Decides equality of the fields of objects. -/
def decEqFields : (a b : List (String × Value)) → Decidable (a = b)
  | [], [] => isTrue rfl
  | (k, x) :: xs, (l, y) :: ys =>
    if hk : k = l then
      match decEq x y, decEqFields xs ys with
      | isTrue h, isTrue t => isTrue (by rw [hk, h, t])
      | isFalse h, _ => isFalse (fun e => h (by injection e with e; injection e))
      | _, isFalse t => isFalse (fun e => t (by injection e))
    else isFalse (fun e => hk (by injection e with e; injection e))
  | [], _ :: _ | _ :: _, [] => isFalse (fun e => by injection e)

end

instance : DecidableEq Value := decEq

/-- The text of a string. -/
def string? : Value → Option String
  | string s => some s
  | _ => none

/-- The fields of an object. -/
def object? : Value → Option Object
  | object fields => some fields
  | _ => none

mutual

/-- Whether two values are the same data. -/
def sameAs : Value → Value → Bool
  | array a, array b => sameItems a b
  | object a, object b => a.length = b.length && sameFields a b
  | a, b => a = b

/-- Whether two arrays hold the same data. -/
def sameItems : List Value → List Value → Bool
  | [], [] => true
  | x :: xs, y :: ys => sameAs x y && sameItems xs ys
  | _, _ => false

/-- Whether every field of the first object is in the second one, with the same data. -/
def sameFields : List (String × Value) → List (String × Value) → Bool
  | [], _ => true
  | (k, x) :: xs, b =>
    (match b.lookup k with
    | some y => sameAs x y
    | none => false) && sameFields xs b

end

end Value

end ProviderAssets.Json
