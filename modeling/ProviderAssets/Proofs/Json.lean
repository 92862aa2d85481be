import ProviderAssets.Json.Value
import ProviderAssets.Proofs.Fields

/-!
# Values as trees

Induction over values together with their items and fields, and what is found at the leaves of a
value: its numbers, and the string that comes last in it.
-/

namespace ProviderAssets.Json.Value

/-- Induction over values, over the items of arrays and over the fields of objects at once. -/
theorem induction {P : Value → Prop} {Q : List Value → Prop} {R : List (String × Value) → Prop}
    (null : P .null) (bool : ∀ b, P (.bool b)) (number : ∀ n, P (.number n))
    (string : ∀ s, P (.string s)) (array : ∀ xs, Q xs → P (.array xs))
    (object : ∀ fs, R fs → P (.object fs)) (noItem : Q [])
    (item : ∀ x xs, P x → Q xs → Q (x :: xs)) (noField : R [])
    (field : ∀ key v fs, P v → R fs → R ((key, v) :: fs)) :
    (∀ v, P v) ∧ (∀ xs, Q xs) ∧ ∀ fs, R fs := by
  have hvalue (v : Value) : P v :=
    Value.rec (motive_1 := P) (motive_2 := Q) (motive_3 := R) (motive_4 := fun f => P f.2)
      null bool number string array object noItem item noField
      (fun f fs hv hfs => field f.1 f.2 fs hv hfs) (fun _ _ h => h) v
  refine ⟨hvalue, fun xs => ?_, fun fs => ?_⟩
  · induction xs with
    | nil => exact noItem
    | cons x xs ih => exact item x xs (hvalue x) ih
  · induction fs with
    | nil => exact noField
    | cons f fs ih => exact field f.1 f.2 fs (hvalue f.2) ih

mutual

/-- The string that a value ends with, if it does. -/
def lastString? : Value → Option String
  | string s => some s
  | array xs => lastOfItems? xs
  | object fs => lastOfFields? fs
  | _ => none

/-- The string that the last of some items ends with, if it does. -/
def lastOfItems? : List Value → Option String
  | [] => none
  | x :: xs => if xs.isEmpty then lastString? x else lastOfItems? xs

/-- The string that the last of some fields ends with, if it does. -/
def lastOfFields? : List (String × Value) → Option String
  | [] => none
  | (_, v) :: fs => if fs.isEmpty then lastString? v else lastOfFields? fs

end

mutual

/-- Whether a property holds of all numbers in a value. -/
def AllNumbers (p : Number → Prop) : Value → Prop
  | number n => p n
  | array xs => AllNumbersOfItems p xs
  | object fs => AllNumbersOfFields p fs
  | _ => True

/-- Whether a property holds of all numbers in some items. -/
def AllNumbersOfItems (p : Number → Prop) : List Value → Prop
  | [] => True
  | x :: xs => AllNumbers p x ∧ AllNumbersOfItems p xs

/-- Whether a property holds of all numbers in some fields. -/
def AllNumbersOfFields (p : Number → Prop) : List (String × Value) → Prop
  | [] => True
  | (_, v) :: fs => AllNumbers p v ∧ AllNumbersOfFields p fs

end

mutual

/-- Whether a value nests at most `depth` arrays and objects, the keys of each object are distinct,
and a property holds of all numbers. -/
def IsRegular (p : Number → Prop) : Nat → Value → Prop
  | _, number n => p n
  | depth + 1, array xs => RegularItems p depth xs
  | depth + 1, object fs => (Fields.keys fs).Nodup ∧ RegularFields p depth fs
  | 0, array _ | 0, object _ => False
  | _, _ => True

/-- Whether items are regular. -/
def RegularItems (p : Number → Prop) : Nat → List Value → Prop
  | _, [] => True
  | depth, x :: xs => IsRegular p depth x ∧ RegularItems p depth xs

/-- Whether the values of fields are regular. -/
def RegularFields (p : Number → Prop) : Nat → List (String × Value) → Prop
  | _, [] => True
  | depth, (_, v) :: fs => IsRegular p depth v ∧ RegularFields p depth fs

end

variable {p q r : Number → Prop} {depth : Nat}

/-- Null is regular. -/
theorem isRegular_null : IsRegular p depth null := by
  cases depth <;> trivial

/-- A boolean is regular. -/
theorem isRegular_bool (b : Bool) : IsRegular p depth (.bool b) := by
  cases depth <;> trivial

/-- A string is regular. -/
theorem isRegular_string (s : String) : IsRegular p depth (.string s) := by
  cases depth <;> trivial

/-- A number is regular if the property holds of it. -/
theorem isRegular_number {n : Number} : IsRegular p depth (.number n) ↔ p n := by
  cases depth <;> exact Iff.rfl

/-- An array is regular if its items are, one level further in. -/
theorem isRegular_array {xs : List Value} :
    IsRegular p depth (.array xs) ↔ ∃ k, depth = k + 1 ∧ RegularItems p k xs := by
  cases depth with
  | zero => exact ⟨False.elim, fun ⟨k, hk, _⟩ => absurd hk (by omega)⟩
  | succ k => exact ⟨fun h => ⟨k, rfl, h⟩, fun ⟨_, hk, h⟩ => Nat.succ.inj hk ▸ h⟩

/-- An object is regular if its keys are distinct and its values are regular, one level further in. -/
theorem isRegular_object {fs : List (String × Value)} :
    IsRegular p depth (.object fs) ↔
      ∃ k, depth = k + 1 ∧ (Fields.keys fs).Nodup ∧ RegularFields p k fs := by
  cases depth with
  | zero => exact ⟨False.elim, fun ⟨k, hk, _⟩ => absurd hk (by omega)⟩
  | succ k => exact ⟨fun h => ⟨k, rfl, h⟩, fun ⟨_, hk, h⟩ => Nat.succ.inj hk ▸ h⟩

/-- What holds of all numbers may be used to show that another property does. -/
theorem IsRegular.of_allNumbers (hpq : ∀ n, p n → q n → r n) :
    (∀ v : Value, ∀ depth, IsRegular p depth v → v.AllNumbers q → IsRegular r depth v) ∧
      (∀ xs, ∀ depth, RegularItems p depth xs → AllNumbersOfItems q xs → RegularItems r depth xs) ∧
      ∀ fs, ∀ depth, RegularFields p depth fs → AllNumbersOfFields q fs → RegularFields r depth fs := by
  -- Depths and keys are the same for both properties; only numbers matter.
  refine induction ?null ?bool ?number ?string ?array ?object (fun _ _ _ => trivial) ?item
    (fun _ _ _ => trivial) ?field
  case null => exact fun _ _ _ => isRegular_null
  case bool => exact fun b _ _ _ => isRegular_bool b
  case string => exact fun s _ _ _ => isRegular_string s
  case number =>
    intro n depth h hq
    exact isRegular_number.2 (hpq n (isRegular_number.1 h) hq)
  case array =>
    intro xs ih depth h hq
    obtain ⟨k, rfl, h⟩ := isRegular_array.1 h
    exact ih k h hq
  case object =>
    intro fs ih depth h hq
    obtain ⟨k, rfl, hkeys, h⟩ := isRegular_object.1 h
    exact ⟨hkeys, ih k h hq⟩
  case item => exact fun x xs hx hxs depth h hq => ⟨hx depth h.1 hq.1, hxs depth h.2 hq.2⟩
  case field => exact fun key v fs hv hfs depth h hq => ⟨hv depth h.1 hq.1, hfs depth h.2 hq.2⟩

/-- Fields stay regular when one is written. -/
theorem RegularFields.insert {f : Object} (h : RegularFields p depth f) (key : String) {v : Value}
    (hv : IsRegular p depth v) : RegularFields p depth (Fields.insert f key v) := by
  induction f with
  | nil => exact ⟨hv, trivial⟩
  | cons e rest ih =>
    obtain ⟨k, w⟩ := e
    by_cases hk : k = key
    · rw [Fields.insert, if_pos hk]
      exact ⟨hv, h.2⟩
    · rw [Fields.insert, if_neg hk]
      exact ⟨h.1, ih h.2⟩

/-- Fields stay regular when one is taken away. -/
theorem RegularFields.erase {f : Object} (h : RegularFields p depth f) (key : String) :
    RegularFields p depth (Fields.erase f key) := by
  induction f with
  | nil => exact trivial
  | cons e rest ih =>
    obtain ⟨k, w⟩ := e
    by_cases hk : k = key
    · rw [show Fields.erase ((k, w) :: rest) key = Fields.erase rest key by simp [Fields.erase, hk]]
      exact ih h.2
    · rw [show Fields.erase ((k, w) :: rest) key = (k, w) :: Fields.erase rest key by
        simp [Fields.erase, hk]]
      exact ⟨h.1, ih h.2⟩

/-- The value of a regular field is regular. -/
theorem RegularFields.get? {f : Object} (h : RegularFields p depth f) {key : String} {v : Value}
    (found : Fields.get? f key = some v) : IsRegular p depth v := by
  induction f with
  | nil => cases found
  | cons e rest ih =>
    obtain ⟨k, w⟩ := e
    rw [Fields.get?_cons] at found
    by_cases hk : key = k
    · rw [if_pos hk] at found
      exact Option.some.inj found ▸ h.1
    · rw [if_neg hk] at found
      exact ih h.2 found

end ProviderAssets.Json.Value
