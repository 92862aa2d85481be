import ProviderAssets.Proofs.Json
import ProviderAssets.Proofs.Yaml.Endings

/-!
# The string at the end of a value

Where the text of a value ends in another way than the printer lets it, only the string that comes last
in the value can be read as another one. `Ending.value` is the value that is read then, and
`Ending.value_eq_self_iff` says when it is the value that was written.
-/

namespace ProviderAssets.Yaml

open Json.Value (lastString? lastOfItems? lastOfFields?)

variable {e : Ending} {s : String}

/-- The ending of what stands before others: it is kept, unless there are no others. -/
def Ending.before {α : Type} (e : Ending) : List α → Ending
  | [] => e
  | _ :: _ => .kept

mutual

/-- What a value is read as under an ending. -/
def Ending.value (e : Ending) : Json.Value → Json.Value
  | .string s => .string (e.text s (Printer.style s))
  | .array xs => .array (items e xs)
  | .object fs => .object (fields e fs)
  | v => v

/-- What the items of an array are read as under an ending. -/
def Ending.items (e : Ending) : List Json.Value → List Json.Value
  | [] => []
  | x :: xs => value (e.before xs) x :: items e xs

/-- What the fields of an object are read as under an ending. -/
def Ending.fields (e : Ending) : List (String × Json.Value) → List (String × Json.Value)
  | [] => []
  | (key, v) :: rest => (key, value (e.before rest) v) :: fields e rest

end

/-- What values in documents of their own are read as; the last one ends in the given way. -/
def Ending.stream (e : Ending) : List Json.Value → List Json.Value
  | [] => []
  | [v] => [e.value v]
  | v :: v' :: rest => Ending.line.value v :: Ending.stream e (v' :: rest)

/-- Whether a string survives the ending, if there is one. -/
def EndsIn (e : Ending) (last : Option String) : Prop :=
  ∀ s, last = some s → Printer.style s = .literal → Survives e s.toList

/-- Whether the strings that documents end with survive their ends. -/
def StreamEndsIn (e : Ending) : List Json.Value → Prop
  | [] => True
  | [v] => EndsIn e v.lastString?
  | v :: v' :: rest => EndsIn .line v.lastString? ∧ StreamEndsIn e (v' :: rest)

namespace Ending

/-- A text stays the same exactly if it is no literal block or survives. -/
theorem text_eq_self_iff (e : Ending) (s : String) :
    e.text s (Printer.style s) = s ↔ EndsIn e (some s) := by
  have hends : EndsIn e (some s) ↔ (Printer.style s = .literal → Survives e s.toList) :=
    ⟨fun h => h s rfl, fun h t ht => Option.some.inj ht ▸ h⟩
  rw [hends]
  have hfits := fits_style s
  cases hstyle : Printer.style s with
  | literal =>
    rw [hstyle] at hfits
    rw [text, ← literal_eq_self_iff e hfits.1, imp_iff_right rfl]
    refine ⟨fun h => ?_, fun h => by rw [h, String.ofList_toList]⟩
    conv_rhs => rw [← h, String.toList_ofList]
  | _ => exact iff_of_true rfl fun h => by cases h

/-- The spelling of a text under an ending stands for what is left. -/
theorem readScalar_text (e : Ending) (s : String) :
    readScalar none (e.text s (Printer.style s)) (Printer.style s) =
      .ok (.string (e.text s (Printer.style s))) := by
  have hsame := readScalar_style s
  cases hstyle : Printer.style s with
  | literal => rfl
  | _ => rwa [hstyle] at hsame

/-- A value, items and fields stay the same exactly if the string that comes last survives. -/
theorem eq_self_iff_all :
    (∀ v, ∀ e : Ending, e.value v = v ↔ EndsIn e (lastString? v)) ∧
      (∀ xs, ∀ e : Ending, e.items xs = xs ↔ EndsIn e (lastOfItems? xs)) ∧
      ∀ fs, ∀ e : Ending, e.fields fs = fs ↔ EndsIn e (lastOfFields? fs) := by
  -- All but the last item and the last field are kept, and what is kept survives.
  have hkept (last : Option String) : EndsIn .kept last := fun _ _ _ => trivial
  refine Json.Value.induction ?null ?bool ?number ?string ?array ?object ?noItem ?item ?noField ?field
  case null => exact fun _ => iff_of_true rfl nofun
  case bool => exact fun _ _ => iff_of_true rfl nofun
  case number => exact fun _ _ => iff_of_true rfl nofun
  case string =>
    intro s e
    rw [value, Json.Value.string.injEq, text_eq_self_iff, lastString?]
  case array =>
    intro xs ih e
    rw [value, Json.Value.array.injEq, ih, lastString?]
  case object =>
    intro fs ih e
    rw [value, Json.Value.object.injEq, ih, lastString?]
  case noItem => exact fun _ => iff_of_true rfl nofun
  case noField => exact fun _ => iff_of_true rfl nofun
  case item =>
    intro x xs hx hxs e
    rw [items, List.cons.injEq, hx, hxs, lastOfItems?]
    cases xs with
    | nil => exact and_iff_left nofun
    | cons y ys => exact and_iff_right (hkept _)
  case field =>
    intro key v fs hv hfs e
    rw [fields, List.cons.injEq, Prod.mk.injEq, hv, hfs, lastOfFields?]
    cases fs with
    | nil => simpa [before] using fun _ => nofun
    | cons f fs => simpa [before] using fun _ => hkept _

/-- A value stays the same exactly if the string that it ends with survives. -/
theorem value_eq_self_iff (e : Ending) (v : Json.Value) : e.value v = v ↔ EndsIn e (lastString? v) :=
  eq_self_iff_all.1 v e

/-- Nothing changes where the end is kept. -/
theorem value_kept (v : Json.Value) : Ending.kept.value v = v :=
  (value_eq_self_iff .kept v).2 fun _ _ _ => trivial

/-- Documents stay the same exactly if the strings that they end with survive. -/
theorem stream_eq_self_iff (e : Ending) (vs : List Json.Value) : e.stream vs = vs ↔ StreamEndsIn e vs := by
  induction vs with
  | nil => exact iff_of_true rfl trivial
  | cons v vs ih =>
    cases vs with
    | nil => rw [stream, StreamEndsIn, ← value_eq_self_iff, List.cons.injEq, and_iff_left rfl]
    | cons v' vs => rw [stream, StreamEndsIn, List.cons.injEq, ih, value_eq_self_iff]

/-- Every document is read under an ending. -/
theorem forall₂_stream (e : Ending) (vs : List Json.Value) :
    List.Forall₂ (fun v w => ∃ e' : Ending, w = e'.value v) vs (e.stream vs) := by
  induction vs with
  | nil => exact .nil
  | cons v vs ih =>
    cases vs with
    | nil => exact .cons ⟨e, rfl⟩ .nil
    | cons v' vs => exact .cons ⟨.line, rfl⟩ ih

/-- The keys stay the same. -/
theorem keys_fields (e : Ending) (fs : List (String × Json.Value)) :
    Fields.keys (e.fields fs) = Fields.keys fs := by
  induction fs with
  | nil => rfl
  | cons f fs ih => exact congrArg (f.1 :: ·) ih

/-- The value at a key is that under the ending, or stays the same. -/
theorem get?_fields (e : Ending) (fs : List (String × Json.Value)) (key : String) :
    Fields.get? (e.fields fs) key = (Fields.get? fs key).map e.value ∨
      Fields.get? (e.fields fs) key = Fields.get? fs key := by
  induction fs with
  | nil => exact .inr rfl
  | cons f fs ih =>
    obtain ⟨other, v⟩ := f
    rw [fields, Fields.get?_cons, Fields.get?_cons]
    split
    · cases fs with
      | nil => exact .inl rfl
      | cons g gs => exact .inr (congrArg some (value_kept v))
    · exact ih

/-- What is read under an ending is as regular as what was written. -/
theorem isRegular_all {p : Json.Number → Prop} :
    (∀ v, ∀ (e : Ending) depth, Json.Value.IsRegular p depth v → (e.value v).IsRegular p depth) ∧
      (∀ xs, ∀ (e : Ending) depth, Json.Value.RegularItems p depth xs →
        Json.Value.RegularItems p depth (e.items xs)) ∧
      ∀ fs, ∀ (e : Ending) depth, Json.Value.RegularFields p depth fs →
        Json.Value.RegularFields p depth (e.fields fs) := by
  refine Json.Value.induction ?null ?bool ?number ?string ?array ?object (fun _ _ _ => trivial) ?item
    (fun _ _ _ => trivial) ?field
  case null => exact fun _ _ h => h
  case bool => exact fun _ _ _ h => h
  case number => exact fun _ _ _ h => h
  case string => rintro s e (_ | _) - <;> trivial
  case array =>
    intro xs ih e depth h
    obtain ⟨k, rfl, h⟩ := Json.Value.isRegular_array.1 h
    exact ih e k h
  case object =>
    intro fs ih e depth h
    obtain ⟨k, rfl, hkeys, h⟩ := Json.Value.isRegular_object.1 h
    exact ⟨(e.keys_fields fs).symm ▸ hkeys, ih e k h⟩
  case item => exact fun x xs hx hxs e depth h => ⟨hx _ depth h.1, hxs e depth h.2⟩
  case field => exact fun key v fs hv hfs e depth h => ⟨hv _ depth h.1, hfs e depth h.2⟩

end Ending

end ProviderAssets.Yaml
