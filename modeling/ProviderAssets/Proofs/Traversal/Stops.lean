import Mathlib.Data.List.Basic
import ProviderAssets.FieldPath

/-!
# Where a path comes to a stop

Whoever follows a path from the fields of an object comes to the values at its end, and to some values
that cannot be passed. `FieldPath.Meets` says which these are, rule by rule. Each one has an address:
the indices of the items that are taken on the way there. `FieldPath.stops` lists them all and nothing
else (`FieldPath.mem_stops_iff`), each one once and in the order of the document, which is that of the
addresses (`FieldPath.pairwise_stops`).
-/

namespace ProviderAssets

open Json (Object Value)

/-- Where a path comes to a stop. -/
inductive Stop (α : Type) where
  /-- At a value of the type that is asked for. -/
  | value (a : α)
  /-- At something else than what is expected in the field, or as an item of what is in the field. -/
  | fault (expected field : String)

/-- The stop at the end of a path, at a value that is in the field `name` or one of the items there. -/
def Target.stop {α : Type} (t : Target α) (name : String) (v : Value) : Stop α :=
  match t.ofValue? v with
  | some a => .value a
  | none => .fault t.description name

/-- Such a stop is a value exactly where there is one of the type. -/
theorem Target.stop_eq_value_iff {α : Type} {t : Target α} {name : String} {v : Value} {a : α} :
    t.stop name v = .value a ↔ t.ofValue? v = some a := by
  unfold stop
  cases t.ofValue? v with
  | none => simp
  | some b => simp

namespace FieldPath

variable {α : Type}

/-! ## The rules -/

/-- From the fields of an object, the path comes to a stop at an address. -/
inductive Meets (t : Target α) : FieldPath → Object → List Nat → Stop α → Prop where
  /-- At the end is the value of a field. -/
  | field {name : String} {o : Object} {v : Value} (found : Fields.get? o name = some v) :
    Meets t [.field name] o [] (t.stop name v)
  /-- A plain segment leads on from the object in its field. -/
  | inField {name : String} {rest : FieldPath} {o inner : Object} {is : List Nat} {s : Stop α}
    (found : Fields.get? o name = some (.object inner)) (further : Meets t rest inner is s) :
    Meets t (.field name :: rest) o is s
  /-- It does not lead on from anything else that is in the field, unless that is null. -/
  | noObject {name : String} {rest : FieldPath} {o : Object} {v : Value}
    (found : Fields.get? o name = some v) (goesOn : rest ≠ []) (hnull : v ≠ .null)
    (hv : v.object? = none) : Meets t (.field name :: rest) o [] (.fault "an object" name)
  /-- At the end is every item of the array in a field. -/
  | item {name : String} {o : Object} {xs : List Value} {i : Nat} {x : Value}
    (found : Fields.get? o name = some (.array xs)) (hx : xs[i]? = some x) :
    Meets t [.items name] o [i] (t.stop name x)
  /-- A segment for items leads on from every object in the array. -/
  | inItem {name : String} {rest : FieldPath} {o inner : Object} {xs : List Value} {i : Nat}
    {is : List Nat} {s : Stop α} (found : Fields.get? o name = some (.array xs))
    (hx : xs[i]? = some (.object inner)) (further : Meets t rest inner is s) :
    Meets t (.items name :: rest) o (i :: is) s
  /-- It does not lead on from any other item. -/
  | noObjects {name : String} {rest : FieldPath} {o : Object} {xs : List Value} {i : Nat} {x : Value}
    (found : Fields.get? o name = some (.array xs)) (hx : xs[i]? = some x) (goesOn : rest ≠ [])
    (hv : x.object? = none) : Meets t (.items name :: rest) o [i] (.fault "a sequence of objects" name)
  /-- There are no items in anything else that is in the field, unless that is null. -/
  | noSequence {name : String} {rest : FieldPath} {o : Object} {v : Value}
    (found : Fields.get? o name = some v) (hnull : v ≠ .null) (hv : ∀ xs, v ≠ .array xs) :
    Meets t (.items name :: rest) o [] (.fault "a sequence" name)

/-- From the value that the last segment has led to, which the field `name` is about, the rest of the
path comes to a stop: right there, or from the fields of the object that it is. -/
def MeetsAt (t : Target α) (expected name : String) (rest : FieldPath) (v : Value) (is : List Nat)
    (s : Stop α) : Prop :=
  rest = [] ∧ is = [] ∧ s = t.stop name v ∨
    rest ≠ [] ∧ v.object? = none ∧ is = [] ∧ s = .fault expected name ∨
    ∃ inner, v = .object inner ∧ Meets t rest inner is s

variable {t : Target α} {name expected : String} {path rest : FieldPath} {o : Object} {v : Value}
  {xs : List Value} {is : List Nat} {s : Stop α}

/-- The empty path leads nowhere. -/
theorem Meets.ne_nil (h : Meets t path o is s) : path ≠ [] := by
  cases h <;> exact List.cons_ne_nil _ _

/-- A plain segment leads to the value in its field, unless there is further to go and it is null. -/
theorem meets_field_iff : Meets t (.field name :: rest) o is s ↔
    ∃ v, Fields.get? o name = some v ∧ ¬ (rest ≠ [] ∧ v = .null) ∧
      MeetsAt t "an object" name rest v is s := by
  constructor
  · intro h
    cases h with
    | field found => exact ⟨_, found, fun h => h.1 rfl, .inl ⟨rfl, rfl, rfl⟩⟩
    | inField found further =>
      exact ⟨_, found, fun h => Value.noConfusion h.2, .inr (.inr ⟨_, rfl, further⟩)⟩
    | noObject found goesOn hnull hv =>
      exact ⟨_, found, fun h => hnull h.2, .inr (.inl ⟨goesOn, hv, rfl, rfl⟩)⟩
  · rintro ⟨v, found, hnull, ⟨rfl, rfl, rfl⟩ | ⟨goesOn, hv, rfl, rfl⟩ | ⟨inner, rfl, further⟩⟩
    · exact .field found
    · exact .noObject found goesOn (fun h => hnull ⟨goesOn, h⟩) hv
    · exact .inField found further

/-- A segment for items leads to every item of an array. -/
theorem meets_items_iff (found : Fields.get? o name = some (.array xs)) :
    Meets t (.items name :: rest) o is s ↔
      ∃ i js x, is = i :: js ∧ xs[i]? = some x ∧
        MeetsAt t "a sequence of objects" name rest x js s := by
  constructor
  · intro h
    -- What is found in the field is the array, whatever rule it is by.
    cases h with
    | item found' hx =>
      cases found.symm.trans found'
      exact ⟨_, _, _, rfl, hx, .inl ⟨rfl, rfl, rfl⟩⟩
    | inItem found' hx further =>
      cases found.symm.trans found'
      exact ⟨_, _, _, rfl, hx, .inr (.inr ⟨_, rfl, further⟩)⟩
    | noObjects found' hx goesOn hv =>
      cases found.symm.trans found'
      exact ⟨_, _, _, rfl, hx, .inr (.inl ⟨goesOn, hv, rfl, rfl⟩)⟩
    | noSequence found' hnull hv => exact absurd (Option.some.inj (found'.symm.trans found)) (hv xs)
  · rintro ⟨i, js, x, rfl, hx, ⟨rfl, rfl, rfl⟩ | ⟨goesOn, hv, rfl, rfl⟩ | ⟨inner, rfl, further⟩⟩
    · exact .item found hx
    · exact .noObjects found hx goesOn hv
    · exact .inItem found hx further

/-- It comes to a stop at what is not an array. -/
theorem meets_items_iff_of_not_array (hv : ∀ xs, Fields.get? o name ≠ some (.array xs)) :
    Meets t (.items name :: rest) o is s ↔
      ∃ v, Fields.get? o name = some v ∧ v ≠ .null ∧ is = [] ∧ s = .fault "a sequence" name := by
  constructor
  · intro h
    cases h with
    | item found => exact absurd found (hv _)
    | inItem found => exact absurd found (hv _)
    | noObjects found => exact absurd found (hv _)
    | noSequence found hnull => exact ⟨_, found, hnull, rfl, rfl⟩
  · rintro ⟨v, found, hnull, rfl, rfl⟩
    exact .noSequence found hnull fun xs h => hv xs (h ▸ found)

/-! ## The list -/

/-- What is done with the value that a segment has led to: `last` at the end of the path, `further`
with the object from which the rest of it leads on, and `blocked` if the value is no object. -/
def onward {β : Type} (rest : FieldPath) (v : Value) (last : β) (further : Object → β)
    (blocked : β) : β :=
  if rest = [] then last
  else
    match v with
    | .object inner => further inner
    | _ => blocked

/-- Whatever holds in each of the three cases holds. -/
theorem onward_cases {β : Type} {P : β → Prop} {last blocked : β} {further : Object → β}
    (hlast : rest = [] → P last)
    (hfurther : ∀ inner, rest ≠ [] → v = .object inner → P (further inner))
    (hblocked : rest ≠ [] → v.object? = none → P blocked) : P (onward rest v last further blocked) := by
  unfold onward
  split
  · case isTrue hrest => exact hlast hrest
  · case isFalse hrest =>
    cases v with
    | object inner => exact hfurther inner hrest rfl
    | _ => exact hblocked hrest rfl

/-- At the end of the path is the value. -/
theorem onward_nil {β : Type} (v : Value) (last blocked : β) (further : Object → β) :
    onward [] v last further blocked = last :=
  if_pos rfl

/-- The rest of a path leads on from an object. -/
theorem onward_object {β : Type} (hrest : rest ≠ []) (inner : Object) (last blocked : β)
    (further : Object → β) : onward rest (.object inner) last further blocked = further inner :=
  if_neg hrest

/-- It does not lead on from anything else. -/
theorem onward_blocked {β : Type} (hrest : rest ≠ []) (hv : v.object? = none) (last blocked : β)
    (further : Object → β) : onward rest v last further blocked = blocked := by
  refine (if_neg hrest).trans ?_
  cases v with
  | object inner => cases hv
  | _ => rfl

/-- What is listed for each item of an array, at an address that starts with its index. The first item
has the index `k`. -/
def ofItems (f : Value → List (List Nat × Stop α)) (k : Nat) (xs : List Value) :
    List (List Nat × Stop α) :=
  (xs.zipIdx k).flatMap fun (x, i) => (f x).map (Prod.map (i :: ·) id)

/-- Where a path comes to a stop from the fields of an object, in the order of the document. -/
def stops (t : Target α) : FieldPath → Object → List (List Nat × Stop α)
  | [], _ => []
  | .field name :: rest, o =>
    match Fields.get? o name with
    | none => []
    | some v =>
      if rest ≠ [] ∧ v = .null then []
      else onward rest v [([], t.stop name v)] (stops t rest) [([], .fault "an object" name)]
  | .items name :: rest, o =>
    match Fields.get? o name with
    | none | some .null => []
    | some (.array xs) => ofItems (fun x => onward rest x [([], t.stop name x)] (stops t rest)
        [([], .fault "a sequence of objects" name)]) 0 xs
    | some _ => [([], .fault "a sequence" name)]

/-- From a value on, what is listed is what the rules say, if it is so for the objects from which the
rest of the path leads on. -/
theorem mem_onward_iff {further : Object → List (List Nat × Stop α)}
    (ih : ∀ inner, (is, s) ∈ further inner ↔ Meets t rest inner is s) :
    (is, s) ∈ onward rest v [([], t.stop name v)] further [([], .fault expected name)] ↔
      MeetsAt t expected name rest v is s := by
  unfold MeetsAt
  refine onward_cases (P := fun list => (is, s) ∈ list ↔ _) (fun hrest => ?_)
    (fun inner hrest hv => ?_) (fun hrest hv => ?_)
  · have hno (inner : Object) : ¬ Meets t [] inner is s := fun h => h.ne_nil rfl
    simp [hrest, hno]
  · rw [ih]
    simp [hrest, hv, Value.object?]
  · have hno (inner : Object) : v ≠ .object inner := by
      rintro rfl
      cases hv
    simp [hrest, hv, hno]

/-- What is listed for the items of an array. -/
theorem mem_ofItems_iff {f : Value → List (List Nat × Stop α)} :
    (is, s) ∈ ofItems f 0 xs ↔ ∃ i js x, is = i :: js ∧ xs[i]? = some x ∧ (js, s) ∈ f x := by
  unfold ofItems
  rw [List.mem_flatMap]
  constructor
  · rintro ⟨⟨x, i⟩, hx, hmem⟩
    obtain ⟨⟨js, s'⟩, hjs, heq⟩ := List.mem_map.1 hmem
    cases heq
    exact ⟨i, js, x, rfl, List.mem_zipIdx_iff_getElem?.1 hx, hjs⟩
  · rintro ⟨i, js, x, rfl, hx, hmem⟩
    exact ⟨(x, i), List.mem_zipIdx_iff_getElem?.2 hx, List.mem_map.2 ⟨(js, s), hmem, rfl⟩⟩

/-- The list has exactly what the rules say. -/
theorem mem_stops_iff : (is, s) ∈ stops t path o ↔ Meets t path o is s := by
  induction path generalizing o is s with
  | nil => exact iff_of_false List.not_mem_nil fun h => h.ne_nil rfl
  | cons seg rest ih =>
    have hat (expected name : String) (v : Value) (is : List Nat) :
        (is, s) ∈ onward rest v [([], t.stop name v)] (stops t rest) [([], .fault expected name)] ↔
          MeetsAt t expected name rest v is s := mem_onward_iff fun inner => ih
    cases seg with
    | field name =>
      rw [meets_field_iff]
      unfold stops
      cases Fields.get? o name with
      | none => simp
      | some v =>
        by_cases hnull : rest ≠ [] ∧ v = .null
        · simp [hnull]
        · simp only [if_neg hnull, hat, Option.some.injEq, exists_eq_left', and_iff_right hnull]
    | items name =>
      unfold stops
      split
      · case h_1 hnone =>
        rw [meets_items_iff_of_not_array (by simp [hnone])]
        simp [hnone]
      · case h_2 hnull =>
        rw [meets_items_iff_of_not_array (by simp [hnull])]
        simp [hnull]
      · case h_3 xs found =>
        rw [meets_items_iff found, mem_ofItems_iff]
        simp only [hat]
      · case h_4 v hnull harray found =>
        have hnull : v ≠ .null := hnull
        rw [meets_items_iff_of_not_array (by simpa [found] using harray)]
        simp [found, hnull]

/-- What is listed for the items of an array is in order if it is for each item. -/
theorem pairwise_ofItems {f : Value → List (List Nat × Stop α)}
    (hf : ∀ x, (f x).Pairwise fun a b => a.1 < b.1) :
    (ofItems f 0 xs).Pairwise fun a b => a.1 < b.1 := by
  have hindices : (xs.zipIdx.map Prod.snd).Pairwise (· < ·) := by
    rw [List.zipIdx_map_snd]
    exact List.pairwise_lt_range' 1
  refine List.pairwise_flatMap.2 ⟨fun (x, i) _ => ?_, ?_⟩
  · refine List.pairwise_map.2 ((hf x).imp fun {a b} hab => ?_)
    exact List.cons_lt_cons_self.2 hab
  · -- The first index decides between the stops at different items.
    refine (List.pairwise_map.1 hindices).imp fun {a b} hlt => ?_
    rintro c hc d hd
    obtain ⟨c, -, rfl⟩ := List.mem_map.1 hc
    obtain ⟨d, -, rfl⟩ := List.mem_map.1 hd
    exact List.cons_lt_cons_iff.2 (.inl hlt)

/-- The stops are in the order of their addresses, which are distinct. -/
theorem pairwise_stops : (stops t path o).Pairwise fun a b => a.1 < b.1 := by
  induction path generalizing o with
  | nil => exact .nil
  | cons seg rest ih =>
    have hat (expected name : String) (v : Value) :
        (onward rest v [([], t.stop name v)] (stops t rest) [([], .fault expected name)]).Pairwise
          fun a b => a.1 < b.1 := by
      refine onward_cases (fun _ => ?_) (fun inner _ _ => ih) (fun _ _ => ?_)
      · exact List.pairwise_singleton _ _
      · exact List.pairwise_singleton _ _
    cases seg with
    | field name =>
      unfold stops
      split
      · exact .nil
      · split
        · exact .nil
        · exact hat ..
    | items name =>
      unfold stops
      split
      · exact .nil
      · exact .nil
      · exact pairwise_ofItems fun x => hat _ _ x
      · exact List.pairwise_singleton _ _

end FieldPath

end ProviderAssets
