import ProviderAssets.Proofs.Payload
import ProviderAssets.Proofs.Traversal.Stops

/-!
# The places that a path ends at

`FieldPath.mapEnds` changes the values that a path ends at and nothing else. What is found at an address
afterwards is what is made of the value that was found there (`FieldPath.at?_mapEnds`), and the rest of
the object stays, entry by entry (`FieldPath.differsAt_mapEnds`). Two changes one after the other are one
(`FieldPath.mapEnds_mapEnds`).

`FieldPath.leave` changes only the values at some addresses, where something was left. That it does so
and no more is what `FieldPath.Leaves` says, without recourse to these functions.
-/

namespace ProviderAssets

open Json (Object Value)

/-! ## Changes in one place -/

namespace Fields

variable {α : Type} {f : Fields α} {key : String} {g h : α → α}

/-- The map with another value at a key, if there is one. -/
def modify (f : Fields α) (key : String) (g : α → α) : Fields α :=
  match get? f key with
  | none => f
  | some v => insert f key (g v)

/-- A change where there is a value is a write. -/
theorem modify_of_found {v : α} (found : get? f key = some v) :
    modify f key g = insert f key (g v) := by
  unfold modify
  rw [found]

/-- A change where there is no value is none. -/
theorem modify_of_missing (missing : get? f key = none) : modify f key g = f := by
  unfold modify
  rw [missing]

/-- The value at the key afterwards. -/
theorem get?_modify (f : Fields α) (key : String) (g : α → α) :
    get? (modify f key g) key = (get? f key).map g := by
  cases found : get? f key with
  | none => rw [modify_of_missing found, found, Option.map_none]
  | some v => rw [modify_of_found found, get?_insert, if_pos rfl, Option.map_some]

/-- A change that makes the same of the value that is there is none. -/
theorem modify_eq_self (same : ∀ v, get? f key = some v → g v = v) : modify f key g = f := by
  cases found : get? f key with
  | none => exact modify_of_missing found
  | some v => rw [modify_of_found found, same v found, insert_eq_self found]

/-- Two changes at one key are one. -/
theorem modify_modify (f : Fields α) (key : String) (g h : α → α) :
    modify (modify f key g) key h = modify f key (h ∘ g) := by
  cases found : get? f key with
  | none => rw [modify_of_missing found, modify_of_missing found, modify_of_missing found]
  | some v =>
    have found' : get? (insert f key (g v)) key = some (g v) := by rw [get?_insert, if_pos rfl]
    rw [modify_of_found found, modify_of_found found', modify_of_found found, insert_insert]
    rfl

/-- A map is like the one where a value is changed, if the value is related to the new one. -/
theorem Alike.modify {R : String → α → α → Prop} (hR : ∀ key value, R key value value)
    (hnew : ∀ v, get? f key = some v → R key v (g v)) : Alike R f (modify f key g) := by
  cases found : get? f key with
  | none =>
    rw [modify_of_missing found]
    exact Alike.refl hR f
  | some v =>
    rw [modify_of_found found]
    exact Alike.insert hR found (hnew v found)

end Fields

namespace FieldPath

variable {path rest : FieldPath} {o : Object} {v : Value} {is : List Nat} {i : Nat}
  {f : Nat → Value → Value} {g h : List Nat → Value → Value} {R : Value → Value → Prop}

/-- The array where every item is changed, as its index says. Nothing else has items. -/
def mapItems (f : Nat → Value → Value) : Value → Value
  | .array xs => .array (xs.mapIdx f)
  | v => v

/-- The item at an index afterwards. -/
theorem item?_mapItems (f : Nat → Value → Value) (i : Nat) (v : Value) :
    item? i (mapItems f v) = (item? i v).map (f i) := by
  cases v with
  | array xs => exact List.getElem?_mapIdx
  | _ => rfl

/-- A change that makes the same of every element of a list is none. -/
theorem mapIdx_eq_self {xs : List Value} (same : ∀ i < xs.length, ∀ x, f i x = x) :
    xs.mapIdx f = xs := by
  refine List.ext_getElem? fun i => ?_
  rw [List.getElem?_mapIdx]
  cases hx : xs[i]? with
  | none => rfl
  | some x =>
    obtain ⟨hi, -⟩ := List.getElem?_eq_some_iff.1 hx
    exact congrArg some (same i hi x)

/-- A change that makes the same of every item is none. -/
theorem mapItems_eq_self (same : ∀ i x, f i x = x) (v : Value) : mapItems f v = v := by
  cases v with
  | array xs => exact congrArg Value.array (mapIdx_eq_self fun i _ => same i)
  | _ => rfl

/-! ## Changes at the end of a path -/

/-- How many items are to be taken on the way along a path. -/
def depth : FieldPath → Nat
  | [] => 0
  | .field _ :: rest => depth rest
  | .items _ :: rest => depth rest + 1

/-- The object where every value that a path ends at is changed, as its address says. -/
def mapEnds : FieldPath → (List Nat → Value → Value) → Object → Object
  | [], _, o => o
  | .field name :: rest, g, o => Fields.modify o name fun v =>
      onward rest v (g [] v) (fun inner => .object (mapEnds rest g inner)) v
  | .items name :: rest, g, o => Fields.modify o name <| mapItems fun i x =>
      onward rest x (g [i] x) (fun inner => .object (mapEnds rest (fun is => g (i :: is)) inner)) x

/-- The same of the value that a segment has led to. -/
def mapEndsAt (rest : FieldPath) (g : List Nat → Value → Value) (v : Value) : Value :=
  onward rest v (g [] v) (fun inner => .object (mapEnds rest g inner)) v

/-- A plain segment leads to the value in its field. -/
theorem mapEnds_field (name : String) :
    mapEnds (.field name :: rest) g o = Fields.modify o name (mapEndsAt rest g) :=
  rfl

/-- A segment for items leads to those of the array in its field. -/
theorem mapEnds_items (name : String) : mapEnds (.items name :: rest) g o =
    Fields.modify o name (mapItems fun i => mapEndsAt rest fun is => g (i :: is)) :=
  rfl

/-- A path that goes on leads to nothing from what is no object. -/
theorem at?_of_not_object (hrest : rest ≠ []) (hv : v.object? = none) : at? rest is v = none := by
  cases rest with
  | nil => exact absurd rfl hrest
  | cons seg rest => cases seg <;> cases is <;> simp [at?, hv]

/-- The value at an address after a change is what the change makes of the value there, from a value on
if it is so from the object that the value may be. -/
theorem at?_mapEndsAt (his : is.length = depth rest)
    (ih : rest ≠ [] → ∀ inner,
      at? rest is (.object (mapEnds rest g inner)) = (at? rest is (.object inner)).map (g is))
    (v : Value) : at? rest is (mapEndsAt rest g v) = (at? rest is v).map (g is) := by
  refine onward_cases (P := fun w => at? rest is w = (at? rest is v).map (g is)) (fun hrest => ?_)
    (fun inner hrest hv => ?_) (fun hrest hv => ?_)
  · subst hrest
    obtain rfl := List.length_eq_zero_iff.1 his
    rfl
  · rw [hv]
    exact ih hrest inner
  · rw [at?_of_not_object hrest hv]
    rfl

/-- The value at an address after a change is what the change makes of the value there. -/
theorem at?_mapEnds (hpath : path ≠ []) (his : is.length = depth path) :
    at? path is (.object (mapEnds path g o)) = (at? path is (.object o)).map (g is) := by
  induction path generalizing is g o with
  | nil => exact absurd rfl hpath
  | cons seg rest ih =>
    cases seg with
    | field name =>
      have his : is.length = depth rest := his
      show ((Fields.get? (Fields.modify o name _) name).bind _) = ((Fields.get? o name).bind _).map _
      rw [Fields.get?_modify]
      cases Fields.get? o name with
      | none => rfl
      | some v => exact at?_mapEndsAt his (fun hrest inner => ih hrest his) v
    | items name =>
      cases is with
      | nil => cases his
      | cons i is =>
        have his : is.length = depth rest := Nat.succ.inj his
        show (((Fields.get? (Fields.modify o name _) name).bind (item? i)).bind (at? rest is)) =
          (((Fields.get? o name).bind (item? i)).bind (at? rest is)).map _
        rw [Fields.get?_modify]
        cases Fields.get? o name with
        | none => rfl
        | some v =>
          show ((item? i (mapItems _ v)).bind _) = ((item? i v).bind _).map _
          rw [item?_mapItems]
          cases item? i v with
          | none => rfl
          | some x => exact at?_mapEndsAt his (fun hrest inner => ih hrest his) x

/-- A change that makes the same of every value is none, from a value on. -/
theorem mapEndsAt_eq_self (same : ∀ is x, g is x = x) (ih : ∀ inner, mapEnds rest g inner = inner)
    (v : Value) : mapEndsAt rest g v = v := by
  refine onward_cases (P := (· = v)) (fun _ => same [] v) (fun inner _ hv => ?_) (fun _ _ => rfl)
  rw [ih, hv]

/-- A change that makes the same of every value is none. -/
theorem mapEnds_eq_self (same : ∀ is x, g is x = x) : mapEnds path g o = o := by
  induction path generalizing g o with
  | nil => rfl
  | cons seg rest ih =>
    cases seg with
    | field name =>
      exact Fields.modify_eq_self fun v _ => mapEndsAt_eq_self same (fun inner => ih same) v
    | items name =>
      refine Fields.modify_eq_self fun v _ => mapItems_eq_self (fun i x => ?_) v
      exact mapEndsAt_eq_self (fun is => same (i :: is)) (fun inner => ih fun is => same (i :: is)) x

/-- Two changes one after the other are one, from a value on. -/
theorem mapEndsAt_mapEndsAt
    (ih : ∀ inner,
      mapEnds rest h (mapEnds rest g inner) = mapEnds rest (fun is x => h is (g is x)) inner)
    (v : Value) :
    mapEndsAt rest h (mapEndsAt rest g v) = mapEndsAt rest (fun is x => h is (g is x)) v := by
  unfold mapEndsAt
  by_cases hrest : rest = []
  · subst hrest
    rw [onward_nil, onward_nil, onward_nil]
  · cases hv : v.object? with
    | none =>
      rw [onward_blocked hrest hv, onward_blocked hrest hv, onward_blocked hrest hv]
    | some inner =>
      rw [Value.eq_object hv, onward_object hrest, onward_object hrest, onward_object hrest, ih]

/-- Two changes one after the other are one. -/
theorem mapEnds_mapEnds (path : FieldPath) (g h : List Nat → Value → Value) (o : Object) :
    mapEnds path h (mapEnds path g o) = mapEnds path (fun is x => h is (g is x)) o := by
  induction path generalizing g h o with
  | nil => rfl
  | cons seg rest ih =>
    cases seg with
    | field name =>
      simp only [mapEnds_field, Fields.modify_modify]
      exact congrArg (Fields.modify o name) (funext (mapEndsAt_mapEndsAt (ih g h)))
    | items name =>
      simp only [mapEnds_items, Fields.modify_modify]
      refine congrArg (Fields.modify o name) (funext fun v => ?_)
      cases v with
      | array xs =>
        refine congrArg Value.array (List.mapIdx_mapIdx.trans ?_)
        refine congrArg (List.mapIdx · xs) (funext fun i => funext ?_)
        exact mapEndsAt_mapEndsAt (ih (fun is => g (i :: is)) fun is => h (i :: is))
      | _ => rfl

/-- Nothing differs from itself. -/
theorem DiffersAt.refl (hR : ∀ x, R x x) (path : FieldPath) (v : Value) : DiffersAt R path v v := by
  cases path with
  | nil => exact hR v
  | cons seg rest => exact .inl rfl

/-- A change makes a difference at the end of the path alone, from a value on. -/
theorem differsAt_mapEndsAt (hR : ∀ x, R x x) (hg : ∀ is x, R x (g is x))
    (ih : ∀ inner, DiffersAt R rest (.object inner) (.object (mapEnds rest g inner))) (v : Value) :
    DiffersAt R rest v (mapEndsAt rest g v) := by
  refine onward_cases (fun hrest => ?_) (fun inner _ hv => ?_) (fun _ _ => DiffersAt.refl hR rest v)
  · subst hrest
    exact hg [] v
  · rw [hv]
    exact ih inner

/-- A change makes a difference at the end of the path alone. -/
theorem differsAt_mapEnds (hR : ∀ x, R x x) (hg : ∀ is x, R x (g is x)) :
    DiffersAt R path (.object o) (.object (mapEnds path g o)) := by
  induction path generalizing g o with
  | nil => exact hR _
  | cons seg rest ih =>
    have leave (key : String) (x : Value) :
        x = x ∨ key = seg.name ∧ Beyond (DiffersAt R rest) seg x x := .inl rfl
    refine .inr ⟨o, _, rfl, rfl, ?_⟩
    cases seg with
    | field name =>
      refine Fields.Alike.modify leave fun v _ => .inr ⟨rfl, ?_⟩
      exact differsAt_mapEndsAt hR hg (fun inner => ih hg) v
    | items name =>
      refine Fields.Alike.modify leave fun v _ => ?_
      cases v with
      | array xs =>
        refine .inr ⟨rfl, xs, _, rfl, rfl, ?_⟩
        refine List.forall₂_iff_get.2 ⟨List.length_mapIdx.symm, fun i hi hi' => ?_⟩
        rw [List.get_eq_getElem, List.get_eq_getElem, List.getElem_mapIdx]
        have hg (is : List Nat) (x : Value) : R x (g (i :: is) x) := hg (i :: is) x
        exact differsAt_mapEndsAt hR hg (fun inner => ih hg) xs[i]
      | _ => exact .inl rfl

/-! ## What is left at addresses -/

section

variable {α : Type} {t : Target α} {calls later : List (List Nat × α)} {x : Value} {b : α}

/-- What is left of the value at the address `is`: the last thing that is left there, if there is any. -/
def leftAt (t : Target α) (calls : List (List Nat × α)) (is : List Nat) (x : Value) : Value :=
  calls.foldl (fun x call => if call.1 = is then t.toValue call.2 else x) x

/-- The object where something is left at some addresses. -/
def leave (t : Target α) (path : FieldPath) (calls : List (List Nat × α)) (o : Object) : Object :=
  mapEnds path (leftAt t calls) o

/-- What is left later counts. -/
theorem leftAt_append (is : List Nat) :
    leftAt t (calls ++ later) is = fun x => leftAt t later is (leftAt t calls is x) :=
  funext fun _ => List.foldl_append

/-- Nothing is left where there is nothing to leave. -/
theorem leave_nil : leave t path [] o = o :=
  mapEnds_eq_self fun _ _ => rfl

/-- A value stays where nothing is left. -/
theorem leftAt_of_not_mem (h : is ∉ calls.map (·.1)) : leftAt t calls is x = x := by
  induction calls generalizing x with
  | nil => rfl
  | cons call calls ih =>
    obtain ⟨hfirst, hrest⟩ := List.ne_and_not_mem_of_not_mem_cons h
    show leftAt t calls is (if call.1 = is then _ else x) = x
    rw [if_neg (Ne.symm hfirst)]
    exact ih hrest

/-- Where something is left once, it is there. -/
theorem leftAt_of_mem (hnodup : (calls.map (·.1)).Nodup) (h : (is, b) ∈ calls) :
    leftAt t calls is x = t.toValue b := by
  obtain ⟨before, after, rfl⟩ := List.append_of_mem h
  have hafter : is ∉ after.map (·.1) := by
    rw [List.map_append, List.map_cons] at hnodup
    exact (List.nodup_cons.1 (List.nodup_append.1 hnodup).2.1).1
  calc leftAt t (before ++ (is, b) :: after) is x
    _ = leftAt t after is (if is = is then t.toValue b else leftAt t before is x) :=
      congrFun (leftAt_append is) x
    _ = t.toValue b := by rw [leftAt_of_not_mem hafter, if_pos rfl]

/-- A value stays, or it is replaced by something that is left. -/
theorem leftAt_cases (t : Target α) (calls : List (List Nat × α)) (is : List Nat) (x : Value) :
    leftAt t calls is x = x ∨ ∃ call ∈ calls, leftAt t calls is x = t.toValue call.2 := by
  induction calls generalizing x with
  | nil => exact .inl rfl
  | cons call calls ih =>
    by_cases his : call.1 = is
    · have hfirst : leftAt t (call :: calls) is x = leftAt t calls is (t.toValue call.2) :=
        congrArg (leftAt t calls is) (if_pos his)
      rw [hfirst]
      obtain h | ⟨later, hlater, h⟩ := ih (t.toValue call.2)
      · exact .inr ⟨call, List.mem_cons_self, h⟩
      · exact .inr ⟨later, List.mem_cons_of_mem _ hlater, h⟩
    · have hfirst : leftAt t (call :: calls) is x = leftAt t calls is x :=
        congrArg (leftAt t calls is) (if_neg his)
      rw [hfirst]
      obtain h | ⟨later, hlater, h⟩ := ih x
      · exact .inl h
      · exact .inr ⟨later, List.mem_cons_of_mem _ hlater, h⟩

/-- The object `o'` is `o` with what is left at some addresses along a path. -/
structure Leaves (t : Target α) (path : FieldPath) (calls : List (List Nat × α)) (o o' : Object) :
    Prop where
  /-- Something is left at its address. -/
  replaced : ∀ is b, (is, b) ∈ calls → at? path is (.object o') = some (t.toValue b)
  /-- What is at the other addresses stays. -/
  kept : ∀ is, is.length = depth path → is ∉ calls.map (·.1) →
    at? path is (.object o') = at? path is (.object o)
  /-- All keys are there, in the same order, and all items, and the values at the ends of the path are
  the only ones that may be others. -/
  others : DiffersAt (fun v w => w = v ∨ ∃ call ∈ calls, w = t.toValue call.2) path (.object o)
    (.object o')

/-- A value that the path leads to is found at its address. -/
theorem Meets.at?_eq {s : Stop α} {a : α} (h : Meets t path o is s) (hs : s = .value a) :
    is.length = depth path ∧ ∃ v, at? path is (.object o) = some v ∧ t.ofValue? v = some a := by
  induction h with
  | field found =>
    exact ⟨rfl, _, by simp [at?, Value.object?, found], Target.stop_eq_value_iff.1 hs⟩
  | inField found further ih =>
    obtain ⟨his, v, hv, ha⟩ := ih hs
    exact ⟨his, v, by simp [at?, Value.object?, found, hv], ha⟩
  | item found hx =>
    exact ⟨rfl, _, by simp [at?, Value.object?, item?, found, hx], Target.stop_eq_value_iff.1 hs⟩
  | inItem found hx further ih =>
    obtain ⟨his, v, hv, ha⟩ := ih hs
    exact ⟨congrArg Nat.succ his, v, by simp [at?, Value.object?, item?, found, hx, hv], ha⟩
  | noObject | noObjects | noSequence => cases hs

/-- What is left at distinct addresses that the path leads to is left there and nowhere else. -/
theorem leaves_leave (hnodup : (calls.map (·.1)).Nodup)
    (hmeets : ∀ call ∈ calls, ∃ a, Meets t path o call.1 (.value a)) :
    Leaves t path calls o (leave t path calls o) := by
  refine ⟨fun is b hmem => ?_, fun is his hmem => ?_, ?_⟩
  · obtain ⟨a, ha⟩ := hmeets (is, b) hmem
    obtain ⟨his, v, hv, -⟩ := ha.at?_eq rfl
    calc at? path is (.object (leave t path calls o))
      _ = (at? path is (.object o)).map (leftAt t calls is) := at?_mapEnds ha.ne_nil his
      _ = some (t.toValue b) := by rw [hv, Option.map_some, leftAt_of_mem hnodup hmem]
  · by_cases hpath : path = []
    · subst hpath
      rfl
    · calc at? path is (.object (leave t path calls o))
        _ = (at? path is (.object o)).map (leftAt t calls is) := at?_mapEnds hpath his
        _ = at? path is (.object o) := by
          have hsame : leftAt t calls is = id := funext fun x => leftAt_of_not_mem hmem
          rw [hsame, Option.map_id]
          rfl
  · exact differsAt_mapEnds (fun x => .inl rfl) (leftAt_cases t calls)

end

end FieldPath

end ProviderAssets
