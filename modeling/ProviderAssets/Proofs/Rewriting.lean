import ProviderAssets.Proofs.FieldPath
import ProviderAssets.Proofs.Fields

/-!
# What a path rewrites

`FieldPath.Rewrites R` relates a value to what it becomes when each value that a path leads to is
replaced by one that `R` relates it to. `FieldPath.updateFrom_eq_ok` says that updates which succeed
do exactly that, so that what is known of rewriting is known of updates.

* `FieldPath.Rewrites.again`: where `R` settles values, a second rewriting changes nothing.
* `FieldPath.Rewrites.exists_leadsTo`: afterwards the path leads to nothing but what was put there.
* `FieldPath.Rewrites.exists_at?`: what is found along a path before is found there afterwards, with
  the rest of the path rewritten in it.

`FieldPath.RewritesUnder` says the same of the one field that a path starts with, where other steps
change other fields.
-/

namespace ProviderAssets

open Json (Object Value)

namespace FieldPath

variable {α : Type} {R S : Value → Value → Prop} {name : String} {v w : Value} {o o' : Object}

/-! ## Rewriting in a field -/

/-- `w` is the object `v`, where the value in the field `name`, if there is one, is replaced by one
that `R` relates it to. -/
def InField (R : Value → Value → Prop) (name : String) (v w : Value) : Prop :=
  ∃ o, v = .object o ∧
    (Fields.get? o name = none ∧ w = v ∨
      ∃ x y, Fields.get? o name = some x ∧ R x y ∧ w = .object (Fields.insert o name y))

/-- `w` is the array `v`, where every item is replaced by one that `R` relates it to. -/
def InItems (R : Value → Value → Prop) (v w : Value) : Prop :=
  ∃ xs ys, v = .array xs ∧ w = .array ys ∧ List.Forall₂ R xs ys

/-- An object stays an object. -/
theorem InField.exists_object (h : InField R name v w) :
    ∃ o o', v = .object o ∧ w = .object o' := by
  obtain ⟨o, rfl, ⟨-, rfl⟩ | ⟨x, y, -, -, rfl⟩⟩ := h
  · exact ⟨o, o, rfl, rfl⟩
  · exact ⟨o, _, rfl, rfl⟩

/-- Nothing is rewritten in a field that is not there. -/
theorem inField_of_none (hnone : Fields.get? o name = none) :
    InField R name (.object o) (.object o') ↔ o' = o := by
  constructor
  · rintro ⟨p, hp, ⟨-, heq⟩ | ⟨x, y, hx, -, -⟩⟩
    · cases hp
      exact Value.object.inj heq
    · cases hp
      rw [hnone] at hx
      cases hx
  · rintro rfl
    exact ⟨o', rfl, .inl ⟨hnone, rfl⟩⟩

/-- A field that is there is rewritten. -/
theorem inField_of_some {x : Value} (hx : Fields.get? o name = some x) :
    InField R name (.object o) (.object o') ↔ ∃ y, R x y ∧ Fields.insert o name y = o' := by
  constructor
  · rintro ⟨p, hp, ⟨hnone, -⟩ | ⟨z, y, hz, hzy, heq⟩⟩
    · cases hp
      rw [hnone] at hx
      cases hx
    · cases hp
      obtain rfl := Option.some.inj (hz.symm.trans hx)
      exact ⟨y, hzy, (Value.object.inj heq).symm⟩
  · rintro ⟨y, hxy, rfl⟩
    exact ⟨o, rfl, .inr ⟨x, y, hx, hxy, rfl⟩⟩

/-- Rewriting changes nothing in an object exactly if it may leave the value in the field. -/
theorem inField_self_iff :
    InField R name (.object o) (.object o) ↔ ∀ x, Fields.get? o name = some x → R x x := by
  cases hx : Fields.get? o name with
  | none => simp [inField_of_none hx]
  | some x =>
    rw [inField_of_some hx]
    constructor
    · rintro ⟨y, hxy, heq⟩ z hz
      -- The object is the same with the new value, so that this is the value that is found.
      have hy : Fields.get? o name = some y := by
        rw [← heq, Fields.get?_insert, if_pos rfl]
      obtain rfl := Option.some.inj hz
      obtain rfl := Option.some.inj (hy.symm.trans hx)
      exact hxy
    · intro h
      exact ⟨x, h x rfl, Fields.insert_eq_self hx⟩

/-- A value that is in the field afterwards was put there in the place of another one. -/
theorem InField.exists_of_found {y : Value} (h : InField R name (.object o) (.object o'))
    (found : Fields.get? o' name = some y) : ∃ x, Fields.get? o name = some x ∧ R x y := by
  cases hx : Fields.get? o name with
  | none =>
    rw [(inField_of_none hx).1 h, hx] at found
    cases found
  | some x =>
    obtain ⟨z, hxz, rfl⟩ := (inField_of_some hx).1 h
    rw [Fields.get?_insert, if_pos rfl] at found
    exact ⟨x, rfl, Option.some.inj found ▸ hxz⟩

/-- The value that is found in the field afterwards is one that was put there. -/
theorem InField.again (h : InField R name v w) (settles : ∀ x y, R x y → R y y) :
    InField R name w w := by
  obtain ⟨o, rfl, ⟨hnone, rfl⟩ | ⟨x, y, -, hxy, rfl⟩⟩ := h
  · refine inField_self_iff.2 fun x hx => ?_
    rw [hnone] at hx
    cases hx
  · refine inField_self_iff.2 fun z hz => ?_
    rw [Fields.get?_insert, if_pos rfl] at hz
    exact Option.some.inj hz ▸ settles x y hxy

/-- The items that are found in the array afterwards are those that were put there. -/
theorem InItems.again (h : InItems R v w) (settles : ∀ x y, R x y → R y y) : InItems R w w := by
  obtain ⟨xs, ys, -, rfl, hall⟩ := h
  refine ⟨ys, ys, rfl, rfl, List.forall₂_same.2 fun y hy => ?_⟩
  obtain ⟨x, -, hxy⟩ := exists_of_mem_right hall hy
  exact settles x y hxy

/-- Another field may be written to before or after. -/
theorem InField.insert {key : String} (h : InField R name (.object o) (.object o')) (hne : key ≠ name)
    (x : Value) :
    InField R name (.object (Fields.insert o key x)) (.object (Fields.insert o' key x)) := by
  have same : Fields.get? (Fields.insert o key x) name = Fields.get? o name := by
    rw [Fields.get?_insert, if_neg (Ne.symm hne)]
  cases hv : Fields.get? o name with
  | none =>
    rw [(inField_of_none hv).1 h]
    exact (inField_of_none (same.trans hv)).2 rfl
  | some v =>
    obtain ⟨y, hvy, rfl⟩ := (inField_of_some hv).1 h
    exact (inField_of_some (same.trans hv)).2 ⟨y, hvy, (Fields.insert_comm hv hne y x).symm⟩

/-- What `S` puts in a field takes the place of what `R` put there. -/
theorem InField.exists_common (h : InField R name v w) (common : ∀ x y, R x y → ∃ z, S x z ∧ S y z) :
    ∃ z, InField S name v z ∧ InField S name w z := by
  obtain ⟨o, rfl, ⟨hnone, rfl⟩ | ⟨x, y, hx, hxy, rfl⟩⟩ := h
  · have same := (inField_of_none (R := S) hnone).2 rfl
    exact ⟨.object o, same, same⟩
  · obtain ⟨z, hxz, hyz⟩ := common x y hxy
    have hy : Fields.get? (Fields.insert o name y) name = some y := by
      rw [Fields.get?_insert, if_pos rfl]
    exact ⟨_, (inField_of_some hx).2 ⟨z, hxz, rfl⟩,
      (inField_of_some hy).2 ⟨z, hyz, Fields.insert_insert ..⟩⟩

/-- What `S` makes of items takes the place of what `R` made of them. -/
theorem InItems.exists_common (h : InItems R v w) (common : ∀ x y, R x y → ∃ z, S x z ∧ S y z) :
    ∃ z, InItems S v z ∧ InItems S w z := by
  obtain ⟨xs, ys, rfl, rfl, hall⟩ := h
  obtain ⟨zs, hxs, hys⟩ := exists_forall₂_common common hall
  exact ⟨.array zs, ⟨xs, zs, rfl, rfl, hxs⟩, ys, zs, rfl, rfl, hys⟩

/-! ## Rewriting along a path -/

/-- How a segment leads on from the value in its field: to that value or to its items, which `R` is
about, or to nothing, if the value is null and there is further to go. -/
def Onward (R : Value → Value → Prop) (seg : Segment) (rest : FieldPath) (x y : Value) : Prop :=
  match seg with
  | .field _ => R x y ∨ rest ≠ [] ∧ x = .null ∧ y = .null
  | .items _ => InItems R x y ∨ x = .null ∧ y = .null

/-- `w` is `v`, where every value that the path leads to is replaced by one that `R` relates it to. -/
def Rewrites (R : Value → Value → Prop) : FieldPath → Value → Value → Prop
  | [] => R
  | seg :: rest => InField (Onward (Rewrites R rest) seg rest) seg.name

/-- What leads on to values that stay leads on to the same values again. -/
theorem Onward.again {seg : Segment} {rest : FieldPath} {x y : Value} (h : Onward R seg rest x y)
    (settles : ∀ x y, R x y → R y y) : Onward R seg rest y y := by
  cases seg with
  | field name =>
    rcases h with h | ⟨hrest, -, rfl⟩
    · exact .inl (settles x y h)
    · exact .inr ⟨hrest, rfl, rfl⟩
  | items name =>
    rcases h with h | ⟨-, rfl⟩
    · exact .inl (h.again settles)
    · exact .inr ⟨rfl, rfl⟩

/-- Where `R` relates to itself what it relates anything to, a second rewriting changes nothing. -/
theorem Rewrites.again (settles : ∀ x y, R x y → R y y) : ∀ {path : FieldPath} {v w : Value},
    Rewrites R path v w → Rewrites R path w w
  | [], v, w, h => settles v w h
  | _ :: _, _, _, h => InField.again h fun _ _ hxy => hxy.again fun _ _ => Rewrites.again settles

/-- What leads on to values that are replaced leads on to what takes their place. -/
theorem Onward.exists_common {seg : Segment} {rest : FieldPath} {x y : Value}
    (h : Onward R seg rest x y) (common : ∀ x y, R x y → ∃ z, S x z ∧ S y z) :
    ∃ z, Onward S seg rest x z ∧ Onward S seg rest y z := by
  cases seg with
  | field name =>
    rcases h with h | ⟨hrest, rfl, rfl⟩
    · obtain ⟨z, hxz, hyz⟩ := common x y h
      exact ⟨z, .inl hxz, .inl hyz⟩
    · exact ⟨.null, .inr ⟨hrest, rfl, rfl⟩, .inr ⟨hrest, rfl, rfl⟩⟩
  | items name =>
    rcases h with h | ⟨rfl, rfl⟩
    · obtain ⟨z, hxz, hyz⟩ := h.exists_common common
      exact ⟨z, .inl hxz, .inl hyz⟩
    · exact ⟨.null, .inr ⟨rfl, rfl⟩, .inr ⟨rfl, rfl⟩⟩

/-- Where `S` makes the same of what `R` relates, rewriting with `S` gives the same whether there was a
rewriting with `R` before or not. -/
theorem Rewrites.exists_common (common : ∀ x y, R x y → ∃ z, S x z ∧ S y z) :
    ∀ {path : FieldPath} {v w : Value}, Rewrites R path v w →
      ∃ z, Rewrites S path v z ∧ Rewrites S path w z
  | [], v, w, h => common v w h
  | _ :: _, _, _, h =>
    InField.exists_common h fun _ _ hxy => hxy.exists_common fun _ _ => Rewrites.exists_common common

/-- Whether an object is settled depends on the field that the path starts with alone. -/
theorem Rewrites.self_congr {seg : Segment} {rest : FieldPath}
    (h : Rewrites R (seg :: rest) (.object o) (.object o))
    (same : Fields.get? o' seg.name = Fields.get? o seg.name) :
    Rewrites R (seg :: rest) (.object o') (.object o') :=
  inField_self_iff.2 fun x hx => inField_self_iff.1 h x (same ▸ hx)

/-- Rewriting leaves the keys of an object in order. -/
theorem Rewrites.keys_eq {seg : Segment} {rest : FieldPath}
    (h : Rewrites R (seg :: rest) (.object o) (.object o')) :
    Fields.keys o' = Fields.keys o := by
  unfold Rewrites at h
  cases hx : Fields.get? o seg.name with
  | none => rw [(inField_of_none hx).1 h]
  | some x =>
    obtain ⟨y, -, rfl⟩ := (inField_of_some hx).1 h
    exact Fields.keys_insert_of_found hx y

/-- A path that goes on is rewritten in objects only. -/
theorem Rewrites.exists_object {path : FieldPath} (h : Rewrites R path v w) (hpath : path ≠ []) :
    ∃ o, v = .object o := by
  cases path with
  | nil => exact absurd rfl hpath
  | cons seg rest =>
    obtain ⟨o, -, rfl, -⟩ := InField.exists_object h
    exact ⟨o, rfl⟩

/-- After a rewriting a path leads to nothing but what was put in the place of values that it led to
before. -/
theorem Rewrites.exists_leadsTo {path : FieldPath} (hw : LeadsTo path o' w)
    (h : Rewrites R path (.object o) (.object o')) : ∃ v, LeadsTo path o v ∧ R v w := by
  -- The induction is on how the path leads to the value; the rewriting goes the same way.
  induction hw generalizing o with
  | field found =>
    obtain ⟨x, hx, hxw | ⟨hrest, -⟩⟩ := h.exists_of_found found
    · exact ⟨x, .field hx, hxw⟩
    · exact absurd rfl hrest
  | inField found further ih =>
    obtain ⟨x, hx, hinner | ⟨-, -, hnull⟩⟩ := h.exists_of_found found
    · obtain ⟨o, rfl⟩ := hinner.exists_object further.ne_nil
      obtain ⟨v, hv, hvw⟩ := ih hinner
      exact ⟨v, .inField hx hv, hvw⟩
    · cases hnull
  | item found mem =>
    obtain ⟨x, hx, ⟨xs, ys, rfl, hys, hall⟩ | ⟨-, hnull⟩⟩ := h.exists_of_found found
    · cases hys
      obtain ⟨v, hv, hvw⟩ := exists_of_mem_right hall mem
      exact ⟨v, .item hx hv, hvw⟩
    · cases hnull
  | inItem found mem further ih =>
    obtain ⟨x, hx, ⟨xs, ys, rfl, hys, hall⟩ | ⟨-, hnull⟩⟩ := h.exists_of_found found
    · cases hys
      obtain ⟨x, hmem, hinner⟩ := exists_of_mem_right hall mem
      obtain ⟨o, rfl⟩ := hinner.exists_object further.ne_nil
      obtain ⟨v, hv, hvw⟩ := ih hinner
      exact ⟨v, .inItem hx hmem hv, hvw⟩
    · cases hnull

/-! ## Updates that succeed -/

/-- `w` is what a visit makes of `v`, which has the type that is asked for. -/
def Visits (t : Target α) (f : α → ExceptT Error Id α) (v w : Value) : Prop :=
  ∃ a b, t.ofValue? v = some a ∧ f a = Except.ok b ∧ w = t.toValue b

section

variable {t : Target α} {f : α → ExceptT Error Id α} {fault : String → String → Error}

/-- A traversal succeeds exactly if it does at each element. -/
theorem mapM_eq_ok {β γ : Type} {f : β → ExceptT Error Id γ} {xs : List β} {ys : List γ} :
    xs.mapM f = Except.ok ys ↔ List.Forall₂ (fun x y => f x = Except.ok y) xs ys := by
  induction xs generalizing ys with
  | nil =>
    rw [List.mapM_nil, List.forall₂_nil_left_iff]
    constructor
    · intro h
      cases h
      rfl
    · rintro rfl
      rfl
  | cons x xs ih =>
    rw [List.mapM_cons, List.forall₂_cons_left_iff]
    constructor
    · intro h
      obtain ⟨y, hy, h⟩ := bindT_eq_ok h
      obtain ⟨ys, hys, h⟩ := bindT_eq_ok h
      cases h
      exact ⟨y, ys, hy, ih.1 hys, rfl⟩
    · rintro ⟨y, ys, hy, hys, rfl⟩
      rw [hy]
      show (xs.mapM f >>= fun ys => pure (y :: ys)) = _
      rw [ih.2 hys]
      rfl

/-- A visit succeeds exactly on values of the type that is asked for where `f` succeeds. -/
theorem visit_eq_ok_iff : visit t f fault name v = Except.ok w ↔ Visits t f v w := by
  constructor
  · intro h
    unfold visit at h
    cases hv : t.ofValue? v with
    | none =>
      rw [hv] at h
      cases h
    | some a =>
      rw [hv] at h
      obtain ⟨b, hb, rfl⟩ := mapT_eq_ok h
      exact ⟨a, b, hv, hb, rfl⟩
  · rintro ⟨a, b, ha, hb, rfl⟩
    unfold visit
    rw [ha]
    show t.toValue <$> f a = _
    rw [hb]
    rfl

/-- A change at the end succeeds exactly if there is something to change. -/
theorem mapT_eq_ok_iff {β γ : Type} {x : ExceptT Error Id β} {g : β → γ} {c : γ} :
    g <$> x = Except.ok c ↔ ∃ b, x = Except.ok b ∧ g b = c := by
  refine ⟨mapT_eq_ok, ?_⟩
  rintro ⟨b, rfl, rfl⟩
  rfl

/-- What is given without further ado is what was there. -/
theorem pure_eq_ok_iff {β : Type} {x y : β} : (pure x : ExceptT Error Id β) = Except.ok y ↔ y = x :=
  ⟨fun h => (Except.ok.inj h).symm, fun h => congrArg Except.ok h.symm⟩

/-- What an update does to an object that a segment has led to, if more segments follow. -/
theorem object_eq_ok {seg : Segment} {rest : FieldPath}
    (ih : ∀ o', updateFrom (m := Id) t f fault (seg :: rest) o = Except.ok o' ↔
      Rewrites (Visits t f) (seg :: rest) (.object o) (.object o')) :
    Value.object <$> updateFrom (m := Id) t f fault (seg :: rest) o = Except.ok w ↔
      Rewrites (Visits t f) (seg :: rest) (.object o) w := by
  rw [mapT_eq_ok_iff]
  constructor
  · rintro ⟨o', ho', rfl⟩
    exact (ih o').1 ho'
  · intro h
    obtain ⟨-, o', -, rfl⟩ := InField.exists_object h
    exact ⟨o', (ih o').2 h, rfl⟩

/-- No path leads on from a value that is no object. -/
theorem not_rewrites {seg : Segment} {rest : FieldPath} (hv : v.object? = none) :
    ¬ Rewrites R (seg :: rest) v w := by
  intro h
  obtain ⟨o, rfl⟩ := h.exists_object (List.cons_ne_nil _ _)
  cases hv

/-- Along a path of one more segment, an object in a field is rewritten, and null stays. -/
theorem onward_field_iff {seg : Segment} {rest : FieldPath} :
    Onward (Rewrites R (seg :: rest)) (.field name) (seg :: rest) v w ↔
      Rewrites R (seg :: rest) v w ∨ v = .null ∧ w = .null := by
  simp [Onward]

/-- What an update does to an item, where the path ends or leads on from objects. -/
theorem item_eq_ok {rest : FieldPath} {e : Error}
    (ih : ∀ {seg : Segment} {further : FieldPath} {o o' : Object}, rest = seg :: further →
      (updateFrom (m := Id) t f fault rest o = Except.ok o' ↔
        Rewrites (Visits t f) rest (.object o) (.object o'))) :
    (if rest.isEmpty then visit t f fault name v
      else match v with
        | .object o => .object <$> updateFrom t f fault rest o
        | _ => throw e) = Except.ok w ↔ Rewrites (Visits t f) rest v w := by
  cases rest with
  | nil => exact visit_eq_ok_iff
  | cons seg rest =>
    rw [if_neg (by simp)]
    cases v with
    | object o => exact object_eq_ok fun o' => ih rfl
    | _ => exact iff_of_false (fun h => by cases h) (not_rewrites rfl)

/-- What an update does to the value of a field, where the path ends or leads on from objects. -/
theorem field_eq_ok {rest : FieldPath} {e : Error}
    (ih : ∀ {seg : Segment} {further : FieldPath} {o o' : Object}, rest = seg :: further →
      (updateFrom (m := Id) t f fault rest o = Except.ok o' ↔
        Rewrites (Visits t f) rest (.object o) (.object o'))) :
    (if rest.isEmpty then visit t f fault name v
      else match v with
        | .null => pure .null
        | .object o => .object <$> updateFrom t f fault rest o
        | _ => throw e) = Except.ok w ↔
      Onward (Rewrites (Visits t f) rest) (.field name) rest v w := by
  cases rest with
  | nil => exact visit_eq_ok_iff.trans (by simp [Onward, Rewrites])
  | cons seg rest =>
    rw [onward_field_iff, if_neg (by simp)]
    cases v with
    | null =>
      have hno : ¬ Rewrites (Visits t f) (seg :: rest) .null w := not_rewrites rfl
      simp only [hno, true_and, false_or]
      exact pure_eq_ok_iff
    | object o =>
      rw [object_eq_ok fun o' => ih rfl]
      simp
    | _ =>
      refine iff_of_false (fun h => by cases h) ?_
      rintro (h | ⟨h, -⟩)
      · exact not_rewrites rfl h
      · cases h

/-- An update succeeds exactly if it rewrites the object along the path, where the values that it
leads to are of the type that is asked for and become what `f` makes of them. -/
theorem updateFrom_eq_ok : ∀ {seg : Segment} {rest : FieldPath} {o o' : Object},
    updateFrom (m := Id) t f fault (seg :: rest) o = Except.ok o' ↔
      Rewrites (Visits t f) (seg :: rest) (.object o) (.object o')
  -- The recursion is on the path, through the values that its first segment leads to.
  | .field name, rest, o, o' => by
    unfold updateFrom Rewrites
    cases hv : Fields.get? o name with
    | none => exact pure_eq_ok_iff.trans (inField_of_none hv).symm
    | some v =>
      refine Iff.trans ?_ (inField_of_some hv).symm
      refine mapT_eq_ok_iff.trans (exists_congr fun w => and_congr_left' ?_)
      exact field_eq_ok fun he => he ▸ updateFrom_eq_ok
  | .items name, rest, o, o' => by
    unfold updateFrom Rewrites
    cases hv : Fields.get? o name with
    | none => exact pure_eq_ok_iff.trans (inField_of_none hv).symm
    | some v =>
      refine Iff.trans ?_ (inField_of_some hv).symm
      cases v with
      | null =>
        -- Nothing is visited, and null is put back in its place.
        have hnull : Fields.insert o name .null = o := Fields.insert_eq_self hv
        constructor
        · intro h
          cases h
          exact ⟨.null, .inr ⟨rfl, rfl⟩, hnull⟩
        · rintro ⟨w, ⟨_, _, h, -⟩ | ⟨-, rfl⟩, heq⟩
          · cases h
          · exact congrArg Except.ok (hnull.symm.trans heq)
      | array xs =>
        refine mapT_eq_ok_iff.trans ?_
        constructor
        · rintro ⟨ys, hys, rfl⟩
          refine ⟨.array ys, .inl ⟨xs, ys, rfl, rfl, ?_⟩, rfl⟩
          exact (mapM_eq_ok.1 hys).imp fun x y hxy =>
            (item_eq_ok fun he => he ▸ updateFrom_eq_ok).1 hxy
        · rintro ⟨w, ⟨_, ys, hx, rfl, hall⟩ | ⟨h, -⟩, rfl⟩
          · cases hx
            refine ⟨ys, mapM_eq_ok.2 (hall.imp fun x y hxy => ?_), rfl⟩
            exact (item_eq_ok fun he => he ▸ updateFrom_eq_ok).2 hxy
          · cases h
      | _ =>
        refine iff_of_false (fun h => by cases h) ?_
        rintro ⟨w, ⟨_, _, h, -⟩ | ⟨h, -⟩, -⟩
        · cases h
        · cases h

/-- The same of a resource, whose identity stays. -/
theorem update_eq_ok_iff {path : FieldPath} (hpath : path ≠ []) {r s : Resource} :
    path.update (m := Id) t f r = Except.ok s ↔
      s.id = r.id ∧ Rewrites (Visits t f) path (.object r.root) (.object s.root) := by
  obtain ⟨seg, rest, rfl⟩ := List.exists_cons_of_ne_nil hpath
  constructor
  · intro h
    obtain ⟨hid, fault, hroot⟩ := update_eq_ok h
    exact ⟨hid, updateFrom_eq_ok.1 hroot⟩
  · rintro ⟨hid, hrew⟩
    unfold update
    dsimp only
    rw [updateFrom_eq_ok.2 hrew, ← hid]
    rfl

end

/-! ## Reading along a path -/

/-- The item at an index of an array. -/
def item? (i : Nat) : Value → Option Value
  | .array xs => xs[i]?
  | _ => none

/-- The value that a path leads to, where of each array the item with the next of some indices is
taken. -/
def at? : FieldPath → List Nat → Value → Option Value
  | [], _, v => some v
  | .field name :: rest, is, v => (v.object?.bind (Fields.get? · name)).bind (at? rest is)
  | .items name :: rest, i :: is, v =>
    ((v.object?.bind (Fields.get? · name)).bind (item? i)).bind (at? rest is)
  | .items _ :: _, [], _ => none

/-- Nothing but null is found from null on. -/
theorem eq_null_of_at? {path : FieldPath} {is : List Nat} {x : Value}
    (h : at? path is .null = some x) : x = .null := by
  cases path with
  | nil => exact (Option.some.inj h).symm
  | cons seg rest => cases seg <;> cases is <;> cases h

/-- A value that is found along a path before the rewriting is found there afterwards, with what
follows of the path rewritten in it. -/
theorem Rewrites.exists_at? {further : FieldPath} {x : Value} (hx : x ≠ .null) :
    ∀ {path : FieldPath} {is : List Nat} {v w : Value}, Rewrites R (path ++ further) v w →
      at? path is v = some x → ∃ y, at? path is w = some y ∧ Rewrites R further x y
  | [], _, v, w, h, hat => by
    obtain rfl := Option.some.inj hat
    exact ⟨w, rfl, h⟩
  | .field name :: rest, is, v, w, h, hat => by
    obtain ⟨z, hz, hrest⟩ := Option.bind_eq_some_iff.1 hat
    obtain ⟨o, o', rfl, rfl⟩ := InField.exists_object h
    obtain ⟨y, hzy, rfl⟩ := (inField_of_some hz).1 h
    have hy : Fields.get? (Fields.insert o name y) name = some y := by
      rw [Fields.get?_insert, if_pos rfl]
    -- Where the rewriting stopped at null, nothing but null would have been found.
    rcases hzy with hzy | ⟨-, rfl, -⟩
    · obtain ⟨u, hu, hxu⟩ := Rewrites.exists_at? hx hzy hrest
      exact ⟨u, Option.bind_eq_some_iff.2 ⟨y, hy, hu⟩, hxu⟩
    · exact absurd (eq_null_of_at? hrest) hx
  | .items name :: rest, i :: is, v, w, h, hat => by
    obtain ⟨item, hitem, hrest⟩ := Option.bind_eq_some_iff.1 hat
    obtain ⟨z, hz, hitem⟩ := Option.bind_eq_some_iff.1 hitem
    obtain ⟨o, o', rfl, rfl⟩ := InField.exists_object h
    obtain ⟨y, hzy, rfl⟩ := (inField_of_some hz).1 h
    have hy : Fields.get? (Fields.insert o name y) name = some y := by
      rw [Fields.get?_insert, if_pos rfl]
    rcases hzy with ⟨xs, ys, rfl, rfl, hall⟩ | ⟨rfl, -⟩
    · obtain ⟨u, hu, hiu⟩ := exists_getElem?_right hall hitem
      obtain ⟨t, ht, hxt⟩ := Rewrites.exists_at? hx hiu hrest
      refine ⟨t, Option.bind_eq_some_iff.2 ⟨u, ?_, ht⟩, hxt⟩
      exact Option.bind_eq_some_iff.2 ⟨.array ys, hy, hu⟩
    · cases hitem

/-- What is found along a path depends on the field that the path starts with alone. -/
theorem at?_congr {seg : Segment} {rest : FieldPath} (is : List Nat)
    (same : Fields.get? o' seg.name = Fields.get? o seg.name) :
    at? (seg :: rest) is (.object o') = at? (seg :: rest) is (.object o) := by
  cases seg with
  | field name =>
    show (Fields.get? o' name).bind _ = (Fields.get? o name).bind _
    rw [show Fields.get? o' name = Fields.get? o name from same]
  | items name =>
    cases is with
    | nil => rfl
    | cons i is =>
      show ((Fields.get? o' name).bind _).bind _ = ((Fields.get? o name).bind _).bind _
      rw [show Fields.get? o' name = Fields.get? o name from same]

/-! ## Rewriting among other changes -/

/-- In the field that the path starts with, `o'` is `o` rewritten along the path. The other fields may
be any. -/
def RewritesUnder (R : Value → Value → Prop) (path : FieldPath) (o o' : Object) : Prop :=
  ∃ seg rest u u', path = seg :: rest ∧ Rewrites R path (.object u) (.object u') ∧
    Fields.get? u seg.name = Fields.get? o seg.name ∧
    Fields.get? o' seg.name = Fields.get? u' seg.name

/-- What is found along a path before is found there afterwards, rewritten. -/
theorem RewritesUnder.exists_at? {path further : FieldPath} {is : List Nat} {x : Value}
    (h : RewritesUnder R (path ++ further) o o') (hpath : path ≠ []) (hx : x ≠ .null)
    (hat : at? path is (.object o) = some x) :
    ∃ y, at? path is (.object o') = some y ∧ Rewrites R further x y := by
  obtain ⟨seg, rest, u, u', heq, hrew, hu, hu'⟩ := h
  cases path with
  | nil => exact absurd rfl hpath
  | cons first path =>
    obtain ⟨rfl, -⟩ := List.cons.inj heq
    rw [← at?_congr is hu] at hat
    obtain ⟨y, hy, hxy⟩ := hrew.exists_at? hx hat
    exact ⟨y, (at?_congr is hu').trans hy, hxy⟩

/-- Where `R` relates to itself what it relates anything to, a second rewriting changes nothing. -/
theorem RewritesUnder.settled {path : FieldPath} (h : RewritesUnder R path o o')
    (settles : ∀ x y, R x y → R y y) : Rewrites R path (.object o') (.object o') := by
  obtain ⟨seg, rest, u, u', rfl, hrew, -, hu'⟩ := h
  exact (hrew.again settles).self_congr hu'

end FieldPath

/-- Of rules no two of which admit the same resource, the one that admits a resource rewrites what its
path leads to. -/
theorem FieldRule.rewrites_of_updateAll {α : Type} {t : Target α} {f : α → ExceptT Error Id α}
    {rules : List FieldRule} {r s : Resource} {rule : FieldRule} (apart : Apart rules)
    (h : updateAll (m := Id) rules t f r = Except.ok s) (hmem : rule ∈ rules)
    (hadm : rule.selector.admits r.id.gvk = true) (hpath : rule.path ≠ []) :
    FieldPath.Rewrites (FieldPath.Visits t f) rule.path (.object r.root) (.object s.root) := by
  obtain ⟨-, fault, hroot⟩ := FieldPath.update_eq_ok (update_of_updateAll apart h rule hmem hadm)
  cases hp : rule.path with
  | nil => exact absurd hp hpath
  | cons seg rest =>
    rw [hp] at hroot
    exact FieldPath.updateFrom_eq_ok.1 hroot

/-- After such rules, the path of the one that admits a resource leads only to what was made of the
values that it led to before. -/
theorem FieldRule.updateAll_leadsTo {α : Type} {t : Target α} {f : α → ExceptT Error Id α}
    {rules : List FieldRule} {r s : Resource} {rule : FieldRule} {w : Value} (apart : Apart rules)
    (h : updateAll (m := Id) rules t f r = Except.ok s) (hmem : rule ∈ rules)
    (hadm : rule.selector.admits r.id.gvk = true) (hw : rule.path.LeadsTo s.root w) :
    ∃ v, rule.path.LeadsTo r.root v ∧ FieldPath.Visits t f v w :=
  (rewrites_of_updateAll apart h hmem hadm hw.ne_nil).exists_leadsTo hw

end ProviderAssets
