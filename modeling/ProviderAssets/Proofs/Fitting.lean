import ProviderAssets.Proofs.Failure
import ProviderAssets.Proofs.Rewriting

/-!
# Where a path can be followed

`FieldPath.Fits` says that everything along a path is of the type that is expected there. Updates that
accept every value of their target type succeed exactly then (`FieldPath.exists_update_iff`), and if they
fail, the error names the resource, the path, and a field on the path (`FieldPath.update_eq_error`).
-/

namespace ProviderAssets

open Json (Object Value)

namespace FieldPath

variable {R S : Value → Value → Prop} {name : String} {v : Value}

/-- Along the path everything is of the type that is expected. Each segment starts from an object, in
which its field may be missing. What is in the field of a plain segment may also be null, unless the path
ends there; what is in the field of a segment for items is null or an array. `last` is what is expected
of the values that the path leads to. -/
def Fits (last : Value → Prop) : FieldPath → Value → Prop
  | [], v => last v
  | .field name :: rest, v => ∃ o, v = .object o ∧
      ∀ x, Fields.get? o name = some x → Fits last rest x ∨ rest ≠ [] ∧ x = .null
  | .items name :: rest, v => ∃ o, v = .object o ∧
      ∀ x, Fields.get? o name = some x →
        (∃ xs, x = .array xs ∧ ∀ item ∈ xs, Fits last rest item) ∨ x = .null

/-! ## Values that can be rewritten -/

/-- An object can be rewritten in a field exactly if the value there can be, if there is one. -/
theorem exists_inField_iff : (∃ w, InField R name v w) ↔
    ∃ o, v = .object o ∧ ∀ x, Fields.get? o name = some x → ∃ y, R x y := by
  constructor
  · rintro ⟨w, o, rfl, ⟨hnone, -⟩ | ⟨x, y, hx, hxy, -⟩⟩
    · refine ⟨o, rfl, fun x hx => ?_⟩
      rw [hnone] at hx
      cases hx
    · refine ⟨o, rfl, fun z hz => ?_⟩
      obtain rfl : x = z := Option.some.inj (hx.symm.trans hz)
      exact ⟨y, hxy⟩
  · rintro ⟨o, rfl, h⟩
    cases hx : Fields.get? o name with
    | none => exact ⟨.object o, o, rfl, .inl ⟨hx, rfl⟩⟩
    | some x =>
      obtain ⟨y, hxy⟩ := h x hx
      exact ⟨_, o, rfl, .inr ⟨x, y, hx, hxy, rfl⟩⟩

/-- An array can be rewritten exactly if each of its items can be. -/
theorem exists_inItems_iff : (∃ w, InItems R v w) ↔
    ∃ xs, v = .array xs ∧ ∀ item ∈ xs, ∃ y, R item y := by
  constructor
  · rintro ⟨w, xs, ys, rfl, -, hall⟩
    exact ⟨xs, rfl, exists_forall₂_iff.1 ⟨ys, hall⟩⟩
  · rintro ⟨xs, rfl, h⟩
    obtain ⟨ys, hall⟩ := exists_forall₂_iff.2 h
    exact ⟨_, xs, ys, rfl, rfl, hall⟩

/-- A value can be rewritten along a path exactly if everything on the way fits, and the values that the
path leads to can be rewritten. -/
theorem exists_rewrites_iff : ∀ {path : FieldPath} {v : Value},
    (∃ w, Rewrites R path v w) ↔ Fits (fun x => ∃ y, R x y) path v
  | [], v => Iff.rfl
  | .field name :: rest, v => by
    unfold Rewrites Fits
    rw [exists_inField_iff]
    refine exists_congr fun o => and_congr_right fun _ => forall₂_congr fun x _ => ?_
    rw [← exists_rewrites_iff]
    unfold Onward
    rw [exists_or]
    simp
  | .items name :: rest, v => by
    unfold Rewrites Fits
    rw [exists_inField_iff]
    refine exists_congr fun o => and_congr_right fun _ => forall₂_congr fun x _ => ?_
    simp only [← exists_rewrites_iff, ← exists_inItems_iff]
    unfold Onward
    rw [exists_or]
    simp

/-! ## Updates that accept every value of their type -/

variable {α : Type} {t : Target α} {g : α → α} {fault : String → String → Error} {e : Error}

/-- A value is accepted exactly if it is of the type that is asked for. -/
theorem exists_visits_iff :
    (∃ w, Visits t (fun a => pure (g a)) v w) ↔ (t.ofValue? v).isSome = true := by
  rw [Option.isSome_iff_exists]
  constructor
  · rintro ⟨w, a, b, ha, -, -⟩
    exact ⟨a, ha⟩
  · rintro ⟨a, ha⟩
    exact ⟨_, a, g a, ha, rfl, rfl⟩

/-- A resource can be updated along a path exactly if everything on the way fits. -/
theorem exists_update_iff {path : FieldPath} (hpath : path ≠ []) {r : Resource} :
    (∃ s, path.update (m := Id) t (fun a => pure (g a)) r = Except.ok s) ↔
      Fits (fun x => (t.ofValue? x).isSome = true) path (.object r.root) := by
  obtain ⟨seg, rest, rfl⟩ := List.exists_cons_of_ne_nil hpath
  simp only [← exists_visits_iff (g := g)]
  rw [← exists_rewrites_iff]
  constructor
  · rintro ⟨s, hs⟩
    obtain ⟨-, fault, hroot⟩ := update_eq_ok hs
    exact ⟨.object s.root, updateFrom_eq_ok.1 hroot⟩
  · rintro ⟨w, hw⟩
    obtain ⟨_, o', -, rfl⟩ := InField.exists_object hw
    unfold update
    dsimp only
    rw [updateFrom_eq_ok.2 hw]
    exact ⟨_, rfl⟩

/-! ## Updates that fail -/

/-- A failure before a change at the end is one after it. -/
theorem mapT_eq_error {β γ : Type} {x : ExceptT Error Id β} {f : β → γ}
    (h : f <$> x = Except.error e) : x = Except.error e := by
  cases x with
  | error e' => exact congrArg Except.error (Except.error.inj h)
  | ok b => cases h

/-- A traversal that fails does so at one of the elements. -/
theorem mapM_eq_error {β γ : Type} {f : β → ExceptT Error Id γ} {xs : List β}
    (h : xs.mapM f = Except.error e) : ∃ x ∈ xs, f x = Except.error e := by
  induction xs with
  | nil => cases h
  | cons x xs ih =>
    rw [List.mapM_cons] at h
    cases hx : f x with
    | error e' =>
      rw [hx] at h
      cases h
      exact ⟨x, List.mem_cons_self, hx⟩
    | ok y =>
      rw [hx] at h
      obtain ⟨z, hz, hfz⟩ := ih (mapT_eq_error (f := (y :: ·)) ((map_eq_pure_bind ..).trans h))
      exact ⟨z, List.mem_cons_of_mem _ hz, hfz⟩

/-- A visit fails only where a value is not of the type that is asked for. -/
theorem visit_eq_error (h : visit (m := Id) t (fun a => pure (g a)) fault name v = Except.error e) :
    e = fault t.description name := by
  unfold visit at h
  cases hv : t.ofValue? v with
  | none =>
    rw [hv] at h
    exact (Except.error.inj h).symm
  | some a =>
    rw [hv] at h
    cases h

/-- An update that fails names a field on its path, and what was expected there. -/
theorem updateFrom_eq_error : ∀ {path : FieldPath} {o : Object},
    updateFrom (m := Id) t (fun a => pure (g a)) fault path o = Except.error e →
      ∃ expected, ∃ seg ∈ path, e = fault expected seg.name
  | [], o, h => by cases h
  | .field name :: rest, o, h => by
    unfold updateFrom at h
    have further {inner : Object}
        (hinner : updateFrom (m := Id) t (fun a => pure (g a)) fault rest inner = Except.error e) :
        ∃ expected, ∃ seg ∈ Segment.field name :: rest, e = fault expected seg.name := by
      obtain ⟨expected, seg, hseg, he⟩ := updateFrom_eq_error hinner
      exact ⟨expected, seg, List.mem_cons_of_mem _ hseg, he⟩
    split at h
    · cases h
    · have h := mapT_eq_error h
      split at h
      · exact ⟨_, _, List.mem_cons_self, visit_eq_error h⟩
      · split at h
        · cases h
        · exact further (mapT_eq_error h)
        · exact ⟨_, _, List.mem_cons_self, (Except.error.inj h).symm⟩
  | .items name :: rest, o, h => by
    unfold updateFrom at h
    split at h
    · cases h
    · cases h
    · obtain ⟨x, -, hx⟩ := mapM_eq_error (mapT_eq_error h)
      split at hx
      · exact ⟨_, _, List.mem_cons_self, visit_eq_error hx⟩
      · split at hx
        · obtain ⟨expected, seg, hseg, he⟩ := updateFrom_eq_error (mapT_eq_error hx)
          exact ⟨expected, seg, List.mem_cons_of_mem _ hseg, he⟩
        · exact ⟨_, _, List.mem_cons_self, (Except.error.inj hx).symm⟩
    · exact ⟨_, _, List.mem_cons_self, (Except.error.inj h).symm⟩

/-- An update of a resource that fails names the resource, the path, and a field on it. -/
theorem update_eq_error {path : FieldPath} {r : Resource}
    (h : path.update (m := Id) t (fun a => pure (g a)) r = Except.error e) :
    ∃ expected, ∃ seg ∈ path, e = .malformed r.id (.shape expected seg.name path.text) := by
  have hroot : updateFrom (m := Id) t (fun a => pure (g a))
      (fun expected field => .malformed r.id (.shape expected field path.text)) path r.root =
        Except.error e := by
    refine mapT_eq_error (f := fun root => { r with root }) ?_
    exact (map_eq_pure_bind ..).trans h
  exact updateFrom_eq_error hroot

end FieldPath

end ProviderAssets
