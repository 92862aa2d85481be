import ProviderAssets.Proofs.Failure

/-!
# Identities that repeat

A manifest is made of resources exactly if their identities are distinct; otherwise the error names the
first identity in order that repeats one before it (`Manifest.ofResources_eq_error_iff`). Where the
resources are made on the way, this may fail as well, and whatever fails first is the error
(`Manifest.collect_some_eq_error_iff`). Elements of which nothing is made do not count
(`Manifest.collect_filterMap`).
-/

namespace ProviderAssets

/-- `x` is the first element of a list that repeats one before it. -/
def IsFirstRepeat {α : Type} (xs : List α) (x : α) : Prop :=
  ∃ before after, xs = before ++ x :: after ∧ before.Nodup ∧ x ∈ before

namespace Manifest

variable {α β : Type} {xs : List α} {m : Manifest} {e : Error}

/-! ## Elements that count -/

/-- What is made of elements does not depend on those of which nothing is made. -/
theorem collect_filterMap (g : α → Option β) (f : β → Except Error (Option Resource)) (xs : List α) :
    collect (fun x => (g x).elim (pure none) f) xs = collect f (xs.filterMap g) := by
  have into (m : Manifest) :
      collectInto (fun x => (g x).elim (pure none) f) m xs = collectInto f m (xs.filterMap g) := by
    unfold collectInto
    induction xs generalizing m with
    | nil => rfl
    | cons x xs ih =>
      rw [List.foldlM_cons]
      cases hx : g x with
      | none =>
        simp only [hx, Option.elim_none, pure_bind, List.filterMap_cons_none hx]
        exact ih m
      | some y =>
        simp only [hx, Option.elim_some, List.filterMap_cons_some hx, List.foldlM_cons]
        exact bind_congr fun n => ih n
  exact into empty

/-- The same is made of elements that correspond, if the same is made of any two that do. -/
theorem collect_congr {R : α → β → Prop} {f : α → Except Error (Option Resource)}
    {g : β → Except Error (Option Resource)} {ys : List β} (h : List.Forall₂ R xs ys)
    (same : ∀ x y, R x y → f x = g y) : collect f xs = collect g ys := by
  have into (m : Manifest) : collectInto f m xs = collectInto g m ys := by
    unfold collectInto
    induction h generalizing m with
    | nil => rfl
    | cons hxy _ ih =>
      rw [List.foldlM_cons, List.foldlM_cons, same _ _ hxy]
      exact bind_congr fun n => ih n
  exact into empty

/-! ## Resources that are made on the way -/

variable {f : α → Except Error Resource}

/-- The manifest that is made holds, in order and under their identities, what is made of each element. -/
theorem collect_some_eq_ok_iff : collect (fun x => some <$> f x) xs = .ok m ↔
    List.Forall₂ (fun x r => f x = .ok r) xs m.resources ∧ m.IsKeyed := by
  refine ⟨collect_some_eq_ok, fun ⟨hmade, hkeyed⟩ => ?_⟩
  obtain ⟨n, hn, hresources, hkeyed'⟩ := exists_collect_some hmade hkeyed.nodup_ids
  rw [hn, hkeyed'.eq_of_resources_eq hkeyed hresources]

/-- There is one exactly if a resource is made of every element, and their identities are distinct. -/
theorem exists_collect_some_iff : (∃ m, collect (fun x => some <$> f x) xs = .ok m) ↔
    ∃ rs, List.Forall₂ (fun x r => f x = .ok r) xs rs ∧ (rs.map (·.id)).Nodup := by
  constructor
  · rintro ⟨m, hm⟩
    obtain ⟨hmade, hkeyed⟩ := collect_some_eq_ok hm
    exact ⟨m.resources, hmade, hkeyed.nodup_ids⟩
  · rintro ⟨rs, hmade, hnodup⟩
    obtain ⟨m, hm, -⟩ := exists_collect_some hmade hnodup
    exact ⟨m, hm⟩

/-- Otherwise the error is that of the first element of which no resource is made, or one with the
identity of a resource before it, which the error names. -/
theorem collect_some_eq_error_iff : collect (fun x => some <$> f x) xs = .error e ↔
    ∃ before x after rs, xs = before ++ x :: after ∧ List.Forall₂ (fun x r => f x = .ok r) before rs ∧
      (rs.map (·.id)).Nodup ∧
      (f x = .error e ∨ ∃ r, f x = .ok r ∧ r.id ∈ rs.map (·.id) ∧ e = .conflict r.id) := by
  -- The error at an element does not depend on whether what is made of it is there for sure.
  have fault {x : α} {keys : List ResourceId} :
      (some <$> f x = .error e ∨ ∃ r, some <$> f x = .ok (some r) ∧ r.id ∈ keys ∧ e = .conflict r.id) ↔
        (f x = .error e ∨ ∃ r, f x = .ok r ∧ r.id ∈ keys ∧ e = .conflict r.id) := by
    simp only [map_eq_error, map_eq_ok, Option.some.injEq, exists_eq_right]
  rw [collect_eq_error_iff]
  constructor
  · rintro ⟨before, x, after, m, hsplit, hbefore, hx⟩
    obtain ⟨hmade, hkeyed⟩ := collect_some_eq_ok hbefore
    rw [fault, hkeyed.keys_eq] at hx
    exact ⟨before, x, after, m.resources, hsplit, hmade, hkeyed.nodup_ids, hx⟩
  · rintro ⟨before, x, after, rs, hsplit, hmade, hnodup, hx⟩
    obtain ⟨m, hm, hresources, hkeyed⟩ := exists_collect_some hmade hnodup
    rw [← hresources, ← hkeyed.keys_eq, ← fault] at hx
    exact ⟨before, x, after, m, hsplit, hm, hx⟩

/-! ## Resources that are given -/

/-- The manifest of some resources, each under its identity. -/
def ofResources (rs : List Resource) : Except Error Manifest := collect (fun r => some <$> pure r) rs

variable {rs : List Resource}

/-- The manifest of resources holds them in order and under their identities. -/
theorem ofResources_eq_ok_iff : ofResources rs = .ok m ↔ m.resources = rs ∧ m.IsKeyed := by
  have same : List.Forall₂ (fun r s => (pure r : Except Error Resource) = .ok s) rs m.resources ↔
      m.resources = rs := by
    simp only [pure, Except.pure, Except.ok.injEq, List.forall₂_eq_eq_eq, eq_comm]
  unfold ofResources
  rw [collect_some_eq_ok_iff, same]

/-- There is one exactly if their identities are distinct. -/
theorem exists_ofResources_iff : (∃ m, ofResources rs = .ok m) ↔ (rs.map (·.id)).Nodup := by
  unfold ofResources
  simp only [exists_collect_some_iff, pure, Except.pure, Except.ok.injEq, List.forall₂_eq_eq_eq]
  exact exists_eq_left'

/-- Otherwise the error names the first identity that repeats. -/
theorem ofResources_eq_error_iff :
    ofResources rs = .error e ↔ ∃ id, IsFirstRepeat (rs.map (·.id)) id ∧ e = .conflict id := by
  unfold ofResources
  simp only [collect_some_eq_error_iff, pure, Except.pure, Except.ok.injEq, List.forall₂_eq_eq_eq]
  constructor
  · rintro ⟨before, r, after, _, rfl, rfl, hnodup, hr⟩
    obtain ⟨⟨⟩⟩ | ⟨_, rfl, hid, rfl⟩ := hr
    exact ⟨r.id, ⟨before.map (·.id), after.map (·.id), by simp, hnodup, hid⟩, rfl⟩
  · rintro ⟨id, ⟨ids, ids', hsplit, hnodup, hid⟩, rfl⟩
    obtain ⟨before, rest, rfl, rfl, hrest⟩ := List.map_eq_append_iff.1 hsplit
    obtain ⟨r, after, rfl, rfl, -⟩ := List.map_eq_cons_iff.1 hrest
    exact ⟨before, r, after, before, rfl, rfl, hnodup, .inr ⟨r, rfl, hid, rfl⟩⟩

end Manifest

end ProviderAssets
