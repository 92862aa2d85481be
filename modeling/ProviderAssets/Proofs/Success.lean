import ProviderAssets.Manifest.Basic
import Mathlib.Data.List.Forall2

/-!
# Computations that succeed

What the success of a computation says about its parts. A sequence succeeds exactly when both its
parts do, and a fold that succeeds keeps whatever each of its steps keeps (`foldlM_invariant`). The
main instance is `Manifest.collect`, by which every stage makes its manifest anew: if it succeeds,
then each resource was made, and the new manifest holds them in order under their own identities
(`Manifest.collect_eq_ok`). For the other direction, it does succeed if all resources can be made and
no two of them have the same identity (`Manifest.exists_collect_iff`), as when the resources of a
manifest are made anew and keep their identities (`Manifest.IsKeyed.collect_eq_map`).
-/

namespace ProviderAssets

section

variable {ε α β γ : Type}

/-- A sequence succeeds when its first part does, and its second part on what the first one gives. -/
theorem bind_eq_ok {x : Except ε α} {f : α → Except ε β} {b : β} :
    x >>= f = .ok b ↔ ∃ a, x = .ok a ∧ f a = .ok b := by
  cases x <;> simp [bind, Except.bind]

/-- A value that is changed at the end was there before. -/
theorem map_eq_ok {x : Except ε α} {f : α → β} {b : β} :
    f <$> x = .ok b ↔ ∃ a, x = .ok a ∧ f a = b := by
  cases x <;> simp [Functor.map, Except.map]

/-- A result under another name for failures was there before. -/
theorem mapError_eq_ok {ε' : Type} {x : Except ε α} {f : ε → ε'} {a : α} :
    x.mapError f = .ok a ↔ x = .ok a := by
  cases x <;> simp [Except.mapError]

/-- What follows two computations is the same if they look the same through `f`, and what follows
them depends on no more than that. -/
theorem bind_congr_of_map_eq {x y : Except ε α} {f : α → γ} (h : f <$> y = f <$> x)
    {k k' : α → Except ε β} (hk : ∀ a b, f b = f a → k' b = k a) : y >>= k' = x >>= k := by
  cases x with
  | error e =>
    cases y with
    | error e' => exact congrArg Except.error (Except.error.inj h)
    | ok b => cases h
  | ok a =>
    cases y with
    | error e' => cases h
    | ok b => exact hk a b (Except.ok.inj h)

/-- The same of a sequence in the transformer, whose steps may do more than fail. -/
theorem bindT_eq_ok {x : ExceptT ε Id α} {f : α → ExceptT ε Id β} {b : β}
    (h : x >>= f = Except.ok b) : ∃ a, x = Except.ok a ∧ f a = Except.ok b := by
  cases x with
  | error e => cases h
  | ok a => exact ⟨a, rfl, h⟩

/-- The same of a change at the end, in the transformer. -/
theorem mapT_eq_ok {x : ExceptT ε Id α} {f : α → β} {b : β} (h : f <$> x = Except.ok b) :
    ∃ a, x = Except.ok a ∧ f a = b := by
  cases x with
  | error e => cases h
  | ok a =>
    cases h
    exact ⟨a, rfl, rfl⟩

/-- A computation has a result if one can be seen. -/
theorem exists_ok_of_toOption {x : Except ε α} {f : α → β} {b : β}
    (h : x.toOption.map f = some b) : ∃ a, x = .ok a ∧ f a = b := by
  cases x with
  | error e => cases h
  | ok a => exact ⟨a, rfl, Option.some.inj h⟩

/-- A computation has the result that can be seen. -/
theorem eq_ok_of_toOption {x : Except ε α} {a : α} (h : x.toOption = some a) : x = .ok a := by
  cases x with
  | error e => cases h
  | ok b => rw [Option.some.inj h]

/-- A computation fails if no result can be seen. -/
theorem exists_error_of_toOption {x : Except ε α} (h : x.toOption = none) : ∃ e, x = .error e := by
  cases x with
  | error e => exact ⟨e, rfl⟩
  | ok a => cases h

/-- A fold that succeeds has the property that its start has and each step keeps; `seen` are the
elements that the fold has gone over. -/
theorem foldlM_invariant {f : β → α → Except ε β} (P : List α → β → Prop)
    (step : ∀ seen b x b', P seen b → f b x = .ok b' → P (seen ++ [x]) b') :
    ∀ {xs seen : List α} {b out : β}, P seen b → xs.foldlM f b = .ok out → P (seen ++ xs) out
  | [], seen, b, out, start, h => by
    cases h
    rwa [List.append_nil]
  | x :: xs, seen, b, out, start, h => by
    -- The first step moves `x` from the elements to go over to those gone over.
    rw [List.foldlM_cons] at h
    obtain ⟨b', hx, h⟩ := bind_eq_ok.1 h
    have := foldlM_invariant P step (step seen b x b' start hx) h
    rwa [List.append_assoc] at this

/-- A fold whose steps all leave its start succeeds with it. -/
theorem foldlM_eq_self {f : β → α → Except ε β} {b : β} {xs : List α}
    (h : ∀ x ∈ xs, f b x = .ok b) : xs.foldlM f b = .ok b := by
  induction xs with
  | nil => rfl
  | cons x xs ih =>
    rw [List.foldlM_cons, h x List.mem_cons_self]
    exact ih fun y hy => h y (List.mem_cons_of_mem _ hy)

/-- Every element of a list corresponds to one of the other. -/
theorem exists_of_mem_right {R : α → β → Prop} {xs : List α} {ys : List β}
    (h : List.Forall₂ R xs ys) {y : β} (hy : y ∈ ys) : ∃ x ∈ xs, R x y := by
  induction h with
  | nil => cases hy
  | @cons x _ _ _ hxy _ ih =>
    rcases List.mem_cons.1 hy with rfl | hy
    · exact ⟨x, List.mem_cons_self, hxy⟩
    · obtain ⟨x', hx', hxy'⟩ := ih hy
      exact ⟨x', List.mem_cons_of_mem _ hx', hxy'⟩

/-- A list corresponds to some other one exactly if each of its elements corresponds to something. -/
theorem exists_forall₂_iff {R : α → β → Prop} {xs : List α} :
    (∃ ys, List.Forall₂ R xs ys) ↔ ∀ x ∈ xs, ∃ y, R x y := by
  induction xs with
  | nil => exact ⟨fun _ => nofun, fun _ => ⟨[], .nil⟩⟩
  | cons x xs ih =>
    rw [List.forall_mem_cons, ← ih]
    constructor
    · rintro ⟨ys, hall⟩
      obtain ⟨y, ys, hxy, hall, -⟩ := List.forall₂_cons_left_iff.1 hall
      exact ⟨⟨y, hxy⟩, ys, hall⟩
    · rintro ⟨⟨y, hxy⟩, ys, hall⟩
      exact ⟨y :: ys, .cons hxy hall⟩

/-- The element at an index of a list corresponds to the one there of the other. -/
theorem exists_getElem?_right {R : α → β → Prop} {xs : List α} {ys : List β}
    (h : List.Forall₂ R xs ys) {i : Nat} {x : α} (hx : xs[i]? = some x) :
    ∃ y, ys[i]? = some y ∧ R x y := by
  obtain ⟨hi, rfl⟩ := List.getElem?_eq_some_iff.1 hx
  have hi' : i < ys.length := h.length_eq ▸ hi
  exact ⟨ys[i], List.getElem?_eq_getElem hi', h.get hi hi'⟩

/-- Lists that correspond have a list that both correspond to, if their elements have such elements. -/
theorem exists_forall₂_common {R : α → β → Prop} {S : α → γ → Prop} {T : β → γ → Prop}
    (common : ∀ x y, R x y → ∃ z, S x z ∧ T y z) {xs : List α} {ys : List β}
    (h : List.Forall₂ R xs ys) : ∃ zs, List.Forall₂ S xs zs ∧ List.Forall₂ T ys zs := by
  induction h with
  | nil => exact ⟨[], .nil, .nil⟩
  | cons hxy _ ih =>
    obtain ⟨z, hxz, hyz⟩ := common _ _ hxy
    obtain ⟨zs, hxs, hys⟩ := ih
    exact ⟨z :: zs, .cons hxz hxs, .cons hyz hys⟩

/-- A selection from one list corresponds to what is made of the other, where the elements that are
selected are those of which something is made. -/
theorem forall₂_filter_filterMap {R : α → β → Prop} {S : α → γ → Prop} {p : α → Bool}
    {g : β → Option γ} (hit : ∀ x y, R x y → p x = true → ∃ z, g y = some z ∧ S x z)
    (miss : ∀ x y, R x y → p x = false → g y = none) {xs : List α} {ys : List β}
    (h : List.Forall₂ R xs ys) : List.Forall₂ S (xs.filter p) (ys.filterMap g) := by
  induction h with
  | nil => exact .nil
  | @cons x y xs ys hxy _ ih =>
    cases hp : p x with
    | true =>
      obtain ⟨z, hz, hs⟩ := hit x y hxy hp
      rw [List.filter_cons_of_pos hp, List.filterMap_cons_some hz]
      exact .cons hs ih
    | false =>
      rw [List.filter_cons_of_neg (by simp [hp]), List.filterMap_cons_none (miss x y hxy hp)]
      exact ih

end

namespace Manifest

variable {α : Type}

/-- In a manifest that is keyed by identity, the keys are the identities in order. -/
theorem IsKeyed.keys_eq {m : Manifest} (h : m.IsKeyed) : m.keys = m.resources.map (·.id) := by
  unfold keys resources
  rw [List.map_map]
  exact List.map_congr_left h

/-- In a manifest that is keyed by identity, no two resources have the same identity. -/
theorem IsKeyed.nodup_ids {m : Manifest} (h : m.IsKeyed) : (m.resources.map (·.id)).Nodup :=
  h.keys_eq ▸ m.distinct

/-- A change in place that leaves identities alone keeps the keys right. -/
theorem IsKeyed.map {m : Manifest} (h : m.IsKeyed) {f : Resource → Resource}
    (hf : ∀ r, (f r).id = r.id) : (m.map f).IsKeyed := by
  intro e he
  obtain ⟨e', he', rfl⟩ := List.mem_map.1 he
  rw [hf]
  exact h e' he'

/-- There are as many resources as the size says. -/
theorem length_resources (m : Manifest) : m.resources.length = m.size := List.length_map ..

/-- The manifest holds, in order and under their own identities, the resources that `f` makes of some
elements. -/
def IsCollected (f : α → Except Error (Option Resource)) (xs : List α) (m : Manifest) : Prop :=
  ∃ made : List (Option Resource), List.Forall₂ (fun x y => f x = .ok y) xs made ∧
    m.resources = made.filterMap id ∧ m.IsKeyed

variable {f : α → Except Error (Option Resource)} {xs : List α} {m : Manifest}

/-- One more resource is made and put in, or nothing is made. -/
theorem IsCollected.concat (h : IsCollected f xs m) {x : α} {y : Option Resource} (hy : f x = .ok y)
    {n : Manifest} (hn : m.insert? y = .ok n) : IsCollected f (xs ++ [x]) n := by
  obtain ⟨made, hmade, hres, hkey⟩ := h
  refine ⟨made ++ [y], List.rel_append hmade (.cons hy .nil), ?_⟩
  rw [List.filterMap_append, ← hres]
  cases y with
  | none =>
    cases hn
    exact ⟨by simp, hkey⟩
  | some r => exact ⟨resources_insert hn, hkey.insert hn⟩

/-- A manifest that is made anew holds what was made. -/
theorem collect_eq_ok (h : collect f xs = .ok m) : IsCollected f xs m := by
  refine foldlM_invariant (IsCollected f) ?_ ⟨[], .nil, rfl, isKeyed_empty⟩ h
  intro seen m x n hseen step
  obtain ⟨y, hy, hn⟩ := bind_eq_ok.1 step
  exact hseen.concat hy hn

/-- A manifest that each resource gives one resource to holds these in order. -/
theorem collect_some_eq_ok {f : α → Except Error Resource}
    (h : collect (fun x => some <$> f x) xs = .ok m) :
    List.Forall₂ (fun x r => f x = .ok r) xs m.resources ∧ m.IsKeyed := by
  obtain ⟨made, hmade, hres, hkey⟩ := collect_eq_ok h
  refine ⟨?_, hkey⟩
  rw [hres]
  clear hres h
  induction hmade with
  | nil => exact .nil
  | cons hxy _ ih =>
    obtain ⟨r, hr, rfl⟩ := map_eq_ok.1 hxy
    exact .cons hr ih

/-- A manifest that is made without any chance of failure on the way holds what is made in order. -/
theorem collect_pure_eq_ok {f : α → Option Resource}
    (h : collect (fun x => pure (f x)) xs = .ok m) :
    m.resources = xs.filterMap f ∧ m.IsKeyed := by
  obtain ⟨made, hmade, hres, hkey⟩ := collect_eq_ok h
  refine ⟨?_, hkey⟩
  rw [hres]
  clear hres h
  induction hmade with
  | nil => rfl
  | cons hxy _ ih =>
    cases hxy
    rw [List.filterMap_cons, List.filterMap_cons, ih]
    rfl

/-! ## Manifests that are made anew -/

variable {n : Manifest}

/-- A manifest is known from its entries. -/
theorem eq_of_entries_eq (h : m.entries = n.entries) : m = n := by
  cases m
  cases n
  congr

/-- A manifest that is keyed by identity is known from its resources. -/
theorem IsKeyed.eq_of_resources_eq (hm : m.IsKeyed) (hn : n.IsKeyed)
    (h : m.resources = n.resources) : m = n := by
  have entries {k : Manifest} (hk : k.IsKeyed) : k.entries = k.resources.map fun r => (r.id, r) := by
    unfold resources
    rw [List.map_map]
    exact (List.map_id' _).symm.trans (List.map_congr_left fun e he => Prod.ext (hk e he) rfl)
  exact eq_of_entries_eq (by rw [entries hm, entries hn, h])

/-- Resources with new and different identities are all put in. -/
theorem exists_collectInto {made : List (Option Resource)}
    (h : List.Forall₂ (fun x y => f x = .ok y) xs made) : ∀ {m : Manifest},
      (m.keys ++ (made.filterMap id).map (·.id)).Nodup → ∃ n, collectInto f m xs = .ok n := by
  induction h with
  | nil => exact fun {m} _ => ⟨m, rfl⟩
  | @cons x y xs made hxy _ ih =>
    intro m hnodup
    unfold collectInto at ih ⊢
    rw [List.foldlM_cons, hxy]
    cases y with
    | none => exact ih hnodup
    | some r =>
      rw [List.filterMap_cons_some (f := id) rfl, List.map_cons, List.append_cons] at hnodup
      have hnew : r.id ∉ m.keys := by
        have := (List.nodup_append.1 (List.nodup_append.1 hnodup).1).2.2
        intro hmem
        exact this _ hmem _ (List.mem_singleton.2 rfl) rfl
      have hinsert : m.insert r = .ok ⟨m.entries ++ [(r.id, r)], nodup_concat hnew⟩ := by
        unfold insert
        rw [dif_neg hnew]
        rfl
      show ∃ n, (m.insert r >>= fun m => xs.foldlM (fun m x => f x >>= m.insert?) m) = .ok n
      rw [hinsert]
      refine ih ?_
      show ((m.entries ++ [(r.id, r)]).map (·.1) ++ _).Nodup
      rw [List.map_append]
      exact hnodup

/-- What is made of elements is put in, in order and each resource under its identity, if no two resources
have the same one. -/
theorem exists_collect {made : List (Option Resource)}
    (hmade : List.Forall₂ (fun x y => f x = .ok y) xs made)
    (hnodup : ((made.filterMap id).map (·.id)).Nodup) :
    ∃ m, collect f xs = .ok m ∧ m.resources = made.filterMap id ∧ m.IsKeyed := by
  obtain ⟨m, hm⟩ : ∃ m, collect f xs = .ok m := exists_collectInto hmade (m := empty) hnodup
  obtain ⟨made', hmade', hres, hkeyed⟩ := collect_eq_ok hm
  obtain rfl : made' = made := List.right_unique_forall₂'
    (fun x y z hy hz => Except.ok.inj (hy.symm.trans hz)) hmade' hmade
  exact ⟨m, hm, hres, hkeyed⟩

/-- The same where one resource is made of every element. -/
theorem exists_collect_some {f : α → Except Error Resource} {made : List Resource}
    (hmade : List.Forall₂ (fun x r => f x = .ok r) xs made) (hnodup : (made.map (·.id)).Nodup) :
    ∃ m, collect (fun x => some <$> f x) xs = .ok m ∧ m.resources = made ∧ m.IsKeyed := by
  have hselect : (made.map some).filterMap id = made := by
    rw [List.filterMap_map]
    exact List.filterMap_some
  have hsome : List.Forall₂ (fun x y => some <$> f x = .ok y) xs (made.map some) :=
    List.forall₂_map_right_iff.2 (hmade.imp fun x r hr => map_eq_ok.2 ⟨r, hr, rfl⟩)
  have hmanifest := exists_collect hsome (hselect.symm ▸ hnodup)
  rwa [hselect] at hmanifest

/-- A manifest is made anew exactly if something is made of every element, or nothing where that is no
failure, and no two resources that are made have the same identity. -/
theorem exists_collect_iff : (∃ m, collect f xs = .ok m) ↔
    ∃ made, List.Forall₂ (fun x y => f x = .ok y) xs made ∧ ((made.filterMap id).map (·.id)).Nodup := by
  constructor
  · rintro ⟨m, hm⟩
    obtain ⟨made, hmade, hres, hkeyed⟩ := collect_eq_ok hm
    exact ⟨made, hmade, hres ▸ hkeyed.nodup_ids⟩
  · rintro ⟨made, hmade, hnodup⟩
    obtain ⟨m, hm, -⟩ := exists_collect hmade hnodup
    exact ⟨m, hm⟩

/-- The manifest that is made anew is the one that holds what is made under its own identities. -/
theorem collect_iff_isCollected : collect f xs = .ok m ↔ IsCollected f xs m := by
  refine ⟨collect_eq_ok, ?_⟩
  rintro ⟨made, hmade, hres, hkeyed⟩
  obtain ⟨n, hn, hres', hkeyed'⟩ := exists_collect hmade (hres ▸ hkeyed.nodup_ids)
  rw [hn, hkeyed'.eq_of_resources_eq hkeyed (hres'.trans hres.symm)]

/-- A manifest that is made anew of what is made of the resources of one, in which they keep their
identities, is that one changed in place. -/
theorem IsKeyed.collect_eq_map (h : m.IsKeyed) {f : Resource → Except Error (Option Resource)}
    {g : Resource → Resource} (hf : ∀ r ∈ m.resources, f r = .ok (some (g r)))
    (hid : ∀ r, (g r).id = r.id) : collect f m.resources = .ok (m.map g) := by
  refine collect_iff_isCollected.2 ⟨m.resources.map fun r => some (g r), ?_, ?_, h.map hid⟩
  · exact List.forall₂_map_right_iff.2 (List.forall₂_same.2 hf)
  · rw [resources_map, List.filterMap_map]
    exact (congrFun (List.filterMap_eq_map (f := g)) m.resources).symm

/-- A change in place that changes no resource leaves a manifest. -/
theorem map_eq_self {g : Resource → Resource} (h : ∀ r ∈ m.resources, g r = r) : m.map g = m := by
  refine eq_of_entries_eq ((List.map_congr_left fun e he => ?_).trans (List.map_id _))
  exact Prod.ext rfl (h e.2 (List.mem_map_of_mem he))

end Manifest

end ProviderAssets
