import ProviderAssets.Proofs.FixedPoint
import ProviderAssets.Proofs.Relocatable

/-!
# Moves after moves

Of two moves the last one counts: what was moved into one namespace can be moved into another one, and
that gives what a move there gives at once (`Manifest.relocate_relocate`), down to the order of fields.
Only the first namespace matters for this. If it had a slash, then a certificate that is referred to
would be read with another name after the first move.

Each part of a move takes back what the same part of the first one did, whatever the paths lead to
(`Follows.exists_common`), and the parts change different fields, so that they can be done in any order
(`follow_of_updateSub`, `place_moveInjection`).
-/

namespace ProviderAssets

open Json (Object Value)

/-! ## Changes of the metadata -/

namespace Json.Object

/-- A change of an object that is there. -/
theorem modifySub_of_some {o s : Object} {key : String} (h : sub? o key = some s) (f : Object → Object) :
    modifySub o key f = Fields.insert o key (.object (f s)) := by
  unfold modifySub
  rw [h]

/-- Of two changes of an object that is there, the second one goes on from the first one. -/
theorem modifySub_modifySub (o : Object) (key : String) (f g : Object → Object) :
    modifySub (modifySub o key f) key g = modifySub o key fun s => g (f s) := by
  cases h : sub? o key with
  | none =>
    have hnone (f : Object → Object) : modifySub o key f = o := by
      unfold modifySub
      rw [h]
    rw [hnone, hnone, hnone]
  | some s =>
    have hfirst : sub? (modifySub o key f) key = some (f s) := by
      rw [sub?_modifySub, h]
      rfl
    rw [modifySub_of_some hfirst, modifySub_of_some h, modifySub_of_some h, Fields.insert_insert]

/-- A change of an object that is there can be made before or after another field is written to. -/
theorem modifySub_insert (o : Object) {key other : String} (f : Object → Object) (v : Value)
    (hne : other ≠ key) :
    modifySub (Fields.insert o other v) key f = Fields.insert (modifySub o key f) other v := by
  have same : sub? (Fields.insert o other v) key = sub? o key := by
    unfold sub?
    rw [Fields.get?_insert, if_neg (Ne.symm hne)]
  unfold modifySub
  rw [same]
  cases h : sub? o key with
  | none => rfl
  | some s => exact (Fields.insert_comm (get?_of_sub? h) hne _ v).symm

end Json.Object

namespace Resource

/-- Of two changes of annotations that are there, the second one goes on from the first one. -/
theorem modifyAnnotations_modifyAnnotations (r : Resource) (f g : Object → Object) :
    (r.modifyAnnotations f).modifyAnnotations g = r.modifyAnnotations fun a => g (f a) := by
  unfold modifyAnnotations
  rw [updateMetadata_updateMetadata]
  congr 1
  funext m
  exact Json.Object.modifySub_modifySub ..

/-- Of two namespaces that a resource is set to, the second one counts. -/
theorem setNamespace_setNamespace (r : Resource) (first ns : String) :
    (r.setNamespace (some first)).setNamespace (some ns) = r.setNamespace (some ns) := by
  have hmetadata : (r.updateMetadata (withNamespace (some first))).updateMetadata
      (withNamespace (some ns)) = r.updateMetadata (withNamespace (some ns)) := by
    rw [updateMetadata_updateMetadata]
    congr 1
    funext m
    exact Fields.insert_insert ..
  exact congrArg (fun s : Resource => { s with id := { r.id with ns := some ns } }) hmetadata

/-- The namespace of a resource can be set before or after its annotations are changed. -/
theorem setNamespace_modifyAnnotations (r : Resource) (f : Object → Object) (ns : String) :
    (r.modifyAnnotations f).setNamespace (some ns) = (r.setNamespace (some ns)).modifyAnnotations f := by
  have hmetadata : (r.modifyAnnotations f).updateMetadata (withNamespace (some ns)) =
      (r.updateMetadata (withNamespace (some ns))).modifyAnnotations f := by
    unfold modifyAnnotations
    rw [updateMetadata_updateMetadata, updateMetadata_updateMetadata]
    congr 1
    funext m
    exact (Json.Object.modifySub_insert m f _ (by decide)).symm
  exact congrArg (fun s : Resource => { s with id := { r.id with ns := some ns } }) hmetadata

end Resource

namespace Relocation

variable {a b ns : String} {g : GroupVersionKind} {o o' : Object} {r s : Resource} {v w : Value}

/-! ## What follows -/

/-- `w` is the object `v` of a resource of some kind, where the services and the subjects that it names
have followed. -/
def Follows (ns : String) (g : GroupVersionKind) (v w : Value) : Prop :=
  (∃ rule ∈ serviceNamespaces, rule.selector.admits g = true ∧
    FieldPath.Rewrites (FieldPath.Visits .text fun _ => pure ns) rule.path v w) ∨
  (∃ rule ∈ subjects, rule.selector.admits g = true ∧
    FieldPath.Rewrites (FieldPath.Visits .object fun o => pure (moveSubject ns o)) rule.path v w) ∨
  (∀ rule ∈ serviceNamespaces ++ subjects, ¬ rule.selector.admits g = true) ∧ w = v

/-- The references of a resource follow exactly as the paths for its kind say, and its identity stays the
same. -/
theorem follow_eq_ok_iff : follow ns r = .ok s ↔
    s.id = r.id ∧ Follows ns r.id.gvk (.object r.root) (.object s.root) := by
  have nonempty (rule : FieldRule) (hrule : rule ∈ serviceNamespaces ∨ rule ∈ subjects) :
      rule.path ≠ [] := path_ne_nil rule (List.mem_append.2 hrule)
  constructor
  · intro h
    obtain ⟨rule, hrule, hadm, hfollow⟩ | ⟨rule, hrule, hadm, hfollow⟩ | ⟨hskip, hfollow⟩ :=
      follow_cases ns r
    · rw [hfollow] at h
      obtain ⟨hid, hrew⟩ := (FieldPath.update_eq_ok_iff (nonempty rule (.inl hrule))).1 h
      exact ⟨hid, .inl ⟨rule, hrule, hadm, hrew⟩⟩
    · rw [hfollow] at h
      obtain ⟨hid, hrew⟩ := (FieldPath.update_eq_ok_iff (nonempty rule (.inr hrule))).1 h
      exact ⟨hid, .inr (.inl ⟨rule, hrule, hadm, hrew⟩)⟩
    · rw [hfollow] at h
      cases h
      exact ⟨rfl, .inr (.inr ⟨hskip, rfl⟩)⟩
  · rintro ⟨hid, ⟨rule, hrule, hadm, hrew⟩ | ⟨rule, hrule, hadm, hrew⟩ | ⟨hskip, hroot⟩⟩
    · rw [follow_of_service hrule hadm]
      exact (FieldPath.update_eq_ok_iff (nonempty rule (.inl hrule))).2 ⟨hid, hrew⟩
    · rw [follow_of_subject hrule hadm]
      exact (FieldPath.update_eq_ok_iff (nonempty rule (.inr hrule))).2 ⟨hid, hrew⟩
    · rw [follow_of_not_admits hskip]
      obtain rfl : s = r := by
        cases s
        cases r
        cases hid
        cases hroot
        rfl
      rfl

/-- References follow in the same way if metadata are written. -/
theorem Follows.insert (h : Follows ns g (.object o) (.object o')) (v : Value) :
    Follows ns g (.object (Fields.insert o "metadata" v)) (.object (Fields.insert o' "metadata" v)) := by
  have further {R : Value → Value → Prop} {rule : FieldRule}
      (hrule : rule ∈ serviceNamespaces ++ subjects)
      (hrew : FieldPath.Rewrites R rule.path (.object o) (.object o')) :
      FieldPath.Rewrites R rule.path (.object (Fields.insert o "metadata" v))
        (.object (Fields.insert o' "metadata" v)) := by
    obtain ⟨seg, rest, hpath, hne⟩ := exists_path_eq_cons hrule
    rw [hpath] at hrew ⊢
    exact FieldPath.InField.insert hrew (Ne.symm hne) v
  obtain ⟨rule, hrule, hadm, h⟩ | ⟨rule, hrule, hadm, h⟩ | ⟨hskip, heq⟩ := h
  · exact .inl ⟨rule, hrule, hadm, further (List.mem_append_left _ hrule) h⟩
  · exact .inr (.inl ⟨rule, hrule, hadm, further (List.mem_append_right _ hrule) h⟩)
  · cases heq
    exact .inr (.inr ⟨hskip, rfl⟩)

/-- Of two namespaces that a text is replaced by, the second one counts. -/
theorem visits_text_common (h : FieldPath.Visits .text (fun _ => pure a) v w) (b : String) :
    ∃ z, FieldPath.Visits .text (fun _ => pure b) v z ∧ FieldPath.Visits .text (fun _ => pure b) w z := by
  obtain ⟨old, moved, hold, -, rfl⟩ := h
  exact ⟨.string b, ⟨old, b, hold, rfl, rfl⟩, moved, b, rfl, rfl, rfl⟩

/-- The same of a subject that is moved. -/
theorem visits_object_common (h : FieldPath.Visits .object (fun o => pure (moveSubject a o)) v w)
    (b : String) : ∃ z, FieldPath.Visits .object (fun o => pure (moveSubject b o)) v z ∧
      FieldPath.Visits .object (fun o => pure (moveSubject b o)) w z := by
  obtain ⟨old, moved, hold, hmoved, rfl⟩ := h
  cases hmoved
  have hagain : Value.object (moveSubject b old) = .object (moveSubject b (moveSubject a old)) := by
    rw [moveSubject_moveSubject]
  exact ⟨_, ⟨old, _, hold, rfl, rfl⟩, _, _, rfl, rfl, hagain⟩

/-- References that followed into one namespace follow into another one as if they had not. -/
theorem Follows.exists_common (h : Follows a g v w) (b : String) :
    ∃ z, Follows b g v z ∧ Follows b g w z := by
  obtain ⟨rule, hrule, hadm, h⟩ | ⟨rule, hrule, hadm, h⟩ | ⟨hskip, rfl⟩ := h
  · have common (x y : Value) (hxy : FieldPath.Visits .text (fun _ => pure a) x y) :=
      visits_text_common hxy b
    obtain ⟨z, hv, hw⟩ := h.exists_common common
    exact ⟨z, .inl ⟨rule, hrule, hadm, hv⟩, .inl ⟨rule, hrule, hadm, hw⟩⟩
  · have common (x y : Value) (hxy : FieldPath.Visits .object (fun o => pure (moveSubject a o)) x y) :=
      visits_object_common hxy b
    obtain ⟨z, hv, hw⟩ := h.exists_common common
    exact ⟨z, .inr (.inl ⟨rule, hrule, hadm, hv⟩), .inr (.inl ⟨rule, hrule, hadm, hw⟩)⟩
  · exact ⟨w, .inr (.inr ⟨hskip, rfl⟩), .inr (.inr ⟨hskip, rfl⟩)⟩

/-- An object stays an object. -/
theorem Follows.exists_object (h : Follows ns g (.object o) w) : ∃ o', w = .object o' := by
  have further {R : Value → Value → Prop} {rule : FieldRule}
      (hrule : rule ∈ serviceNamespaces ++ subjects)
      (hrew : FieldPath.Rewrites R rule.path (.object o) w) : ∃ o', w = .object o' := by
    obtain ⟨seg, rest, hpath, -⟩ := exists_path_eq_cons hrule
    rw [hpath] at hrew
    obtain ⟨-, o', -, rfl⟩ := FieldPath.InField.exists_object hrew
    exact ⟨o', rfl⟩
  obtain ⟨rule, hrule, -, h⟩ | ⟨rule, hrule, -, h⟩ | ⟨-, rfl⟩ := h
  · exact further (List.mem_append_left _ hrule) h
  · exact further (List.mem_append_right _ hrule) h
  · exact ⟨o, rfl⟩

/-- The references of a resource that followed into one namespace follow into another one as if they had
not. -/
theorem follow_follow (h : follow a r = .ok s) (b : String) :
    ∃ t, follow b r = .ok t ∧ follow b s = .ok t := by
  obtain ⟨hid, hroot⟩ := follow_eq_ok_iff.1 h
  obtain ⟨z, hr, hs⟩ := hroot.exists_common b
  obtain ⟨root, rfl⟩ := hr.exists_object
  refine ⟨{ r with root }, follow_eq_ok_iff.2 ⟨rfl, hr⟩, follow_eq_ok_iff.2 ⟨hid.symm, ?_⟩⟩
  rw [hid]
  exact hs

/-! ## References that follow before or after other changes -/

/-- What follows leaves the metadata. -/
theorem metadata?_follow (h : follow ns r = .ok s) : s.metadata? = r.metadata? := by
  obtain ⟨r', h₁, h₂⟩ := bind_eq_ok.1 h
  exact metadata?_of_updates h₁ h₂

/-- References can follow before or after the metadata are changed. -/
theorem follow_updateMetadata (h : follow ns r = .ok s) (f : Object → Object) :
    follow ns (r.updateMetadata f) = .ok (s.updateMetadata f) := by
  obtain ⟨hid, hroot⟩ := follow_eq_ok_iff.1 h
  have hmetadata : Json.Object.sub? s.root "metadata" = Json.Object.sub? r.root "metadata" :=
    metadata?_follow h
  refine follow_eq_ok_iff.2 ⟨hid, ?_⟩
  unfold Resource.updateMetadata Json.Object.updateSub
  rw [hmetadata]
  exact hroot.insert _

/-- References follow in the same way whatever a resource is called, as long as its kind is the same. -/
theorem follow_withId (h : follow ns r = .ok s) {id : ResourceId} (hgvk : id.gvk = r.id.gvk) :
    follow ns { r with id } = .ok { s with id } := by
  obtain ⟨-, hroot⟩ := follow_eq_ok_iff.1 h
  refine follow_eq_ok_iff.2 ⟨rfl, ?_⟩
  rw [hgvk]
  exact hroot

/-- References can follow before or after a resource is placed. -/
theorem follow_place (h : follow ns r = .ok s) (a : String) :
    follow ns (place a r) = .ok (place a s) := by
  have hid := id_follow h
  have hnamespaced : isNamespaced s = isNamespaced r := isNamespaced_congr (by rw [hid])
  unfold place
  rw [hnamespaced]
  split
  · have hplaced := follow_updateMetadata h (Resource.withNamespace (some a))
    unfold Resource.setNamespace
    dsimp only
    rw [show (s.updateMetadata (Resource.withNamespace (some a))).id = r.id from hid]
    exact follow_withId hplaced rfl
  · exact h

/-- References can follow before or after the certificate that a resource refers to is moved. -/
theorem follow_moveInjection (h : follow ns r = .ok s) (a : String) :
    follow ns (moveInjection a r) = .ok (moveInjection a s) := by
  have htext : s.injectionText? = r.injectionText? := by
    unfold Resource.injectionText? Resource.annotations?
    rw [metadata?_follow h]
  unfold moveInjection
  rw [htext]
  split
  · exact follow_updateMetadata h _
  · exact h

/-- A move takes the references along, places the resource, and then moves the certificate that it refers
to. -/
theorem move_eq_ok_iff : move ns r = .ok s ↔
    ∃ t, follow ns r = .ok t ∧ moveInjection ns (place ns t) = s := by
  rw [move_eq, map_eq_ok]
  constructor
  · rintro ⟨u, hu, rfl⟩
    obtain ⟨t, ht⟩ := exists_follow_iff.2 ((isInShape_place ns r).1 (exists_follow_iff.1 ⟨u, hu⟩))
    obtain rfl : place ns t = u := Except.ok.inj ((follow_place ht ns).symm.trans hu)
    exact ⟨t, ht, rfl⟩
  · rintro ⟨t, ht, rfl⟩
    exact ⟨place ns t, follow_place ht ns, rfl⟩

/-! ## Moves that are made one after the other -/

/-- Of two places of a resource the second one counts. -/
theorem place_place (a b : String) (r : Resource) : place b (place a r) = place b r := by
  have hnamespaced : isNamespaced (place a r) = isNamespaced r :=
    isNamespaced_congr (by rw [place_id])
  by_cases h : isNamespaced r = true
  · have hplace (r : Resource) (h : isNamespaced r = true) (ns : String) :
        place ns r = r.setNamespace (some ns) := if_pos h
    rw [hplace _ (hnamespaced.trans h), hplace r h, hplace r h, Resource.setNamespace_setNamespace]
  · have hplace : place a r = r := if_neg h
    rw [hplace]

/-- A resource can be placed before or after its annotations are changed. -/
theorem place_modifyAnnotations (ns : String) (r : Resource) (f : Object → Object) :
    place ns (r.modifyAnnotations f) = (place ns r).modifyAnnotations f := by
  have hnamespaced : isNamespaced (r.modifyAnnotations f) = isNamespaced r := isNamespaced_congr rfl
  unfold place
  rw [hnamespaced]
  split
  · exact Resource.setNamespace_modifyAnnotations ..
  · rfl

/-- The certificate that a resource refers to is moved. -/
theorem moveInjection_of_some {ref : InjectionReference}
    (h : r.injectionText?.bind InjectionReference.ofText? = some ref) :
    moveInjection ns r =
      r.modifyAnnotations (Fields.insert · Annotation.injectFrom (.string { ref with ns }.text)) := by
  unfold moveInjection
  rw [h]

/-- A resource can be placed before or after the certificate that it refers to is moved. -/
theorem place_moveInjection (a b : String) (r : Resource) :
    place b (moveInjection a r) = moveInjection a (place b r) := by
  have htext : (place b r).injectionText? = r.injectionText? :=
    injectionText?_congr ((metadataField?_place b r "annotations").trans (if_neg (by simp)))
  cases h : r.injectionText?.bind InjectionReference.ofText? with
  | none => rw [moveInjection_of_none h, moveInjection_of_none (htext ▸ h)]
  | some ref =>
    rw [moveInjection_of_some h, moveInjection_of_some (htext ▸ h), place_modifyAnnotations]

/-- Of two namespaces that the certificate is moved to the second one counts, if the first one has no
slash. -/
theorem moveInjection_moveInjection (ha : '/' ∉ a.toList) (b : String) (r : Resource) :
    moveInjection b (moveInjection a r) = moveInjection b r := by
  cases h : r.injectionText?.bind InjectionReference.ofText? with
  | none => rw [moveInjection_of_none h]
  | some ref =>
    have hread : InjectionReference.ofText? { ref with ns := a }.text = some { ref with ns := a } :=
      InjectionReference.ofText?_eq_some_iff.2 ⟨ha, rfl⟩
    have hmoved : (moveInjection a r).injectionText?.bind InjectionReference.ofText? =
        some { ref with ns := a } := by
      rw [injectionText?_moveInjection h, Option.bind_some, hread]
    rw [moveInjection_of_some hmoved, moveInjection_of_some h, moveInjection_of_some h,
      Resource.modifyAnnotations_modifyAnnotations]
    congr 1
    funext annotations
    exact Fields.insert_insert ..

/-- A resource that was moved into a namespace without a slash can be moved into another one, with the
same result as if it had not been moved before. -/
theorem move_move (h : move a r = .ok s) (ha : '/' ∉ a.toList) (b : String) :
    ∃ t, move b r = .ok t ∧ move b s = .ok t := by
  -- What follows is compared first; place and certificate of the first move are still around it then.
  obtain ⟨u, hu, rfl⟩ := move_eq_ok_iff.1 h
  obtain ⟨t, hr, ht⟩ := follow_follow hu b
  have hs : follow b (moveInjection a (place a u)) = .ok (moveInjection a (place a t)) :=
    follow_moveInjection (follow_place ht a) a
  have hmoved : moveInjection b (place b (moveInjection a (place a t))) =
      moveInjection b (place b t) := by
    calc moveInjection b (place b (moveInjection a (place a t)))
        = moveInjection b (moveInjection a (place b (place a t))) := by rw [place_moveInjection]
      _ = moveInjection b (place b (place a t)) := moveInjection_moveInjection ha b _
      _ = moveInjection b (place b t) := by rw [place_place]
  exact ⟨_, move_eq_ok_iff.2 ⟨t, hr, rfl⟩, move_eq_ok_iff.2 ⟨_, hs, hmoved⟩⟩

/-- The same of resources that are moved together. -/
theorem exists_moves {rs ss : List Resource} (h : List.Forall₂ (fun r s => move a r = .ok s) rs ss)
    (ha : '/' ∉ a.toList) (b : String) :
    ∃ ts, List.Forall₂ (fun r t => move b r = .ok t) rs ts ∧
      List.Forall₂ (fun s t => move b s = .ok t) ss ts := by
  have common (r s : Resource) (hrs : move a r = .ok s) : ∃ t, move b r = .ok t ∧ move b s = .ok t :=
    move_move hrs ha b
  exact exists_forall₂_common common h

/-- Resources that are different in one namespace are different in any other one. -/
theorem nodup_movedId {rs : List Resource} (h : (rs.map (movedId a)).Nodup) (b : String) :
    (rs.map (movedId b)).Nodup := by
  refine List.pairwise_map.2 ((List.pairwise_map.1 h).imp fun {r s} hne heq => hne ?_)
  unfold movedId at heq ⊢
  simp only [ResourceId.mk.injEq] at heq ⊢
  obtain ⟨hgvk, hname, hns⟩ := heq
  have hnamespaced : isNamespaced s = isNamespaced r := isNamespaced_congr hgvk.symm
  refine ⟨hgvk, hname, ?_⟩
  rw [hnamespaced] at hns ⊢
  split
  · rfl
  · case isFalse hcluster => rwa [if_neg hcluster, if_neg hcluster] at hns

end Relocation

namespace Manifest

variable {a : String} {m m' : Manifest}

/-- Resources that were moved into a namespace without a slash can be moved into any other one, and are
there, field by field, what they would be if they had been moved there at once. In particular, a second
move into the same namespace changes nothing. -/
theorem relocate_relocate (h : m.relocate a = .ok m') (ha : '/' ∉ a.toList) :
    (∀ b, ∃ n, m.relocate b = .ok n ∧ m'.relocate b = .ok n) ∧ m'.relocate a = .ok m' := by
  have last (b : String) : ∃ n, m.relocate b = .ok n ∧ m'.relocate b = .ok n := by
    obtain ⟨hmoved, -⟩ := relocate_eq_ok h
    obtain ⟨ts, hts, hts'⟩ := Relocation.exists_moves hmoved ha b
    -- Both moves give the same resources, whose identities differ as they did after the first move.
    have hnodup : (ts.map (·.id)).Nodup := by
      rw [Relocation.map_id_of_move hts]
      have hkeys : m'.keys.Nodup := m'.distinct
      rw [Relocation.keys_collect_move h] at hkeys
      exact Relocation.nodup_movedId hkeys b
    obtain ⟨n, hn, hres, hkeyed⟩ := exists_collect_some hts hnodup
    obtain ⟨n', hn', hres', hkeyed'⟩ := exists_collect_some hts' hnodup
    obtain rfl : n' = n := hkeyed'.eq_of_resources_eq hkeyed (hres'.trans hres.symm)
    exact ⟨n', hn, hn'⟩
  refine ⟨last, ?_⟩
  obtain ⟨n, hn, hn'⟩ := last a
  obtain rfl : m' = n := Except.ok.inj (h.symm.trans hn)
  exact hn'

/-- A definition that asks for the authority of a certificate by a text with two slashes, and an
account. -/
def twoSlashes : Manifest :=
  ofDistinct [.definitionFor "widgets.example.com" (.string "a/serving/b") "webhook",
    .accountIn "c" "manager"] (by decide)

/-- The definition and the account can be moved twice, and once would have been enough. -/
theorem relocate_twoSlashes : ∃ m' n, twoSlashes.relocate "first" = .ok m' ∧
    m'.relocate "first" = .ok m' ∧ twoSlashes.relocate "second" = .ok n ∧
    m'.relocate "second" = .ok n := by
  obtain ⟨m', hm', -⟩ := exists_ok_of_toOption (x := twoSlashes.relocate "first") (f := size) (b := 2)
    (by decide +kernel)
  obtain ⟨hlast, hagain⟩ := relocate_relocate hm' (by decide +kernel)
  obtain ⟨n, hn, hn'⟩ := hlast "second"
  exact ⟨m', n, hm', hagain, hn, hn'⟩

/-- After a move into a namespace with a slash, the certificate that the definition refers to has another
name, and the second move does not take that back. -/
theorem relocate_after_slash : ∃ m' n n', twoSlashes.relocate "fir/st" = .ok m' ∧
    twoSlashes.relocate "second" = .ok n ∧ m'.relocate "second" = .ok n' ∧ n ≠ n' := by
  have differ : (do
      let m' ← twoSlashes.relocate "fir/st"
      let n ← twoSlashes.relocate "second"
      let n' ← m'.relocate "second"
      return decide (n = n')) = .ok false := eq_ok_of_toOption (by decide +kernel)
  obtain ⟨m', hm', differ⟩ := bind_eq_ok.1 differ
  obtain ⟨n, hn, differ⟩ := bind_eq_ok.1 differ
  obtain ⟨n', hn', differ⟩ := bind_eq_ok.1 differ
  exact ⟨m', n, n', hm', hn, hn', of_decide_eq_false (Except.ok.inj differ)⟩

end Manifest

end ProviderAssets
