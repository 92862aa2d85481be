import Mathlib.Data.List.Perm.Basic
import ProviderAssets.Proofs.LastMove
import ProviderAssets.Proofs.Locality
import ProviderAssets.Proofs.Outcomes

/-!
# Stages that do not depend on each other

Labels can be put on resources before or after some are excluded, moved, or given what the platform
wants, and resources can be excluded before or after they are given that or are split. No stage
changes what another one decides on: whether a resource is excluded is known from its identity, and
what is read along the paths to references is next to the metadata, where labels are.

The labels are a field of the metadata, and so are the namespace and the annotations. Where two of them
are made anew, they stand in the order in which they were made, so that the results of the two orders
are the same only up to the order of these fields (`Resource.Reorders`). Failures are the same as well
(`Agree`). The main statement is `Manifest.stages_commute`.
-/

namespace ProviderAssets

open Json (Object Value)

/-! ## Outcomes -/

/-- Two computations fail with the same error, or both succeed, with results that are related. -/
abbrev Agree {ε α β : Type} (R : α → β → Prop) : Except ε α → Except ε β → Prop := OutcomeRel Eq R

/-! ## Fields in another order -/

namespace Fields

variable {α : Type}

/-- The same fields, in any order. -/
structure Reorders (f g : Fields α) : Prop where
  /-- The entries are the same. -/
  perm : f.Perm g
  /-- Every key has the same value. -/
  get?_eq : ∀ key, get? g key = get? f key

/-- Fields are in some order. -/
protected theorem Reorders.refl (f : Fields α) : Reorders f f := ⟨.refl f, fun _ => rfl⟩

/-- Two fields can be written in any order. -/
theorem reorders_insert_insert {key other : String} (hne : other ≠ key) (v w : α) (f : Fields α) :
    Reorders (insert (insert f key v) other w) (insert (insert f other w) key v) := by
  constructor
  · induction f with
    | nil =>
      simp only [insert, if_neg hne, if_neg hne.symm]
      exact .swap _ _ _
    | cons e f ih =>
      obtain ⟨k, x⟩ := e
      by_cases hkey : k = key
      · subst hkey
        simp only [insert, if_pos, if_neg hne.symm]
        exact .refl _
      · by_cases hother : k = other
        · subst hother
          simp only [insert, if_pos, if_neg hkey]
          exact .refl _
        · simp only [insert, if_neg hkey, if_neg hother]
          exact ih.cons _
  · intro k
    simp only [get?_insert]
    by_cases hkey : k = key
    · rw [if_pos hkey, if_pos hkey, if_neg (hkey ▸ hne.symm)]
    · rw [if_neg hkey, if_neg hkey]

end Fields

/-! ## Resources with labels -/

namespace Resource

variable {r s : Resource} {o : Object} {p : Provider}

/-- `s` is `r` with the fields of its metadata in some order. -/
def Reorders (r s : Resource) : Prop :=
  ∃ o o', r.metadata? = some o ∧ Fields.Reorders o o' ∧ s = r.updateMetadata fun _ => o'

/-- The identity stays. -/
theorem Reorders.id_eq (h : r.Reorders s) : s.id = r.id := by
  obtain ⟨-, o', -, -, rfl⟩ := h
  rfl

/-- Two changes of the metadata give the same up to the order of fields if they do. -/
theorem reorders_updateMetadata {f g : Object → Object} (r : Resource)
    (h : Fields.Reorders (f (r.metadata?.getD [])) (g (r.metadata?.getD []))) :
    (r.updateMetadata f).Reorders (r.updateMetadata g) := by
  refine ⟨_, _, metadata?_updateMetadata r f, h, ?_⟩
  rw [updateMetadata_updateMetadata]
  rfl

/-- The fields of the metadata of a resource with labels are in some order. -/
theorem reorders_label_self (p : Provider) (r : Resource) : (r.label p).Reorders (r.label p) :=
  reorders_updateMetadata r (.refl _)

/-- A field of the metadata can be written before or after labels, up to the order of fields. -/
theorem reorders_label_updateMetadata (p : Provider) (r : Resource) {key : String}
    (hne : key ≠ "labels") (v : Object → Value)
    (hv : ∀ m x, v (Fields.insert m "labels" x) = v m) :
    ((r.label p).updateMetadata fun m => Fields.insert m key (v m)).Reorders
      ((r.updateMetadata fun m => Fields.insert m key (v m)).label p) := by
  unfold label updateLabels
  rw [updateMetadata_updateMetadata, updateMetadata_updateMetadata]
  refine reorders_updateMetadata r ?_
  have same (m : Object) (x : Value) :
      Json.Object.sub? (Fields.insert m key x) "labels" = Json.Object.sub? m "labels" := by
    unfold Json.Object.sub?
    rw [Fields.get?_insert, if_neg hne.symm]
  unfold Json.Object.updateSub
  rw [same, hv]
  exact Fields.reorders_insert_insert hne _ _ _

/-- Annotations can be changed before or after labels are put on, up to the order of fields. -/
theorem reorders_label_updateAnnotations (p : Provider) (r : Resource) (f : Object → Object) :
    ((r.label p).updateAnnotations f).Reorders ((r.updateAnnotations f).label p) := by
  refine reorders_label_updateMetadata p r (show "annotations" ≠ "labels" by decide) _ fun m x => ?_
  unfold Json.Object.sub?
  rw [Fields.get?_insert, if_neg (by decide)]

/-- Where they are changed only if there are any, this does not even change the order. -/
theorem label_modifyAnnotations (p : Provider) (r : Resource) (f : Object → Object) :
    (r.modifyAnnotations f).label p = (r.label p).modifyAnnotations f := by
  unfold label updateLabels modifyAnnotations
  rw [updateMetadata_updateMetadata, updateMetadata_updateMetadata]
  congr 1
  funext m
  have same : Json.Object.sub? (Json.Object.modifySub m "annotations" f) "labels" =
      Json.Object.sub? m "labels" := by
    unfold Json.Object.sub?
    rw [Json.Object.get?_modifySub_of_ne m f (by decide)]
  unfold Json.Object.updateSub
  rw [same]
  exact (Json.Object.modifySub_insert m f _ (by decide)).symm

/-- What the platform wants of a resource can be done before or after labels are put on it. -/
theorem forPlatform_label (bound : Bindings) (p : Provider) (r : Resource) :
    Option.Rel (fun s t => s.Reorders (t.label p)) ((r.label p).forPlatform bound)
      (r.forPlatform bound) := by
  have hannotations : ((r.label p).modifyAnnotations requestBundle).Reorders
      ((r.modifyAnnotations requestBundle).label p) := by
    rw [← label_modifyAnnotations]
    exact reorders_label_self p _
  have hself := reorders_label_self p r
  unfold forPlatform
  rw [show (r.label p).kind = r.kind from rfl, show (r.label p).name = r.name from rfl]
  split
  case h_4 =>
    split
    · exact .some (reorders_label_updateAnnotations p r _)
    · exact .some hself
  case h_5 | h_6 | h_7 => exact .none
  all_goals first | exact .some hannotations | exact .some hself

end Resource

/-! ## Moves of resources with labels -/

namespace FieldPath

variable {α : Type} {t : Target α} {f : α → ExceptT Error Id α} {fault : String → String → Error}

/-- Whether an update succeeds, and how it fails, depends on the field that the path starts with alone. -/
theorem map_updateFrom_congr {seg : Segment} {rest : FieldPath} {o o' : Object}
    (same : Fields.get? o' seg.name = Fields.get? o seg.name) :
    (fun _ => ()) <$> updateFrom (m := Id) t f fault (seg :: rest) o' =
      (fun _ => ()) <$> updateFrom (m := Id) t f fault (seg :: rest) o := by
  cases seg with
  | field name =>
    have same : Fields.get? o' name = Fields.get? o name := same
    unfold updateFrom
    rw [same]
    cases Fields.get? o name with
    | none => rfl
    | some v => simp only [← comp_map]; rfl
  | items name =>
    have same : Fields.get? o' name = Fields.get? o name := same
    unfold updateFrom
    rw [same]
    split
    · rfl
    · rfl
    · simp only [← comp_map]; rfl
    · rfl

/-- Failures of computations are the same in both ways to see them. -/
theorem map_unit_of_mapT {β : Type} {x y : ExceptT Error Id β}
    (h : (fun _ => ()) <$> x = (fun _ => ()) <$> y) :
    Functor.map (f := Except Error) (fun _ => ()) x =
      Functor.map (f := Except Error) (fun _ => ()) y := by
  cases x <;> cases y <;> exact h

/-- The same of an update of a resource. -/
theorem map_update_congr {path : FieldPath} {r s : Resource} (hid : s.id = r.id) (hpath : path ≠ [])
    (same : ∀ seg ∈ path.head?, Fields.get? s.root seg.name = Fields.get? r.root seg.name) :
    (fun _ => ()) <$> path.update (m := Id) t f s = (fun _ => ()) <$> path.update (m := Id) t f r := by
  obtain ⟨seg, rest, rfl⟩ := List.exists_cons_of_ne_nil hpath
  have hroot {s : Resource} : (fun _ => ()) <$> update (m := Id) (seg :: rest) t f s =
      (fun _ => ()) <$> updateFrom (m := Id) t f
        (fun expected field => .malformed s.id (.shape expected field (text (seg :: rest))))
        (seg :: rest) s.root := by
    unfold update
    exact map_bind ..
  rw [hroot, hroot, hid]
  exact map_updateFrom_congr (same seg rfl)

end FieldPath

namespace Relocation

variable {ns : String} {r s : Resource} {p : Provider}

/-- Whether references can follow, and how they fail, does not depend on the metadata. -/
theorem map_follow_congr (hid : s.id = r.id)
    (same : ∀ key, key ≠ "metadata" → Fields.get? s.root key = Fields.get? r.root key) :
    (fun _ => ()) <$> follow ns s = (fun _ => ()) <$> follow ns r := by
  have head {rule : FieldRule} (hrule : rule ∈ serviceNamespaces ++ subjects) :
      ∀ seg ∈ rule.path.head?, Fields.get? s.root seg.name = Fields.get? r.root seg.name :=
    fun seg hseg => same _ (head_ne_metadata hrule hseg)
  obtain ⟨rule, hrule, hadm, hfollow⟩ | ⟨rule, hrule, hadm, hfollow⟩ | ⟨hskip, hfollow⟩ :=
    follow_cases ns r
  · have hmem := List.mem_append_left subjects hrule
    rw [hfollow, follow_of_service hrule (hid ▸ hadm)]
    exact FieldPath.map_unit_of_mapT
      (FieldPath.map_update_congr hid (path_ne_nil rule hmem) (head hmem))
  · have hmem := List.mem_append_right serviceNamespaces hrule
    rw [hfollow, follow_of_subject hrule (hid ▸ hadm)]
    exact FieldPath.map_unit_of_mapT
      (FieldPath.map_update_congr hid (path_ne_nil rule hmem) (head hmem))
  · rw [hfollow, follow_of_not_admits (hid ▸ hskip)]
    rfl

/-- Whether a resource can be moved, and how that fails, does not depend on its labels. -/
theorem map_move_label (ns : String) (p : Provider) (r : Resource) :
    (fun _ => ()) <$> move ns (r.label p) = (fun _ => ()) <$> move ns r := by
  rw [move_eq, move_eq, ← comp_map, ← comp_map]
  refine map_follow_congr (by rw [place_id, place_id]; rfl) fun key hkey => ?_
  rw [get?_root_place ns _ hkey, get?_root_place ns _ hkey]
  exact Resource.get?_root_updateMetadata r _ hkey

/-- The certificate that a resource refers to can be moved before or after labels are put on it. -/
theorem label_moveInjection (ns : String) (p : Provider) (r : Resource) :
    (moveInjection ns r).label p = moveInjection ns (r.label p) := by
  have htext : (r.label p).injectionText? = r.injectionText? :=
    injectionText?_congr (Resource.metadataField?_updateLabels r _ (by decide))
  unfold moveInjection
  rw [htext]
  split
  · exact Resource.label_modifyAnnotations p r _
  · rfl

/-- A resource can be placed before or after labels are put on it, up to the order of fields. -/
theorem reorders_place_label (ns : String) (p : Provider) (r : Resource) :
    (place ns (r.label p)).Reorders ((place ns r).label p) := by
  have hnamespaced : isNamespaced (r.label p) = isNamespaced r := isNamespaced_congr rfl
  unfold place
  rw [hnamespaced]
  split
  · obtain ⟨o, o', ho, hreorders, heq⟩ := Resource.reorders_label_updateMetadata p r
      (show "namespace" ≠ "labels" by decide) (fun _ => .string ns) fun _ _ => rfl
    refine ⟨o, o', ho, hreorders, ?_⟩
    exact congrArg (fun s : Resource => { s with id := { r.id with ns := some ns } }) heq
  · exact Resource.reorders_label_self p r

/-- Labels can be put on a resource before or after it is moved, up to the order of fields. -/
theorem agree_move_label (ns : String) (p : Provider) (r : Resource) :
    Agree (fun s t => s.Reorders (t.label p)) (move ns (r.label p)) (move ns r) := by
  refine .of_map_unit (map_move_label ns p r) fun s t hs ht => ?_
  obtain ⟨u, hu, rfl⟩ := move_eq_ok_iff.1 ht
  obtain ⟨u', hu', rfl⟩ := move_eq_ok_iff.1 hs
  obtain rfl : u.label p = u' := Except.ok.inj ((follow_updateMetadata hu _).symm.trans hu')
  rw [← place_moveInjection, ← place_moveInjection, ← label_moveInjection]
  exact reorders_place_label ns p (moveInjection ns u)

end Relocation

/-! ## Manifests -/

namespace Manifest

variable {R : Resource → Resource → Prop} {α : Type} {f g : α → Except Error (Option Resource)}
  {xs : List α} {m n : Manifest} {r s : Resource}

/-- Two manifests have the same keys in the same order, with resources that are related. -/
def Corresponds (R : Resource → Resource → Prop) (m n : Manifest) : Prop :=
  List.Forall₂ (fun e f => f.1 = e.1 ∧ R e.2 f.2) m.entries n.entries

/-- The keys are the same. -/
theorem Corresponds.keys_eq (h : Corresponds R m n) : n.keys = m.keys := by
  have hentries : ∀ {es fs : List (ResourceId × Resource)},
      List.Forall₂ (fun e f => f.1 = e.1 ∧ R e.2 f.2) es fs → fs.map (·.1) = es.map (·.1) := by
    intro es fs h
    induction h with
    | nil => rfl
    | cons he _ ih => rw [List.map_cons, List.map_cons, he.1, ih]
  exact hentries h

/-- Related resources with the same identity can both be put in, or neither can be. -/
theorem Corresponds.insert (h : Corresponds R m n) (hrs : R r s) (hid : s.id = r.id) :
    Agree (Corresponds R) (m.insert r) (n.insert s) := by
  by_cases hkey : r.id ∈ m.keys
  · rw [insert_eq_error.2 ⟨hkey, rfl⟩, insert_eq_error.2 ⟨hid ▸ h.keys_eq ▸ hkey, rfl⟩, hid]
    exact .error rfl
  · unfold Manifest.insert
    rw [dif_neg hkey, dif_neg (hid ▸ h.keys_eq ▸ hkey)]
    exact .ok (List.rel_append h (.cons ⟨hid, hrs⟩ .nil))

/-- Manifests that are made anew of resources that are related in the same way fail in the same way, or
correspond. -/
theorem agree_collect (hid : ∀ r s, R r s → s.id = r.id)
    (h : ∀ x ∈ xs, Agree (Option.Rel R) (f x) (g x)) :
    Agree (Corresponds R) (collect f xs) (collect g xs) := by
  refine OutcomeRel.foldlM (R := Corresponds R) (List.forall₂_same.2 fun x hx m n hmn => ?_) .nil
  refine (h x hx).bind fun y z hyz => ?_
  cases hyz with
  | some hrs => exact hmn.insert hrs (hid _ _ hrs)
  | none => exact .ok hmn

/-- Of resources that are changed in place first, a manifest is made as of what they are changed into. -/
theorem collect_resources_map (f : Resource → Except Error (Option Resource))
    (g : Resource → Resource) (m : Manifest) :
    collect f (m.map g).resources = collect (fun r => f (g r)) m.resources := by
  unfold collect collectInto
  rw [resources_map, List.foldlM_map]

/-- Resources can be changed in place on one side. -/
theorem Corresponds.map_right {g : Resource → Resource}
    (h : Corresponds (fun r s => R r (g s)) m n) : Corresponds R m (n.map g) :=
  List.forall₂_map_right_iff.2 h

/-- Labels can be put on resources before or after a manifest is made of them anew, if each of them
allows for it. -/
theorem agree_collect_label {f : Resource → Except Error (Option Resource)} (p : Provider)
    (h : ∀ r ∈ m.resources,
      Agree (Option.Rel fun s t => s.Reorders (t.label p)) (f (r.label p)) (f r)) :
    Agree (Corresponds Resource.Reorders) (collect f (m.label p).resources)
      ((·.label p) <$> collect f m.resources) := by
  rw [label, collect_resources_map]
  have hcollect := agree_collect (fun r s hrs => hrs.id_eq) h
  exact hcollect.map_right fun a b hab => hab.map_right

/-- Resources can be left out before or after a change in place that does not matter for it. -/
theorem filter_map_comm {q : Resource → Bool} {g : Resource → Resource} (h : ∀ r, q (g r) = q r)
    (m : Manifest) : (m.map g).filter q = (m.filter q).map g := by
  have hkeep : (fun e : ResourceId × Resource => q e.2) ∘
      (fun e : ResourceId × Resource => (e.1, g e.2)) = fun e => q e.2 := funext fun e => h e.2
  refine eq_of_entries_eq ?_
  show (m.entries.map fun e => (e.1, g e.2)).filter (fun e => q e.2) =
    (m.entries.filter fun e => q e.2).map fun e => (e.1, g e.2)
  rw [List.filter_map, hkeep]

/-- Resources can be excluded before or after the platform's certificates are used, whatever the secrets
that services are bound to. -/
theorem exclude_forPlatform (h : m.IsKeyed) (e : Exclusion) (bound : Bindings) :
    (m.exclude e).forPlatform bound = (·.exclude e) <$> m.forPlatform bound := by
  obtain ⟨n, hn⟩ := h.exists_forPlatform bound
  obtain ⟨n', hn'⟩ := (h.filter (!e.drops ·)).exists_forPlatform bound
  obtain ⟨hres, hkeyed⟩ := collect_pure_eq_ok hn
  obtain ⟨hres', hkeyed'⟩ := collect_pure_eq_ok hn'
  have hdrops {r s : Resource} (hs : r.forPlatform bound = some s) : e.drops s = e.drops r := by
    have hid := (Resource.reannotated_forPlatform hs).id
    unfold Exclusion.drops Resource.kind Resource.name
    rw [hid]
  have hselect (rs : List Resource) :
      (rs.filter (!e.drops ·)).filterMap (Resource.forPlatform bound) =
        (rs.filterMap (Resource.forPlatform bound)).filter (!e.drops ·) := by
    rw [List.filterMap_filter, List.filter_filterMap]
    refine List.filterMap_congr fun r _ => ?_
    cases hs : r.forPlatform bound with
    | none => simp
    | some s => simp [hdrops hs, Option.filter]
  have hsame : n' = n.exclude e := by
    refine hkeyed'.eq_of_resources_eq (hkeyed.filter _) ?_
    rw [hres', resources_filter, hselect, ← hres, exclude, resources_filter]
  rw [hn, show (m.exclude e).forPlatform bound = .ok n' from hn', hsame]
  rfl

/-- Stages that do not depend on each other can be done in any order. For resources under their
identities, excluding some of them and labelling the others gives the same in both orders, and so do
excluding and giving the platform what it wants, where the bindings of services are given. What is split
off as the core is the same whether resources are excluded before or after that. Labels can also be put
on before or after a move, and before or after the platform is given what it wants: both orders fail
with the same error, or they give the same up to the order of fields in the metadata. -/
theorem stages_commute (h : m.IsKeyed) (e : Exclusion) (p : Provider) (bound : Bindings)
    (annotate : Resource → Resource) (ns : String) :
    (m.exclude e).label p = (m.label p).exclude e ∧
    (m.exclude e).forPlatform bound = (·.exclude e) <$> m.forPlatform bound ∧
    ((m.exclude e).splitRbacBy annotate).1 = (m.splitRbacBy annotate).1.exclude e ∧
    (∀ a, ((m.exclude e).splitRbac a).1 = (m.splitRbac a).1.exclude e) ∧
    Agree (Corresponds Resource.Reorders) ((m.label p).relocate ns) ((·.label p) <$> m.relocate ns) ∧
    Agree (Corresponds Resource.Reorders) ((m.label p).forPlatform bound)
      ((·.label p) <$> m.forPlatform bound) := by
  have hcore (annotate : Resource → Resource) :
      ((m.exclude e).splitRbacBy annotate).1 = (m.splitRbacBy annotate).1.exclude e :=
    eq_of_entries_eq (List.filter_comm ..)
  refine ⟨?_, exclude_forPlatform h e bound, hcore annotate, fun a => hcore (·.annotate a false), ?_, ?_⟩
  · exact (filter_map_comm (q := (!e.drops ·)) (g := (·.label p)) (fun _ => rfl) m).symm
  · refine agree_collect_label p fun r _ => ?_
    exact (Relocation.agree_move_label ns p r).map fun _ _ h => .some h
  · refine agree_collect_label p fun r _ => ?_
    exact .ok (r.forPlatform_label bound p)

/-- The service of two definitions gets a label and an annotation for its secret in both orders. In each
one these stand in the order in which they were made. -/
theorem stages_commute_oneService : ∃ a b,
    (oneService.label Release.sampleProvider).forPlatform [("webhook", "secret-b")] = .ok a ∧
    label Release.sampleProvider <$> oneService.forPlatform [("webhook", "secret-b")] = .ok b ∧
    a ≠ b ∧ Corresponds Resource.Reorders a b := by
  have differ : (do
      let a ← (oneService.label Release.sampleProvider).forPlatform [("webhook", "secret-b")]
      let b ← label Release.sampleProvider <$> oneService.forPlatform [("webhook", "secret-b")]
      return decide (a = b)) = .ok false := eq_ok_of_toOption (by decide +kernel)
  obtain ⟨a, ha, differ⟩ := bind_eq_ok.1 differ
  obtain ⟨b, hb, differ⟩ := bind_eq_ok.1 differ
  obtain ⟨-, -, -, -, -, hagree⟩ := stages_commute (m := oneService) (isKeyed_ofDistinct (by decide))
    (.contains "ipam") Release.sampleProvider [("webhook", "secret-b")] id "target"
  exact ⟨a, b, ha, hb, of_decide_eq_false (Except.ok.inj differ), hagree.rel ha hb⟩

end Manifest

end ProviderAssets
