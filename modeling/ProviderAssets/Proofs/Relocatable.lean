import ProviderAssets.Proofs.Fitting
import ProviderAssets.Proofs.Stages

/-!
# Which resources can be moved

A move needs two things. Along the paths on which a resource names services or subjects, everything has
to be of the type that is expected there (`Resource.IsInShape`); and no two resources may have the same
identity afterwards, when those that belong to a namespace are all in one. `Manifest.relocate_iff_movable`
says that this is enough, that nothing is lost or reordered then, and that else the first resource at
which one of the two is missing is the one that the error names.
-/

namespace ProviderAssets

open Json (Object Value)

/-! ## Paths that start from the same field -/

/-- Whether a path can be followed from an object depends on the field that it starts with alone. -/
theorem FieldPath.fits_congr {last : Value → Prop} {seg : Segment} {rest : FieldPath} {o o' : Object}
    (same : Fields.get? o' seg.name = Fields.get? o seg.name) :
    Fits last (seg :: rest) (.object o') ↔ Fits last (seg :: rest) (.object o) := by
  cases seg with
  | field name =>
    have same : Fields.get? o' name = Fields.get? o name := same
    simp [Fits, same]
  | items name =>
    have same : Fields.get? o' name = Fields.get? o name := same
    simp [Fits, same]

/-! ## Shapes of resources that refer to others -/

namespace Resource

/-- A text. -/
def IsText (v : Value) : Prop := ∃ s, v = .string s

/-- An object. -/
def IsObject (v : Value) : Prop := ∃ o, v = .object o

/-- Texts are what a path to texts asks for. -/
theorem isText_eq : IsText = fun v => (Target.text.ofValue? v).isSome = true := by
  funext v
  unfold IsText Target.text
  cases v <;> simp [Value.string?]

/-- Objects are what a path to objects asks for. -/
theorem isObject_eq : IsObject = fun v => (Target.object.ofValue? v).isSome = true := by
  funext v
  unfold IsObject Target.object
  cases v <;> simp [Value.object?]

open FieldPath (Fits)

/-- Where resources of its kind name services or subjects, a resource has objects on the way, or nothing,
or null, webhooks and subjects are lists of objects, and a namespace that is given is a text. -/
structure IsInShape (r : Resource) : Prop where
  /-- The services of webhooks can be followed. -/
  webhooks : r.id.gvk.kind = "MutatingWebhookConfiguration" ∨
      r.id.gvk.kind = "ValidatingWebhookConfiguration" →
    Fits IsText [.items "webhooks", .field "clientConfig", .field "service", .field "namespace"]
      (.object r.root)
  /-- So can the service that converts custom resources. -/
  conversion : r.id.gvk.kind = "CustomResourceDefinition" →
    Fits IsText [.field "spec", .field "conversion", .field "webhook", .field "clientConfig",
      .field "service", .field "namespace"] (.object r.root)
  /-- So can the service behind an API. -/
  apiService : r.id.gvk.kind = "APIService" →
    Fits IsText [.field "spec", .field "service", .field "namespace"] (.object r.root)
  /-- So can the subjects that roles are bound to. -/
  subjects : r.id.gvk.kind = "RoleBinding" ∨ r.id.gvk.kind = "ClusterRoleBinding" →
    Fits IsObject [.items "subjects"] (.object r.root)

variable {r s : Resource}

/-- A resource is in shape exactly if every path that there is for its kind can be followed. -/
theorem isInShape_iff : r.IsInShape ↔
    (∀ rule ∈ Relocation.serviceNamespaces, rule.selector.admits r.id.gvk = true →
      Fits IsText rule.path (.object r.root)) ∧
    ∀ rule ∈ Relocation.subjects, rule.selector.admits r.id.gvk = true →
      Fits IsObject rule.path (.object r.root) := by
  simp only [Relocation.serviceNamespaces, Relocation.mutatingWebhooks,
    Relocation.validatingWebhooks, Relocation.conversions, Relocation.apiServices,
    Relocation.subjects, Relocation.roleBindings, Relocation.clusterRoleBindings,
    List.forall_mem_cons, FieldRule.admits_ofKind]
  constructor
  · intro h
    exact ⟨⟨fun hk => h.webhooks (.inl hk), fun hk => h.webhooks (.inr hk), h.conversion, h.apiService,
      List.forall_mem_nil _⟩, fun hk => h.subjects (.inl hk), fun hk => h.subjects (.inr hk),
      List.forall_mem_nil _⟩
  · rintro ⟨⟨mutating, validating, conversion, apiService, -⟩, role, clusterRole, -⟩
    exact ⟨fun hk => hk.elim mutating validating, conversion, apiService,
      fun hk => hk.elim role clusterRole⟩

/-- Whether a resource is in shape does not depend on its metadata. -/
theorem isInShape_congr (hgvk : s.id.gvk = r.id.gvk)
    (same : ∀ key, key ≠ "metadata" → Fields.get? s.root key = Fields.get? r.root key) :
    s.IsInShape ↔ r.IsInShape := by
  have fits {last : Value → Prop} (rule : FieldRule)
      (hrule : rule ∈ Relocation.serviceNamespaces ++ Relocation.subjects) :
      Fits last rule.path (.object s.root) ↔ Fits last rule.path (.object r.root) := by
    obtain ⟨seg, rest, hpath, hne⟩ := Relocation.exists_path_eq_cons hrule
    rw [hpath]
    exact FieldPath.fits_congr (same _ hne)
  rw [isInShape_iff, isInShape_iff, hgvk]
  refine and_congr (forall₂_congr fun rule hrule => ?_) (forall₂_congr fun rule hrule => ?_)
  · rw [fits rule (List.mem_append_left _ hrule)]
  · rw [fits rule (List.mem_append_right _ hrule)]

end Resource

namespace Relocation

variable {ns : String} {r s : Resource} {e : Error}

/-! ## References that follow -/

/-- A resource with the services and the subjects that it names in the namespace. -/
def follow (ns : String) (r : Resource) : Except Error Resource := do
  let r ← FieldRule.updateAll (m := Id) serviceNamespaces .text (fun _ => pure ns) r
  FieldRule.updateAll (m := Id) subjects .object (fun s => pure (moveSubject ns s)) r

/-- A move places a resource, takes its references along, and then the certificate that it refers to. -/
theorem move_eq (ns : String) (r : Resource) :
    move ns r = moveInjection ns <$> follow ns (place ns r) := by
  unfold follow
  rw [map_bind]
  rfl

/-- For a kind that names services, these are all that follows. -/
theorem follow_of_service {rule : FieldRule} (hrule : rule ∈ serviceNamespaces)
    (hadm : rule.selector.admits r.id.gvk = true) :
    follow ns r = rule.path.update (m := Id) .text (fun _ => pure ns) r := by
  unfold follow
  rw [FieldRule.updateAll_eq_update serviceNamespaces_apart hrule hadm]
  cases hr : rule.path.update (m := Id) .text (fun _ => pure ns) r with
  | error e => rfl
  | ok r' =>
    -- There are no paths to subjects for a kind that names services.
    obtain ⟨-, -, hapart⟩ := List.pairwise_append.1 rules_apart
    rw [← (FieldPath.update_eq_ok hr).1] at hadm
    exact FieldRule.updateAll_eq_pure fun other hother => hapart rule hrule other hother _ hadm

/-- For a kind that names no services, the subjects are all that follows. -/
theorem follow_eq_updateAll
    (hskip : ∀ rule ∈ serviceNamespaces, ¬ rule.selector.admits r.id.gvk = true) :
    follow ns r =
      FieldRule.updateAll (m := Id) subjects .object (fun s => pure (moveSubject ns s)) r := by
  unfold follow
  rw [FieldRule.updateAll_eq_pure hskip]
  rfl

/-- For a kind that names subjects, these are all that follows. -/
theorem follow_of_subject {rule : FieldRule} (hrule : rule ∈ subjects)
    (hadm : rule.selector.admits r.id.gvk = true) :
    follow ns r = rule.path.update (m := Id) .object (fun s => pure (moveSubject ns s)) r := by
  obtain ⟨-, -, hapart⟩ := List.pairwise_append.1 rules_apart
  have hskip : ∀ other ∈ serviceNamespaces, ¬ other.selector.admits r.id.gvk = true :=
    fun other hother hadm' => hapart other hother rule hrule _ hadm' hadm
  rw [follow_eq_updateAll hskip, FieldRule.updateAll_eq_update subjects_apart hrule hadm]

/-- For any other kind, nothing follows. -/
theorem follow_of_not_admits
    (hskip : ∀ rule ∈ serviceNamespaces ++ subjects, ¬ rule.selector.admits r.id.gvk = true) :
    follow ns r = .ok r := by
  rw [follow_eq_updateAll fun rule hrule => hskip rule (List.mem_append_left _ hrule)]
  exact FieldRule.updateAll_eq_pure fun rule hrule => hskip rule (List.mem_append_right _ hrule)

/-- At most one path is for a resource, and the values that it leads to are what follows. -/
theorem follow_cases (ns : String) (r : Resource) :
    (∃ rule ∈ serviceNamespaces, rule.selector.admits r.id.gvk = true ∧
      follow ns r = rule.path.update (m := Id) .text (fun _ => pure ns) r) ∨
    (∃ rule ∈ subjects, rule.selector.admits r.id.gvk = true ∧
      follow ns r = rule.path.update (m := Id) .object (fun s => pure (moveSubject ns s)) r) ∨
    (∀ rule ∈ serviceNamespaces ++ subjects, ¬ rule.selector.admits r.id.gvk = true) ∧
      follow ns r = .ok r := by
  by_cases hrule : ∃ rule ∈ serviceNamespaces ++ subjects, rule.selector.admits r.id.gvk = true
  · obtain ⟨rule, hrule, hadm⟩ := hrule
    obtain hrule | hrule := List.mem_append.1 hrule
    · exact .inl ⟨rule, hrule, hadm, follow_of_service hrule hadm⟩
    · exact .inr (.inl ⟨rule, hrule, hadm, follow_of_subject hrule hadm⟩)
  · have hskip : ∀ rule ∈ serviceNamespaces ++ subjects, ¬ rule.selector.admits r.id.gvk = true :=
      fun rule hmem hadm => hrule ⟨rule, hmem, hadm⟩
    exact .inr (.inr ⟨hskip, follow_of_not_admits hskip⟩)

/-- A resource that names services is in shape exactly if the path to them can be followed. -/
theorem isInShape_of_service {rule : FieldRule} (hrule : rule ∈ serviceNamespaces)
    (hadm : rule.selector.admits r.id.gvk = true) :
    r.IsInShape ↔ FieldPath.Fits Resource.IsText rule.path (.object r.root) := by
  obtain ⟨-, -, hapart⟩ := List.pairwise_append.1 rules_apart
  rw [Resource.isInShape_iff]
  refine ⟨fun h => h.1 rule hrule hadm, fun h =>
    ⟨fun other hother hadm' => ?_, fun other hother hadm' => ?_⟩⟩
  · rw [serviceNamespaces_apart.eq_of_admits hother hrule hadm' hadm]
    exact h
  · exact absurd hadm' (hapart rule hrule other hother _ hadm)

/-- A binding is in shape exactly if the path to its subjects can be followed. -/
theorem isInShape_of_subject {rule : FieldRule} (hrule : rule ∈ subjects)
    (hadm : rule.selector.admits r.id.gvk = true) :
    r.IsInShape ↔ FieldPath.Fits Resource.IsObject rule.path (.object r.root) := by
  obtain ⟨-, -, hapart⟩ := List.pairwise_append.1 rules_apart
  rw [Resource.isInShape_iff]
  refine ⟨fun h => h.2 rule hrule hadm, fun h =>
    ⟨fun other hother hadm' => ?_, fun other hother hadm' => ?_⟩⟩
  · exact absurd hadm (hapart other hother rule hrule _ hadm')
  · rw [subjects_apart.eq_of_admits hother hrule hadm' hadm]
    exact h

/-- The references of a resource follow exactly if it is in shape. -/
theorem exists_follow_iff : (∃ s, follow ns r = .ok s) ↔ r.IsInShape := by
  obtain ⟨rule, hrule, hadm, hfollow⟩ | ⟨rule, hrule, hadm, hfollow⟩ | ⟨hskip, hfollow⟩ :=
    follow_cases ns r
  · rw [hfollow, isInShape_of_service hrule hadm, Resource.isText_eq]
    exact FieldPath.exists_update_iff (path_ne_nil rule (List.mem_append_left _ hrule))
  · rw [hfollow, isInShape_of_subject hrule hadm, Resource.isObject_eq]
    exact FieldPath.exists_update_iff (path_ne_nil rule (List.mem_append_right _ hrule))
  · rw [hfollow]
    refine iff_of_true ⟨r, rfl⟩
      (Resource.isInShape_iff.2 ⟨fun rule hrule hadm => ?_, fun rule hrule hadm => ?_⟩)
    · exact absurd hadm (hskip rule (List.mem_append_left _ hrule))
    · exact absurd hadm (hskip rule (List.mem_append_right _ hrule))

/-- If references cannot follow, the error names the resource, and one of the fields on a path that there
is for it. -/
theorem follow_eq_error (h : follow ns r = .error e) :
    ∃ rule ∈ serviceNamespaces ++ subjects, rule.selector.admits r.id.gvk = true ∧
      ∃ expected, ∃ seg ∈ rule.path,
        e = .malformed r.id (.shape expected seg.name rule.path.text) := by
  obtain ⟨rule, hrule, hadm, hfollow⟩ | ⟨rule, hrule, hadm, hfollow⟩ | ⟨hskip, hfollow⟩ :=
    follow_cases ns r
  · rw [hfollow] at h
    exact ⟨rule, List.mem_append_left _ hrule, hadm, FieldPath.update_eq_error h⟩
  · rw [hfollow] at h
    exact ⟨rule, List.mem_append_right _ hrule, hadm, FieldPath.update_eq_error h⟩
  · rw [hfollow] at h
    cases h

/-! ## Moves that succeed -/

/-- The identity of a resource after a move: one that belongs to a namespace is in the new one. -/
def movedId (ns : String) (r : Resource) : ResourceId :=
  { r.id with ns := if isNamespaced r then some ns else r.id.ns }

/-- What follows leaves the identity. -/
theorem id_follow (h : follow ns r = .ok s) : s.id = r.id := by
  obtain ⟨r', h₁, h₂⟩ := bind_eq_ok.1 h
  exact (FieldRule.updateAll_frame h₂).1.trans (FieldRule.updateAll_frame h₁).1

/-- A move gives a resource its new identity. -/
theorem id_move (h : move ns r = .ok s) : s.id = movedId ns r := by
  rw [move_eq] at h
  obtain ⟨s, hs, rfl⟩ := map_eq_ok.1 h
  rw [(reannotated_moveInjection ns s).id, id_follow hs, place_id]
  rfl

/-- The place of a resource does not matter for its shape. -/
theorem isInShape_place (ns : String) (r : Resource) : (place ns r).IsInShape ↔ r.IsInShape := by
  refine Resource.isInShape_congr ?_ fun key hkey => get?_root_place ns r hkey
  rw [place_id]

/-- A resource can be moved exactly if it is in shape. -/
theorem exists_move_iff : (∃ s, move ns r = .ok s) ↔ r.IsInShape := by
  rw [move_eq, ← isInShape_place ns r, ← exists_follow_iff]
  constructor
  · rintro ⟨s, hs⟩
    obtain ⟨t, ht, -⟩ := map_eq_ok.1 hs
    exact ⟨t, ht⟩
  · rintro ⟨t, ht⟩
    exact ⟨_, map_eq_ok.2 ⟨t, ht, rfl⟩⟩

/-- If a resource cannot be moved, the error names it as it would be called after the move, and one of the
fields on a path that there is for it. -/
theorem move_eq_error (h : move ns r = .error e) :
    ∃ rule ∈ serviceNamespaces ++ subjects, rule.selector.admits r.id.gvk = true ∧
      ∃ expected, ∃ seg ∈ rule.path,
        e = .malformed (movedId ns r) (.shape expected seg.name rule.path.text) := by
  rw [move_eq, map_eq_error] at h
  obtain ⟨rule, hrule, hadm, hfault⟩ := follow_eq_error h
  rw [place_id] at hadm hfault
  exact ⟨rule, hrule, hadm, hfault⟩

/-! ## Resources that are moved together -/

variable {rs : List Resource} {n : Manifest}

/-- All of some resources can be moved, and the moved ones be held in one manifest. -/
structure Movable (ns : String) (rs : List Resource) : Prop where
  /-- Every reference can be followed. -/
  shape : ∀ r ∈ rs, r.IsInShape
  /-- No two resources have the same identity in their new places. -/
  distinct : (rs.map (movedId ns)).Nodup

/-- The error names the first resource that is not in shape, or that gets the identity of a resource
before it. If both are so, then it is about the shape. -/
inductive FirstFault (ns : String) (rs : List Resource) : Error → Prop
  /-- A reference of the resource cannot be followed, and all before it can be moved. -/
  | shape {before after : List Resource} {r : Resource} {rule : FieldRule} {expected : String}
    {seg : Segment} (split : rs = before ++ r :: after) (movable : Movable ns before)
    (fault : ¬ r.IsInShape) (mem : rule ∈ serviceNamespaces ++ subjects)
    (admits : rule.selector.admits r.id.gvk = true) (onPath : seg ∈ rule.path) :
    FirstFault ns rs (.malformed (movedId ns r) (.shape expected seg.name rule.path.text))
  /-- The resource can be moved, but not to where one before it is moved. -/
  | conflict {before after : List Resource} {r : Resource} (split : rs = before ++ r :: after)
    (movable : Movable ns before) (shape : r.IsInShape)
    (repeated : movedId ns r ∈ before.map (movedId ns)) :
    FirstFault ns rs (.conflict (movedId ns r))

/-- Resources that are moved have their new identities. -/
theorem map_id_of_move {ss : List Resource} (h : List.Forall₂ (fun r s => move ns r = .ok s) rs ss) :
    ss.map (·.id) = rs.map (movedId ns) := by
  induction h with
  | nil => rfl
  | cons hrs _ ih => rw [List.map_cons, List.map_cons, ih, id_move hrs]

/-- In a manifest that moved resources make, they are under their new identities. -/
theorem keys_collect_move (h : Manifest.collect (fun r => some <$> move ns r) rs = .ok n) :
    n.keys = rs.map (movedId ns) := by
  obtain ⟨hmoved, hkeyed⟩ := Manifest.collect_some_eq_ok h
  rw [hkeyed.keys_eq, map_id_of_move hmoved]

/-- Moved resources make a manifest exactly if all can be moved and have different identities then. -/
theorem exists_collect_move_iff :
    (∃ n, Manifest.collect (fun r => some <$> move ns r) rs = .ok n) ↔ Movable ns rs := by
  constructor
  · rintro ⟨n, hn⟩
    obtain ⟨hmoved, -⟩ := Manifest.collect_some_eq_ok hn
    refine ⟨fun r hr => ?_, keys_collect_move hn ▸ n.distinct⟩
    exact exists_move_iff.1 (exists_forall₂_iff.1 ⟨_, hmoved⟩ r hr)
  · rintro ⟨hshape, hdistinct⟩
    obtain ⟨ss, hmoved⟩ := exists_forall₂_iff.2 fun r hr => exists_move_iff.2 (hshape r hr)
    obtain ⟨n, hn, -⟩ := Manifest.exists_collect_some hmoved (map_id_of_move hmoved ▸ hdistinct)
    exact ⟨n, hn⟩

/-- If moved resources make no manifest, the error names the first one at fault. -/
theorem firstFault_of_collect (h : Manifest.collect (fun r => some <$> move ns r) rs = .error e) :
    FirstFault ns rs e := by
  obtain ⟨before, r, after, n, hsplit, hbefore, hr⟩ := Manifest.collect_eq_error_iff.1 h
  have movable : Movable ns before := exists_collect_move_iff.1 ⟨n, hbefore⟩
  obtain hr | ⟨s, hs, hmem, rfl⟩ := hr
  · have hr := map_eq_error.1 hr
    have fault : ¬ r.IsInShape := fun hshape => by
      obtain ⟨s, hs⟩ := exists_move_iff.2 hshape
      rw [hs] at hr
      cases hr
    obtain ⟨rule, hrule, hadm, expected, seg, hseg, rfl⟩ := move_eq_error hr
    exact .shape hsplit movable fault hrule hadm hseg
  · obtain ⟨s, hs, heq⟩ := map_eq_ok.1 hs
    cases heq
    rw [keys_collect_move hbefore, id_move hs] at hmem
    rw [id_move hs]
    exact .conflict hsplit movable (exists_move_iff.1 ⟨_, hs⟩) hmem

end Relocation

/-- The resources of a manifest, whatever keys they are under, can be moved into a namespace exactly if
all are in shape and have different identities afterwards. None is lost then, and they stay in order,
each under its new identity. Else the error names the first resource at which one of the two is
missing. -/
theorem Manifest.relocate_iff_movable (ns : String) (m : Manifest) :
    ((∃ n, m.relocate ns = .ok n) ↔ Relocation.Movable ns m.resources) ∧
    (∀ n, m.relocate ns = .ok n → n.size = m.size ∧
      n.keys = m.resources.map (Relocation.movedId ns) ∧ n.IsKeyed ∧
      List.Forall₂ (fun r s => Relocation.move ns r = .ok s) m.resources n.resources) ∧
    ∀ e, m.relocate ns = .error e → Relocation.FirstFault ns m.resources e := by
  refine ⟨Relocation.exists_collect_move_iff, fun n hn => ?_,
    fun e he => Relocation.firstFault_of_collect he⟩
  obtain ⟨hmoved, hkeyed⟩ := relocate_eq_ok hn
  have hsize : n.size = m.size := by
    rw [← length_resources, ← length_resources, hmoved.length_eq]
  exact ⟨hsize, Relocation.keys_collect_move hn, hkeyed, hmoved⟩

namespace Manifest

open Relocation (FirstFault)
open Resource (accountIn)

/-- An account that was taken to another namespace in place, next to a class, which belongs to none. -/
def staleAccount : Manifest where
  entries := [((accountIn "a" "manager").id, accountIn "c" "manager"),
    (⟨⟨"scheduling.k8s.io", "v1", "PriorityClass"⟩, "high", none⟩,
      .ofId ⟨⟨"scheduling.k8s.io", "v1", "PriorityClass"⟩, "high", none⟩ [])]
  distinct := by decide

/-- Accounts of one name in two namespaces. -/
def twoAccounts : Manifest :=
  ofDistinct [accountIn "a" "manager", accountIn "c" "manager"] (by decide)

/-- A binding whose subjects are no list. -/
def subjectText : Manifest :=
  ofDistinct [.ofId ⟨⟨"rbac.authorization.k8s.io", "v1", "RoleBinding"⟩, "manager", some "a"⟩
    [("subjects", .string "manager")]] (by decide)

/-- The account is moved to its new key, and the class stays. The two accounts would be under one key, and
the subjects cannot be read. -/
theorem relocate_accounts :
    (∃ n, staleAccount.relocate "b" = .ok n ∧ n.size = 2 ∧ n.IsKeyed) ∧
      (∃ e, twoAccounts.relocate "b" = .error e ∧ FirstFault "b" twoAccounts.resources e) ∧
      ∃ e, subjectText.relocate "b" = .error e ∧ FirstFault "b" subjectText.resources e := by
  obtain ⟨n, hn, -⟩ := exists_ok_of_toOption (x := staleAccount.relocate "b") (f := size) (b := 2)
    (by decide +kernel)
  obtain ⟨hsize, -, hkeyed, -⟩ := (relocate_iff_movable "b" staleAccount).2.1 n hn
  obtain ⟨e, he⟩ := exists_error_of_toOption (x := twoAccounts.relocate "b") (by decide +kernel)
  obtain ⟨e', he'⟩ := exists_error_of_toOption (x := subjectText.relocate "b") (by decide +kernel)
  exact ⟨⟨n, hn, hsize, hkeyed⟩, ⟨e, he, (relocate_iff_movable "b" twoAccounts).2.2 e he⟩,
    e', he', (relocate_iff_movable "b" subjectText).2.2 e' he'⟩

end Manifest

end ProviderAssets
