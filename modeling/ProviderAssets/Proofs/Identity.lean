import ProviderAssets.Session
import ProviderAssets.Proofs.Reading
import ProviderAssets.Proofs.Stages

/-!
# Resources that say who they are

The name and the namespace of a resource are known in two places, its identity and its metadata, and
the identity is known once more as the key of the resource in its manifest. Everything that is read
agrees with itself in this way (`Manifest.isCoherent_ofText`), and so does everything that steps of a
session make of it, whether or not they fail: `Session.IsCoherent.step` is about one step and
`Session.isCoherent_steps` about a whole session.
-/

namespace ProviderAssets

open Json (Object Value)

namespace Resource

/-! ## Identity and metadata -/

/-- The metadata of a resource say what its identity says, and nothing else does. -/
structure IsCoherent (r : Resource) : Prop where
  /-- The metadata are an object, which has the name as a text. -/
  name : r.metadataField? "name" = some (.string r.id.name)
  /-- The metadata have a namespace exactly if the identity does, and then it is the same one. -/
  ns : r.metadataField? "namespace" = r.id.ns.map .string
  /-- Group and version are in the identity alone. -/
  apiVersion : Fields.get? r.root "apiVersion" = none
  /-- The kind is in the identity alone. -/
  kind : Fields.get? r.root "kind" = none

variable {r s : Resource}

/-- A coherent resource has metadata. -/
theorem IsCoherent.exists_metadata (h : r.IsCoherent) : ∃ o, r.metadata? = some o := by
  obtain ⟨o, ho, -⟩ := Option.bind_eq_some_iff.1 h.name
  exact ⟨o, ho⟩

/-- The namespace of metadata is set or taken away, and the other fields stay. -/
theorem get?_withNamespace (ns : Option String) (o : Object) (key : String) :
    Fields.get? (withNamespace ns o) key =
      if key = "namespace" then ns.map .string else Fields.get? o key := by
  cases ns with
  | none => exact Fields.get?_erase ..
  | some ns => exact Fields.get?_insert ..

/-- A resource that is made from an identity is coherent. -/
theorem isCoherent_ofId (id : ResourceId) (fields : Object) : (ofId id fields).IsCoherent := by
  have absent (key : String) (hne : key ≠ "metadata") (h : key = "apiVersion" ∨ key = "kind") :
      Fields.get? (ofId id fields).root key = none := by
    unfold ofId
    rw [get?_root_updateMetadata _ _ hne, Fields.get?_erase, Fields.get?_erase]
    rcases h with rfl | rfl
    · rw [if_neg (by decide), if_pos rfl]
    · rw [if_pos rfl]
  refine ⟨?_, ?_, absent _ (by decide) (.inl rfl), absent _ (by decide) (.inr rfl)⟩
  · unfold ofId
    rw [metadataField?_updateMetadata, get?_withNamespace, if_neg (by decide), Fields.get?_insert,
      if_pos rfl]
    rfl
  · unfold ofId
    rw [metadataField?_updateMetadata, get?_withNamespace, if_pos rfl]
    rfl

/-- A resource that is read from an object is coherent. -/
theorem isCoherent_ofObject {o : Object} (h : ofObject o = .ok r) : r.IsCoherent := by
  obtain ⟨apiVersion, kind, metadata, name, -, -, -, -, rfl⟩ := ofObject_eq_ok_iff.1 h
  exact isCoherent_ofId _ _

/-! ## Changes -/

/-- A change that leaves what agrees leaves a resource coherent. -/
theorem IsCoherent.congr (h : r.IsCoherent) (id : s.id = r.id)
    (metadata : ∀ key ∈ ["name", "namespace"], s.metadataField? key = r.metadataField? key)
    (root : ∀ key ∈ ["apiVersion", "kind"], Fields.get? s.root key = Fields.get? r.root key) :
    s.IsCoherent := by
  refine ⟨?_, ?_, ?_, ?_⟩
  · rw [metadata _ (by decide), id]
    exact h.name
  · rw [metadata _ (by decide), id]
    exact h.ns
  · rw [root _ (by decide)]
    exact h.apiVersion
  · rw [root _ (by decide)]
    exact h.kind

/-- Other metadata with the same name and namespace leave a resource coherent. -/
theorem IsCoherent.updateMetadata (h : r.IsCoherent) {f : Object → Object}
    (keeps : ∀ o, ∀ key ∈ ["name", "namespace"], Fields.get? (f o) key = Fields.get? o key) :
    (r.updateMetadata f).IsCoherent := by
  refine h.congr rfl (fun key hkey => ?_) fun key hkey => ?_
  · rw [metadataField?_updateMetadata, keeps _ key hkey, get?_getD_metadata?]
  · refine get?_root_updateMetadata r f ?_
    rintro rfl
    exact absurd hkey (by decide)

/-- Name and namespace are in other fields than labels and annotations. -/
theorem ne_of_mem_identityFields {key other : String} (hkey : key ∈ ["name", "namespace"])
    (hother : other = "labels" ∨ other = "annotations") : key ≠ other := by
  rintro rfl
  rcases hother with rfl | rfl <;> exact absurd hkey (by decide)

/-- Labels and annotations that are changed, and made if there are none, leave a resource
coherent. -/
theorem IsCoherent.updateSub (h : r.IsCoherent) {field : String} (f : Object → Object)
    (hfield : field = "labels" ∨ field = "annotations") :
    (r.updateMetadata (Json.Object.updateSub · field f)).IsCoherent := by
  refine h.updateMetadata fun o key hkey => ?_
  rw [Json.Object.get?_updateSub, if_neg (ne_of_mem_identityFields hkey hfield)]

/-- So do labels and annotations that are changed if there are any. -/
theorem IsCoherent.modifySub (h : r.IsCoherent) {field : String} (f : Object → Object)
    (hfield : field = "labels" ∨ field = "annotations") :
    (r.updateMetadata (Json.Object.modifySub · field f)).IsCoherent := by
  refine h.updateMetadata fun o key hkey => ?_
  exact Json.Object.get?_modifySub_of_ne o f (ne_of_mem_identityFields hkey hfield)

/-- Labels leave a resource coherent. -/
theorem IsCoherent.label (h : r.IsCoherent) (p : Provider) : (r.label p).IsCoherent :=
  h.updateSub _ (.inl rfl)

/-- Other annotations leave a resource coherent. -/
theorem IsCoherent.reannotated (h : r.IsCoherent) (hrs : r.Reannotated s) : s.IsCoherent := by
  refine h.congr hrs.id (fun key hkey => ?_) fun key hkey => ?_
  · exact hrs.metadata key (ne_of_mem_identityFields hkey (.inr rfl))
  · refine hrs.root key ?_
    rintro rfl
    exact absurd hkey (by decide)

/-- A move changes the namespace in the identity and in the metadata. -/
theorem IsCoherent.moved (h : r.IsCoherent) {ns : String} (hrs : Relocation.Moved ns r s) :
    s.IsCoherent := by
  refine ⟨?_, ?_, ?_, ?_⟩
  · rw [hrs.metadata _ (by decide), if_neg (by simp), hrs.name]
    exact h.name
  · rw [hrs.metadata _ (by decide), hrs.place, h.ns]
    cases Relocation.isNamespaced r <;> rfl
  · rw [hrs.root _ (by decide) (by decide)]
    exact h.apiVersion
  · rw [hrs.root _ (by decide) (by decide)]
    exact h.kind

end Resource

/-! ## Edits -/

/-- The edit leaves the identity alone, and does not take the metadata away. -/
def Edit.KeepsIdentity : Edit → Prop
  | .setNamespace _ | .dropMetadata => False
  | _ => True

namespace Resource

variable {r : Resource}

/-- An edit of the labels leaves a resource coherent. -/
theorem IsCoherent.editLabels (h : r.IsCoherent) (make : Bool) (f : Object → Object) :
    (r.editLabels make f).IsCoherent := by
  cases make
  · exact h.modifySub f (.inl rfl)
  · exact h.updateSub f (.inl rfl)

/-- An edit of the annotations leaves a resource coherent. -/
theorem IsCoherent.editAnnotations (h : r.IsCoherent) (make : Bool) (f : Object → Object) :
    (r.editAnnotations make f).IsCoherent := by
  cases make
  · exact h.modifySub f (.inr rfl)
  · exact h.updateSub f (.inr rfl)

/-- Edits that leave the identity alone leave a resource coherent. -/
theorem IsCoherent.edit (h : r.IsCoherent) {e : Edit} (he : e.KeepsIdentity) :
    (r.edit e).IsCoherent := by
  cases e with
  | setLabel key value make => exact h.editLabels make _
  | annotateKey key value make => exact h.editAnnotations make _
  | unannotateKey key make => exact h.editAnnotations make _
  | clearAnnotations make => exact h.editAnnotations make _
  | annotate a merge => exact h.updateSub _ (.inr rfl)
  | setNamespace ns => exact he.elim
  | dropMetadata => exact he.elim

/-- They do leave it alone. -/
theorem id_edit {e : Edit} (he : e.KeepsIdentity) : (r.edit e).id = r.id := by
  cases e with
  | setLabel key value make => cases make <;> rfl
  | annotateKey key value make => cases make <;> rfl
  | unannotateKey key make => cases make <;> rfl
  | clearAnnotations make => cases make <;> rfl
  | annotate a merge => rfl
  | setNamespace ns => exact he.elim
  | dropMetadata => exact he.elim

end Resource

namespace Manifest

/-! ## Manifests -/

/-- All resources of a manifest are coherent and have different identities, which are their keys. -/
structure IsCoherent (m : Manifest) : Prop where
  /-- Every key is the identity of its resource. -/
  keyed : m.IsKeyed
  /-- No two resources have the same identity. -/
  nodup : (m.resources.map (·.id)).Nodup
  /-- Every resource is coherent. -/
  resources : ∀ r ∈ m.resources, r.IsCoherent

variable {α : Type} {m n : Manifest}

/-- In a manifest that is keyed by identity, identities differ. -/
theorem IsKeyed.isCoherent (h : m.IsKeyed) (hr : ∀ r ∈ m.resources, r.IsCoherent) :
    m.IsCoherent := ⟨h, h.nodup_ids, hr⟩

/-- A manifest without resources is coherent. -/
theorem isCoherent_empty : empty.IsCoherent := isKeyed_empty.isCoherent nofun

/-- A manifest that coherent resources are put into anew is coherent. -/
theorem isCoherent_collect {f : α → Except Error (Option Resource)} {xs : List α}
    (h : collect f xs = .ok m) (hf : ∀ x ∈ xs, ∀ r, f x = .ok (some r) → r.IsCoherent) :
    m.IsCoherent := by
  obtain ⟨made, hmade, hres, hkey⟩ := collect_eq_ok h
  refine hkey.isCoherent fun r hr => ?_
  rw [hres] at hr
  obtain ⟨y, hy, rfl⟩ := List.mem_filterMap.1 hr
  obtain ⟨x, hx, hxy⟩ := exists_of_mem_right hmade hy
  exact hf x hx r hxy

/-- A manifest that is read from a text is coherent. -/
theorem isCoherent_ofText {text : String} (h : ofText text = .ok m) : m.IsCoherent := by
  refine isCoherent_collect h fun d _ r hd => ?_
  -- The value of the document was read as an object, from which the resource is read.
  obtain ⟨v, -, -, hv⟩ := resourceOf_eq_some_iff.1 hd
  obtain ⟨o, -, ho⟩ := Resource.ofValue_eq_ok_iff.1 hv
  exact Resource.isCoherent_ofObject ho

/-- A manifest stays coherent when a coherent resource is put in. -/
theorem IsCoherent.insert (h : m.IsCoherent) {r : Resource} (hr : r.IsCoherent)
    (hn : m.insert r = .ok n) : n.IsCoherent := by
  refine (h.keyed.insert hn).isCoherent fun s hs => ?_
  rw [resources_insert hn] at hs
  rcases List.mem_append.1 hs with hs | hs
  · exact h.resources s hs
  · rw [List.mem_singleton.1 hs]
    exact hr

/-- A manifest stays coherent when some of its resources are left out. -/
theorem IsCoherent.filter (h : m.IsCoherent) (p : Resource → Bool) : (m.filter p).IsCoherent := by
  refine (h.keyed.filter p).isCoherent fun r hr => ?_
  rw [resources_filter] at hr
  exact h.resources r (List.mem_filter.1 hr).1

/-- A manifest stays coherent under a change that leaves identities and coherence. -/
theorem IsCoherent.map (h : m.IsCoherent) {f : Resource → Resource}
    (hf : ∀ r, r.IsCoherent → (f r).IsCoherent) (id : ∀ r, (f r).id = r.id) :
    (m.map f).IsCoherent := by
  refine (h.keyed.map id).isCoherent fun s hs => ?_
  rw [resources_map] at hs
  obtain ⟨r, hr, rfl⟩ := List.mem_map.1 hs
  exact hf r (h.resources r hr)

/-- A manifest stays coherent when one of its resources is edited. -/
theorem IsCoherent.edit (h : m.IsCoherent) {e : Edit} (he : e.KeepsIdentity) (i : Nat) :
    (m.modifyAt i (·.edit e)).IsCoherent := by
  -- Every entry is one from before, or one whose resource was edited.
  have entries : ∀ x ∈ (m.modifyAt i (·.edit e)).entries, x.1 = x.2.id ∧ x.2.IsCoherent := by
    intro x hx
    have old : ∀ y ∈ m.entries, y.1 = y.2.id ∧ y.2.IsCoherent := fun y hy =>
      ⟨h.keyed y hy, h.resources y.2 (List.mem_map_of_mem hy)⟩
    obtain ⟨j, hj⟩ := List.mem_iff_getElem?.1 hx
    unfold modifyAt at hj
    rw [List.getElem?_modify] at hj
    obtain ⟨y, hy, rfl⟩ := Option.map_eq_some_iff.1 hj
    obtain ⟨hkey, hy⟩ := old y (List.mem_of_getElem? hy)
    split
    · exact ⟨hkey.trans (Resource.id_edit he).symm, hy.edit he⟩
    · exact ⟨hkey, hy⟩
  refine IsKeyed.isCoherent (fun x hx => (entries x hx).1) fun r hr => ?_
  obtain ⟨x, hx, rfl⟩ := List.mem_map.1 hr
  exact (entries x hx).2

/-- A manifest stays coherent when it is moved. -/
theorem IsCoherent.relocate (h : m.IsCoherent) {ns : String} (hn : m.relocate ns = .ok n) :
    n.IsCoherent := by
  refine isCoherent_collect hn fun r hr s hs => ?_
  obtain ⟨t, ht, heq⟩ := map_eq_ok.1 hs
  cases heq
  exact (h.resources r hr).moved (Relocation.moved_of_move ht)

/-- A manifest stays coherent when it is given the certificates of the platform. -/
theorem IsCoherent.forPlatform (h : m.IsCoherent) {bound : Bindings}
    (hn : m.forPlatform bound = .ok n) : n.IsCoherent := by
  refine isCoherent_collect hn fun r hr s hs => ?_
  exact (h.resources r hr).reannotated (Resource.reannotated_forPlatform (Except.ok.inj hs))

end Manifest

/-! ## Sessions -/

/-- The step does not change identities behind the back of the manifest: a resource that is put in
was read or made from an identity, and an edit leaves the identity alone. -/
def Step.KeepsIdentity : Step → Prop
  | .insert r => (∃ o, Resource.ofObject o = .ok r) ∨ ∃ id fields, r = .ofId id fields
  | .edit _ e => e.KeepsIdentity
  | _ => True

namespace Session

/-- Both manifests of a session are coherent. -/
structure IsCoherent (s : Session) : Prop where
  /-- The resources of the session are coherent. -/
  manifest : s.manifest.IsCoherent
  /-- So are those that are set aside. -/
  aside : s.aside.IsCoherent

variable {s : Session}

/-- A manifest that is put in if there is one leaves a session coherent. -/
theorem IsCoherent.replace (h : s.IsCoherent) {result : Except Error Manifest}
    (hm : ∀ m, result = .ok m → m.IsCoherent) : (s.replace result).2.IsCoherent := by
  cases result with
  | error e => exact h
  | ok m => exact ⟨hm m rfl, h.aside⟩

/-- So does one whose failure leaves no resources. -/
theorem IsCoherent.rebuild (h : s.IsCoherent) {result : Except Error Manifest}
    (hm : ∀ m, result = .ok m → m.IsCoherent) : (s.rebuild result).2.IsCoherent := by
  cases result with
  | error e => exact ⟨Manifest.isCoherent_empty, h.aside⟩
  | ok m => exact ⟨hm m rfl, h.aside⟩

/-- A step leaves a session coherent, whether or not it fails. -/
theorem IsCoherent.step (h : s.IsCoherent) {x : Step} (hx : x.KeepsIdentity) :
    (s.step x).2.IsCoherent := by
  cases x with
  | insert r =>
    refine h.replace fun m hm => h.manifest.insert ?_ hm
    rcases hx with ⟨o, ho⟩ | ⟨id, fields, rfl⟩
    · exact Resource.isCoherent_ofObject ho
    · exact Resource.isCoherent_ofId id fields
  | relocate ns => exact h.rebuild fun m hm => h.manifest.relocate hm
  | label p => exact ⟨h.manifest.map (fun _ hr => hr.label p) fun _ => rfl, h.aside⟩
  | bind =>
    unfold Session.step
    cases s.manifest.bindings with
    | error e => exact h
    | ok bound => exact ⟨h.manifest, h.aside⟩
  | forPlatform bound => exact h.rebuild fun m hm => h.manifest.forPlatform hm
  | platformCertificates =>
    show s.usePlatformCertificates.2.IsCoherent
    unfold usePlatformCertificates
    cases s.manifest.bindings with
    | error e => exact h
    | ok bound =>
      -- The bindings that are found are kept aside, which no resource depends on.
      have found : ({ s with platformBindings := bound } : Session).IsCoherent :=
        ⟨h.manifest, h.aside⟩
      exact found.rebuild fun m hm => h.manifest.forPlatform hm
  | exclude e => exact ⟨h.manifest.filter (!e.drops ·), h.aside⟩
  | splitRbac a =>
    refine ⟨h.manifest.filter (!·.kind.isRbac), ?_⟩
    refine (h.manifest.filter (·.kind.isRbac)).map (fun r hr => ?_) fun _ => rfl
    exact hr.reannotated (.updateAnnotations r _)
  | setAside p => exact ⟨h.manifest.filter (!p ·), h.manifest.filter p⟩
  | retain p => exact ⟨h.manifest.filter p, h.aside⟩
  | swap => exact ⟨h.aside, h.manifest⟩
  | reread => exact h.replace fun m hm => Manifest.isCoherent_ofText hm
  | edit i e => exact ⟨h.manifest.edit hx i, h.aside⟩

/-- Steps one after the other leave a session coherent. -/
theorem IsCoherent.steps (h : s.IsCoherent) {todo : List Step}
    (keeps : ∀ x ∈ todo, x.KeepsIdentity) : (s.steps todo).IsCoherent := by
  induction todo generalizing s with
  | nil => exact h
  | cons x todo ih =>
    have first : (s.step x).2.IsCoherent := h.step (keeps x List.mem_cons_self)
    exact ih first fun y hy => keeps y (List.mem_cons_of_mem x hy)

/-- After any steps from a manifest that was read, whichever of them failed, every key is the
identity of its resource, identities differ, and metadata say what the identity says. -/
theorem isCoherent_steps {text : String} {m : Manifest} (h : Manifest.ofText text = .ok m)
    {todo : List Step} (keeps : ∀ x ∈ todo, x.KeepsIdentity) :
    (({ manifest := m } : Session).steps todo).IsCoherent :=
  IsCoherent.steps ⟨Manifest.isCoherent_ofText h, Manifest.isCoherent_empty⟩ keeps

/-- A small session: all resources are moved and labelled, a service is put in that is there already,
roles and accounts are set aside, and then one of them is annotated. -/
def sampleSteps : List Step :=
  [.relocate "openshift-cluster-api", .label Release.sampleProvider,
    .insert (.serviceIn "openshift-cluster-api" "s"), .splitRbac Annotations.release, .swap,
    .edit 0 (.annotateKey "owner" "platform" true)]

/-- The small session on the small release ends with one account and three other resources, and
everything stays coherent. -/
theorem isCoherent_sampleSteps :
    ∃ m, Manifest.ofText Release.sample.components = .ok m ∧
      ∃ s, ({ manifest := m } : Session).steps sampleSteps = s ∧ s.manifest.size = 1 ∧
        s.aside.size = 3 ∧ s.IsCoherent := by
  obtain ⟨m, hm, hsizes⟩ := exists_ok_of_toOption (b := (1, 3))
    (x := Manifest.ofText Release.sample.components)
    (f := fun m => ((({ manifest := m } : Session).steps sampleSteps).manifest.size,
      (({ manifest := m } : Session).steps sampleSteps).aside.size)) (by decide +kernel)
  obtain ⟨hmain, haside⟩ := Prod.mk.inj hsizes
  refine ⟨m, hm, _, rfl, hmain, haside, isCoherent_steps hm ?_⟩
  simp only [sampleSteps, List.mem_cons, List.not_mem_nil, or_false, forall_eq_or_imp, forall_eq]
  exact ⟨trivial, trivial, .inr ⟨_, _, rfl⟩, trivial, trivial, trivial⟩

end Session

end ProviderAssets
