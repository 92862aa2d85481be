import ProviderAssets.Proofs.Changes
import ProviderAssets.Proofs.Identity
import ProviderAssets.Proofs.References

/-!
# Resources as objects

A resource is read from an object by cutting its `apiVersion` in two and looking up its kind, name and
namespace; the object that is written for it says all of these again. `Resource.toObject_ofObject` says
that nothing is lost on the way: all other fields stay where they were, apart from a namespace that is
not a name, and the object is read as the same resource. An `apiVersion` that starts with a slash is the
exception, since its empty group is not written.
-/

namespace ProviderAssets

open Json (Object)

namespace Resource

variable {r : Resource} {o : Object}

/-! ## Group and version -/

/-- There is no slash in a group. -/
theorem slash_notMem_group (s : String) : '/' ∉ (splitApiVersion s).1.toList := by
  unfold splitApiVersion
  cases hs : Text.splitFirst '/' s with
  | none => exact List.not_mem_nil
  | some p => exact (Text.splitFirst_eq_some_iff.1 hs).1

/-- Group and version are put together again, unless there is nothing before the slash. -/
theorem apiVersion_splitApiVersion {s : String} (hs : s.toList.head? ≠ some '/') (kind : String) :
    GroupVersionKind.apiVersion ⟨(splitApiVersion s).1, (splitApiVersion s).2, kind⟩ = s := by
  unfold splitApiVersion GroupVersionKind.apiVersion
  cases hsplit : Text.splitFirst '/' s with
  | none => rfl
  | some p =>
    obtain ⟨group, version⟩ := p
    obtain ⟨-, htext⟩ := Text.splitFirst_eq_some_iff.1 hsplit
    have hgroup : ¬ group.isEmpty = true := by
      intro h
      rw [String.isEmpty_iff.1 h] at htext
      exact hs (by rw [htext]; rfl)
    rw [Option.getD_some, if_neg hgroup, ← String.toList_inj, htext]
    simp

/-- A version that is cut off its group again is the same exactly if there is a group or no slash in
the version. -/
theorem splitApiVersion_apiVersion_iff {g : GroupVersionKind} (hgroup : '/' ∉ g.group.toList) :
    splitApiVersion g.apiVersion = (g.group, g.version) ↔ (g.group = "" → '/' ∉ g.version.toList) := by
  unfold splitApiVersion GroupVersionKind.apiVersion
  by_cases hempty : g.group = ""
  · rw [if_pos (by simp [hempty]), hempty, imp_iff_right rfl]
    cases hsplit : Text.splitFirst '/' g.version with
    | none =>
      refine iff_of_true rfl fun hmem => ?_
      obtain ⟨u, v, hversion, hu⟩ := List.eq_append_cons_of_mem hmem
      have hsome : Text.splitFirst '/' g.version = some (String.ofList u, String.ofList v) :=
        Text.splitFirst_eq_some_iff.2 ⟨by simpa using hu, by simpa using hversion⟩
      rw [hsplit] at hsome
      cases hsome
    | some p =>
      -- What is cut off is shorter than the version.
      have hversion := (Text.splitFirst_eq_some_iff.1 hsplit).2
      refine iff_of_false (fun h => ?_) fun h => h (by rw [hversion]; simp)
      rw [show p = ("", g.version) from h] at hversion
      simpa using congrArg List.length hversion
  · have hsome : Text.splitFirst '/' (g.group ++ "/" ++ g.version) = some (g.group, g.version) := by
      refine Text.splitFirst_eq_some_iff.2 ⟨hgroup, ?_⟩
      simp
    rw [if_neg (by simpa using hempty), hsome]
    exact iff_of_true rfl fun h => absurd h hempty

/-! ## The other fields -/

/-- The fields of an object besides `apiVersion` and `kind`. -/
def othersOf (o : Object) : Object := Fields.erase (Fields.erase o "apiVersion") "kind"

/-- They are those of the object. -/
theorem get?_othersOf {key : String} (hapiVersion : key ≠ "apiVersion") (hkind : key ≠ "kind") :
    Fields.get? (othersOf o) key = Fields.get? o key := by
  rw [othersOf, Fields.get?_erase, if_neg hkind, Fields.get?_erase, if_neg hapiVersion]

/-- They are what a resource is made of, besides its identity. -/
theorem ofId_eq (id : ResourceId) (o : Object) :
    ofId id o = ({ id, root := othersOf o } : Resource).updateMetadata fun m =>
      withNamespace id.ns (Fields.insert m "name" (.string id.name)) := rfl

/-- Those of the object of a resource are the resource's own. -/
theorem othersOf_toObject (h : r.IsCoherent) : othersOf r.toObject = r.root :=
  calc othersOf r.toObject
    _ = Fields.erase (("kind", .string r.id.gvk.kind) :: Fields.erase r.root "apiVersion") "kind" := rfl
    _ = Fields.erase (("kind", .string r.id.gvk.kind) :: r.root) "kind" := by
      rw [Fields.erase_eq_self h.apiVersion]
    _ = Fields.erase r.root "kind" := rfl
    _ = r.root := Fields.erase_eq_self h.kind

/-! ## What is read -/

/-- What is known of a resource that was read from an object. -/
structure IsRead (o : Object) (r : Resource) : Prop where
  /-- The metadata say what the identity says. -/
  coherent : r.IsCoherent
  /-- The resource was made from its identity. -/
  root : r = ofId r.id o
  /-- The group was cut off at the first slash. -/
  group : '/' ∉ r.id.gvk.group.toList
  /-- A namespace has a name. -/
  ns : r.id.ns ≠ some ""
  /-- Group and version are those of the object. -/
  apiVersion : ∃ s, Fields.get? o "apiVersion" = some (.string s) ∧
    splitApiVersion s = (r.id.gvk.group, r.id.gvk.version)
  /-- The name, and the namespace if it is not empty, are those of the object. -/
  metadata : ∃ metadata, Json.Object.sub? o "metadata" = some metadata ∧
    Json.Object.text? metadata "name" = some r.id.name ∧
    (Json.Object.text? metadata "namespace").filter (!·.isEmpty) = r.id.ns

/-- A namespace is found exactly if it is a text that is not empty. -/
theorem filter_namespace_eq_some_iff {metadata : Object} {ns : String} :
    (Json.Object.text? metadata "namespace").filter (!·.isEmpty) = some ns ↔
      Fields.get? metadata "namespace" = some (.string ns) ∧ ns ≠ "" := by
  have hempty : (!ns.isEmpty) = true ↔ ns ≠ "" := by simp
  rw [Option.filter_eq_some_iff, hempty]
  refine and_congr_left' ⟨Json.Object.get?_of_text?, fun h => ?_⟩
  rw [Json.Object.text?, h]
  rfl

/-- A resource that is read from an object is made from an identity without a slash in its group and
with a namespace that has a name, if there is one. -/
theorem isRead_ofObject (h : ofObject o = .ok r) : IsRead o r := by
  have hcoherent := isCoherent_ofObject h
  obtain ⟨apiVersion, kind, metadata, name, hapiVersion, -, hmetadata, hname, rfl⟩ :=
    ofObject_eq_ok_iff.1 h
  exact ⟨hcoherent, rfl, slash_notMem_group apiVersion,
    fun hns => (filter_namespace_eq_some_iff.1 hns).2 rfl, ⟨apiVersion, hapiVersion, rfl⟩,
    metadata, hmetadata, hname, rfl⟩

/-- A field of the metadata, where these are known. -/
theorem metadataField?_of_metadata? {metadata : Object} (h : r.metadata? = some metadata) (key : String) :
    r.metadataField? key = Fields.get? metadata key := by
  rw [metadataField?, h]
  rfl

/-- Metadata are not changed by a namespace that they have, or by none if they have none. -/
theorem withNamespace_eq_self {metadata : Object} {ns : Option String}
    (h : Fields.get? metadata "namespace" = ns.map .string) : withNamespace ns metadata = metadata := by
  cases ns with
  | none => exact Fields.erase_eq_self h
  | some ns => exact Fields.insert_eq_self h

/-- The object of a coherent resource describes the resource. -/
theorem ofObject_toObject (h : r.IsCoherent) (hns : r.id.ns ≠ some "")
    (hversion : splitApiVersion r.id.gvk.apiVersion = (r.id.gvk.group, r.id.gvk.version)) :
    ofObject r.toObject = .ok r := by
  obtain ⟨metadata, hmetadata⟩ := h.exists_metadata
  have hname := h.name
  have hnamespace := h.ns
  rw [metadataField?_of_metadata? hmetadata] at hname hnamespace
  have htext : Json.Object.text? metadata "name" = some r.id.name := by
    rw [Json.Object.text?, hname]
    rfl
  have hspace : (Json.Object.text? metadata "namespace").filter (!·.isEmpty) = r.id.ns := by
    cases hcase : r.id.ns with
    | none =>
      rw [Json.Object.text?, hnamespace, hcase]
      rfl
    | some ns =>
      rw [hcase] at hns hnamespace
      exact filter_namespace_eq_some_iff.2 ⟨hnamespace, fun hempty => hns (congrArg some hempty)⟩
  have hofId : ofId r.id r.toObject = r := by
    rw [ofId_eq, othersOf_toObject h]
    refine updateMetadata_eq_self hmetadata ?_
    rw [Fields.insert_eq_self hname]
    exact withNamespace_eq_self hnamespace
  refine ofObject_eq_ok_iff.2 ⟨_, _, metadata, _, rfl, rfl, hmetadata, htext, ?_⟩
  rw [hversion, hspace]
  exact hofId.symm

/-- A resource that is made from an identity has the other fields of an object, with its own name and
namespace in the metadata. -/
theorem root_ofId {given : Object} (hgiven : Json.Object.sub? o "metadata" = some given)
    (id : ResourceId) :
    (ofId id o).root = Fields.insert (othersOf o) "metadata"
      (.object (withNamespace id.ns (Fields.insert given "name" (.string id.name)))) := by
  have hsub : Json.Object.sub? (othersOf o) "metadata" = some given := by
    rw [← hgiven, Json.Object.sub?, Json.Object.sub?, get?_othersOf (by decide) (by decide)]
  rw [ofId_eq, updateMetadata, Json.Object.updateSub, hsub, Option.getD_some]

/-- A resource that is made from an identity and different fields has different fields. -/
theorem nodup_keys_ofId (id : ResourceId) (hkeys : (Fields.keys o).Nodup) :
    (Fields.keys (ofId id o).root).Nodup := by
  have hothers : (Fields.keys (othersOf o)).Nodup :=
    Fields.nodup_keys_erase (Fields.nodup_keys_erase hkeys "apiVersion") "kind"
  exact Fields.nodup_keys_insert hothers "metadata" _

/-- The two fields that are written in front are not among those of a coherent resource. -/
theorem IsCoherent.nodup_keys_toObject (h : r.IsCoherent) (hkeys : (Fields.keys r.root).Nodup) :
    (Fields.keys r.toObject).Nodup := by
  have hapiVersion := Fields.not_mem_keys h.apiVersion
  have hkind := Fields.not_mem_keys h.kind
  refine List.nodup_cons.2 ⟨?_, List.nodup_cons.2 ⟨hkind, hkeys⟩⟩
  intro hmem
  rcases List.mem_cons.1 hmem with heq | hmem
  · exact absurd heq (show ¬ "apiVersion" = "kind" by decide)
  · exact hapiVersion hmem

/-- Apart from the fields that tell the identity, a resource has those of the object it is read from. -/
theorem IsRead.get?_root (h : IsRead o r) {key : String}
    (hkey : key ∉ ["apiVersion", "kind", "metadata"]) : Fields.get? r.root key = Fields.get? o key := by
  rw [List.mem_cons, List.mem_cons, List.mem_singleton, not_or, not_or] at hkey
  obtain ⟨hapiVersion, hkind, hmetadata⟩ := hkey
  obtain ⟨given, hgiven, -⟩ := h.metadata
  rw [h.root, root_ofId hgiven, Fields.get?_insert, if_neg hmetadata, get?_othersOf hapiVersion hkind]

/-- Apart from name and namespace, its metadata have the fields of those of the object. -/
theorem IsRead.get?_metadata (h : IsRead o r) {key : String} {metadata given : Object}
    (hkey : key ∉ ["name", "namespace"]) (hmetadata : r.metadata? = some metadata)
    (hgiven : Json.Object.sub? o "metadata" = some given) :
    Fields.get? metadata key = Fields.get? given key := by
  rw [List.mem_cons, List.mem_singleton, not_or] at hkey
  obtain ⟨hname, hns⟩ := hkey
  have hsame : metadata = withNamespace r.id.ns (Fields.insert given "name" (.string r.id.name)) := by
    rw [h.root, metadata?, root_ofId hgiven, Json.Object.sub?, Fields.get?_insert, if_pos rfl] at hmetadata
    exact (Option.some.inj hmetadata).symm
  rw [hsame, get?_withNamespace, if_neg hns, Fields.get?_insert, if_neg hname]

/-! ## What is written -/

/-- In the object of a resource that was read, metadata with a namespace are those that were read, and
others lack the field. -/
theorem root_of_ofObject {metadata : Object} (h : ofObject o = .ok r)
    (hmetadata : Fields.get? o "metadata" = some (.object metadata)) :
    (∀ ns, Fields.get? metadata "namespace" = some (.string ns) → ns ≠ "" → r.root = othersOf o) ∧
      ((∀ ns, Fields.get? metadata "namespace" = some (.string ns) → ns = "") →
        r.root = Fields.insert (othersOf o) "metadata"
          (.object (Fields.erase metadata "namespace"))) := by
  obtain ⟨-, hread, -, -, -, given, hgiven, hname, hns⟩ := isRead_ofObject h
  obtain rfl : metadata = given := by
    cases hmetadata.symm.trans (Json.Object.get?_of_sub? hgiven)
    rfl
  have hroot := congrArg root hread
  rw [root_ofId hgiven, Fields.insert_eq_self (Json.Object.get?_of_text? hname)] at hroot
  constructor
  · intro ns hfound hne
    rw [← hns, filter_namespace_eq_some_iff.2 ⟨hfound, hne⟩, withNamespace_eq_self hfound] at hroot
    rw [hroot]
    refine Fields.insert_eq_self ?_
    rw [get?_othersOf (by decide) (by decide), hmetadata]
  · intro hnone
    have hmissing : r.id.ns = none := by
      refine Option.eq_none_iff_forall_ne_some.2 fun ns hsome => ?_
      obtain ⟨hfound, hne⟩ := filter_namespace_eq_some_iff.1 (hns.trans hsome)
      exact hne (hnone ns hfound)
    rwa [hmissing] at hroot

/-- For a resource that is read from an object, an object is written that has the same `apiVersion` and
`kind` first and then all other fields as they were, and no field twice. Only a namespace that is no text,
or an empty one, is left out of the metadata. The same resource is read from it. This is so unless the
`apiVersion` starts with a slash. -/
theorem toObject_ofObject (h : ofObject o = .ok r)
    (hslash : ∀ apiVersion, Fields.get? o "apiVersion" = some (.string apiVersion) →
      apiVersion.toList.head? ≠ some '/') :
    ∃ apiVersion kind metadata rest, Fields.get? o "apiVersion" = some (.string apiVersion) ∧
      Fields.get? o "kind" = some (.string kind) ∧
      Fields.get? o "metadata" = some (.object metadata) ∧
      r.toObject = ("apiVersion", .string apiVersion) :: ("kind", .string kind) :: rest ∧
      (∀ ns, Fields.get? metadata "namespace" = some (.string ns) → ns ≠ "" → rest = othersOf o) ∧
      ((∀ ns, Fields.get? metadata "namespace" = some (.string ns) → ns = "") →
        rest = Fields.insert (othersOf o) "metadata"
          (.object (Fields.erase metadata "namespace"))) ∧
      ((Fields.keys o).Nodup → (Fields.keys r.toObject).Nodup) ∧
      ofObject r.toObject = .ok r := by
  have hread := isRead_ofObject h
  obtain ⟨apiVersion, kind, metadata, name, hapiVersion, hkind, hmetadata, -, hid⟩ :=
    ofObject_eq_ok_iff.1 h
  obtain ⟨hwith, hwithout⟩ := root_of_ofObject h (Json.Object.get?_of_sub? hmetadata)
  have hsame : r.id.gvk.apiVersion = apiVersion := by
    rw [hid]
    exact apiVersion_splitApiVersion (hslash apiVersion hapiVersion) kind
  have hgvk : splitApiVersion r.id.gvk.apiVersion = (r.id.gvk.group, r.id.gvk.version) := by
    rw [hsame, hid]
    rfl
  refine ⟨apiVersion, kind, metadata, r.root, hapiVersion, hkind, Json.Object.get?_of_sub? hmetadata, ?_,
    hwith, hwithout, fun hkeys => ?_, ofObject_toObject hread.coherent hread.ns hgvk⟩
  · rw [toObject, hsame, hid]
    rfl
  · refine hread.coherent.nodup_keys_toObject ?_
    rw [hread.root]
    exact nodup_keys_ofId r.id hkeys

/-- The fields of a widget: `apiVersion` has two slashes and comes last, and the namespace is a
number. -/
def oddWidget : Object :=
  [("spec", .object [("size", .number (.integer 2))]), ("kind", .string "Widget"),
    ("metadata", .object [("namespace", .number (.integer 5)), ("name", .string "small")]),
    ("apiVersion", .string "example.com/v1/beta")]

/-- The widget is in no namespace, and is read back from the object that is written for it. -/
theorem toObject_oddWidget : ∃ r, ofObject oddWidget = .ok r ∧ r.id.ns = none ∧
    r.toObject = [("apiVersion", .string "example.com/v1/beta"), ("kind", .string "Widget"),
      ("spec", .object [("size", .number (.integer 2))]),
      ("metadata", .object [("name", .string "small")])] ∧
    ofObject r.toObject = .ok r := by
  obtain ⟨r, hr, hns⟩ := exists_ok_of_toOption (x := ofObject oddWidget) (f := (·.id.ns)) (b := none)
    (by decide +kernel)
  obtain ⟨apiVersion, kind, metadata, rest, hapiVersion, hkind, hmetadata, hobject, -, hwithout, -, hback⟩ :=
    toObject_ofObject hr (by
      intro apiVersion h
      cases h
      decide)
  cases hapiVersion
  cases hkind
  cases hmetadata
  rw [hwithout nofun] at hobject
  exact ⟨r, hr, hns, hobject, hback⟩

end Resource

end ProviderAssets
