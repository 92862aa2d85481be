import ProviderAssets.Labels
import ProviderAssets.PlatformAnnotations
import ProviderAssets.ServingCertificate.Platform

/-!
# What a resource shows after a change

Stages read a resource through its kind, its name, and the fields of its metadata, and change it in
its metadata, its labels or its annotations. For each such change, the lemmas here say what is seen
afterwards: `metadataField?` is the view of one field of the metadata, and `label?` and `annotation?`
look one level deeper. A change that is made under one field leaves the view of every other one.
-/

namespace ProviderAssets

open Json (Object Value)

namespace Json.Value

/-- A value with fields is the object with these. -/
theorem eq_object {v : Value} {o : Object} (h : v.object? = some o) : v = .object o := by
  cases v <;> cases h
  rfl

/-- A value with a text is the string with this. -/
theorem eq_string {v : Value} {s : String} (h : v.string? = some s) : v = .string s := by
  cases v <;> cases h
  rfl

end Json.Value

namespace Json.Object

/-- An object in a field is the value there. -/
theorem get?_of_sub? {o s : Object} {key : String} (h : sub? o key = some s) :
    Fields.get? o key = some (.object s) := by
  obtain ⟨v, hv, hs⟩ := Option.bind_eq_some_iff.1 h
  exact Value.eq_object hs ▸ hv

/-- A text in a field is the value there. -/
theorem get?_of_text? {o : Object} {key s : String} (h : text? o key = some s) :
    Fields.get? o key = some (.string s) := by
  obtain ⟨v, hv, hs⟩ := Option.bind_eq_some_iff.1 h
  exact Value.eq_string hs ▸ hv

/-- A change of the object in a field sets that field and leaves the others. -/
theorem get?_updateSub (o : Object) (key other : String) (f : Object → Object) :
    Fields.get? (updateSub o key f) other =
      if other = key then some (.object (f ((sub? o key).getD []))) else Fields.get? o other :=
  Fields.get?_insert ..

/-- Another field is as before if the object in a field is changed where there is one. -/
theorem get?_modifySub_of_ne (o : Object) {key other : String} (f : Object → Object)
    (h : other ≠ key) : Fields.get? (modifySub o key f) other = Fields.get? o other := by
  unfold modifySub
  cases sub? o key with
  | none => rfl
  | some s => rw [Fields.get?_insert, if_neg h]

/-- The object in a field after it was changed, where there is one. -/
theorem sub?_modifySub (o : Object) (key : String) (f : Object → Object) :
    sub? (modifySub o key f) key = (sub? o key).map f := by
  unfold modifySub
  cases h : sub? o key with
  | none => exact h
  | some s =>
    show (Fields.get? (Fields.insert o key _) key).bind Value.object? = some (f s)
    rw [Fields.get?_insert, if_pos rfl]
    rfl

end Json.Object

namespace Resource

open Json.Object

/-- The value in a field of the metadata. -/
def metadataField? (r : Resource) (key : String) : Option Value :=
  r.metadata?.bind (Fields.get? · key)

/-- The value of a label. -/
def label? (r : Resource) (key : String) : Option Value := r.labels?.bind (Fields.get? · key)

/-- The value of an annotation. -/
def annotation? (r : Resource) (key : String) : Option Value :=
  r.annotations?.bind (Fields.get? · key)

/-- An object in the metadata is the value in a field. -/
theorem bind_sub? (r : Resource) (key : String) :
    r.metadata?.bind (sub? · key) = (r.metadataField? key).bind Value.object? := by
  unfold metadataField?
  rw [Option.bind_assoc]
  rfl

/-- The text of an annotation is its value, if that is a text. -/
theorem injectionText?_eq (r : Resource) :
    r.injectionText? = (r.annotation? Annotation.injectFrom).bind Value.string? := by
  unfold annotation?
  rw [Option.bind_assoc]
  rfl

/-! ## Changes of the metadata -/

/-- The metadata after a change. -/
theorem metadata?_updateMetadata (r : Resource) (f : Object → Object) :
    (r.updateMetadata f).metadata? = some (f (r.metadata?.getD [])) := by
  show (Fields.get? (updateSub r.root "metadata" f) "metadata").bind Value.object? = _
  rw [get?_updateSub, if_pos rfl]
  rfl

/-- A change of the metadata leaves the other fields of a resource. -/
theorem get?_root_updateMetadata (r : Resource) (f : Object → Object) {key : String}
    (h : key ≠ "metadata") :
    Fields.get? (r.updateMetadata f).root key = Fields.get? r.root key := by
  show Fields.get? (updateSub r.root "metadata" f) key = _
  rw [get?_updateSub, if_neg h]

/-- Metadata are read only as fields, so that none and those without fields look alike. -/
theorem get?_getD_metadata? (r : Resource) (key : String) :
    Fields.get? (r.metadata?.getD []) key = r.metadataField? key := by
  unfold metadataField?
  cases r.metadata? <;> rfl

/-- A field of the metadata after a change. -/
theorem metadataField?_updateMetadata (r : Resource) (f : Object → Object) (key : String) :
    (r.updateMetadata f).metadataField? key = Fields.get? (f (r.metadata?.getD [])) key := by
  rw [metadataField?, metadata?_updateMetadata]
  rfl

/-- A change of the object in a field of the metadata sets that field and leaves the others. -/
theorem metadataField?_updateSub (r : Resource) (key other : String) (f : Object → Object) :
    (r.updateMetadata (updateSub · key f)).metadataField? other =
      if other = key then some (.object (f (((r.metadataField? key).bind Value.object?).getD [])))
      else r.metadataField? other := by
  rw [metadataField?_updateMetadata, get?_updateSub, get?_getD_metadata?]
  unfold sub?
  rw [get?_getD_metadata?]

/-- A change of the labels leaves the other fields of the metadata. -/
theorem metadataField?_updateLabels (r : Resource) (f : Object → Object) {key : String}
    (h : key ≠ "labels") : (r.updateLabels f).metadataField? key = r.metadataField? key := by
  rw [updateLabels, metadataField?_updateSub, if_neg h]

/-- A change of the annotations leaves the other fields of the metadata. -/
theorem metadataField?_updateAnnotations (r : Resource) (f : Object → Object) {key : String}
    (h : key ≠ "annotations") :
    (r.updateAnnotations f).metadataField? key = r.metadataField? key := by
  rw [updateAnnotations, metadataField?_updateSub, if_neg h]

/-- A change of annotations that are there leaves the other fields of the metadata. -/
theorem metadataField?_modifyAnnotations (r : Resource) (f : Object → Object) {key : String}
    (h : key ≠ "annotations") :
    (r.modifyAnnotations f).metadataField? key = r.metadataField? key := by
  rw [modifyAnnotations, metadataField?_updateMetadata, get?_modifySub_of_ne _ _ h,
    get?_getD_metadata?]

/-! ## Labels and annotations -/

/-- What the labels of two resources show is the same if that field of the metadata is. -/
theorem labels?_congr {r s : Resource}
    (h : s.metadataField? "labels" = r.metadataField? "labels") : s.labels? = r.labels? := by
  rw [labels?, labels?, bind_sub?, bind_sub?, h]

/-- What the annotations of two resources show is the same if that field of the metadata is. -/
theorem annotations?_congr {r s : Resource}
    (h : s.metadataField? "annotations" = r.metadataField? "annotations") :
    s.annotations? = r.annotations? := by
  rw [annotations?, annotations?, bind_sub?, bind_sub?, h]

/-- The labels after a change. -/
theorem labels?_updateLabels (r : Resource) (f : Object → Object) :
    (r.updateLabels f).labels? = some (f (r.labels?.getD [])) := by
  rw [labels?, labels?, updateLabels, bind_sub?, bind_sub?, metadataField?_updateSub, if_pos rfl]
  rfl

/-- The labels of a provider are set, and the others are as before. -/
theorem label?_label (p : Provider) (r : Resource) (key : String) :
    (r.label p).label? key =
      if key = Label.installed then some (.string "")
      else if key = Label.provider then some (.string p.manifestLabel)
      else r.label? key := by
  unfold label? label
  rw [labels?_updateLabels, Option.bind_some, Fields.get?_insert, Fields.get?_insert]
  cases r.labels? <;> rfl

/-- The annotations after a change. -/
theorem annotations?_updateAnnotations (r : Resource) (f : Object → Object) :
    (r.updateAnnotations f).annotations? = some (f (r.annotations?.getD [])) := by
  rw [annotations?, annotations?, updateAnnotations, bind_sub?, bind_sub?,
    metadataField?_updateSub, if_pos rfl]
  rfl

/-- Annotations that are there after a change. -/
theorem annotations?_modifyAnnotations (r : Resource) (f : Object → Object) :
    (r.modifyAnnotations f).annotations? = r.annotations?.map f := by
  unfold annotations? modifyAnnotations
  rw [metadata?_updateMetadata, Option.bind_some, sub?_modifySub]
  cases r.metadata? <;> rfl

/-- Where there are no annotations to change, the metadata stay as they are. -/
theorem metadataField?_modifyAnnotations_of_none (r : Resource) (f : Object → Object) (key : String)
    (h : r.annotations? = none) :
    (r.modifyAnnotations f).metadataField? key = r.metadataField? key := by
  rw [modifyAnnotations, metadataField?_updateMetadata, ← get?_getD_metadata?]
  unfold annotations? at h
  unfold modifySub
  cases hm : r.metadata? with
  | none => rfl
  | some o =>
    rw [hm, Option.bind_some] at h
    simp only [Option.getD_some, h]

/-! ## Resources with other annotations -/

/-- `s` is the resource `r` with other annotations. -/
structure Reannotated (r s : Resource) : Prop where
  /-- The identity is the same. -/
  id : s.id = r.id
  /-- All fields next to the metadata are as before. -/
  root : ∀ key, key ≠ "metadata" → Fields.get? s.root key = Fields.get? r.root key
  /-- All fields of the metadata next to the annotations are as before. -/
  metadata : ∀ key, key ≠ "annotations" → s.metadataField? key = r.metadataField? key

namespace Reannotated

/-- A resource that is not changed has no other annotations. -/
protected theorem refl (r : Resource) : Reannotated r r := ⟨rfl, fun _ _ => rfl, fun _ _ => rfl⟩

/-- A change of the annotations is no other change. -/
theorem updateAnnotations (r : Resource) (f : Object → Object) :
    Reannotated r (r.updateAnnotations f) where
  id := rfl
  root _ h := get?_root_updateMetadata r _ h
  metadata _ h := metadataField?_updateAnnotations r f h

/-- A change of annotations that are there is no other change. -/
theorem modifyAnnotations (r : Resource) (f : Object → Object) :
    Reannotated r (r.modifyAnnotations f) where
  id := rfl
  root _ h := get?_root_updateMetadata r _ h
  metadata _ h := metadataField?_modifyAnnotations r f h

end Reannotated

/-! ## Changes of the identity -/

/-- Moving a resource sets the namespace in its metadata and leaves the other fields. -/
theorem metadataField?_setNamespace (r : Resource) (ns key : String) :
    (r.setNamespace (some ns)).metadataField? key =
      if key = "namespace" then some (.string ns) else r.metadataField? key := by
  show (r.updateMetadata (withNamespace (some ns))).metadataField? key = _
  rw [metadataField?_updateMetadata, withNamespace, Fields.get?_insert, get?_getD_metadata?]

/-- Moving a resource leaves the fields next to its metadata. -/
theorem get?_root_setNamespace (r : Resource) (ns : Option String) {key : String}
    (h : key ≠ "metadata") :
    Fields.get? (r.setNamespace ns).root key = Fields.get? r.root key :=
  get?_root_updateMetadata r (withNamespace ns) h

end Resource

end ProviderAssets
