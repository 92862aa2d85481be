import ProviderAssets.Proofs.Fields
import ProviderAssets.Proofs.Views

/-!
# Changes that are repeated

A change that leaves an object as it is leaves the resource that holds the object in its metadata, down
to the order of fields (`Resource.updateMetadata_eq_self`). Of two changes in the same place, the second
one goes on from what the first one made (`Resource.updateMetadata_updateMetadata`), so that what is
written there in any case is not changed when it is written again.
-/

namespace ProviderAssets

open Json (Object)

namespace Json.Object

variable {o s : Object} {key : String}

/-- An object in a field that a change leaves as it is stays there. -/
theorem updateSub_eq_self {f : Object → Object} (h : sub? o key = some s) (hf : f s = s) :
    updateSub o key f = o := by
  unfold updateSub
  rw [h, Option.getD_some, hf]
  exact Fields.insert_eq_self (get?_of_sub? h)

/-- The same of a change of what is there. -/
theorem modifySub_eq_self {f : Object → Object} (hf : ∀ s, sub? o key = some s → f s = s) :
    modifySub o key f = o := by
  unfold modifySub
  split
  · case h_1 s h =>
    rw [hf s h]
    exact Fields.insert_eq_self (get?_of_sub? h)
  · rfl

/-- Of two changes of the object in a field the second one goes on from the first one. -/
theorem updateSub_updateSub (o : Object) (key : String) (f g : Object → Object) :
    updateSub (updateSub o key f) key g = updateSub o key fun s => g (f s) := by
  have hsub : sub? (updateSub o key f) key = some (f ((sub? o key).getD [])) := by
    unfold sub?
    rw [get?_updateSub, if_pos rfl]
    rfl
  unfold updateSub at hsub ⊢
  rw [hsub, Fields.insert_insert, Option.getD_some]

/-- An object that is put in a field takes the place of any object that was there. -/
theorem updateSub_const_modifySub (o : Object) (key : String) (f : Object → Object) (s : Object) :
    updateSub (modifySub o key f) key (fun _ => s) = updateSub o key fun _ => s := by
  unfold modifySub
  split
  · exact Fields.insert_insert ..
  · rfl

end Json.Object

namespace Resource

variable {r : Resource} {o : Object} {f : Object → Object}

/-- Metadata that a change leaves as they are stay in a resource. -/
theorem updateMetadata_eq_self (h : r.metadata? = some o) (hf : f o = o) :
    r.updateMetadata f = r := by
  unfold updateMetadata
  rw [Json.Object.updateSub_eq_self h hf]

/-- An object in the metadata that a change leaves as it is stays in a resource. -/
theorem updateSub_metadata_eq_self {key : String}
    (h : r.metadata?.bind (Json.Object.sub? · key) = some o) (hf : f o = o) :
    r.updateMetadata (Json.Object.updateSub · key f) = r := by
  obtain ⟨m, hm, ho⟩ := Option.bind_eq_some_iff.1 h
  exact updateMetadata_eq_self hm (Json.Object.updateSub_eq_self ho hf)

/-- Labels that a change leaves as they are stay in a resource. -/
theorem updateLabels_eq_self (h : r.labels? = some o) (hf : f o = o) : r.updateLabels f = r :=
  updateSub_metadata_eq_self h hf

/-- So do annotations. -/
theorem updateAnnotations_eq_self (h : r.annotations? = some o) (hf : f o = o) :
    r.updateAnnotations f = r := updateSub_metadata_eq_self h hf

/-- The same of a change of annotations that are there, if there are any. -/
theorem modifyAnnotations_eq_self (h : r.metadata? = some o)
    (hf : ∀ a, r.annotations? = some a → f a = a) : r.modifyAnnotations f = r := by
  refine updateMetadata_eq_self h (Json.Object.modifySub_eq_self fun a ha => hf a ?_)
  rw [annotations?, h, Option.bind_some, ha]

/-- Of two changes of the metadata the second one goes on from the first one. -/
theorem updateMetadata_updateMetadata (r : Resource) (f g : Object → Object) :
    (r.updateMetadata f).updateMetadata g = r.updateMetadata fun m => g (f m) := by
  unfold updateMetadata
  rw [Json.Object.updateSub_updateSub]

/-- Annotations that replace all others do so after any change of these. -/
theorem annotate_modifyAnnotations (a : Annotations) (r : Resource) (f : Object → Object) :
    (r.modifyAnnotations f).annotate a false = r.annotate a false := by
  unfold annotate updateAnnotations modifyAnnotations
  rw [updateMetadata_updateMetadata]
  congr 1
  funext m
  exact Json.Object.updateSub_const_modifySub ..

/-- Of two changes of the annotations the second one goes on from the first one. -/
theorem updateAnnotations_updateAnnotations (r : Resource) (f g : Object → Object) :
    (r.updateAnnotations f).updateAnnotations g = r.updateAnnotations fun a => g (f a) := by
  unfold updateAnnotations
  rw [updateMetadata_updateMetadata]
  congr 1
  funext m
  exact Json.Object.updateSub_updateSub ..

/-- Annotations that replace all others replace those that were put there before. -/
theorem annotate_annotate (a b : Annotations) (merge : Bool) (r : Resource) :
    (r.annotate b merge).annotate a false = r.annotate a false :=
  updateAnnotations_updateAnnotations ..

end Resource

end ProviderAssets
