import ProviderAssets.Proofs.Changes

/-!
# Annotating resources

Annotations are put on a resource in one of two ways: they replace those that are there, or they are
merged into them. `Annotations.Merges` says what a merge makes of the old ones, and
`Resource.ReplacedAnnotations` that nothing else changes. Both ways write to the annotations alone, so
that a resource that is annotated twice is one whose annotations are changed by both writes one after
the other (`Resource.updateAnnotations_updateAnnotations`); from this come the laws of the main
statement, `Resource.annotate_laws`.
-/

namespace ProviderAssets

open Json (Object Value)

/-! ## Writing some fields one after the other -/

namespace Fields

variable {α : Type} {f g : Fields α}

/-- Fields that are written later count. -/
theorem get?_insertAll (h : (keys g).Nodup) (f : Fields α) (key : String) :
    get? (insertAll f g) key = (get? g key).or (get? f key) := by
  induction g generalizing f with
  | nil => rfl
  | cons e rest ih =>
    obtain ⟨k, v⟩ := e
    obtain ⟨hnew, hrest⟩ := List.nodup_cons.1 h
    show get? (insertAll (insert f k v) rest) key = _
    rw [ih hrest, get?_insert, get?_cons]
    by_cases hkey : key = k
    · rw [if_pos hkey, if_pos hkey, hkey, get?_eq_none hnew]
      rfl
    · rw [if_neg hkey, if_neg hkey]

/-- Keys that are there keep their places, and new ones come after them in their order. -/
theorem keys_insertAll_of_nodup (h : (keys g).Nodup) (f : Fields α) :
    keys (insertAll f g) = keys f ++ (keys g).filter (· ∉ keys f) := by
  induction g generalizing f with
  | nil => exact (List.append_nil _).symm
  | cons e rest ih =>
    obtain ⟨k, v⟩ := e
    obtain ⟨hnew, hrest⟩ := List.nodup_cons.1 h
    show keys (insertAll (insert f k v) rest) = keys f ++ (k :: keys rest).filter (· ∉ keys f)
    rw [ih hrest, keys_insert]
    by_cases hk : k ∈ keys f
    · rw [if_pos hk, List.filter_cons_of_neg (by simpa using hk)]
    · have hsame : (keys rest).filter (· ∉ keys f ++ [k]) = (keys rest).filter (· ∉ keys f) := by
        refine List.filter_congr fun key hkey => ?_
        have hne : key ≠ k := fun he => hnew (he ▸ hkey)
        simp [hne]
      rw [if_neg hk, hsame, List.filter_cons_of_pos (by simpa using hk), List.append_assoc]
      rfl

/-- Writing some fields leaves the others. -/
protected theorem SameBut.insertAll {names : List String} (f : Fields α) {g : Fields α}
    (h : ∀ key ∈ keys g, key ∈ names) : SameBut names f (insertAll f g) := by
  induction g generalizing f with
  | nil => exact .refl names f
  | cons e rest ih =>
    obtain ⟨hkey, hrest⟩ := List.forall_mem_cons.1 h
    exact (SameBut.insert f e.2 hkey).trans (ih (Fields.insert f e.1 e.2) hrest)

/-- Writing what is there changes nothing. -/
theorem insertAll_eq_self (h : ∀ e ∈ g, get? f e.1 = some e.2) : insertAll f g = f := by
  induction g with
  | nil => rfl
  | cons e rest ih =>
    obtain ⟨hfound, hrest⟩ := List.forall_mem_cons.1 h
    show insertAll (insert f e.1 e.2) rest = f
    rw [insert_eq_self hfound, ih hrest]

/-- An entry is found if no key comes twice. -/
theorem get?_of_mem (h : (keys f).Nodup) {e : String × α} (he : e ∈ f) : get? f e.1 = some e.2 := by
  induction f with
  | nil => cases he
  | cons first rest ih =>
    obtain ⟨k, v⟩ := first
    obtain ⟨hnew, hrest⟩ := List.nodup_cons.1 h
    rw [get?_cons]
    rcases List.mem_cons.1 he with rfl | he
    · exact if_pos rfl
    · have hkey : e.1 ∈ keys rest := List.mem_map_of_mem he
      have hne : e.1 ≠ k := fun hk => hnew (hk ▸ hkey)
      rw [if_neg hne, ih hrest he]

end Fields

/-! ## Annotations as values -/

namespace Annotations

variable {a : Annotations} {old : Object}

/-- Annotations as the values that are written for them. -/
def values (a : Annotations) : Object := a.map fun (key, value) => (key, .string value)

/-- The keys are those of the annotations. -/
theorem keys_values (a : Annotations) : Fields.keys a.values = Fields.keys a := by
  unfold values Fields.keys
  rw [List.map_map]
  rfl

/-- The values are the texts of the annotations. -/
theorem get?_values (a : Annotations) (key : String) :
    Fields.get? a.values key = (Fields.get? a key).map .string := by
  induction a with
  | nil => rfl
  | cons e rest ih =>
    show Fields.get? ((e.1, Value.string e.2) :: values rest) key = _
    rw [Fields.get?_cons, Fields.get?_cons, ih]
    split
    · rfl
    · rfl

/-- What annotations make of some others that they are merged into. -/
structure Merges (a : Annotations) (old new : Object) : Prop where
  /-- Every annotation has its text. -/
  holds : ∀ key text, Fields.get? a key = some text → Fields.get? new key = some (.string text)
  /-- The others stay as they are and in their order. -/
  others : Fields.SameBut (Fields.keys a) old new
  /-- Those that were there keep their places, and new ones come last, in their order. -/
  keys : Fields.keys new = Fields.keys old ++ (Fields.keys a).filter (· ∉ Fields.keys old)

/-- Annotations are merged by writing them one after the other. -/
theorem merges_writeOver (distinct : (Fields.keys a).Nodup) (old : Object) :
    a.Merges old (a.writeOver old) := by
  have hvalues : (Fields.keys a.values).Nodup := by rwa [keys_values]
  show a.Merges old (Fields.insertAll old a.values)
  refine ⟨fun key text hfound => ?_, ?_, ?_⟩
  · rw [Fields.get?_insertAll hvalues, get?_values, hfound]
    rfl
  · refine Fields.SameBut.insertAll old fun key hkey => ?_
    rwa [keys_values] at hkey
  · rw [Fields.keys_insertAll_of_nodup hvalues, keys_values]

/-- Annotations that are written where there are none are what is there. -/
theorem writeOver_nil (distinct : (Fields.keys a).Nodup) : a.writeOver [] = a.values := by
  have hvalues : (Fields.keys a.values).Nodup := by rwa [keys_values]
  exact Fields.ofPairs_of_nodup hvalues

/-- Annotations that are there already are merged without a change. -/
theorem writeOver_writeOver (distinct : (Fields.keys a).Nodup) (old : Object) :
    a.writeOver (a.writeOver old) = a.writeOver old := by
  have hvalues : (Fields.keys a.values).Nodup := by rwa [keys_values]
  show Fields.insertAll (Fields.insertAll old a.values) a.values = Fields.insertAll old a.values
  refine Fields.insertAll_eq_self fun e he => ?_
  rw [Fields.get?_insertAll hvalues, Fields.get?_of_mem hvalues he]
  rfl

end Annotations

/-! ## Annotated resources -/

namespace Resource

variable {r : Resource}

/-- `s` is the resource `r` with other annotations; all other fields are as before and in their
order. -/
structure ReplacedAnnotations (r s : Resource) : Prop where
  /-- The identity is the same. -/
  id : s.id = r.id
  /-- The fields next to the metadata are the same. -/
  root : Fields.SameBut ["metadata"] r.root s.root
  /-- The fields of the metadata next to the annotations are the same. Anything but an object counts
  as no metadata. -/
  metadata : ∃ o, s.metadata? = some o ∧
    Fields.SameBut ["annotations"] (r.metadata?.getD []) o

/-- A change of the annotations is no other change. -/
theorem replacedAnnotations_update (r : Resource) (f : Object → Object) :
    ReplacedAnnotations r (r.updateAnnotations f) where
  id := rfl
  root := .insert _ _ (List.mem_singleton.2 rfl)
  metadata := ⟨_, metadata?_updateMetadata .., .insert _ _ (List.mem_singleton.2 rfl)⟩

/-- A change of the annotations depends on what it makes of those that are there. -/
theorem updateAnnotations_congr {f g : Object → Object}
    (h : f (r.annotations?.getD []) = g (r.annotations?.getD [])) :
    r.updateAnnotations f = r.updateAnnotations g := by
  have hold : r.annotations?.getD [] =
      (Json.Object.sub? (r.metadata?.getD []) "annotations").getD [] := by
    unfold annotations?
    cases r.metadata? <;> rfl
  rw [hold] at h
  have hmetadata : Json.Object.updateSub (r.metadata?.getD []) "annotations" f =
      Json.Object.updateSub (r.metadata?.getD []) "annotations" g := by
    unfold Json.Object.updateSub
    rw [h]
  unfold updateAnnotations updateMetadata
  rw [Json.Object.updateSub, Json.Object.updateSub]
  exact congrArg (fun m => { r with root := Fields.insert r.root "metadata" (.object m) }) hmetadata

/-- The laws of annotating a resource, for annotations `a` with different keys. When they replace
others, they are what is there afterwards, in their order, whatever was there and however it came
there. When they are merged, every one of them has its text and the others stay; where there were no
annotations this is the same as replacing, and a second time changes nothing, no more than it does
after a replacement. Nothing but the annotations changes. -/
theorem annotate_laws {a : Annotations} (distinct : (Fields.keys a).Nodup) (b : Annotations)
    (r : Resource) :
    (r.annotate a false).annotations? = some a.values ∧
    (∀ merge, (r.annotate b merge).annotate a false = r.annotate a false) ∧
    (∃ new, (r.annotate a true).annotations? = some new ∧ a.Merges (r.annotations?.getD []) new) ∧
    (r.annotations? = none → r.annotate a true = r.annotate a false) ∧
    (r.annotate a true).annotate a true = r.annotate a true ∧
    (r.annotate a false).annotate a true = r.annotate a false ∧
    ∀ merge, ReplacedAnnotations r (r.annotate a merge) := by
  have again (old : Object) := Annotations.writeOver_writeOver distinct old
  refine ⟨?_, fun merge => annotate_annotate a b merge r, ?_, fun hnone => ?_, ?_, ?_, fun merge => ?_⟩
  · -- Replacing writes to nothing.
    rw [annotate, annotations?_updateAnnotations]
    exact congrArg some (Annotations.writeOver_nil distinct)
  · exact ⟨_, annotations?_updateAnnotations .., Annotations.merges_writeOver distinct _⟩
  · refine updateAnnotations_congr ?_
    rw [hnone]
    rfl
  · unfold annotate
    rw [updateAnnotations_updateAnnotations]
    exact updateAnnotations_congr (again _)
  · unfold annotate
    rw [updateAnnotations_updateAnnotations]
    exact updateAnnotations_congr (again _)
  · exact replacedAnnotations_update r _

/-- An account that has annotations, one of which is also one of those for a release. -/
def ownedAccount : Resource :=
  (ofId ⟨⟨"", "v1", "ServiceAccount"⟩, "manager", some "a"⟩ []).annotate
    [("release.openshift.io/feature-set", "Default"), ("owner", "upstream")] false

/-- The account is annotated for a release. -/
theorem annotate_ownedAccount :
    (Fields.keys Annotations.release).Nodup ∧
    (ownedAccount.annotate .release false).annotations? = some Annotations.release.values ∧
    (∃ new, (ownedAccount.annotate .release true).annotations? = some new ∧
      Annotations.release.Merges
        [("release.openshift.io/feature-set", .string "Default"), ("owner", .string "upstream")]
        new) := by
  have distinct : (Fields.keys Annotations.release).Nodup := by decide
  obtain ⟨hreplaced, -, hmerged, -⟩ := annotate_laws distinct [] ownedAccount
  exact ⟨distinct, hreplaced, hmerged⟩

end Resource

end ProviderAssets
