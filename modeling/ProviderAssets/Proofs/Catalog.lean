import ProviderAssets.Image
import ProviderAssets.ImageCatalog
import ProviderAssets.Proofs.Fields
import ProviderAssets.Proofs.Json.Texts
import ProviderAssets.Proofs.Success

/-!
# The image catalog as a map

A map in sorted order is determined by its values (`SortedFields.ext_get?`), and so is the text of a
catalog. Images that are merged into a catalog are found at their keys, and leave the others
(`ImageCatalog.get?_merge`), and it changes nothing to merge the same ones again
(`ImageCatalog.mergeAll_mergeAll`). The text of a catalog is read back as the catalog, so that a file is as
good as the map (`ImageCatalog.ofBytes_text`), and there is one text for each catalog
(`ImageCatalog.text_canonical`).
-/

namespace ProviderAssets

namespace SortedFields

variable {m n : SortedFields} {key : String}

/-- A key that comes before all others has no value. -/
theorem get?_eq_none_of_lt {entries : List (String × String)} (h : ∀ e ∈ entries, key < e.1) :
    Fields.get? entries key = none := by
  induction entries with
  | nil => rfl
  | cons e rest ih =>
    obtain ⟨k, v⟩ := e
    obtain ⟨hk, hrest⟩ := List.forall_mem_cons.1 h
    have hne : key ≠ k := by
      rintro rfl
      exact String.lt_irrefl _ hk
    rw [Fields.get?_cons, if_neg hne, ih hrest]

/-- Entries in ascending order are determined by the values at all keys. -/
theorem eq_of_get?_eq {es fs : List (String × String)} (hes : es.Pairwise (·.1 < ·.1))
    (hfs : fs.Pairwise (·.1 < ·.1)) (h : ∀ key, Fields.get? es key = Fields.get? fs key) :
    es = fs := by
  induction es generalizing fs with
  | nil =>
    cases fs with
    | nil => rfl
    | cons f fs =>
      have hf := h f.1
      rw [Fields.get?_cons, if_pos rfl] at hf
      cases hf
  | cons e es ih =>
    obtain ⟨k, v⟩ := e
    obtain ⟨first, hes⟩ := List.pairwise_cons.1 hes
    cases fs with
    | nil =>
      have he := h k
      rw [Fields.get?_cons, if_pos rfl] at he
      cases he
    | cons f fs =>
      obtain ⟨l, w⟩ := f
      obtain ⟨first', hfs'⟩ := List.pairwise_cons.1 hfs
      -- The first keys are the same, since the smaller one of two would be missing on one side.
      have before {k l v w : String} {es fs : List (String × String)}
          (h : Fields.get? ((k, v) :: es) k = Fields.get? ((l, w) :: fs) k)
          (first' : ∀ f ∈ fs, l < f.1) : ¬ k < l := by
        intro hlt
        have hmissing : Fields.get? ((l, w) :: fs) k = none :=
          get?_eq_none_of_lt (List.forall_mem_cons.2
            ⟨hlt, fun f hf => String.lt_trans hlt (first' f hf)⟩)
        rw [hmissing, Fields.get?_cons, if_pos rfl] at h
        cases h
      obtain rfl : k = l := String.le_antisymm
        (String.not_lt.1 (before (h l).symm first)) (String.not_lt.1 (before (h k) first'))
      have hvalue := h k
      rw [Fields.get?_cons, Fields.get?_cons, if_pos rfl, if_pos rfl] at hvalue
      obtain rfl := Option.some.inj hvalue
      refine congrArg _ (ih hes hfs' fun key => ?_)
      by_cases hkey : key = k
      · rw [hkey, get?_eq_none_of_lt first, get?_eq_none_of_lt first']
      · have hrest := h key
        rwa [Fields.get?_cons, Fields.get?_cons, if_neg hkey, if_neg hkey] at hrest

/-- Two maps with the same values at all keys are equal. -/
theorem ext_get? (h : ∀ key, m.get? key = n.get? key) : m = n := by
  have hentries : m.entries = n.entries := eq_of_get?_eq m.ascending n.ascending h
  cases m
  cases n
  cases hentries
  rfl

/-- Entries with different keys that are written into a map are found there, and leave the
others. -/
theorem get?_insertAll {entries : Fields String} (h : (Fields.keys entries).Nodup)
    (m : SortedFields) (key : String) :
    (m.insertAll entries).get? key = (Fields.get? entries key).or (m.get? key) := by
  induction entries generalizing m with
  | nil => rfl
  | cons e rest ih =>
    obtain ⟨k, v⟩ := e
    obtain ⟨hk, hrest⟩ := List.nodup_cons.1 h
    have hinsert : m.insertAll ((k, v) :: rest) = (m.insert k v).insertAll rest := rfl
    rw [hinsert, ih hrest, get?_insert, Fields.get?_cons]
    by_cases hkey : key = k
    · rw [hkey, Fields.get?_eq_none hk, if_pos rfl, if_pos rfl]
      rfl
    · rw [if_neg hkey, if_neg hkey]

/-- The keys of a map are different. -/
theorem nodup_keys (m : SortedFields) : (Fields.keys m.entries).Nodup := by
  have hkeys : (Fields.keys m.entries).Pairwise (· < ·) := List.pairwise_map.2 m.ascending
  refine hkeys.imp fun {k l} hlt => ?_
  rintro rfl
  exact String.lt_irrefl _ hlt

/-- A map arises from writing its entries one after the other. -/
theorem ofPairs_entries (m : SortedFields) : ofPairs m.entries = m := by
  refine ext_get? fun key => ?_
  rw [ofPairs, get?_insertAll m.nodup_keys]
  exact Option.or_none

/-- The bytes of the keys are in strictly ascending order. -/
theorem pairwise_bytes (m : SortedFields) :
    (m.entries.map (·.1.toUTF8.toList)).Pairwise (· < ·) :=
  List.pairwise_map.2 (m.ascending.imp Text.toUTF8_lt)

end SortedFields

namespace ImageCatalog

variable {c d : ImageCatalog}

/-- Two catalogs with the same images at all keys are equal. -/
theorem ext_get? (h : ∀ key, c.get? key = d.get? key) : c = d := by
  have himages : c.images = d.images := SortedFields.ext_get? h
  cases c
  cases d
  cases himages
  rfl

/-- Images that are merged into a catalog are found there, and leave those at other keys. -/
theorem get?_merge {images : Fields String} (h : (Fields.keys images).Nodup) (c : ImageCatalog)
    (key : String) : (c.merge images).get? key = (Fields.get? images key).or (c.get? key) :=
  SortedFields.get?_insertAll h c.images key

/-- The catalog with several releases' images merged into it, one release after the other. -/
def mergeAll (c : ImageCatalog) (merged : List (Fields String)) : ImageCatalog :=
  merged.foldl merge c

/-- At each key there is the image that was merged last, or else the one from before. -/
theorem get?_mergeAll {merged : List (Fields String)}
    (h : ∀ images ∈ merged, (Fields.keys images).Nodup) (c : ImageCatalog) (key : String) :
    (c.mergeAll merged).get? key =
      (merged.reverse.findSome? (Fields.get? · key)).or (c.get? key) := by
  induction merged generalizing c with
  | nil => rfl
  | cons images merged ih =>
    obtain ⟨hfirst, hrest⟩ := List.forall_mem_cons.1 h
    have hmerge : c.mergeAll (images :: merged) = (c.merge images).mergeAll merged := rfl
    rw [hmerge, ih hrest, get?_merge hfirst, List.reverse_cons, List.findSome?_append,
      Option.or_assoc]
    congr 1
    cases hk : Fields.get? images key <;> simp [hk]

/-- Images that are merged again change nothing: the ones that come last are there already. -/
theorem mergeAll_mergeAll {merged : List (Fields String)}
    (h : ∀ images ∈ merged, (Fields.keys images).Nodup) (c : ImageCatalog) :
    (c.mergeAll merged).mergeAll merged = c.mergeAll merged := by
  refine ext_get? fun key => ?_
  rw [get?_mergeAll h, get?_mergeAll h, ← Option.or_assoc, Option.or_self]

/-- The file of a catalog is read as the catalog. -/
theorem ofBytes_text (c : ImageCatalog) : ofBytes c.text.toUTF8.toList = .ok c := by
  rw [ofBytes, text, Json.readFields_pretty]
  show Except.ok (ImageCatalog.mk (.ofPairs c.images.entries)) = _
  rw [SortedFields.ofPairs_entries]

/-- Catalogs with the same text are equal. -/
theorem text_injective (h : c.text = d.text) : c = d := by
  have hread : (Except.ok c : Except Error ImageCatalog) = .ok d := by
    rw [← ofBytes_text c, h, ofBytes_text d]
  exact Except.ok.inj hread

/-- The text of a catalog is its canonical form. It is read back as the catalog, so only equal catalogs
have the same text. Its fields are those of the catalog, in strictly ascending order of the bytes of
their keys, and it ends with one newline. -/
theorem text_canonical (c : ImageCatalog) :
    ofBytes c.text.toUTF8.toList = .ok c ∧
    (∀ d : ImageCatalog, c.text = d.text ↔ c = d) ∧
    (∃ fields, Json.readFields c.text.toUTF8.toList = .ok fields ∧
      (fields.map (·.1.toUTF8.toList)).Pairwise (· < ·) ∧
      ∀ key, Fields.get? fields key = c.get? key) ∧
    ∃ body, c.text = body ++ "\n" ∧ body.toList.getLast? ≠ some '\n' := by
  refine ⟨ofBytes_text c, fun d => ⟨text_injective, congrArg text⟩,
    ⟨c.images.entries, Json.readFields_pretty c.images, c.images.pairwise_bytes, fun _ => rfl⟩,
    Json.pretty c.images, Json.endLine_pretty c.images, ?_⟩
  obtain ⟨cs, hcs⟩ := Json.exists_toList_pretty c.images
  rw [hcs, List.getLast?_concat]
  decide

end ImageCatalog

/-! ## Images by their keys -/

namespace Image

variable {p : Provider} {images : Fields String}

/-- Images by their keys: the keys are different, and each image is at its own one. -/
structure AreKeyed (p : Provider) (images : Fields String) : Prop where
  /-- No key comes twice. -/
  nodup : (Fields.keys images).Nodup
  /-- An image is at its key. -/
  key : ∀ e ∈ images, e.1 = Image.key p e.2

/-- Images stay at their keys when others are written to theirs. -/
theorem AreKeyed.insertAll (h : AreKeyed p images) (more : List String) :
    AreKeyed p (Fields.insertAll images (more.map fun image => (Image.key p image, image))) := by
  induction more generalizing images with
  | nil => exact h
  | cons image more ih =>
    refine ih ⟨Fields.nodup_keys_insert h.nodup _ _, fun e he => ?_⟩
    obtain rfl | he := Fields.mem_insert he
    · rfl
    · exact h.key e he

/-- The images of a manifest are at their keys. -/
theorem areKeyed_images {m : Manifest} (h : m.images p = .ok images) : AreKeyed p images := by
  unfold Manifest.images at h
  have start : AreKeyed p [] := ⟨List.nodup_nil, by simp⟩
  refine @foldlM_invariant _ _ _ _ (fun _ images => AreKeyed p images) ?_ _ [] _ _ start h
  intro _ images r images' himages hstep
  split at hstep
  · obtain ⟨containers, -, hstep⟩ := bind_eq_ok.1 hstep
    cases hstep
    have hmap : containers.map (fun c => (Image.key p c.image, c.image)) =
        (containers.map (·.image)).map fun image => (Image.key p image, image) := by
      rw [List.map_map]
      rfl
    rw [hmap]
    exact himages.insertAll _
  · cases hstep
    exact himages

end Image

end ProviderAssets
