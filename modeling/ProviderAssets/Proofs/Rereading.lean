import ProviderAssets.Manifest.Text
import ProviderAssets.Proofs.Encoding
import ProviderAssets.Proofs.Yaml.Shown
import ProviderAssets.Proofs.Yaml.Values

/-!
# Reading a manifest back

The text of a manifest is cut and joined around the documents of its resources, and the identities
are read anew from these. `Manifest.ofText_render_iff` says when nothing is lost that way: the line
breaks at the end of a text that comes last in a document may be lost, and a version that is not in a
group may be cut in two.
-/

namespace ProviderAssets

open Json (Object)
open Json.Value (IsRegular RegularFields)
open Json.Number (InRange)

namespace Resource

variable {r : Resource} {o : Object}

/-! ## What is left of resources -/

/-- Metadata from whose rest the identity of a coherent resource is read are left as they are. -/
theorem IsRead.metadata_eq {e : Yaml.Ending} {metadata : Object} (h : IsRead o r)
    (hmetadata : r.metadata? = some metadata) (hkeys : (Fields.keys metadata).Nodup)
    (hgiven : Json.Object.sub? o "metadata" = some (e.fields metadata)) :
    e.fields metadata = metadata := by
  have hfield := metadataField?_of_metadata? hmetadata
  -- Name and namespace are read from what is left, so they are left; all others were copied from it.
  obtain ⟨given, hsub, hname, hns⟩ := h.metadata
  obtain rfl : e.fields metadata = given := Option.some.inj (hgiven.symm.trans hsub)
  refine Fields.ext_of_nodup (e.keys_fields metadata) hkeys fun key => ?_
  by_cases hkey : key ∈ ["name", "namespace"]
  · rw [List.mem_cons, List.mem_singleton] at hkey
    rcases hkey with rfl | rfl
    · rw [Json.Object.get?_of_text? hname, ← h.coherent.name, hfield]
    · rw [← hfield, h.coherent.ns]
      cases hcase : r.id.ns with
      | none =>
        have hmissing : Fields.get? metadata "namespace" = none := by
          rw [← hfield, h.coherent.ns, hcase]
          rfl
        rcases e.get?_fields metadata "namespace" with hleft | hleft <;> rw [hleft, hmissing] <;> rfl
      | some ns =>
        rw [hcase] at hns
        exact (filter_namespace_eq_some_iff.1 hns).1
  · exact (h.get?_metadata hkey hmetadata hgiven).symm

/-- Of the object of a resource with fields of its own, only these may be read as others. -/
theorem fields_toObject (e : Yaml.Ending) (hroot : r.root ≠ []) :
    e.fields r.toObject =
      ("apiVersion", .string r.id.gvk.apiVersion) :: ("kind", .string r.id.gvk.kind) ::
        e.fields r.root := by
  obtain ⟨f, fs, hcons⟩ := List.exists_cons_of_ne_nil hroot
  have hkept (s : String) : Yaml.Ending.kept.value (.string s) = .string s := Yaml.Ending.value_kept _
  rw [toObject, hcons, Yaml.Ending.fields, Yaml.Ending.fields]
  exact congrArg₂ (fun v w => (_, v) :: (_, w) :: _) (hkept _) (hkept _)

/-- A coherent resource that is read from what is left of its object is read from that object. -/
theorem IsRead.fields_eq {e : Yaml.Ending} {p : Json.Number → Prop} {depth : Nat}
    (h : IsRead (e.fields r.toObject) r) (hregular : IsRegular p depth (.object r.toObject)) :
    e.fields r.toObject = r.toObject := by
  obtain ⟨metadata, hmetadata⟩ := h.coherent.exists_metadata
  have hfound : Fields.get? r.root "metadata" = some (.object metadata) :=
    Json.Object.get?_of_sub? hmetadata
  have hroot : r.root ≠ [] := by
    intro hnil
    rw [hnil] at hfound
    cases hfound
  obtain ⟨k, rfl, hkeys, -, -, hfields⟩ := Json.Value.isRegular_object.1 hregular
  have hkeys : (Fields.keys r.root).Nodup := (List.nodup_cons.1 (List.nodup_cons.1 hkeys).2).2
  obtain ⟨-, -, hinner, -⟩ := Json.Value.isRegular_object.1 (hfields.get? hfound)
  rw [fields_toObject e hroot] at h ⊢
  have hgiven {key : String} (hapiVersion : key ≠ "apiVersion") (hkind : key ≠ "kind") :
      Fields.get? (("apiVersion", Json.Value.string r.id.gvk.apiVersion) ::
        ("kind", .string r.id.gvk.kind) :: e.fields r.root) key = Fields.get? (e.fields r.root) key := by
    rw [Fields.get?_cons, if_neg hapiVersion, Fields.get?_cons, if_neg hkind]
  -- All fields of the resource but the metadata are those it is read from.
  have hsame : e.fields r.root = r.root := by
    refine Fields.ext_of_nodup (e.keys_fields _) hkeys fun key => ?_
    rcases e.get?_fields r.root key with hleft | hleft
    · by_cases hmem : key ∈ ["apiVersion", "kind", "metadata"]
      · rw [List.mem_cons, List.mem_cons, List.mem_singleton] at hmem
        rcases hmem with rfl | rfl | rfl
        · rw [hleft, h.coherent.apiVersion, Option.map_none]
        · rw [hleft, h.coherent.kind, Option.map_none]
        · have hsub : Json.Object.sub? (("apiVersion", Json.Value.string r.id.gvk.apiVersion) ::
              ("kind", .string r.id.gvk.kind) :: e.fields r.root) "metadata" =
                some (e.fields metadata) := by
            rw [Json.Object.sub?, hgiven (by decide) (by decide), hleft, hfound]
            rfl
          rw [hleft, hfound, Option.map_some, Yaml.Ending.value, h.metadata_eq hmetadata hinner hsub]
      · rw [h.get?_root hmem]
        rw [List.mem_cons, List.mem_cons, not_or, not_or] at hmem
        exact (hgiven hmem.1 hmem.2.1).symm
    · exact hleft
  rw [hsame, toObject]

/-- A resource is read back from what is left of its object exactly if that is the object, and the
version stays in one piece. -/
theorem IsRead.ofObject_fields_iff {e : Yaml.Ending} {p : Json.Number → Prop} {depth : Nat}
    (h : IsRead o r) (hregular : IsRegular p depth (.object r.toObject)) :
    ofObject (e.fields r.toObject) = .ok r ↔
      e.fields r.toObject = r.toObject ∧ (r.id.gvk.group = "" → '/' ∉ r.id.gvk.version.toList) := by
  rw [← splitApiVersion_apiVersion_iff h.group]
  refine ⟨fun hread => ?_, fun ⟨hsame, hversion⟩ => ?_⟩
  · have hread := isRead_ofObject hread
    have hsame := hread.fields_eq hregular
    obtain ⟨s, hs, hsplit⟩ := hread.apiVersion
    rw [hsame] at hs
    cases hs
    exact ⟨hsame, hsplit⟩
  · rw [hsame]
    exact ofObject_toObject h.coherent h.ns hversion

/-- The fields of a resource that is made from an identity are as regular as those it is made of, if
these may have objects in them. -/
theorem regularFields_ofId {p : Json.Number → Prop} {depth : Nat} (id : ResourceId)
    (h : RegularFields p (depth + 1) o) : RegularFields p (depth + 1) (ofId id o).root := by
  have h' : RegularFields p (depth + 1) (othersOf o) := (h.erase "apiVersion").erase "kind"
  -- The metadata that are changed are an object of the resource, or empty.
  obtain ⟨hkeys, hmetadata⟩ :
      (Fields.keys ((Json.Object.sub? (othersOf o) "metadata").getD [])).Nodup ∧
        RegularFields p depth ((Json.Object.sub? (othersOf o) "metadata").getD []) := by
    cases hsub : Json.Object.sub? (othersOf o) "metadata" with
    | none => exact ⟨.nil, trivial⟩
    | some metadata => exact h'.get? (Json.Object.get?_of_sub? hsub)
  refine h'.insert "metadata" ⟨?_, ?_⟩
  · cases id.ns with
    | none => exact Fields.nodup_keys_erase (Fields.nodup_keys_insert hkeys _ _) _
    | some ns => exact Fields.nodup_keys_insert (Fields.nodup_keys_insert hkeys _ _) _ _
  · cases id.ns with
    | none => exact (hmetadata.insert _ (Json.Value.isRegular_string _)).erase _
    | some ns => exact (hmetadata.insert _ (Json.Value.isRegular_string _)).insert _ (Json.Value.isRegular_string _)

/-- The object of a resource that was read is as regular as the one that it was read from. -/
theorem IsRead.isRegular {p : Json.Number → Prop} {depth : Nat} (h : IsRead o r)
    (hregular : IsRegular p (depth + 2) (.object o)) : IsRegular p (depth + 2) (.object r.toObject) := by
  have hkeys := nodup_keys_ofId r.id hregular.1
  have hfields := regularFields_ofId r.id hregular.2
  rw [← h.root] at hkeys hfields
  exact ⟨h.coherent.nodup_keys_toObject hkeys, trivial, trivial, hfields⟩

end Resource

namespace Manifest

open Yaml (Node Shows StreamEndsIn streamChars)

variable {m : Manifest} {r : Resource}

/-! ## Reading one document -/

/-- The documents of a manifest. -/
def documentsOf (m : Manifest) : List Json.Value := m.resources.map fun r => .object r.toObject

/-- A value that was read from a document is readable. -/
theorem isReadable_readDocument {d : Yaml.Document} {v : Yaml.Value} {x : Yaml.Value.Reading}
    (h : (Yaml.Value.decoder x).readDocument d = .ok v) : v.IsReadable 128 := by
  unfold Yaml.Decoder.readDocument at h
  obtain ⟨⟨w, k⟩, hw, h⟩ := bind_eq_ok.1 h
  cases hfault : d.fault with
  | some f =>
    simp only [hfault] at h
    cases h
  | none =>
    simp only [hfault] at h
    cases h
    exact Yaml.Value.isReadable_readWith 129 hw

/-- A resource that was read from a document was read from an object, which is regular. -/
theorem exists_of_resourceOf {d : Yaml.Document} (h : resourceOf d = .ok (some r)) :
    ∃ o, Resource.IsRead o r ∧ IsRegular InRange 128 (.object o) := by
  obtain ⟨v, hv, -, hread⟩ := resourceOf_eq_some_iff.1 h
  obtain ⟨o, ho, hread⟩ := Resource.ofValue_eq_ok_iff.1 hread
  exact ⟨o, Resource.isRead_ofObject hread, Yaml.Value.isRegular_toObject (isReadable_readDocument hv) ho⟩

/-- A document that shows a regular object is read as the resource that the object describes. -/
theorem resourceOf_shows_iff {n : Node} {o : Object} (hshows : Shows (.object o) n)
    (hregular : IsRegular InRange 128 (.object o))
    (hnumbers : IsRegular Yaml.ReadsBack 128 (.object o)) :
    resourceOf ⟨n, none⟩ = .ok (some r) ↔ Resource.ofObject o = .ok r := by
  obtain ⟨v, hv⟩ : ∃ v, v = Yaml.Value.ofJson (.object o) := ⟨_, rfl⟩
  have hrun (s : Yaml.Surroundings) : Yaml.Value.decoder .anyValue {} n s 0 = .ok (v, 0) := by
    rw [hv]
    exact Yaml.Value.decodes_all.1 _ hshows hnumbers (Nat.lt_succ_self 128) s 0
  have hdocument : (Yaml.Value.decoder .anyValue).readDocument ⟨n, none⟩ = .ok v := by
    unfold Yaml.Decoder.readDocument
    simp only [hrun]
    rfl
  have hobject : v.toObject = .ok o := hv ▸ Yaml.Value.toObject_ofJson hregular
  have hnull : v.isNull = false := by
    rw [hv]
    rfl
  simp only [resourceOf_eq_some_iff, Resource.ofValue_eq_ok_iff, hdocument, Except.ok.injEq,
    exists_eq_left', hnull, hobject, true_and]

/-! ## Reading all documents -/

/-- The text of a manifest is the stream of its documents, without a line feed at the end. -/
theorem render_eq (m : Manifest) :
    m.render = String.ofList (streamChars .bare (m.documentsOf.map Yaml.Printer.document)) := by
  have htrim (r : Resource) : Text.trimNewlines r.render =
      String.ofList (Yaml.trimFeeds (Yaml.Printer.document (.object r.toObject))) := by
    rw [Text.trimNewlines, Resource.render, Yaml.render, String.toList_ofList]
    rfl
  have hjoin (rs : List Resource) :
      Text.joinWith "\n---\n" (rs.map fun r => Text.trimNewlines r.render) = String.ofList
        (streamChars .bare (rs.map fun r => Yaml.Printer.document (.object r.toObject))) := by
    induction rs with
    | nil => rfl
    | cons r rs ih =>
      cases rs with
      | nil => exact htrim r
      | cons r' rs =>
        have hline : ("\n---\n" : String) = String.ofList ['\n', '-', '-', '-', '\n'] := rfl
        have hrest : Text.joinWith "\n---\n" ((r :: r' :: rs).map fun r => Text.trimNewlines r.render) =
            Text.trimNewlines r.render ++ "\n---\n" ++
              Text.joinWith "\n---\n" ((r' :: rs).map fun r => Text.trimNewlines r.render) := rfl
        rw [hrest, ih, htrim, hline, ← String.ofList_append, ← String.ofList_append]
        simp [streamChars, Yaml.Ending.cut]
  rw [render, hjoin, documentsOf, List.map_map]
  rfl

/-- A manifest is made of as many elements as it has resources exactly if the resources are made of
them, in order. -/
theorem IsKeyed.collect_eq_ok_iff (hm : m.IsKeyed) {α : Type} {f : α → Except Error (Option Resource)}
    {xs : List α} (hlength : xs.length = m.resources.length) :
    collect f xs = .ok m ↔ List.Forall₂ (fun x r => f x = .ok (some r)) xs m.resources := by
  refine ⟨fun h => ?_, fun h => ?_⟩
  · obtain ⟨made, hmade, hresources, -⟩ := collect_eq_ok h
    -- Something is made of every element, or there would be fewer resources.
    have hall : made = m.resources.map some := by
      have hsome : ∀ y ∈ made, y.isSome = true := by
        refine List.filterMap_length_eq_length.1 ?_
        rw [← hmade.length_eq, hlength, hresources]
        rfl
      rw [hresources, List.map_filterMap]
      refine ((List.filterMap_congr fun y hy => ?_).trans List.filterMap_some).symm
      obtain ⟨r, rfl⟩ := Option.isSome_iff_exists.1 (hsome y hy)
      rfl
    rw [hall] at hmade
    simpa using hmade
  · refine collect_iff_isCollected.2 ⟨m.resources.map some, List.forall₂_map_right_iff.2 h, ?_, hm⟩
    rw [List.filterMap_map]
    exact List.filterMap_some.symm

/-- The only document of an empty text is absent. -/
theorem documents_empty : Yaml.documents "" = [⟨.absent Yaml.Mark.start, none⟩] := by
  have hchars : Yaml.charsOfString "" = .ok [] := Yaml.charsOfString_of_isShown nofun
  have htokens : Yaml.Tokens.ofChars [] = ⟨[⟨.streamEnd, Yaml.Mark.start, Yaml.Mark.start⟩], none⟩ := rfl
  rw [Yaml.documents, hchars, Yaml.documentsOfChars, htokens]
  rfl

/-- Whether a double is read back from its text. -/
def ReadsFloatBack (x : Json.Number) : Prop :=
  ∀ y, x = .float y → Yaml.readPlain (y.render .compact) = .float y

/-- Where all doubles of a regular object are read back, all its numbers are. -/
theorem isRegular_readsBack {v : Json.Value} {depth : Nat} (h : IsRegular InRange depth v)
    (hfloats : v.AllNumbers ReadsFloatBack) : IsRegular Yaml.ReadsBack depth v := by
  refine (Json.Value.IsRegular.of_allNumbers fun n hn hfloat => ?_).1 v depth h hfloats
  cases n with
  | integer n => exact Yaml.readPlain_integer hn.1 hn.2
  | float x => exact hfloat x rfl

/-- Documents that show what is left of the objects of resources are read as the resources exactly if
these are left as they are, and the versions stay in one piece. -/
theorem resourceOf_documents_iff {rs : List Resource} {vs : List Json.Value} {ns : List Node}
    (hread : ∀ r ∈ rs, (∃ o, Resource.IsRead o r) ∧ IsRegular InRange 128 (.object r.toObject) ∧
      IsRegular Yaml.ReadsBack 128 (.object r.toObject))
    (hleft : List.Forall₂ (fun r v => ∃ e : Yaml.Ending, v = e.value (.object r.toObject)) rs vs)
    (hshows : List.Forall₂ Shows vs ns) :
    List.Forall₂ (fun d r => resourceOf d = .ok (some r)) (ns.map (⟨·, none⟩)) rs ↔
      vs = rs.map (fun r => .object r.toObject) ∧
        ∀ r ∈ rs, r.id.gvk.group = "" → '/' ∉ r.id.gvk.version.toList := by
  induction hleft generalizing ns with
  | nil =>
    cases hshows
    exact iff_of_true .nil ⟨rfl, nofun⟩
  | @cons r v rs vs hv _ ih =>
    obtain ⟨e, rfl⟩ := hv
    cases hshows with
    | @cons _ n _ ns hn hns =>
      obtain ⟨⟨o, ho⟩, hregular, hnumbers⟩ := hread r List.mem_cons_self
      have hfirst : resourceOf ⟨n, none⟩ = .ok (some r) ↔
          e.value (.object r.toObject) = .object r.toObject ∧
            (r.id.gvk.group = "" → '/' ∉ r.id.gvk.version.toList) := by
        rw [resourceOf_shows_iff (o := e.fields r.toObject) hn (Yaml.Ending.isRegular_all.1 _ e _ hregular)
          (Yaml.Ending.isRegular_all.1 _ e _ hnumbers), ho.ofObject_fields_iff hregular,
          Yaml.Ending.value, Json.Value.object.injEq]
      rw [List.map_cons, List.forall₂_cons, hfirst, ih (fun r hr => hread r (List.mem_cons_of_mem _ hr)) hns,
        List.map_cons, List.cons.injEq, List.forall_mem_cons, and_and_and_comm]

/-- A manifest that was read from a text is read back from the text that is written for it exactly if
every document but the last ends in a string that the line break after it leaves alone, the last
one in no string that ends in a line feed and is written as a block, and no resource without a group
has a slash in its version. The doubles in it are taken to be read back. -/
theorem ofText_render_iff {s : String} (h : ofText s = .ok m)
    (hfloats : ∀ r ∈ m.resources, (Json.Value.object r.root).AllNumbers ReadsFloatBack) :
    ofText m.render = .ok m ↔ StreamEndsIn .bare m.documentsOf ∧
      ∀ r ∈ m.resources, r.id.gvk.group = "" → '/' ∉ r.id.gvk.version.toList := by
  obtain ⟨made, hmade, hresources, hkeyed⟩ := collect_eq_ok h
  -- The text of an empty manifest is empty, which is a stream of one document and not of none.
  by_cases hempty : m.resources = []
  · have hnone : m = empty := hkeyed.eq_of_resources_eq isKeyed_empty hempty
    rw [hnone, render, show (empty : Manifest).resources = [] from rfl, List.map_nil, Text.joinWith,
      ofText, documents_empty]
    exact iff_of_true rfl ⟨trivial, nofun⟩
  have hread : ∀ r ∈ m.resources, (∃ o, Resource.IsRead o r) ∧
      IsRegular InRange 128 (.object r.toObject) ∧ IsRegular Yaml.ReadsBack 128 (.object r.toObject) := by
    intro r hr
    have hnumbers : (Json.Value.object r.toObject).AllNumbers ReadsFloatBack :=
      ⟨trivial, trivial, hfloats r hr⟩
    rw [hresources] at hr
    obtain ⟨y, hy, rfl⟩ := List.mem_filterMap.1 hr
    obtain ⟨d, -, hd⟩ := exists_of_mem_right hmade hy
    obtain ⟨o, ho, hregular⟩ := exists_of_resourceOf hd
    have hregular := ho.isRegular hregular
    exact ⟨⟨o, ho⟩, hregular, isRegular_readsBack hregular hnumbers⟩
  obtain ⟨ns, hns, hshows⟩ := @Yaml.documents_ofList_stream .bare m.documentsOf
    (by simpa [documentsOf] using hempty) (by
      intro v hv
      obtain ⟨r, -, rfl⟩ := List.mem_map.1 hv
      exact ⟨_, _, rfl⟩)
  have hleft := List.forall₂_map_left_iff.1 (Yaml.Ending.forall₂_stream .bare m.documentsOf)
  have hlength : (ns.map (Yaml.Document.mk · none)).length = m.resources.length := by
    rw [List.length_map, ← hshows.length_eq, ← hleft.length_eq]
  rw [ofText, render_eq, hns, ofDocuments, hkeyed.collect_eq_ok_iff hlength,
    resourceOf_documents_iff hread hleft hshows, ← Yaml.Ending.stream_eq_self_iff]
  rfl

/-- Two config maps: a text before another document that ends in one line feed, and one at the end that
ends in none. -/
def twoMaps : String :=
  "apiVersion: v1\nkind: ConfigMap\nmetadata:\n  name: a\ndata:\n  x: |\n    b\n    c\n---\n" ++
    "apiVersion: v1\nkind: ConfigMap\nmetadata:\n  name: d\ndata:\n  x: |-\n    e\n    f\n"

/-- A config map that holds a text, last of all. -/
def mapOf (name text : String) : Resource where
  id := { gvk := { group := "", version := "v1", kind := "ConfigMap" }, name, ns := none }
  root := [("metadata", .object [("name", .string name)]), ("data", .object [("x", .string text)])]

/-- Two config maps are read back. -/
theorem ofText_render_twoMaps : ∃ m, ofText twoMaps = .ok m ∧
    m.resources = [mapOf "a" "b\nc\n", mapOf "d" "e\nf"] ∧ ofText m.render = .ok m := by
  obtain ⟨m, hm, hresources⟩ := exists_ok_of_toOption (x := ofText twoMaps) (f := (·.resources))
    (b := [mapOf "a" "b\nc\n", mapOf "d" "e\nf"]) (by decide +kernel)
  have hfloats : ∀ r ∈ m.resources, (Json.Value.object r.root).AllNumbers ReadsFloatBack := by
    rw [hresources]
    simp [mapOf, Json.Value.AllNumbers, Json.Value.AllNumbersOfFields]
  refine ⟨m, hm, hresources, (ofText_render_iff hm hfloats).2 ⟨?_, ?_⟩⟩
  · rw [documentsOf, hresources]
    refine ⟨fun s hs _ => ?_, fun s hs _ => ?_⟩
    · obtain rfl : "b\nc\n" = s := Option.some.inj hs
      exact ⟨by decide, by decide⟩
    · obtain rfl : "e\nf" = s := Option.some.inj hs
      show _ ≠ _
      decide
  · rw [hresources]
    decide

/-- A config map whose only text ends in two line feeds. -/
def endsInFeeds : String :=
  "apiVersion: v1\nkind: ConfigMap\nmetadata:\n  name: c\ndata:\n  x: \"a\\n\\n\"\n"

/-- Not every manifest is read back: the line feeds at the end of the last text are lost. -/
theorem not_readsBack : ¬ ∀ s m, ofText s = .ok m → ofText m.render = .ok m := by
  intro h
  obtain ⟨m, hm, hview⟩ := exists_ok_of_toOption (x := ofText endsInFeeds)
    (f := fun m => (m.resources, m.render))
    (b := ([mapOf "c" "a\n\n"],
      "apiVersion: v1\nkind: ConfigMap\nmetadata:\n  name: c\ndata:\n  x: |+\n    a"))
    (by decide +kernel)
  obtain ⟨hresources, hrender⟩ := Prod.mk.inj hview
  have hread := h endsInFeeds m hm
  rw [hrender] at hread
  obtain ⟨n, hn, hleft⟩ := exists_ok_of_toOption
    (x := ofText "apiVersion: v1\nkind: ConfigMap\nmetadata:\n  name: c\ndata:\n  x: |+\n    a")
    (f := (·.resources)) (b := [mapOf "c" "a"]) (by decide +kernel)
  obtain rfl : n = m := Except.ok.inj (hn.symm.trans hread)
  rw [hleft] at hresources
  exact absurd hresources (by decide)

end Manifest

end ProviderAssets
