import ProviderAssets.Package.Reader
import ProviderAssets.Proofs.Catalog
import ProviderAssets.Proofs.Text.Bytes
import ProviderAssets.Proofs.Yaml.Decoding
import ProviderAssets.Proofs.Yaml.Shown

/-!
# Reading a config map back

A config map is read from every document that shows its object (`ConfigMap.ofDocuments_shows`). Its
text ends in exactly one line feed, whatever the metadata in it end in, so it is the metadata that may
come back as another text (`Package.configMap_reread`).
-/

namespace ProviderAssets

open Yaml (Decode Ending EndsIn Node Place ScalarStyle Shows ShowsEntries Value)
open Yaml.Decode (Yields)

variable {n k : Node} {p : Place} {depth : Nat} {entries : List (Node × Node)}

namespace Package

/-! ## Fields -/

/-- Labels and data are read in sorted order, which they have. -/
theorem yields_sortedMap {m : SortedFields} (h : Shows m.toJson n) (hdepth : p.depth = depth + 1) :
    Yields (sortedMap p n) m := by
  have hread := (Yaml.Decode.yields_stringMap h hdepth).map SortedFields.ofPairs
  rwa [m.ofPairs_entries] at hread

/-- Metadata are read from what shows their object. -/
theorem yields_metadata {m : ObjectMetadata} (h : Shows m.toJson n) (hdepth : p.depth = depth + 2) :
    Yields (metadata p n) m := by
  obtain ⟨mark, entries, rfl, kname, name, rest, rfl, hkname, ⟨style, hname, -⟩, kns, ns, labels, rfl,
    hkns, ⟨style', hns, -⟩, hlabels⟩ := h
  have hparts : Yields (Decode.fields ["name", "namespace", "labels"] .ignored
      (fun name p n (parts : MetadataParts) => do
        if name = "name" then return { parts with name := ← Decode.string p n }
        else if name = "namespace" then return { parts with ns := ← Decode.string p n }
        else return { parts with labels := ← sortedMap p n })
      { p with depth := depth + 1 } [] ((kname, name) :: (kns, ns) :: labels) {})
      { name := some m.name, ns := some m.ns,
        labels := if m.labels.isEmpty then none else some m.labels } := by
    refine Yaml.Decode.yields_fields_cons hkname (by decide) (by decide)
      (.bind (Yaml.Decode.yields_string hname _ _) (.pure _))
      (Yaml.Decode.yields_fields_cons hkns (by decide) (by decide)
        (.bind (Yaml.Decode.yields_string hns _ _) (.pure _)) ?_)
    -- Labels are written only where there are any.
    cases hempty : m.labels.isEmpty with
    | true =>
      rw [hempty, if_pos rfl] at hlabels
      obtain rfl : labels = [] := hlabels
      exact .pure _
    | false =>
      rw [hempty, if_neg Bool.false_ne_true] at hlabels
      obtain ⟨klabels, map, _, rfl, hklabels, hmap, rfl⟩ := hlabels
      exact Yaml.Decode.yields_fields_cons hklabels (by decide) (by decide)
        (.bind (yields_sortedMap hmap (Yaml.Decode.depth_ofKey _ _)) (.pure _)) (.pure _)
  have hlabels : (if m.labels.isEmpty then none else some m.labels).getD .empty = m.labels := by
    cases hempty : m.labels.isEmpty with
    | true =>
      have hnone : m.labels.entries = [] := List.isEmpty_iff.1 hempty
      exact SortedFields.ext_get? fun key => by rw [SortedFields.get?, SortedFields.get?, hnone]; rfl
    | false => rfl
  refine Yaml.Decode.yields_mapping mark hdepth (hparts.bind (.bind (.pure _) (.bind (.pure _) ?_)))
  rw [hlabels]
  exact .pure m

/-- Another field than the known ones is kept. -/
theorem yields_fields_other {α : Type} {names seen : List String} {name text : String}
    {style : ScalarStyle} {set : String → Place → Node → α → Decode α} {parts last : Parts α}
    (hk : k.IsScalar name style) (hname : name ∉ names) (hshows : Shows (.string text) n)
    (hrest : Yields (fields names set p seen entries
      { parts with others := (name, .string text) :: parts.others }) last) :
    Yields (fields names set p seen ((k, n) :: entries) parts) last := by
  obtain ⟨mark, rfl⟩ := hk
  obtain ⟨style', hscalar, hread⟩ := hshows
  rw [fields]
  · refine .bind (Yaml.Decode.yields_string ⟨mark, rfl⟩ _ _) ?_
    rw [if_neg hname]
    exact .bind (Value.yields_scalar hscalar hread rfl) hrest
  · nofun

/-- A known field is decoded into the record. -/
theorem yields_fields_known {α : Type} {names seen : List String} {name : String}
    {style : ScalarStyle} {set : String → Place → Node → α → Decode α} {parts last : Parts α} {known : α}
    (hk : k.IsScalar name style) (hname : name ∈ names) (hnew : name ∉ seen)
    (hset : Yields (set name (Decode.Place.ofKey p k) n parts.known) known)
    (hrest : Yields (fields names set p (name :: seen) entries { parts with known }) last) :
    Yields (fields names set p seen ((k, n) :: entries) parts) last := by
  obtain ⟨mark, rfl⟩ := hk
  rw [fields]
  · refine .bind (Yaml.Decode.yields_string ⟨mark, rfl⟩ _ _) ?_
    rw [if_pos hname, if_neg hnew]
    exact .bind hset hrest
  · nofun

end Package

namespace ConfigMap

/-- The config map is read from what shows its object. -/
theorem yields_decoder {c : ConfigMap} (h : Shows c.toJson n) (hdepth : p.depth = depth + 3) :
    Yields (decoder p n) c := by
  obtain ⟨mark, entries, rfl, kversion, version, rest, rfl, hkversion, hversion, kkind, kind, rest, rfl,
    hkkind, hkind, kmetadata, metadata, rest, rfl, hkmetadata, hmetadata, kdata, data, _, rfl, hkdata,
    hdata, rfl⟩ := h
  have hparts : Yields (Package.fields ["metadata", "data"]
      (fun name p n (parts : Parts) => do
        if name = "metadata" then return { parts with metadata := ← Package.metadata p n }
        else return { parts with data := ← Package.sortedMap p n })
      { p with depth := depth + 2 } []
      [(kversion, version), (kkind, kind), (kmetadata, metadata), (kdata, data)] { known := {} })
      { known := { metadata := some c.metadata, data := some c.data },
        others := [("kind", .string ConfigMap.kind), ("apiVersion", .string apiVersion)] } := by
    -- Version and kind are put aside, the latest first, until all fields are read.
    refine Package.yields_fields_other hkversion (by decide) hversion ?_
    refine Package.yields_fields_other hkkind (by decide) hkind ?_
    refine Package.yields_fields_known hkmetadata (by decide) (by decide)
      (.bind (Package.yields_metadata hmetadata (Yaml.Decode.depth_ofKey _ _)) (.pure _)) ?_
    exact Package.yields_fields_known hkdata (by decide) (by decide)
      (.bind (Package.yields_sortedMap hdata (Yaml.Decode.depth_ofKey _ _)) (.pure _)) (.pure _)
  have hheader : Yields (Package.header apiVersion (Package.checkWord ConfigMap.kind)
      [("kind", .string ConfigMap.kind), ("apiVersion", .string apiVersion)]) () := fun _ _ => rfl
  exact Yaml.Decode.yields_mapping mark hdepth
    (hparts.bind (.bind (.pure _) (.bind (.pure _) (hheader.bind (.pure _)))))

/-- The document that shows the object of a config map is read as the config map. -/
theorem ofDocuments_shows {c : ConfigMap} (h : Shows c.toJson n) : ofDocuments [⟨n, none⟩] = .ok c := by
  have hread (s : Yaml.Surroundings) : decoder {} n s 0 = .ok (c, 0) :=
    yields_decoder (p := {}) h (show 128 = 125 + 3 from rfl) s 0
  unfold ofDocuments Yaml.Decoder.read Yaml.Decoder.readOnly Yaml.Decoder.readDocument
  simp only [hread]
  rfl

end ConfigMap

namespace Package

variable {components : Manifest} {provider : Provider} {ns text : String} {k : Package}

/-! ## The config map of a package -/

/-- The components come first in the data of a config map, and then the metadata. -/
theorem entries_configMapOf (components : Manifest) (provider : Provider) (ns text : String) :
    (configMapOf components provider ns text).data.entries =
      [("components", components.render), ("metadata", text)] := by
  have hlt : "components" < "metadata" := by decide
  simp only [configMapOf, SortedFields.ofPairs, SortedFields.insertAll, List.foldl_cons, List.foldl_nil,
    SortedFields.insert, SortedFields.empty, SortedFields.insertEntry, if_pos hlt]

/-- The text of a config map is a document that ends in exactly one line feed. -/
theorem render_configMap (c : ConfigMap) :
    c.render = String.ofList (Yaml.streamChars .line ([c.toJson].map Yaml.Printer.document)) := by
  rw [ConfigMap.render, Text.endLine, Text.trimNewlines, Yaml.render, String.toList_ofList,
    List.map_singleton, Yaml.streamChars, Ending.cut, String.ofList_append, Yaml.trimFeeds]

/-- Of the object of a config map, only the metadata of the release may be read as another text. -/
theorem value_configMapOf (e : Ending) (components : Manifest) (provider : Provider) (ns text : String) :
    e.value (configMapOf components provider ns text).toJson =
      (configMapOf components provider ns (e.text text (Yaml.Printer.style text))).toJson := by
  have hjson (text : String) : (configMapOf components provider ns text).toJson =
      .object [("apiVersion", .string ConfigMap.apiVersion), ("kind", .string ConfigMap.kind),
        ("metadata", (configMapOf components provider ns "").metadata.toJson),
        ("data", .object [("components", .string components.render), ("metadata", .string text)])] := by
    rw [ConfigMap.toJson, SortedFields.toJson, entries_configMapOf]
    rfl
  have hvalue : e.value (.object [("apiVersion", .string ConfigMap.apiVersion),
      ("kind", .string ConfigMap.kind),
      ("metadata", (configMapOf components provider ns "").metadata.toJson),
      ("data", .object [("components", .string components.render), ("metadata", .string text)])]) =
      .object [("apiVersion", Ending.kept.value (.string ConfigMap.apiVersion)),
        ("kind", Ending.kept.value (.string ConfigMap.kind)),
        ("metadata", Ending.kept.value (configMapOf components provider ns "").metadata.toJson),
        ("data", .object [("components", Ending.kept.value (.string components.render)),
          ("metadata", .string (e.text text (Yaml.Printer.style text)))])] := rfl
  simp only [hjson, hvalue, Ending.value_kept]

/-- The text of the config map of a package is read as the config map with what its one line feed at the
end leaves of the metadata of the release. -/
theorem ofDocuments_render (components : Manifest) (provider : Provider) (ns text : String) :
    ConfigMap.ofDocuments (Yaml.documents (configMapOf components provider ns text).render) =
      .ok (configMapOf components provider ns (Ending.line.text text (Yaml.Printer.style text))) := by
  obtain ⟨nodes, hnodes, hshows⟩ := Yaml.documents_ofList_stream (e := .line)
    (List.cons_ne_nil (configMapOf components provider ns text).toJson [])
    (List.forall_mem_singleton.2 ⟨_, _, rfl⟩)
  rw [Ending.stream, value_configMapOf] at hshows
  obtain ⟨n, _, hn, hnil, rfl⟩ := List.forall₂_cons_left_iff.1 hshows
  cases hnil
  rw [render_configMap, hnodes]
  exact ConfigMap.ofDocuments_shows hn

/-- A config map with other metadata of the release is the config map of these. -/
theorem configMapOf_insert (components : Manifest) (provider : Provider) (ns text other : String) :
    { configMapOf components provider ns text with
      data := (configMapOf components provider ns text).data.insert "metadata" other } =
      configMapOf components provider ns other := by
  have hdata : (configMapOf components provider ns text).data.insert "metadata" other =
      (configMapOf components provider ns other).data := by
    refine SortedFields.ext_get? fun key => ?_
    rw [SortedFields.get?_insert, SortedFields.get?, SortedFields.get?, entries_configMapOf,
      entries_configMapOf]
    by_cases hkey : key = "metadata"
    · rw [if_pos hkey, hkey]
      rfl
    · rw [if_neg hkey]
      have hne : (key == "metadata") = false := beq_eq_false_iff_ne.2 hkey
      simp only [List.lookup_cons, hne]
  rw [hdata]
  rfl

/-- The config map of a package holds the components as they are written and the metadata of the
release byte by byte. Its text is read as the config map with what the one line feed at the end of the
file leaves of the metadata, which are the same exactly if they are not written as a block, or survive
that. -/
theorem configMap_reread {bytes : List UInt8} (h : make components provider ns bytes = .ok k) :
    ∃ text : String, text.toUTF8.toList = bytes ∧
      k.configMap.data.entries = [("components", components.render), ("metadata", text)] ∧
      ConfigMap.ofDocuments (Yaml.documents k.configMap.render) =
        .ok { k.configMap with data :=
          k.configMap.data.insert "metadata" (Ending.line.text text (Yaml.Printer.style text)) } ∧
      (ConfigMap.ofDocuments (Yaml.documents k.configMap.render) = .ok k.configMap ↔
        EndsIn .line (some text)) := by
  cases hbytes : Text.ofBytes? bytes with
  | none =>
    rw [make, hbytes] at h
    cases h
  | some text =>
    rw [make, hbytes] at h
    cases h
    have hread := ofDocuments_render components provider ns text
    refine ⟨text, Text.toUTF8_of_ofBytes? hbytes, entries_configMapOf components provider ns text, ?_, ?_⟩
    · rw [configMapOf_insert]
      exact hread
    · rw [hread, Except.ok.injEq, ← Ending.text_eq_self_iff]
      refine ⟨fun hsame => ?_, fun hsame => by rw [hsame]⟩
      have hentries := congrArg (·.data.entries) hsame
      dsimp only at hentries
      rw [entries_configMapOf, entries_configMapOf] at hentries
      simpa using hentries

/-- A provider. -/
def metal : Provider := { name := "metal3", type := .infrastructure, version := "v1.3.0" }

/-- Metadata that end in one line feed are read back. -/
theorem configMap_reread_oneLine : ∃ k, make .empty metal "n" "a:\n  b: c\n".toUTF8.toList = .ok k ∧
    ConfigMap.ofDocuments (Yaml.documents k.configMap.render) = .ok k.configMap := by
  obtain ⟨k, hk⟩ : ∃ k, make .empty metal "n" "a:\n  b: c\n".toUTF8.toList = .ok k := by
    rw [make, Text.ofBytes?_toUTF8]
    exact ⟨_, rfl⟩
  obtain ⟨text, hbytes, -, -, hiff⟩ := configMap_reread hk
  have htext := Text.ofBytes?_toUTF8 text
  rw [hbytes, Text.ofBytes?_toUTF8] at htext
  obtain rfl := Option.some.inj htext
  refine ⟨k, hk, hiff.2 fun s hs _ => ?_⟩
  obtain rfl : "a:\n  b: c\n" = s := Option.some.inj hs
  exact ⟨by decide, by decide⟩

/-- Not every config map is read back: of two line feeds at the end of the metadata, one is lost. -/
theorem not_configMap_reread : ¬ ∀ components provider ns bytes k,
    make components provider ns bytes = .ok k →
      ConfigMap.ofDocuments (Yaml.documents k.configMap.render) = .ok k.configMap := by
  intro h
  have hmake : make .empty metal "n" "a\n\n".toUTF8.toList =
      .ok { configMap := configMapOf .empty metal "n" "a\n\n", record := recordOf metal "n" } := by
    rw [make, Text.ofBytes?_toUTF8]
    rfl
  have hleft : Ending.line.text "a\n\n" (Yaml.Printer.style "a\n\n") = "a\n" := by decide +kernel
  have hread := h _ _ _ _ _ hmake
  rw [ofDocuments_render, hleft] at hread
  have hentries := congrArg (·.data.entries) (Except.ok.inj hread)
  dsimp only at hentries
  rw [entries_configMapOf, entries_configMapOf] at hentries
  exact absurd hentries (by simp)

end Package

end ProviderAssets
