import ProviderAssets.Proofs.Contents

/-!
# What tells the packages of providers apart

A provider is known by its type and its name. Both are among the labels of its config map, and by them
a record selects the config maps of its own provider and no others (`Package.selects_iff`). The name
of a config map is made of the name and the version of the provider: the type is no part of it, and
the hyphen between the two may stand in either of them as well. `Package.configMaps_meet` says for
which providers these names are the same.
-/

namespace ProviderAssets

/-! ## Texts around a hyphen -/

namespace Text

/-- Two lists around one element are the same in full only if they are the same around it, or if it stands
in the second part of one of them and in the first part of the other one as well. -/
theorem append_cons_eq_append_cons_iff {α : Type} {c : α} {s t u v : List α} :
    s ++ c :: u = t ++ c :: v ↔ s = t ∧ u = v ∨ (∃ w, t = s ++ c :: w ∧ u = w ++ c :: v) ∨
      ∃ w, s = t ++ c :: w ∧ v = w ++ c :: u := by
  rw [List.append_eq_append_iff]
  constructor
  · rintro (⟨w, rfl, h⟩ | ⟨w, rfl, h⟩)
    · cases w with
      | nil => exact .inl ⟨(List.append_nil s).symm, (List.cons.inj h).2⟩
      | cons d w =>
        obtain ⟨rfl, rfl⟩ := List.cons.inj h
        exact .inr (.inl ⟨w, rfl, rfl⟩)
    · cases w with
      | nil => exact .inl ⟨List.append_nil t, (List.cons.inj h).2.symm⟩
      | cons d w =>
        obtain ⟨rfl, rfl⟩ := List.cons.inj h
        exact .inr (.inr ⟨w, rfl, rfl⟩)
  · rintro (⟨rfl, rfl⟩ | ⟨w, rfl, rfl⟩ | ⟨w, rfl, rfl⟩)
    · exact .inl ⟨[], (List.append_nil s).symm, rfl⟩
    · exact .inl ⟨c :: w, rfl, rfl⟩
    · exact .inr ⟨c :: w, rfl, rfl⟩

/-- A text is made of two around a hyphen exactly if its characters are. -/
theorem eq_hyphen_iff {s t u : String} :
    s = t ++ "-" ++ u ↔ s.toList = t.toList ++ '-' :: u.toList := by
  rw [← String.toList_inj, String.toList_append, String.toList_append, List.append_assoc]
  rfl

/-- The same for two texts around a hyphen. -/
theorem hyphen_eq_hyphen_iff {s t u v : String} :
    s ++ "-" ++ u = t ++ "-" ++ v ↔ s = t ∧ u = v ∨
      (∃ w, t = s ++ "-" ++ w ∧ u = w ++ "-" ++ v) ∨ ∃ w, s = t ++ "-" ++ w ∧ v = w ++ "-" ++ u := by
  have between {s t u v : String} :
      (∃ w : List Char, t.toList = s.toList ++ '-' :: w ∧ u.toList = w ++ '-' :: v.toList) ↔
        ∃ w : String, t = s ++ "-" ++ w ∧ u = w ++ "-" ++ v := by
    simp only [eq_hyphen_iff]
    constructor
    · rintro ⟨w, ht, hu⟩
      exact ⟨String.ofList w, by rwa [String.toList_ofList], by rwa [String.toList_ofList]⟩
    · rintro ⟨w, ht, hu⟩
      exact ⟨w.toList, ht, hu⟩
  have hjoined : (s ++ "-" ++ u).toList = s.toList ++ '-' :: u.toList := eq_hyphen_iff.1 rfl
  rw [eq_hyphen_iff, hjoined, append_cons_eq_append_cons_iff, between, between, String.toList_inj,
    String.toList_inj]

end Text

/-! ## Providers -/

namespace ProviderType

variable {t u : ProviderType}

/-- A type is known by its name. -/
theorem name_inj : t.name = u.name ↔ t = u := by
  refine ⟨fun h => ?_, congrArg name⟩
  cases t <;> cases u <;> first | rfl | exact absurd h (by decide)

/-- A type is known by the kind of its records. -/
theorem recordKind_inj : t.recordKind = u.recordKind ↔ t = u := by
  refine ⟨fun h => ?_, congrArg recordKind⟩
  cases t <;> cases u <;> first | rfl | exact absurd h (by decide)

end ProviderType

namespace Provider

variable {p q : Provider}

/-- Two providers are of different types or have different names. -/
def Apart (p q : Provider) : Prop := (p.type, p.name) ≠ (q.type, q.name)

instance (p q : Provider) : Decidable (p.Apart q) := inferInstanceAs (Decidable (_ ≠ _))

/-- The name of `q` is the name of `p` with a hyphen and a part after it, and the version of `p` is that
part with a hyphen and the version of `q` after it. -/
def RunsInto (p q : Provider) : Prop :=
  ∃ part, q.name = p.name ++ "-" ++ part ∧ p.version = part ++ "-" ++ q.version

/-- A name that runs into a version gets longer. -/
theorem RunsInto.length_lt (h : p.RunsInto q) : p.name.length < q.name.length := by
  obtain ⟨part, hname, -⟩ := h
  have hhyphen : ("-" : String).length = 1 := by decide
  rw [hname, String.length_append, String.length_append, hhyphen]
  omega

/-- The labels on the resources of two providers are the same exactly if both are core providers, or if
they have the same type and name. -/
theorem manifestLabel_eq_iff : p.manifestLabel = q.manifestLabel ↔
    p.type = .core ∧ q.type = .core ∨ p.type = q.type ∧ p.name = q.name := by
  constructor
  · intro h
    have hchars := congrArg String.toList h
    unfold manifestLabel at hchars
    cases hp : p.type <;> cases hq : q.type <;>
      simp [hp, hq, ProviderType.manifestName, ProviderType.name] at hchars ⊢
    all_goals exact String.toList_inj.1 hchars
  · unfold manifestLabel
    rintro (⟨hp, hq⟩ | ⟨htype, hname⟩)
    · rw [hp, hq]
    · rw [htype, hname]

end Provider

/-- A record selects a config map that has all labels by which the record looks for one. -/
def ProviderRecord.Selects (r : ProviderRecord) (c : ConfigMap) : Prop :=
  ∀ e ∈ r.matchLabels.entries, c.metadata.labels.get? e.1 = some e.2

namespace Package

variable {components components' : Manifest} {p q : Provider} {ns ns' : String}
  {metadata metadata' : List UInt8} {k l : Package}

/-- No metadata are text, so a package is made with none. -/
theorem exists_make_nil (components : Manifest) (p : Provider) (ns : String) :
    ∃ k, make components p ns [] = .ok k := ⟨_, rfl⟩

/-- The labels by which a config map is found are the name and the type of its provider. -/
theorem entries_selectorLabels (p : Provider) :
    (selectorLabels p).entries = [(nameLabel, p.name), (typeLabel, p.type.name)] := by
  have hlt : ¬ typeLabel < nameLabel := by decide
  have hne : typeLabel ≠ nameLabel := by decide
  simp only [selectorLabels, SortedFields.ofPairs, SortedFields.insertAll, List.foldl_cons,
    List.foldl_nil, SortedFields.insert, SortedFields.empty, SortedFields.insertEntry, if_neg hlt,
    if_neg hne]

/-- The value of a label of a config map. -/
theorem get?_labels (components : Manifest) (p : Provider) (ns text key : String) :
    (configMapOf components p ns text).metadata.labels.get? key =
      if key = versionLabel then some p.version
      else if key = typeLabel then some p.type.name
      else if key = nameLabel then some p.name
      else none := by
  show ((((SortedFields.empty.insert nameLabel p.name).insert typeLabel p.type.name).insert versionLabel
    p.version).get? key) = _
  rw [SortedFields.get?_insert, SortedFields.get?_insert, SortedFields.get?_insert]
  rfl

/-- A record selects the config maps of providers with the type and the name of its own. -/
theorem selects_configMapOf (components : Manifest) (p q : Provider) (ns ns' text : String) :
    (recordOf p ns).Selects (configMapOf components q ns' text) ↔
      p.type = q.type ∧ p.name = q.name := by
  have hname : nameLabel ≠ versionLabel ∧ nameLabel ≠ typeLabel := by decide
  have htype : typeLabel ≠ versionLabel := by decide
  unfold ProviderRecord.Selects recordOf
  dsimp only
  rw [entries_selectorLabels, List.forall_mem_cons, List.forall_mem_singleton, get?_labels,
    get?_labels, if_neg hname.1, if_neg hname.2, if_pos rfl, if_neg htype, if_pos rfl,
    Option.some.injEq, Option.some.injEq, ProviderType.name_inj, eq_comm, eq_comm (a := q.type)]
  exact And.comm

/-- A record selects the config maps of its own provider, in whatever version, and no others. It asks for
the version that a config map says exactly if that is its provider's, and it is in the namespace that
the config map is in if both are made for the same one. The labels on the resources of two providers are
the same exactly if both are core providers, or if they have the same type and name. -/
theorem selects_iff (hk : make components p ns metadata = .ok k)
    (hl : make components' q ns' metadata' = .ok l) :
    (k.record.Selects l.configMap ↔ p.type = q.type ∧ p.name = q.name) ∧
    (l.configMap.metadata.labels.get? versionLabel = some k.record.version ↔
      p.version = q.version) ∧
    (k.record.metadata.ns = l.configMap.metadata.ns ↔ ns = ns') ∧
    (p.manifestLabel = q.manifestLabel ↔
      p.type = .core ∧ q.type = .core ∨ p.type = q.type ∧ p.name = q.name) := by
  obtain ⟨text, -, rfl⟩ := make_eq_ok_iff.1 hk
  obtain ⟨text', -, rfl⟩ := make_eq_ok_iff.1 hl
  refine ⟨selects_configMapOf .., ?_, Iff.rfl, Provider.manifestLabel_eq_iff⟩
  dsimp only
  rw [get?_labels, if_pos rfl, Option.some.injEq]
  exact eq_comm

/-- The record of a provider selects the config map of another version and not that of the provider of
the same name and another type. -/
theorem selects_kubeadm : ∃ k l m, make .empty ⟨"kubeadm", .bootstrap, "v1.4.0"⟩ "n" [] = .ok k ∧
    make .empty ⟨"kubeadm", .bootstrap, "v1.5.0"⟩ "n" [] = .ok l ∧
    make .empty ⟨"kubeadm", .controlPlane, "v1.4.0"⟩ "n" [] = .ok m ∧
    k.record.Selects l.configMap ∧ ¬ k.record.Selects m.configMap := by
  obtain ⟨k, hk⟩ := exists_make_nil .empty ⟨"kubeadm", .bootstrap, "v1.4.0"⟩ "n"
  obtain ⟨l, hl⟩ := exists_make_nil .empty ⟨"kubeadm", .bootstrap, "v1.5.0"⟩ "n"
  obtain ⟨m, hm⟩ := exists_make_nil .empty ⟨"kubeadm", .controlPlane, "v1.4.0"⟩ "n"
  refine ⟨k, l, m, hk, hl, hm, (selects_iff hk hl).1.2 ⟨rfl, rfl⟩, fun h => ?_⟩
  exact absurd ((selects_iff hk hm).1.1 h).1 (by decide)

/-! ## Names of config maps -/

/-- The config maps of two providers with different types or names, made for one namespace, have the same
name exactly if the providers have the same name and version, or if the name of one of them runs into
the version of the other one. Their labels are different in every case, and so are their records, by
kind or name. -/
theorem configMaps_meet (hapart : p.Apart q) (hk : make components p ns metadata = .ok k)
    (hl : make components' q ns metadata' = .ok l) :
    k.configMap.metadata.ns = l.configMap.metadata.ns ∧
    (k.configMap.metadata.name = l.configMap.metadata.name ↔
      p.name = q.name ∧ p.version = q.version ∨ p.RunsInto q ∨ q.RunsInto p) ∧
    k.configMap.metadata.labels ≠ l.configMap.metadata.labels ∧
    (k.record.type.recordKind, k.record.metadata.name) ≠
      (l.record.type.recordKind, l.record.metadata.name) := by
  obtain ⟨text, -, rfl⟩ := make_eq_ok_iff.1 hk
  obtain ⟨text', -, rfl⟩ := make_eq_ok_iff.1 hl
  refine ⟨rfl, Text.hyphen_eq_hyphen_iff, fun h => hapart ?_, fun h => hapart ?_⟩
  · -- A record that selects the one config map by its labels selects the other one too.
    have hself := (selects_configMapOf components p p ns ns text).2 ⟨rfl, rfl⟩
    have hother : (recordOf p ns).Selects (configMapOf components' q ns text') := by
      intro e he
      rw [← hself e he]
      exact congrArg (·.get? e.1) h.symm
    obtain ⟨htype, hname⟩ := (selects_configMapOf components' p q ns ns text').1 hother
    rw [htype, hname]
  · obtain ⟨hkind, hname⟩ := Prod.mk.inj h
    exact Prod.ext (ProviderType.recordKind_inj.1 hkind) hname

/-- The config maps of the two providers for kubeadm in different versions have different names. -/
theorem configMaps_kubeadm : ∃ k l, make .empty ⟨"kubeadm", .bootstrap, "v1.4.0"⟩ "n" [] = .ok k ∧
    make .empty ⟨"kubeadm", .controlPlane, "v1.5.0"⟩ "n" [] = .ok l ∧
    k.configMap.metadata.ns = l.configMap.metadata.ns ∧
    k.configMap.metadata.name ≠ l.configMap.metadata.name := by
  obtain ⟨k, hk⟩ := exists_make_nil .empty ⟨"kubeadm", .bootstrap, "v1.4.0"⟩ "n"
  obtain ⟨l, hl⟩ := exists_make_nil .empty ⟨"kubeadm", .controlPlane, "v1.5.0"⟩ "n"
  obtain ⟨hns, hmeet, -⟩ := configMaps_meet (by decide) hk hl
  refine ⟨k, l, hk, hl, hns, fun h => ?_⟩
  obtain ⟨-, hversion⟩ | hruns | hruns := hmeet.1 h
  · exact absurd hversion (by decide)
  · exact absurd hruns.length_lt (Nat.lt_irrefl _)
  · exact absurd hruns.length_lt (Nat.lt_irrefl _)

/-- The config maps of two providers may have one name: those of the two providers for kubeadm in one
version, and those of providers of one type where the name of one runs into the version of the
other. -/
theorem configMaps_collide :
    (¬ ∀ components components' p q ns metadata metadata' k l, Provider.Apart p q →
      make components p ns metadata = .ok k → make components' q ns metadata' = .ok l →
        k.configMap.metadata.name ≠ l.configMap.metadata.name) ∧
    ∃ k l, make .empty ⟨"a", .core, "b-c"⟩ "n" [] = .ok k ∧ make .empty ⟨"a-b", .core, "c"⟩ "n" [] = .ok l ∧
      k.configMap.metadata.name = l.configMap.metadata.name := by
  constructor
  · intro h
    exact h .empty .empty ⟨"kubeadm", .bootstrap, "v1.4.0"⟩ ⟨"kubeadm", .controlPlane, "v1.4.0"⟩ "n" [] [] _ _
      (by decide) rfl rfl rfl
  · exact ⟨_, _, rfl, rfl, by decide⟩

end Package

end ProviderAssets
