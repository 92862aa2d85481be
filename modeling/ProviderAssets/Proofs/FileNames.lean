import ProviderAssets.Proofs.Interference
import ProviderAssets.Proofs.Writing

/-!
# Names of files

The files of a provider are named by its type and its name in lower case. A hyphen between the two
keeps what stands before it out of the lower case of a name (`Text.lowercase_append`), so the two can
be told apart in the names of files too.
-/

namespace ProviderAssets

/-! ## Lower case -/

namespace Text

/-- What stands before a hyphen does not matter for whether there is a cased character before. -/
theorem nextIsCased_hyphen (before more : List Char) :
    nextIsCased (before ++ '-' :: more) = nextIsCased before := by
  have hignorable : ¬ isCaseIgnorable '-' = true := by decide
  have hcased : isCased '-' = false := by decide
  unfold nextIsCased
  induction before with
  | nil =>
    rw [List.nil_append, List.dropWhile_cons_of_neg hignorable, List.dropWhile_nil]
    exact hcased
  | cons c before ih =>
    by_cases hc : isCaseIgnorable c = true
    · rw [List.cons_append, List.dropWhile_cons_of_pos hc, List.dropWhile_cons_of_pos hc]
      exact ih
    · rw [List.cons_append, List.dropWhile_cons_of_neg hc, List.dropWhile_cons_of_neg hc]

/-- What stands before a hyphen does not matter for the lower case of what comes after it. -/
theorem lowerFrom_hyphen (more cs : List Char) : ∀ before : List Char,
    lowerFrom (before ++ '-' :: more) cs = lowerFrom before cs := by
  induction cs with
  | nil => exact fun _ => rfl
  | cons c cs ih =>
    intro before
    rw [lowerFrom, lowerFrom, nextIsCased_hyphen, ← List.cons_append, ih]

/-- Whether a character is its own lower case, wherever it stands. -/
def isLower (c : Char) : Bool := c ≠ 'Σ' && lowerChar c = [c]

/-- Characters that are their own lower case stay. -/
theorem lowerFrom_append {ws : List Char} (h : ws.all isLower = true) (cs : List Char) :
    ∀ before : List Char, lowerFrom before (ws ++ cs) = ws ++ lowerFrom (ws.reverse ++ before) cs := by
  induction ws with
  | nil => exact fun _ => rfl
  | cons w ws ih =>
    intro before
    rw [List.all_cons, Bool.and_eq_true] at h
    obtain ⟨hw, hws⟩ := h
    simp only [isLower, Bool.and_eq_true, decide_eq_true_eq] at hw
    rw [List.cons_append, lowerFrom, if_neg hw.1, hw.2, ih hws, List.reverse_cons, List.append_assoc]
    rfl

/-- The lower case of a text after a word in lower case and a hyphen. -/
theorem lowercase_append {w : String} (h : w.toList.all isLower = true) (s : String) :
    lowercase (w ++ "-" ++ s) = w ++ "-" ++ lowercase s := by
  have hstart : (w.toList ++ ['-']).all isLower = true := by
    rw [List.all_append, h]
    decide
  have hchars : (w ++ "-" ++ s).toList = (w.toList ++ ['-']) ++ s.toList := by
    rw [String.toList_append, String.toList_append]
    rfl
  -- Only a sigma depends on what stands around it, and a hyphen ends a word.
  have hbarrier : lowerFrom ((w.toList ++ ['-']).reverse ++ []) s.toList = lowerFrom [] s.toList := by
    rw [List.reverse_append, List.append_nil]
    exact lowerFrom_hyphen w.toList.reverse s.toList []
  rw [lowercase, lowercase, hchars, lowerFrom_append hstart, hbarrier, String.ofList_append,
    String.ofList_append, String.ofList_toList]

end Text

namespace Provider

variable {p q : Provider}

/-- The type of a provider is in lower case as it is. -/
theorem qualifiedName_eq (p : Provider) :
    p.qualifiedName = p.type.name ++ "-" ++ Text.lowercase p.name := by
  refine Text.lowercase_append ?_ p.name
  cases p.type <;> decide

/-- The names of the three files of a provider: of the config map, of the record, and of roles and
accounts. -/
def fileNames (p : Provider) : List String := [p.configMapFile, p.recordFile, p.rbacFile]

/-- Two providers are of different types, or have names that differ in lower case. -/
def Differ (p q : Provider) : Prop :=
  (p.type, Text.lowercase p.name) ≠ (q.type, Text.lowercase q.name)

instance (p q : Provider) : Decidable (p.Differ q) := inferInstanceAs (Decidable (_ ≠ _))

/-- The name of one provider is that of another one of its type with the ending of a record. -/
def IsNamedAfter (p q : Provider) : Prop :=
  p.type = q.type ∧ Text.lowercase p.name = Text.lowercase q.name ++ "-provider"

instance (p q : Provider) : Decidable (p.IsNamedAfter q) := inferInstanceAs (Decidable (_ ∧ _))

/-- Different providers have different names in full. -/
theorem qualifiedName_ne (h : p.Differ q) : p.qualifiedName ≠ q.qualifiedName := by
  rw [qualifiedName_eq, qualifiedName_eq]
  intro heq
  obtain ⟨htype, hname⟩ := ProviderType.append_inj heq
  exact h (by rw [htype, hname])

/-- The config map of one provider is named like the record of another one exactly if the provider is
named after that one. -/
theorem configMapFile_eq_recordFile_iff : p.configMapFile = q.recordFile ↔ p.IsNamedAfter q := by
  have hsplit : q.recordFile = q.qualifiedName ++ "-provider" ++ ".yaml" := by
    rw [recordFile, String.append_assoc]
    rfl
  have hassoc : q.qualifiedName ++ "-provider" =
      q.type.name ++ "-" ++ (Text.lowercase q.name ++ "-provider") := by
    rw [qualifiedName_eq, String.append_assoc]
  rw [hsplit, configMapFile, String.append_left_inj, hassoc, qualifiedName_eq]
  constructor
  · exact ProviderType.append_inj
  · rintro ⟨htype, hname⟩
    rw [htype, hname]

/-- The file for roles and accounts begins like no other one. -/
theorem rbacFile_ne (p q : Provider) (ending : String) : p.rbacFile ≠ q.qualifiedName ++ ending := by
  have hdigit : p.rbacFile.toList.head? = some '0' := by
    have hfirst : "0000_30_cluster-api-".toList.head? = some '0' := by decide
    unfold rbacFile
    rw [String.append_assoc, String.toList_append, List.head?_append, hfirst, Option.some_or]
  have hletter : (q.qualifiedName ++ ending).toList.head? ≠ some '0' := by
    rw [qualifiedName_eq, String.append_assoc, String.append_assoc, String.toList_append,
      List.head?_append]
    cases q.type <;> simp [ProviderType.name]
  intro h
  rw [h] at hdigit
  exact hletter hdigit

/-- Files of different providers have different names, unless one provider is named after the other:
then its config map is named like the record of that one. -/
theorem fileNames_apart (h : p.Differ q) {f : String} (hp : f ∈ p.fileNames) (hq : f ∈ q.fileNames) :
    f = p.configMapFile ∧ f = q.recordFile ∧ p.IsNamedAfter q ∨
      f = p.recordFile ∧ f = q.configMapFile ∧ q.IsNamedAfter p := by
  have hne := qualifiedName_ne h
  simp only [fileNames, List.mem_cons, List.not_mem_nil, or_false] at hp hq
  -- Of the nine pairs, two are those of a config map and a record; all others are told apart.
  obtain hp | hp | hp := hp <;> obtain hq | hq | hq := hq
  · exact absurd (String.append_left_inj _ |>.1 (hp.symm.trans hq)) hne
  · exact .inl ⟨hp, hq, configMapFile_eq_recordFile_iff.1 (hp.symm.trans hq)⟩
  · exact absurd (hq.symm.trans hp) (rbacFile_ne q p _)
  · exact .inr ⟨hp, hq, configMapFile_eq_recordFile_iff.1 (hq.symm.trans hp)⟩
  · exact absurd (String.append_left_inj _ |>.1 (hp.symm.trans hq)) hne
  · exact absurd (hq.symm.trans hp) (rbacFile_ne q p _)
  · exact absurd (hp.symm.trans hq) (rbacFile_ne p q _)
  · exact absurd (hp.symm.trans hq) (rbacFile_ne p q _)
  · have hmiddle := String.append_left_inj _ |>.1 (hp.symm.trans hq)
    exact absurd (String.append_right_inj _ |>.1 hmiddle) hne

end Provider

/-! ## Where the files go -/

/-- A text that names something in a directory. -/
structure IsFileName (n : String) : Prop where
  /-- It does not lead into another directory. -/
  slash : '/' ∉ n.toList
  /-- There is something to it. -/
  ne_empty : n ≠ ""
  /-- It does not lead back to the directory. -/
  ne_dot : n ≠ "."
  /-- It does not lead out of the directory. -/
  ne_up : n ≠ ".."

namespace Disk

variable {n : String}

/-- The names before a slash and those after it. -/
theorem names_go_append (cs ds : List Char) : ∀ name : List Char,
    names.go name (cs ++ '/' :: ds) = names.go name cs ++ names.go [] ds := by
  induction cs with
  | nil => exact fun _ => rfl
  | cons c cs ih =>
    intro name
    by_cases hc : c = '/'
    · rw [List.cons_append, names.go, if_pos hc, names.go, if_pos hc, ih, List.cons_append]
    · rw [List.cons_append, names.go, if_neg hc, names.go, if_neg hc, ih]

/-- A text without slashes is one name. -/
theorem names_go_of_not_mem {cs : List Char} (h : '/' ∉ cs) : ∀ name : List Char,
    names.go name cs = [String.ofList (name.reverse ++ cs)] := by
  induction cs with
  | nil =>
    intro name
    rw [List.append_nil]
    rfl
  | cons c cs ih =>
    intro name
    obtain ⟨hc, hcs⟩ := List.ne_and_not_mem_of_not_mem_cons h
    rw [names.go, if_neg (Ne.symm hc), ih hcs, List.reverse_cons, List.append_assoc]
    rfl

/-- A text with which a path may begin: none, or one that ends with a slash. -/
def IsLead (s : String) : Prop := s = "" ∨ ∃ t, s = t ++ "/"

/-- Joining a text to a path puts a lead before the text. -/
theorem text_join (p : Path) (s : String) : ∃ lead, IsLead lead ∧ (p.join s).text = lead ++ s := by
  unfold Path.join
  split
  · exact ⟨"", .inl rfl, (String.empty_append).symm⟩
  · split
    · rename_i hslash
      obtain ⟨cs, hcs⟩ := List.getLast?_eq_some_iff.1 hslash
      refine ⟨p.text, .inr ⟨String.ofList cs, ?_⟩, rfl⟩
      rw [← String.toList_inj, hcs, String.toList_append, String.toList_ofList]
      rfl
    · exact ⟨p.text ++ "/", .inr ⟨p.text, rfl⟩, rfl⟩

/-- What follows a lead and then another one follows a lead. -/
theorem IsLead.append {s t : String} (hs : IsLead s) (ht : IsLead t) : IsLead (s ++ t) := by
  obtain rfl | ⟨t, rfl⟩ := ht
  · rwa [String.append_empty]
  · exact .inr ⟨s ++ t, (String.append_assoc).symm⟩

/-- The location of a path ends with the name that the path ends with. -/
theorem getLast?_location {lead : String} (hlead : IsLead lead) (hn : IsFileName n) :
    (location ⟨lead ++ n⟩).getLast? = some n := by
  obtain ⟨before, hnames⟩ : ∃ before, names ⟨lead ++ n⟩ = before ++ [n] := by
    unfold names
    obtain rfl | ⟨s, rfl⟩ := hlead
    · refine ⟨[], ?_⟩
      rw [String.empty_append, names_go_of_not_mem hn.slash]
      exact congrArg (fun s => [s]) String.ofList_toList
    · refine ⟨names.go [] s.toList, ?_⟩
      have hchars : (s ++ "/" ++ n).toList = s.toList ++ '/' :: n.toList := by
        rw [String.toList_append, String.toList_append, List.append_assoc]
        rfl
      rw [hchars, names_go_append, names_go_of_not_mem hn.slash]
      exact congrArg (fun s => _ ++ [s]) String.ofList_toList
  have henter (l : Location) : enter l n = l ++ [n] := by
    have hempty : n.isEmpty = false := by simpa using hn.ne_empty
    have hdot : decide (n = ".") = false := by simpa using hn.ne_dot
    rw [enter, hempty, hdot, if_neg (by decide), if_neg hn.ne_up]
  rw [location, hnames, List.foldl_append, List.foldl_cons, List.foldl_nil, henter,
    List.getLast?_append]
  rfl

/-- So does the location of a name that is joined to directories. -/
theorem getLast?_location_join (root dir : Path) (hn : IsFileName n) :
    (location (root.join (dir.join n).text)).getLast? = some n := by
  obtain ⟨lead, hlead, htext⟩ := text_join dir n
  obtain ⟨lead', hlead', htext'⟩ := text_join root (lead ++ n)
  have hpath : root.join (dir.join n).text = ⟨(lead' ++ lead) ++ n⟩ := by
    rw [htext, String.append_assoc, ← htext']
  rw [hpath]
  exact getLast?_location (hlead'.append hlead) hn

end Disk

namespace Provider

variable {p q : Provider} {f : String}

/-- A name of a file leads on, unless there is a slash in the name of the provider. -/
theorem isFileName (hslash : '/' ∉ (Text.lowercase p.name).toList) (hf : f ∈ p.fileNames) :
    IsFileName f := by
  have hqualified : '/' ∉ p.qualifiedName.toList := by
    rw [qualifiedName_eq, String.toList_append, String.toList_append]
    cases p.type <;> simp [ProviderType.name, hslash]
  obtain ⟨s, rfl, hs⟩ : ∃ s, f = s ++ ".yaml" ∧ '/' ∉ s.toList := by
    simp only [fileNames, List.mem_cons, List.not_mem_nil, or_false] at hf
    obtain rfl | rfl | rfl := hf
    · exact ⟨p.qualifiedName, rfl, hqualified⟩
    · refine ⟨p.qualifiedName ++ "-provider", ?_, by simpa using hqualified⟩
      rw [recordFile, String.append_assoc]
      rfl
    · refine ⟨"0000_30_cluster-api-" ++ p.qualifiedName ++ "_03_rbac", ?_, by simpa using hqualified⟩
      have hending : "_03_rbac.yaml" = "_03_rbac" ++ ".yaml" := by decide
      unfold rbacFile
      rw [hending]
      exact (String.append_assoc).symm
  have hlong {t : String} (ht : t.length < 5) : s ++ ".yaml" ≠ t := by
    rintro rfl
    have hlength : (".yaml" : String).length = 5 := by decide
    rw [String.length_append, hlength] at ht
    omega
  exact ⟨by simpa using hs, hlong (by decide), hlong (by decide), hlong (by decide)⟩

end Provider

/-- Each of the paths joins a directory and the name of a file. -/
theorem Release.exists_of_mem_ownPaths {config : Config} {p : Provider} {path : Path}
    (h : path ∈ ownPaths config p) : ∃ dir : Path, ∃ f ∈ p.fileNames, path = dir.join f := by
  simp only [ownPaths, List.mem_cons, List.not_mem_nil, or_false] at h
  simp only [Provider.fileNames, List.mem_cons, List.not_mem_nil, or_false]
  obtain rfl | rfl | rfl := h
  · exact ⟨_, _, .inl rfl, rfl⟩
  · exact ⟨_, _, .inr (.inl rfl), rfl⟩
  · exact ⟨_, _, .inr (.inr rfl), rfl⟩

namespace Import

variable {config : Config} {releases root : Path} {versions : VersionCatalog} {c : ProviderConfig}

/-- The import of a provider touches the files of that provider and the image catalog, however it
ends. -/
theorem touches_importProvider (config : Config) (releases root : Path) (versions : VersionCatalog)
    (c : ProviderConfig) (version : String) :
    Touches (fun k => k = Disk.location (root.join config.imageCatalog.text) ∨
        ∃ path ∈ Release.ownPaths config (c.provider version),
          Disk.location (root.join path.text) = k)
      (importProvider Disk.storage config releases root versions c) := by
  intro d
  have kept := keeps_prepare config releases root versions c d
  unfold importProvider
  rw [run_bind]
  cases hrun : (prepare Disk.storage config releases root versions c).run d with
  | mk result d₁ =>
  obtain rfl : d₁ = d := by rwa [hrun] at kept
  cases result with
  | error f => exact .refl _ d₁
  | ok a =>
    dsimp only
    have hcommit := (touches_commit root a.files).bind
      (fun _ => Keeps.touches (fun _ => rfl) _ : ∀ _ : Unit, Touches _ (pure a)) d₁
    refine hcommit.mono ?_
    rintro k ⟨f, hf, rfl⟩
    obtain ⟨_, package, rbac, hfiles⟩ := exists_files_of_prepare hrun
    rw [hfiles] at hf
    simp only [Release.files, List.mem_cons, List.not_mem_nil, or_false] at hf
    simp only [Release.ownPaths, List.mem_cons, List.not_mem_nil, or_false]
    -- The version is not part of any name, so the paths are those of the other version too.
    obtain rfl | rfl | rfl | rfl := hf
    · exact .inr ⟨_, .inl rfl, rfl⟩
    · exact .inr ⟨_, .inr (.inl rfl), rfl⟩
    · exact .inr ⟨_, .inr (.inr rfl), rfl⟩
    · exact .inl rfl

/-- Files of different providers have different names, except that the config map of one is named like
the record of another one if, and only if, the provider is of the type of that one and its name is
that name with the ending of a record. Apart from this, and if there is no slash in the names of the
providers, the import of one of them leaves the files of the other one as they are, however it
ends. -/
theorem files_apart (p q : Provider) (hdiffer : p.Differ q) :
    (∀ f ∈ p.fileNames, ∀ g ∈ q.fileNames, f = g →
      f = p.configMapFile ∧ g = q.recordFile ∧ p.IsNamedAfter q ∨
        f = p.recordFile ∧ g = q.configMapFile ∧ q.IsNamedAfter p) ∧
    (p.configMapFile = q.recordFile ↔ p.IsNamedAfter q) ∧
    (q.configMapFile = p.recordFile ↔ q.IsNamedAfter p) ∧
    (¬ p.IsNamedAfter q → ¬ q.IsNamedAfter p →
      '/' ∉ (Text.lowercase p.name).toList → '/' ∉ (Text.lowercase q.name).toList →
      ∀ (config : Config) (releases root : Path) (versions : VersionCatalog)
        (exclude : Option Exclusion) (d : Disk), ∀ path ∈ Release.ownPaths config q,
        Disk.location (root.join path.text) ≠ Disk.location (root.join config.imageCatalog.text) →
          ∀ bytes, d.read (root.join path.text) = .ok bytes →
            ((importProvider Disk.storage config releases root versions
              ⟨p.name, p.type, exclude⟩).run d).2.read (root.join path.text) = .ok bytes) := by
  refine ⟨?_, Provider.configMapFile_eq_recordFile_iff, Provider.configMapFile_eq_recordFile_iff, ?_⟩
  · rintro f hf g hg rfl
    exact Provider.fileNames_apart hdiffer hf hg
  intro hpq hqp hp hq config releases root versions exclude d path hpath hcatalog bytes hread
  obtain ⟨dir, g, hg, rfl⟩ := Release.exists_of_mem_ownPaths hpath
  have hlast := Disk.getLast?_location_join root dir (Provider.isFileName hq hg)
  have htouches := touches_importProvider config releases root versions ⟨p.name, p.type, exclude⟩
    p.version d
  refine htouches.read_eq ?_ hread
  rintro (h | ⟨other, hother, h⟩)
  · exact hcatalog h
  · -- Two locations that are the same end with the same name of a file.
    obtain ⟨dir', f, hf, rfl⟩ := Release.exists_of_mem_ownPaths hother
    have hlast' := Disk.getLast?_location_join root dir' (Provider.isFileName hp hf)
    rw [h, hlast] at hlast'
    obtain rfl := Option.some.inj hlast'
    obtain ⟨-, -, h⟩ | ⟨-, -, h⟩ := Provider.fileNames_apart hdiffer hf hg
    · exact hpq h
    · exact hqp h

/-- A disk with a release without components, which serves any core provider, and with some bytes in the
file for roles and accounts of the core provider named b. -/
def coreRelease (bytes : List UInt8) : Disk where
  entries := [
    (["mirror"], .directory), (["mirror", "cluster-api"], .directory),
    (["mirror", "cluster-api", "v1"], .directory),
    (["mirror", "cluster-api", "v1", "metadata.yaml"], .file []),
    (["mirror", "cluster-api", "v1", "core-components.yaml"], .file []),
    (["manifests"], .directory), (["manifests", "0000_30_cluster-api-core-b_03_rbac.yaml"], .file bytes)]

/-- The record of a provider and the config map of one that is named after it go to one file. And though
the names of their files differ, the import of one provider may overwrite a file of another one, if
there is a slash in a name, or if the file is that of the image catalog. -/
theorem files_collide :
    (¬ ∀ p q : Provider, p.Differ q → ∀ f ∈ p.fileNames, ∀ g ∈ q.fileNames, f ≠ g) ∧
    (∃ p q : Provider, p.Differ q ∧ (∀ f ∈ p.fileNames, ∀ g ∈ q.fileNames, f ≠ g) ∧
      ∃ path ∈ Release.ownPaths .standard q, (coreRelease []).read path = .ok [] ∧
        ((importProvider Disk.storage .standard ⟨"mirror"⟩ ⟨""⟩ ⟨.ofPairs [(p.name, "v1")]⟩
          ⟨p.name, p.type, none⟩).run (coreRelease [])).2.read path ≠ .ok []) ∧
    ∃ p q : Provider, p.Differ q ∧ (∀ f ∈ p.fileNames, ∀ g ∈ q.fileNames, f ≠ g) ∧
      ∃ path ∈ Release.ownPaths .standard q,
        (coreRelease "\x7b\x7d".toUTF8.toList).read path = .ok "\x7b\x7d".toUTF8.toList ∧
        ((importProvider Disk.storage { Config.standard with imageCatalog := path } ⟨"mirror"⟩ ⟨""⟩
          ⟨.ofPairs [(p.name, "v1")]⟩ ⟨p.name, p.type, none⟩).run
            (coreRelease "\x7b\x7d".toUTF8.toList)).2.read path ≠ .ok "\x7b\x7d".toUTF8.toList := by
  refine ⟨?_, ?_, ?_⟩
  · intro h
    exact h ⟨"a-provider", .core, "v1"⟩ ⟨"a", .core, "v1"⟩ (by decide) "core-a-provider.yaml" (by decide)
      "core-a-provider.yaml" (by decide) rfl
  · exact ⟨⟨"x/../0000_30_cluster-api-core-b", .core, "v1"⟩, ⟨"b", .core, "v1"⟩, by decide, by decide,
      ⟨"manifests/0000_30_cluster-api-core-b_03_rbac.yaml"⟩, by decide, by decide, by decide +kernel⟩
  · exact ⟨⟨"c", .core, "v1"⟩, ⟨"b", .core, "v1"⟩, by decide, by decide,
      ⟨"manifests/0000_30_cluster-api-core-b_03_rbac.yaml"⟩, by decide, by decide +kernel,
      by decide +kernel⟩

/-- The import of another core provider leaves the file. -/
theorem files_coreRelease : ∃ path ∈ Release.ownPaths .standard ⟨"b", .core, "v1"⟩,
    (coreRelease []).read (Path.join ⟨""⟩ path.text) = .ok [] ∧
      ((importProvider Disk.storage .standard ⟨"mirror"⟩ ⟨""⟩ ⟨.ofPairs [("c", "v1")]⟩
        ⟨"c", .core, none⟩).run (coreRelease [])).2.read (Path.join ⟨""⟩ path.text) = .ok [] := by
  have hdiffer : Provider.Differ ⟨"c", .core, "v1"⟩ ⟨"b", .core, "v1"⟩ := by decide
  obtain ⟨-, -, -, hspared⟩ := files_apart ⟨"c", .core, "v1"⟩ ⟨"b", .core, "v1"⟩ hdiffer
  obtain ⟨path, hpath, hread, hcatalog⟩ : ∃ path ∈ Release.ownPaths .standard ⟨"b", .core, "v1"⟩,
      (coreRelease []).read (Path.join ⟨""⟩ path.text) = .ok [] ∧
        Disk.location (Path.join ⟨""⟩ path.text) ≠
          Disk.location (Path.join ⟨""⟩ Config.standard.imageCatalog.text) :=
    ⟨⟨"manifests/0000_30_cluster-api-core-b_03_rbac.yaml"⟩, by decide, by decide, by decide⟩
  refine ⟨path, hpath, hread, ?_⟩
  exact hspared (by decide) (by decide) (by decide) (by decide) .standard ⟨"mirror"⟩ ⟨""⟩
    ⟨.ofPairs [("c", "v1")]⟩ none (coreRelease []) path hpath hcatalog [] hread

end Import

end ProviderAssets
