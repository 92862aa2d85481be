import ProviderAssets.Disk
import ProviderAssets.Import
import ProviderAssets.Proofs.Stages

/-!
# Commits of an import

An import reads and writes one disk: a provider may find there what an earlier one wrote. The disk is
changed only where the files of a provider are written, which is when all of them have been made. So
there are two kinds of step. `Import.Keeps` says that a step leaves the disk as it is, whether it
succeeds or not, and `Import.keeps_prepare` says it of all that is done to make the assets of a
provider. `Import.commit_run` says that writing files, if it succeeds, leads to the disk
`Disk.writeFiles`, and otherwise ends in a failure of writing.

`Import.Imports` is the run that these make, provider after provider, on the disks in between.
`Import.run_commits` says that an import is such a run through all selected providers, or one through
the first ones of them that ends where the next one fails.
-/

namespace ProviderAssets

/-- A file or a directory could not be written. -/
def Failure.isOfWriting : Failure → Bool
  | create .. | write .. => true
  | _ => false

namespace Disk

/-- The disk with a file in the directory of the assets, and with the directories above it. -/
def writeFile (root : Path) (d : Disk) (file : OutputFile) : Except Failure Disk := do
  let path := root.join file.path.text
  let d ← match path.parent? with
    | some dir => (d.makeDirs dir).mapError (.create dir)
    | none => pure d
  (d.write path file.contents.toUTF8.toList).mapError (.write path)

/-- The disk with files that are written one after the other. -/
def writeFiles (root : Path) (d : Disk) (files : List OutputFile) : Except Failure Disk :=
  files.foldlM (writeFile root) d

/-- Files that come after others are written to the disk that has those. -/
theorem writeFiles_append {root : Path} {d d' : Disk} {files : List OutputFile}
    (h : d.writeFiles root files = .ok d') (more : List OutputFile) :
    d.writeFiles root (files ++ more) = d'.writeFiles root more := by
  unfold writeFiles at h ⊢
  rw [List.foldlM_append, h]
  rfl

end Disk

namespace Import

variable {ε α β : Type}

/-! ## Steps on a disk -/

/-- A sequence of steps goes on from the disk that the first one leaves. -/
theorem run_bind (x : ExceptT ε (StateM Disk) α) (f : α → ExceptT ε (StateM Disk) β) (d : Disk) :
    (x >>= f).run d = match x.run d with
      | (.ok a, d') => (f a).run d'
      | (.error e, d') => (.error e, d') := by
  show (ExceptT.bindCont f (x.run d).1) (x.run d).2 = _
  obtain ⟨_ | _, d'⟩ := x.run d <;> rfl

/-- A step that cannot fail goes on with what it gives. -/
theorem run_lift (y : StateM Disk α) (d : Disk) :
    (liftM y : ExceptT ε (StateM Disk) α).run d = (.ok (y d).1, (y d).2) := rfl

/-- A sequence of steps that succeeds goes through the disk that the first one leaves. -/
theorem run_bind_eq_ok {x : ExceptT ε (StateM Disk) α} {f : α → ExceptT ε (StateM Disk) β}
    {d d' : Disk} {b : β} (h : (x >>= f).run d = (.ok b, d')) :
    ∃ a d₁, x.run d = (.ok a, d₁) ∧ (f a).run d₁ = (.ok b, d') := by
  rw [run_bind] at h
  generalize x.run d = out at h
  obtain ⟨_ | a, d₁⟩ := out
  · cases h
  · exact ⟨a, d₁, rfl, h⟩

/-- A step leaves the disk as it is, whether it succeeds or not. -/
def Keeps (x : ExceptT ε (StateM Disk) α) : Prop := ∀ d, (x.run d).2 = d

/-- A sequence of steps leaves the disk if each one does. -/
theorem Keeps.bind {x : ExceptT ε (StateM Disk) α} {f : α → ExceptT ε (StateM Disk) β}
    (hx : Keeps x) (hf : ∀ a, Keeps (f a)) : Keeps (x >>= f) := by
  intro d
  have hd := hx d
  rw [run_bind]
  generalize x.run d = out at hd ⊢
  obtain ⟨_ | a, d'⟩ := out
  · exact hd
  · exact (hf a d').trans hd

/-- A step whose failure is looked at leaves the disk if the step does. -/
theorem Keeps.run {ε' : Type} {x : ExceptT ε (StateM Disk) α} (hx : Keeps x) :
    Keeps (ε := ε') (liftM x.run) := hx

/-- What is known already is no change to the disk. -/
theorem keeps_orFail (f : ε → Failure) (x : Except ε α) : Keeps (orFail f x) := by
  cases x <;> exact fun _ => rfl

/-- Looking for a file leaves the disk, whether it is found or not. -/
theorem keeps_storage_read (p : Path) :
    Keeps (ε := ε) (liftM (Disk.storage.read p)) := fun _ => rfl

/-- A file is read from the disk, or the fault is put in words. -/
theorem read_run (p : Path) (d : Disk) :
    (read Disk.storage p).run d = ((d.read p).mapError (.read p.text), d) := by
  unfold read
  rw [run_bind, run_lift]
  have hread : (Disk.storage.read p) d = (d.read p, d) := rfl
  rw [hread]
  dsimp only
  cases d.read p <;> rfl

/-- Reading a file leaves the disk. -/
theorem keeps_read (p : Path) : Keeps (read Disk.storage p) := by
  intro d
  rw [read_run]

/-- Fetching a release leaves the disk. -/
theorem keeps_fetch (releases : Path) (p : Provider) : Keeps (fetch Disk.storage releases p) := by
  unfold fetch
  refine (keeps_read _).bind fun metadata => (keeps_read _).bind fun components => ?_
  cases Text.ofBytes? components <;> exact fun _ => rfl

/-- Loading the image catalog leaves the disk. -/
theorem keeps_loadCatalog (p : Path) : Keeps (loadCatalog Disk.storage p) := by
  unfold loadCatalog
  refine (keeps_storage_read p).bind fun bytes => ?_
  cases bytes with
  | ok bytes => exact keeps_orFail _ _
  | error fault => cases fault <;> exact fun _ => rfl

/-- Nothing is written before all assets of a provider have been made. -/
theorem keeps_prepare (config : Config) (releases root : Path) (versions : VersionCatalog)
    (c : ProviderConfig) : Keeps (prepare Disk.storage config releases root versions c) := by
  unfold prepare
  refine (keeps_orFail _ _).bind fun version => ?_
  refine (keeps_fetch releases _).run.bind fun release => ?_
  refine (keeps_orFail _ _).bind fun release => ?_
  exact (keeps_loadCatalog _).bind fun catalog => keeps_orFail _ _

/-! ## Writing -/

/-- From the disk `d`, a step leads to the disk in `out`, or fails as `out` does, by a failure of
writing. -/
def Writes (x : ExceptT Failure (StateM Disk) Unit) (d : Disk) : Except Failure Disk → Prop
  | .ok d' => x.run d = (.ok (), d')
  | .error f => f.isOfWriting = true ∧ ∃ d', x.run d = (.error f, d')

/-- What is written after something else is written to the disk that has that. -/
theorem Writes.bind {x y : ExceptT Failure (StateM Disk) Unit} {d : Disk} {out : Except Failure Disk}
    {next : Disk → Except Failure Disk} (hx : Writes x d out) (hy : ∀ d', Writes y d' (next d')) :
    Writes (x >>= fun _ => y) d (out >>= next) := by
  cases out with
  | ok d' =>
    have hrun : (x >>= fun _ => y).run d = y.run d' := by rw [run_bind, hx]
    have hnext := hy d'
    show Writes (x >>= fun _ => y) d (next d')
    unfold Writes at hnext ⊢
    rwa [hrun]
  | error f =>
    obtain ⟨hf, d', hd'⟩ := hx
    exact ⟨hf, d', by rw [run_bind, hd']⟩

/-- A change of the disk that may be refused is one that writes. -/
theorem writes_change {f : FileFault → Failure} (hf : ∀ fault, (f fault).isOfWriting = true)
    (g : Disk → Except FileFault Disk) (d : Disk) :
    Writes (liftM (Disk.change g) >>= orFail f) d ((g d).mapError f) := by
  have hchange : (liftM (Disk.change g) >>= orFail f : ExceptT Failure (StateM Disk) Unit).run d =
      (orFail f (Disk.change g d).1 : ExceptT Failure (StateM Disk) Unit).run
        (Disk.change g d).2 := rfl
  unfold Disk.change at hchange
  cases hg : g d with
  | ok d' =>
    rw [hg] at hchange
    exact hchange
  | error fault =>
    rw [hg] at hchange
    exact ⟨hf fault, d, hchange⟩

/-- A file is written together with the directories above it. -/
theorem writes_writeFile (root : Path) (file : OutputFile) (d : Disk) :
    Writes (writeFile Disk.storage root file) d (d.writeFile root file) := by
  have hwrite (d : Disk) := writes_change (f := .write (root.join file.path.text)) (fun _ => rfl)
    (·.write (root.join file.path.text) file.contents.toUTF8.toList) d
  unfold writeFile Disk.writeFile
  dsimp only
  cases (root.join file.path.text).parent? with
  | none => exact hwrite d
  | some dir =>
    have hdirs := writes_change (f := .create dir) (fun _ => rfl) (·.makeDirs dir) d
    exact hdirs.bind hwrite

/-- Files are written one after the other. -/
theorem writes_commit (root : Path) (files : List OutputFile) : ∀ d : Disk,
    Writes (commit Disk.storage root files) d (d.writeFiles root files) := by
  induction files with
  | nil => exact fun _ => rfl
  | cons file files ih =>
    intro d
    unfold commit Disk.writeFiles at ih ⊢
    rw [List.foldlM_cons]
    exact (writes_writeFile root file d).bind ih

/-! ## Providers one after the other -/

section

variable (config : Config) (releases root : Path)

/-- From the disk `d`, the assets of some providers are made one after the other, each on the disk that
has the files of those before, and their files are written. -/
inductive Imports (versions : VersionCatalog) :
    Disk → List ProviderConfig → List Assets → Disk → Prop where
  /-- No provider changes nothing. -/
  | nil (d : Disk) : Imports versions d [] [] d
  /-- The files of a provider are written when they have all been made. -/
  | cons {d d₁ d₂ : Disk} {c : ProviderConfig} {cs : List ProviderConfig} {a : Assets}
    {as : List Assets}
    (made : (prepare Disk.storage config releases root versions c).run d = (.ok a, d))
    (written : d.writeFiles root a.files = .ok d₁) (more : Imports versions d₁ cs as d₂) :
    Imports versions d (c :: cs) (a :: as) d₂

/-- The first providers are imported, and then no assets can be made of the next one, for the reason
`f`. -/
def StopsAt (versions : VersionCatalog) (d : Disk) (cs : List ProviderConfig) (f : Failure)
    (as : List Assets) (d' : Disk) : Prop :=
  ∃ done next rest, cs = done ++ next :: rest ∧ Imports config releases root versions d done as d' ∧
    (prepare Disk.storage config releases root versions next).run d' = (.error f, d')

variable {config releases root} {versions : VersionCatalog} {d d' : Disk} {c : ProviderConfig}
  {cs : List ProviderConfig} {a : Assets} {as : List Assets}

/-- There are as many assets as providers. -/
theorem Imports.length_eq (h : Imports config releases root versions d cs as d') :
    as.length = cs.length := by
  induction h with
  | nil => rfl
  | cons _ _ _ ih => rw [List.length_cons, List.length_cons, ih]

/-- The disk is the one with the files of all assets, in order. -/
theorem Imports.writeFiles (h : Imports config releases root versions d cs as d') :
    d.writeFiles root (as.flatMap (·.files)) = .ok d' := by
  induction h with
  | nil => rfl
  | cons _ written _ ih => rw [List.flatMap_cons, Disk.writeFiles_append written, ih]

/-- The assets of a provider, if they are made, are its four files. -/
theorem exists_files_of_prepare
    (h : (prepare Disk.storage config releases root versions c).run d = (.ok a, d')) :
    ∃ version package rbac,
      a.files = Release.files config (c.provider version) package rbac a.catalog := by
  obtain ⟨version, d₁, -, h⟩ := run_bind_eq_ok h
  obtain ⟨fetched, d₂, -, h⟩ := run_bind_eq_ok h
  obtain ⟨release, d₃, -, h⟩ := run_bind_eq_ok h
  obtain ⟨catalog, d₄, -, h⟩ := run_bind_eq_ok h
  cases hassets : Release.assets config c.exclude (c.provider version) release catalog with
  | ok a' =>
    rw [hassets] at h
    cases h
    obtain ⟨_, _, -, -, made, -⟩ := Release.assets_eq_ok hassets
    obtain ⟨metadata, hfiles⟩ := made.files
    exact ⟨version, _, _, hfiles⟩
  | error e =>
    rw [hassets] at h
    cases h

/-- Each of the assets is the four files of its provider. -/
theorem Imports.files (h : Imports config releases root versions d cs as d') :
    List.Forall₂ (fun c a => ∃ version package rbac,
      a.files = Release.files config (c.provider version) package rbac a.catalog) cs as := by
  induction h with
  | nil => exact .nil
  | cons made _ _ ih => exact .cons (exists_files_of_prepare made) ih

/-- The import of a provider makes the assets and then writes their files, or fails at the one or the
other. -/
theorem importProvider_run (config : Config) (releases root : Path) (versions : VersionCatalog)
    (c : ProviderConfig) (d : Disk) :
    (∃ a d', (importProvider Disk.storage config releases root versions c).run d = (.ok a, d') ∧
        (prepare Disk.storage config releases root versions c).run d = (.ok a, d) ∧
        d.writeFiles root a.files = .ok d') ∨
      ∃ f d', (importProvider Disk.storage config releases root versions c).run d = (.error f, d') ∧
        (f.isOfWriting = true ∨
          d' = d ∧ (prepare Disk.storage config releases root versions c).run d = (.error f, d)) := by
  have kept := keeps_prepare config releases root versions c d
  unfold importProvider
  rw [run_bind]
  generalize (prepare Disk.storage config releases root versions c).run d = out at kept ⊢
  obtain ⟨f | a, d₁⟩ := out
  · obtain rfl : d₁ = d := kept
    exact .inr ⟨f, d₁, rfl, .inr ⟨rfl, rfl⟩⟩
  obtain rfl : d₁ = d := kept
  have hcommit := writes_commit root a.files d₁
  dsimp only
  rw [run_bind]
  cases hfiles : d₁.writeFiles root a.files with
  | ok d' =>
    rw [hfiles] at hcommit
    rw [hcommit]
    exact .inl ⟨a, d', rfl, rfl, hfiles⟩
  | error f =>
    rw [hfiles] at hcommit
    obtain ⟨hf, d', hd'⟩ := hcommit
    rw [hd']
    exact .inr ⟨f, d', rfl, .inl hf⟩

/-- An import of providers one after the other gets through all of them, or stops at one of which no
assets can be made, or fails to write. -/
theorem mapM_importProvider (config : Config) (releases root : Path) (versions : VersionCatalog)
    (cs : List ProviderConfig) : ∀ d : Disk,
    (∃ as d', (cs.mapM (importProvider Disk.storage config releases root versions)).run d =
        (.ok as, d') ∧ Imports config releases root versions d cs as d') ∨
      ∃ f d', (cs.mapM (importProvider Disk.storage config releases root versions)).run d =
        (.error f, d') ∧
          (f.isOfWriting = true ∨ ∃ as, StopsAt config releases root versions d cs f as d') := by
  induction cs with
  | nil => exact fun d => .inl ⟨[], d, rfl, .nil d⟩
  | cons c cs ih =>
    intro d
    rw [List.mapM_cons, run_bind]
    obtain ⟨a, d₁, hrun, made, written⟩ | ⟨f, d', hrun, hf⟩ :=
      importProvider_run config releases root versions c d
    · rw [hrun]
      dsimp only
      rw [run_bind]
      -- The rest is imported to the disk that has the files of the first provider.
      obtain ⟨as, d', hrest, himports⟩ | ⟨f, d', hrest, hf⟩ := ih d₁
      · rw [hrest]
        exact .inl ⟨a :: as, d', rfl, .cons made written himports⟩
      · rw [hrest]
        refine .inr ⟨f, d', rfl, hf.imp_right ?_⟩
        rintro ⟨as, done, next, rest, rfl, himports, hnext⟩
        exact ⟨a :: as, c :: done, next, rest, rfl, .cons made written himports, hnext⟩
    · rw [hrun]
      refine .inr ⟨f, d', rfl, hf.imp_right ?_⟩
      rintro ⟨rfl, hprepare⟩
      exact ⟨[], [], c, cs, rfl, .nil d', hprepare⟩

/-- The version catalog on a disk. -/
def versionsOn (config : Config) (root : Path) (d : Disk) : Except Failure VersionCatalog := do
  let path := root.join config.versionCatalog.text
  let bytes ← (d.read path).mapError fun fault => .plain (.read path.text fault)
  (VersionCatalog.ofBytes bytes).mapError (.parse path)

/-- An import looks for the providers and the version catalog before anything else, and changes
nothing if it lacks them. -/
theorem run_eq (config : Config) (releases root : Path) (only : Option String) (d : Disk) :
    (run Disk.storage config releases root only).run d =
      if config.selected only = [] then (.error (.noProvider (only.getD "")), d)
      else match versionsOn config root d with
        | .error f => (.error f, d)
        | .ok versions => ((config.selected only).mapM
            (importProvider Disk.storage config releases root versions)).run d := by
  unfold run versionsOn
  dsimp only
  by_cases hnone : config.selected only = []
  · rw [if_pos hnone, hnone]
    rfl
  have hsome : (config.selected only).isEmpty = false := by
    cases h : config.selected only with
    | nil => exact absurd h hnone
    | cons => rfl
  rw [if_neg hnone, hsome]
  simp only [Bool.false_eq_true, if_false]
  generalize root.join config.versionCatalog.text = path
  have hread : (read Disk.storage path).run d = ((d.read path).mapError (.read path.text), d) :=
    read_run path d
  rw [run_bind, run_lift, hread]
  dsimp only
  cases d.read path with
  | error fault => rfl
  | ok bytes =>
    show (orFail (.parse path) (VersionCatalog.ofBytes bytes) >>= fun versions => _ :
      ExceptT Failure (StateM Disk) _).run d = _
    rw [run_bind]
    cases hversions : VersionCatalog.ofBytes bytes with
    | error e =>
      simp only [bind, Except.bind, Except.mapError, hversions]
      rfl
    | ok versions =>
      simp only [bind, Except.bind, Except.mapError, hversions]
      rfl

/-- If an import succeeds, there are assets for each selected provider, and the disk is the one with all
their files, in order. If it fails for another reason than writing, then either it lacks providers or
versions and the disk is as before, or the disk is the one with the files of the first providers, and no
assets could be made of the next one. -/
theorem run_commits (config : Config) (releases root : Path) (only : Option String) (d : Disk) :
    (∀ as d', (run Disk.storage config releases root only).run d = (.ok as, d') →
      as.length = (config.selected only).length ∧
      d.writeFiles root (as.flatMap (·.files)) = .ok d' ∧
      List.Forall₂ (fun c a => ∃ version package rbac,
        a.files = Release.files config (c.provider version) package rbac a.catalog)
          (config.selected only) as ∧
      ∃ versions, versionsOn config root d = .ok versions ∧
        Imports config releases root versions d (config.selected only) as d') ∧
    (∀ f d', (run Disk.storage config releases root only).run d = (.error f, d') →
      f.isOfWriting = false →
        d' = d ∧ (config.selected only = [] ∨ versionsOn config root d = .error f) ∨
        ∃ versions as, versionsOn config root d = .ok versions ∧
          StopsAt config releases root versions d (config.selected only) f as d' ∧
          d.writeFiles root (as.flatMap (·.files)) = .ok d') ∧
    (config.selected only = [] ∨ (∃ f, versionsOn config root d = .error f) →
      ((run Disk.storage config releases root only).run d).2 = d) := by
  rw [run_eq]
  -- Nothing is written before the providers are selected and the versions are read.
  by_cases hnone : config.selected only = []
  · rw [if_pos hnone]
    refine ⟨?_, ?_, fun _ => rfl⟩
    · intro as d' h
      cases h
    · intro f d' h _
      cases h
      exact .inl ⟨rfl, .inl hnone⟩
  rw [if_neg hnone]
  cases hversions : versionsOn config root d with
  | error f =>
    refine ⟨?_, ?_, fun _ => rfl⟩
    · intro as d' h
      cases h
    · intro f' d' h _
      cases h
      exact .inl ⟨rfl, .inr rfl⟩
  | ok versions =>
    have hlacks : ¬ (config.selected only = [] ∨
        ∃ f, (Except.ok versions : Except Failure VersionCatalog) = .error f) := by
      rintro (h | ⟨f, h⟩)
      · exact hnone h
      · cases h
    dsimp only
    obtain ⟨as, d', hrun, himports⟩ | ⟨f, d', hrun, hf⟩ :=
      mapM_importProvider config releases root versions (config.selected only) d
    · rw [hrun]
      refine ⟨?_, ?_, fun h => absurd h hlacks⟩
      · intro as' d'' h
        cases h
        exact ⟨himports.length_eq, himports.writeFiles, himports.files, versions, rfl, himports⟩
      · intro f d'' h
        cases h
    · rw [hrun]
      refine ⟨?_, ?_, fun h => absurd h hlacks⟩
      · intro as d'' h
        cases h
      · intro f' d'' h hwriting
        cases h
        obtain hf | ⟨as, hstops⟩ := hf
        · rw [hf] at hwriting
          cases hwriting
        · obtain ⟨done, next, rest, hselected, himports, hnext⟩ := hstops
          exact .inr ⟨versions, as, rfl, ⟨done, next, rest, hselected, himports, hnext⟩,
            himports.writeFiles⟩

end

/-- Two providers, of which one has a version. -/
def twoProviders : Config :=
  { Config.standard with
    providers := [⟨"metal3", .infrastructure, none⟩, ⟨"aws", .infrastructure, none⟩] }

/-- A disk with the version of a provider, and with a release of it that has no components. -/
def oneRelease : Disk where
  entries := [
    (["provider-versions.json"], .file "\x7b\"metal3\": \"v1.3.0\"\x7d".toUTF8.toList),
    (["mirror"], .directory), (["mirror", "infrastructure-metal3"], .directory),
    (["mirror", "infrastructure-metal3", "v1.3.0"], .directory),
    (["mirror", "infrastructure-metal3", "v1.3.0", "metadata.yaml"], .file []),
    (["mirror", "infrastructure-metal3", "v1.3.0", "infrastructure-components.yaml"], .file [])]

/-- The import of one provider writes its files. That of both stops at the other one, after these files
are written; and that of a provider which is not configured writes nothing. -/
theorem commits_oneRelease :
    (∃ as d', (run Disk.storage twoProviders ⟨"mirror"⟩ ⟨""⟩ (some "metal3")).run oneRelease =
      (.ok as, d') ∧ as.length = 1 ∧ oneRelease.writeFiles ⟨""⟩ (as.flatMap (·.files)) = .ok d') ∧
    (∃ f d' versions as, (run Disk.storage twoProviders ⟨"mirror"⟩ ⟨""⟩ none).run oneRelease =
      (.error f, d') ∧ d' ≠ oneRelease ∧
        StopsAt twoProviders ⟨"mirror"⟩ ⟨""⟩ versions oneRelease twoProviders.providers f as d') ∧
    ((run Disk.storage twoProviders ⟨"mirror"⟩ ⟨""⟩ (some "gcp")).run oneRelease).2 =
      oneRelease := by
  have hruns : ((run Disk.storage twoProviders ⟨"mirror"⟩ ⟨""⟩ (some "metal3")).run
        oneRelease).1.toOption.isSome = true ∧
      ((run Disk.storage twoProviders ⟨"mirror"⟩ ⟨""⟩ none).run oneRelease).2.entries.length ≠
        oneRelease.entries.length ∧
      (match ((run Disk.storage twoProviders ⟨"mirror"⟩ ⟨""⟩ none).run oneRelease).1 with
        | .error f => some f.isOfWriting
        | .ok _ => none) = some false := by decide +kernel
  obtain ⟨hone, hchanged, htwo⟩ := hruns
  refine ⟨?_, ?_, ?_⟩
  · obtain ⟨success, -, -⟩ := run_commits twoProviders ⟨"mirror"⟩ ⟨""⟩ (some "metal3") oneRelease
    generalize (run Disk.storage twoProviders ⟨"mirror"⟩ ⟨""⟩ (some "metal3")).run oneRelease = out
      at hone success ⊢
    obtain ⟨f | as, d'⟩ := out
    · cases hone
    · obtain ⟨hlength, hwrite, -⟩ := success as d' rfl
      exact ⟨as, d', rfl, hlength, hwrite⟩
  · obtain ⟨-, failure, -⟩ := run_commits twoProviders ⟨"mirror"⟩ ⟨""⟩ none oneRelease
    generalize (run Disk.storage twoProviders ⟨"mirror"⟩ ⟨""⟩ none).run oneRelease = out
      at hchanged htwo failure ⊢
    obtain ⟨f | as, d'⟩ := out
    · have hne : d' ≠ oneRelease := fun h => hchanged (by rw [h])
      obtain ⟨rfl, -⟩ | ⟨versions, as, -, hstops, -⟩ := failure f d' rfl (Option.some.inj htwo)
      · exact absurd rfl hne
      · exact ⟨f, d', versions, as, rfl, hne, hstops⟩
    · cases htwo
  · exact (run_commits twoProviders ⟨"mirror"⟩ ⟨""⟩ (some "gcp") oneRelease).2.2
      (.inl (by decide))

end Import

end ProviderAssets
