import ProviderAssets.Proofs.Commits
import ProviderAssets.Proofs.Disk
import Mathlib.Data.List.Induction

/-!
# Files that are written one after the other

What a disk holds after files were written to it: at the location of a file there is the last one
that was written there, and a file where none was written is as before (`Disk.written_of_writeFiles`).
On every disk that has the same directories, and some file at each location, the same files can be
written again, with whatever contents: this changes the disk in place (`Disk.writeFiles_again`). If
the contents are those that are there already, it does not change it at all
(`Disk.replaceAll_eq_self`).
-/

namespace ProviderAssets

/-- Where a file goes when it is written to the directory of the assets. -/
def OutputFile.location (root : Path) (f : OutputFile) : Location :=
  Disk.location (root.join f.path.text)

/-- What is written. -/
def OutputFile.entry (f : OutputFile) : DiskEntry := .file f.contents.toUTF8.toList

namespace Disk

variable {root : Path} {d d' e : Disk} {f : OutputFile} {files more : List OutputFile} {k : Location}
  {entry : DiskEntry}

/-! ## One file -/

/-- The path leads to its location: a file that is there can be read, and another one written in its
place. This is so as long as the directories are there. -/
structure Reaches (root path : Path) (d : Disk) : Prop where
  /-- The location is none of the working directory. -/
  ne_nil : location (root.join path.text) ≠ []
  /-- A file is read. -/
  read : ∀ e bytes, Extends d e → e.at? (location (root.join path.text)) = some (.file bytes) →
    e.read (root.join path.text) = .ok bytes
  /-- A file is written in place of another one. -/
  write : ∀ e bytes contents, Extends d e →
    e.at? (location (root.join path.text)) = some (.file bytes) →
      e.writeFile root ⟨path, contents⟩ =
        .ok (e.put (location (root.join path.text)) (OutputFile.entry ⟨path, contents⟩))

/-- More directories do not matter. -/
theorem Reaches.mono {path : Path} (h : Reaches root path d) (he : Extends d e) :
    Reaches root path e where
  ne_nil := h.ne_nil
  read e' bytes he' := h.read e' bytes (he.trans he')
  write e' bytes contents he' := h.write e' bytes contents (he.trans he')

/-- A file is put at its location once the directories above it are there. -/
theorem writeFile_eq_ok (h : d.writeFile root f = .ok d') :
    ∃ d₁, Grows d d₁ ∧ Reaches root f.path d₁ ∧ d₁.at? (f.location root) ≠ some .directory ∧
      d' = d₁.put (f.location root) f.entry := by
  -- Making the directories again does nothing, so the file is written right away.
  obtain ⟨d₁, hgrows, hagain, hwrite⟩ : ∃ d₁, Grows d d₁ ∧
      (∀ e contents, Extends d₁ e → e.writeFile root ⟨f.path, contents⟩ =
        (e.write (root.join f.path.text) contents.toUTF8.toList).mapError
          (.write (root.join f.path.text))) ∧
      d₁.write (root.join f.path.text) f.contents.toUTF8.toList = .ok d' := by
    unfold writeFile at h ⊢
    dsimp only at h ⊢
    cases hparent : (root.join f.path.text).parent? with
    | none =>
      rw [hparent] at h
      exact ⟨d, .refl d, fun _ _ _ => rfl, mapError_eq_ok.1 h⟩
    | some dir =>
      rw [hparent] at h
      obtain ⟨d₁, hdirs, h⟩ := bind_eq_ok.1 h
      obtain ⟨hgrows, hagain⟩ := makeDirs_eq_ok (mapError_eq_ok.1 hdirs)
      refine ⟨d₁, hgrows, fun e contents he => ?_, mapError_eq_ok.1 h⟩
      dsimp only
      rw [hagain e he]
      rfl
  obtain ⟨rfl, hlocate, hno, hreplace⟩ := write_eq_ok hwrite
  refine ⟨d₁, hgrows, ⟨?_, ?_, ?_⟩, hno, rfl⟩
  · intro hnil
    rw [hnil] at hno
    exact hno rfl
  · intro e bytes he hfile
    exact bind_eq_ok.2 ⟨_, (locate_eq_ok hlocate).2 e he, by rw [hfile]; rfl⟩
  · intro e bytes contents he hfile
    rw [hagain e contents he, hreplace e bytes _ he hfile]
    rfl

/-! ## Several files -/

/-- The last one of some files that go to a location. -/
def lastAt (root : Path) (files : List OutputFile) (k : Location) : Option OutputFile :=
  files.reverse.find? (·.location root = k)

/-- What comes last goes over what comes first. -/
theorem lastAt_append (root : Path) (files more : List OutputFile) (k : Location) :
    lastAt root (files ++ more) k = (lastAt root more k).or (lastAt root files k) := by
  rw [lastAt, List.reverse_append, List.find?_append]
  rfl

/-- The last file at a location goes there. -/
theorem location_of_lastAt (h : lastAt root files k = some f) : f ∈ files ∧ f.location root = k :=
  ⟨List.mem_reverse.1 (List.mem_of_find?_eq_some h), by simpa using List.find?_some h⟩

/-- Where no file goes, there is no last one. -/
theorem lastAt_eq_none : lastAt root files k = none ↔ ∀ f ∈ files, f.location root ≠ k := by
  simp [lastAt]

/-- An entry is all that there is at a location. -/
def Holds (d : Disk) (k : Location) (entry : DiskEntry) : Prop :=
  d.entriesAt k ≠ [] ∧ ∀ x ∈ d.entriesAt k, x = entry

/-- An entry that is all that there is is what there is. -/
theorem Holds.at?_eq (h : d.Holds k entry) (hk : k ≠ []) : d.at? k = some entry := by
  obtain ⟨hne, hall⟩ := h
  rw [at?_eq_head? hk, List.head?_eq_some_head hne, hall _ (List.head_mem hne)]

/-- The second disk has the directories of the first one, and what was there but at some locations. -/
structure Spares (touched : Location → Prop) (d d' : Disk) : Prop where
  /-- No directory is lost. -/
  dirs : Extends d d'
  /-- Elsewhere there is what was there. -/
  kept : ∀ k, ¬ touched k → d.entriesAt k ≠ [] → d'.entriesAt k = d.entriesAt k

namespace Spares

variable {touched more : Location → Prop}

/-- A disk spares itself. -/
protected theorem refl (touched : Location → Prop) (d : Disk) : Spares touched d d :=
  ⟨.refl d, fun _ _ _ => rfl⟩

/-- What is spared twice is spared. -/
protected theorem trans (h : Spares touched d e) (h' : Spares touched e d') : Spares touched d d' where
  dirs := h.dirs.trans h'.dirs
  kept k hk hne := by
    have hkept := h.kept k hk hne
    rw [h'.kept k hk (hkept ▸ hne), hkept]

/-- More may be touched. -/
protected theorem mono (h : Spares touched d d') (hsub : ∀ k, touched k → more k) :
    Spares more d d' :=
  ⟨h.dirs, fun k hk => h.kept k fun htouched => hk (hsub k htouched)⟩

/-- Directories that are added touch nothing. -/
theorem of_grows (h : Grows d d') (touched : Location → Prop) : Spares touched d d' :=
  ⟨h.mono, fun _ _ => h.entriesAt_eq⟩

/-- An entry is put at a location where there is no directory. -/
theorem put {l : Location} (h : d.at? l ≠ some .directory) (entry : DiskEntry) :
    Spares (· = l) d (d.put l entry) :=
  ⟨extends_put h entry, fun _ hk _ => entriesAt_put_of_ne hk d entry⟩

/-- A file that is spared is read as before. -/
theorem read_eq {p : Path} {bytes : List UInt8} (h : Spares touched d d')
    (hp : ¬ touched (location p)) (hread : d.read p = .ok bytes) : d'.read p = .ok bytes := by
  obtain ⟨hfile, hmono⟩ := read_eq_ok hread
  have hne : location p ≠ [] := by
    intro hnil
    rw [hnil] at hfile
    cases hfile
  have hentries : d.entriesAt (location p) ≠ [] := by
    intro hnone
    rw [(at?_eq_none hne).2 hnone] at hfile
    cases hfile
  refine hmono d' bytes h.dirs ?_
  rw [at?_eq_head? hne, h.kept _ hp hentries, ← at?_eq_head? hne, hfile]

end Spares

/-- The locations that files go to. -/
def Takes (root : Path) (files : List OutputFile) (k : Location) : Prop :=
  ∃ f ∈ files, f.location root = k

/-- The files were written to the first disk, one after the other, which gave the second one. -/
structure Written (root : Path) (files : List OutputFile) (d d' : Disk) : Prop where
  /-- Only the locations of the files are touched. -/
  spares : Spares (Takes root files) d d'
  /-- Where files were written there is the last one. -/
  last : ∀ k f, lastAt root files k = some f → d'.Holds k f.entry
  /-- The paths of the files lead to them. -/
  reaches : ∀ f ∈ files, Reaches root f.path d'

namespace Written

/-- No file was written. -/
protected theorem nil (root : Path) (d : Disk) : Written root [] d d where
  spares := .refl _ d
  last _ _ h := by cases h
  reaches _ h := by cases h

/-- One file was written. -/
protected theorem single (h : d.writeFile root f = .ok d') : Written root [f] d d' := by
  obtain ⟨d₁, hgrows, hreaches, hno, rfl⟩ := writeFile_eq_ok h
  have hput := Spares.put hno f.entry
  refine ⟨?_, fun k g hg => ?_, fun g hg => ?_⟩
  · refine (Spares.of_grows hgrows _).trans (hput.mono fun k hk => ?_)
    exact ⟨f, List.mem_cons_self, hk.symm⟩
  · obtain ⟨hmem, rfl⟩ := location_of_lastAt hg
    rw [List.mem_singleton.1 hmem]
    exact entriesAt_put_self d₁ (f.location root) f.entry
  · rw [List.mem_singleton.1 hg]
    exact hreaches.mono hput.dirs

/-- Files were written, and then others. -/
protected theorem append (h : Written root files d e) (h' : Written root more e d') :
    Written root (files ++ more) d d' where
  spares := by
    refine (h.spares.mono ?_).trans (h'.spares.mono ?_)
    · rintro k ⟨f, hf, hk⟩
      exact ⟨f, List.mem_append_left _ hf, hk⟩
    · rintro k ⟨f, hf, hk⟩
      exact ⟨f, List.mem_append_right _ hf, hk⟩
  last k f hf := by
    rw [lastAt_append] at hf
    -- Where none of the later files goes, the last one of the earlier files is spared.
    cases hmore : lastAt root more k with
    | some g =>
      rw [hmore] at hf
      obtain rfl : g = f := Option.some.inj hf
      exact h'.last k g hmore
    | none =>
      rw [hmore] at hf
      obtain ⟨hne, hall⟩ := h.last k f hf
      have hfree : ¬ Takes root more k := by
        rintro ⟨g, hg, hk⟩
        exact lastAt_eq_none.1 hmore g hg hk
      have hkept := h'.spares.kept k hfree hne
      exact ⟨hkept ▸ hne, hkept ▸ hall⟩
  reaches f hf := by
    obtain hf | hf := List.mem_append.1 hf
    · exact (h.reaches f hf).mono h'.spares.dirs
    · exact h'.reaches f hf

end Written

/-- Files that are written one after the other. -/
theorem written_of_writeFiles (h : d.writeFiles root files = .ok d') : Written root files d d' := by
  unfold writeFiles at h
  induction files generalizing d with
  | nil =>
    cases h
    exact .nil root _
  | cons f files ih =>
    rw [List.foldlM_cons] at h
    obtain ⟨d₁, hfirst, h⟩ := bind_eq_ok.1 h
    exact (Written.single hfirst).append (ih h)

/-! ## Writing in place -/

/-- The disk with files in place of what is at their locations. -/
def replaceAll (root : Path) (d : Disk) (files : List OutputFile) : Disk :=
  files.foldl (fun d f => d.put (f.location root) f.entry) d

/-- Where there is something, replacing a file leaves something. -/
theorem entriesAt_put_ne_nil {l : Location} (h : d.entriesAt k ≠ []) (entry : DiskEntry) :
    (d.put l entry).entriesAt k ≠ [] := by
  by_cases hk : k = l
  · rw [hk]
    exact (entriesAt_put_self d l entry).1
  · rwa [entriesAt_put_of_ne hk]

/-- Where there is something, replacing files leaves something. -/
theorem entriesAt_replaceAll_ne_nil (h : d.entriesAt k ≠ []) (files : List OutputFile) :
    (d.replaceAll root files).entriesAt k ≠ [] := by
  unfold replaceAll
  induction files generalizing d with
  | nil => exact h
  | cons f files ih => exact ih (entriesAt_put_ne_nil h f.entry)

/-- Replacing files one after the other leaves the last one at each location, in the same place. -/
theorem entries_replaceAll (h : ∀ f ∈ files, d.entriesAt (f.location root) ≠ []) :
    (d.replaceAll root files).entries =
      d.entries.map fun (k, old) => (k, ((lastAt root files k).map (·.entry)).getD old) := by
  -- The last file goes over those before it, so the induction is from the end.
  induction files using List.reverseRecOn with
  | nil => exact (List.map_id _).symm
  | append_singleton files f ih =>
    have hfirst : ∀ g ∈ files, d.entriesAt (g.location root) ≠ [] :=
      fun g hg => h g (List.mem_append_left _ hg)
    have hf : (d.replaceAll root files).entriesAt (f.location root) ≠ [] :=
      entriesAt_replaceAll_ne_nil (h f (List.mem_append_right _ List.mem_cons_self)) files
    have hstep : d.replaceAll root (files ++ [f]) =
        (d.replaceAll root files).put (f.location root) f.entry := List.foldl_append
    rw [hstep, put_of_mem hf, ih hfirst, List.map_map]
    refine List.map_congr_left fun e _ => ?_
    obtain ⟨k, old⟩ := e
    dsimp only [Function.comp_apply]
    rw [lastAt_append]
    by_cases hk : k = f.location root
    · have hlast : lastAt root [f] k = some f := by simp [lastAt, hk]
      rw [hlast, if_pos hk]
      rfl
    · have hlast : lastAt root [f] k = none := lastAt_eq_none.2 (by simpa using Ne.symm hk)
      rw [hlast, if_neg hk]
      rfl

/-- Replacing files by the ones that are there changes nothing. -/
theorem replaceAll_eq_self (h : ∀ k f, lastAt root files k = some f → d.Holds k f.entry) :
    d.replaceAll root files = d := by
  -- At each location there is the last file that goes there already.
  have hne : ∀ f ∈ files, d.entriesAt (f.location root) ≠ [] := by
    intro f hf
    cases hlast : lastAt root files (f.location root) with
    | none => exact absurd rfl (lastAt_eq_none.1 hlast f hf)
    | some g => exact (h _ g hlast).1
  have hentries : (d.replaceAll root files).entries = d.entries := by
    rw [entries_replaceAll hne]
    conv_rhs => rw [← List.map_id d.entries]
    refine List.map_congr_left fun e he => ?_
    obtain ⟨k, old⟩ := e
    dsimp only [id]
    cases hlast : lastAt root files k with
    | none => rfl
    | some f =>
      have hold : old ∈ d.entriesAt k :=
        List.mem_map_of_mem (f := Prod.snd) (List.mem_filter.2 ⟨he, by simp⟩)
      rw [(h k f hlast).2 old hold]
      rfl
  exact congrArg Disk.mk hentries

/-- Files that could be written to a disk can be written again, in place of what is there. -/
theorem writeFiles_again (hreaches : ∀ f ∈ files, Reaches root f.path d) (he : Extends d e)
    (hfiles : ∀ f ∈ files, ∃ bytes, e.at? (f.location root) = some (.file bytes)) :
    e.writeFiles root files = .ok (e.replaceAll root files) := by
  unfold writeFiles replaceAll
  induction files generalizing e with
  | nil => rfl
  | cons f files ih =>
    obtain ⟨hreach, hreaches⟩ := List.forall_mem_cons.1 hreaches
    obtain ⟨⟨bytes, hbytes⟩, hfiles⟩ := List.forall_mem_cons.1 hfiles
    have hno : e.at? (f.location root) ≠ some .directory := by
      rw [hbytes]
      simp
    have hwrite : e.writeFile root f = .ok (e.put (f.location root) f.entry) :=
      hreach.write e bytes f.contents he hbytes
    rw [List.foldlM_cons, hwrite]
    refine ih hreaches (he.trans (extends_put hno f.entry)) fun g hg => ?_
    rw [at?_put (l := f.location root) hreach.ne_nil]
    split
    · exact ⟨_, rfl⟩
    · exact hfiles g hg

end Disk

/-! ## Writing that may fail -/

namespace Import

open Disk (Spares Takes)

variable {ε α β : Type} {touched : Location → Prop} {root : Path}

/-- However it ends, a step changes the disk at some locations only. -/
def Touches (touched : Location → Prop) (x : ExceptT ε (StateM Disk) α) : Prop :=
  ∀ d, Spares touched d (x.run d).2

/-- What leaves the disk touches nothing. -/
theorem Keeps.touches {x : ExceptT ε (StateM Disk) α} (h : Keeps x) (touched : Location → Prop) :
    Touches touched x := by
  intro d
  rw [h d]
  exact .refl _ d

/-- A sequence of steps touches what its steps do. -/
theorem Touches.bind {x : ExceptT ε (StateM Disk) α} {f : α → ExceptT ε (StateM Disk) β}
    (hx : Touches touched x) (hf : ∀ a, Touches touched (f a)) : Touches touched (x >>= f) := by
  intro d
  have hd := hx d
  rw [run_bind]
  generalize x.run d = out at hd ⊢
  obtain ⟨_ | a, d'⟩ := out
  · exact hd
  · exact hd.trans (hf a d')

/-- A change that may be refused touches what it touches if it is made. -/
theorem touches_change {g : Disk → Except FileFault Disk}
    (hg : ∀ d d', g d = .ok d' → Spares touched d d') :
    Touches (ε := ε) touched (liftM (Disk.change g)) := by
  intro d
  show Spares touched d (Disk.change g d).2
  unfold Disk.change
  cases h : g d with
  | ok d' => exact hg d d' h
  | error fault => exact .refl _ d

/-- Writing a file touches its location only. -/
theorem touches_writeFile (root : Path) (file : OutputFile) :
    Touches (· = file.location root) (writeFile Disk.storage root file) := by
  have hwrite : Touches (ε := Failure) (· = file.location root)
      (liftM (Disk.storage.write (root.join file.path.text) file.contents)) :=
    touches_change fun d d' h => by
      obtain ⟨rfl, -, hno, -⟩ := Disk.write_eq_ok h
      exact .put hno _
  have hdirs (dir : Path) : Touches (ε := Failure) (· = file.location root)
      (liftM (Disk.storage.makeDirs dir)) :=
    touches_change fun d d' h => .of_grows (Disk.makeDirs_eq_ok h).1 _
  unfold writeFile
  dsimp only
  cases (root.join file.path.text).parent? with
  | none => exact hwrite.bind fun _ => (keeps_orFail _ _).touches _
  | some dir =>
    refine (hdirs dir).bind fun _ => ?_
    refine ((keeps_orFail _ _).touches _).bind fun _ => ?_
    exact hwrite.bind fun _ => (keeps_orFail _ _).touches _

/-- Writing files touches their locations only. -/
theorem touches_commit (root : Path) (files : List OutputFile) :
    Touches (Takes root files) (commit Disk.storage root files) := by
  unfold commit
  induction files with
  | nil => exact fun d => .refl _ d
  | cons file files ih =>
    show Touches _ (writeFile Disk.storage root file >>= fun _ =>
      files.forM (writeFile Disk.storage root))
    refine Touches.bind (fun d => ?_) fun _ d => ?_
    · refine (touches_writeFile root file d).mono fun k hk => ?_
      exact ⟨file, List.mem_cons_self, hk.symm⟩
    · refine (ih d).mono ?_
      rintro k ⟨f, hf, hk⟩
      exact ⟨f, List.mem_cons_of_mem _ hf, hk⟩

end Import

end ProviderAssets
