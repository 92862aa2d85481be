import ProviderAssets.Disk
import ProviderAssets.Proofs.Success

/-!
# Paths and disks

Where a path leads is written in it (`Disk.location`); the disk only decides whether there is a way,
and more directories never take one away (`Disk.walk_eq_ok`). Making directories adds directories
where there was nothing (`Disk.makeDirs_eq_ok`), and writing a file puts it at its location
(`Disk.write_eq_ok`). What is said here of a step that succeeds includes when it will succeed again:
on every disk that has the same directories.
-/

namespace ProviderAssets.Disk

variable {d d' e : Disk} {l k : Location} {p : Path} {entry : DiskEntry} {bytes : List UInt8}
  {name : String} {rest : List String}

/-! ## What there is -/

/-- All entries at a location. Only the first one counts. -/
def entriesAt (d : Disk) (k : Location) : List DiskEntry :=
  (d.entries.filter (·.1 = k)).map (·.2)

/-- What there is at a location is the first entry there. -/
theorem at?_eq_head? (hk : k ≠ []) (d : Disk) : d.at? k = (d.entriesAt k).head? := by
  have hempty : k.isEmpty = false := by simpa using hk
  rw [at?, hempty, if_neg Bool.false_ne_true, entriesAt]
  induction d.entries with
  | nil => rfl
  | cons e rest ih =>
    obtain ⟨l, x⟩ := e
    by_cases hl : l = k
    · rw [List.filter_cons_of_pos (by simpa using hl), hl, List.lookup_cons_self]
      rfl
    · have hbeq : (k == l) = false := beq_false_of_ne (Ne.symm hl)
      rw [List.filter_cons_of_neg (by simpa using hl), List.lookup_cons, hbeq, ih]

/-- There is nothing at a location without entries. -/
theorem at?_eq_none (hk : k ≠ []) : d.at? k = none ↔ d.entriesAt k = [] := by
  rw [at?_eq_head? hk, List.head?_eq_none_iff]

/-- Every directory of the first disk is one of the second. -/
def Extends (d e : Disk) : Prop := ∀ k, d.at? k = some .directory → e.at? k = some .directory

/-- A disk has its own directories. -/
protected theorem Extends.refl (d : Disk) : Extends d d := fun _ h => h

/-- The directories of a disk may be followed through others. -/
protected theorem Extends.trans {f : Disk} (hde : Extends d e) (hef : Extends e f) : Extends d f :=
  fun k h => hef k (hde k h)

/-- Where there is something, putting an entry changes it in place. -/
theorem put_of_mem (h : d.entriesAt l ≠ []) (entry : DiskEntry) :
    d.put l entry = ⟨d.entries.map fun (k, old) => (k, if k = l then entry else old)⟩ := by
  have hany : d.entries.any (·.1 = l) = true := by
    obtain ⟨x, hx⟩ := List.exists_mem_of_ne_nil _ h
    obtain ⟨e, he, -⟩ := List.mem_map.1 hx
    obtain ⟨he, hl⟩ := List.mem_filter.1 he
    exact List.any_eq_true.2 ⟨e, he, hl⟩
  rw [put, if_pos hany]

/-- Where there is nothing, an entry is put at the end. -/
theorem put_of_not_mem (h : d.entriesAt l = []) (entry : DiskEntry) :
    d.put l entry = ⟨d.entries ++ [(l, entry)]⟩ := by
  have hany : ¬ d.entries.any (·.1 = l) = true := by
    intro hany
    obtain ⟨e, he, hl⟩ := List.any_eq_true.1 hany
    rw [entriesAt, List.map_eq_nil_iff, List.filter_eq_nil_iff] at h
    exact h e he hl
  rw [put, if_neg hany]

/-- What there is at a location after an entry was put somewhere. -/
theorem entriesAt_put (d : Disk) (l k : Location) (entry : DiskEntry) :
    (d.put l entry).entriesAt k =
      if k = l then (if d.entriesAt l = [] then [entry] else (d.entriesAt l).map fun _ => entry)
      else d.entriesAt k := by
  by_cases hempty : d.entriesAt l = []
  · rw [put_of_not_mem hempty, if_pos hempty, entriesAt, List.filter_append, List.map_append]
    change d.entriesAt k ++ _ = _
    by_cases hk : k = l
    · rw [if_pos hk, hk, hempty, List.filter_cons_of_pos (by simp)]
      rfl
    · rw [if_neg hk, List.filter_cons_of_neg (by simpa using Ne.symm hk)]
      exact List.append_nil _
  · rw [put_of_mem hempty, if_neg hempty]
    unfold entriesAt
    -- Entries keep their places, so those at `k` are compared one by one.
    induction d.entries with
    | nil => split <;> rfl
    | cons e rest ih =>
      obtain ⟨m, x⟩ := e
      by_cases hm : m = k
      · rw [List.map_cons, List.filter_cons_of_pos (by simpa using hm), List.map_cons, ih]
        by_cases hk : k = l
        · rw [if_pos hk, if_pos hk, List.filter_cons_of_pos (by simpa using hm.trans hk), List.map_cons,
            List.map_cons]
          show (if m = l then entry else x) :: _ = _
          rw [if_pos (hm.trans hk)]
        · rw [if_neg hk, if_neg hk, List.filter_cons_of_pos (by simpa using hm), List.map_cons]
          show (if m = l then entry else x) :: _ = _
          rw [if_neg fun h => hk (hm.symm.trans h)]
      · rw [List.map_cons, List.filter_cons_of_neg (by simpa using hm), ih]
        by_cases hk : k = l
        · rw [if_pos hk, if_pos hk, List.filter_cons_of_neg (by simpa using fun h => hm (h.trans hk.symm))]
        · rw [if_neg hk, if_neg hk, List.filter_cons_of_neg (by simpa using hm)]

/-- Putting an entry at a location leaves what is elsewhere. -/
theorem entriesAt_put_of_ne (h : k ≠ l) (d : Disk) (entry : DiskEntry) :
    (d.put l entry).entriesAt k = d.entriesAt k := by
  rw [entriesAt_put, if_neg h]

/-- An entry that is put at a location is all that is there. -/
theorem entriesAt_put_self (d : Disk) (l : Location) (entry : DiskEntry) :
    (d.put l entry).entriesAt l ≠ [] ∧ ∀ x ∈ (d.put l entry).entriesAt l, x = entry := by
  rw [entriesAt_put, if_pos rfl]
  split
  · exact ⟨List.cons_ne_nil _ _, fun x hx => List.mem_singleton.1 hx⟩
  · rename_i hne
    refine ⟨fun h => hne (List.map_eq_nil_iff.1 h), fun x hx => ?_⟩
    obtain ⟨_, -, rfl⟩ := List.mem_map.1 hx
    rfl

/-- An entry that is put at a location is there, and elsewhere is what was there. -/
theorem at?_put (hl : l ≠ []) (d : Disk) (entry : DiskEntry) (k : Location) :
    (d.put l entry).at? k = if k = l then some entry else d.at? k := by
  by_cases hk : k = l
  · obtain ⟨hne, hall⟩ := entriesAt_put_self d l entry
    rw [if_pos hk, hk, at?_eq_head? hl, List.head?_eq_some_head hne, hall _ (List.head_mem hne)]
  · rw [if_neg hk]
    by_cases hempty : k = []
    · rw [hempty]
      rfl
    · rw [at?_eq_head? hempty, at?_eq_head? hempty, entriesAt_put_of_ne hk]

/-- An entry that is put where there is no directory leaves all directories. -/
theorem extends_put (h : d.at? l ≠ some .directory) (entry : DiskEntry) :
    Extends d (d.put l entry) := by
  intro k hk
  have hl : l ≠ [] := by
    rintro rfl
    exact h rfl
  have hne : k ≠ l := by
    rintro rfl
    exact h hk
  rw [at?_put hl, if_neg hne, hk]

/-! ## Where paths lead -/

/-- The location that a name leads to. -/
def enter (l : Location) (name : String) : Location :=
  if name.isEmpty || name = "." then l else if name = ".." then l.dropLast else l ++ [name]

/-- Where a path leads, if there is a way. -/
def location (p : Path) : Location := (names p).foldl enter []

/-- A directory is needed and there. -/
theorem needDirectory_eq_ok {o : Option DiskEntry} :
    needDirectory o = .ok () ↔ o = some .directory := by
  constructor
  · intro h
    obtain _ | _ | _ := o
    · cases h
    · cases h
    · rfl
  · rintro rfl
    rfl

/-- A path goes on by a name from a directory. -/
theorem walk_cons_eq_ok : d.walk l (name :: rest) = .ok k ↔
    d.at? l = some .directory ∧ name.utf8ByteSize ≤ 255 ∧ d.walk (enter l name) rest = .ok k := by
  have hbranch : (if name.isEmpty || name = "." then d.walk l rest
      else if name = ".." then d.walk l.dropLast rest
      else d.walk (l ++ [name]) rest) = d.walk (enter l name) rest := by
    unfold enter
    split
    · rfl
    · split <;> rfl
  rw [walk, bind_eq_ok]
  by_cases hsize : name.utf8ByteSize > 255
  · rw [if_pos hsize]
    constructor
    · rintro ⟨_, -, h⟩
      cases h
    · rintro ⟨-, h, -⟩
      exact absurd hsize (Nat.not_lt.2 h)
  · rw [if_neg hsize]
    constructor
    · rintro ⟨_, hneed, h⟩
      exact ⟨needDirectory_eq_ok.1 hneed, Nat.not_lt.1 hsize, hbranch ▸ h⟩
    · rintro ⟨hdir, -, h⟩
      exact ⟨(), needDirectory_eq_ok.2 hdir, hbranch ▸ h⟩

/-- A way along some names leads where the names say, and it is there on every disk with the same
directories. -/
theorem walk_eq_ok {names : List String} (h : d.walk l names = .ok k) :
    k = names.foldl enter l ∧ ∀ e, Extends d e → e.walk l names = .ok k := by
  induction names generalizing l with
  | nil =>
    cases h
    exact ⟨rfl, fun _ _ => rfl⟩
  | cons name rest ih =>
    obtain ⟨hdir, hsize, h⟩ := walk_cons_eq_ok.1 h
    obtain ⟨hk, hmono⟩ := ih h
    exact ⟨hk, fun e he => walk_cons_eq_ok.2 ⟨he l hdir, hsize, hmono e he⟩⟩

/-- A path that can be gone leads to its location, on every disk with the same directories. -/
theorem locate_eq_ok (h : d.locate p = .ok k) :
    k = location p ∧ ∀ e, Extends d e → e.locate p = .ok k := by
  unfold locate at h ⊢
  by_cases hempty : p.text.isEmpty
  · rw [if_pos hempty] at h
    cases h
  by_cases hinvalid : p.text.toList.contains '\x00'
  · rw [if_neg hempty, if_pos hinvalid] at h
    cases h
  simp only [if_neg hempty, if_neg hinvalid] at h ⊢
  exact walk_eq_ok h

/-- A file that is read is at the location of its path, and what is there on a disk with the same
directories is read from that disk. -/
theorem read_eq_ok (h : d.read p = .ok bytes) :
    d.at? (location p) = some (.file bytes) ∧ ∀ e bytes', Extends d e →
      e.at? (location p) = some (.file bytes') → e.read p = .ok bytes' := by
  unfold read at h
  obtain ⟨l, hl, h⟩ := bind_eq_ok.1 h
  obtain ⟨rfl, hmono⟩ := locate_eq_ok hl
  constructor
  · split at h
    · cases h
      assumption
    · cases h
    · cases h
  · intro e bytes' he hfile
    refine bind_eq_ok.2 ⟨location p, hmono e he, ?_⟩
    rw [hfile]
    rfl

/-! ## Making directories -/

/-- Directories are added where there was nothing. -/
def Grows (d d' : Disk) : Prop :=
  ∃ more, d'.entries = d.entries ++ more ∧ ∀ m ∈ more, m.2 = .directory ∧ d.entriesAt m.1 = []

namespace Grows

/-- Nothing may be added. -/
protected theorem refl (d : Disk) : Grows d d := ⟨[], (List.append_nil _).symm, by simp⟩

/-- Where there was something, there is still the same. -/
theorem entriesAt_eq (h : Grows d d') (hk : d.entriesAt k ≠ []) : d'.entriesAt k = d.entriesAt k := by
  obtain ⟨more, hmore, hall⟩ := h
  have hnone : more.filter (·.1 = k) = [] := by
    refine List.filter_eq_nil_iff.2 fun m hm hkey => hk ?_
    rw [← of_decide_eq_true hkey]
    exact (hall m hm).2
  rw [entriesAt, hmore, List.filter_append, hnone, List.append_nil, entriesAt]

/-- Directories that are added to a disk with more directories are added to the first one. -/
protected theorem trans (h : Grows d e) (h' : Grows e d') : Grows d d' := by
  obtain ⟨more, hmore, hall⟩ := h
  obtain ⟨more', hmore', hall'⟩ := h'
  refine ⟨more ++ more', by rw [hmore', hmore, List.append_assoc], fun m hm => ?_⟩
  obtain hm | hm := List.mem_append.1 hm
  · exact hall m hm
  · obtain ⟨hdir, hnone⟩ := hall' m hm
    refine ⟨hdir, ?_⟩
    rw [entriesAt, hmore, List.filter_append, List.map_append, List.append_eq_nil_iff] at hnone
    exact hnone.1

/-- A directory may be added where there is nothing. -/
theorem put (hl : l ≠ []) (h : d.at? l = none) : Grows d (d.put l .directory) := by
  have hempty := (at?_eq_none hl).1 h
  refine ⟨[(l, .directory)], by rw [put_of_not_mem hempty], fun m hm => ?_⟩
  rw [List.mem_singleton.1 hm]
  exact ⟨rfl, hempty⟩

/-- What is there stays there. -/
theorem at?_eq (h : Grows d d') (hk : d.at? k = some entry) : d'.at? k = some entry := by
  by_cases hempty : k = []
  · rw [hempty] at hk ⊢
    exact hk
  · have hne : d.entriesAt k ≠ [] := by
      intro hnone
      rw [(at?_eq_none hempty).2 hnone] at hk
      cases hk
    rw [at?_eq_head? hempty] at hk ⊢
    rw [h.entriesAt_eq hne, hk]

/-- All directories stay. -/
theorem mono (h : Grows d d') : Extends d d' := fun _ => h.at?_eq

end Grows

/-- A name leads on from what is there, or a directory is made for it first. On a disk that has the
directory, the name leads on. -/
theorem makeDirsFrom_cons_eq_ok (h : d.makeDirsFrom l (name :: rest) = .ok d') :
    ∃ d₁, Grows d d₁ ∧ d₁.makeDirsFrom (enter l name) rest = .ok d' ∧ ∀ e, Extends d₁ e →
      e.makeDirsFrom l (name :: rest) = e.makeDirsFrom (enter l name) rest := by
  simp only [makeDirsFrom, enter] at h ⊢
  by_cases hsize : name.utf8ByteSize > 255
  · rw [if_pos hsize] at h
    cases h
  simp only [if_neg hsize] at h ⊢
  by_cases hstay : name.isEmpty || name = "."
  · simp only [if_pos hstay] at h ⊢
    exact ⟨d, .refl d, h, fun _ _ => trivial⟩
  simp only [if_neg hstay] at h ⊢
  by_cases hup : name = ".."
  · simp only [if_pos hup] at h ⊢
    exact ⟨d, .refl d, h, fun _ _ => trivial⟩
  simp only [if_neg hup] at h ⊢
  -- Any other name leads to an entry of the directory, which is made if it is missing.
  have hl : l ++ [name] ≠ [] := by simp
  cases hentry : d.at? (l ++ [name]) with
  | none =>
    rw [hentry] at h
    refine ⟨d.put (l ++ [name]) .directory, .put hl hentry, h, fun e he => ?_⟩
    rw [he _ (by rw [at?_put hl, if_pos rfl])]
  | some entry =>
    rw [hentry] at h
    cases entry with
    | file bytes => cases h
    | directory =>
      refine ⟨d, .refl d, h, fun e he => ?_⟩
      rw [he _ hentry]

/-- A directory and those above it are made by adding what is missing, and on a disk that has them all
nothing is done. -/
theorem makeDirsFrom_eq_ok {names : List String} (h : d.makeDirsFrom l names = .ok d') :
    Grows d d' ∧ ∀ e, Extends d' e → e.makeDirsFrom l names = .ok e := by
  induction names generalizing d l with
  | nil =>
    cases h
    exact ⟨.refl _, fun _ _ => rfl⟩
  | cons name rest ih =>
    obtain ⟨d₁, hgrows, h, hskip⟩ := makeDirsFrom_cons_eq_ok h
    obtain ⟨hmore, hagain⟩ := ih h
    refine ⟨hgrows.trans hmore, fun e he => ?_⟩
    rw [hskip e (hmore.mono.trans he)]
    exact hagain e he

/-- The directories of a path are added where there was nothing, and on a disk that has them all
nothing is done. -/
theorem makeDirs_eq_ok (h : d.makeDirs p = .ok d') :
    Grows d d' ∧ ∀ e, Extends d' e → e.makeDirs p = .ok e := by
  unfold makeDirs at h ⊢
  by_cases hinvalid : p.text.toList.contains '\x00'
  · rw [if_pos hinvalid] at h
    cases h
  simp only [if_neg hinvalid] at h ⊢
  exact makeDirsFrom_eq_ok h

/-! ## Writing a file -/

/-- A file is written to the location of its path, where there is no directory. It can be written
again wherever there is a file, on a disk with the same directories. -/
theorem write_eq_ok (h : d.write p bytes = .ok d') :
    d' = d.put (location p) (.file bytes) ∧ d.locate p = .ok (location p) ∧
      d.at? (location p) ≠ some .directory ∧
      ∀ e old bytes', Extends d e → e.at? (location p) = some (.file old) →
        e.write p bytes' = .ok (e.put (location p) (.file bytes')) := by
  unfold write at h
  obtain ⟨l, hl, h⟩ := bind_eq_ok.1 h
  obtain ⟨rfl, hmono⟩ := locate_eq_ok hl
  -- Whether or not there is a file, the path must not name a directory.
  have hwritten : namesDirectory p = false ∧ d.at? (location p) ≠ some .directory ∧
      d' = d.put (location p) (.file bytes) := by
    cases hentry : d.at? (location p) with
    | none =>
      rw [hentry] at h
      obtain ⟨_, -, h⟩ := bind_eq_ok.1 h
      by_cases hnames : namesDirectory p
      · rw [if_pos hnames] at h
        cases h
      · rw [if_neg hnames] at h
        cases h
        exact ⟨Bool.eq_false_iff.2 hnames, by simp, rfl⟩
    | some entry =>
      rw [hentry] at h
      cases entry with
      | directory => cases h
      | file old =>
        by_cases hnames : namesDirectory p
        · simp only [if_pos hnames] at h
          cases h
        · simp only [if_neg hnames] at h
          cases h
          exact ⟨Bool.eq_false_iff.2 hnames, by simp, rfl⟩
  obtain ⟨hnames, hno, hput⟩ := hwritten
  refine ⟨hput, hl, hno, fun e old bytes' he hold => ?_⟩
  refine bind_eq_ok.2 ⟨location p, hmono e he, ?_⟩
  rw [hold, hnames]
  rfl

end ProviderAssets.Disk
