import ProviderAssets.Fields

/-!
# Fields in sorted order

A map from texts to texts whose entries are in strictly ascending order of their keys, character by
character. Two such maps with the same entries are equal, so the text written for one is determined
by what it maps.
-/

namespace ProviderAssets

/-- A map in ascending order of keys. -/
structure SortedFields where
  /-- The keys with their values. -/
  entries : List (String × String)
  /-- Every key is less than the ones after it. -/
  ascending : entries.Pairwise (·.1 < ·.1)

namespace SortedFields

instance : DecidableEq SortedFields := fun a b =>
  if h : a.entries = b.entries then
    isTrue (by cases a; cases b; simp_all)
  else isFalse (fun e => h (e ▸ rfl))

/-- The map without entries. -/
def empty : SortedFields := ⟨[], .nil⟩

instance : Inhabited SortedFields := ⟨empty⟩

/-- The number of entries. -/
def size (m : SortedFields) : Nat := m.entries.length

/-- Whether there is no entry. -/
def isEmpty (m : SortedFields) : Bool := m.entries.isEmpty

/-- The value at a key. -/
def get? (m : SortedFields) (key : String) : Option String := m.entries.lookup key

/-- The entries with `value` at `key`. -/
def insertEntry (key value : String) : List (String × String) → List (String × String)
  | [] => [(key, value)]
  | (k, v) :: rest =>
    if key < k then (key, value) :: (k, v) :: rest
    else if key = k then (key, value) :: rest
    else (k, v) :: insertEntry key value rest

/-- Every key after an insertion is the new one or an old one. -/
theorem mem_insertEntry {key value : String} {entries : List (String × String)}
    {x : String × String} (h : x ∈ insertEntry key value entries) :
    x.1 = key ∨ x ∈ entries := by
  induction entries with
  | nil => simp_all [insertEntry]
  | cons e rest ih =>
    obtain ⟨k, v⟩ := e
    unfold insertEntry at h
    split at h
    · rcases List.mem_cons.1 h with rfl | h
      · exact .inl rfl
      · exact .inr h
    · split at h
      · rcases List.mem_cons.1 h with rfl | h
        · exact .inl rfl
        · exact .inr (List.mem_cons_of_mem _ h)
      · rcases List.mem_cons.1 h with rfl | h
        · exact .inr List.mem_cons_self
        · exact (ih h).imp_right (List.mem_cons_of_mem _)

/-- Insertion keeps the keys in ascending order. -/
theorem pairwise_insertEntry (key value : String) {entries : List (String × String)}
    (h : entries.Pairwise (·.1 < ·.1)) :
    (insertEntry key value entries).Pairwise (·.1 < ·.1) := by
  induction entries with
  | nil => exact List.pairwise_singleton ..
  | cons e rest ih =>
    obtain ⟨k, v⟩ := e
    have ⟨first, others⟩ := List.pairwise_cons.1 h
    unfold insertEntry
    split
    · rename_i lt
      refine List.pairwise_cons.2 ⟨fun x hx => ?_, h⟩
      rcases List.mem_cons.1 hx with rfl | hx
      · exact lt
      · exact String.lt_trans lt (first x hx)
    · split
      · rename_i eq
        exact List.pairwise_cons.2 ⟨fun x hx => eq ▸ first x hx, others⟩
      · rename_i notLt ne
        refine List.pairwise_cons.2 ⟨fun x hx => ?_, ih others⟩
        rcases mem_insertEntry hx with eq | hx
        · have : k < key := by
            rcases Decidable.em (k < key) with lt | ge
            · exact lt
            · exact absurd (String.le_antisymm (String.not_lt.1 ge) (String.not_lt.1 notLt)) ne
          exact eq ▸ this
        · exact first x hx

/-- The map with `value` at `key`. -/
def insert (m : SortedFields) (key value : String) : SortedFields :=
  ⟨insertEntry key value m.entries, pairwise_insertEntry key value m.ascending⟩

/-- Insertion sets the value at its key and leaves the others. -/
theorem get?_insert (m : SortedFields) (key other value : String) :
    (m.insert key value).get? other = if other = key then some value else m.get? other := by
  change Fields.get? (insertEntry key value m.entries) other =
    if other = key then some value else Fields.get? m.entries other
  induction m.entries with
  | nil => exact Fields.get?_cons ..
  | cons e rest ih =>
    obtain ⟨k, v⟩ := e
    unfold insertEntry
    split
    · exact Fields.get?_cons ..
    · rename_i notLt
      split
      · rename_i eq
        simp only [eq, Fields.get?_cons]
        split <;> rfl
      · rename_i ne
        simp only [Fields.get?_cons, ih]
        by_cases ho : other = k
        · simp [ho, Ne.symm ne]
        · simp [ho]

/-- The map with the entries written into it in their order. -/
def insertAll (m : SortedFields) (entries : List (String × String)) : SortedFields :=
  entries.foldl (fun m (k, v) => m.insert k v) m

/-- The map that arises from writing the entries one after the other. -/
def ofPairs (entries : List (String × String)) : SortedFields := empty.insertAll entries

end SortedFields

end ProviderAssets
