/-!
# Fields in order

A map from texts to values that remembers the order in which its keys first came: the fields of an
object, annotations, labels. A key that is written again keeps its place.
-/

namespace ProviderAssets

/-- A map in order of insertion, as the list of its entries. -/
abbrev Fields (α : Type) := List (String × α)

namespace Fields

variable {α : Type}

/-- The keys, in order. -/
def keys (f : Fields α) : List String := f.map (·.1)

/-- The value at a key. -/
def get? (f : Fields α) (key : String) : Option α := f.lookup key

/-- Whether there is a value at a key. -/
def has (f : Fields α) (key : String) : Bool := (get? f key).isSome

/-- The map with `value` at `key`: in the key's place if it has one, else at the end. -/
def insert : Fields α → String → α → Fields α
  | [], key, value => [(key, value)]
  | (k, v) :: rest, key, value =>
    if k = key then (k, value) :: rest else (k, v) :: insert rest key value

/-- The map without `key`; the others keep their order. -/
def erase (f : Fields α) (key : String) : Fields α := f.filter (·.1 ≠ key)

/-- The map with all entries of `g` written into it, in their order. -/
def insertAll (f g : Fields α) : Fields α := g.foldl (fun f (k, v) => insert f k v) f

/-- The map that arises from writing the entries one after the other. -/
def ofPairs (pairs : List (String × α)) : Fields α := insertAll [] pairs

/-- A look-up takes the first entry with the key. -/
theorem get?_cons (key other : String) (value : α) (rest : Fields α) :
    get? ((key, value) :: rest) other = if other = key then some value else get? rest other := by
  by_cases h : other = key
  · simp [get?, h]
  · simp [get?, List.lookup_cons, h, beq_eq_false_iff_ne.2 h]

/-- Insertion sets the value at its key and leaves the others. -/
theorem get?_insert (f : Fields α) (key other : String) (value : α) :
    get? (insert f key value) other = if other = key then some value else get? f other := by
  induction f with
  | nil => exact get?_cons ..
  | cons e rest ih =>
    obtain ⟨k, v⟩ := e
    by_cases hk : k = key
    · subst hk
      simp only [insert, if_true, get?_cons]
      split <;> rfl
    · simp only [insert, hk, if_false, get?_cons, ih]
      by_cases ho : other = k
      · simp [ho, hk]
      · simp [ho]

/-- Insertion adds a new key at the end and leaves the order of keys as it is otherwise. -/
theorem keys_insert (f : Fields α) (key : String) (value : α) :
    keys (insert f key value) = if key ∈ keys f then keys f else keys f ++ [key] := by
  induction f with
  | nil => simp [insert, keys]
  | cons e rest ih =>
    obtain ⟨k, v⟩ := e
    by_cases hk : k = key
    · simp [insert, keys, hk]
    · simp only [keys, insert, hk, if_false, List.map_cons] at ih ⊢
      rw [ih]
      by_cases hm : key ∈ rest.map (·.1) <;> simp [hm, Ne.symm hk]

/-- Erasure takes away the value at its key and leaves the others. -/
theorem get?_erase (f : Fields α) (key other : String) :
    get? (erase f key) other = if other = key then none else get? f other := by
  induction f with
  | nil => simp [erase, get?]
  | cons e rest ih =>
    obtain ⟨k, v⟩ := e
    by_cases hk : k = key
    · subst hk
      rw [show erase ((k, v) :: rest) k = erase rest k by simp [erase], ih, get?_cons]
      split <;> rfl
    · rw [show erase ((k, v) :: rest) key = (k, v) :: erase rest key by simp [erase, hk],
        get?_cons, get?_cons, ih]
      by_cases ho : other = k
      · simp [ho, hk]
      · simp [ho]

/-- Erasure leaves the order of the other keys as it is. -/
theorem keys_erase (f : Fields α) (key : String) :
    keys (erase f key) = (keys f).filter (· ≠ key) := by
  simp [keys, erase, List.filter_map, Function.comp_def]

end Fields

end ProviderAssets
