import ProviderAssets.Fields
import Mathlib.Data.List.Forall2

/-!
# Fields that are written to

What a map in order has in common with what is left of it after it was written to. Writing what is
read changes nothing, and of two writes at one key the second one counts (`insert_eq_self`,
`insert_insert`). `Fields.SameBut` says that two maps have the same entries in the same order apart
from some keys, and `Fields.Alike` compares the values of two maps with the same keys in the same
order, entry by entry.
-/

namespace ProviderAssets.Fields

variable {α : Type} {f g h : Fields α} {key : String} {value : α} {names : List String}

/-! ## Reading and writing -/

/-- Writing the value that is read changes nothing. -/
theorem insert_eq_self (found : get? f key = some value) : insert f key value = f := by
  induction f with
  | nil => cases found
  | cons e rest ih =>
    obtain ⟨k, v⟩ := e
    rw [get?_cons] at found
    by_cases hk : k = key
    · rw [if_pos hk.symm] at found
      rw [insert, if_pos hk, Option.some.inj found]
    · rw [if_neg (Ne.symm hk)] at found
      rw [insert, if_neg hk, ih found]

/-- Of two values that are written at one key, the second one counts. -/
theorem insert_insert (f : Fields α) (key : String) (first second : α) :
    insert (insert f key first) key second = insert f key second := by
  induction f with
  | nil => exact if_pos rfl
  | cons e rest ih =>
    obtain ⟨k, v⟩ := e
    by_cases hk : k = key
    · rw [insert, if_pos hk, insert, if_pos hk, insert, if_pos hk]
    · rw [insert, if_neg hk, insert, if_neg hk, insert, if_neg hk, ih]

/-- Writing to a key that has a value and to another one can be done in any order. -/
theorem insert_comm {other : String} (found : get? f key = some value) (hne : other ≠ key) (v w : α) :
    insert (insert f key v) other w = insert (insert f other w) key v := by
  induction f with
  | nil => cases found
  | cons e rest ih =>
    obtain ⟨k, x⟩ := e
    rw [get?_cons] at found
    by_cases hk : k = key
    · have ho : k ≠ other := fun h => hne (h.symm.trans hk)
      rw [insert, if_pos hk, insert, if_neg ho, insert, if_neg ho, insert, if_pos hk]
    · rw [if_neg (Ne.symm hk)] at found
      by_cases ho : k = other
      · rw [insert, if_neg hk, insert, if_pos ho, insert, if_pos ho, insert, if_neg hk]
      · rw [insert, if_neg hk, insert, if_neg ho, insert, if_neg ho, insert, if_neg hk, ih found]

/-- A key that has a value is one of the keys. -/
theorem mem_keys (found : get? f key = some value) : key ∈ keys f := by
  induction f with
  | nil => cases found
  | cons e rest ih =>
    obtain ⟨k, v⟩ := e
    rw [get?_cons] at found
    by_cases hk : key = k
    · exact hk ▸ List.mem_cons_self
    · rw [if_neg hk] at found
      exact List.mem_cons_of_mem _ (ih found)

/-- A key that does not come has no value. -/
theorem get?_eq_none (h : key ∉ keys f) : get? f key = none := by
  cases hfound : get? f key with
  | none => rfl
  | some value => exact absurd (mem_keys hfound) h

/-- A key without a value is none of the keys. -/
theorem not_mem_keys (missing : get? f key = none) : key ∉ keys f := by
  induction f with
  | nil => exact List.not_mem_nil
  | cons e rest ih =>
    obtain ⟨k, v⟩ := e
    rw [get?_cons] at missing
    by_cases hk : key = k
    · rw [if_pos hk] at missing
      cases missing
    · rw [if_neg hk] at missing
      exact List.not_mem_cons_of_ne_of_not_mem hk (ih missing)

/-- Maps with the same keys in the same order and the same values are the same, if the keys are
distinct. -/
theorem ext_of_nodup (hkeys : keys f = keys g) (hnodup : (keys g).Nodup)
    (hvalues : ∀ key, get? f key = get? g key) : f = g := by
  induction f generalizing g with
  | nil => exact (List.map_eq_nil_iff.1 hkeys.symm).symm
  | cons e rest ih =>
    obtain ⟨e', rest', rfl, hkey, hothers⟩ := List.map_eq_cons_iff.1 hkeys.symm
    obtain ⟨k, v⟩ := e
    obtain ⟨k', v'⟩ := e'
    obtain rfl : k' = k := hkey
    have hothers : keys rest' = keys rest := hothers
    obtain ⟨hnew, hnodup⟩ := List.nodup_cons.1 hnodup
    have hvalue : v = v' := by simpa [get?_cons] using hvalues k'
    have hrest (key : String) : get? rest key = get? rest' key := by
      by_cases hk : key = k'
      · -- The first key is none of the others.
        rw [hk, get?_eq_none (hothers ▸ hnew), get?_eq_none hnew]
      · simpa [get?_cons, hk] using hvalues key
    rw [hvalue, ih hothers.symm hnodup hrest]

/-- An entry after a write is the one that was written or an old one. -/
theorem mem_insert {e : String × α} (h : e ∈ insert f key value) : e = (key, value) ∨ e ∈ f := by
  induction f with
  | nil => exact .inl (List.mem_singleton.1 h)
  | cons e' rest ih =>
    obtain ⟨k, v⟩ := e'
    by_cases hk : k = key
    · rw [insert, if_pos hk, hk] at h
      exact (List.mem_cons.1 h).imp_right (List.mem_cons_of_mem _)
    · rw [insert, if_neg hk] at h
      obtain rfl | h := List.mem_cons.1 h
      · exact .inr List.mem_cons_self
      · exact (ih h).imp_right (List.mem_cons_of_mem _)

/-- Writing to a key that has a value leaves all keys as they are. -/
theorem keys_insert_of_found (found : get? f key = some value) (new : α) :
    keys (insert f key new) = keys f := by
  rw [keys_insert, if_pos (mem_keys found)]

/-- Taking away a key that is not there changes nothing. -/
theorem erase_eq_self (missing : get? f key = none) : erase f key = f := by
  refine List.filter_eq_self.2 fun e he => decide_eq_true ?_
  rintro rfl
  exact not_mem_keys missing (List.mem_map_of_mem he)

/-- Keys stay distinct when a value is written. -/
theorem nodup_keys_insert (h : (keys f).Nodup) (key : String) (value : α) :
    (keys (insert f key value)).Nodup := by
  rw [keys_insert]
  split
  · exact h
  · rename_i hkey
    refine List.nodup_append.2 ⟨h, by simp, fun a ha b hb => ?_⟩
    rw [List.mem_singleton.1 hb]
    rintro rfl
    exact hkey ha

/-- Keys stay distinct when a value is taken away. -/
theorem nodup_keys_erase (h : (keys f).Nodup) (key : String) : (keys (erase f key)).Nodup := by
  rw [keys_erase]
  exact h.sublist List.filter_sublist

/-- A new key comes last. -/
theorem insert_of_not_mem {f : Fields α} {key : String} (value : α) (h : key ∉ keys f) :
    insert f key value = f ++ [(key, value)] := by
  induction f with
  | nil => rfl
  | cons e rest ih =>
    obtain ⟨hne, hrest⟩ := List.ne_and_not_mem_of_not_mem_cons h
    rw [insert, if_neg (Ne.symm hne), ih hrest]
    rfl

/-- Entries with new and different keys are all added at the end. -/
theorem insertAll_of_nodup (g : Fields α) : ∀ f : Fields α, (keys (f ++ g)).Nodup →
    insertAll f g = f ++ g := by
  induction g with
  | nil => exact fun f _ => (List.append_nil f).symm
  | cons e rest ih =>
    intro f h
    -- The first entry goes to the end, since its key is none of those before it.
    have hnew : e.1 ∉ keys f := by
      have apart := h
      unfold keys at apart
      rw [List.map_append, List.nodup_append] at apart
      intro hmem
      exact apart.2.2 _ hmem _ List.mem_cons_self rfl
    rw [List.append_cons] at h ⊢
    show insertAll (insert f e.1 e.2) rest = _
    rw [insert_of_not_mem e.2 hnew]
    exact ih _ h

/-- Entries with different keys are a map as they are. -/
theorem ofPairs_of_nodup {g : Fields α} (h : (keys g).Nodup) : ofPairs g = g :=
  insertAll_of_nodup g [] h

/-! ## The same apart from some keys -/

/-- Apart from some keys, two maps have the same entries in the same order. -/
def SameBut (names : List String) (f g : Fields α) : Prop :=
  g.filter (·.1 ∉ names) = f.filter (·.1 ∉ names)

namespace SameBut

/-- A map is the same as itself. -/
protected theorem refl (names : List String) (f : Fields α) : SameBut names f f := rfl

/-- What is the same in two steps is the same. -/
protected theorem trans (hfg : SameBut names f g) (hgh : SameBut names g h) : SameBut names f h :=
  Eq.trans hgh hfg

/-- Writing to one of the keys leaves the others. -/
protected theorem insert (f : Fields α) (value : α) (hkey : key ∈ names) :
    SameBut names f (insert f key value) := by
  unfold SameBut
  induction f with
  | nil => simp [Fields.insert, hkey]
  | cons e rest ih =>
    obtain ⟨k, v⟩ := e
    by_cases hk : k = key
    · subst hk
      simp [Fields.insert, hkey]
    · rw [Fields.insert, if_neg hk, List.filter_cons, List.filter_cons, ih]

/-- Taking one of the keys away leaves the others. -/
protected theorem erase (f : Fields α) (hkey : key ∈ names) :
    SameBut names f (erase f key) := by
  unfold SameBut Fields.erase
  rw [List.filter_filter]
  refine List.filter_congr fun e _ => ?_
  by_cases hk : e.1 = key
  · simp [hk, hkey]
  · simp [hk]

/-- Apart from one key, maps are the same if they are without it. -/
theorem erase_eq (hfg : SameBut [key] f g) : Fields.erase g key = Fields.erase f key := by
  simpa [SameBut, Fields.erase] using hfg

end SameBut

/-! ## The same keys -/

/-- Two maps have the same keys in the same order, with values that are related. -/
def Alike (R : String → α → α → Prop) (f g : Fields α) : Prop :=
  List.Forall₂ (fun e e' => e'.1 = e.1 ∧ R e.1 e.2 e'.2) f g

namespace Alike

variable {R : String → α → α → Prop}

/-- A map is like itself if every value is related to itself. -/
protected theorem refl (hR : ∀ key value, R key value value) (f : Fields α) : Alike R f f :=
  List.forall₂_same.2 fun e _ => ⟨rfl, hR e.1 e.2⟩

/-- A map is like the one with another value at a key if every value is related to itself, and the
one at that key to the new one. -/
protected theorem insert (hR : ∀ key value, R key value value) (found : get? f key = some value)
    {new : α} (hnew : R key value new) : Alike R f (insert f key new) := by
  induction f with
  | nil => cases found
  | cons e rest ih =>
    obtain ⟨k, v⟩ := e
    rw [get?_cons] at found
    by_cases hk : k = key
    · rw [if_pos hk.symm] at found
      obtain rfl := Option.some.inj found
      rw [Fields.insert, if_pos hk]
      exact .cons ⟨rfl, hk ▸ hnew⟩ (Alike.refl hR rest)
    · rw [if_neg (Ne.symm hk)] at found
      rw [Fields.insert, if_neg hk]
      exact .cons ⟨rfl, hR k v⟩ (ih found)

/-- Maps that are alike stay so without a key. -/
protected theorem erase (hfg : Alike R f g) (key : String) :
    Alike R (Fields.erase f key) (Fields.erase g key) := by
  refine List.rel_filter (fun e e' he => ?_) hfg
  show decide _ = true ↔ decide _ = true
  rw [he.1]

end Alike

end ProviderAssets.Fields
