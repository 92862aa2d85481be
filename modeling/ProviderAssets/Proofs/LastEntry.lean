import ProviderAssets.Proofs.Failure
import Mathlib.Data.List.Induction

/-!
# The last entry counts

Some tables are filled by going over a list: each element may give an entry, and an entry takes the
place of an earlier one with the same key. `Fields.isRecord_foldlM` says what such a table holds in
the end: at each key the value of the last element that has an entry for it. `IsLast` is the notion
of "last" that this and the statements about resources share. The keys are in the order in which they
first came (`Fields.keys_foldl_record`).
-/

namespace ProviderAssets

variable {α β ε : Type}

/-- `x` is the last element of a list for which `p` holds. -/
def IsLast (p : α → Prop) (xs : List α) (x : α) : Prop :=
  ∃ before after, xs = before ++ x :: after ∧ p x ∧ ∀ y ∈ after, ¬ p y

namespace IsLast

variable {p q : α → Prop} {xs : List α} {x y : α}

/-- The last element for which `p` holds is an element. -/
theorem mem (h : IsLast p xs x) : x ∈ xs := by
  obtain ⟨before, after, rfl, -, -⟩ := h
  exact List.mem_append_right _ List.mem_cons_self

/-- For the last element for which `p` holds, `p` holds. -/
theorem holds (h : IsLast p xs x) : p x := by
  obtain ⟨-, -, -, hx, -⟩ := h
  exact hx

/-- Which element is the last one depends only on where `p` holds. -/
theorem congr (h : IsLast p xs x) (same : ∀ y ∈ xs, p y ↔ q y) : IsLast q xs x := by
  obtain ⟨before, after, rfl, hx, hafter⟩ := h
  refine ⟨before, after, rfl, (same x (List.mem_append_right _ List.mem_cons_self)).1 hx, ?_⟩
  intro y hy hq
  exact hafter y hy ((same y (List.mem_append_right _ (List.mem_cons_of_mem _ hy))).2 hq)

/-- An element at the end for which `p` holds is the last one. -/
theorem concat_self (h : p y) : IsLast p (xs ++ [y]) y := ⟨xs, [], rfl, h, by simp⟩

/-- An element at the end for which `p` does not hold changes nothing. -/
theorem concat (h : IsLast p xs x) (hy : ¬ p y) : IsLast p (xs ++ [y]) x := by
  obtain ⟨before, after, rfl, hx, hafter⟩ := h
  refine ⟨before, after ++ [y], by simp, hx, ?_⟩
  intro z hz
  rcases List.mem_append.1 hz with hz | hz
  · exact hafter z hz
  · rwa [List.mem_singleton.1 hz]

/-- The last element is the one at the end, if `p` holds for it, or else the last one before. -/
theorem of_concat (h : IsLast p (xs ++ [y]) x) : x = y ∧ p y ∨ ¬ p y ∧ IsLast p xs x := by
  -- `y` is the last element itself, or the end of what comes after it.
  obtain ⟨before, after, heq, hx, hafter⟩ := h
  rcases List.eq_nil_or_concat after with rfl | ⟨init, z, hinit⟩
  · obtain ⟨-, he⟩ := List.append_inj' heq rfl
    obtain rfl := (List.cons.inj he).1
    exact .inl ⟨rfl, hx⟩
  · rw [List.concat_eq_append] at hinit
    subst hinit
    rw [← List.cons_append, ← List.append_assoc] at heq
    obtain ⟨rfl, he⟩ := List.append_inj' heq rfl
    obtain rfl := (List.cons.inj he).1
    refine .inr ⟨hafter y (by simp), before, init, rfl, hx, ?_⟩
    intro z hz
    exact hafter z (List.mem_append_left [y] hz)

/-- If `p` holds anywhere, there is a last element for which it does. -/
theorem exists_of_mem (hx : x ∈ xs) (hp : p x) : ∃ y, IsLast p xs y := by
  -- From the end, the first element for which `p` holds is the one.
  induction xs using List.reverseRecOn with
  | nil => cases hx
  | append_singleton xs y ih =>
    by_cases hy : p y
    · exact ⟨y, concat_self hy⟩
    · rcases List.mem_append.1 hx with hx | hx
      · obtain ⟨z, hz⟩ := ih hx
        exact ⟨z, hz.concat hy⟩
      · rw [List.mem_singleton.1 hx] at hp
        exact absurd hp hy

end IsLast

namespace Fields

/-- A table with one more entry, if there is one. -/
def record (table : Fields β) : Option (String × β) → Fields β
  | some (key, value) => insert table key value
  | none => table

/-- An entry for a key is found there. -/
theorem get?_record_self (table : Fields β) (key : String) (value : β) :
    get? (record table (some (key, value))) key = some value := by
  rw [record, get?_insert, if_pos rfl]

/-- No entry, or one for another key, leaves what is found at a key. -/
theorem get?_record_of_ne (table : Fields β) {entry : Option (String × β)} {key : String}
    (h : ∀ value, entry ≠ some (key, value)) : get? (record table entry) key = get? table key := by
  cases entry with
  | none => rfl
  | some e =>
    obtain ⟨other, value⟩ := e
    have hne : key ≠ other := fun he => h value (by rw [he])
    rw [record, get?_insert, if_neg hne]

/-- The table holds the entries of the elements of a list, of which the last one for a key counts. -/
structure IsRecord (entry : α → Except ε (Option (String × β))) (xs : List α) (table : Fields β) :
    Prop where
  /-- Every element has been looked at with success. -/
  read : ∀ x ∈ xs, ∃ e, entry x = .ok e
  /-- A key has the value that the last element with an entry for it gives. -/
  holds : ∀ key value, get? table key = some value ↔
    ∃ x, IsLast (fun x => ∃ w, entry x = .ok (some (key, w))) xs x ∧
      entry x = .ok (some (key, value))

variable {entry : α → Except ε (Option (String × β))} {xs : List α} {table : Fields β}

/-- Without elements there is nothing to hold. -/
theorem isRecord_nil : IsRecord entry [] [] := by
  refine ⟨by simp, fun key value => ?_⟩
  constructor
  · intro h
    cases h
  · rintro ⟨x, hx, -⟩
    cases hx.mem

/-- The entry of one more element is recorded. -/
theorem IsRecord.concat (h : IsRecord entry xs table) {y : α} {e : Option (String × β)}
    (hy : entry y = .ok e) : IsRecord entry (xs ++ [y]) (record table e) := by
  refine ⟨fun x hx => ?_, fun key value => ?_⟩
  · rcases List.mem_append.1 hx with hx | hx
    · exact h.read x hx
    · exact ⟨e, by rw [List.mem_singleton.1 hx, hy]⟩
  · by_cases hkey : ∃ w, e = some (key, w)
    · -- The new entry is for this key, so it is the one that counts.
      obtain ⟨w, rfl⟩ := hkey
      rw [get?_record_self]
      constructor
      · intro hw
        obtain rfl := Option.some.inj hw
        exact ⟨y, .concat_self ⟨w, hy⟩, hy⟩
      · rintro ⟨x, hlast, hx⟩
        rcases hlast.of_concat with ⟨rfl, -⟩ | ⟨hno, -⟩
        · rw [hy] at hx
          cases hx
          rfl
        · exact absurd ⟨w, hy⟩ hno
    · -- The new entry is for no key or another one, so the last one before still counts.
      have hno : ¬ ∃ w, entry y = .ok (some (key, w)) := by
        rintro ⟨w, hw⟩
        rw [hy] at hw
        exact hkey ⟨w, Except.ok.inj hw⟩
      rw [get?_record_of_ne table fun w hw => hkey ⟨w, hw⟩, h.holds]
      constructor
      · rintro ⟨x, hlast, hx⟩
        exact ⟨x, hlast.concat hno, hx⟩
      · rintro ⟨x, hlast, hx⟩
        rcases hlast.of_concat with ⟨-, hyes⟩ | ⟨-, hlast⟩
        · exact absurd hyes hno
        · exact ⟨x, hlast, hx⟩

/-- A table that is filled by going over a list holds the entries of its elements. -/
theorem isRecord_foldlM (h : xs.foldlM (fun table x => record table <$> entry x) [] = .ok table) :
    IsRecord entry xs table := by
  refine foldlM_invariant (IsRecord entry) ?_ isRecord_nil h
  intro seen table y table' hseen step
  obtain ⟨e, hy, rfl⟩ := map_eq_ok.1 step
  exact hseen.concat hy

/-- A table is filled exactly if every element gives an entry or none, and then with these in order. -/
theorem foldlM_record_eq_ok : ∀ {xs : List α} {table table' : Fields β},
    xs.foldlM (fun table x => record table <$> entry x) table = .ok table' ↔
      ∃ es, List.Forall₂ (fun x e => entry x = .ok e) xs es ∧ es.foldl record table = table'
  | [], table, table' => by
    constructor
    · intro h
      cases h
      exact ⟨[], .nil, rfl⟩
    · rintro ⟨_, ⟨⟩, rfl⟩
      rfl
  | x :: xs, table, table' => by
    rw [List.foldlM_cons, bind_eq_ok]
    constructor
    · rintro ⟨next, hnext, h⟩
      obtain ⟨e, he, rfl⟩ := map_eq_ok.1 hnext
      obtain ⟨es, hes, rfl⟩ := foldlM_record_eq_ok.1 h
      exact ⟨e :: es, .cons he hes, rfl⟩
    · rintro ⟨_, hall, rfl⟩
      obtain ⟨e, es, he, hes, rfl⟩ := List.forall₂_cons_left_iff.1 hall
      exact ⟨record table e, map_eq_ok.2 ⟨e, he, rfl⟩, foldlM_record_eq_ok.2 ⟨es, hes, rfl⟩⟩

/-- A table cannot be filled as the first element cannot be looked at. -/
theorem foldlM_record_eq_error {e : ε} :
    xs.foldlM (fun table x => record table <$> entry x) table = .error e ↔
      ∃ before x after, xs = before ++ x :: after ∧ (∀ y ∈ before, ∃ o, entry y = .ok o) ∧
        entry x = .error e := by
  rw [foldlM_eq_error]
  constructor
  · rintro ⟨before, x, after, next, hsplit, hbefore, hx⟩
    obtain ⟨es, hes, -⟩ := foldlM_record_eq_ok.1 hbefore
    exact ⟨before, x, after, hsplit, exists_forall₂_iff.1 ⟨es, hes⟩, map_eq_error.1 hx⟩
  · rintro ⟨before, x, after, hsplit, hbefore, hx⟩
    obtain ⟨es, hes⟩ := exists_forall₂_iff.2 hbefore
    exact ⟨before, x, after, _, hsplit, foldlM_record_eq_ok.2 ⟨es, hes, rfl⟩, map_eq_error.2 hx⟩

/-- The keys of a table are in the order in which they first came. -/
theorem keys_foldl_record (es : List (Option (String × β))) :
    keys (es.foldl record []) = (es.filterMap (Option.map (·.1))).eraseDups := by
  -- The induction is from the end, as the table grows there.
  induction es using List.reverseRecOn with
  | nil => rfl
  | append_singleton es e ih =>
    rw [List.foldl_append, List.filterMap_append, List.eraseDups_append, ← ih]
    cases e with
    | none => simp [record]
    | some entry =>
      obtain ⟨key, value⟩ := entry
      show keys (insert (es.foldl record []) key value) = _
      rw [keys_insert, ih]
      by_cases hkey : key ∈ es.filterMap (Option.map (·.1))
      · simp [hkey, List.removeAll]
      · simp [hkey, List.removeAll, List.eraseDups_cons]

/-- Fields that are written one after the other are recorded. -/
theorem insertAll_eq_foldl_record (table more : Fields β) :
    insertAll table more = (more.map some).foldl record table := by
  rw [insertAll, List.foldl_map]
  rfl

/-- The keys of fields that are written one after the other are in the order in which they first came. -/
theorem keys_insertAll (more : Fields β) : keys (insertAll [] more) = (keys more).eraseDups := by
  rw [insertAll_eq_foldl_record, keys_foldl_record, List.filterMap_map]
  exact congrArg List.eraseDups (congrFun List.filterMap_eq_map more)

/-- At a key there is what the last one of the elements with this key gives. -/
theorem get?_insertAll_map (entry : α → String × β) {key : String} {value : β} :
    get? (insertAll [] (xs.map entry)) key = some value ↔
      ∃ x, IsLast (fun x => (entry x).1 = key) xs x ∧ (entry x).2 = value := by
  -- The elements are looked at without a chance of failure.
  let read : α → Except Unit (Option (String × β)) := fun x => .ok (some (entry x))
  have hread : List.Forall₂ (fun x e => read x = .ok e) xs ((xs.map entry).map some) := by
    rw [List.map_map, List.forall₂_map_right_iff]
    exact List.forall₂_same.2 fun _ _ => rfl
  have hrecord : IsRecord read xs (insertAll [] (xs.map entry)) :=
    isRecord_foldlM (foldlM_record_eq_ok.2 ⟨_, hread, (insertAll_eq_foldl_record [] _).symm⟩)
  have hentry (x : α) (value : β) :
      read x = .ok (some (key, value)) ↔ (entry x).1 = key ∧ (entry x).2 = value := by
    simp only [read, Except.ok.injEq, Option.some.injEq, Prod.ext_iff]
  have hkey (x : α) : (∃ value, read x = .ok (some (key, value))) ↔ (entry x).1 = key := by
    simp only [hentry, exists_and_left, exists_eq', and_true]
  rw [hrecord.holds]
  constructor
  · rintro ⟨x, hlast, hx⟩
    exact ⟨x, hlast.congr fun x _ => hkey x, ((hentry x value).1 hx).2⟩
  · rintro ⟨x, hlast, hx⟩
    exact ⟨x, hlast.congr fun x _ => (hkey x).symm, (hentry x value).2 ⟨hlast.holds, hx⟩⟩

end Fields

end ProviderAssets
