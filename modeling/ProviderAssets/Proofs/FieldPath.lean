import ProviderAssets.FieldPath
import ProviderAssets.Proofs.Success

/-!
# What a field path leads to

`FieldPath.LeadsTo` says which values a path leads to from the fields of an object: a plain segment
goes to the value of its field, a segment for items to every element of the array in its field, and
only objects are gone into. An update leaves the fields that its path does not start with
(`FieldPath.get?_updateFrom_of_ne`), and so does a list of rules (`FieldRule.updateAll_frame`). Of
rules at most one of which admits a resource, the one that does is all that matters
(`FieldRule.updateAll_eq_update`).
-/

namespace ProviderAssets

open Json (Object Value)

/-- The field that a step is about. -/
def Segment.name : Segment → String
  | .field name => name
  | .items name => name

namespace FieldPath

variable {α : Type}

/-- A path leads from the fields of an object to a value. -/
inductive LeadsTo : FieldPath → Object → Value → Prop where
  /-- A plain last segment leads to the value of its field. -/
  | field {name : String} {o : Object} {v : Value} (found : Fields.get? o name = some v) :
    LeadsTo [.field name] o v
  /-- A plain segment leads on from the object in its field. -/
  | inField {name : String} {rest : FieldPath} {o inner : Object} {v : Value}
    (found : Fields.get? o name = some (.object inner)) (further : LeadsTo rest inner v) :
    LeadsTo (.field name :: rest) o v
  /-- A last segment for items leads to the elements of the array in its field. -/
  | item {name : String} {o : Object} {xs : List Value} {v : Value}
    (found : Fields.get? o name = some (.array xs)) (mem : v ∈ xs) : LeadsTo [.items name] o v
  /-- A segment for items leads on from the objects in the array in its field. -/
  | inItem {name : String} {rest : FieldPath} {o inner : Object} {xs : List Value} {v : Value}
    (found : Fields.get? o name = some (.array xs)) (mem : .object inner ∈ xs)
    (further : LeadsTo rest inner v) : LeadsTo (.items name :: rest) o v

/-- Where a path leads to depends on the field that it starts with alone. -/
theorem LeadsTo.congr {path : FieldPath} {o o' : Object} {v : Value} (h : LeadsTo path o v)
    (same : ∀ seg ∈ path.head?, Fields.get? o' seg.name = Fields.get? o seg.name) :
    LeadsTo path o' v := by
  cases h with
  | field found => exact .field ((same _ rfl).trans found)
  | inField found further => exact .inField ((same _ rfl).trans found) further
  | item found mem => exact .item ((same _ rfl).trans found) mem
  | inItem found mem further => exact .inItem ((same _ rfl).trans found) mem further

/-- A path that does not start with a field leads to the same values if all other fields are the
same. -/
theorem LeadsTo.of_apart {path : FieldPath} {o o' : Object} {v : Value} {name : String}
    (h : LeadsTo path o v) (apart : ∀ seg ∈ path.head?, seg.name ≠ name)
    (same : ∀ key, key ≠ name → Fields.get? o' key = Fields.get? o key) : LeadsTo path o' v :=
  h.congr fun seg hseg => same seg.name (apart seg hseg)

/-- The empty path leads nowhere. -/
theorem LeadsTo.ne_nil {path : FieldPath} {o : Object} {v : Value} (h : LeadsTo path o v) :
    path ≠ [] := by
  cases h <;> exact List.cons_ne_nil _ _

/-! ## Updates that succeed -/

section

variable {t : Target α} {f : α → ExceptT Error Id α} {fault : String → String → Error}

/-- An update leaves the fields that its path does not start with. -/
theorem get?_updateFrom_of_ne {path : FieldPath} {o o' : Object} {key : String}
    (h : updateFrom (m := Id) t f fault path o = Except.ok o')
    (other : ∀ seg ∈ path.head?, key ≠ seg.name) : Fields.get? o' key = Fields.get? o key := by
  cases path with
  | nil =>
    cases h
    rfl
  | cons seg rest =>
    have ne : key ≠ seg.name := other seg rfl
    cases seg with
    | field name =>
      unfold updateFrom at h
      split at h
      · cases h
        rfl
      · obtain ⟨v, -, rfl⟩ := mapT_eq_ok h
        exact (Fields.get?_insert ..).trans (if_neg ne)
    | items name =>
      unfold updateFrom at h
      split at h
      · cases h
        rfl
      · cases h
        rfl
      · obtain ⟨ys, -, rfl⟩ := mapT_eq_ok h
        exact (Fields.get?_insert ..).trans (if_neg ne)
      · cases h

/-- An update of a resource is one of its fields, and leaves its identity. -/
theorem update_eq_ok {path : FieldPath} {r s : Resource}
    (h : path.update (m := Id) t f r = Except.ok s) :
    s.id = r.id ∧ ∃ fault, updateFrom (m := Id) t f fault path r.root = Except.ok s.root := by
  obtain ⟨root, hroot, h⟩ := bindT_eq_ok h
  cases h
  exact ⟨rfl, _, hroot⟩

end

end FieldPath

/-! ## Lists of rules -/

namespace FieldRule

variable {α : Type} {t : Target α} {f : α → ExceptT Error Id α}

/-- No two of the rules admit the same resource. -/
def Apart (rules : List FieldRule) : Prop :=
  rules.Pairwise fun a b => ∀ g, a.selector.admits g = true → ¬ b.selector.admits g = true

/-- Of such rules, only one admits a resource. -/
theorem Apart.eq_of_admits {rules : List FieldRule} (h : Apart rules) {a b : FieldRule} (ha : a ∈ rules)
    (hb : b ∈ rules) {g : GroupVersionKind} (hadmA : a.selector.admits g = true)
    (hadmB : b.selector.admits g = true) : a = b := by
  induction rules with
  | nil => cases ha
  | cons first rules ih =>
    obtain ⟨hfirst, hrest⟩ := List.pairwise_cons.1 h
    rcases List.mem_cons.1 ha with rfl | ha'
    · rcases List.mem_cons.1 hb with rfl | hb'
      · rfl
      · exact absurd hadmB (hfirst b hb' g hadmA)
    · rcases List.mem_cons.1 hb with rfl | hb'
      · exact absurd hadmA (hfirst a ha' g hadmB)
      · exact ih hrest ha' hb'

/-- A rule that is for a kind admits no resources of another one. -/
theorem kind_eq_of_admits {rule : FieldRule} {kind : String} (hkind : kind ∈ rule.selector.kind)
    {g : GroupVersionKind} (hadm : rule.selector.admits g = true) : g.kind = kind := by
  rw [Option.mem_def] at hkind
  simp only [KindSelector.admits, hkind, Option.all_some, Bool.and_eq_true, decide_eq_true_eq] at hadm
  exact hadm.2.symm

/-- Rules that are for different kinds do not admit the same resource. -/
theorem apart_of_kinds {rules : List FieldRule}
    (h : rules.Pairwise fun a b => ∃ k ∈ a.selector.kind, ∃ l ∈ b.selector.kind, k ≠ l) :
    Apart rules := by
  refine h.imp ?_
  rintro a b ⟨k, hk, l, hl, hne⟩ g ha hb
  exact hne ((kind_eq_of_admits hk ha).symm.trans (kind_eq_of_admits hl hb))

/-- A rule of a path for one kind admits the resources of that kind. -/
theorem admits_ofKind (kind : String) (path : FieldPath) (g : GroupVersionKind) :
    (ofKind kind path).selector.admits g = true ↔ g.kind = kind := by
  simp [ofKind, KindSelector.admits, eq_comm]

/-- A rule that does not admit a resource leaves it. -/
theorem update_of_not_admits {rule : FieldRule} {r : Resource}
    (h : ¬ rule.selector.admits r.id.gvk = true) : rule.update (m := Id) t f r = pure r := if_neg h

/-- Rules leave the identity of a resource, and the fields that none of their paths starts with. -/
theorem updateAll_frame : ∀ {rules : List FieldRule} {r s : Resource},
    updateAll (m := Id) rules t f r = Except.ok s →
      s.id = r.id ∧ ∀ key, (∀ rule ∈ rules, ∀ seg ∈ rule.path.head?, key ≠ seg.name) →
        Fields.get? s.root key = Fields.get? r.root key
  | [], r, s, h => by
    cases h
    exact ⟨rfl, fun _ _ => rfl⟩
  | rule :: rules, r, s, h => by
    unfold updateAll at h
    rw [List.foldlM_cons] at h
    obtain ⟨r', hr', h⟩ := bindT_eq_ok h
    obtain ⟨hid, hkeys⟩ := updateAll_frame h
    have first : r'.id = r.id ∧ ∀ key, (∀ seg ∈ rule.path.head?, key ≠ seg.name) →
        Fields.get? r'.root key = Fields.get? r.root key := by
      unfold update at hr'
      split at hr'
      · obtain ⟨hid, fault, hroot⟩ := FieldPath.update_eq_ok hr'
        exact ⟨hid, fun key ne => FieldPath.get?_updateFrom_of_ne hroot ne⟩
      · cases hr'
        exact ⟨rfl, fun _ _ => rfl⟩
    refine ⟨hid.trans first.1, fun key ne => ?_⟩
    rw [hkeys key fun rule hrule => ne rule (List.mem_cons_of_mem _ hrule),
      first.2 key (ne rule List.mem_cons_self)]

/-- Rules that all fail to admit a resource leave it. -/
theorem updateAll_eq_pure {rules : List FieldRule} {r : Resource}
    (skipped : ∀ rule ∈ rules, ¬ rule.selector.admits r.id.gvk = true) :
    updateAll (m := Id) rules t f r = pure r := by
  induction rules with
  | nil => rfl
  | cons rule rules ih =>
    obtain ⟨hrule, hrules⟩ := List.forall_mem_cons.1 skipped
    unfold updateAll
    rw [List.foldlM_cons, update_of_not_admits hrule, pure_bind]
    exact ih hrules

/-- If such rules succeed, they give the resource back. -/
theorem updateAll_of_not_admits {rules : List FieldRule} {r s : Resource}
    (skipped : ∀ rule ∈ rules, ¬ rule.selector.admits r.id.gvk = true)
    (h : updateAll (m := Id) rules t f r = Except.ok s) : s = r := by
  rw [updateAll_eq_pure skipped] at h
  exact (Except.ok.inj h).symm

/-- Of rules no two of which admit the same resource, the one that admits a resource does what all
of them do. -/
theorem updateAll_eq_update {rules : List FieldRule} {r : Resource} (apart : Apart rules)
    {rule : FieldRule} (hmem : rule ∈ rules) (hadm : rule.selector.admits r.id.gvk = true) :
    updateAll (m := Id) rules t f r = rule.path.update (m := Id) t f r := by
  induction rules with
  | nil => cases hmem
  | cons first rules ih =>
    obtain ⟨hfirst, hrest⟩ := List.pairwise_cons.1 apart
    unfold updateAll
    rw [List.foldlM_cons]
    rcases List.mem_cons.1 hmem with rfl | hmem
    · rw [update, if_pos hadm]
      cases hr : rule.path.update (m := Id) t f r with
      | error e => rfl
      | ok r' =>
        -- The other rules do not admit what is made of the resource.
        rw [← (FieldPath.update_eq_ok hr).1] at hadm
        exact updateAll_eq_pure fun other hother => hfirst other hother _ hadm
    · -- A later rule admits the resource, so the first one does not.
      have skipped : ¬ first.selector.admits r.id.gvk = true := fun hf => hfirst rule hmem _ hf hadm
      rw [update_of_not_admits skipped, pure_bind]
      exact ih hrest hmem

/-- If such rules succeed, so does the one that admits the resource, with the same result. -/
theorem update_of_updateAll {rules : List FieldRule} {r s : Resource} (apart : Apart rules)
    (h : updateAll (m := Id) rules t f r = Except.ok s) (rule : FieldRule) (hmem : rule ∈ rules)
    (hadm : rule.selector.admits r.id.gvk = true) :
    rule.path.update (m := Id) t f r = Except.ok s :=
  (updateAll_eq_update apart hmem hadm).symm.trans h

end FieldRule

end ProviderAssets
