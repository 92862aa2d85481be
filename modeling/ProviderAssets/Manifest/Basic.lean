import ProviderAssets.Error
import ProviderAssets.Resource.Basic

/-!
# Manifests

A manifest holds resources in order, each under a key: the identity that the resource had when it
was put in. Keys are distinct. A resource that is changed in place keeps its key, so after a change
of its namespace the two may differ; `Manifest.collect` makes a manifest anew from current
identities.
-/

namespace ProviderAssets

/-- Resources in order under distinct keys. -/
structure Manifest where
  /-- The resources with their keys. -/
  entries : List (ResourceId × Resource)
  /-- No key comes twice. -/
  distinct : (entries.map (·.1)).Nodup

namespace Manifest

variable {α : Type}

instance : DecidableEq Manifest := fun a b =>
  if h : a.entries = b.entries then isTrue (by cases a; cases b; simp_all)
  else isFalse (fun e => h (e ▸ rfl))

/-- The manifest without resources. -/
def empty : Manifest := ⟨[], .nil⟩

instance : Inhabited Manifest := ⟨empty⟩

/-- The keys, in order. -/
def keys (m : Manifest) : List ResourceId := m.entries.map (·.1)

/-- The resources, in order. -/
def resources (m : Manifest) : List Resource := m.entries.map (·.2)

/-- The number of resources. -/
def size (m : Manifest) : Nat := m.entries.length

/-- Whether every key is the identity of its resource. -/
def IsKeyed (m : Manifest) : Prop := ∀ e ∈ m.entries, e.1 = e.2.id

/-- Keys stay distinct when a new one comes last. -/
theorem nodup_concat {m : Manifest} {r : Resource} (h : r.id ∉ m.keys) :
    ((m.entries ++ [(r.id, r)]).map (·.1)).Nodup := by
  rw [List.map_append, List.nodup_append]
  refine ⟨m.distinct, by simp, ?_⟩
  intro a ha b hb e
  simp only [List.map_cons, List.map_nil, List.mem_singleton] at hb
  exact h (hb ▸ e ▸ ha)

/-- Puts a resource at the end, under its identity. No resource may have that as its key. -/
def insert (m : Manifest) (r : Resource) : Except Error Manifest :=
  if h : r.id ∈ m.keys then throw (.conflict r.id)
  else pure ⟨m.entries ++ [(r.id, r)], nodup_concat h⟩

/-- Puts the resource in, if there is one. -/
def insert? (m : Manifest) : Option Resource → Except Error Manifest
  | some r => m.insert r
  | none => pure m

/-- Puts the resources that come from `xs` into a manifest one after the other. -/
def collectInto (f : α → Except Error (Option Resource)) (m : Manifest) (xs : List α) :
    Except Error Manifest :=
  xs.foldlM (fun m x => f x >>= m.insert?) m

/-- The manifest of the resources that come from `xs`, each under its identity. -/
def collect (f : α → Except Error (Option Resource)) (xs : List α) : Except Error Manifest :=
  collectInto f empty xs

/-- Changes every resource in place. -/
def map (f : Resource → Resource) (m : Manifest) : Manifest :=
  ⟨m.entries.map fun e => (e.1, f e.2), by
    have := m.distinct
    simpa only [List.map_map, Function.comp_def] using this⟩

/-- Changes the resource at an index in place. -/
def modifyAt (i : Nat) (f : Resource → Resource) (m : Manifest) : Manifest :=
  ⟨m.entries.modify i fun e => (e.1, f e.2), by
    have same : (m.entries.modify i fun e => (e.1, f e.2)).map (·.1) = m.entries.map (·.1) := by
      apply List.ext_getElem?
      intro j
      simp only [List.getElem?_map, List.getElem?_modify]
      split <;> cases m.entries[j]? <;> rfl
    exact same ▸ m.distinct⟩

/-- The resources for which `p` holds, in order. -/
def filter (p : Resource → Bool) (m : Manifest) : Manifest :=
  ⟨m.entries.filter fun e => p e.2, m.distinct.sublist (List.filter_sublist.map _)⟩

/-- The resources for which `p` does not hold, and those for which it does. -/
def partition (p : Resource → Bool) (m : Manifest) : Manifest × Manifest :=
  (m.filter (!p ·), m.filter p)

/-- The keys as messages list them. -/
def keysText (m : Manifest) : String :=
  "\x7b" ++ Text.joinWith ", " (m.keys.map ResourceId.text) ++ "\x7d"

/-- Whether two resources are the same data. -/
def sameResource (r s : Resource) : Bool :=
  r.id = s.id && (Json.Value.object r.root).sameAs (.object s.root)

/-- Whether two manifests hold the same data under the same keys, in any order. -/
def sameAs (m n : Manifest) : Bool :=
  m.size = n.size && m.entries.all fun (key, r) => (n.entries.lookup key).any (sameResource r)

/-- A change in place leaves the keys. -/
theorem keys_map (f : Resource → Resource) (m : Manifest) : (m.map f).keys = m.keys := by
  simp [keys, map]

/-- A change in place goes over the resources in order. -/
theorem resources_map (f : Resource → Resource) (m : Manifest) :
    (m.map f).resources = m.resources.map f := by
  simp [resources, map]

/-- A filter keeps the resources that it lets through, in order. -/
theorem resources_filter (p : Resource → Bool) (m : Manifest) :
    (m.filter p).resources = m.resources.filter p := by
  simp [resources, filter, List.filter_map, Function.comp_def]

/-- A resource that is put in comes last. -/
theorem resources_insert {m n : Manifest} {r : Resource} (h : m.insert r = .ok n) :
    n.resources = m.resources ++ [r] := by
  unfold insert at h
  split at h
  · cases h
  · cases h; simp [resources]

/-- A manifest without resources is keyed by identity. -/
theorem isKeyed_empty : empty.IsKeyed := by simp [IsKeyed, empty]

/-- Every resource is put in under its identity. -/
theorem IsKeyed.insert {m n : Manifest} {r : Resource} (hm : m.IsKeyed) (h : m.insert r = .ok n) :
    n.IsKeyed := by
  unfold Manifest.insert at h
  split at h
  · cases h
  · cases h
    intro e he
    rcases List.mem_append.1 he with he | he
    · exact hm e he
    · rw [List.mem_singleton.1 he]

/-- A filter keeps the keys of the resources that it lets through. -/
theorem IsKeyed.filter {m : Manifest} (hm : m.IsKeyed) (p : Resource → Bool) :
    (m.filter p).IsKeyed :=
  fun e he => hm e (List.mem_filter.1 he).1

end Manifest

end ProviderAssets
