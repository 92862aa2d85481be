import ProviderAssets.Exclusion
import ProviderAssets.Proofs.Text.Lowercase

/-!
# Exclusion by a text

A name is excluded for a text that is a part of it, whatever the case of their letters. Both are lowered
as a whole before they are compared, so a name that has the text itself as a part is excluded wherever
the text is lowered as it is by itself. `Exclusion.excludes_verbatim` says for which texts this is so in
all names, and for these alone it is true of what is left of a manifest that no name has the text as a
part, definitions of custom resources aside.
-/

namespace ProviderAssets

/-- What is left are the resources that are definitions or have a name that is not excluded. -/
theorem Manifest.mem_exclude {e : Exclusion} {m : Manifest} {r : Resource} :
    r ∈ (m.exclude e).resources ↔
      r ∈ m.resources ∧ (r.kind = .customResourceDefinition ∨ ¬ e.excludes r.name = true) := by
  rw [exclude, resources_filter, List.mem_filter, Exclusion.drops]
  by_cases hkind : r.kind = .customResourceDefinition
  · simp [hkind]
  · simp [hkind]

namespace Exclusion

/-- A name is excluded exactly if the text is a part of it after both are lowered. -/
theorem excludes_contains_iff {needle name : String} : (contains needle).excludes name = true ↔
    (Text.lowercase needle).toList <:+: (Text.lowercase name).toList :=
  Text.hasPart_iff

/-- A service with a name. -/
def serviceNamed (name : String) : Resource := .ofId ⟨⟨"", "v1", "Service"⟩, name, none⟩ []

/-- A service is no definition of a custom resource. -/
theorem kind_serviceNamed (name : String) :
    (serviceNamed name).kind ≠ .customResourceDefinition := by
  show Kind.ofName "Service" ≠ .customResourceDefinition
  decide

/-- If a name is not excluded, a service with the name is left in a manifest. -/
theorem exists_serviceNamed {e : Exclusion} {name : String} (h : ¬ e.excludes name = true) :
    ∃ m : Manifest, serviceNamed name ∈ (m.exclude e).resources :=
  ⟨⟨[((serviceNamed name).id, serviceNamed name)], by simp⟩,
    Manifest.mem_exclude.2 ⟨List.mem_singleton.2 rfl, .inr h⟩⟩

/-- Which names that have a text as a part are excluded for it. Those are where the capital sigmas of the
text are read as they are in the text by itself, and therefore all if the text is settled. For a text that
is not, there is a name that has it as a part and is not excluded, and a manifest in which a resource with
such a name is left that is no definition of a custom resource. -/
theorem excludes_verbatim (needle : String) :
    (∀ a b, Text.ReadAlone a.toList needle.toList b.toList →
      (contains needle).excludes (a ++ needle ++ b) = true) ∧
    (Text.IsSettled needle.toList ↔ ∀ a b, (contains needle).excludes (a ++ needle ++ b) = true) ∧
    (Text.IsSettled needle.toList ↔ ∀ m : Manifest, ∀ r ∈ (m.exclude (contains needle)).resources,
      r.kind ≠ .customResourceDefinition → ∀ a b, r.name ≠ a ++ needle ++ b) := by
  have hall : Text.IsSettled needle.toList ↔
      ∀ a b, (contains needle).excludes (a ++ needle ++ b) = true := by
    simp only [excludes_contains_iff]
    exact Text.isSettled_iff
  refine ⟨fun a b h => excludes_contains_iff.2 (Text.isInfix_lowercase h), hall, ?_⟩
  rw [hall]
  constructor
  · intro h m r hr hkind a b hname
    obtain ⟨-, hleft⟩ := Manifest.mem_exclude.1 hr
    exact hleft.resolve_left hkind (hname ▸ h a b)
  · intro h a b
    by_contra hno
    obtain ⟨m, hleft⟩ := exists_serviceNamed hno
    exact h m _ hleft (kind_serviceNamed _) a b rfl

/-- A text without a capital sigma is settled, and names that have it as a part are excluded. -/
theorem excludes_ipam : Text.IsSettled "ipam".toList ∧
    (contains "ipam").excludes ("capm3-" ++ "ipam" ++ "-manager") = true := by
  have settled : Text.IsSettled "ipam".toList := Text.isSettled_of_not_mem (by decide)
  obtain ⟨-, hall, -⟩ := excludes_verbatim "ipam"
  exact ⟨settled, hall.1 settled "capm3-" "-manager"⟩

/-- Not every name that has a text as a part is excluded: the sigma at the end of the text is final, and
in the middle of the name it is not. -/
theorem not_excludes_verbatim :
    ¬ ∀ needle a b : String, (contains needle).excludes (a ++ needle ++ b) = true := by
  intro h
  have hname := h "AΣ" "" "A"
  have hno : (contains "AΣ").excludes ("" ++ "AΣ" ++ "A") = false := by decide +kernel
  rw [hno] at hname
  cases hname

end Exclusion

end ProviderAssets
