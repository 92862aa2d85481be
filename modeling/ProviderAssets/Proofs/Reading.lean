import ProviderAssets.Manifest.Text
import ProviderAssets.Proofs.Success

/-!
# Reading one resource

A document is read as a value, the value as an object, and the object as a resource. Each step succeeds
exactly as `Manifest.resourceOf_eq_some_iff`, `Resource.ofValue_eq_ok_iff` and
`Resource.ofObject_eq_ok_iff` say, one after the other.
-/

namespace ProviderAssets

open Json (Object)

namespace Resource

variable {r : Resource} {o : Object}

/-- A text that is required is there. -/
theorem requiredText_eq_ok {key t : String} :
    requiredText o key = .ok t ↔ Fields.get? o key = some (.string t) := by
  unfold requiredText
  split
  case h_1 s hs => simp [hs, pure, Except.pure]
  case h_2 v hne hv =>
    exact iff_of_false nofun fun h => hne t (Option.some.inj (hv.symm.trans h))
  case h_3 hnone =>
    refine iff_of_false nofun fun h => ?_
    cases hnone.symm.trans h

/-- A resource is read from an object that has its identity in four fields, two of them in the
metadata; it is made from that identity. -/
theorem ofObject_eq_ok_iff :
    ofObject o = .ok r ↔ ∃ apiVersion kind metadata name,
      Fields.get? o "apiVersion" = some (.string apiVersion) ∧
      Fields.get? o "kind" = some (.string kind) ∧
      Json.Object.sub? o "metadata" = some metadata ∧
      Json.Object.text? metadata "name" = some name ∧
      r = ofId ⟨⟨(splitApiVersion apiVersion).1, (splitApiVersion apiVersion).2, kind⟩, name,
        (Json.Object.text? metadata "namespace").filter (!·.isEmpty)⟩ o := by
  constructor
  · intro h
    unfold ofObject at h
    obtain ⟨apiVersion, hapiVersion, h⟩ := bind_eq_ok.1 h
    obtain ⟨kind, hkind, h⟩ := bind_eq_ok.1 h
    cases hmetadata : Json.Object.sub? o "metadata" with
    | none =>
      rw [hmetadata] at h
      cases h
    | some metadata =>
      rw [hmetadata] at h
      cases hname : Json.Object.text? metadata "name" with
      | none =>
        simp only [hname] at h
        cases h
      | some name =>
        simp only [hname] at h
        cases h
        exact ⟨apiVersion, kind, metadata, name, requiredText_eq_ok.1 hapiVersion,
          requiredText_eq_ok.1 hkind, rfl, hname, rfl⟩
  · rintro ⟨apiVersion, kind, metadata, name, hapiVersion, hkind, hmetadata, hname, rfl⟩
    unfold ofObject
    simp only [requiredText_eq_ok.2 hapiVersion, requiredText_eq_ok.2 hkind, hmetadata, hname, bind,
      Except.bind, pure, Except.pure]

/-- A resource is read from a value by way of an object. -/
theorem ofValue_eq_ok_iff {v : Yaml.Value} :
    ofValue v = .ok r ↔ ∃ o, v.toObject = .ok o ∧ ofObject o = .ok r := by
  unfold ofValue
  simp only [bind_eq_ok, mapError_eq_ok]

end Resource

namespace Manifest

variable {d : Yaml.Document} {r : Resource}

/-- The resource that a value in a stream describes. -/
def resourceIn (v : Yaml.Value) : Except Error Resource :=
  (Resource.ofValue v).mapError fun m => .yaml (.mismatch m none)

/-- A document is passed over if its value is null, and otherwise its resource is that of the value. -/
theorem resourceOf_of_readDocument {v : Yaml.Value}
    (h : (Yaml.Value.decoder .anyValue).readDocument d = .ok v) :
    resourceOf d = (Option.guard (!·.isNull) v).elim (pure none) fun v => some <$> resourceIn v := by
  unfold resourceOf
  rw [h]
  show (if v.isNull = true then _ else _) = _
  cases hnull : v.isNull with
  | true => simp [Option.guard, hnull]
  | false =>
    simp only [Option.guard, hnull, Bool.not_false, if_true, Option.elim_some, Bool.false_eq_true,
      if_false]
    exact (map_eq_pure_bind some (resourceIn v)).symm

/-- A resource is read from a document by way of a value that is not null. -/
theorem resourceOf_eq_some_iff : resourceOf d = .ok (some r) ↔
    ∃ v, (Yaml.Value.decoder .anyValue).readDocument d = .ok v ∧ v.isNull = false ∧
      Resource.ofValue v = .ok r := by
  cases hv : (Yaml.Value.decoder .anyValue).readDocument d with
  | error e =>
    unfold resourceOf
    rw [hv]
    exact iff_of_false nofun nofun
  | ok v =>
    rw [resourceOf_of_readDocument hv]
    cases hnull : v.isNull with
    | true => simp [Option.guard, hnull, pure, Except.pure]
    | false => simp [Option.guard, hnull, map_eq_ok, resourceIn, mapError_eq_ok]

end Manifest

end ProviderAssets
