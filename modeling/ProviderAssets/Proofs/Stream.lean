import ProviderAssets.Proofs.Reading
import ProviderAssets.Proofs.Repetition

/-!
# Streams of documents

A manifest is read from a stream of documents. Where every document can be read as a value, the values
decide what becomes of the stream (`Manifest.ofText_eq_collect`), and they do so one after the other:
nulls are passed over, and the rest is read until one of them describes no resource, or one whose
identity was there before. `Manifest.ofText_of_loads` is the main statement.
-/

namespace ProviderAssets

namespace Yaml

/-- The documents of a text can be read as values, and these are the values. -/
def Loads (text : String) (vs : List Value) : Prop :=
  List.Forall₂ (fun d v => (Value.decoder .anyValue).readDocument d = .ok v) (documents text) vs

/-- There are such values exactly if the text is well-formed. -/
theorem exists_loads_iff {text : String} :
    (∃ vs, Loads text vs) ↔ isWellFormed (documents text) = true := by
  unfold Loads isWellFormed
  rw [exists_forall₂_iff, List.all_eq_true]
  refine forall₂_congr fun d _ => ?_
  cases (Value.decoder .anyValue).readDocument d <;> simp

/-- Where all documents are, the values are that many. -/
theorem Loads.length_eq {text : String} {vs : List Value} (h : Loads text vs) :
    vs.length = (documents text).length := (List.Forall₂.length_eq h).symm

end Yaml

namespace Manifest

variable {text : String} {vs : List Yaml.Value} {m : Manifest} {e : Error}

/-- The values that are not null. -/
def present (vs : List Yaml.Value) : List Yaml.Value := vs.filter (!·.isNull)

/-- The manifest of a stream is made of the values that are not null. -/
theorem ofText_eq_collect (h : Yaml.Loads text vs) :
    ofText text = collect (fun v => some <$> resourceIn v) (present vs) := by
  have hpresent : present vs = vs.filterMap (Option.guard (!·.isNull)) := by
    rw [List.filterMap_eq_filter, present]
  rw [ofText, ofDocuments, hpresent, ← collect_filterMap]
  exact collect_congr h fun d v hd => resourceOf_of_readDocument hd

/-- A stream of documents that can all be read as values is read as a manifest exactly if every value
but the nulls describes a resource, and no two of these have the same identity. The manifest holds
exactly these resources, in order and each under its identity. Otherwise the error is that of the first
value that describes no resource, or one with the identity of a resource before it, which the error
names. -/
theorem ofText_of_loads (h : Yaml.Loads text vs) :
    ((∃ m, ofText text = .ok m) ↔
      ∃ rs, List.Forall₂ (fun v r => Resource.ofValue v = .ok r) (present vs) rs ∧
        (rs.map (·.id)).Nodup) ∧
    (∀ m, ofText text = .ok m ↔
      List.Forall₂ (fun v r => Resource.ofValue v = .ok r) (present vs) m.resources ∧ m.IsKeyed) ∧
    ∀ e, ofText text = .error e ↔
      ∃ before v after rs, present vs = before ++ v :: after ∧
        List.Forall₂ (fun v r => Resource.ofValue v = .ok r) before rs ∧ (rs.map (·.id)).Nodup ∧
        ((∃ mismatch, Resource.ofValue v = .error mismatch ∧ e = .yaml (.mismatch mismatch none)) ∨
          ∃ r, Resource.ofValue v = .ok r ∧ r.id ∈ rs.map (·.id) ∧ e = .conflict r.id) := by
  have made {v : Yaml.Value} {r : Resource} : resourceIn v = .ok r ↔ Resource.ofValue v = .ok r :=
    mapError_eq_ok
  have failed {v : Yaml.Value} {e : Error} : resourceIn v = .error e ↔
      ∃ mismatch, Resource.ofValue v = .error mismatch ∧ e = .yaml (.mismatch mismatch none) :=
    mapError_eq_error
  rw [ofText_eq_collect h]
  simp only [← made, ← failed]
  exact ⟨exists_collect_some_iff, fun m => collect_some_eq_ok_iff, fun e => collect_some_eq_error_iff⟩

/-- Two namespaces, with documents before, between and after them that are null. -/
def withNulls : String :=
  "---\n---\napiVersion: v1\nkind: Namespace\nmetadata:\n  name: a\n---\n~\n---\n" ++
    "apiVersion: v1\nkind: Namespace\nmetadata:\n  name: b\n---\n"

/-- A namespace that is given twice, in other words, and a document that is no resource. -/
def twiceGiven : String :=
  "apiVersion: v1\nkind: Namespace\nmetadata:\n  name: a\n---\n" ++
    "kind: Namespace\napiVersion: v1\nmetadata:\n  namespace: ''\n  name: a\n---\nno resource\n"

/-- The first stream is read as two namespaces, the second one is not read because of a conflict. -/
theorem ofText_of_loads_namespaces :
    (∃ vs m, Yaml.Loads withNulls vs ∧ vs.length = 5 ∧ ofText withNulls = .ok m ∧ m.size = 2 ∧
      List.Forall₂ (fun v r => Resource.ofValue v = .ok r) (present vs) m.resources) ∧
    ∃ vs before v after rs r, Yaml.Loads twiceGiven vs ∧ present vs = before ++ v :: after ∧
      List.Forall₂ (fun v r => Resource.ofValue v = .ok r) before rs ∧
      Resource.ofValue v = .ok r ∧ r.id ∈ rs.map (·.id) ∧
      ofText twiceGiven = .error (.conflict r.id) := by
  constructor
  · obtain ⟨vs, hvs⟩ := Yaml.exists_loads_iff.2
      (show Yaml.isWellFormed (Yaml.documents withNulls) = true by decide +kernel)
    have hlength : (Yaml.documents withNulls).length = 5 := by decide +kernel
    obtain ⟨m, hm, hsize⟩ := exists_ok_of_toOption (x := ofText withNulls) (f := size) (b := 2)
      (by decide +kernel)
    obtain ⟨hmade, -⟩ := ((ofText_of_loads hvs).2.1 m).1 hm
    exact ⟨vs, m, hvs, hvs.length_eq.trans hlength, hm, hsize, hmade⟩
  · obtain ⟨vs, hvs⟩ := Yaml.exists_loads_iff.2
      (show Yaml.isWellFormed (Yaml.documents twiceGiven) = true by decide +kernel)
    have hname : (match ofText twiceGiven with
        | .error (.conflict id) => id.name
        | _ => "") = "a" := by decide +kernel
    split at hname
    case h_2 => exact absurd hname (by decide)
    case h_1 id hid =>
      obtain ⟨before, v, after, rs, hsplit, hmade, -, hv⟩ := ((ofText_of_loads hvs).2.2 _).1 hid
      rcases hv with ⟨mismatch, -, he⟩ | ⟨r, hr, hmem, he⟩
      · cases he
      · rw [he] at hid
        exact ⟨vs, before, v, after, rs, r, hvs, hsplit, hmade, hr, hmem, hid⟩

end Manifest

end ProviderAssets
