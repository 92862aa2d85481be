import ProviderAssets.Relocation
import ProviderAssets.Resource.Shape
import ProviderAssets.Proofs.Rewriting
import ProviderAssets.Proofs.Views

/-!
# What a shape reads of a rewritten value

A field path and a shape are two descriptions of the same places in a resource. What a shape reads,
seen through some view of it, does not depend on a value that a path leads to if the view leaves out
what stands there: `Json.Decoder.Overlooks`. This is known of a shape when it is known of the shape
of the next field, so that it goes along a path from its end to its start. The main statements are
about the services of webhooks, of which the path to the namespace changes nothing but the namespace
(`Shape.overlooks_conversionNamespace`, `Shape.overlooks_webhookNamespace`).
-/

namespace ProviderAssets

open Json (Object Value Decoder)
open FieldPath (Rewrites Onward InItems)

namespace Json.Decoder

variable {α β γ : Type} {R : Value → Value → Prop} {d : Decoder α} {f : α → β} {seg : Segment}
  {rest : FieldPath}

/-- Seen through `f`, what is read of a value is the same for every value that `R` relates it to,
down to the mismatch where it does not have the shape. -/
def Overlooks (d : Decoder α) (f : α → β) (R : Value → Value → Prop) : Prop :=
  ∀ v w, R v w → f <$> d w = f <$> d v

/-- A coarser view overlooks what a finer one does. -/
theorem Overlooks.coarser (h : d.Overlooks f R) {f' : α → γ} (g : β → γ)
    (hg : ∀ a, g (f a) = f' a) : d.Overlooks f' R := by
  intro v w hvw
  obtain rfl : g ∘ f = f' := funext hg
  rw [comp_map, comp_map, h v w hvw]

/-- What is made of a value that is read, and then seen through `f`, is seen before it is made. -/
theorem Overlooks.of_map {g : α → γ} {f : γ → β} (h : d.Overlooks (f ∘ g) R) :
    Overlooks (fun v => g <$> d v) f R := by
  intro v w hvw
  rw [← comp_map, ← comp_map]
  exact h v w hvw

/-- A value in a field may also be null, where there is further to go. -/
theorem Overlooks.field (h : d.Overlooks f (Rewrites R rest)) (name : String) :
    d.Overlooks f (Onward (Rewrites R rest) (.field name) rest) := by
  intro v w hvw
  rcases hvw with hvw | ⟨-, rfl, rfl⟩
  · exact h v w hvw
  · rfl

/-- Values that are read one after the other may be seen one by one. -/
theorem map_mapM (f : α → β) (xs : List Value) :
    List.map f <$> xs.mapM d = xs.mapM fun x => f <$> d x := by
  induction xs with
  | nil => rfl
  | cons x xs ih =>
    rw [List.mapM_cons, List.mapM_cons, ← ih]
    simp only [map_eq_pure_bind, bind_assoc, pure_bind, List.map_cons]

/-- Items are read one after the other. -/
theorem Overlooks.items (h : d.Overlooks f (Rewrites R rest)) (name : String) :
    (Decoder.list d).Overlooks (List.map f) (Onward (Rewrites R rest) (.items name) rest) := by
  intro v w hvw
  rcases hvw with ⟨xs, ys, rfl, rfl, hall⟩ | ⟨rfl, rfl⟩
  · show List.map f <$> ys.mapM d = List.map f <$> xs.mapM d
    rw [map_mapM, map_mapM]
    induction hall with
    | nil => rfl
    | cons hxy _ ih => rw [List.mapM_cons, List.mapM_cons, h _ _ hxy, ih]
  · rfl

/-- Where a path goes on, there are objects, which are not null. -/
theorem Overlooks.option (h : d.Overlooks f (Rewrites R (seg :: rest))) :
    (Decoder.option d).Overlooks (Option.map f) (Rewrites R (seg :: rest)) := by
  intro v w hvw
  obtain ⟨o, o', rfl, rfl⟩ := FieldPath.InField.exists_object hvw
  show Option.map f <$> some <$> d (.object o') = Option.map f <$> some <$> d (.object o)
  rw [← comp_map, ← comp_map]
  show (some ∘ f) <$> d (.object o') = (some ∘ f) <$> d (.object o)
  rw [comp_map, comp_map, h _ _ hvw]

/-- A record with one field reads nothing but the value in that field. -/
theorem record1_object (type name : String) (absent : Option α) (o : Object) :
    Decoder.record1 type name d absent (.object o) =
      (Fields.get? o name).elim (required name absent) d := by
  simp only [Decoder.record1]
  cases Fields.get? o name <;> rfl

/-- A record with one field is read along a path by that field. -/
theorem Overlooks.record1 (h : d.Overlooks f (Onward (Rewrites R rest) seg rest)) (type : String)
    (absent : Option α) :
    (Decoder.record1 type seg.name d absent).Overlooks f (Rewrites R (seg :: rest)) := by
  rintro v w ⟨o, rfl, ⟨-, rfl⟩ | ⟨x, y, hx, hxy, rfl⟩⟩
  · rfl
  · rw [record1_object, record1_object, Fields.get?_insert, if_pos rfl, hx]
    exact h x y hxy

/-- A record with one field is read among other changes as it is read along a path that starts with
the field. -/
theorem Overlooks.under {type name : String} {absent : Option α} {path : FieldPath} {o o' : Object}
    (h : (Decoder.record1 type name d absent).Overlooks f (Rewrites R path))
    (hname : ∀ seg ∈ path.head?, seg.name = name) (hrew : FieldPath.RewritesUnder R path o o') :
    f <$> Decoder.record1 type name d absent (.object o') =
      f <$> Decoder.record1 type name d absent (.object o) := by
  obtain ⟨seg, rest, u, u', rfl, huu', hu, hu'⟩ := hrew
  obtain rfl : seg.name = name := hname seg rfl
  have same := h _ _ huu'
  rwa [record1_object, record1_object, ← hu', hu, ← record1_object type, ← record1_object type] at same

/-! ### Records with two fields -/

variable {d' : Decoder γ} {name name' : String}

/-- Two fields that are met, of which the second one is seen through `f`. -/
def seenSecond (f : α → β) : Option γ × Option α → Option γ × Option β := Prod.map id (Option.map f)

/-- How the fields that are read later are seen depends on those met before as they are seen. -/
theorem seenSecond_pairOfFields {found found' : Option γ × Option α}
    (h : seenSecond f found' = seenSecond f found) (o : Object) :
    seenSecond f <$> pairOfFields name' d' name d o found' =
      seenSecond f <$> pairOfFields name' d' name d o found := by
  induction o generalizing found found' with
  | nil => exact congrArg Except.ok h
  | cons e o ih =>
    obtain ⟨key, v⟩ := e
    obtain ⟨hfst, hsnd⟩ := Prod.mk.inj h
    unfold pairOfFields
    split
    · simp only [map_bind]
      refine bind_congr fun a => ih ?_
      exact Prod.ext rfl hsnd
    · split
      · simp only [map_bind]
        refine bind_congr fun a => ih ?_
        exact Prod.ext hfst rfl
      · exact ih h

/-- Another value for the second field is overlooked where it is met. -/
theorem seenSecond_pairOfFields_insert (hne : name ≠ name') {x y : Value}
    (hxy : f <$> d y = f <$> d x) {o : Object} (hx : Fields.get? o name = some x)
    (found : Option γ × Option α) :
    seenSecond f <$> pairOfFields name' d' name d (Fields.insert o name y) found =
      seenSecond f <$> pairOfFields name' d' name d o found := by
  induction o generalizing found with
  | nil => cases hx
  | cons e o ih =>
    obtain ⟨key, v⟩ := e
    rw [Fields.get?_cons] at hx
    by_cases hkey : key = name
    · rw [if_pos hkey.symm] at hx
      obtain rfl := Option.some.inj hx
      subst hkey
      rw [Fields.insert, if_pos rfl]
      unfold pairOfFields
      rw [if_neg hne, if_neg hne, if_pos rfl, if_pos rfl, map_bind, map_bind]
      refine bind_congr_of_map_eq hxy fun a b hab => seenSecond_pairOfFields ?_ o
      exact Prod.ext rfl (congrArg some hab)
    · rw [if_neg (Ne.symm hkey)] at hx
      rw [Fields.insert, if_neg hkey]
      unfold pairOfFields
      split
      · simp only [map_bind]
        exact bind_congr fun a => ih hx _
      · exact ih hx _

/-- A field that must be there is seen as what stands in it. -/
theorem map_required (f : α → β) (name : String) (a : Option α) :
    f <$> required name a = required name (a.map f) := by
  cases a <;> rfl

/-- A record with two fields is read along a path by the second one. -/
theorem Overlooks.record2 (h : d.Overlooks f (Onward (Rewrites R rest) seg rest))
    (hne : seg.name ≠ name') (type : String) (absent : Option α) :
    (Decoder.record2 type name' d' seg.name d absent).Overlooks (Prod.map id f)
      (Rewrites R (seg :: rest)) := by
  rintro v w ⟨o, rfl, ⟨-, rfl⟩ | ⟨x, y, hx, hxy, rfl⟩⟩
  · rfl
  · unfold Decoder.record2
    simp only [map_bind]
    refine bind_congr_of_map_eq
      (seenSecond_pairOfFields_insert hne (h x y hxy) hx (none, none)) fun a b hab => ?_
    obtain ⟨hfst, hsnd⟩ := Prod.mk.inj hab
    have hsecond : f <$> required seg.name (b.2 <|> absent) =
        f <$> required seg.name (a.2 <|> absent) := by
      have hor (o : Option α) : (o <|> absent).map f = (o.map f <|> absent.map f) := by
        cases o <;> rfl
      rw [map_required, map_required, hor, hor, show b.2.map f = a.2.map f from hsnd]
    rw [show b.1 = a.1 from hfst]
    refine bind_congr fun c => bind_congr_of_map_eq hsecond fun p q hpq => ?_
    exact congrArg (fun q => Except.ok (c, q)) hpq

end Json.Decoder

namespace Shape

open FieldPath (Visits)

variable (ns : String)

/-! ## Services of webhooks -/

/-- Another text is put in the place of a text. -/
abbrev Renames : Value → Value → Prop := Visits .text fun _ => pure ns

/-- The name of a service does not depend on the namespace that is given for it. -/
theorem overlooks_serviceReference :
    serviceReference.Overlooks (·.name) (Rewrites (Renames ns) [.field "namespace"]) := by
  have text : Decoder.Overlooks (.option .string) (fun _ => ())
      (Onward (Rewrites (Renames ns) []) (.field "namespace") []) := by
    rintro v w (⟨s, _, hs, hns, rfl⟩ | ⟨hne, -⟩)
    · cases hns
      rw [Json.Value.eq_string hs]
      rfl
    · exact absurd rfl hne
  have pair : Decoder.Overlooks
      (.record2 "ServiceReference" "name" .string "namespace" (.option .string) (some none))
      (Prod.map id fun _ => ()) (Rewrites (Renames ns) [.field "namespace"]) :=
    text.record2 (by decide) _ _
  exact Decoder.Overlooks.of_map (g := fun p : String × Option String => ServiceReference.mk p.1 p.2) (pair.coarser Prod.fst fun _ => rfl)

/-- Nor does what is known of the service that a webhook is called through. -/
theorem overlooks_clientConfig : clientConfig.Overlooks (·.service.map (·.name))
    (Rewrites (Renames ns) [.field "service", .field "namespace"]) := by
  have service := (overlooks_serviceReference ns).option.field "service"
  exact (service.record1 "ClientConfig" (some none)).of_map

/-- The name of the service that converts custom resources does not depend on the namespace that
is given for it. -/
theorem overlooks_conversionNamespace : customResourceDefinition.Overlooks
    (fun c => (((c.bind (·.webhook)).bind (·.clientConfig)).bind (·.service)).map (·.name))
    (Rewrites (Renames ns) Relocation.conversionNamespace) := by
  have config := (overlooks_clientConfig ns).option.field "clientConfig"
  have webhook : conversionWebhook.Overlooks (·.clientConfig.map (·.service.map (·.name)))
      (Rewrites (Renames ns) (Relocation.conversionNamespace.drop 3)) :=
    (config.record1 "WebhookConversion" (some none)).of_map
  have conversion : conversion.Overlooks
      (·.webhook.map (·.clientConfig.map (·.service.map (·.name))))
      (Rewrites (Renames ns) (Relocation.conversionNamespace.drop 2)) :=
    ((webhook.option.field "webhook").record1 "CustomResourceConversion" (some none)).of_map
  have spec := (conversion.option.field "conversion").record1 "CustomResourceDefinitionSpec"
    (some none)
  have definition := (spec.field "spec").record1 "CustomResourceDefinition" none
  -- What is seen of the parts is nested, and is flattened for what is seen of the whole.
  refine definition.coarser (fun c => ((c.bind id).bind id).bind id) ?_
  rintro (_ | ⟨_ | ⟨_ | ⟨_ | _⟩⟩⟩) <;> rfl

/-- The names of the services that webhooks are called through do not depend on the namespaces that
are given for them. -/
theorem overlooks_webhookNamespace : webhookConfiguration.Overlooks
    (fun ws => (ws.head?.bind (·.clientConfig.service)).map (·.name))
    (Rewrites (Renames ns) Relocation.webhookNamespace) := by
  have pair : Decoder.Overlooks
      (.record2 "Webhook" "name" .string "clientConfig" clientConfig none)
      (Prod.map id (·.service.map (·.name)))
      (Rewrites (Renames ns) (Relocation.webhookNamespace.drop 1)) :=
    ((overlooks_clientConfig ns).field "clientConfig").record2 (by decide) _ _
  have webhook : webhook.Overlooks (·.clientConfig.service.map (·.name))
      (Rewrites (Renames ns) (Relocation.webhookNamespace.drop 1)) :=
    Decoder.Overlooks.of_map (g := fun p : String × ClientConfig => Webhook.mk p.1 p.2)
      (pair.coarser Prod.snd fun _ => rfl)
  have list := (webhook.items "webhooks").record1 "WebhookConfiguration" (some [])
  refine list.coarser (fun names => names.head?.bind id) ?_
  rintro (_ | _) <;> rfl

end Shape

end ProviderAssets
