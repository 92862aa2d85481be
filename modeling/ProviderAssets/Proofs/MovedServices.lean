import ProviderAssets.Proofs.Failure
import ProviderAssets.Proofs.Json
import ProviderAssets.Proofs.Relocatable
import ProviderAssets.Proofs.Rereading
import ProviderAssets.Proofs.ServingCertificate.Resolution

/-!
# Webhooks after a move

A move finds the services of webhooks by paths, and the views of definitions and webhook configurations
find them by shapes. Both find the same ones: what can be viewed before a move can be viewed after it,
and it is the same but for the namespaces of services, which are the new one wherever there is any
(`Manifest.views_relocate`).

A shape tracks a relation if what it reads of related values is known from each other
(`Json.Decoder.Tracks`). As with what it overlooks, this is known of a shape when it is known of the
shape of the next field, so that it goes along a path from its end to its start. A path takes the first
field with a name and a shape the last one, so that keys have to be distinct, as they are in all maps
that are read from a file (`Json.Value.HasDistinctKeys`).
-/

namespace ProviderAssets

open Json (Object Value Decoder)
open FieldPath (Rewrites RewritesUnder Onward Visits)

namespace Json.Value

variable {o : Object} {xs : List Value} {x : Value}

/-- No object in a value has a key twice. -/
def HasDistinctKeys (v : Value) : Prop := ∃ p depth, IsRegular p depth v

/-- The keys of an object are distinct. -/
theorem HasDistinctKeys.nodup_keys (h : HasDistinctKeys (.object o)) : (Fields.keys o).Nodup := by
  obtain ⟨p, depth, h⟩ := h
  obtain ⟨-, -, hnodup, -⟩ := isRegular_object.1 h
  exact hnodup

/-- So are those in the fields of an object. -/
theorem HasDistinctKeys.of_get? (h : HasDistinctKeys (.object o)) {key : String}
    (hx : Fields.get? o key = some x) : x.HasDistinctKeys := by
  obtain ⟨p, depth, h⟩ := h
  obtain ⟨k, -, -, hfields⟩ := isRegular_object.1 h
  exact ⟨p, k, hfields.get? hx⟩

/-- A regular item is among regular items. -/
theorem RegularItems.of_mem {p : Number → Prop} {depth : Nat} (h : RegularItems p depth xs)
    (hx : x ∈ xs) : IsRegular p depth x := by
  induction xs with
  | nil => cases hx
  | cons y xs ih =>
    rcases List.mem_cons.1 hx with rfl | hx
    · exact h.1
    · exact ih h.2 hx

/-- So are those in the items of an array. -/
theorem HasDistinctKeys.of_mem (h : HasDistinctKeys (.array xs)) (hx : x ∈ xs) :
    x.HasDistinctKeys := by
  obtain ⟨p, depth, h⟩ := h
  obtain ⟨k, -, hitems⟩ := isRegular_array.1 h
  exact ⟨p, k, hitems.of_mem hx⟩

end Json.Value

namespace Json.Decoder

variable {α β : Type} {d : Decoder α} {g : α → α} {R : Value → Value → Prop} {seg : Segment}
  {rest : FieldPath}

/-- Of a value that `R` relates `v` to, `g` of what is read of `v` is read. -/
def Tracks (d : Decoder α) (g : α → α) (R : Value → Value → Prop) : Prop :=
  ∀ v w a, v.HasDistinctKeys → R v w → d v = .ok a → d w = .ok (g a)

/-- What is made of a value that is read is tracked if the value is. -/
theorem Tracks.of_map (h : d.Tracks g R) (make : α → β) {g' : β → β}
    (hmake : ∀ a, make (g a) = g' (make a)) : Tracks (fun v => make <$> d v) g' R := by
  intro v w b hv hvw hb
  obtain ⟨a, ha, rfl⟩ := map_eq_ok.1 hb
  exact map_eq_ok.2 ⟨g a, h v w a hv hvw ha, hmake a⟩

/-- A value in a field may also be null, where there is further to go. -/
theorem Tracks.field (h : d.Tracks g (Rewrites R rest)) (hnull : ∀ a, d .null = .ok a → g a = a)
    (name : String) : d.Tracks g (Onward (Rewrites R rest) (.field name) rest) := by
  rintro v w a hv (hvw | ⟨-, rfl, rfl⟩) ha
  · exact h v w a hv hvw ha
  · rw [hnull a ha]
    exact ha

/-- Items are read one after the other. -/
theorem Tracks.items (h : d.Tracks g (Rewrites R rest)) (name : String) :
    (Decoder.list d).Tracks (List.map g) (Onward (Rewrites R rest) (.items name) rest) := by
  rintro v w as hv (⟨xs, ys, rfl, rfl, hall⟩ | ⟨rfl, rfl⟩) has
  · have hread : List.Forall₂ (fun x a => d x = .ok a) xs as := mapM_eq_ok_iff.1 has
    refine mapM_eq_ok_iff.2 (List.forall₂_map_right_iff.2 ?_)
    have hxs (x : Value) (hx : x ∈ xs) : x.HasDistinctKeys := hv.of_mem hx
    clear has hv
    induction hall generalizing as with
    | nil =>
      cases hread
      exact .nil
    | cons hxy _ ih =>
      obtain ⟨hx, hxs⟩ := List.forall_mem_cons.1 hxs
      obtain ⟨a, as, ha, has, rfl⟩ := List.forall₂_cons_left_iff.1 hread
      exact .cons (h _ _ a hx hxy ha) (ih as has hxs)
  · cases has

/-- Where a path goes on, there are objects, which are not null. -/
theorem Tracks.option (h : d.Tracks g (Rewrites R (seg :: rest))) :
    (Decoder.option d).Tracks (Option.map g) (Rewrites R (seg :: rest)) := by
  intro v w a hv hvw ha
  obtain ⟨o, o', rfl, rfl⟩ := FieldPath.InField.exists_object hvw
  obtain ⟨b, hb, rfl⟩ := map_eq_ok.1 (show some <$> d (.object o) = .ok a from ha)
  exact map_eq_ok.2 ⟨g b, h _ _ b hv hvw hb, rfl⟩

/-- Null is read as nothing. -/
theorem map_option_null (g : α → α) : ∀ a, Decoder.option d .null = .ok a → a.map g = a := by
  intro a ha
  cases ha
  rfl

/-- A field that must be there is read as what stands in it. -/
theorem required_eq_ok {name : String} {field : Option α} {a : α} :
    required name field = .ok a ↔ field = some a := by
  cases field with
  | none => exact ⟨nofun, nofun⟩
  | some b => exact ⟨fun h => congrArg some (Except.ok.inj h), fun h => congrArg Except.ok (Option.some.inj h)⟩

/-! ### Records -/

variable {name name' : String} {absent : Option α}

/-- A record with one field is tracked along a path by that field. -/
theorem Tracks.record1 (h : d.Tracks g (Onward (Rewrites R rest) seg rest)) (type : String)
    (habsent : ∀ a, absent = some a → g a = a) :
    (Decoder.record1 type seg.name d absent).Tracks g (Rewrites R (seg :: rest)) := by
  rintro v w a hv ⟨o, rfl, ⟨hnone, rfl⟩ | ⟨x, y, hx, hxy, rfl⟩⟩ ha
  · rw [habsent a ?_]
    · exact ha
    · rw [record1_object, hnone] at ha
      exact required_eq_ok.1 ha
  · rw [record1_object, hx] at ha
    rw [record1_object, Fields.get?_insert, if_pos rfl]
    exact h x y a (hv.of_get? hx) hxy ha

/-- What is read of a field that may be missing, where `before` is what there is without it. -/
def FieldReads (d : Decoder α) (before : Option α) (field : Option Value) (after : Option α) : Prop :=
  match field with
  | none => after = before
  | some x => ∃ a, d x = .ok a ∧ after = some a

/-- Of an object with distinct keys, a record with two fields reads the values in these. -/
theorem pairOfFields_eq_ok {d' : Decoder β} (hne : name ≠ name') {o : Object}
    (hnodup : (Fields.keys o).Nodup) {found found' : Option β × Option α} :
    pairOfFields name' d' name d o found = .ok found' ↔
      FieldReads d' found.1 (Fields.get? o name') found'.1 ∧
        FieldReads d found.2 (Fields.get? o name) found'.2 := by
  induction o generalizing found with
  | nil =>
    show Except.ok found = Except.ok found' ↔ found'.1 = found.1 ∧ found'.2 = found.2
    rw [Except.ok.injEq, eq_comm, Prod.ext_iff]
  | cons e o ih =>
    obtain ⟨key, v⟩ := e
    obtain ⟨hkey, hnodup⟩ := List.nodup_cons.1 hnodup
    have hmissing : Fields.get? o key = none := Fields.get?_eq_none hkey
    unfold pairOfFields
    rw [Fields.get?_cons, Fields.get?_cons]
    by_cases hfirst : key = name'
    · subst hfirst
      rw [if_pos rfl, if_pos rfl, if_neg hne, bind_eq_ok]
      constructor
      · rintro ⟨b, hb, h⟩
        obtain ⟨hthis, hother⟩ := (ih hnodup).1 h
        rw [hmissing] at hthis
        exact ⟨⟨b, hb, hthis⟩, hother⟩
      · rintro ⟨⟨b, hb, hthis⟩, hother⟩
        exact ⟨b, hb, (ih hnodup).2 ⟨hmissing ▸ hthis, hother⟩⟩
    by_cases hsecond : key = name
    · subst hsecond
      rw [if_neg hfirst, if_pos rfl, if_neg (Ne.symm hfirst), if_pos rfl, bind_eq_ok]
      constructor
      · rintro ⟨a, ha, h⟩
        obtain ⟨hother, hthis⟩ := (ih hnodup).1 h
        rw [hmissing] at hthis
        exact ⟨hother, a, ha, hthis⟩
      · rintro ⟨hother, a, ha, hthis⟩
        exact ⟨a, ha, (ih hnodup).2 ⟨hother, hmissing ▸ hthis⟩⟩
    · rw [if_neg hfirst, if_neg hsecond, if_neg (Ne.symm hfirst), if_neg (Ne.symm hsecond)]
      exact ih hnodup

/-- What a missing field stands for may be put in after the fields are read. -/
theorem exists_fieldReads_iff {field : Option Value} {a : α} :
    (∃ found, FieldReads d none field found ∧ (found <|> absent) = some a) ↔
      FieldReads d absent field (some a) := by
  cases field with
  | none =>
    constructor
    · rintro ⟨_, rfl, h⟩
      exact h.symm
    · exact fun h => ⟨none, rfl, h.symm⟩
  | some x =>
    constructor
    · rintro ⟨_, ⟨b, hb, rfl⟩, h⟩
      exact ⟨b, hb, h.symm⟩
    · rintro ⟨b, hb, h⟩
      exact ⟨some b, ⟨b, hb, rfl⟩, h.symm⟩

/-- A record with two fields is read of an object with distinct keys exactly if both are. -/
theorem record2_object {d' : Decoder β} (hne : name ≠ name') {o : Object}
    (hnodup : (Fields.keys o).Nodup) (type : String) {a : α} {b : β} :
    Decoder.record2 type name' d' name d absent (.object o) = .ok (b, a) ↔
      FieldReads d' none (Fields.get? o name') (some b) ∧
        FieldReads d absent (Fields.get? o name) (some a) := by
  have hrecord : Decoder.record2 type name' d' name d absent (.object o) =
      pairOfFields name' d' name d o (none, none) >>= fun found =>
        required name' found.1 >>= fun b =>
          required name (found.2 <|> absent) >>= fun a => .ok (b, a) := rfl
  rw [hrecord, bind_eq_ok]
  constructor
  · rintro ⟨found, hread, h⟩
    obtain ⟨hother, hthis⟩ := (pairOfFields_eq_ok hne hnodup).1 hread
    obtain ⟨b', hb, h⟩ := bind_eq_ok.1 h
    obtain ⟨a', ha, h⟩ := bind_eq_ok.1 h
    cases h
    rw [required_eq_ok.1 hb] at hother
    exact ⟨hother, exists_fieldReads_iff.1 ⟨found.2, hthis, required_eq_ok.1 ha⟩⟩
  · rintro ⟨hother, hthis⟩
    obtain ⟨found, hthis, ha⟩ := exists_fieldReads_iff.2 hthis
    refine ⟨(some b, found), (pairOfFields_eq_ok hne hnodup).2 ⟨hother, hthis⟩, ?_⟩
    exact bind_eq_ok.2 ⟨b, rfl, bind_eq_ok.2 ⟨a, required_eq_ok.2 ha, rfl⟩⟩

/-- A record with two fields is tracked along a path by the second one. -/
theorem Tracks.record2 {d' : Decoder β} (h : d.Tracks g (Onward (Rewrites R rest) seg rest))
    (hne : seg.name ≠ name') (type : String) (habsent : ∀ a, absent = some a → g a = a) :
    (Decoder.record2 type name' d' seg.name d absent).Tracks (Prod.map id g)
      (Rewrites R (seg :: rest)) := by
  rintro v w ⟨b, a⟩ hv ⟨o, rfl, ⟨hnone, rfl⟩ | ⟨x, y, hx, hxy, rfl⟩⟩ ha
  · have hread := (record2_object hne hv.nodup_keys type).1 ha
    rw [hnone] at hread
    rw [ha, Prod.map_apply, habsent a hread.2.symm]
    rfl
  · have hnodup := Fields.nodup_keys_insert hv.nodup_keys seg.name y
    obtain ⟨hother, hthis⟩ := (record2_object hne hv.nodup_keys type).1 ha
    rw [hx] at hthis
    obtain ⟨_, ha, heq⟩ := hthis
    cases heq
    refine (record2_object hne hnodup type).2 ⟨?_, ?_⟩
    · rwa [Fields.get?_insert, if_neg (Ne.symm hne)]
    · rw [Fields.get?_insert, if_pos rfl]
      exact ⟨_, h x y a (hv.of_get? hx) hxy ha, rfl⟩

/-- A record with one field is read among other changes as it is by that field. -/
theorem Tracks.under (h : d.Tracks g (Onward (Rewrites R rest) seg rest)) (type : String)
    (habsent : ∀ a, absent = some a → g a = a) {o o' : Object}
    (hrew : RewritesUnder R (seg :: rest) o o') (hkeys : (Value.object o).HasDistinctKeys) {a : α}
    (ha : Decoder.record1 type seg.name d absent (.object o) = .ok a) :
    Decoder.record1 type seg.name d absent (.object o') = .ok (g a) := by
  obtain ⟨seg', rest', u, u', heq, hrew, hu, hu'⟩ := hrew
  obtain ⟨rfl, rfl⟩ := List.cons.inj heq
  rw [record1_object, ← hu] at ha
  rw [record1_object, hu']
  obtain ⟨_, hsome, ⟨hnone, hsame⟩ | ⟨x, y, hx, hxy, hsame⟩⟩ := hrew <;> cases hsome
  · cases hsame
    rw [hnone] at ha ⊢
    rw [habsent a (required_eq_ok.1 ha)]
    exact ha
  · cases hsame
    rw [hx] at ha
    rw [Fields.get?_insert, if_pos rfl]
    exact h x y a (hkeys.of_get? (hu ▸ hx)) hxy ha

end Json.Decoder

/-! ## Views with another namespace -/

variable (ns : String)

/-- A reference to a service in a namespace, where any is given. -/
def ServiceReference.inNamespace (s : ServiceReference) : ServiceReference :=
  { s with ns := s.ns.map fun _ => ns }

/-- The same call to a service in a namespace. -/
def ClientConfig.inNamespace (c : ClientConfig) : ClientConfig :=
  ⟨c.service.map (·.inNamespace ns)⟩

/-- The same webhook with its service in a namespace. -/
def Webhook.inNamespace (w : Webhook) : Webhook :=
  { w with clientConfig := w.clientConfig.inNamespace ns }

/-- The same webhook for conversions with its service in a namespace. -/
def ConversionWebhook.inNamespace (w : ConversionWebhook) : ConversionWebhook :=
  ⟨w.clientConfig.map (·.inNamespace ns)⟩

/-- The same conversion with its service in a namespace. -/
def Conversion.inNamespace (c : Conversion) : Conversion := ⟨c.webhook.map (·.inNamespace ns)⟩

namespace Shape

/-- What is missing has no namespace. -/
theorem map_eq_self_of_none {α : Type} (g : α → α) :
    ∀ a, some (none : Option α) = some a → a.map g = a := by
  rintro _ ⟨⟩
  rfl

/-- The namespace of a service is the new one. -/
theorem tracks_serviceReference : serviceReference.Tracks (·.inNamespace ns)
    (Rewrites (Renames ns) [.field "namespace"]) := by
  have text : Decoder.Tracks (.option .string) (Option.map fun _ => ns)
      (Onward (Rewrites (Renames ns) []) (.field "namespace") []) := by
    rintro v w a - (⟨s, _, hs, hns, rfl⟩ | ⟨hne, -⟩) ha
    · cases hns
      rw [Json.Value.eq_string hs] at ha
      cases ha
      rfl
    · exact absurd rfl hne
  have pair : Decoder.Tracks
      (.record2 "ServiceReference" "name" .string "namespace" (.option .string) (some none))
      (Prod.map id (Option.map fun _ => ns)) (Rewrites (Renames ns) [.field "namespace"]) :=
    text.record2 (by decide) _ (map_eq_self_of_none _)
  exact pair.of_map (fun p : String × Option String => ServiceReference.mk p.1 p.2) fun _ => rfl

/-- So is that of the service that a webhook is called through. -/
theorem tracks_clientConfig : clientConfig.Tracks (·.inNamespace ns)
    (Rewrites (Renames ns) [.field "service", .field "namespace"]) := by
  have service := (tracks_serviceReference ns).option.field (Decoder.map_option_null _) "service"
  exact (service.record1 "ClientConfig" (map_eq_self_of_none _)).of_map ClientConfig.mk fun _ => rfl

/-- So are those of the services of webhooks. -/
theorem tracks_webhook : webhook.Tracks (·.inNamespace ns)
    (Rewrites (Renames ns) (Relocation.webhookNamespace.drop 1)) := by
  have config := (tracks_clientConfig ns).field nofun "clientConfig"
  have pair : Decoder.Tracks
      (.record2 "Webhook" "name" .string "clientConfig" clientConfig none)
      (Prod.map id (·.inNamespace ns))
      (Rewrites (Renames ns) (Relocation.webhookNamespace.drop 1)) :=
    config.record2 (by decide) _ nofun
  exact pair.of_map (fun p : String × ClientConfig => Webhook.mk p.1 p.2) fun _ => rfl

/-- So is that of the service that converts custom resources. -/
theorem tracks_conversion : conversion.Tracks (·.inNamespace ns)
    (Rewrites (Renames ns) (Relocation.conversionNamespace.drop 2)) := by
  have config := (tracks_clientConfig ns).option.field (Decoder.map_option_null _) "clientConfig"
  have webhook : conversionWebhook.Tracks (·.inNamespace ns)
      (Rewrites (Renames ns) (Relocation.conversionNamespace.drop 3)) :=
    (config.record1 "WebhookConversion" (map_eq_self_of_none _)).of_map ConversionWebhook.mk
      fun _ => rfl
  have field := webhook.option.field (Decoder.map_option_null _) "webhook"
  exact (field.record1 "CustomResourceConversion" (map_eq_self_of_none _)).of_map Conversion.mk
    fun _ => rfl

end Shape

/-! ## Moved resources -/

namespace Relocation

variable {ns} {r s : Resource}

/-- Definitions and webhook configurations belong to no namespace, so a move leaves their identity. -/
theorem id_move_of_acceptsInjection (h : move ns r = .ok s) (hk : r.kind.acceptsInjection = true) :
    s.id = r.id := by
  have hnot : isNamespaced r = false := by
    unfold isNamespaced
    generalize r.kind = kind at hk
    cases kind <;> first | rfl | cases hk
  rw [id_move h, movedId, hnot]
  rfl

/-- The conversion of a definition can be viewed after a move, with its service in the new namespace. -/
theorem decode_conversion_move (h : move ns r = .ok s) (hk : r.kind = .customResourceDefinition)
    (hkeys : (Value.object r.root).HasDistinctKeys) {c : Option Conversion}
    (hc : r.decode Shape.customResourceDefinition = .ok c) :
    s.decode Shape.customResourceDefinition = .ok (c.map (·.inNamespace ns)) := by
  have conversion := (Shape.tracks_conversion ns).option.field (Decoder.map_option_null _) "conversion"
  have spec := (conversion.record1 "CustomResourceDefinitionSpec"
    (Shape.map_eq_self_of_none _)).field nofun "spec"
  have hread : Shape.customResourceDefinition (.object r.root) = .ok c := mapError_eq_ok.1 hc
  exact mapError_eq_ok.2 (spec.under "CustomResourceDefinition" (by rintro _ ⟨⟩)
    (rewrites_conversion h hk) hkeys hread)

/-- The webhooks of a webhook configuration can be viewed after a move, with their services in the new
namespace. -/
theorem decode_webhooks_move (h : move ns r = .ok s) (hk : r.kind = .mutatingWebhookConfiguration ∨
      r.kind = .validatingWebhookConfiguration) (hkeys : (Value.object r.root).HasDistinctKeys)
    {ws : List Webhook} (hws : r.decode Shape.webhookConfiguration = .ok ws) :
    s.decode Shape.webhookConfiguration = .ok (ws.map (·.inNamespace ns)) := by
  have items := (Shape.tracks_webhook ns).items "webhooks"
  have habsent : ∀ ws : List Webhook, some [] = some ws → ws.map (·.inNamespace ns) = ws := by
    rintro _ ⟨⟩
    rfl
  have hread : Shape.webhookConfiguration (.object r.root) = .ok ws := mapError_eq_ok.1 hws
  exact mapError_eq_ok.2 (items.under "WebhookConfiguration" habsent (rewrites_webhooks h hk) hkeys
    hread)

/-- A resource that keeps its identity is seen as before if its shape is. -/
theorem map_decode_congr {α β : Type} {d : Decoder α} {f : α → β} (hid : s.id = r.id)
    (h : f <$> d (.object s.root) = f <$> d (.object r.root)) :
    f <$> s.decode d = f <$> r.decode d := by
  have hmap (r : Resource) :
      f <$> r.decode d = (f <$> d (.object r.root)).mapError (.decode r.id) := by
    unfold Resource.decode
    cases d (.object r.root) <;> rfl
  rw [hmap, hmap, h, hid]

/-- The service that a resource is called through is the same after a move. -/
theorem injectionService_move_eq (h : move ns r = .ok s) (hk : r.kind.acceptsInjection = true) :
    s.injectionService = r.injectionService := by
  have hid := id_move_of_acceptsInjection h hk
  have hkind : s.kind = r.kind := Resource.kind_congr (congrArg _ hid)
  have hseen : s.serviceSeen = r.serviceSeen := by
    unfold Resource.serviceSeen
    rw [hid]
  by_cases hcrd : r.kind = .customResourceDefinition
  · rw [Resource.injectionService_conversion hcrd,
      Resource.injectionService_conversion (hkind.trans hcrd), hseen]
    refine congrArg (· >>= r.serviceSeen) (map_decode_congr hid ?_)
    exact (Shape.overlooks_conversionNamespace ns).under (by decide) (rewrites_conversion h hcrd)
  · have hwebhooks : r.kind = .mutatingWebhookConfiguration ∨
        r.kind = .validatingWebhookConfiguration := by
      generalize r.kind = kind at hk hcrd
      cases kind <;> simp_all [Kind.acceptsInjection]
    rw [Resource.injectionService_webhooks hwebhooks,
      Resource.injectionService_webhooks (hkind ▸ hwebhooks), hseen]
    refine congrArg (· >>= r.serviceSeen) (map_decode_congr hid ?_)
    exact (Shape.overlooks_webhookNamespace ns).under (by decide) (rewrites_webhooks h hwebhooks)

end Relocation

namespace Manifest

variable {m n : Manifest} {r : Resource} {ns}

/-- In a manifest that is read from a text, no object has a key twice. -/
theorem hasDistinctKeys_ofText {text : String} (h : ofText text = .ok m) (hr : r ∈ m.resources) :
    (Value.object r.root).HasDistinctKeys := by
  obtain ⟨made, hmade, hresources, -⟩ := collect_eq_ok h
  rw [hresources] at hr
  obtain ⟨y, hy, rfl⟩ := List.mem_filterMap.1 hr
  obtain ⟨d, -, hd⟩ := exists_of_mem_right hmade hy
  obtain ⟨o, ho, hregular⟩ := exists_of_resourceOf hd
  obtain ⟨hkeys, -, -, hfields⟩ := ho.isRegular hregular
  exact ⟨_, 128, (List.nodup_cons.1 (List.nodup_cons.1 hkeys).2).2, hfields⟩

/-- Definitions and webhook configurations are viewed after a move as before. They stay what and where
they are. If the conversion or the webhooks can be viewed before the move, then they can be afterwards:
they are the same ones in the same order, under the same names and with services of the same names, of
which those that give a namespace give the new one. The service that a resource is called through is the
same, and if there is none, that is for the same reason. -/
theorem views_relocate (h : m.relocate ns = .ok n) {i : Nat} (hr : m.resources[i]? = some r)
    (hkind : r.kind = .customResourceDefinition ∨ r.kind = .mutatingWebhookConfiguration ∨
      r.kind = .validatingWebhookConfiguration) (hkeys : (Value.object r.root).HasDistinctKeys) :
    ∃ s, n.resources[i]? = some s ∧ s.id = r.id ∧
      (r.kind = .customResourceDefinition →
        ∀ c, r.decode Shape.customResourceDefinition = .ok c →
          s.decode Shape.customResourceDefinition = .ok (c.map (·.inNamespace ns))) ∧
      (r.kind ≠ .customResourceDefinition →
        ∀ ws, r.decode Shape.webhookConfiguration = .ok ws →
          s.decode Shape.webhookConfiguration = .ok (ws.map (·.inNamespace ns))) ∧
      s.injectionService = r.injectionService := by
  have haccepts : r.kind.acceptsInjection = true := by
    rcases hkind with hk | hk | hk <;> rw [hk] <;> rfl
  obtain ⟨hmoved, -⟩ := relocate_eq_ok h
  obtain ⟨s, hs, hrs⟩ := exists_getElem?_right hmoved hr
  refine ⟨s, hs, Relocation.id_move_of_acceptsInjection hrs haccepts, ?_, ?_,
    Relocation.injectionService_move_eq hrs haccepts⟩
  · exact fun hk c hc => Relocation.decode_conversion_move hrs hk hkeys hc
  · exact fun hne ws hws =>
      Relocation.decode_webhooks_move hrs (hkind.resolve_left hne) hkeys hws

/-- A webhook configuration with one service that gives a namespace and one that does not. -/
def twoWebhooks : String :=
  "apiVersion: admissionregistration.k8s.io/v1\nkind: ValidatingWebhookConfiguration\n" ++
    "metadata:\n  name: validation\nwebhooks:\n" ++
    "- name: a\n  clientConfig:\n    service:\n      name: s\n      namespace: old\n" ++
    "- name: b\n  clientConfig:\n    service:\n      name: t\n"

/-- The first service is in the new namespace after a move, and the second one still gives none. -/
theorem views_relocate_twoWebhooks : ∃ m n s, ofText twoWebhooks = .ok m ∧
    m.relocate "new" = .ok n ∧ n.resources[0]? = some s ∧
    s.decode Shape.webhookConfiguration =
      .ok [⟨"a", ⟨some ⟨"s", some "new"⟩⟩⟩, ⟨"b", ⟨some ⟨"t", none⟩⟩⟩] ∧
    s.injectionService = .ok "s" := by
  have hrun : (do
      let m ← ofText twoWebhooks
      let _ ← m.relocate "new"
      return m.resources[0]?.map fun (r : Resource) =>
        (r.kind, (r.decode Shape.webhookConfiguration).toOption, r.injectionService.toOption)) =
      .ok (some (.validatingWebhookConfiguration,
        some [⟨"a", ⟨some ⟨"s", some "old"⟩⟩⟩, ⟨"b", ⟨some ⟨"t", none⟩⟩⟩], some "s")) :=
    eq_ok_of_toOption (by decide +kernel)
  obtain ⟨m, hm, hrun⟩ := bind_eq_ok.1 hrun
  obtain ⟨n, hn, hview⟩ := bind_eq_ok.1 hrun
  have hview := Except.ok.inj hview
  obtain ⟨r, hr, hview⟩ := Option.map_eq_some_iff.1 hview
  obtain ⟨hk, hview⟩ := Prod.mk.inj hview
  obtain ⟨hws, hservice⟩ := Prod.mk.inj hview
  obtain ⟨s, hs, -, -, hwebhooks, hinjection⟩ := views_relocate hn hr (.inr (.inr hk))
    (hasDistinctKeys_ofText hm (List.mem_of_getElem? hr))
  refine ⟨m, n, s, hm, hn, hs, ?_, hinjection.trans (eq_ok_of_toOption hservice)⟩
  exact hwebhooks (hk ▸ nofun) _ (eq_ok_of_toOption hws)

end Manifest

end ProviderAssets
