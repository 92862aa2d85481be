import ProviderAssets.Image
import ProviderAssets.Proofs.Catalog
import ProviderAssets.Proofs.LastEntry
import ProviderAssets.Proofs.Shape

/-!
# The images of a manifest

The images of a manifest are read deployment by deployment, and container by container, into one
table. All containers may be read first (`Manifest.images_eq`), so the table is one over a single list:
its keys are in the order in which they first come, and at each one there is the image of the last
container with that key (`Image.IsTable`). Nothing but the containers of deployments has an influence
on it; `Resource.PreparedOtherwise` relates deployments that have the same ones. The main statement is
`Manifest.images_spec`.
-/

namespace ProviderAssets

open Json (Object Value Decoder)

/-- The value at a key is the same where maps differ in other keys only. -/
theorem Fields.SameBut.get?_eq {α : Type} {names : List String} {f g : Fields α}
    (h : SameBut names f g) {key : String} (hkey : key ∉ names) : get? g key = get? f key := by
  have hfilter (f : Fields α) : get? (f.filter (·.1 ∉ names)) key = get? f key := by
    induction f with
    | nil => rfl
    | cons e f ih =>
      obtain ⟨k, v⟩ := e
      by_cases hk : k ∈ names
      · have hne : key ≠ k := fun he => hkey (he ▸ hk)
        rw [List.filter_cons_of_neg (by simpa using hk), get?_cons, if_neg hne, ih]
      · rw [List.filter_cons_of_pos (by simpa using hk), get?_cons, get?_cons, ih]
  rw [← hfilter g, h, hfilter f]

/-! ## Records that differ in one place -/

namespace Json.Decoder

variable {α β : Type} {d : Decoder α} {f : α → β} {R : Value → Value → Prop} {name : String}

/-- Two values are the same apart from what one field of a record holds, where `R` relates them. The
record is an object, or an array of the values of its fields with this one in the first place. -/
inductive InRecord (name : String) (R : Value → Value → Prop) : Value → Value → Prop
  /-- Nothing differs. -/
  | same (v : Value) : InRecord name R v v
  /-- The field of the object differs, if anything does. -/
  | field {o o' : Object} {x y : Value} (others : Fields.SameBut [name] o o')
      (hx : Fields.get? o name = some x) (hy : Fields.get? o' name = some y) (hxy : R x y) :
      InRecord name R (.object o) (.object o')
  /-- The first value of the array differs, if anything does. -/
  | item {x y : Value} {more : List Value} (hxy : R x y) :
      InRecord name R (.array (x :: more)) (.array (y :: more))

/-- A record with one field overlooks what the shape of the field does. -/
theorem Overlooks.inRecord (h : d.Overlooks f R) (type : String) (absent : Option α) :
    (Decoder.record1 type name d absent).Overlooks f (InRecord name R) := by
  intro v w hvw
  cases hvw with
  | same => rfl
  | field _ hx hy hxy =>
    rw [record1_object, record1_object, hx, hy]
    exact h _ _ hxy
  | @item x y more hxy =>
    cases more with
    | nil => exact h x y hxy
    | cons z more =>
      -- There are too many values in any case, which is found after the first one is read.
      have hseen (e : Except Mismatch α) : discard e = (fun _ => ()) <$> f <$> e := by
        cases e <;> rfl
      have hread : discard (d y) = discard (d x) := by
        rw [hseen, hseen, h x y hxy]
      show f <$> (discard (d y) >>= _) = f <$> (discard (d x) >>= _)
      rw [hread]

/-- The shape of a pod overlooks the containers that prepare it, as any field that it does not name. -/
theorem overlooks_sameBut {names : List String} (hname : name ∉ names) (type : String)
    (absent : Option α) :
    (Decoder.record1 type name d absent).Overlooks id fun v w =>
      ∃ o o', v = .object o ∧ w = .object o' ∧ Fields.SameBut names o o' := by
  rintro _ _ ⟨o, o', rfl, rfl, hsame⟩
  rw [record1_object, record1_object, hsame.get?_eq hname]

end Json.Decoder

/-! ## Deployments -/

namespace Resource

open Json.Decoder (InRecord)

variable {r s : Resource}

/-- Two deployments are the same apart from the containers that prepare their pods. -/
structure PreparedOtherwise (r s : Resource) : Prop where
  /-- They have the same identity. -/
  id : s.id = r.id
  /-- They differ in a field of the pod only. -/
  root : InRecord "spec" (InRecord "template" (InRecord "spec" fun v w =>
    ∃ o o', v = .object o ∧ w = .object o' ∧ Fields.SameBut ["initContainers"] o o'))
    (.object r.root) (.object s.root)

/-- The containers of a deployment are read without those that prepare it. -/
theorem PreparedOtherwise.decode_eq (h : PreparedOtherwise r s) :
    s.decode Shape.deployment = r.decode Shape.deployment := by
  have hpod := Json.Decoder.overlooks_sameBut (d := .list Shape.container)
    (show "containers" ∉ ["initContainers"] by decide) "PodSpec" (some [])
  have hroot := ((hpod.inRecord "PodTemplateSpec" none).inRecord "DeploymentSpec" none).inRecord
    "Deployment" none _ _ h.root
  rw [id_map, id_map] at hroot
  rw [decode, decode, h.id]
  exact congrArg _ hroot

end Resource

/-! ## The table of images -/

namespace Image

variable {p : Provider} {containers : List Container} {images images' : Fields String}

/-- The key and the image of a container. -/
def entry (p : Provider) (c : Container) : String × String := (key p c.image, c.image)

/-- The key of a container is that of its image. -/
@[simp] theorem fst_entry (p : Provider) (c : Container) : (entry p c).1 = key p c.image := by
  simp only [entry]

/-- The image at the key is the container's. -/
@[simp] theorem snd_entry (p : Provider) (c : Container) : (entry p c).2 = c.image := by
  simp only [entry]

/-- The table of the images of some containers: the keys in the order in which they first come, each
one once, and at a key the image of the last container that has it. -/
structure IsTable (p : Provider) (containers : List Container) (images : Fields String) : Prop where
  /-- No key comes twice. -/
  nodup : (Fields.keys images).Nodup
  /-- The keys come in the order of the first containers that have them. -/
  keys : Fields.keys images = (containers.map fun c => key p c.image).eraseDups
  /-- The last container that has a key counts. -/
  holds : ∀ k image, Fields.get? images k = some image ↔
    ∃ c, IsLast (fun c => key p c.image = k) containers c ∧ c.image = image

/-- There is one table of the images of some containers. -/
theorem IsTable.unique (h : IsTable p containers images) (h' : IsTable p containers images') :
    images = images' := by
  refine Fields.ext_of_nodup (h.keys.trans h'.keys.symm) h'.nodup fun k => ?_
  refine Option.ext fun image => ?_
  rw [h.holds, h'.holds]

/-- Writing the images of containers one after the other makes their table. -/
theorem isTable_insertAll (p : Provider) (containers : List Container) :
    IsTable p containers (Fields.insertAll [] (containers.map (entry p))) := by
  refine ⟨?_, ?_, fun k image => ?_⟩
  · have hkeyed : AreKeyed p [] := ⟨List.nodup_nil, nofun⟩
    have hall := (hkeyed.insertAll (containers.map (·.image))).nodup
    rwa [List.map_map] at hall
  · rw [Fields.keys_insertAll, Fields.keys, List.map_map]
    exact congrArg List.eraseDups (List.map_congr_left fun c _ => fst_entry p c)
  · rw [Fields.get?_insertAll_map (entry p)]
    simp only [fst_entry, snd_entry]

-- The first container gives the key its place, and the last one its image.
example : Fields.insertAll [] ([⟨"a", "x/m:1"⟩, ⟨"b", "kube-rbac-proxy"⟩, ⟨"c", "n@sha256:2"⟩].map
      (entry ⟨"metal3", .infrastructure, "v1"⟩)) =
    [("infrastructure-metal3:manager", "n@sha256:2"), ("kube-rbac-proxy", "kube-rbac-proxy")] := by
  decide +kernel

end Image

namespace Manifest

variable {p : Provider} {m n : Manifest} {images : Fields String} {e : Error}

/-- The deployments of a manifest, in their order. -/
def deployments (m : Manifest) : List Resource := m.resources.filter (·.kind = .deployment)

/-- The containers of all deployments may be read before their images are written into the table. -/
theorem images_eq (p : Provider) (m : Manifest) :
    m.images p = (fun css => Fields.insertAll [] (css.flatten.map (Image.entry p))) <$>
      m.deployments.mapM (·.decode Shape.deployment) := by
  have hflatten (css : List (List Container)) :
      css.foldl (fun images cs => Fields.insertAll images (cs.map (Image.entry p))) [] =
        Fields.insertAll [] (css.flatten.map (Image.entry p)) := by
    rw [Fields.insertAll, List.foldl_map, List.foldl_flatten]
    refine congrFun (congrFun (congrArg _ ?_) _) _
    funext images cs
    rw [Fields.insertAll, List.foldl_map]
  rw [← funext hflatten]
  exact foldlM_ite m.resources []

/-- There are images exactly if the containers of all deployments can be read, and then they are in
the table of these. -/
theorem images_eq_ok : m.images p = .ok images ↔ ∃ css,
    List.Forall₂ (fun r cs => r.decode Shape.deployment = .ok cs) m.deployments css ∧
      Image.IsTable p css.flatten images := by
  rw [images_eq, map_eq_ok]
  constructor
  · rintro ⟨css, hcss, rfl⟩
    exact ⟨css, mapM_eq_ok_iff.1 hcss, Image.isTable_insertAll p css.flatten⟩
  · rintro ⟨css, hcss, htable⟩
    exact ⟨css, mapM_eq_ok_iff.2 hcss, (Image.isTable_insertAll p css.flatten).unique htable⟩

/-- There are no images as the containers of the first deployment of which they cannot be read. -/
theorem images_eq_error : m.images p = .error e ↔ ∃ before r after mismatch,
    m.deployments = before ++ r :: after ∧
    (∀ s ∈ before, ∃ cs, s.decode Shape.deployment = .ok cs) ∧
    Shape.deployment (.object r.root) = .error mismatch ∧ e = .decode r.id mismatch := by
  rw [images_eq, map_eq_error, mapM_eq_error_iff]
  simp only [Resource.decode, mapError_eq_error, exists_and_left]

/-- Other resources and the containers that prepare deployments have no influence on the images. -/
theorem images_congr (p : Provider)
    (h : List.Forall₂ Resource.PreparedOtherwise m.deployments n.deployments) :
    n.images p = m.images p := by
  rw [images_eq, images_eq, mapM_congr h fun r s hrs => hrs.decode_eq.symm]

/-- What the images of a manifest are. There are some exactly if the containers of all deployments can
be read, and otherwise the first deployment of which they cannot be is at fault. They are the table of
the containers of all deployments, in the order of the manifest. Nothing else has an influence on them:
they are the same for every manifest whose deployments correspond to those of this one, and differ from
them at most in the containers that prepare their pods. -/
theorem images_spec (p : Provider) (m : Manifest) :
    ((∃ images, m.images p = .ok images) ↔
      ∀ r ∈ m.deployments, ∃ cs, r.decode Shape.deployment = .ok cs) ∧
    (∀ e, m.images p = .error e ↔ ∃ before r after mismatch,
      m.deployments = before ++ r :: after ∧
      (∀ s ∈ before, ∃ cs, s.decode Shape.deployment = .ok cs) ∧
      Shape.deployment (.object r.root) = .error mismatch ∧ e = .decode r.id mismatch) ∧
    (∀ images, m.images p = .ok images ↔ ∃ css,
      List.Forall₂ (fun r cs => r.decode Shape.deployment = .ok cs) m.deployments css ∧
        Image.IsTable p css.flatten images) ∧
    ∀ n : Manifest, List.Forall₂ Resource.PreparedOtherwise m.deployments n.deployments →
      n.images p = m.images p := by
  refine ⟨?_, fun _ => images_eq_error, fun _ => images_eq_ok, fun _ => images_congr p⟩
  rw [← exists_forall₂_iff]
  simp only [images_eq, map_eq_ok, mapM_eq_ok_iff]
  exact ⟨fun ⟨_, css, hcss, _⟩ => ⟨css, hcss⟩, fun ⟨css, hcss⟩ => ⟨_, css, hcss, rfl⟩⟩

/-- A deployment of one container. The containers `preparing` prepare its pods. -/
def managerAfter (preparing : List Value) : Resource where
  id := ⟨⟨"apps", "v1", "Deployment"⟩, "manager", none⟩
  root := [("spec", .object [("template", .object [("spec", .object [
    ("initContainers", .array preparing),
    ("containers", .array [
      .object [("name", .string "manager"), ("image", .string "x/m:1")]])])])])]

/-- The manifest of that deployment alone. -/
def oneDeployment (preparing : List Value) : Manifest where
  entries := [((managerAfter preparing).id, managerAfter preparing)]
  distinct := by simp

/-- The image of its container is in the table. That of a container which prepares its pods is not. -/
theorem images_oneDeployment :
    (oneDeployment []).images ⟨"metal3", .infrastructure, "v1"⟩ =
      .ok [("infrastructure-metal3:manager", "x/m:1")] ∧
    (oneDeployment [.object [("image", .string "busybox")]]).images
      ⟨"metal3", .infrastructure, "v1"⟩ = .ok [("infrastructure-metal3:manager", "x/m:1")] := by
  obtain ⟨-, -, -, overlooked⟩ := images_spec ⟨"metal3", .infrastructure, "v1"⟩ (oneDeployment [])
  have halone : (oneDeployment []).images ⟨"metal3", .infrastructure, "v1"⟩ =
      .ok [("infrastructure-metal3:manager", "x/m:1")] := eq_ok_of_toOption (by decide +kernel)
  refine ⟨halone, (overlooked _ ?_).trans halone⟩
  -- The pods differ in the field that is overlooked, and what is around them is the same.
  refine .cons ⟨rfl, .field rfl rfl rfl (.field rfl rfl rfl (.field rfl rfl rfl ?_))⟩ .nil
  exact ⟨_, _, rfl, rfl, rfl⟩

end Manifest

end ProviderAssets
