import ProviderAssets.Proofs.Traversal.InPlace

/-!
# What a walk calls

`FieldRule.update_visits` says what a rule does with a resource: its function is called on the values
that the path leads to, in the order of the document and each one once, up to the first place that cannot
be passed or where the function fails. The resource that is left has what was left of these values in
their places, and is the same otherwise.

The proof follows the walk and the list of stops along the path at once. What a walk leaves is kept with
its address (`FieldPath.callAt`), so that what is left in the items of an array can be put together from
what is left in each of them (`FieldPath.sweepItems_eq`).
-/

namespace ProviderAssets

open Json (Object Value)

open Attempt (andThen giving)

namespace FieldPath

variable {m : Type → Type} [Monad m] {α : Type}

/-! ## Calls -/

section

variable (f : α → m (Attempt α)) (fault : String → String → Error)

/-- Calls `f` on one value after the other, up to the first stop that is none or that `f` fails at. What
is there afterwards is what was left of the values, in their order. -/
def call : List (Stop α) → m (Attempt (List α))
  | [] => pure ⟨[], none⟩
  | .fault expected field :: _ => pure ⟨[], some (fault expected field)⟩
  | .value a :: stops => andThen (f a) (fun b => [b]) fun b => Attempt.map (b :: ·) <$> call stops

/-- The same, where everything that was left is at the address of its value. -/
def callAt : List (List Nat × Stop α) → m (Attempt (List (List Nat × α)))
  | [] => pure ⟨[], none⟩
  | (_, .fault expected field) :: _ => pure ⟨[], some (fault expected field)⟩
  | (is, .value a) :: stops =>
    andThen (f a) (fun b => [(is, b)]) fun b => Attempt.map ((is, b) :: ·) <$> callAt stops

end

/-- The address of a stop at a value. -/
def visit? : List Nat × Stop α → Option (List Nat)
  | (is, .value _) => some is
  | (_, .fault ..) => none

/-- The addresses of the values among some stops. -/
def visits (stops : List (List Nat × Stop α)) : List (List Nat) := stops.filterMap visit?

section

variable [LawfulMonad m] {t : Target α} {f : α → m (Attempt α)} {fault : String → String → Error}
  {path rest : FieldPath} {o : Object} {v x : Value} {xs : List Value}

/-- What was left belongs to the first addresses. -/
theorem callAt_eq (stops : List (List Nat × Stop α)) : callAt f fault stops =
    Attempt.map (fun bs => (visits stops).zip bs) <$> call f fault (stops.map (·.2)) := by
  induction stops with
  | nil =>
    rw [callAt, List.map_nil, call, Attempt.map_done]
    rfl
  | cons stop stops ih =>
    obtain ⟨is, s⟩ := stop
    cases s with
    | fault expected field =>
      rw [callAt, List.map_cons, call, Attempt.map_done, List.zip_nil_right]
    | value a =>
      have hvisits : visits ((is, .value a) :: stops) = is :: visits stops := rfl
      unfold callAt
      rw [ih, hvisits, List.map_cons, call, Attempt.map_andThen]
      simp only [Attempt.map_map, List.zip_cons_cons, List.zip_nil_right]

/-- Calls at some stops and then at others. -/
theorem callAt_append (first second : List (List Nat × Stop α)) : callAt f fault (first ++ second) =
    andThen (callAt f fault first) (fun calls => calls)
      fun calls => Attempt.map (calls ++ ·) <$> callAt f fault second := by
  induction first with
  | nil =>
    unfold callAt
    rw [Attempt.pure_andThen]
    exact (Attempt.map_id _).symm
  | cons stop first ih =>
    obtain ⟨is, s⟩ := stop
    cases s with
    | fault expected field =>
      rw [List.cons_append, callAt, callAt, Attempt.failed_andThen]
    | value a =>
      rw [List.cons_append, callAt, callAt, ih, Attempt.andThen_andThen]
      simp only [Attempt.map_andThen, Attempt.andThen_map, Attempt.map_map, List.cons_append]

/-- Calls at stops with other addresses. -/
theorem callAt_map (g : List Nat → List Nat) (stops : List (List Nat × Stop α)) :
    callAt f fault (stops.map (Prod.map g id)) =
      Attempt.map (List.map (Prod.map g id)) <$> callAt f fault stops := by
  induction stops with
  | nil => rw [List.map_nil, callAt, Attempt.map_done, List.map_nil]
  | cons stop stops ih =>
    obtain ⟨is, s⟩ := stop
    cases s with
    | fault expected field =>
      rw [List.map_cons, Prod.map_apply, id_eq, callAt, callAt, Attempt.map_done, List.map_nil]
    | value a =>
      rw [List.map_cons, Prod.map_apply, id_eq, callAt, callAt, ih, Attempt.map_andThen]
      simp only [Attempt.map_map, List.map_cons, Prod.map_apply, id_eq, List.map_nil]

/-! ## What the calls of a walk leave -/

/-- What is left at addresses that start with an index is left in the item with that index. -/
theorem leftAt_cons (calls : List (List Nat × α)) (k i : Nat) (is : List Nat) (x : Value) :
    leftAt t (calls.map (Prod.map (k :: ·) id)) (i :: is) x =
      if i = k then leftAt t calls is x else x := by
  induction calls generalizing x with
  | nil => exact (ite_self x).symm
  | cons call calls ih =>
    show leftAt t (calls.map (Prod.map (k :: ·) id)) (i :: is)
      (if k :: call.1 = i :: is then t.toValue call.2 else x) = _
    rw [ih]
    by_cases hk : i = k
    · subst hk
      simp [leftAt]
    · simp [hk, Ne.symm hk]

/-- What is left of the items of an array. -/
def leaveItems (t : Target α) (rest : FieldPath) (calls : List (List Nat × α)) (xs : List Value) :
    List Value :=
  xs.mapIdx fun i => mapEndsAt rest fun is => leftAt t calls (i :: is)

/-- Nothing is left where there is nothing to leave. -/
theorem leaveItems_nil : leaveItems t rest [] xs = xs :=
  mapIdx_eq_self fun _ _ x =>
    mapEndsAt_eq_self (fun _ _ => rfl) (fun _ => mapEnds_eq_self fun _ _ => rfl) x

/-- It is left one after the other. -/
theorem leaveItems_append (first second : List (List Nat × α)) :
    leaveItems t rest (first ++ second) xs = leaveItems t rest second (leaveItems t rest first xs) := by
  unfold leaveItems
  rw [List.mapIdx_mapIdx]
  refine congrArg (List.mapIdx · xs) (funext fun i => funext fun x => ?_)
  rw [show (fun is => leftAt t (first ++ second) (i :: is)) = _ from
    funext fun is => leftAt_append (i :: is)]
  exact (mapEndsAt_mapEndsAt (fun inner => mapEnds_mapEnds ..) x).symm

/-- What is left in one item changes no other one. -/
theorem leaveItems_map_cons (calls : List (List Nat × α)) (before after : List Value) :
    leaveItems t rest (calls.map (Prod.map (before.length :: ·) id)) (before ++ x :: after) =
      before ++ mapEndsAt rest (leftAt t calls) x :: after := by
  have other (i : Nat) (hi : i ≠ before.length) (y : Value) : mapEndsAt rest (fun is =>
      leftAt t (calls.map (Prod.map (before.length :: ·) id)) (i :: is)) y = y := by
    refine mapEndsAt_eq_self (fun is z => ?_) (fun inner => mapEnds_eq_self fun is z => ?_) y
    · rw [leftAt_cons, if_neg hi]
    · rw [leftAt_cons, if_neg hi]
  have same : (fun is => leftAt t (calls.map (Prod.map (before.length :: ·) id))
      (before.length :: is)) = leftAt t calls := by
    funext is y
    rw [leftAt_cons, if_pos rfl]
  unfold leaveItems
  rw [List.mapIdx_append, List.mapIdx_cons, Nat.zero_add, same,
    mapIdx_eq_self fun i hi => other i (by omega),
    mapIdx_eq_self fun i _ => other (i + 1 + before.length) (by omega)]

/-- If a walk calls and leaves things in each item, it does so in all of them. -/
theorem sweepItems_eq {g : Value → m (Attempt Value)} {stopsAt : Value → List (List Nat × Stop α)}
    (hg : ∀ x, g x = Attempt.map (fun calls => mapEndsAt rest (leftAt t calls) x) <$>
      callAt f fault (stopsAt x)) (before xs : List Value) :
    Attempt.map (before ++ ·) <$> sweepItems g xs =
      Attempt.map (fun calls => leaveItems t rest calls (before ++ xs)) <$>
        callAt f fault (ofItems stopsAt before.length xs) := by
  -- The induction is on the items that are still to come; those before them are done.
  induction xs generalizing before with
  | nil =>
    have hitems : ofItems stopsAt before.length [] = [] := rfl
    rw [hitems, sweepItems, callAt, Attempt.map_done, Attempt.map_done, leaveItems_nil]
  | cons x xs ih =>
    have hitems : ofItems stopsAt before.length (x :: xs) =
        (stopsAt x).map (Prod.map (before.length :: ·) id) ++
          ofItems stopsAt (before.length + 1) xs := rfl
    have hnext (y : Value) : Attempt.map (fun ys => before ++ y :: ys) <$> sweepItems g xs =
        Attempt.map (fun calls => leaveItems t rest calls (before ++ y :: xs)) <$>
          callAt f fault (ofItems stopsAt (before.length + 1) xs) := by
      have h := ih (before ++ [y])
      simpa only [List.append_assoc, List.singleton_append, List.length_append,
        List.length_singleton] using h
    rw [hitems, callAt_append, callAt_map, sweepItems, hg]
    simp only [Attempt.map_andThen, Attempt.andThen_map, Attempt.map_map, hnext, leaveItems_append,
      leaveItems_map_cons]

/-- A visit calls the function on a value of the type that is asked for, and leaves what is left of it. -/
theorem visitInPlace_eq (name : String) (v : Value) : visitInPlace t f fault name v =
    Attempt.map (fun calls => leftAt t calls [] v) <$> callAt f fault [([], t.stop name v)] := by
  unfold visitInPlace Target.stop
  cases t.ofValue? v with
  | none =>
    rw [callAt, Attempt.map_done]
    rfl
  | some a =>
    simp only [callAt, Attempt.map_andThen, Attempt.map_done]
    exact (Attempt.andThen_pure t.toValue (f a)).symm

/-- From a value on, a walk calls and leaves things where it does so from the object that it may be. -/
theorem onward_eq {further : Object → m (Attempt Object)}
    (ih : ∀ inner, further inner =
      Attempt.map (fun calls => leave t rest calls inner) <$> callAt f fault (stops t rest inner))
    (expected name : String) (v : Value) :
    onward rest v (visitInPlace t f fault name v) (fun inner => Attempt.map .object <$> further inner)
        (pure ⟨v, some (fault expected name)⟩) =
      Attempt.map (fun calls => mapEndsAt rest (leftAt t calls) v) <$>
        callAt f fault
          (onward rest v [([], t.stop name v)] (stops t rest) [([], .fault expected name)]) := by
  by_cases hrest : rest = []
  · subst hrest
    simp only [mapEndsAt, onward_nil]
    exact visitInPlace_eq name v
  · cases hv : v.object? with
    | none =>
      simp only [mapEndsAt, onward_blocked hrest hv]
      rw [callAt, Attempt.map_done]
    | some inner =>
      rw [Value.eq_object hv]
      simp only [mapEndsAt, onward_object hrest, ih, Attempt.map_map]
      rfl

/-- A walk calls the function on the values that the path leads to, one after the other, up to the first
stop that is none, and leaves what is left of them at their addresses. -/
theorem sweepFrom_eq (path : FieldPath) (o : Object) : sweepFrom t f fault path o =
    Attempt.map (fun calls => leave t path calls o) <$> callAt f fault (stops t path o) := by
  induction path generalizing o with
  | nil => rw [sweepFrom, stops, callAt, Attempt.map_done, leave_nil]
  | cons seg rest ih =>
    have nothing : (pure ⟨o, none⟩ : m (Attempt Object)) =
        Attempt.map (fun calls => leave t (seg :: rest) calls o) <$> callAt f fault [] := by
      rw [callAt, Attempt.map_done, leave_nil]
    cases seg with
    | field name =>
      unfold sweepFrom stops
      cases found : Fields.get? o name with
      | none => exact nothing
      | some v =>
        dsimp only
        by_cases hskip : rest ≠ [] ∧ v = .null
        · rw [if_pos hskip, if_pos hskip]
          exact nothing
        · rw [if_neg hskip, if_neg hskip, onward_eq ih, Attempt.map_map]
          refine congrArg (Attempt.map · <$> _) (funext fun calls => ?_)
          exact (Fields.modify_of_found found).symm
    | items name =>
      unfold sweepFrom stops
      cases found : Fields.get? o name with
      | none => exact nothing
      | some v =>
        cases v with
        | null => exact nothing
        | array xs =>
          dsimp only
          have hitems := sweepItems_eq (onward_eq ih "a sequence of objects" name) [] xs
          simp only [List.nil_append, Attempt.map_id] at hitems
          rw [hitems, Attempt.map_map]
          refine congrArg (Attempt.map · <$> _) (funext fun calls => ?_)
          rw [leave, mapEnds_items, Fields.modify_of_found found]
          rfl
        | _ =>
          dsimp only
          rw [callAt, Attempt.map_done, leave_nil]

end

/-- The object where the first values that a path leads to are replaced, one after the other. -/
def refill (t : Target α) (path : FieldPath) (bs : List α) (o : Object) : Object :=
  leave t path ((visits (stops t path o)).zip bs) o

/-- The addresses of values are those where the path leads to one. -/
theorem mem_visits_iff {t : Target α} {path : FieldPath} {o : Object} {is : List Nat} :
    is ∈ visits (stops t path o) ↔ ∃ a, Meets t path o is (.value a) := by
  unfold visits
  rw [List.mem_filterMap]
  constructor
  · rintro ⟨⟨js, s⟩, hmem, hvisit⟩
    cases s with
    | fault expected field => cases hvisit
    | value a =>
      obtain rfl := Option.some.inj hvisit
      exact ⟨a, mem_stops_iff.1 hmem⟩
  · rintro ⟨a, ha⟩
    exact ⟨(is, .value a), mem_stops_iff.2 ha, rfl⟩

/-- The addresses of values are in order. -/
theorem pairwise_visits {t : Target α} {path : FieldPath} {o : Object} :
    (visits (stops t path o)).Pairwise (· < ·) := by
  refine pairwise_stops.filterMap visit? fun first second hlt is his js hjs => ?_
  have address {stop : List Nat × Stop α} {is : List Nat} (h : visit? stop = some is) :
      stop.1 = is := by
    obtain ⟨js, s⟩ := stop
    cases s with
    | fault expected field => cases h
    | value a => exact Option.some.inj h
  rw [← address his, ← address hjs]
  exact hlt

/-- The first values are replaced, and nothing else. -/
theorem leaves_refill (t : Target α) (path : FieldPath) (bs : List α) (o : Object) :
    Leaves t path ((visits (stops t path o)).zip bs) o (refill t path bs o) := by
  refine leaves_leave ?_ fun call hcall => mem_visits_iff.1 (List.of_mem_zip hcall).1
  have hsub : (((visits (stops t path o)).zip bs).map (·.1)).Sublist (visits (stops t path o)) := by
    rw [List.zip_eq_zip_take_min, List.map_fst_zip (by simp)]
    exact List.take_sublist _ _
  have hnodup : (visits (stops t path o)).Nodup := by
    refine pairwise_visits.imp fun {is js} hlt => ?_
    rintro rfl
    exact List.lt_irrefl is hlt
  exact hnodup.sublist hsub

end FieldPath

namespace FieldRule

open FieldPath (Meets Leaves stops visits call refill)

variable {m : Type → Type} [Monad m] {α : Type}

/-- What a rule does with a resource, with a function `f` that works in any monad. An update gives what
is done in place. A rule that does not admit the resource calls nothing and leaves the resource. One that
does calls `f` at the stops of its path, which are all that the rules of `FieldPath.Meets` tell and come
in the order of their addresses, up to the first one that is an error of the rule or where `f` fails,
whose error it is then. What `f` has left is in the places of the values that it was called on, and
everything else stays. -/
theorem update_visits [LawfulMonad m] (rule : FieldRule) (t : Target α) (f : α → m (Attempt α))
    (r : Resource) :
    rule.update t (fun a => giving (f a)) r = giving (rule.sweep t f r) ∧
    rule.sweep t f r =
      (if rule.selector.admits r.id.gvk then
        Attempt.map (fun bs => { r with root := refill t rule.path bs r.root }) <$>
          call f (rule.fault r) ((stops t rule.path r.root).map (·.2))
      else pure ⟨r, none⟩) ∧
    (∀ is s, (is, s) ∈ stops t rule.path r.root ↔ Meets t rule.path r.root is s) ∧
    ((stops t rule.path r.root).map (·.1)).Pairwise (· < ·) ∧
    ∀ bs : List α, Leaves t rule.path ((visits (stops t rule.path r.root)).zip bs) r.root
      (refill t rule.path bs r.root) := by
  refine ⟨update_eq_giving rule t f r, ?_, fun is s => FieldPath.mem_stops_iff,
    List.pairwise_map.2 FieldPath.pairwise_stops, fun bs => FieldPath.leaves_refill ..⟩
  unfold sweep
  refine ite_congr rfl (fun _ => ?_) fun _ => rfl
  calc Attempt.map (fun root => { r with root }) <$>
        rule.path.sweepFrom t f (rule.fault r) r.root
    _ = Attempt.map (fun calls => { r with root := rule.path.leave t calls r.root }) <$>
        FieldPath.callAt f (rule.fault r) (stops t rule.path r.root) := by
      rw [FieldPath.sweepFrom_eq, Attempt.map_map]
    _ = Attempt.map (fun bs => { r with root := refill t rule.path bs r.root }) <$>
        call f (rule.fault r) ((stops t rule.path r.root).map (·.2)) := by
      rw [FieldPath.callAt_eq, Attempt.map_map]
      rfl

/-- Webhooks: a service is named for the first one, an address for the second one, and the third one is
no object. -/
def webhooks : Resource where
  id := ⟨⟨"admissionregistration.k8s.io", "v1", "MutatingWebhookConfiguration"⟩, "capi", none⟩
  root := [("webhooks", .array [
    .object [("clientConfig", .object [("service", .object [("namespace", .string "capi-system")])])],
    .object [("clientConfig", .object [("url", .string "https://example.com")])],
    .string "c"])]

/-- Moves a namespace, and writes down what it was. -/
def moveSeen (ns : String) : StateM (List String) (Attempt String) :=
  fun seen => (⟨"openshift-cluster-api", none⟩, seen ++ [ns])

/-- The namespace of the first webhook is moved before the third one is found not to be an object. -/
theorem sweep_webhooks :
    (ofKind "MutatingWebhookConfiguration" Relocation.webhookNamespace).sweep .text moveSeen webhooks [] =
      (⟨{ webhooks with root := [("webhooks", .array [
          .object [("clientConfig", .object [("service", .object
            [("namespace", .string "openshift-cluster-api")])])],
          .object [("clientConfig", .object [("url", .string "https://example.com")])],
          .string "c"])] },
        some ((ofKind "MutatingWebhookConfiguration" Relocation.webhookNamespace).fault webhooks
          "a sequence of objects" "webhooks")⟩, ["capi-system"]) := by
  obtain ⟨-, hsweep, -⟩ := update_visits
    (ofKind "MutatingWebhookConfiguration" Relocation.webhookNamespace) .text moveSeen webhooks
  rw [hsweep, if_pos (by decide)]
  rfl

end FieldRule

end ProviderAssets
