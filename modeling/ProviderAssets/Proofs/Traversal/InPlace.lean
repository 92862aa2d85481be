import ProviderAssets.Proofs.Traversal.Places

/-!
# Walks that change things in place

`FieldRule.update` gives a resource or fails, and then nothing is left of it. A program that changes the
resource in place leaves something in either case: what is there when it fails. `FieldRule.sweep` is the
same walk, done in place, with a function that is done in place too (`Attempt`). What it gives is what
the update gives, in whatever monad the function works (`FieldRule.update_eq_giving`).
-/

namespace ProviderAssets

open Json (Object Value)

/-! ## Things that are done in place -/

/-- What comes of something that was done in place and may have failed half-way. -/
structure Attempt (β : Type) where
  /-- What is there now. -/
  left : β
  /-- The error, if there was one. -/
  error? : Option Error

namespace Attempt

variable {m : Type → Type} [Monad m] {β γ δ : Type}

/-- The attempt where something else is there. -/
def map (g : β → γ) (a : Attempt β) : Attempt γ := ⟨g a.left, a.error?⟩

/-- What is there, unless the attempt has failed. -/
def toExcept (a : Attempt β) : Except Error β :=
  match a.error? with
  | none => .ok a.left
  | some e => .error e

/-- What is done in place, where what is there is lost if it fails. -/
def giving (x : m (Attempt β)) : ExceptT Error m β := ExceptT.mk (toExcept <$> x)

/-- One thing after another; if the first one fails, that is all, and `stopped` is what is there. -/
def andThen (x : m (Attempt β)) (stopped : β → γ) (next : β → m (Attempt γ)) : m (Attempt γ) := do
  let a ← x
  match a.error? with
  | none => next a.left
  | some e => pure ⟨stopped a.left, some e⟩

variable [LawfulMonad m] {x : m (Attempt β)} {stopped : β → γ} {next : β → m (Attempt γ)}

/-- What is there is changed, where nothing is done. -/
theorem map_done (g : β → γ) (b : β) (e : Option Error) :
    map g <$> (pure ⟨b, e⟩ : m (Attempt β)) = pure ⟨g b, e⟩ :=
  map_pure ..

/-- What is there is changed twice. -/
theorem map_map (g : β → γ) (h : γ → δ) (x : m (Attempt β)) :
    map h <$> map g <$> x = map (fun b => h (g b)) <$> x := by
  rw [← comp_map]
  rfl

/-- Nothing is changed. -/
theorem map_id (x : m (Attempt β)) : map (fun b => b) <$> x = x :=
  id_map x

/-- What is there afterwards is changed. -/
theorem map_andThen (g : γ → δ) :
    map g <$> andThen x stopped next = andThen x (fun b => g (stopped b)) fun b => map g <$> next b := by
  unfold andThen
  rw [map_bind]
  refine bind_congr fun a => ?_
  cases a.error? with
  | none => rfl
  | some e => exact map_done g _ _

/-- What is there in between is changed. -/
theorem andThen_map (g : δ → β) (x : m (Attempt δ)) :
    andThen (map g <$> x) stopped next = andThen x (fun d => stopped (g d)) fun d => next (g d) := by
  unfold andThen
  rw [bind_map_left]
  rfl

/-- Three things one after another. -/
theorem andThen_andThen (stopped' : γ → δ) (next' : γ → m (Attempt δ)) :
    andThen (andThen x stopped next) stopped' next' =
      andThen x (fun b => stopped' (stopped b)) fun b => andThen (next b) stopped' next' := by
  unfold andThen
  rw [bind_assoc]
  refine bind_congr fun a => ?_
  cases a.error? with
  | none => rfl
  | some e => rw [pure_bind]

/-- Nothing is done first. -/
theorem pure_andThen (b : β) : andThen (pure ⟨b, none⟩ : m (Attempt β)) stopped next = next b := by
  unfold andThen
  rw [pure_bind]

/-- A failure comes first. -/
theorem failed_andThen (b : β) (e : Error) :
    andThen (pure ⟨b, some e⟩ : m (Attempt β)) stopped next = pure ⟨stopped b, some e⟩ := by
  unfold andThen
  rw [pure_bind]

/-- Nothing is done afterwards but to change what is there. -/
theorem andThen_pure (g : β → γ) (x : m (Attempt β)) :
    andThen x g (fun b => pure ⟨g b, none⟩) = map g <$> x := by
  unfold andThen
  rw [map_eq_pure_bind]
  refine bind_congr fun a => ?_
  obtain ⟨b, e⟩ := a
  cases e <;> rfl

/-- What is there is given. -/
theorem giving_pure (b : β) : giving (pure ⟨b, none⟩ : m (Attempt β)) = pure b := by
  unfold giving
  rw [map_pure]
  rfl

/-- An error is given. -/
theorem giving_failed (b : β) (e : Error) : giving (pure ⟨b, some e⟩ : m (Attempt β)) = throw e := by
  unfold giving
  rw [map_pure]
  rfl

/-- What is there is changed and given. -/
theorem giving_map (g : β → γ) (x : m (Attempt β)) : giving (map g <$> x) = g <$> giving x := by
  refine ExceptT.ext ?_
  rw [ExceptT.run_map]
  show toExcept <$> map g <$> x = Except.map g <$> toExcept <$> x
  rw [← comp_map, ← comp_map]
  refine congrArg (· <$> x) (funext fun a => ?_)
  obtain ⟨b, e⟩ := a
  cases e <;> rfl

/-- What is done is given step by step. -/
theorem giving_andThen : giving (andThen x stopped next) = giving x >>= fun b => giving (next b) := by
  refine ExceptT.ext ?_
  rw [ExceptT.run_bind]
  show toExcept <$> andThen x stopped next = toExcept <$> x >>= _
  unfold andThen
  rw [map_bind, bind_map_left]
  refine bind_congr fun a => ?_
  obtain ⟨b, e⟩ := a
  cases e with
  | none => rfl
  | some e => exact map_pure ..

end Attempt

namespace FieldPath

open Attempt (andThen giving)

variable {m : Type → Type} [Monad m] {α : Type}

/-! ## The walk -/

section

variable (t : Target α) (f : α → m (Attempt α)) (fault : String → String → Error)

/-- Visits the last value of a path, in the field `name`, in place. -/
def visitInPlace (name : String) (v : Value) : m (Attempt Value) :=
  match t.ofValue? v with
  | some a => Attempt.map t.toValue <$> f a
  | none => pure ⟨v, some (fault t.description name)⟩

/-- Does something with one item after the other, in place. -/
def sweepItems (g : Value → m (Attempt Value)) : List Value → m (Attempt (List Value))
  | [] => pure ⟨[], none⟩
  | x :: xs => andThen (g x) (fun y => y :: xs) fun y => Attempt.map (y :: ·) <$> sweepItems g xs

/-- Visits the values that a path leads to from an object, in place: `f a` is what `f` leaves of `a`.
After a failure there are the values that were visited before, with what was left of them. -/
def sweepFrom : FieldPath → Object → m (Attempt Object)
  | [], o => pure ⟨o, none⟩
  | .field name :: rest, o =>
    match Fields.get? o name with
    | none => pure ⟨o, none⟩
    | some v =>
      if rest ≠ [] ∧ v = .null then pure ⟨o, none⟩
      else
        Attempt.map (Fields.insert o name) <$>
          onward rest v (visitInPlace t f fault name v)
            (fun inner => Attempt.map .object <$> sweepFrom rest inner)
            (pure ⟨v, some (fault "an object" name)⟩)
  | .items name :: rest, o =>
    match Fields.get? o name with
    | none | some .null => pure ⟨o, none⟩
    | some (.array xs) =>
      Attempt.map (fun ys => Fields.insert o name (.array ys)) <$>
        sweepItems (fun x => onward rest x (visitInPlace t f fault name x)
          (fun inner => Attempt.map .object <$> sweepFrom rest inner)
          (pure ⟨x, some (fault "a sequence of objects" name)⟩)) xs
    | some _ => pure ⟨o, some (fault "a sequence" name)⟩

end

section

variable [LawfulMonad m] {t : Target α} {f : α → m (Attempt α)} {fault : String → String → Error}
  {rest : FieldPath} {v : Value} {e : Error}

/-- An update gives what a visit in place does. -/
theorem visit_eq_giving (name : String) (v : Value) :
    visit t (fun a => giving (f a)) fault name v = giving (visitInPlace t f fault name v) := by
  unfold visit visitInPlace
  cases t.ofValue? v with
  | none => exact (Attempt.giving_failed v _).symm
  | some a => exact (Attempt.giving_map t.toValue (f a)).symm

/-- So it is for one item after the other. -/
theorem mapM_eq_giving {g : Value → ExceptT Error m Value} {h : Value → m (Attempt Value)}
    (hg : ∀ x, g x = giving (h x)) (xs : List Value) : xs.mapM g = giving (sweepItems h xs) := by
  induction xs with
  | nil => exact (Attempt.giving_pure []).symm
  | cons x xs ih =>
    unfold sweepItems
    rw [List.mapM_cons, Attempt.giving_andThen, hg]
    refine bind_congr fun y => ?_
    rw [ih, Attempt.giving_map, bind_pure_comp]

/-- So it is from an item on. -/
theorem item_eq_giving {name : String} {further : Object → m (Attempt Object)}
    (ih : ∀ inner, updateFrom t (fun a => giving (f a)) fault rest inner = giving (further inner)) :
    (if rest.isEmpty then visit t (fun a => giving (f a)) fault name v
      else match v with
        | .object inner => .object <$> updateFrom t (fun a => giving (f a)) fault rest inner
        | _ => throw e) =
      giving (onward rest v (visitInPlace t f fault name v)
        (fun inner => Attempt.map .object <$> further inner) (pure ⟨v, some e⟩)) := by
  unfold onward
  by_cases hrest : rest = []
  · subst hrest
    exact visit_eq_giving name v
  · rw [if_neg (mt List.isEmpty_iff.1 hrest), if_neg hrest]
    cases v with
    | object inner =>
      dsimp only
      rw [ih, Attempt.giving_map]
    | _ => exact (Attempt.giving_failed _ e).symm

/-- An update gives what a walk does in place. -/
theorem updateFrom_eq_giving (path : FieldPath) (o : Object) :
    updateFrom t (fun a => giving (f a)) fault path o = giving (sweepFrom t f fault path o) := by
  induction path generalizing o with
  | nil => exact (Attempt.giving_pure o).symm
  | cons seg rest ih =>
    cases seg with
    | field name =>
      unfold updateFrom sweepFrom
      cases found : Fields.get? o name with
      | none => exact (Attempt.giving_pure o).symm
      | some v =>
        dsimp only
        by_cases hskip : rest ≠ [] ∧ v = .null
        · -- Null is put back where it is.
          rw [if_pos hskip, Attempt.giving_pure]
          obtain ⟨hrest, rfl⟩ := hskip
          rw [if_neg (mt List.isEmpty_iff.1 hrest), map_pure, Fields.insert_eq_self found]
        · rw [if_neg hskip, Attempt.giving_map, ← item_eq_giving ih]
          refine congrArg (Fields.insert o name <$> ·) (ite_congr rfl (fun _ => rfl) fun hrest => ?_)
          cases v with
          | null => exact absurd ⟨mt List.isEmpty_iff.2 hrest, rfl⟩ hskip
          | _ => rfl
    | items name =>
      unfold updateFrom sweepFrom
      cases Fields.get? o name with
      | none => exact (Attempt.giving_pure o).symm
      | some v =>
        cases v with
        | null => exact (Attempt.giving_pure o).symm
        | array xs =>
          dsimp only
          rw [Attempt.giving_map]
          exact congrArg _ (mapM_eq_giving (fun x => item_eq_giving ih) xs)
        | _ => exact (Attempt.giving_failed o _).symm

end

end FieldPath

/-! ## Resources -/

namespace FieldRule

variable {m : Type → Type} [Monad m] {α : Type}

/-- The error of a rule at a stop that is no value of the type that is asked for. -/
def fault (rule : FieldRule) (r : Resource) (expected field : String) : Error :=
  .malformed r.id (.shape expected field rule.path.text)

/-- Visits the values that a rule leads to in a resource, in place. -/
def sweep (rule : FieldRule) (t : Target α) (f : α → m (Attempt α)) (r : Resource) :
    m (Attempt Resource) :=
  if rule.selector.admits r.id.gvk then
    Attempt.map (fun root => { r with root }) <$> rule.path.sweepFrom t f (rule.fault r) r.root
  else pure ⟨r, none⟩

/-- An update gives what a walk does in place. -/
theorem update_eq_giving [LawfulMonad m] (rule : FieldRule) (t : Target α) (f : α → m (Attempt α))
    (r : Resource) :
    rule.update t (fun a => Attempt.giving (f a)) r = Attempt.giving (rule.sweep t f r) := by
  unfold update sweep
  split
  · rw [Attempt.giving_map, ← FieldPath.updateFrom_eq_giving, ← bind_pure_comp]
    rfl
  · exact (Attempt.giving_pure r).symm

end FieldRule

end ProviderAssets
