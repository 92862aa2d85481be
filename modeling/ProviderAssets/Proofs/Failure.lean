import ProviderAssets.Proofs.Success

/-!
# Computations that fail

What the failure of a computation says about its parts. A sequence fails as its first part does, or as
its second part does on what the first one gives. Going over a list, with or without something that is
carried along, fails at the first element at which it does, when all elements before have been gone
over with success (`forM_eq_error`, `foldlM_eq_error`). The main instance is again `Manifest.collect`:
it fails at the first element of which no resource can be made, or one with the identity of a resource
before it (`Manifest.collect_eq_error_iff`).
-/

namespace ProviderAssets

section

variable {ε α β γ : Type} {xs : List α} {e : ε}

/-- A failure is that of the first part, or of what follows what the first part gives. -/
theorem bind_eq_error {x : Except ε α} {f : α → Except ε β} :
    x >>= f = .error e ↔ x = .error e ∨ ∃ a, x = .ok a ∧ f a = .error e := by
  cases x <;> simp [bind, Except.bind]

/-- A failure before a change at the end is one after it. -/
theorem map_eq_error {x : Except ε α} {f : α → β} : f <$> x = .error e ↔ x = .error e := by
  cases x <;> simp [Functor.map, Except.map]

/-- A failure in other words is one in its own. -/
theorem mapError_eq_error {ε' : Type} {x : Except ε α} {f : ε → ε'} {e' : ε'} :
    x.mapError f = .error e' ↔ ∃ e, x = .error e ∧ e' = f e := by
  cases x <;> simp [Except.mapError, eq_comm]

/-- What follows a computation is the same if it is where that succeeds. -/
theorem bind_congr_of_ok {x : Except ε α} {f g : α → Except ε β} (h : ∀ a, x = .ok a → f a = g a) :
    x >>= f = x >>= g := by
  cases x with
  | error e => rfl
  | ok a => exact h a rfl

/-- Going over a list succeeds exactly if it does on every element. -/
theorem forM_eq_ok {f : α → Except ε Unit} {u : Unit} :
    forM xs f = .ok u ↔ ∀ x ∈ xs, f x = .ok () := by
  induction xs with
  | nil => exact ⟨fun _ => nofun, fun _ => rfl⟩
  | cons x xs ih =>
    rw [List.forM_cons, bind_eq_ok, List.forall_mem_cons, ← ih]
    exact ⟨fun ⟨_, h⟩ => h, fun h => ⟨(), h⟩⟩

/-- Going over a list fails as it does on the first element on which it fails. -/
theorem forM_eq_error {f : α → Except ε Unit} : forM xs f = .error e ↔
    ∃ before x after, xs = before ++ x :: after ∧ (∀ y ∈ before, f y = .ok ()) ∧ f x = .error e := by
  induction xs with
  | nil =>
    refine ⟨nofun, ?_⟩
    rintro ⟨before, x, after, h, -⟩
    exact absurd h (by simp)
  | cons x xs ih =>
    rw [List.forM_cons, bind_eq_error]
    constructor
    · rintro (hx | ⟨⟨⟩, hx, hxs⟩)
      · exact ⟨[], x, xs, rfl, nofun, hx⟩
      · obtain ⟨before, y, after, rfl, hbefore, hy⟩ := ih.1 hxs
        exact ⟨x :: before, y, after, rfl, List.forall_mem_cons.2 ⟨hx, hbefore⟩, hy⟩
    · rintro ⟨_ | ⟨z, before⟩, y, after, h, hbefore, hy⟩
      · obtain ⟨rfl, -⟩ := List.cons.inj h
        exact .inl hy
      · obtain ⟨rfl, rfl⟩ := List.cons.inj h
        obtain ⟨hx, hbefore⟩ := List.forall_mem_cons.1 hbefore
        exact .inr ⟨(), hx, ih.2 ⟨before, y, after, rfl, hbefore, hy⟩⟩

/-- Going over a list is the same as going over one that it corresponds to, if it is on elements that do. -/
theorem forM_congr {R : α → β → Prop} {ys : List β} {f : α → Except ε Unit} {g : β → Except ε Unit}
    (h : List.Forall₂ R xs ys) (hfg : ∀ x ∈ xs, ∀ y, R x y → f x = g y) : forM xs f = forM ys g := by
  induction h with
  | nil => rfl
  | cons hxy _ ih =>
    obtain ⟨hx, hxs⟩ := List.forall_mem_cons.1 hfg
    rw [List.forM_cons, List.forM_cons, hx _ hxy, ih hxs]

/-- What is made of each element of a list is made exactly if it can be of every one. -/
theorem mapM_eq_ok_iff {f : α → Except ε β} {ys : List β} :
    xs.mapM f = .ok ys ↔ List.Forall₂ (fun x y => f x = .ok y) xs ys := by
  induction xs generalizing ys with
  | nil =>
    rw [List.forall₂_nil_left_iff]
    exact ⟨fun h => (Except.ok.inj h).symm, congrArg Except.ok ∘ Eq.symm⟩
  | cons x xs ih =>
    rw [List.mapM_cons, bind_eq_ok, List.forall₂_cons_left_iff]
    constructor
    · rintro ⟨y, hy, h⟩
      obtain ⟨ys', hys, h⟩ := bind_eq_ok.1 h
      exact ⟨y, ys', hy, ih.1 hys, (Except.ok.inj h).symm⟩
    · rintro ⟨y, ys', hy, hys, rfl⟩
      exact ⟨y, hy, bind_eq_ok.2 ⟨ys', ih.2 hys, rfl⟩⟩

/-- What is made of the elements of two lists is the same if it is of those that correspond. -/
theorem mapM_congr {δ : Type} {R : α → δ → Prop} {ys : List δ} {f : α → Except ε β}
    {g : δ → Except ε β} (h : List.Forall₂ R xs ys) (hfg : ∀ x y, R x y → f x = g y) :
    xs.mapM f = ys.mapM g := by
  induction h with
  | nil => rfl
  | cons hxy _ ih => rw [List.mapM_cons, List.mapM_cons, hfg _ _ hxy, ih]

/-- Making something of each element of a list is going over the list, apart from what is made. -/
theorem map_mapM_unit (f : α → Except ε β) (xs : List α) :
    (fun _ => ()) <$> xs.mapM f = forM xs fun x => (fun _ => ()) <$> f x := by
  induction xs with
  | nil => rfl
  | cons x xs ih =>
    rw [List.mapM_cons, List.forM_cons, ← ih]
    cases f x with
    | error e => rfl
    | ok y => cases xs.mapM f <;> rfl

/-- Nothing can be made of the elements of a list as it cannot be of the first one of which it cannot. -/
theorem mapM_eq_error_iff {f : α → Except ε β} : xs.mapM f = .error e ↔
    ∃ before x after, xs = before ++ x :: after ∧ (∀ y ∈ before, ∃ b, f y = .ok b) ∧ f x = .error e := by
  have hok (y : α) : (fun _ => ()) <$> f y = .ok () ↔ ∃ b, f y = .ok b := by
    rw [map_eq_ok]
    exact ⟨fun ⟨b, hb, _⟩ => ⟨b, hb⟩, fun ⟨b, hb⟩ => ⟨b, hb, rfl⟩⟩
  rw [← map_eq_error (f := fun _ => ()), map_mapM_unit, forM_eq_error]
  simp only [hok, map_eq_error]

/-- A fold over what is read of the elements for which `p` holds may read all of it first. -/
theorem foldlM_ite {p : α → Prop} [DecidablePred p] {f : α → Except ε β} {g : γ → β → γ} :
    ∀ (xs : List α) (c : γ), xs.foldlM (fun c x => do
        if p x then
          let b ← f x
          return g c b
        else return c) c = List.foldl g c <$> (xs.filter p).mapM f
  | [], _ => rfl
  | x :: xs, c => by
    rw [List.foldlM_cons]
    by_cases hx : p x
    · rw [if_pos hx, List.filter_cons_of_pos (by simpa using hx), List.mapM_cons]
      cases f x with
      | error e => rfl
      | ok b =>
        refine (foldlM_ite xs (g c b)).trans ?_
        cases (xs.filter p).mapM f <;> rfl
    · rw [if_neg hx, List.filter_cons_of_neg (by simpa using hx)]
      exact foldlM_ite xs c

/-- A fold fails exactly if it succeeds before some element, and its step fails at that one, from what
there is by then. -/
theorem foldlM_eq_error {f : β → α → Except ε β} {b : β} : xs.foldlM f b = .error e ↔
    ∃ before x after c, xs = before ++ x :: after ∧ before.foldlM f b = .ok c ∧ f c x = .error e := by
  induction xs generalizing b with
  | nil =>
    refine ⟨nofun, ?_⟩
    rintro ⟨before, x, after, c, h, -⟩
    exact absurd h (by simp)
  | cons y xs ih =>
    rw [List.foldlM_cons, bind_eq_error]
    constructor
    · rintro (hy | ⟨d, hy, hxs⟩)
      · exact ⟨[], y, xs, b, rfl, rfl, hy⟩
      · obtain ⟨before, x, after, c, rfl, hbefore, hx⟩ := ih.1 hxs
        refine ⟨y :: before, x, after, c, rfl, ?_, hx⟩
        rw [List.foldlM_cons]
        exact bind_eq_ok.2 ⟨d, hy, hbefore⟩
    · rintro ⟨_ | ⟨z, before⟩, x, after, c, h, hbefore, hx⟩
      · obtain ⟨rfl, rfl⟩ := List.cons.inj h
        cases hbefore
        exact .inl hx
      · obtain ⟨rfl, rfl⟩ := List.cons.inj h
        rw [List.foldlM_cons] at hbefore
        obtain ⟨d, hy, hbefore⟩ := bind_eq_ok.1 hbefore
        exact .inr ⟨d, hy, ih.2 ⟨before, x, after, c, rfl, hbefore, hx⟩⟩

end

namespace Manifest

variable {α : Type} {f : α → Except Error (Option Resource)} {xs : List α} {m : Manifest} {e : Error}

/-- A resource cannot be put in exactly if one has its identity as a key, and the error names it. -/
theorem insert_eq_error {r : Resource} : m.insert r = .error e ↔ r.id ∈ m.keys ∧ e = .conflict r.id := by
  unfold insert
  split
  · case isTrue h =>
    refine ⟨fun he => ⟨h, (Except.error.inj he).symm⟩, ?_⟩
    rintro ⟨-, rfl⟩
    rfl
  · case isFalse h => exact ⟨nofun, fun ⟨hmem, _⟩ => absurd hmem h⟩

/-- A manifest cannot be made anew exactly if one can be made of some first elements, and of the next
element nothing can be made, or a resource with the identity of one that is in there. -/
theorem collect_eq_error_iff : collect f xs = .error e ↔
    ∃ before x after m, xs = before ++ x :: after ∧ collect f before = .ok m ∧
      (f x = .error e ∨ ∃ r, f x = .ok (some r) ∧ r.id ∈ m.keys ∧ e = .conflict r.id) := by
  have step {m : Manifest} {x : α} : f x >>= m.insert? = .error e ↔
      f x = .error e ∨ ∃ r, f x = .ok (some r) ∧ r.id ∈ m.keys ∧ e = .conflict r.id := by
    rw [bind_eq_error]
    refine or_congr_right ?_
    constructor
    · rintro ⟨_ | r, hx, hr⟩
      · cases hr
      · exact ⟨r, hx, insert_eq_error.1 hr⟩
    · rintro ⟨r, hx, hr⟩
      exact ⟨some r, hx, insert_eq_error.2 hr⟩
  unfold collect collectInto
  simp only [foldlM_eq_error, step]

end Manifest

end ProviderAssets
