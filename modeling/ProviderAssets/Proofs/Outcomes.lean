import ProviderAssets.Proofs.Success

/-!
# Related outcomes

Two computations that may fail are compared by what they end in: both succeed with results that are
related, or both fail with errors that are (`OutcomeRel`). Errors can be related by being the same, by
having the same cause, or by nothing more than that there are two of them. Whatever the relations are,
outcomes stay related when related computations follow (`OutcomeRel.bind`), one after the other along two
lists as well (`OutcomeRel.foldlM`).
-/

namespace ProviderAssets

/-- Two computations both succeed, with results that `R` relates, or both fail, with errors that `E`
relates. -/
inductive OutcomeRel {ε ε' α β : Type} (E : ε → ε' → Prop) (R : α → β → Prop) :
    Except ε α → Except ε' β → Prop where
  /-- Both succeed. -/
  | ok {a : α} {b : β} (h : R a b) : OutcomeRel E R (.ok a) (.ok b)
  /-- Both fail. -/
  | error {e : ε} {e' : ε'} (h : E e e') : OutcomeRel E R (.error e) (.error e')

namespace OutcomeRel

variable {ε ε' α β γ δ : Type} {E : ε → ε' → Prop} {R : α → β → Prop} {S : γ → δ → Prop}
  {x : Except ε α} {y : Except ε' β}

/-- What follows related outcomes has related outcomes if it has from each two related results. -/
protected theorem bind (h : OutcomeRel E R x y) {f : α → Except ε γ} {g : β → Except ε' δ}
    (hfg : ∀ a b, R a b → OutcomeRel E S (f a) (g b)) : OutcomeRel E S (x >>= f) (y >>= g) := by
  cases h with
  | ok h => exact hfg _ _ h
  | error h => exact .error h

/-- Related results may be changed into related ones. -/
protected theorem map (h : OutcomeRel E R x y) {f : α → γ} {g : β → δ}
    (hfg : ∀ a b, R a b → S (f a) (g b)) : OutcomeRel E S (f <$> x) (g <$> y) := by
  cases h with
  | ok h => exact .ok (hfg _ _ h)
  | error h => exact .error h

/-- The second result alone may be changed, too. -/
theorem map_right (h : OutcomeRel E R x y) {g : β → γ} {S : α → γ → Prop}
    (hg : ∀ a b, R a b → S a (g b)) : OutcomeRel E S x (g <$> y) := by
  rw [← id_map x]
  exact h.map hg

/-- Two folds have related outcomes if their steps have, from related values and on elements of the
lists that stand at the same place. -/
protected theorem foldlM {f : α → γ → Except ε α} {g : β → δ → Except ε' β} {xs : List γ} {ys : List δ}
    (h : List.Forall₂ (fun c d => ∀ a b, R a b → OutcomeRel E R (f a c) (g b d)) xs ys) :
    ∀ {a b}, R a b → OutcomeRel E R (xs.foldlM f a) (ys.foldlM g b) := by
  induction h with
  | nil => exact .ok
  | cons hcd _ ih =>
    intro a b hab
    rw [List.foldlM_cons, List.foldlM_cons]
    exact (hcd a b hab).bind fun _ _ => ih

/-- By way of a third computation, two are related that are related to it. -/
protected theorem trans {E : ε → ε → Prop} {R : α → α → Prop} {x y z : Except ε α}
    (hE : ∀ e e' e'', E e e' → E e' e'' → E e e'') (hR : ∀ a b c, R a b → R b c → R a c)
    (h : OutcomeRel E R x y) (h' : OutcomeRel E R y z) : OutcomeRel E R x z := by
  cases h with
  | ok h =>
    cases h' with
    | ok h' => exact .ok (hR _ _ _ h h')
  | error h =>
    cases h' with
    | error h' => exact .error (hE _ _ _ h h')

/-- Computations that are related succeed together. -/
theorem exists_ok_iff (h : OutcomeRel E R x y) : (∃ a, x = .ok a) ↔ ∃ b, y = .ok b := by
  cases h with
  | @ok a b => exact ⟨fun _ => ⟨b, rfl⟩, fun _ => ⟨a, rfl⟩⟩
  | error => constructor <;> (rintro ⟨_, h⟩; cases h)

/-- Their results are related. -/
theorem rel {a : α} {b : β} (h : OutcomeRel E R x y) (hx : x = .ok a) (hy : y = .ok b) : R a b := by
  cases h with
  | ok h =>
    cases hx
    cases hy
    exact h
  | error => cases hx

/-- Computations that are the same apart from their results fail with the same error, and their results
are related if each two of them are. -/
theorem of_map_unit {y : Except ε β} (h : (fun _ => ()) <$> x = (fun _ => ()) <$> y)
    (hR : ∀ a b, x = .ok a → y = .ok b → R a b) : OutcomeRel Eq R x y := by
  cases x with
  | error e =>
    cases y with
    | error e' => exact .error (Except.error.inj h)
    | ok b => cases h
  | ok a =>
    cases y with
    | error e' => cases h
    | ok b => exact .ok (hR a b rfl rfl)

end OutcomeRel

end ProviderAssets
