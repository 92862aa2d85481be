import Mathlib.Data.List.Infix
import Mathlib.Data.List.TakeWhile
import ProviderAssets.Text.Cut
import ProviderAssets.Text.Lowercase

/-!
# Lower case in the middle of a text

All characters but one are lowered without a look at what is around them: a capital sigma is final or
not depending on whether a word ends with it. So a part of a text is lowered as it is by itself if its
capital sigmas are read as they are by themselves (`Text.ReadAlone`), and it is lowered so in the
middle of every text exactly if it is settled, which is a property of the part alone
(`Text.isSettled_iff`). A part that is not settled is not found any more in lower case in some text
that contains it (`Text.exists_not_isInfix_lowercase`), since lowering makes fewer of one of the two
small sigmas there.
-/

namespace ProviderAssets.Text

/-! ## Parts -/

/-- A text has those parts that stand in it. -/
theorem hasPart_iff {needle cs : List Char} : hasPart needle cs = true ↔ needle <:+: cs := by
  induction cs with
  | nil => rw [hasPart, List.isEmpty_iff, List.infix_nil]
  | cons c cs ih => rw [hasPart, Bool.or_eq_true, List.isPrefixOf_iff_prefix, ih, List.infix_cons_iff]

/-! ## The next cased character -/

section

variable {xs ys : List Char}

/-- Characters that are passed over do not count. -/
theorem nextIsCased_append_of_forall (h : ∀ c ∈ xs, isCaseIgnorable c = true) (ys : List Char) :
    nextIsCased (xs ++ ys) = nextIsCased ys := by
  unfold nextIsCased
  rw [List.dropWhile_append_of_pos h]

/-- What comes after a character that is not passed over does not count. -/
theorem nextIsCased_append_of_not_forall (h : ¬ ∀ c ∈ xs, isCaseIgnorable c = true)
    (ys : List Char) : nextIsCased (xs ++ ys) = nextIsCased xs := by
  unfold nextIsCased
  rw [List.dropWhile_append]
  cases hnext : xs.dropWhile isCaseIgnorable with
  | nil => exact absurd (List.dropWhile_eq_nil_iff.1 hnext) h
  | cons c rest => rfl

/-- There is no cased character among those that are passed over. -/
theorem nextIsCased_of_forall (h : ∀ c ∈ xs, isCaseIgnorable c = true) : nextIsCased xs = false := by
  unfold nextIsCased
  rw [List.dropWhile_eq_nil_iff.2 h]

end

/-! ## Lower case between two texts -/

/-- How a capital sigma is lowered after the text `before`, which is held in reverse, and before the
text `after`. -/
def sigma (before after : List Char) : Char :=
  if nextIsCased before && !nextIsCased after then 'ς' else 'σ'

/-- A capital sigma is final after a cased character and before none. -/
theorem sigma_eq_final {before after : List Char} :
    sigma before after = 'ς' ↔ nextIsCased before = true ∧ nextIsCased after = false := by
  unfold sigma
  cases nextIsCased before <;> cases nextIsCased after <;> decide

/-- It is not final otherwise. -/
theorem sigma_eq_other {before after : List Char} :
    sigma before after = 'σ' ↔ (nextIsCased before = true → nextIsCased after = true) := by
  unfold sigma
  cases nextIsCased before <;> cases nextIsCased after <;> decide

/-- The lower case of a text that stands after `before`, which is held in reverse, and before `after`. -/
def lowerBetween (before after : List Char) : List Char → List Char
  | [] => []
  | c :: rest =>
    (if c = 'Σ' then [sigma before (rest ++ after)] else lowerChar c) ++
      lowerBetween (c :: before) after rest

/-- At the end of a text nothing follows. -/
theorem lowerFrom_eq (before cs : List Char) : lowerFrom before cs = lowerBetween before [] cs := by
  induction cs generalizing before with
  | nil => rfl
  | cons c rest ih =>
    rw [lowerFrom, lowerBetween, ih, List.append_nil, sigma]

/-- Each of two parts is lowered with the other one next to it. -/
theorem lowerBetween_append (before after xs ys : List Char) :
    lowerBetween before after (xs ++ ys) =
      lowerBetween before (ys ++ after) xs ++ lowerBetween (xs.reverse ++ before) after ys := by
  induction xs generalizing before with
  | nil => rfl
  | cons x xs ih =>
    rw [List.cons_append, lowerBetween, lowerBetween, ih, List.append_assoc, List.append_assoc,
      List.reverse_cons, List.append_assoc]
    rfl

/-- The lower case of a text with a part in the middle. -/
theorem toList_lowercase_append (a needle b : String) :
    (lowercase (a ++ needle ++ b)).toList =
      lowerBetween [] (needle.toList ++ b.toList) a.toList ++
        (lowerBetween a.toList.reverse b.toList needle.toList ++
          lowerBetween (needle.toList.reverse ++ a.toList.reverse) [] b.toList) := by
  rw [lowercase, String.toList_ofList, lowerFrom_eq, String.toList_append, String.toList_append,
    List.append_assoc, lowerBetween_append, lowerBetween_append, List.append_nil, List.append_nil,
    List.append_nil]

/-! ## Parts that are lowered as by themselves -/

section

variable {before after before' after' cs : List Char}

/-- Two surroundings in which the capital sigmas are read alike give the same lower case. -/
theorem lowerBetween_congr (h : ∀ x y, cs = x ++ 'Σ' :: y →
      sigma (x.reverse ++ before) (y ++ after) = sigma (x.reverse ++ before') (y ++ after')) :
    lowerBetween before after cs = lowerBetween before' after' cs := by
  induction cs generalizing before before' with
  | nil => rfl
  | cons c rest ih =>
    have hrest : lowerBetween (c :: before) after rest = lowerBetween (c :: before') after' rest :=
      ih fun x y hxy => by simpa using h (c :: x) y (congrArg (c :: ·) hxy)
    rw [lowerBetween, lowerBetween, hrest]
    by_cases hc : c = 'Σ'
    · have hsigma := h [] rest (congrArg (· :: rest) hc)
      rw [if_pos hc, if_pos hc]
      exact congrArg (fun d => [d] ++ _) hsigma
    · rw [if_neg hc, if_neg hc]

/-- A small sigma comes at most as often in the first surroundings if it stands there only for capital
sigmas for which it stands in the second ones. -/
theorem count_lowerBetween_le {d : Char} (h : ∀ x y, cs = x ++ 'Σ' :: y →
      sigma (x.reverse ++ before) (y ++ after) = d →
      sigma (x.reverse ++ before') (y ++ after') = d) :
    (lowerBetween before after cs).count d ≤ (lowerBetween before' after' cs).count d := by
  induction cs generalizing before before' with
  | nil => exact le_refl _
  | cons c rest ih =>
    have hrest : (lowerBetween (c :: before) after rest).count d ≤
        (lowerBetween (c :: before') after' rest).count d :=
      ih fun x y hxy => by simpa using h (c :: x) y (congrArg (c :: ·) hxy)
    rw [lowerBetween, lowerBetween, List.count_append, List.count_append]
    refine Nat.add_le_add ?_ hrest
    by_cases hc : c = 'Σ'
    · have hsigma := h [] rest (congrArg (· :: rest) hc)
      rw [if_pos hc, if_pos hc]
      by_cases hd : sigma before (rest ++ after) = d
      · rw [hd, show sigma before' (rest ++ after') = d from hsigma hd]
      · rw [List.count_eq_zero_of_not_mem fun hmem => hd (List.mem_singleton.1 hmem).symm]
        exact Nat.zero_le _
    · rw [if_neg hc, if_neg hc]

/-- It comes less often if it does not stand there for one of those for which it stands in the second
ones. -/
theorem count_lowerBetween_lt {d : Char} {x y : List Char} (hsplit : cs = x ++ 'Σ' :: y)
    (hno : sigma (x.reverse ++ before) (y ++ after) ≠ d)
    (hyes : sigma (x.reverse ++ before') (y ++ after') = d)
    (h : ∀ x y, cs = x ++ 'Σ' :: y → sigma (x.reverse ++ before) (y ++ after) = d →
      sigma (x.reverse ++ before') (y ++ after') = d) :
    (lowerBetween before after cs).count d < (lowerBetween before' after' cs).count d := by
  subst hsplit
  -- The capital sigma in question stands between two parts in which the small one does not come more often.
  have hx : (lowerBetween before ('Σ' :: y ++ after) x).count d ≤
      (lowerBetween before' ('Σ' :: y ++ after') x).count d := by
    refine count_lowerBetween_le fun u v huv => ?_
    simpa [huv] using h u (v ++ 'Σ' :: y)
  have hy : (lowerBetween ('Σ' :: (x.reverse ++ before)) after y).count d ≤
      (lowerBetween ('Σ' :: (x.reverse ++ before')) after' y).count d := by
    refine count_lowerBetween_le fun u v huv => ?_
    simpa [huv] using h (x ++ 'Σ' :: u) v
  have hone : [sigma (x.reverse ++ before) (y ++ after)].count d <
      [sigma (x.reverse ++ before') (y ++ after')].count d := by
    rw [hyes, List.count_eq_zero_of_not_mem fun hmem => hno (List.mem_singleton.1 hmem).symm]
    simp
  rw [lowerBetween_append, lowerBetween_append, lowerBetween, lowerBetween, if_pos rfl, if_pos rfl]
  simp only [List.count_append]
  omega

end

/-- Between the texts `a` and `b`, the capital sigmas of a text are read as they are by themselves. -/
def ReadAlone (a cs b : List Char) : Prop :=
  ∀ x y, cs = x ++ 'Σ' :: y →
    sigma (x.reverse ++ a.reverse) (y ++ b) = sigma x.reverse y

/-- How a text is read does not depend on what is around it: a capital sigma after a cased character is
followed by one that is not passed over, and one with nothing before it that is not passed over is
followed by a cased character. -/
def IsSettled (cs : List Char) : Prop :=
  ∀ x y, cs = x ++ 'Σ' :: y →
    (nextIsCased x.reverse = true → ¬ ∀ c ∈ y, isCaseIgnorable c = true) ∧
    ((∀ c ∈ x, isCaseIgnorable c = true) → nextIsCased y = true)

variable {cs : List Char}

/-- A text without a capital sigma is settled. -/
theorem isSettled_of_not_mem (h : 'Σ' ∉ cs) : IsSettled cs := by
  intro x y hxy
  refine absurd ?_ h
  rw [hxy]
  exact List.mem_append_right x List.mem_cons_self

/-- In a text that is not settled, there is a capital sigma after a cased character with nothing but
characters that are passed over behind it, or one with nothing but such characters before it that is
not followed by a cased one. -/
theorem exists_of_not_isSettled (h : ¬ IsSettled cs) : ∃ x y, cs = x ++ 'Σ' :: y ∧
    (nextIsCased x.reverse = true ∧ (∀ c ∈ y, isCaseIgnorable c = true) ∨
      (∀ c ∈ x, isCaseIgnorable c = true) ∧ ¬ nextIsCased y = true) := by
  by_contra hno
  refine h fun x y hxy => ⟨fun hcased hopen => ?_, fun hopen => ?_⟩
  · exact hno ⟨x, y, hxy, .inl ⟨hcased, hopen⟩⟩
  · by_contra hcased
    exact hno ⟨x, y, hxy, .inr ⟨hopen, hcased⟩⟩

/-- A settled text is read everywhere as by itself. -/
theorem IsSettled.readAlone (h : IsSettled cs) (a b : List Char) : ReadAlone a cs b := by
  intro x y hxy
  obtain ⟨hafter, hbefore⟩ := h x y hxy
  have hreverse : (∀ c ∈ x.reverse, isCaseIgnorable c = true) ↔ ∀ c ∈ x, isCaseIgnorable c = true := by
    simp only [List.mem_reverse]
  unfold sigma
  by_cases hx : ∀ c ∈ x, isCaseIgnorable c = true
  · -- A cased character follows, so the sigma is not final whatever stands before it.
    have hy := hbefore hx
    have hopen : ¬ ∀ c ∈ y, isCaseIgnorable c = true := by
      intro hall
      rw [nextIsCased_of_forall hall] at hy
      cases hy
    rw [nextIsCased_append_of_not_forall hopen, hy]
    simp
  · rw [nextIsCased_append_of_not_forall (mt hreverse.1 hx)]
    cases hcased : nextIsCased x.reverse with
    | false => rfl
    | true => rw [nextIsCased_append_of_not_forall (hafter hcased)]

/-! ## Parts in lower case -/

/-- A text by itself has nothing around it. -/
theorem toList_lowercase (s : String) : (lowercase s).toList = lowerBetween [] [] s.toList := by
  rw [lowercase, String.toList_ofList, lowerFrom_eq]

/-- A part that is read as by itself is found in lower case. -/
theorem isInfix_lowercase {a needle b : String} (h : ReadAlone a.toList needle.toList b.toList) :
    (lowercase needle).toList <:+: (lowercase (a ++ needle ++ b)).toList := by
  have hsame : lowerBetween a.toList.reverse b.toList needle.toList =
      lowerBetween [] [] needle.toList :=
    lowerBetween_congr fun x y hxy => by simpa using h x y hxy
  rw [toList_lowercase_append, toList_lowercase, hsame, ← List.append_assoc]
  exact List.infix_append ..

/-- A letter is cased, and it is not passed over. -/
theorem nextIsCased_letter : nextIsCased ['A'] = true := by decide

/-- A letter is lowered to a letter. -/
theorem lowerBetween_letter (before after : List Char) : lowerBetween before after ['A'] = ['a'] := by
  rw [lowerBetween, if_neg (by decide), lowerBetween]
  rfl

/-- A cased character that is next stays so before a letter, and where there is none the letter is. -/
theorem nextIsCased_concat {xs : List Char}
    (h : nextIsCased xs = true ∨ ∀ c ∈ xs, isCaseIgnorable c = true) :
    nextIsCased (xs ++ ['A']) = true := by
  by_cases hall : ∀ c ∈ xs, isCaseIgnorable c = true
  · rw [nextIsCased_append_of_forall hall, nextIsCased_letter]
  · rw [nextIsCased_append_of_not_forall hall]
    exact h.resolve_right hall

/-- A part is not found in lower case if lowering makes fewer of some character of it and none of them
around it. -/
theorem not_isInfix_lowercase {a needle b : String} {d : Char}
    (ha : d ∉ lowerBetween [] (needle.toList ++ b.toList) a.toList)
    (hb : d ∉ lowerBetween (needle.toList.reverse ++ a.toList.reverse) [] b.toList)
    (hlt : (lowerBetween a.toList.reverse b.toList needle.toList).count d <
      (lowerBetween [] [] needle.toList).count d) :
    ¬ (lowercase needle).toList <:+: (lowercase (a ++ needle ++ b)).toList := by
  intro h
  have hcount := h.sublist.count_le d
  rw [toList_lowercase_append, toList_lowercase, List.count_append, List.count_append,
    List.count_eq_zero_of_not_mem ha, List.count_eq_zero_of_not_mem hb] at hcount
  omega

section

variable {needle : String} {x y : List Char}

/-- A part with a sigma that is final by itself is not found before a letter: that sigma is final no
more, and no other one becomes so. -/
theorem not_isInfix_before_letter (hxy : needle.toList = x ++ 'Σ' :: y)
    (hcased : nextIsCased x.reverse = true) (hopen : ∀ c ∈ y, isCaseIgnorable c = true) :
    ¬ (lowercase needle).toList <:+: (lowercase ("" ++ needle ++ "A")).toList := by
  have hletter : "A".toList = ['A'] := rfl
  refine not_isInfix_lowercase (d := 'ς') List.not_mem_nil ?_ ?_
  · rw [hletter, lowerBetween_letter]
    decide
  · refine count_lowerBetween_lt hxy ?_ ?_ fun u v _ hsigma => ?_
    · rw [Ne, sigma_eq_final, hletter, nextIsCased_concat (.inr hopen)]
      simp
    · exact sigma_eq_final.2 ⟨by simpa using hcased, by simpa using nextIsCased_of_forall hopen⟩
    · obtain ⟨hu, hv⟩ := sigma_eq_final.1 hsigma
      refine sigma_eq_final.2 ⟨hu, ?_⟩
      rw [List.append_nil, ← Bool.not_eq_true]
      intro hnext
      rw [hletter, nextIsCased_concat (.inl hnext)] at hv
      cases hv

/-- A part with a sigma that is not final by itself, though no cased character follows, is not found
after a letter: that sigma is final there, and no other one ceases to be so. -/
theorem not_isInfix_after_letter (hxy : needle.toList = x ++ 'Σ' :: y)
    (hopen : ∀ c ∈ x, isCaseIgnorable c = true) (hcased : ¬ nextIsCased y = true) :
    ¬ (lowercase needle).toList <:+: (lowercase ("A" ++ needle ++ "")).toList := by
  have hreverse : ∀ c ∈ x.reverse, isCaseIgnorable c = true := by simpa using hopen
  refine not_isInfix_lowercase (d := 'σ') ?_ List.not_mem_nil ?_
  · rw [show "A".toList = ['A'] from rfl, lowerBetween_letter]
    decide
  · refine count_lowerBetween_lt hxy ?_ ?_ fun u v _ hsigma => ?_
    · rw [Ne, sigma_eq_other]
      intro h
      exact hcased (by simpa using h (nextIsCased_concat (.inr hreverse)))
    · rw [sigma_eq_other, List.append_nil, nextIsCased_of_forall hreverse]
      simp
    · rw [sigma_eq_other] at hsigma ⊢
      intro hu
      rw [List.append_nil] at hu
      exact hsigma (nextIsCased_concat (.inl hu))

/-- A part that is not settled is not found in lower case in some text that contains it. -/
theorem exists_not_isInfix_lowercase (h : ¬ IsSettled needle.toList) :
    ∃ a b, ¬ (lowercase needle).toList <:+: (lowercase (a ++ needle ++ b)).toList := by
  obtain ⟨x, y, hxy, ⟨hcased, hopen⟩ | ⟨hopen, hcased⟩⟩ := exists_of_not_isSettled h
  · exact ⟨"", "A", not_isInfix_before_letter hxy hcased hopen⟩
  · exact ⟨"A", "", not_isInfix_after_letter hxy hopen hcased⟩

end

/-- The texts that are found in lower case wherever they stand are the settled ones. -/
theorem isSettled_iff {needle : String} : IsSettled needle.toList ↔
    ∀ a b, (lowercase needle).toList <:+: (lowercase (a ++ needle ++ b)).toList := by
  constructor
  · intro h a b
    exact isInfix_lowercase (h.readAlone a.toList b.toList)
  · intro h
    by_contra hno
    obtain ⟨a, b, hmissing⟩ := exists_not_isInfix_lowercase hno
    exact hmissing (h a b)

end ProviderAssets.Text
