import ProviderAssets.Proofs.Yaml.Leaves
import Mathlib.Algebra.Ring.Int.Defs

/-!
# Texts of numbers

A number is written as digits with a sign, a point and an exponent, so it is always a plain scalar.
-/

namespace ProviderAssets

open Binary64 (renderPositional renderScientific)

variable {c : Char} {cs ds : List Char} {s : String}

/-- Whether a character occurs in numbers. -/
def IsNumberChar (c : Char) : Prop := c.isDigit = true ∨ c = '.' ∨ c = 'e' ∨ c = '-'

/-- Whether a text begins with a digit and goes on with characters of numbers. -/
def IsUnsigned (cs : List Char) : Prop :=
  ∃ d rest, cs = d :: rest ∧ d.isDigit = true ∧ ∀ c ∈ rest, IsNumberChar c

/-- The text of an unsigned number may go on. -/
theorem IsUnsigned.append (h : IsUnsigned cs) (hds : ∀ c ∈ ds, IsNumberChar c) :
    IsUnsigned (cs ++ ds) := by
  obtain ⟨d, rest, rfl, hd, hrest⟩ := h
  refine ⟨d, rest ++ ds, rfl, hd, fun c hc => ?_⟩
  exact (List.mem_append.1 hc).elim (hrest c) (hds c)

/-- Digits are the text of an unsigned number. -/
theorem IsUnsigned.of_digits (hne : cs ≠ []) (h : ∀ c ∈ cs, c.isDigit = true) : IsUnsigned cs := by
  obtain ⟨d, rest, rfl⟩ := List.exists_cons_of_ne_nil hne
  exact ⟨d, rest, rfl, h d List.mem_cons_self, fun c hc => .inl (h c (List.mem_cons_of_mem _ hc))⟩

/-- The digits of a natural number. -/
theorem isDigit_of_mem_digits {n : Nat} (h : c ∈ Nat.toDigits 10 n) : c.isDigit = true :=
  Nat.isDigit_of_mem_toDigits (by decide) (by decide) h

/-- Zeros are digits. -/
theorem isDigit_of_mem_zeros {n : Nat} (h : c ∈ List.replicate n '0') : c.isDigit = true := by
  rw [List.eq_of_mem_replicate h]
  rfl

/-- The text of an integer: its digits, with a sign in front if it is negative. -/
theorem toList_toString_int (n : Int) : (toString n).toList =
    if n < 0 then '-' :: Nat.toDigits 10 n.natAbs else Nat.toDigits 10 n.natAbs := by
  cases n with
  | ofNat n =>
    rw [if_neg (by simp)]
    exact Nat.toList_repr
  | negSucc n =>
    rw [if_pos (Int.negSucc_lt_zero n)]
    show ("-" ++ Nat.repr (n + 1)).toList = _
    rw [String.toList_append, Nat.toList_repr]
    rfl

/-- A number in positions is unsigned. -/
theorem isUnsigned_renderPositional (hne : ds ≠ []) (h : ∀ c ∈ ds, c.isDigit = true) (point : Int) :
    IsUnsigned (renderPositional ds point) := by
  have hdigits {n : Nat} : ∀ c ∈ List.replicate n '0', IsNumberChar c :=
    fun c hc => .inl (isDigit_of_mem_zeros hc)
  unfold renderPositional
  split
  · refine ⟨'0', _, rfl, rfl, fun c hc => ?_⟩
    rcases List.mem_cons.1 hc with rfl | hc
    · exact .inr (.inl rfl)
    · exact (List.mem_append.1 hc).elim (hdigits c) fun hc => .inl (h c hc)
  · rename_i hpoint
    split
    · refine ((IsUnsigned.of_digits hne h).append hdigits).append fun c hc => ?_
      rcases List.mem_cons.1 hc with rfl | hc
      · exact .inr (.inl rfl)
      · rw [List.mem_singleton.1 hc]
        exact .inl rfl
    · refine (IsUnsigned.of_digits ?_ fun c hc => h c (List.mem_of_mem_take hc)).append fun c hc => ?_
      · rw [Ne, List.take_eq_nil_iff, not_or]
        exact ⟨by omega, hne⟩
      · rcases List.mem_cons.1 hc with rfl | hc
        · exact .inr (.inl rfl)
        · exact .inl (h c (List.mem_of_mem_drop hc))

/-- A number with an exponent is unsigned. -/
theorem isUnsigned_renderScientific (hne : ds ≠ []) (h : ∀ c ∈ ds, c.isDigit = true) (point : Int) :
    IsUnsigned (renderScientific ds point) := by
  unfold renderScientific
  rw [List.append_assoc]
  refine ((IsUnsigned.of_digits ?_ fun c hc => h c (List.mem_of_mem_take hc)).append ?_)
  · rw [Ne, List.take_eq_nil_iff, not_or]
    exact ⟨by omega, hne⟩
  · intro c hc
    rcases List.mem_append.1 hc with hc | hc
    · split at hc
      · rcases List.mem_cons.1 hc with rfl | hc
        · exact .inr (.inl rfl)
        · exact .inl (h c (List.mem_of_mem_drop hc))
      · cases hc
    · rcases List.mem_cons.1 hc with rfl | hc
      · exact .inr (.inr (.inl rfl))
      · rw [toList_toString_int] at hc
        split at hc
        · rcases List.mem_cons.1 hc with rfl | hc
          · exact .inr (.inr (.inr rfl))
          · exact .inl (isDigit_of_mem_digits hc)
        · exact .inl (isDigit_of_mem_digits hc)

/-- Every layout of a double is unsigned, up to its sign. -/
theorem isUnsigned_layout (m : Nat) (point : Int) :
    IsUnsigned (if m = 0 then ['0', '.', '0']
      else if Binary64.Layout.compact.isPositional point then
        renderPositional (Nat.toDigits 10 m) point
      else renderScientific (Nat.toDigits 10 m) point) := by
  split
  · exact ⟨'0', _, rfl, rfl, by simp [IsNumberChar]⟩
  · split
    · exact isUnsigned_renderPositional Nat.toDigits_ne_nil (fun c => isDigit_of_mem_digits) _
    · exact isUnsigned_renderScientific Nat.toDigits_ne_nil (fun c => isDigit_of_mem_digits) _

namespace Yaml

/-- The text of a number is that of an unsigned one, with a sign in front if it is negative. -/
theorem exists_number (n : Json.Number) :
    ∃ cs, IsUnsigned cs ∧ ((Printer.number n).toList = cs ∨ (Printer.number n).toList = '-' :: cs) := by
  cases n with
  | integer n =>
    refine ⟨Nat.toDigits 10 n.natAbs, .of_digits Nat.toDigits_ne_nil fun c => isDigit_of_mem_digits, ?_⟩
    rw [Printer.number, toList_toString_int]
    split
    · exact .inr rfl
    · exact .inl rfl
  | float x =>
    have hsign {b : Bool} {cs : List Char} (h : IsUnsigned cs) :
        ∃ ds, IsUnsigned ds ∧ ((String.ofList (if b then '-' :: cs else cs)).toList = ds ∨
          (String.ofList (if b then '-' :: cs else cs)).toList = '-' :: ds) := by
      refine ⟨cs, h, ?_⟩
      rw [String.toList_ofList]
      cases b
      · exact .inl rfl
      · exact .inr rfl
    exact hsign (isUnsigned_layout x.shortest.1 _)

/-- Characters of numbers stand for themselves, and none of them is an indicator inside a text. -/
theorem plain_of_isNumberChar (h : IsNumberChar c) :
    Printer.isShown c = true ∧ isBlankOrEnd c = false ∧ c ≠ ':' ∧ c ≠ '#' := by
  rcases h with h | rfl | rfl | rfl
  · have hother {d : Char} (hd : d.isDigit = false) : c ≠ d := by
      rintro rfl
      exact absurd h (by simp [hd])
    have hnat : 48 ≤ c.toNat ∧ c.toNat ≤ 57 := by
      simpa [Char.isDigit, UInt32.le_iff_toNat_le] using h
    refine ⟨?_, ?_, hother rfl, hother rfl⟩
    · simp only [Printer.isShown, Bool.or_eq_true, decide_eq_true_eq, Bool.and_eq_true]
      omega
    · simp [isBlankOrEnd, isBlank, isBreakOrEnd, isBreak, hother]
  all_goals decide

/-- A text without colons and number signs has no indicators inside. -/
theorem hasInnerIndicator_of_free (h : ∀ c ∈ cs, c ≠ ':' ∧ c ≠ '#') :
    Printer.hasInnerIndicator cs = false := by
  induction cs with
  | nil => rfl
  | cons c cs ih =>
    cases cs with
    | nil => rfl
    | cons d cs =>
      obtain ⟨hcolon, hnumber⟩ := h d (by simp)
      rw [Printer.hasInnerIndicator, ih fun c hc => h c (List.mem_cons_of_mem _ hc)]
      simp [hcolon, hnumber]

/-- A text without blanks and breaks has no pair with one. -/
theorem hasPair_of_free {p q : Char → Bool} (h : ∀ c ∈ cs, q c = false) :
    Printer.hasPair p q cs = false := by
  induction cs with
  | nil => rfl
  | cons c cs ih =>
    cases cs with
    | nil => rfl
    | cons d cs =>
      rw [Printer.hasPair, h d (by simp), ih fun c hc => h c (List.mem_cons_of_mem _ hc)]
      simp

/-- A text may be written plainly if it has no indicators, white space and characters to escape. -/
theorem plainAllowed_of_free (hne : cs ≠ [])
    (h : ∀ c ∈ cs, Printer.isShown c = true ∧ isBlankOrEnd c = false ∧ c ≠ ':' ∧ c ≠ '#')
    (hdocument : Printer.beginsDocument cs = false)
    (hlead : Printer.isLeadingIndicator (cs.headD '\x00')
      (isBlankOrEnd ((cs.drop 1).headD '\x00')) = false) :
    (Printer.features cs).plainAllowed = true := by
  have hwhite : ∀ c ∈ cs, decide (c = ' ') = false ∧ isBreak c = false := by
    intro c hc
    have hblank := (h c hc).2.1
    simp only [isBlankOrEnd, isBlank, isBreakOrEnd, Bool.or_eq_false_iff] at hblank
    exact ⟨hblank.1.1, hblank.2.1⟩
  have hfirst : cs.headD '\x00' ∈ cs := by
    obtain ⟨d, rest, rfl⟩ := List.exists_cons_of_ne_nil hne
    exact List.mem_cons_self
  have hlast : cs.getLastD '\x00' ∈ cs := by
    rw [List.getLastD_eq_getLast?, List.getLast?_eq_some_getLast hne]
    exact List.getLast_mem hne
  have hshown : cs.all Printer.isShown = true := List.all_eq_true.2 fun c hc => (h c hc).1
  have hmultiline : cs.any isBreak = false := List.any_eq_false.2 fun c hc => by simp [hwhite c hc]
  simp only [Printer.features, hdocument, hlead, hasInnerIndicator_of_free fun c hc => (h c hc).2.2,
    hmultiline, hshown, hasPair_of_free fun c hc => (hwhite c hc).1,
    hasPair_of_free fun c hc => (hwhite c hc).2, hwhite _ hfirst, hwhite _ hlast, Bool.or_false,
    Bool.not_false, Bool.not_true]

/-- A number may be written plainly. -/
theorem fits_number (n : Json.Number) : Fits (Printer.number n) .plain := by
  obtain ⟨cs, ⟨d, rest, rfl, hd, hrest⟩, htext⟩ := exists_number n
  have hstart : IsNumberChar d := .inl hd
  have hchars : ∀ c ∈ (Printer.number n).toList, IsNumberChar c := by
    have hunsigned : ∀ c ∈ d :: rest, IsNumberChar c := by
      intro c hc
      rcases List.mem_cons.1 hc with rfl | hc
      · exact hstart
      · exact hrest c hc
    rcases htext with h | h <;> rw [h]
    · exact hunsigned
    · intro c hc
      rcases List.mem_cons.1 hc with rfl | hc
      · exact .inr (.inr (.inr rfl))
      · exact hunsigned c hc
  -- All characters are those of numbers, and the first one is a digit or the sign before one.
  have hdigit {c : Char} (hc : c.isDigit = false) : d ≠ c := by
    rintro rfl
    exact absurd hd (by simp [hc])
  have hne : (Printer.number n).toList ≠ [] := by
    rcases htext with h | h <;> rw [h] <;> exact List.cons_ne_nil _ _
  refine ⟨hne, plainAllowed_of_free hne (fun c hc => plain_of_isNumberChar (hchars c hc)) ?_ ?_⟩
  · rw [Bool.eq_false_iff, Ne, Lexer.beginsDocument_iff]
    rintro ⟨c, u, hc, heq⟩
    rcases htext with h | h <;> rw [h] at heq <;> injection heq with heq heq'
    · rcases hc with rfl | rfl
      · exact hdigit rfl heq
      · exact hdigit rfl heq
    · injection heq' with heq'
      exact hdigit rfl (heq'.trans heq.symm)
  · rcases htext with h | h <;> rw [h]
    · simp [Printer.isLeadingIndicator, hdigit]
    · simp [Printer.isLeadingIndicator, (plain_of_isNumberChar hstart).2.1]

/-! ## Reading integers back -/

/-- The digits of a positive number do not begin with a zero. -/
theorem head?_digits {n : Nat} (hn : 0 < n) : (Nat.toDigits 10 n).head? ≠ some '0' := by
  -- The first digit of a number of several digits is that of its tenth.
  induction n using Nat.strongRecOn with
  | _ n ih =>
    rcases Nat.lt_or_ge n 10 with hlt | hge
    · have hdigit : ∀ m < 10, 0 < m → m.digitChar ≠ '0' := by decide
      rw [Nat.toDigits_of_lt_base hlt, List.head?_cons, Ne, Option.some.injEq]
      exact hdigit n hlt hn
    · rw [Nat.toDigits_of_base_le (by decide) hge,
        List.head?_append_of_ne_nil _ Nat.toDigits_ne_nil]
      exact ih (n / 10) (by omega) (by omega)

/-- The digits of a number have no zero in front. -/
theorem hasLeadingZero_digits (n : Nat) : hasLeadingZero (Nat.toDigits 10 n) = false := by
  rcases Nat.eq_zero_or_pos n with rfl | hn
  · rfl
  · have hhead := head?_digits hn
    unfold hasLeadingZero
    split
    · rename_i rest h
      rw [h] at hhead
      exact absurd rfl hhead
    · rfl

/-- Digits are read as the number that they stand for. -/
theorem natOfDigits?_digits (n : Nat) : natOfDigits? 10 (Nat.toDigits 10 n) = some n := by
  have hvalue (c : Char) (hc : c.isDigit = true) : digitValue? 10 c = some (c.toNat - '0'.toNat) := by
    have hnat : 48 ≤ c.toNat ∧ c.toNat ≤ 57 := by
      simpa [Char.isDigit, UInt32.le_iff_toNat_le] using hc
    have hzero : '0'.toNat = 48 := rfl
    simp only [digitValue?, hc, if_true, Option.filter]
    rw [if_pos (by simp; omega)]
  have hvalues {cs : List Char} (h : ∀ c ∈ cs, c.isDigit = true) :
      cs.mapM (digitValue? 10) = some (cs.map (·.toNat - '0'.toNat)) := by
    induction cs with
    | nil => rfl
    | cons c cs ih =>
      obtain ⟨hc, hcs⟩ := List.forall_mem_cons.1 h
      rw [List.mapM_cons, hvalue c hc, ih hcs]
      rfl
  have hne : (Nat.toDigits 10 n).map (·.toNat - '0'.toNat) ≠ [] := by
    simp [Nat.toDigits_ne_nil]
  have hfold : ((Nat.toDigits 10 n).map (·.toNat - '0'.toNat)).foldl (10 * · + ·) 0 = n := by
    rw [List.foldl_map]
    exact Nat.ofDigitChars_ten_toDigits
  rw [natOfDigits?, hvalues (fun c => isDigit_of_mem_digits), Option.bind_eq_bind, Option.bind_some,
    hfold, List.isEmpty_eq_false_iff.2 hne]
  rfl

/-- Digits are read as a magnitude. -/
theorem magnitude?_digits (n : Nat) : magnitude? (Nat.toDigits 10 n) = some n := by
  have hbase {c : Char} (hc : c ∈ Nat.toDigits 10 n) : c.isDigit = true := isDigit_of_mem_digits hc
  unfold magnitude?
  split
  case h_4 => rw [if_neg (by rw [hasLeadingZero_digits]; exact Bool.false_ne_true), natOfDigits?_digits]
  all_goals
    rename_i h
    rw [h] at hbase
    exact absurd (hbase (List.mem_cons_of_mem _ List.mem_cons_self)) (by decide)

/-- The digits of a number have no sign in front. -/
theorem head?_digits_ne {n : Nat} (hc : c.isDigit = false) : (Nat.toDigits 10 n).head? ≠ some c := by
  intro h
  have hdigit := isDigit_of_mem_digits (List.mem_of_mem_head? h)
  rw [hc] at hdigit
  cases hdigit

/-- Digits are read as an integer. -/
theorem integerOfText?_digits {n : Nat} (htext : s.toList = Nat.toDigits 10 n) (hn : n < Nat.pow 2 64) :
    integerOfText? s = some (.integer n) := by
  have hplus : dropPlus (Nat.toDigits 10 n) = Nat.toDigits 10 n := by
    unfold dropPlus
    split
    · rename_i h
      exact absurd (by rw [h]; rfl) (head?_digits_ne (n := n) (c := '+') rfl)
    · rfl
  unfold integerOfText?
  rw [htext]
  split
  · rename_i h
    exact absurd (by rw [h]; rfl) (head?_digits_ne (n := n) (c := '-') rfl)
  · rw [hplus, magnitude?_digits, Option.bind_eq_bind, Option.bind_some, if_pos hn]

/-- Digits after a sign are read as a negative integer. -/
theorem integerOfText?_sign {n : Nat} (htext : s.toList = '-' :: Nat.toDigits 10 n)
    (hn : n ≤ Nat.pow 2 63) : integerOfText? s = some (.integer (-(n : Int))) := by
  unfold integerOfText?
  rw [htext]
  show (magnitude? (Nat.toDigits 10 n) >>= _) = _
  rw [magnitude?_digits, Option.bind_eq_bind, Option.bind_some, if_pos hn]

/-- A text that is read as an integer, and is no word, is a plain scalar for it. -/
theorem readPlain_of_integerOfText? {x : Found} (hc : c = '-' ∨ c.isDigit = true)
    (hfirst : s.toList.head? = some c) (hx : integerOfText? s = some x) : readPlain s = x := by
  have hne {w : String} (hw : ∀ d, w.toList.head? = some d → d ≠ '-' ∧ d.isDigit = false) : s ≠ w := by
    rintro rfl
    obtain ⟨hsign, hdigit⟩ := hw c hfirst
    rcases hc with rfl | hc
    · exact hsign rfl
    · exact absurd hc (by rw [hdigit]; exact Bool.false_ne_true)
  have hempty : s.isEmpty = false := by
    have := @hne "" nofun
    simpa using this
  have hword {w : String} {d : Char} (hw : w.toList.head? = some d) (hd : d ≠ '-' ∧ d.isDigit = false) :
      s ≠ w := hne fun d' h => by
    rw [hw] at h
    exact Option.some.inj h ▸ hd
  have hnull : isNullText s = false := by
    simp [isNullText, hword (w := "null") rfl (by decide), hword (w := "Null") rfl (by decide),
      hword (w := "NULL") rfl (by decide), hword (w := "~") rfl (by decide)]
  have hbool : boolOfText? s = none := by
    simp [boolOfText?, hword (w := "true") rfl (by decide), hword (w := "True") rfl (by decide),
      hword (w := "TRUE") rfl (by decide), hword (w := "false") rfl (by decide),
      hword (w := "False") rfl (by decide), hword (w := "FALSE") rfl (by decide)]
  rw [readPlain, hempty, hnull, Bool.or_self, if_neg Bool.false_ne_true, hbool]
  simp only [hx]

/-- An integer that fits in 64 bits, with or without a sign, is read back from its text. -/
theorem readPlain_integer {n : Int} (hlow : -(2 ^ 63) ≤ n) (hhigh : n < 2 ^ 64) :
    readPlain (toString n) = .integer n := by
  have htext := toList_toString_int n
  by_cases hn : n < 0
  · rw [if_pos hn] at htext
    -- The powers are written out, since the arithmetic does not evaluate them.
    have habs : n.natAbs ≤ Nat.pow 2 63 := by
      show n.natAbs ≤ 9223372036854775808
      omega
    rw [readPlain_of_integerOfText? (.inl rfl) (by rw [htext]; rfl) (integerOfText?_sign htext habs)]
    congr
    omega
  · rw [if_neg hn] at htext
    have habs : n.natAbs < Nat.pow 2 64 := by
      show n.natAbs < 18446744073709551616
      omega
    obtain ⟨d, rest, hdigits⟩ := List.exists_cons_of_ne_nil (@Nat.toDigits_ne_nil n.natAbs 10)
    have hd : d.isDigit = true :=
      isDigit_of_mem_digits (n := n.natAbs) (by rw [hdigits]; exact List.mem_cons_self)
    rw [readPlain_of_integerOfText? (.inr hd) (by rw [htext, hdigits]; rfl)
      (integerOfText?_digits htext habs)]
    congr
    omega

end Yaml

end ProviderAssets
