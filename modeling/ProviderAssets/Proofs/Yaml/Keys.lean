import ProviderAssets.Proofs.Yaml.Scalars
import Mathlib.Data.String.Basic

/-!
# Keys

A short key of one line stands on the line of its value, so that the lexer finds out only at the
colon that it was a key. Any other key has an indicator in front.
-/

namespace ProviderAssets.Yaml

open Cursor (before)

namespace Lexer

variable {l : Lexer} {m : Mark} {c : Char} {cs : List Char} {s : String} {ins ins' : List Nat}
variable {ts new : List Token} {indent : Nat}

/-- Only a text with a line feed is written as a literal block. -/
theorem mem_of_style_literal (h : Printer.style s = .literal) : '\n' ∈ s.toList := by
  rcases preferredStyle_cases s with ⟨hfeed, -⟩ | ⟨-, hstyle | ⟨hstyle, -⟩⟩
  · exact hfeed
  all_goals
    unfold Printer.style at h
    split at h
    · cases h
    · rw [hstyle] at h
      simp only at h
      repeat' split at h
      all_goals cases h

/-- A spelling is not empty. -/
theorem spelled_ne_nil {st : ScalarStyle} (hfit : Fits s st) (indent : Nat) :
    spelled indent s st ≠ [] := by
  cases st with
  | folded => exact hfit.elim
  | plain => exact hfit.1
  | singleQuoted | doubleQuoted | literal => exact List.cons_ne_nil _ _

/-- A text has no more characters than bytes. -/
theorem length_le_utf8ByteSize (s : String) : s.toList.length ≤ s.utf8ByteSize := by
  rw [← String.utf8Len_toList]
  generalize s.toList = cs
  induction cs with
  | nil => exact Nat.zero_le _
  | cons c cs ih =>
    have := c.utf8Size_pos
    simp only [List.length_cons, String.utf8Len_cons]
    omega

/-- What is written for each character is on one line, and short. -/
theorem flatMap_of_line {f : Char → List Char} (hs : ∀ c ∈ cs, isBreak c = false)
    (hf : ∀ c, isBreak c = false → (∀ d ∈ f c, isBreak d = false) ∧ (f c).length ≤ 6) :
    (∀ c ∈ cs.flatMap f, isBreak c = false) ∧ (cs.flatMap f).length ≤ 6 * cs.length := by
  induction cs with
  | nil => exact ⟨nofun, Nat.le_refl _⟩
  | cons c cs ih =>
    obtain ⟨hc, hcs⟩ := List.forall_mem_cons.1 hs
    obtain ⟨hline, hlength⟩ := ih hcs
    obtain ⟨hline', hlength'⟩ := hf c hc
    rw [List.flatMap_cons]
    refine ⟨fun d hd => (List.mem_append.1 hd).elim (hline' d) (hline d), ?_⟩
    rw [List.length_append, List.length_cons]
    omega

/-- A text of one line is spelled on one line, with at most six characters for each of its own and
two quotes. -/
theorem spelled_of_line {st : ScalarStyle} (hfit : Fits s st) (hst : st ≠ .literal)
    (hs : ∀ c ∈ s.toList, isBreak c = false) (indent : Nat) :
    (∀ c ∈ spelled indent s st, isBreak c = false) ∧
      (spelled indent s st).length ≤ 6 * s.toList.length + 2 := by
  have hquotes {quote : Char} (hquote : isBreak quote = false) {body : List Char}
      (hbody : (∀ c ∈ body, isBreak c = false) ∧ body.length ≤ 6 * s.toList.length) :
      (∀ c ∈ quote :: body ++ [quote], isBreak c = false) ∧
        (quote :: body ++ [quote]).length ≤ 6 * s.toList.length + 2 := by
    refine ⟨fun c hc => ?_, by simpa using hbody.2⟩
    simp only [List.cons_append, List.mem_cons, List.mem_append, List.not_mem_nil, or_false] at hc
    rcases hc with rfl | hc | rfl
    · exact hquote
    · exact hbody.1 c hc
    · exact hquote
  cases st with
  | folded => exact hfit.elim
  | literal => exact absurd rfl hst
  | plain => exact ⟨hs, by rw [spelled]; omega⟩
  | singleQuoted =>
    -- On one line no indentation is written between the quotes.
    have hbody : Printer.singleQuotedChars indent false s.toList = s.toList.flatMap singleSpelling := by
      simpa [Printer.singleQuotedChars] using singleQuotedChars_append indent hs []
    rw [spelled, Printer.singleQuoted, hbody]
    refine hquotes rfl (flatMap_of_line hs fun c hc => ?_)
    unfold singleSpelling
    split <;> simp [hc]
  | doubleQuoted =>
    refine hquotes rfl (flatMap_of_line (f := doubleSpelling) hs fun c hc =>
      ⟨fun d hd => ?_, length_doubleSpelling c⟩)
    by_cases hspace : c = ' '
    · rw [hspace, show doubleSpelling ' ' = [' '] by decide, List.mem_singleton] at hd
      rw [hd]
      rfl
    · exact isBreak_of_solid ((spells_doubleSpelling hspace).solid d hd)

/-- Such a key is not written as a block. -/
theorem style_ne_literal {key : String} (hkey : Printer.isSimpleKey key = true) :
    Printer.style key ≠ .literal := by
  obtain ⟨hbreaks, -⟩ : (∀ c ∈ key.toList, isBreak c = false) ∧ key.utf8ByteSize ≤ 128 := by
    simpa [Printer.isSimpleKey] using hkey
  exact fun h => absurd (hbreaks _ (mem_of_style_literal h)) (by decide)

/-- The text of a key on the line of its value is read as a scalar that may be a key. -/
theorem dispatch_key {key : String} (hkey : Printer.isSimpleKey key = true) (hc : isBlankOrEnd c = true)
    (hins : ∀ d ∈ ins.head?, d ≤ m.column) (xs : List Lexeme) :
    ∃ x : Lexeme, x.token = .scalar key (Printer.style key) ∧
      dispatch false (before (spelled (indent + 2) key (Printer.style key) ++ ':' :: c :: cs) m)
        (stand (spelled (indent + 2) key (Printer.style key) ++ ':' :: c :: cs) m xs ins none true) =
        .ok ((), stand (':' :: c :: cs) (m.after (spelled (indent + 2) key (Printer.style key)))
          (x :: xs) ins (keyAt true xs ins m) false) := by
  have hfit := fits_style key
  have hst := style_ne_literal hkey
  revert hfit hst
  cases hstyle : Printer.style key with
  | folded => exact fun hfit => hfit.elim
  | literal => exact fun _ hst => absurd rfl hst
  | plain =>
    intro hfit _
    have hcolon : Scan.EndsPlain (floorOf ins) (':' :: c :: cs) [] false :=
      .here (.inr ⟨c :: cs, rfl, hc⟩)
    simpa [spelled] using dispatch_plain (a := true) hfit hcolon hins
  | singleQuoted => exact fun hfit _ => dispatch_quoted _ _ _ _ .single hfit (by simp) (indent + 1)
  | doubleQuoted => exact fun hfit _ => dispatch_quoted _ _ _ _ .double hfit (by simp) (indent + 1)

/-- A key on the line of its value is read, with the colon after it. -/
theorem Ready.simpleKey {key : String} (hkey : Printer.isSimpleKey key = true)
    (h : Ready l (Printer.string (indent + 2) key ++ ':' :: c :: cs) m ts ins true)
    (hc : isBlankOrEnd c = true) (hopen : Opens .blockMappingStart m.column ins ins' new) :
    ∃ l' m', Reaches l l' ∧ m.column < m'.column ∧
      At l' (c :: cs) m' (ts ++ (new ++ [.key, .scalar key (Printer.style key), .value])) ins' false := by
  obtain ⟨hbreaks, hbytes⟩ : (∀ c ∈ key.toList, isBreak c = false) ∧ key.utf8ByteSize ≤ 128 := by
    simpa [Printer.isSimpleKey] using hkey
  obtain ⟨hline, hlength⟩ :=
    spelled_of_line (fits_style key) (style_ne_literal hkey) hbreaks (indent + 2)
  have hchars : key.toList.length ≤ key.utf8ByteSize := length_le_utf8ByteSize key
  obtain ⟨w, hw⟩ : ∃ w, w = spelled (indent + 2) key (Printer.style key) := ⟨_, rfl⟩
  -- The colon stands on the line of the key, near enough to it.
  have hmark : m.after w = m.advance w.length := Mark.after_of_line (hw ▸ hline)
  have hindex : (m.after w).index ≤ m.index + 1024 := by
    rw [hmark]
    show m.index + w.length ≤ _
    rw [hw]
    omega
  have hkept : m.line = (m.after w).line := by
    rw [hmark]
    rfl
  have hcolumn : m.column ≤ (m.after w).column := by
    rw [hmark]
    exact Nat.le_add_right _ _
  have hnext : ((m.after w).after [':']).column = (m.after w).column + 1 :=
    Mark.column_after_one _ rfl
  rw [string_eq, ← hw] at h
  obtain ⟨l₁, hreach, x, xs, hx, hxs, rfl⟩ := h.round
    (P := fun l₁ => ∃ (x : Lexeme) (xs : List Lexeme), x.token = .scalar key (Printer.style key) ∧
      lexed xs = ts ∧ l₁ = stand (':' :: c :: cs) (m.after w) (x :: xs) ins (keyAt true xs ins m) false)
    fun xs hxs => by
      obtain ⟨x, hx, hdispatch⟩ := @dispatch_key m c cs ins indent key hkey hc hopen.head_le xs
      rw [← hw] at hdispatch
      refine ⟨_, ⟨x, xs, hx, hxs, rfl⟩, ?_,
        (bind_of hdispatch _).trans (checkKeys_stand (checkKey_keyAt hkept hindex))⟩
      rw [stand_cursor, Cursor.before_rest, List.length_append]
      have : 0 < w.length := List.length_pos_iff.2 (hw ▸ spelled_ne_nil (fits_style key) _)
      omega
  obtain ⟨l₂, hreach', hat⟩ := reaches_colon (x := x) hc hkept hindex hcolumn hopen
  rw [hxs, hx] at hat
  exact ⟨l₂, _, hreach.trans hreach', by omega, hat⟩

/-- A key on lines of its own is read, with the colon of its value. -/
theorem Ready.complexKey {key : String}
    (h : Ready l ('?' :: (Printer.endLine (' ' :: Printer.string (indent + 2) key) ++
      (Printer.spaces indent ++ ':' :: ' ' :: cs))) m ts ins true)
    (hm : m.column = indent) (hopen : Opens .blockMappingStart indent ins (indent :: ins') new) :
    ∃ l' m', Reaches l l' ∧ m'.column = indent + 1 ∧
      At l' (' ' :: cs) m' (ts ++ (new ++ [.key, .scalar key (Printer.style key), .value]))
        (indent :: ins') true := by
  obtain ⟨t, ht⟩ : ∃ t, Printer.endLine (' ' :: Printer.string (indent + 2) key) = ' ' :: t := by
    unfold Printer.endLine
    split
    · split
      · exact ⟨_, rfl⟩
      · exact ⟨_, rfl⟩
    · rename_i h
      exact absurd (List.getLast?_eq_none_iff.1 h) (List.cons_ne_nil _ _)
  have hcontent : Content (':' :: ' ' :: cs) := by
    intro b hb
    rw [← Option.some.inj hb]
    decide
  rw [ht] at h
  obtain ⟨l₁, hreach₁, hat₁⟩ := h.explicitKey (by rw [hm]; exact hopen)
  have hcolumn₁ : (m.after ['?']).column = indent + 1 := by
    rw [Mark.column_after_one _ rfl, hm]
  have hat₁ : At l₁ (Printer.endLine (' ' :: spelled (indent + 2) key (Printer.style key)) ++
      (Printer.spaces indent ++ ':' :: ' ' :: cs)) (m.after ['?']) (ts ++ (new ++ [.key]))
      (indent :: ins') true := by
    rw [← string_eq, ht, ← hm]
    rwa [← hm] at hat₁
  obtain ⟨l₂, m₂, hreach₂, harrives, hcolumn₂⟩ := At.scalar (e := .kept) (fits_style key)
    hat₁ (by omega) (Nat.le_refl _) ⟨hcontent, nofun⟩
  rw [Ending.text_kept (fits_style key)] at harrives
  -- The text of the key ends in a line break, so the colon stands at the indentation again.
  have hcolumn₂ := hcolumn₂ (List.cons_ne_nil _ _)
  obtain ⟨l₃, hreach₃, hat₃⟩ :=
    (harrives.ready (List.cons_ne_nil _ _) hcolumn₂).explicitValue hcolumn₂
  refine ⟨l₃, _, hreach₁.trans (hreach₂.trans hreach₃), ?_, by simpa using hat₃⟩
  rw [Mark.column_after_one _ rfl, hcolumn₂]

end Lexer

end ProviderAssets.Yaml
