import ProviderAssets.Proofs.Yaml.Indicators

/-!
# Leaves

The printer writes a text in a style that it fits (`fits_style`), and what is read of the spelling in that
style is the text again (`readScalar_style`). For each style the lexer knows the spelling by its first
character, so that one of `Lexer.dispatch_plain`, `Lexer.dispatch_quoted` and `Lexer.dispatch_block` says
what token becomes of it.
-/

namespace ProviderAssets.Yaml

open Cursor (before)

variable {m m' : Mark} {c d : Char} {cs ds ws : List Char}

/-! ## Spellings -/

/-- Whether a spelling reads back as the text. -/
def Fits (s : String) : ScalarStyle → Prop
  | .plain => s.toList ≠ [] ∧ (Printer.features s.toList).plainAllowed = true
  | .singleQuoted => IsSingleText s.toList
  | .doubleQuoted => True
  | .literal => s.toList ≠ [] ∧ ∀ c ∈ s.toList, Printer.isShown c = true
  | .folded => False

/-- A text in the given spelling, whose further lines begin at `indent`. -/
def spelled (indent : Nat) (s : String) : ScalarStyle → List Char
  | .plain => s.toList
  | .doubleQuoted => Printer.doubleQuoted s.toList
  | .literal | .folded => Printer.literal indent s.toList
  | .singleQuoted => Printer.singleQuoted indent s.toList

/-- A text is written in its style. -/
theorem string_eq (indent : Nat) (s : String) :
    Printer.string indent s = spelled indent s (Printer.style s) := rfl

/-- Shown characters may stand in a literal block. -/
theorem isLiteralChar_of_isShown (h : Printer.isShown c = true) : IsLiteralChar c := by
  refine ⟨by rintro rfl; revert h; decide, by rintro rfl; revert h; decide, fun hbreak => ?_⟩
  simp only [isBreak, Bool.or_eq_true, decide_eq_true_eq] at hbreak
  rcases hbreak with (((rfl | rfl) | rfl) | rfl) | rfl
  · exact .inl rfl
  · exact absurd h (by decide)
  · exact absurd h (by decide)
  · exact .inr (.inl rfl)
  · exact .inr (.inr rfl)

/-- A text that spells an integer stands for no text. -/
theorem integerOfText?_ne_string (s t : String) : integerOfText? s ≠ some (.string t) := by
  unfold integerOfText?
  split <;>
  · intro h
    simp only [bind, Option.bind_eq_some_iff] at h
    obtain ⟨n, -, h⟩ := h
    split at h
    · cases h
    · split at h <;> cases h

/-- A plain scalar that stands for a text stands for itself. -/
theorem eq_of_readPlain {s t : String} (h : readPlain s = .string t) : t = s := by
  unfold readPlain at h
  split at h
  · cases h
  · split at h
    · cases h
    · split at h
      · rename_i n hn
        exact absurd (h ▸ hn) (integerOfText?_ne_string s t)
      · split at h
        · cases h
          rfl
        · split at h <;> cases h
          rfl

/-- Which spelling a text asks for. -/
theorem preferredStyle_cases (s : String) :
    '\n' ∈ s.toList ∧ Printer.preferredStyle s = .literal ∨
      '\n' ∉ s.toList ∧ (Printer.preferredStyle s = .singleQuoted ∨
        Printer.preferredStyle s = .plain ∧ readPlain s = .string s) := by
  unfold Printer.preferredStyle
  by_cases hfeed : s.toList.contains '\n' = true
  · rw [if_pos hfeed]
    exact .inl ⟨List.contains_iff_mem.1 hfeed, rfl⟩
  · rw [if_neg hfeed]
    refine .inr ⟨fun h => hfeed (List.contains_iff_mem.2 h), ?_⟩
    split
    · rename_i t ht
      split
      · exact .inl rfl
      · exact .inr ⟨rfl, eq_of_readPlain ht ▸ ht⟩
    · exact .inl rfl

/-- A text is written plainly only if it is read back. -/
theorem readPlain_of_style_plain {s : String} (h : Printer.style s = .plain) :
    readPlain s = .string s := by
  unfold Printer.style at h
  split at h
  · cases h
  · rcases preferredStyle_cases s with ⟨-, hstyle⟩ | ⟨-, hstyle | ⟨-, hread⟩⟩
    · rw [hstyle] at h
      simp only at h
      repeat' split at h
      all_goals cases h
    · rw [hstyle] at h
      simp only at h
      repeat' split at h
      all_goals cases h
    · exact hread

/-- A text is what its spelling stands for. -/
theorem readScalar_style (s : String) : readScalar none s (Printer.style s) = .ok (.string s) := by
  have hread : readScalar none s (Printer.style s) =
      .ok (if Printer.style s = .plain then readPlain s else .string s) := rfl
  rw [hread]
  split
  · rw [readPlain_of_style_plain ‹_›]
  · rfl

/-- The style of a text fits it. -/
theorem fits_style (s : String) : Fits s (Printer.style s) := by
  have hempty (h : s.isEmpty = true) : s = "" := by simpa using h
  have hquoted (hfeed : '\n' ∉ s.toList) :
      Fits s (if (Printer.features s.toList).singleAllowed then .singleQuoted else .doubleQuoted) := by
    split
    · rename_i h
      simp only [Printer.features, Bool.not_eq_true', Bool.or_eq_false_iff] at h
      obtain ⟨⟨hspace, hshown⟩, hbreak⟩ := h
      rw [Bool.not_eq_false'] at hshown
      exact ⟨List.all_eq_true.1 hshown, hfeed, hspace, hbreak⟩
    · trivial
  unfold Printer.style
  split
  · rename_i h
    rw [hempty h]
    exact ⟨(by simp), (by simp), rfl, rfl⟩
  · rename_i hne
    have hne : s.toList ≠ [] := by
      intro h
      exact hne (by simpa using h)
    -- The preferred style is given up where the features of the text do not allow it.
    rcases preferredStyle_cases s with ⟨-, hstyle⟩ | ⟨hfeed, hstyle | ⟨hstyle, -⟩⟩
    · simp only [hstyle]
      split
      · rename_i h
        simp only [Printer.features, Bool.not_eq_true', Bool.or_eq_false_iff] at h
        exact ⟨hne, List.all_eq_true.1 ((Bool.not_eq_false' _).mp h.1.2)⟩
      · trivial
    · simp only [hstyle]
      exact hquoted hfeed
    · simp only [hstyle]
      split
      · exact ⟨hne, ‹_›⟩
      · exact hquoted hfeed

namespace Lexer

variable {l l' : Lexer} {xs : List Lexeme} {ins ins' : List Nat} {k k' : Option SimpleKey} {a : Bool}
variable {ts new : List Token}

/-- Document indicators are three hyphens or three full stops. -/
theorem beginsDocument_iff :
    Printer.beginsDocument cs = true ↔ ∃ c u, (c = '-' ∨ c = '.') ∧ cs = c :: c :: c :: u := by
  constructor
  · intro h
    unfold Printer.beginsDocument at h
    split at h
    · exact ⟨'-', _, .inl rfl, rfl⟩
    · exact ⟨'.', _, .inr rfl, rfl⟩
    · cases h
  · rintro ⟨c, u, rfl | rfl, rfl⟩ <;> rfl

/-- A text is no document indicator because of what comes after it. -/
theorem beginsDocument_append (hne : cs ≠ []) (h : Printer.beginsDocument cs = false)
    (hds : ∀ c ∈ ds.head?, c ≠ '-' ∧ c ≠ '.') : Printer.beginsDocument (cs ++ ds) = false := by
  rw [Bool.eq_false_iff] at h ⊢
  rw [ne_eq, beginsDocument_iff] at h ⊢
  rintro ⟨c, u, hc, e⟩
  have hhead {v : List Char} (hv : ds = c :: v) : False := by
    obtain ⟨h₁, h₂⟩ := hds c (by rw [hv]; rfl)
    exact hc.elim h₁ h₂
  rcases List.append_eq_cons_iff.1 e with ⟨rfl, -⟩ | ⟨cs₁, rfl, e₁⟩
  · exact hne rfl
  · rcases List.append_eq_cons_iff.1 e₁.symm with ⟨rfl, e₂⟩ | ⟨cs₂, rfl, e₂⟩
    · exact hhead e₂
    · rcases List.append_eq_cons_iff.1 e₂.symm with ⟨rfl, e₃⟩ | ⟨cs₃, rfl, e₃⟩
      · exact hhead e₃
      · exact h ⟨c, cs₃, hc, rfl⟩

/-- No document indicator stands where a text does not begin like one. -/
theorem atDocumentIndicator_of_beginsDocument (h : Printer.beginsDocument cs = false) :
    (before cs m).atDocumentIndicator = false := by
  have hshape : (before cs m).atDocumentIndicator =
      (decide (m.column = 0) && Printer.beginsDocument cs && isBlankOrEnd ((before cs m).peek 3)) := rfl
  rw [hshape, h, Bool.and_false, Bool.false_and]

/-- What is no indicator before white space is none elsewhere. -/
theorem isLeadingIndicator_of_true (h : Printer.isLeadingIndicator c true = false) (b : Bool) :
    Printer.isLeadingIndicator c b = false := by
  simp only [Printer.isLeadingIndicator, Bool.or_eq_false_iff, Bool.and_true] at h ⊢
  obtain ⟨hmarks, ⟨hquestion, hcolon⟩, hhyphen⟩ := h
  exact ⟨hmarks, by rw [hquestion, hcolon, hhyphen]; rfl⟩

/-- A plain scalar is read up to what comes after it. -/
theorem dispatch_plain {s : String} {broken : Bool} (h : Fits s .plain)
    (hend : Scan.EndsPlain (floorOf ins) ds ws broken) (hins : ∀ c ∈ ins.head?, c ≤ m.column) :
    ∃ x : Lexeme, x.token = .scalar s .plain ∧
      dispatch false (before (s.toList ++ (ws ++ ds)) m)
          (stand (s.toList ++ (ws ++ ds)) m xs ins none a) =
        .ok ((), stand ds (m.after (s.toList ++ ws)) (x :: xs) ins (keyAt a xs ins m) broken) := by
  obtain ⟨hne, hallowed⟩ := h
  have htext : IsPlainText s.toList := isPlainText_of_plainAllowed hne hallowed
  have hfeatures := hallowed
  simp only [Printer.features, Bool.not_eq_true', Bool.or_eq_false_iff] at hfeatures
  obtain ⟨⟨⟨⟨⟨⟨hbegins, hlead⟩, -⟩, -⟩, -, -⟩, -⟩, -⟩ := hfeatures
  -- What follows cannot make a document indicator of the text.
  have hrest : ∀ c ∈ (ws ++ ds).head?, c ≠ '-' ∧ c ≠ '.' := by
    cases hend with
    | here h =>
      rcases h with rfl | ⟨rest, rfl, -⟩
      · exact by simp
      · intro c hc
        rw [← Option.some.inj hc]
        decide
    | line hn hds =>
      intro c hc
      rw [← Option.some.inj hc]
      decide
  have hdoc : (before (s.toList ++ (ws ++ ds)) m).atDocumentIndicator = false :=
    atDocumentIndicator_of_beginsDocument (beginsDocument_append hne hbegins hrest)
  have hfloor : floorOf ins ≤ m.column + 1 := by
    cases ins with
    | nil => exact Nat.zero_le _
    | cons c ins => exact Nat.succ_le_succ (hins c rfl)
  obtain ⟨stop, hscan⟩ := Scan.plainScalar_before htext hend m hfloor hdoc
  refine ⟨⟨.scalar (String.ofList s.toList) .plain, m, stop⟩, by simp, ?_⟩
  obtain ⟨c, cs, hcs, hsolid⟩ := htext.exists_cons
  have htoken : dispatch false (before (s.toList ++ (ws ++ ds)) m) = plainScalar := by
    rw [hcs, List.cons_append] at hdoc ⊢
    rw [hcs] at hlead
    have hend : c ≠ '\x00' := by rintro rfl; exact absurd hsolid (by decide)
    have hdirective : c ≠ '%' := by rintro rfl; exact absurd hlead (by simp [Printer.isLeadingIndicator])
    rw [dispatch_cons hend hdirective hdoc]
    refine readToken_plain hsolid ?_
    rcases cs with _ | ⟨d, cs⟩
    · exact isLeadingIndicator_of_true hlead _
    · exact hlead
  rw [htoken]
  exact plainScalar_stand hscan

/-- The styles of scalars between quotes, with their quotes. -/
inductive IsQuote : ScalarStyle → Char → Prop
  /-- Single quotes. -/
  | single : IsQuote .singleQuoted '\x27'
  /-- Double quotes. -/
  | double : IsQuote .doubleQuoted '"'

/-- A quoted scalar is read up to its closing quote. -/
theorem dispatch_quoted (xs : List Lexeme) (ins : List Nat) (a : Bool) (m : Mark) {s : String}
    {st : ScalarStyle} {quote : Char} (hquote : IsQuote st quote) (h : Fits s st) (hds : ds.head? ≠ some quote) (indent : Nat) :
    ∃ x : Lexeme, x.token = .scalar s st ∧
      dispatch false (before (spelled (indent + 1) s st ++ ds) m)
          (stand (spelled (indent + 1) s st ++ ds) m xs ins none a) =
        .ok ((), stand ds (m.after (spelled (indent + 1) s st)) (x :: xs) ins (keyAt a xs ins m)
          false) := by
  obtain ⟨body, hbody, htext⟩ : ∃ body, spelled (indent + 1) s st = quote :: body ++ [quote] ∧
      QuotedText quote body s.toList := by
    cases hquote with
    | single => exact ⟨_, rfl, quotedText_singleQuotedChars indent h⟩
    | double => exact ⟨_, rfl, quotedText_doubleSpelling s.toList⟩
  have hsolid : isBlankOrEnd quote = false := by cases hquote <;> rfl
  obtain ⟨stop, hscan⟩ := Scan.quotedScalar_before st hsolid htext hds m
  refine ⟨⟨.scalar (String.ofList s.toList) st, m, stop⟩, by simp, ?_⟩
  rw [hbody, List.append_assoc]
  have htoken : dispatch false (before (quote :: body ++ quote :: ds) m) =
      nodeStart (Scan.quotedScalar st) := by
    cases hquote <;>
    exact (dispatch_cons (by decide) (by decide)
      (atDocumentIndicator_cons (by decide) (absurd · (by decide)))).trans rfl
  show dispatch false (before (quote :: body ++ quote :: ds) m) _ = _
  rw [htoken]
  exact nodeStart_stand hscan

/-- A vertical bar begins a literal block. -/
theorem dispatch_bar (cs : List Char) (m : Mark) :
    dispatch false (before ('|' :: cs) m) = blockScalar true :=
  (dispatch_cons (by decide) (by decide)
    (atDocumentIndicator_cons (by decide) (absurd · (by decide)))).trans rfl

/-- A literal block is read with the indentation of the content that follows. -/
theorem dispatch_block {wide : Bool} {chomping : Scan.Chomping} {parent n : Nat} (hn : n ≤ parent)
    (hcs : ∀ c ∈ cs, IsLiteralChar c)
    (hwide : wide = false → ∃ c ∈ cs.head?, c ≠ ' ' ∧ isBreak c = false)
    (hclip : chomping = .clip → ∃ c ∈ cs, isBreak c = false)
    (hend : cs = [] ∨ (∃ c ∈ cs.getLast?, isBreak c = true) ∨ n = 0 ∧ ds = [])
    (hds : BeginsLine ds) (hspace : ds.head? ≠ some ' ') :
    ∃ x : Lexeme, x.token = .scalar (String.ofList (chomping.leaves cs)) .literal ∧
      dispatch false (before (Scan.block wide chomping (parent + 2) cs ++ (Printer.spaces n ++ ds)) m)
          (stand (Scan.block wide chomping (parent + 2) cs ++ (Printer.spaces n ++ ds)) m xs
            (parent :: ins) none a) =
        .ok ((), stand ds (m.after (Scan.block wide chomping (parent + 2) cs ++ Printer.spaces n))
          (x :: xs) (parent :: ins) none true) := by
  obtain ⟨stop, hscan⟩ := Scan.blockScalar_before (Nat.succ_pos parent) (Nat.le_succ_of_le hn) hcs
    hwide hclip hend hds hspace m
  refine ⟨⟨.scalar (String.ofList (chomping.leaves cs)) .literal, m, stop⟩, rfl, ?_⟩
  rw [Scan.block, List.cons_append, dispatch_bar]
  exact blockScalar_stand hscan

/-- A literal block whose text breaks off after its indicators is read as an empty text. -/
theorem dispatch_header (m : Mark) (xs : List Lexeme) (parent : Nat) (ins : List Nat) (a : Bool) :
    ∃ x : Lexeme, x.token = .scalar "" .literal ∧
      dispatch false (before ['|', '2', '+'] m) (stand ['|', '2', '+'] m xs (parent :: ins) none a) =
        .ok ((), stand [] (m.after ['|', '2', '+']) (x :: xs) (parent :: ins) none true) := by
  obtain ⟨stop, hscan⟩ := Scan.blockScalar_header (parent + 1) m
  refine ⟨⟨.scalar "" .literal, m, stop⟩, rfl, ?_⟩
  rw [dispatch_bar]
  exact blockScalar_stand hscan

end Lexer

end ProviderAssets.Yaml
