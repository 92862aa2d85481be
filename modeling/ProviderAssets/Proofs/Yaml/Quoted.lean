import ProviderAssets.Proofs.Yaml.Gap
import Mathlib.Data.List.Forall2

/-!
# Quoted scalars

A scalar between quotes is read word by word: the characters of a word are spelled by themselves, by
a quote written twice or by an escape, and the gaps between words are folded. What the printer
writes between quotes is such a text, and is read as the text that was meant.
-/

namespace ProviderAssets.Yaml

open Cursor (before)

variable {m : Mark} {c quote : Char} {cs ds ws : List Char}

/-! ## Characters of a word -/

/-- The spelling `w` stands for the character `c` in a word of a scalar between quotes. -/
structure Spells (quote : Char) (w : List Char) (c : Char) : Prop where
  /-- There is something to it. -/
  ne_nil : w ≠ []
  /-- It holds no white space. -/
  solid : ∀ d ∈ w, isBlankOrEnd d = false
  /-- A scan adds the character to the word and goes on after the spelling. -/
  reads : ∀ (start : Mark) (fuel : Nat) (text ds : List Char) (m : Mark),
    Scan.quotedWord start quote (fuel + 1) text (before (w ++ ds) m) =
      Scan.quotedWord start quote fuel (c :: text) (before ds (m.after w))

/-- A character that is neither white space nor special is spelled by itself. -/
theorem spells_self (hc : isBlankOrEnd c = false) (hquote : c ≠ quote)
    (hback : quote = '"' → c ≠ '\\') : Spells quote [c] c where
  ne_nil := List.cons_ne_nil _ _
  solid := by simpa using hc
  reads start fuel text ds m := by
    have hescape : (decide (quote = '"') && decide (c = '\\')) = false := by
      simpa using hback
    rw [Scan.quotedWord, Scan.peek_bind, Scan.peek_bind, List.singleton_append,
      Cursor.peek_zero_cons, hc, if_neg Bool.false_ne_true, if_neg hquote, hescape,
      if_neg Bool.false_ne_true, Scan.skip_bind, Cursor.skip_one_before (isBreak_of_solid hc)]

/-- A single quote is spelled by two. -/
theorem spells_singleQuote : Spells '\x27' ['\x27', '\x27'] '\x27' where
  ne_nil := List.cons_ne_nil _ _
  solid := by simp; decide
  reads start fuel text ds m := by
    have hskip : (before (['\x27', '\x27'] ++ ds) m).skip 2 = before ds (m.after ['\x27', '\x27']) :=
      Cursor.skip_before (by simp; decide)
    show Scan.quotedWord start '\x27' fuel ('\x27' :: text) _ = _
    exact congrArg _ hskip

/-! ## Escapes -/

/-- An escape of a character. -/
inductive IsEscape (c : Char) : List Char → Prop
  /-- A letter that stands for the character. -/
  | letter {l : Char} (hsolid : isBlankOrEnd l = false) (hl : Scan.escapeChar? l = some c) :
    IsEscape c ['\\', l]
  /-- A letter that says how many digits there are, and the digits of the code of the character. -/
  | code {l : Char} {digits : List Char} (hsolid : ∀ d ∈ l :: digits, isBlankOrEnd d = false)
    (hl : Scan.escapeChar? l = none) (hwidth : Scan.escapeWidth l = digits.length)
    (hne : digits ≠ [])
    (hvalue : (digits.mapM Scan.hexValue?).map (fun v => (v.length, v.foldl (16 * · + ·) 0)) =
      some (digits.length, c.toNat)) : IsEscape c ('\\' :: l :: digits)

namespace Scan

/-- An escape is read as its character. -/
theorem escape_before (start : Mark) (h : IsEscape c ws) (ds : List Char) (m : Mark) :
    escape start (before (ws ++ ds) m) = .ok (c, before ds (m.after ws)) := by
  cases h with
  | @letter l hsolid hl =>
    have hskip : (before ('\\' :: l :: ds) m).skip 2 = before ds (m.after ['\\', l]) :=
      Cursor.skip_before (show ∀ d ∈ ['\\', l], isBreak d = false by
        simp [isBreak_of_solid hsolid]; decide)
    show (peek 1 >>= _) (before ('\\' :: l :: ds) m) = _
    have hpeek : (before ('\\' :: l :: ds) m).peek 1 = l := rfl
    rw [peek_bind, hpeek, hl]
    show (skip 2 >>= fun _ => pure c) _ = _
    rw [skip_bind, hskip]
    rfl
  | @code l digits hsolid hl hwidth hne hvalue =>
    obtain ⟨values, hdigits, hvalue⟩ := Option.map_eq_some_iff.1 hvalue
    obtain ⟨hlength, hvalue⟩ := Prod.mk.inj hvalue
    have hskip : (before ('\\' :: l :: (digits ++ ds)) m).skip 2 =
        before (digits ++ ds) (m.after ['\\', l]) :=
      Cursor.skip_before (show ∀ d ∈ ['\\', l], isBreak d = false by
        simp [isBreak_of_solid (hsolid l List.mem_cons_self)]; decide)
    have hpeek : (before ('\\' :: l :: (digits ++ ds)) m).peek 1 = l := rfl
    -- There is a digit, so the letter is one that digits follow.
    obtain ⟨n, hn⟩ : ∃ n, escapeWidth l = n + 1 :=
      ⟨digits.length - 1, by have := List.length_pos_iff.2 hne; omega⟩
    rw [escape, List.cons_append, List.cons_append, peek_bind, hpeek, hl, hn]
    show (skip 2 >>= _) _ = _
    rw [skip_bind, hskip, get_bind, Cursor.before_rest, ← hn, hwidth, List.take_left, hdigits]
    have hline : ∀ d ∈ digits, isBreak d = false := fun d hd =>
      isBreak_of_solid (hsolid d (List.mem_cons_of_mem _ hd))
    dsimp only
    rw [if_neg (by omega), hvalue, dif_pos (show c.toNat.isValidChar from c.valid), skip_bind, Cursor.skip_before hline]
    rfl

end Scan

/-- An escape spells its character between double quotes. -/
theorem spells_escape (h : IsEscape c ws) : Spells '"' ws c where
  ne_nil := by cases h <;> exact List.cons_ne_nil _ _
  solid := by
    cases h with
    | letter hsolid hl =>
      intro d hd
      rcases List.mem_cons.1 hd with rfl | hd
      · rfl
      · rwa [List.mem_singleton.1 hd]
    | code hsolid =>
      intro d hd
      rcases List.mem_cons.1 hd with rfl | hd
      · rfl
      · exact hsolid d hd
  reads start fuel text ds m := by
    have hescape := Scan.escape_before start h ds m
    obtain ⟨l, rest, rfl, hl⟩ : ∃ l rest, ws = '\\' :: l :: rest ∧ isBreak l = false := by
      cases h with
      | letter hsolid => exact ⟨_, _, rfl, isBreak_of_solid hsolid⟩
      | code hsolid => exact ⟨_, _, rfl, isBreak_of_solid (hsolid _ List.mem_cons_self)⟩
    have hpeek : (before ('\\' :: l :: rest ++ ds) m).peek 1 = l := rfl
    rw [Scan.quotedWord, Scan.peek_bind, Scan.peek_bind, hpeek, hl]
    show (Scan.escape start >>= fun e => Scan.quotedWord start '"' fuel (e :: text)) _ = _
    rw [Scan.bind_of hescape]

/-- Whether the printer's escape of a character is one. -/
def escapeReads (c : Char) : Bool :=
  match Printer.escaped c with
  | ['\\', l] => !isBlankOrEnd l && Scan.escapeChar? l = some c
  | '\\' :: l :: digits =>
    (l :: digits).all (!isBlankOrEnd ·) && Scan.escapeChar? l = none &&
      Scan.escapeWidth l = digits.length &&
      (digits.mapM Scan.hexValue?).map (fun v => (v.length, v.foldl (16 * · + ·) 0)) =
        some (digits.length, c.toNat)
  | _ => false

/-- What passes this check is an escape of the character. -/
theorem isEscape_of_escapeReads (h : escapeReads c = true) : IsEscape c (Printer.escaped c) := by
  unfold escapeReads at h
  split at h
  · rename_i l hw
    rw [Bool.and_eq_true, Bool.not_eq_true', decide_eq_true_eq] at h
    rw [hw]
    exact .letter h.1 h.2
  · rename_i l digits hne hw
    simp only [Bool.and_eq_true, decide_eq_true_eq] at h
    obtain ⟨⟨⟨hsolid, hl⟩, hwidth⟩, hvalue⟩ := h
    rw [hw]
    refine .code (by simpa using hsolid) hl hwidth ?_ hvalue
    rintro rfl
    exact hne rfl
  · cases h

/-- The characters that the printer escapes are few. -/
theorem toNat_of_special (h : Printer.isShown c = false ∨ isBreak c = true ∨ c = '"' ∨ c = '\\') :
    c.toNat < 160 ∨ c.toNat ∈ [0x2028, 0x2029, 0xFEFF, 0xFFFE, 0xFFFF] := by
  rcases h with h | h | rfl | rfl
  · simp only [Printer.isShown, Bool.or_eq_false_iff, Bool.and_eq_false_imp, decide_eq_true_eq,
      decide_eq_false_iff_not, Bool.and_eq_true, not_not, and_imp] at h
    simp only [List.mem_cons, List.not_mem_nil, or_false]
    omega
  · simp only [isBreak, Bool.or_eq_true, decide_eq_true_eq] at h
    rcases h with (((rfl | rfl) | rfl) | rfl) | rfl <;> decide
  · decide
  · decide

/-- What the printer escapes is read as it was. -/
theorem isEscape_escaped (h : Printer.isShown c = false ∨ isBreak c = true ∨ c = '"' ∨ c = '\\') :
    IsEscape c (Printer.escaped c) := by
  have small : ∀ n < 160, escapeReads (Char.ofNat n) = true := by decide +kernel
  have others : ∀ n ∈ [0x2028, 0x2029, 0xFEFF, 0xFFFE, 0xFFFF], escapeReads (Char.ofNat n) = true := by
    decide +kernel
  apply isEscape_of_escapeReads
  rw [← Char.ofNat_toNat c]
  rcases toNat_of_special h with h | h
  · exact small _ h
  · exact others _ h

/-- An escape has at most six characters, which are shown. -/
theorem length_escaped (h : Printer.isShown c = false ∨ isBreak c = true ∨ c = '"' ∨ c = '\\') :
    (Printer.escaped c).length ≤ 6 ∧ (Printer.escaped c).all Printer.isShown = true := by
  have small : ∀ n < 160, (Printer.escaped (Char.ofNat n)).length ≤ 6 ∧
      (Printer.escaped (Char.ofNat n)).all Printer.isShown = true := by decide +kernel
  have others : ∀ n ∈ [0x2028, 0x2029, 0xFEFF, 0xFFFE, 0xFFFF],
      (Printer.escaped (Char.ofNat n)).length ≤ 6 ∧
        (Printer.escaped (Char.ofNat n)).all Printer.isShown = true := by decide +kernel
  rw [← Char.ofNat_toNat c]
  rcases toNat_of_special h with h | h
  · exact small _ h
  · exact others _ h

/-! ## Words and gaps -/

/-- What a word of a quoted scalar ends before: white space, or the closing quote, which is not
followed by another one. -/
def EndsQuotedWord (quote : Char) (cs : List Char) : Prop :=
  (∃ c ∈ cs.head?, isBlankOrEnd c = true) ∨ ∃ rest, cs = quote :: rest ∧ rest.head? ≠ some quote

/-- The white space between two words, with what it stands for. -/
structure IsQuotedGap (gap meaning : List Char) : Prop where
  /-- It is made of white space that folding knows. -/
  chars : ∀ c ∈ gap, IsGapChar c
  /-- It ends in a space. -/
  last : ∃ u, gap = u ++ [' ']
  /-- Folded, it is what it stands for. -/
  text : (({} : Gap).pass gap).text = meaning

/-- A text between quotes, as it is written and as it is meant: words with gaps between them. -/
inductive QuotedText (quote : Char) : List Char → List Char → Prop
  /-- One word, or none. -/
  | word {pieces : List (List Char)} {cs : List Char} (h : List.Forall₂ (Spells quote) pieces cs) :
    QuotedText quote pieces.flatten cs
  /-- A word, a gap, and such a text that begins with a word. -/
  | more {pieces : List (List Char)} {cs gap meaning ws ds : List Char}
    (h : List.Forall₂ (Spells quote) pieces cs) (hgap : IsQuotedGap gap meaning)
    (hws : BeginsWord ws) (hrest : QuotedText quote ws ds) :
    QuotedText quote (pieces.flatten ++ (gap ++ ws)) (cs ++ (meaning ++ ds))

/-- A word holds no white space. -/
theorem solid_of_spells {pieces : List (List Char)} (h : List.Forall₂ (Spells quote) pieces cs) :
    ∀ d ∈ pieces.flatten, isBlankOrEnd d = false := by
  induction h with
  | nil => exact nofun
  | cons hw h ih =>
    intro d hd
    rw [List.flatten_cons] at hd
    rcases List.mem_append.1 hd with hd | hd
    · exact hw.solid d hd
    · exact ih d hd

/-- A word is written with at least as many characters as it has. -/
theorem length_le_of_spells {pieces : List (List Char)}
    (h : List.Forall₂ (Spells quote) pieces cs) : cs.length ≤ pieces.flatten.length := by
  induction h with
  | nil => exact Nat.le_refl _
  | cons hw h ih =>
    have := List.length_pos_iff.2 hw.ne_nil
    rw [List.flatten_cons, List.length_append, List.length_cons]
    omega

namespace Scan

/-- A word ends where nothing more of it follows. -/
theorem quotedWord_end (start : Mark) (hquote : isBlankOrEnd quote = false)
    (hds : EndsQuotedWord quote ds) (fuel : Nat) (text : List Char) :
    quotedWord start quote fuel text (before ds m) = .ok ((text, false), before ds m) := by
  cases fuel with
  | zero => rfl
  | succ fuel =>
    rcases hds with ⟨c, hc, hblank⟩ | ⟨rest, rfl, hnext⟩
    · obtain ⟨rest, rfl⟩ : ∃ rest, ds = c :: rest := List.head?_eq_some_iff.1 hc
      rw [quotedWord, peek_bind, peek_bind, Cursor.peek_zero_cons, hblank]
      rfl
    · have htwice : (decide (quote = '\x27') && decide ((before (quote :: rest) m).peek 1 = quote)) =
          false := by
        cases rest with
        | nil =>
          have : decide ('\x00' = quote) = false := decide_eq_false (by rintro rfl; cases hquote)
          rw [Cursor.peek_succ_before 0, Cursor.peek_zero_before]
          exact (congrArg _ this).trans (Bool.and_false _)
        | cons d rest =>
          have : d ≠ quote := fun e => hnext (congrArg some e)
          rw [Cursor.peek_succ_before 0, Cursor.peek_zero_cons, decide_eq_false this, Bool.and_false]
      rw [quotedWord, peek_bind, peek_bind, Cursor.peek_zero_cons, hquote, if_neg Bool.false_ne_true,
        if_pos rfl, htwice]
      rfl

/-- The characters of a word are read one after the other. -/
theorem quotedWord_before (start : Mark) (hquote : isBlankOrEnd quote = false)
    {pieces : List (List Char)} (h : List.Forall₂ (Spells quote) pieces cs)
    (hds : EndsQuotedWord quote ds) {fuel : Nat} (hfuel : cs.length ≤ fuel) (text : List Char)
    (m : Mark) :
    quotedWord start quote fuel text (before (pieces.flatten ++ ds) m) =
      .ok ((cs.reverse ++ text, false), before ds (m.after pieces.flatten)) := by
  induction h generalizing fuel text m with
  | nil => exact quotedWord_end start hquote hds fuel text
  | @cons w c pieces cs hw h ih =>
    obtain ⟨fuel, rfl⟩ : ∃ n, fuel = n + 1 := ⟨fuel - 1, by simp at hfuel; omega⟩
    rw [List.flatten_cons, List.append_assoc, hw.reads, ih (by simpa using hfuel), Mark.after_append,
      List.reverse_cons, List.append_assoc]
    rfl

/-- A word is read, and then what comes after it. -/
theorem quotedWords_word (start : Mark) (hquote : isBlankOrEnd quote = false)
    {pieces : List (List Char)} (h : List.Forall₂ (Spells quote) pieces cs)
    (hds : EndsQuotedWord quote (c :: ds)) (hc : c ≠ '\x00') (fuel : Nat) (text : List Char)
    (m : Mark) (hm : 0 < m.column) :
    quotedWords start quote (fuel + 1) text (before (pieces.flatten ++ c :: ds) m) =
      (if c = quote then pure (cs.reverse ++ text)
        else do
          let g ← gap start 0 (← remaining) {}
          quotedWords start quote fuel (g.text.reverse ++ (cs.reverse ++ text)) : Scan _)
        (before (c :: ds) (m.after pieces.flatten)) := by
  have hpeek : (before (pieces.flatten ++ c :: ds) m).peek 0 ≠ '\x00' := by
    cases hp : pieces.flatten with
    | nil => exact hc
    | cons d rest =>
      have hd : isBlankOrEnd d = false := solid_of_spells h d (by simp [hp])
      rintro rfl
      cases hd
  have hlength : cs.length ≤ (pieces.flatten ++ c :: ds).length := by
    have := length_le_of_spells h
    simp only [List.length_append]
    omega
  rw [quotedWords, get_bind, Cursor.atDocumentIndicator_of_column hm, if_neg Bool.false_ne_true]
  show (peek >>= _) _ = _
  rw [peek_bind, if_neg hpeek]
  show (remaining >>= _) _ = _
  rw [remaining_bind, Cursor.before_remaining,
    bind_of (quotedWord_before start hquote h hds hlength text m)]
  rfl

/-- A word and the gap after it are read together. -/
theorem quotedWords_gap (start : Mark) (hquote : isBlankOrEnd quote = false)
    {pieces : List (List Char)} {ws meaning : List Char} (h : List.Forall₂ (Spells quote) pieces cs)
    (hws : IsQuotedGap ws meaning) (hds : BeginsWord ds) (fuel : Nat) (text : List Char) (m : Mark)
    (hm : 0 < m.column) :
    quotedWords start quote (fuel + 1) text (before (pieces.flatten ++ (ws ++ ds)) m) =
      quotedWords start quote fuel (meaning.reverse ++ (cs.reverse ++ text))
        (before ds (m.after (pieces.flatten ++ ws))) := by
  obtain ⟨c, rest, rfl⟩ : ∃ c rest, ws = c :: rest := by
    obtain ⟨u, rfl⟩ := hws.last
    exact List.exists_cons_of_ne_nil (by simp)
  have hc : isBlankOrEnd c = true ∧ c ≠ '\x00' := by
    rcases hws.chars c List.mem_cons_self with rfl | rfl | rfl | rfl <;> exact ⟨rfl, by decide⟩
  have hne : c ≠ quote := by
    rintro rfl
    rw [hquote] at hc
    exact Bool.false_ne_true hc.1
  have hgap := gap_before start 0 hws.chars hds
    (show (c :: rest).length ≤ (c :: rest ++ ds).length by simp) {} (m.after pieces.flatten)
  rw [List.cons_append, quotedWords_word start hquote h (.inl ⟨c, rfl, hc.1⟩) hc.2 fuel text m hm, if_neg hne,
    remaining_bind, Cursor.before_remaining, ← List.cons_append, bind_of hgap, hws.text,
    Mark.after_append]

/-- The column after a gap is not the first one. -/
theorem column_after_gap {ws meaning : List Char} (h : IsQuotedGap ws meaning) (m : Mark) :
    0 < (m.after ws).column := by
  obtain ⟨u, rfl⟩ := h.last
  rw [Mark.after_append]
  exact Nat.succ_pos _

/-- The words of a quoted scalar are read up to the closing quote. -/
theorem quotedWords_before (start : Mark) (hquote : isBlankOrEnd quote = false)
    (h : QuotedText quote ws cs) (hds : ds.head? ≠ some quote) {fuel : Nat} (hfuel : ws.length < fuel)
    (text : List Char) (m : Mark) (hm : 0 < m.column) :
    quotedWords start quote fuel text (before (ws ++ quote :: ds) m) =
      .ok (cs.reverse ++ text, before (quote :: ds) (m.after ws)) := by
  have hend : quote ≠ '\x00' := by
    rintro rfl
    cases hquote
  induction h generalizing fuel text m with
  | word h =>
    obtain ⟨fuel, rfl⟩ : ∃ n, fuel = n + 1 := ⟨fuel - 1, by omega⟩
    rw [quotedWords_word start hquote h (.inr ⟨ds, rfl, hds⟩) hend fuel text m hm, if_pos rfl]
    rfl
  | @more pieces cs gap meaning ws t h hgap hws hrest ih =>
    obtain ⟨fuel, rfl⟩ : ∃ n, fuel = n + 1 := ⟨fuel - 1, by omega⟩
    -- After a gap there is another word, or the closing quote.
    have hbegins : BeginsWord (ws ++ quote :: ds) := by
      cases ws with
      | nil =>
        intro c hc
        rw [← Option.some.inj hc]
        exact ⟨isBlank_of_solid hquote, isBreak_of_solid hquote⟩
      | cons c ws => exact hws
    have hcolumn : 0 < (m.after (pieces.flatten ++ gap)).column := by
      rw [Mark.after_append]
      exact column_after_gap hgap _
    have hlength : ws.length < fuel := by
      obtain ⟨u, rfl⟩ := hgap.last
      simp only [List.length_append] at hfuel
      simp at hfuel
      omega
    rw [List.append_assoc, List.append_assoc,
      quotedWords_gap start hquote h hgap hbegins fuel text m hm, ih hlength _ _ hcolumn]
    simp [Mark.after_append]

/-- A quoted scalar is read as the text that is meant. -/
theorem quotedScalar_before (style : ScalarStyle) (hquote : isBlankOrEnd quote = false)
    (h : QuotedText quote ws cs) (hds : ds.head? ≠ some quote) (m : Mark) :
    ∃ stop, quotedScalar style (before (quote :: ws ++ quote :: ds) m) =
      .ok (⟨.scalar (String.ofList cs) style, m, stop⟩,
        before ds (m.after (quote :: ws ++ [quote]))) := by
  have hbreak := isBreak_of_solid hquote
  have hopen : (before (quote :: ws ++ quote :: ds) m).skip 1 =
      before (ws ++ quote :: ds) (m.after [quote]) := Cursor.skip_one_before hbreak
  have hcolumn : 0 < (m.after [quote]).column := by
    rw [Mark.column_after_of_line (by simpa using hbreak)]
    exact Nat.succ_pos _
  have hwords := quotedWords_before m hquote h hds
    (show ws.length < (ws ++ quote :: ds).length + 1 by rw [List.length_append]; omega) []
    (m.after [quote]) hcolumn
  refine ⟨m.after (quote :: ws ++ [quote]), ?_⟩
  rw [quotedScalar, mark_bind, peek_bind]
  show (skip 1 >>= _) _ = _
  rw [skip_bind, hopen, remaining_bind, Cursor.before_remaining, Cursor.before_mark]
  show (quotedWords m quote _ [] >>= _) _ = _
  rw [bind_of hwords]
  show (skip 1 >>= _) _ = _
  rw [skip_bind, Cursor.skip_one_before hbreak, mark_bind, List.append_nil, List.reverse_reverse, Cursor.before_mark]
  simp only [← Mark.after_append]
  rfl

end Scan

/-! ## What the printer writes between quotes -/

/-- Spaces between words stand for themselves. -/
theorem isQuotedGap_spaces (n : Nat) :
    IsQuotedGap (Printer.spaces (n + 1)) (Printer.spaces (n + 1)) where
  chars c hc := .inl (eq_of_mem_spaces hc)
  last := ⟨Printer.spaces n, List.replicate_succ'⟩
  text := by
    rw [Gap.pass_spaces]
    exact List.reverse_replicate ..

/-- The spelling of a character between double quotes. -/
def doubleSpelling (c : Char) : List Char :=
  if !Printer.isShown c || isBreak c || c = '"' || c = '\\' then Printer.escaped c else [c]

/-- The characters that the printer escapes. -/
theorem special_of_escaped
    (h : (!Printer.isShown c || isBreak c || c = '"' || c = '\\') = true) :
    Printer.isShown c = false ∨ isBreak c = true ∨ c = '"' ∨ c = '\\' := by
  simp only [Bool.or_eq_true, Bool.not_eq_true', decide_eq_true_eq] at h
  tauto

/-- A spelling between double quotes has at most six characters. -/
theorem length_doubleSpelling (c : Char) : (doubleSpelling c).length ≤ 6 := by
  unfold doubleSpelling
  split
  · exact (length_escaped (special_of_escaped ‹_›)).1
  · exact Nat.le_add_left 1 5

/-- What is written between double quotes is shown. -/
theorem isShown_doubleSpelling (c : Char) : ∀ d ∈ doubleSpelling c, Printer.isShown d = true := by
  unfold doubleSpelling
  split
  · exact List.all_eq_true.1 (length_escaped (special_of_escaped ‹_›)).2
  · rename_i h
    simp only [Bool.or_eq_true, not_or, Bool.not_eq_true', Bool.not_eq_false] at h
    simpa using h.1.1.1

/-- A character that is no space is spelled as part of a word. -/
theorem spells_doubleSpelling (hc : c ≠ ' ') : Spells '"' (doubleSpelling c) c := by
  unfold doubleSpelling
  split
  · rename_i h
    exact spells_escape (isEscape_escaped (special_of_escaped h))
  · rename_i h
    simp only [Bool.or_eq_true, Bool.not_eq_true', decide_eq_true_eq, not_or, Bool.not_eq_true, Bool.not_eq_false] at h
    obtain ⟨⟨⟨hshown, hbreak⟩, hquote⟩, hback⟩ := h
    exact spells_self (solid_of_isShown hshown hc hbreak) hquote fun _ => hback

/-- What is written between double quotes is read as the text that was meant. -/
theorem quotedText_doubleSpelling (cs : List Char) :
    QuotedText '"' (cs.flatMap doubleSpelling) cs := by
  have hword {w : List Char} (hw : ∀ c ∈ w, decide (c = ' ') = false) :
      List.Forall₂ (Spells '"') (w.map doubleSpelling) w := by
    rw [List.forall₂_map_left_iff, List.forall₂_same]
    exact fun c hc => spells_doubleSpelling (of_decide_eq_false (hw c hc))
  induction gapped (fun c => decide (c = ' ')) cs with
  | @last w hw =>
    rw [List.flatMap_def]
    exact .word (hword hw)
  | @more w gap rest hw hgap hspaces hstart hrest ih =>
    obtain ⟨n, rfl⟩ := exists_spaces hgap hspaces
    have hflat : (Printer.spaces (n + 1)).flatMap doubleSpelling = Printer.spaces (n + 1) := by
      rw [Printer.spaces, List.flatMap_replicate, show doubleSpelling ' ' = [' '] by decide]
      simp
    rw [List.flatMap_append, List.flatMap_append, hflat, List.flatMap_def]
    refine .more (hword hw) (isQuotedGap_spaces n) ?_ ih
    cases rest with
    | nil => exact fun _ h => by cases h
    | cons c rest =>
      have hspells := spells_doubleSpelling (of_decide_eq_false (hstart c rfl))
      obtain ⟨d, u, hd⟩ := List.exists_cons_of_ne_nil hspells.ne_nil
      have hsolid : isBlankOrEnd d = false := hspells.solid d (by rw [hd]; exact List.mem_cons_self)
      intro e he
      rw [List.flatMap_cons, hd] at he
      rw [← Option.some.inj he]
      exact ⟨isBlank_of_solid hsolid, isBreak_of_solid hsolid⟩

/-- Line separators between words stand for themselves, and the indentation after them for
nothing. -/
theorem isQuotedGap_breaks (hne : ws ≠ []) (hws : ∀ c ∈ ws, c = '\u2028' ∨ c = '\u2029') (n : Nat) :
    IsQuotedGap (ws ++ Printer.spaces (n + 1)) ws where
  chars c hc := by
    rcases List.mem_append.1 hc with hc | hc
    · exact .inr (.inr (hws c hc))
    · exact .inl (eq_of_mem_spaces hc)
  last := ⟨ws ++ Printer.spaces n, by rw [spaces_succ, List.append_assoc]⟩
  text := by
    obtain ⟨c, ws, rfl⟩ := List.exists_cons_of_ne_nil hne
    have hblank : ∀ d ∈ c :: ws, isBlank d = false := by
      intro d hd
      rcases hws d hd with rfl | rfl <;> rfl
    have hpass : ({} : Gap).pass (c :: ws) = { broken := true, first := some c, later := ws.reverse } := by
      rw [Gap.pass, hblank c List.mem_cons_self, if_neg Bool.false_ne_true]
      exact (Gap.pass_breaks (fun d hd => hblank d (List.mem_cons_of_mem _ hd)) _ _).trans
        (by rw [List.append_nil])
    rw [Gap.pass_append, hpass, Gap.pass_spaces_of_broken rfl]
    rcases hws c List.mem_cons_self with rfl | rfl <;> simp [Gap.text]

/-- The spelling of a character between single quotes. -/
def singleSpelling (c : Char) : List Char := if c = '\x27' then [c, c] else [c]

/-- A character that is no white space is spelled as part of a word. -/
theorem spells_singleSpelling (hc : isBlankOrEnd c = false) : Spells '\x27' (singleSpelling c) c := by
  unfold singleSpelling
  split
  · rename_i h
    subst h
    exact spells_singleQuote
  · rename_i h
    exact spells_self hc h fun e => absurd e (by decide)

/-- Characters of one line are written one after the other. -/
theorem singleQuotedChars_append (indent : Nat) (hws : ∀ c ∈ ws, isBreak c = false) (cs : List Char) :
    Printer.singleQuotedChars indent false (ws ++ cs) =
      ws.flatMap singleSpelling ++ Printer.singleQuotedChars indent false cs := by
  induction ws with
  | nil => rfl
  | cons c ws ih =>
    have hc : isBreak c = false := hws c List.mem_cons_self
    rw [List.cons_append, Printer.singleQuotedChars, hc, if_neg Bool.false_ne_true,
      ih fun d hd => hws d (List.mem_cons_of_mem _ hd), List.flatMap_cons]
    simp [singleSpelling]

/-- The indentation stands after line separators. -/
theorem singleQuotedChars_breaks (indent : Nat) (hws : ∀ c ∈ ws, isBreak c = true)
    (hcs : ∀ c ∈ cs.head?, isBreak c = false) :
    Printer.singleQuotedChars indent true (ws ++ cs) =
      ws ++ (Printer.spaces indent ++ Printer.singleQuotedChars indent false cs) := by
  induction ws with
  | nil =>
    cases cs with
    | nil => simp [Printer.singleQuotedChars]
    | cons c cs => simp [Printer.singleQuotedChars, hcs c rfl]
  | cons c ws ih =>
    have hc : isBreak c = true := hws c List.mem_cons_self
    rw [List.cons_append, Printer.singleQuotedChars, if_pos hc,
      ih fun d hd => hws d (List.mem_cons_of_mem _ hd)]
    rfl

/-- One more character is of the kind of those after it where none of the other kind stands beside
them. -/
theorem forall_mem_cons_of_pair {p q : Char → Bool} {d : Char} (hc : p c = true ∨ q c = true)
    (hpair : q c = true → p d = false) (h : ∀ e ∈ d :: ws, p e = true) :
    ∀ e ∈ c :: d :: ws, p e = true := by
  refine List.forall_mem_cons.2 ⟨hc.resolve_right fun hq => ?_, h⟩
  exact absurd (h d List.mem_cons_self) (ne_true_of_eq_false (hpair hq))

/-- White space in which no space stands beside a line break is of one kind. -/
theorem spaces_or_breaks (hws : ∀ c ∈ ws, (decide (c = ' ') || isBreak c) = true)
    (hpair : Printer.hasPair (fun c => decide (c = ' ')) isBreak ws = false)
    (hpair' : Printer.hasPair isBreak (fun c => decide (c = ' ')) ws = false) :
    (∀ c ∈ ws, decide (c = ' ') = true) ∨ ∀ c ∈ ws, isBreak c = true := by
  induction ws with
  | nil => exact .inl nofun
  | cons c ws ih =>
    have hc := hws c List.mem_cons_self
    cases ws with
    | nil =>
      rw [Bool.or_eq_true] at hc
      exact hc.imp (by simp) (by simp)
    | cons d ws =>
      simp only [Printer.hasPair, Bool.or_eq_false_iff, Bool.and_eq_false_imp] at hpair hpair'
      rw [Bool.or_eq_true] at hc
      exact (ih (fun e he => hws e (List.mem_cons_of_mem _ he)) hpair.2 hpair'.2).imp
        (forall_mem_cons_of_pair hc hpair'.1)
        (forall_mem_cons_of_pair (q := fun c => decide (c = ' ')) hc.symm hpair.1)

/-- A text that can be written between single quotes. -/
structure IsSingleText (cs : List Char) : Prop where
  /-- All characters can be written as they are. -/
  shown : ∀ c ∈ cs, Printer.isShown c = true
  /-- There are no line feeds. -/
  noFeed : '\n' ∉ cs
  /-- No space stands before a line break. -/
  spaceBreak : Printer.hasPair (fun c => decide (c = ' ')) isBreak cs = false
  /-- No space stands after a line break. -/
  breakSpace : Printer.hasPair isBreak (fun c => decide (c = ' ')) cs = false

/-- A text between single quotes that begins with a word is written so that it does. -/
theorem beginsWord_singleQuotedChars (indent : Nat) (hshown : ∀ c ∈ cs, Printer.isShown c = true)
    (hstart : ∀ c ∈ cs.head?, (decide (c = ' ') || isBreak c) = false) :
    BeginsWord (Printer.singleQuotedChars indent false cs) := by
  cases cs with
  | nil => exact nofun
  | cons c rest =>
    obtain ⟨hspace, hc⟩ := Bool.or_eq_false_iff.1 (hstart c rfl)
    have hsolid := solid_of_isShown (hshown c List.mem_cons_self) (of_decide_eq_false hspace) hc
    intro d hd
    obtain rfl : c = d := by
      have hwrite := singleQuotedChars_append indent
        (show ∀ d ∈ [c], isBreak d = false by simpa using hc) rest
      rw [List.singleton_append] at hwrite
      rw [hwrite, List.flatMap_singleton, singleSpelling] at hd
      split at hd <;> exact Option.some.inj hd
    exact ⟨isBlank_of_solid hsolid, hc⟩

/-- The shown line breaks other than line feeds are the separators of lines and paragraphs. -/
theorem eq_separator (hbreak : isBreak c = true) (hshown : Printer.isShown c = true)
    (hfeed : c ≠ '\n') : c = '\u2028' ∨ c = '\u2029' := by
  simp only [isBreak, Bool.or_eq_true, decide_eq_true_eq] at hbreak
  rcases hbreak with (((rfl | rfl) | rfl) | hc) | hc
  · exact absurd rfl hfeed
  · cases hshown
  · cases hshown
  · exact .inl hc
  · exact .inr hc

/-- Line breaks between words are written as they are, with the indentation after them. -/
theorem singleQuotedChars_gap (indent : Nat) {gap rest : List Char} (hgap : gap ≠ [])
    (hgaps : ∀ c ∈ gap, isBreak c = true) (hrest : ∀ c ∈ rest.head?, isBreak c = false) :
    Printer.singleQuotedChars indent false (gap ++ rest) =
      gap ++ (Printer.spaces indent ++ Printer.singleQuotedChars indent false rest) := by
  rw [← singleQuotedChars_breaks _ hgaps hrest]
  obtain ⟨c, gap, rfl⟩ := List.exists_cons_of_ne_nil hgap
  rw [List.cons_append, Printer.singleQuotedChars, Printer.singleQuotedChars,
    if_pos (hgaps c List.mem_cons_self), if_pos (hgaps c List.mem_cons_self)]

/-- What is written between single quotes is read as the text that was meant. -/
theorem quotedText_singleQuotedChars (indent : Nat) (h : IsSingleText cs) :
    QuotedText '\x27' (Printer.singleQuotedChars (indent + 1) false cs) cs := by
  have hword {w : List Char} (hw : ∀ c ∈ w, (decide (c = ' ') || isBreak c) = false)
      (hshown : ∀ c ∈ w, Printer.isShown c = true) :
      List.Forall₂ (Spells '\x27') (w.map singleSpelling) w ∧ ∀ c ∈ w, isBreak c = false := by
    have hparts : ∀ c ∈ w, c ≠ ' ' ∧ isBreak c = false := fun c hc => by
      simpa using hw c hc
    refine ⟨?_, fun c hc => (hparts c hc).2⟩
    rw [List.forall₂_map_left_iff, List.forall₂_same]
    exact fun c hc =>
      spells_singleSpelling (solid_of_isShown (hshown c hc) (hparts c hc).1 (hparts c hc).2)
  -- The text is split into words, each with the white space after it.
  induction gapped (fun c => decide (c = ' ') || isBreak c) cs with
  | @last w hw =>
    obtain ⟨hspells, hline⟩ := hword hw h.shown
    have hwrite := singleQuotedChars_append (indent + 1) hline []
    simp only [List.append_nil, Printer.singleQuotedChars, Bool.false_eq_true, if_false] at hwrite
    rw [hwrite, List.flatMap_def]
    exact .word hspells
  | @more w gap rest hw hgap hgaps hstart hrest ih =>
    obtain ⟨hspells, hline⟩ := hword hw fun c hc => h.shown c (List.mem_append_left _ hc)
    obtain ⟨-, hsb⟩ := hasPair_of_append h.spaceBreak
    obtain ⟨-, hbs⟩ := hasPair_of_append h.breakSpace
    have hrestText : IsSingleText rest :=
      ⟨fun c hc => h.shown c (by simp [hc]), fun hc => h.noFeed (by simp [hc]),
        (hasPair_of_append hsb).2, (hasPair_of_append hbs).2⟩
    have hbegins := beginsWord_singleQuotedChars (indent + 1) hrestText.shown hstart
    rw [singleQuotedChars_append _ hline, List.flatMap_def]
    rcases spaces_or_breaks hgaps (hasPair_of_append hsb).1 (hasPair_of_append hbs).1 with hsp | hbr
    · obtain ⟨n, rfl⟩ := exists_spaces hgap hsp
      have hsame : (Printer.spaces (n + 1)).flatMap singleSpelling = Printer.spaces (n + 1) := by
        rw [Printer.spaces, List.flatMap_replicate, show singleSpelling ' ' = [' '] by decide]
        simp
      rw [singleQuotedChars_append _ fun c => isBreak_of_mem_spaces, hsame]
      exact .more hspells (isQuotedGap_spaces n) hbegins (ih hrestText)
    · have hseparator : ∀ c ∈ gap, c = '\u2028' ∨ c = '\u2029' := by
        refine fun c hc => eq_separator (hbr c hc) (h.shown c (by simp [hc])) ?_
        rintro rfl
        exact h.noFeed (by simp [hc])
      rw [singleQuotedChars_gap _ hgap hbr fun c hc => (Bool.or_eq_false_iff.1 (hstart c hc)).2,
        ← List.append_assoc gap]
      exact .more hspells (isQuotedGap_breaks hgap hseparator indent) hbegins (ih hrestText)

end ProviderAssets.Yaml
