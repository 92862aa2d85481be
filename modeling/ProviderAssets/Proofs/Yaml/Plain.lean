import ProviderAssets.Proofs.Yaml.Gap

/-!
# Plain scalars

A plain scalar is read as the text that it is: words with spaces between them, up to the colon after
a key or to the end of the line. What the printer allows to be written plainly is such a text.
-/

namespace ProviderAssets.Yaml

open Cursor (before)

variable {m : Mark} {c : Char} {cs ds ws : List Char}

/-! ## Words -/

/-- A word of a plain scalar. -/
structure IsWord (w : List Char) : Prop where
  /-- There is something to it. -/
  ne_nil : w ≠ []
  /-- It holds no white space. -/
  solid : ∀ c ∈ w, isBlankOrEnd c = false
  /-- It begins no comment. -/
  head : w.head? ≠ some '#'
  /-- It is no key by itself. -/
  last : w.getLast? ≠ some ':'

/-- What a plain scalar ends before on its line: the colon after a key, or the end of the text. -/
def IsColonOrEnd (cs : List Char) : Prop :=
  cs = [] ∨ ∃ rest, cs = ':' :: rest ∧ isBlankOrEnd (rest.headD '\x00') = true

/-- What a word of a plain scalar ends before. -/
def EndsWord (cs : List Char) : Prop := (∃ c ∈ cs.head?, isBlankOrEnd c = true) ∨ IsColonOrEnd cs

/-- The text of a plain scalar: words with spaces between them. -/
inductive IsPlainText : List Char → Prop
  /-- One word. -/
  | word {w : List Char} (hw : IsWord w) : IsPlainText w
  /-- A word, spaces, and such a text. -/
  | more {w rest : List Char} {n : Nat} (hw : IsWord w) (hrest : IsPlainText rest) :
    IsPlainText (w ++ (Printer.spaces (n + 1) ++ rest))

/-- A plain scalar begins with a character that is no white space. -/
theorem IsPlainText.exists_cons (h : IsPlainText cs) :
    ∃ c u, cs = c :: u ∧ isBlankOrEnd c = false := by
  have of_word {w : List Char} (hw : IsWord w) (ds : List Char) :
      ∃ c u, w ++ ds = c :: u ∧ isBlankOrEnd c = false := by
    obtain ⟨c, w, rfl⟩ := List.exists_cons_of_ne_nil hw.ne_nil
    exact ⟨c, w ++ ds, rfl, hw.solid c List.mem_cons_self⟩
  cases h with
  | word hw => simpa using of_word hw []
  | more hw hrest => exact of_word hw _

/-- The text of a plain scalar begins with no white space. -/
theorem IsPlainText.beginsWord (h : IsPlainText cs) (ds : List Char) : BeginsWord (cs ++ ds) := by
  obtain ⟨c, u, rfl, hc⟩ := h.exists_cons
  intro d hd
  obtain rfl : c = d := Option.some.inj hd
  exact ⟨isBlank_of_solid hc, isBreak_of_solid hc⟩

namespace Scan

/-- A word ends where nothing more of it follows. -/
theorem plainWord_end (start : Mark) (hds : EndsWord ds) (fuel : Nat) (word : List Char) :
    plainWord start false fuel word (before ds m) = .ok (word, before ds m) := by
  cases fuel with
  | zero => rfl
  | succ fuel =>
    rcases hds with ⟨c, hc, hblank⟩ | rfl | ⟨rest, rfl, hrest⟩
    · obtain ⟨rest, rfl⟩ : ∃ rest, ds = c :: rest := by
        cases ds with
        | nil => cases hc
        | cons d rest => exact ⟨rest, by rw [Option.some.inj hc]⟩
      rw [plainWord, peek_bind, peek_bind, Cursor.peek_zero_cons, hblank]
      rfl
    · rfl
    · have hnext : (before (':' :: rest) m).peek 1 = rest.headD '\x00' :=
        (Cursor.peek_succ_before 0).trans Cursor.peek_zero_before
      rw [plainWord, peek_bind, peek_bind, Cursor.peek_zero_cons, hnext, endsPlain, hrest]
      rfl

/-- The characters of a word are read one after the other. -/
theorem plainWord_before (start : Mark) (hws : ∀ c ∈ ws, isBlankOrEnd c = false)
    (hlast : ws.getLast? ≠ some ':') (hds : EndsWord ds) {fuel : Nat} (hfuel : ws.length ≤ fuel)
    (word : List Char) (m : Mark) :
    plainWord start false fuel word (before (ws ++ ds) m) =
      .ok (ws.reverse ++ word, before ds (m.after ws)) := by
  induction ws generalizing fuel word m with
  | nil => exact plainWord_end start hds fuel word
  | cons c ws ih =>
    obtain ⟨fuel, rfl⟩ : ∃ n, fuel = n + 1 := ⟨fuel - 1, by simp at hfuel; omega⟩
    have hc : isBlankOrEnd c = false := hws c List.mem_cons_self
    have hcolon : endsPlain false c ((before (c :: (ws ++ ds)) m).peek 1) = false := by
      rw [endsPlain, Bool.false_and, Bool.or_false, Cursor.peek_succ_before 0]
      cases ws with
      | nil =>
        have : c ≠ ':' := by simpa using hlast
        simp [this]
      | cons d ws =>
        rw [List.cons_append, Cursor.peek_zero_cons, hws d (by simp), Bool.and_false]
    have hbreak : isBreak c = false := isBreak_of_solid hc
    have ih := ih (fun d hd => hws d (List.mem_cons_of_mem _ hd))
      (fun h => hlast (by cases ws with | nil => cases h | cons d ws => simpa using h))
      (by simpa using hfuel)
    rw [plainWord, peek_bind, peek_bind, List.cons_append, Cursor.peek_zero_cons, hc, hcolon]
    show (skip 1 >>= fun _ => plainWord start false fuel (c :: word)) _ = _
    rw [skip_bind, Cursor.skip_one_before hbreak, ih]
    simp [Mark.after]

/-- What follows a plain scalar: nothing on its line, which may be the last one, or a break and the
spaces before content that stands further left than `floor`. -/
inductive EndsPlain (floor : Nat) (ds : List Char) : List Char → Bool → Prop
  /-- The scalar ends on its line. -/
  | here (h : IsColonOrEnd ds) : EndsPlain floor ds [] false
  /-- The line ends, and content further left follows. -/
  | line {n : Nat} (hn : n < floor) (hds : BeginsWord ds) :
    EndsPlain floor ds ('\n' :: Printer.spaces n) true

/-- A word of a plain scalar is read, and then what comes after it. -/
theorem plainWords_word (start : Mark) (floor : Nat) {w : List Char} (hw : IsWord w)
    (hds : EndsWord ds) (fuel : Nat) (text : List Char) (g : Gap) (stop m : Mark)
    (hdoc : (before (w ++ ds) m).atDocumentIndicator = false) :
    plainWords start floor false (fuel + 1) text g stop (before (w ++ ds) m) =
      (do
        let c ← peek
        if isBlank c || isBreak c then
          let g' ← gap start floor (← remaining) {}
          if !false && (← mark).column < floor then
            pure (w.reverse ++ g.text.reverse ++ text, m.after w, g'.broken)
          else
            plainWords start floor false fuel (w.reverse ++ g.text.reverse ++ text) g' (m.after w)
        else pure (w.reverse ++ g.text.reverse ++ text, m.after w, false) : Scan _)
        (before ds (m.after w)) := by
  have hpeek : (false || decide ((before (w ++ ds) m).peek 0 = '#')) = false := by
    obtain ⟨c, rest, rfl⟩ := List.exists_cons_of_ne_nil hw.ne_nil
    have hc : c ≠ '#' := fun h => hw.head (congrArg some h)
    exact (Bool.false_or _).trans (decide_eq_false hc)
  have hword : plainWord start false (w ++ ds).length [] (before (w ++ ds) m) =
      .ok (w.reverse, before ds (m.after w)) := by
    rw [plainWord_before start hw.solid hw.last hds (by simp), List.append_nil]
  have hempty : w.reverse.isEmpty = false := by
    have := hw.ne_nil
    simpa using this
  rw [plainWords, get_bind, hdoc, peek_bind, hpeek, if_neg Bool.false_ne_true,
    remaining_bind, Cursor.before_remaining, bind_of hword, hempty]
  rfl

/-- A word of a plain scalar is read with the white space after it. The scalar goes on unless the
next content stands further left than `floor`. -/
theorem plainWords_gap (start : Mark) (floor : Nat) {w : List Char} (hw : IsWord w)
    (hne : ws ≠ []) (hws : ∀ c ∈ ws, IsGapChar c) (hds : BeginsWord ds) (fuel : Nat)
    (text : List Char) (g : Gap) (stop m : Mark)
    (hdoc : (before (w ++ (ws ++ ds)) m).atDocumentIndicator = false) :
    plainWords start floor false (fuel + 1) text g stop (before (w ++ (ws ++ ds)) m) =
      if (m.after (w ++ ws)).column < floor then
        .ok ((w.reverse ++ g.text.reverse ++ text, m.after w, (({} : Gap).pass ws).broken),
          before ds (m.after (w ++ ws)))
      else
        plainWords start floor false fuel (w.reverse ++ g.text.reverse ++ text)
          (({} : Gap).pass ws) (m.after w) (before ds (m.after (w ++ ws))) := by
  obtain ⟨c, rest, rfl⟩ := List.exists_cons_of_ne_nil hne
  have hc : (isBlank c || isBreak c) = true ∧ isBlankOrEnd c = true := by
    rcases hws c List.mem_cons_self with rfl | rfl | rfl | rfl <;> exact ⟨rfl, rfl⟩
  have hgap := gap_before start floor hws hds
    (show (c :: rest).length ≤ (c :: rest ++ ds).length by simp) {} (m.after w)
  rw [plainWords_word start floor hw (.inl ⟨c, rfl, hc.2⟩) fuel text g stop m hdoc, peek_bind,
    List.cons_append, Cursor.peek_zero_cons, if_pos hc.1, remaining_bind, Cursor.before_remaining,
    ← List.cons_append, bind_of hgap, mark_bind, Mark.after_append]
  by_cases hcolumn : ((m.after w).after (c :: rest)).column < floor
  · have hleft : (!false && decide ((before ds ((m.after w).after (c :: rest))).mark.column < floor)) =
      true := decide_eq_true hcolumn
    rw [if_pos hcolumn, if_pos hleft]
    rfl
  · have hright : (!false && decide ((before ds ((m.after w).after (c :: rest))).mark.column < floor)) =
      false := decide_eq_false hcolumn
    rw [if_neg hcolumn, if_neg (ne_true_of_eq_false hright)]

/-- The last word of a plain scalar is read with the end of the scalar. -/
theorem plainWords_last (start : Mark) {floor : Nat} {broken : Bool} {w : List Char} (hw : IsWord w)
    (hend : EndsPlain floor ds ws broken) (fuel : Nat) (text : List Char) (g : Gap) (stop m : Mark)
    (hdoc : (before (w ++ (ws ++ ds)) m).atDocumentIndicator = false) :
    plainWords start floor false (fuel + 1) text g stop (before (w ++ (ws ++ ds)) m) =
      .ok ((w.reverse ++ g.text.reverse ++ text, m.after w, broken),
        before ds (m.after (w ++ ws))) := by
  cases hend with
  | here h =>
    have hpeek : (isBlank ((before ds (m.after w)).peek 0) ||
        isBreak ((before ds (m.after w)).peek 0)) = false := by
      rcases h with rfl | ⟨rest, rfl, -⟩ <;> rfl
    rw [List.nil_append, plainWords_word start floor hw (.inr h) fuel text g stop m hdoc, peek_bind,
      hpeek, if_neg Bool.false_ne_true, List.append_nil]
    rfl
  | line hn hds =>
    rw [plainWords_gap start floor hw (by simp) (fun c => isGapChar_of_mem_line) hds fuel text g
      stop m hdoc, Mark.column_after_line, if_pos hn, Gap.pass_line]

/-- A word and spaces stand on one line. -/
theorem column_after_spaced {w : List Char} (hw : IsWord w) (n : Nat) (m : Mark) :
    (m.after (w ++ Printer.spaces n)).column = m.column + (w.length + n) := by
  have hline : ∀ c ∈ w ++ Printer.spaces n, isBreak c = false := by
    intro c hc
    rcases List.mem_append.1 hc with hc | hc
    · exact isBreak_of_solid (hw.solid c hc)
    · exact isBreak_of_mem_spaces hc
  rw [Mark.column_after_of_line hline, List.length_append, length_spaces]

/-- After a word and spaces the scalar goes on. -/
theorem plainWords_spaced (start : Mark) {floor : Nat} {w : List Char} (hw : IsWord w) (n : Nat)
    (hds : BeginsWord ds) (fuel : Nat) (text : List Char) (g : Gap) (stop m : Mark)
    (hfloor : floor ≤ m.column + 1)
    (hdoc : (before (w ++ (Printer.spaces (n + 1) ++ ds)) m).atDocumentIndicator = false) :
    plainWords start floor false (fuel + 1) text g stop
        (before (w ++ (Printer.spaces (n + 1) ++ ds)) m) =
      plainWords start floor false fuel (w.reverse ++ g.text.reverse ++ text)
        { blanks := Printer.spaces (n + 1) } (m.after w)
        (before ds (m.after (w ++ Printer.spaces (n + 1)))) := by
  have hcolumn := column_after_spaced hw (n + 1) m
  rw [plainWords_gap start floor hw (by simp [Printer.spaces])
    (fun c hc => .inl (eq_of_mem_spaces hc)) hds fuel text g stop m hdoc, if_neg (by omega),
    Gap.pass_spaces]

/-- The words of a plain scalar are read with the spaces between them. -/
theorem plainWords_before (start : Mark) {floor : Nat} {broken : Bool} (hcs : IsPlainText cs)
    (hend : EndsPlain floor ds ws broken) {fuel : Nat} (hfuel : cs.length ≤ fuel)
    (text : List Char) (g : Gap) (stop m : Mark) (hfloor : floor ≤ m.column + 1)
    (hdoc : (before (cs ++ (ws ++ ds)) m).atDocumentIndicator = false) :
    ∃ stop', plainWords start floor false fuel text g stop (before (cs ++ (ws ++ ds)) m) =
      .ok ((cs.reverse ++ g.text.reverse ++ text, stop', broken),
        before ds (m.after (cs ++ ws))) := by
  induction hcs generalizing fuel text g stop m with
  | @word w hw =>
    have hpos := List.length_pos_iff.2 hw.ne_nil
    obtain ⟨fuel, rfl⟩ : ∃ n, fuel = n + 1 := ⟨fuel - 1, by omega⟩
    exact ⟨m.after w, plainWords_last start hw hend fuel text g stop m hdoc⟩
  | @more w rest n hw hrest ih =>
    have hpos := List.length_pos_iff.2 hw.ne_nil
    simp only [List.length_append, length_spaces] at hfuel
    obtain ⟨fuel, rfl⟩ : ∃ n, fuel = n + 1 := ⟨fuel - 1, by omega⟩
    have hrestFuel : rest.length ≤ fuel := by omega
    have hcolumn := column_after_spaced hw (n + 1) m
    -- Later words do not stand at the first column, so they are no document indicators.
    obtain ⟨stop', h⟩ := ih hrestFuel (w.reverse ++ g.text.reverse ++ text)
      { blanks := Printer.spaces (n + 1) } (m.after w) (m.after (w ++ Printer.spaces (n + 1)))
      (by omega) (Cursor.atDocumentIndicator_of_column (by omega))
    have hassoc : w ++ (Printer.spaces (n + 1) ++ rest) ++ (ws ++ ds) =
        w ++ (Printer.spaces (n + 1) ++ (rest ++ (ws ++ ds))) := by
      simp only [List.append_assoc]
    have htext : ({ blanks := Printer.spaces (n + 1) } : Gap).text = Printer.spaces (n + 1) :=
      List.reverse_replicate ..
    rw [hassoc] at hdoc ⊢
    rw [plainWords_spaced start hw n (hrest.beginsWord _) fuel text g stop m hfloor hdoc, h, htext]
    refine ⟨stop', ?_⟩
    simp only [List.reverse_append, List.append_assoc, Mark.after_append]

/-- A plain scalar is read as the text that it is. -/
theorem plainScalar_before {floor : Nat} {broken : Bool} (hcs : IsPlainText cs)
    (hend : EndsPlain floor ds ws broken) (m : Mark) (hfloor : floor ≤ m.column + 1)
    (hdoc : (before (cs ++ (ws ++ ds)) m).atDocumentIndicator = false) :
    ∃ stop, plainScalar floor false (before (cs ++ (ws ++ ds)) m) =
      .ok ((⟨.scalar (String.ofList cs) .plain, m, stop⟩, broken), before ds (m.after (cs ++ ws))) := by
  obtain ⟨stop, h⟩ := plainWords_before m hcs hend
    (show cs.length ≤ (cs ++ (ws ++ ds)).length + 1 by rw [List.length_append]; omega) [] {} m m hfloor hdoc
  refine ⟨stop, ?_⟩
  rw [plainScalar, mark_bind, remaining_bind, Cursor.before_remaining, Cursor.before_mark, bind_of h]
  simp [Gap.text, pure_apply]

end Scan

/-! ## What the printer writes plainly -/

/-- A text in which no key ends and no comment begins. -/
structure LacksIndicators (cs : List Char) : Prop where
  /-- What comes after a colon is neither white space nor the end. -/
  colon : ∀ u v, cs = u ++ ':' :: v → isBlankOrEnd (v.headD '\x00') = false
  /-- What comes before a number sign is no space. -/
  hash : ∀ u v, cs ≠ u ++ ' ' :: '#' :: v

/-- A part at the end lacks what the whole lacks. -/
theorem LacksIndicators.of_append (h : LacksIndicators (ws ++ cs)) : LacksIndicators cs where
  colon u v e := h.colon (ws ++ u) v (by rw [e, List.append_assoc])
  hash u v e := h.hash (ws ++ u) v (by rw [e, List.append_assoc])

/-- A first word of a text without indicators, which ends before a space or with the text. -/
theorem isWord_of_lacksIndicators {w t : List Char} (hne : w ≠ [])
    (hsolid : ∀ c ∈ w, isBlankOrEnd c = false) (ht : ∀ c ∈ t.head?, c = ' ')
    (hhash : ∀ v, w ++ t ≠ '#' :: v) (h : LacksIndicators (w ++ t)) : IsWord w where
  ne_nil := hne
  solid := hsolid
  head := by
    intro hhead
    obtain ⟨v, rfl⟩ := List.head?_eq_some_iff.1 hhead
    exact hhash (v ++ t) rfl
  last := by
    intro hcolon
    obtain ⟨u, rfl⟩ := List.getLast?_eq_some_iff.1 hcolon
    have hnext := h.colon u t (by simp)
    cases t with
    | nil => cases hnext
    | cons d t =>
      obtain rfl : d = ' ' := ht d rfl
      cases hnext

/-- Text without indicators that begins and ends with a word is the text of a plain scalar. -/
theorem isPlainText_of_lacksIndicators (hne : cs ≠ [])
    (hcs : ∀ c ∈ cs, c = ' ' ∨ isBlankOrEnd c = false) (hfirst : ∀ v, cs ≠ ' ' :: v)
    (hlast : ∀ u, cs ≠ u ++ [' ']) (hhash : ∀ v, cs ≠ '#' :: v) (h : LacksIndicators cs) :
    IsPlainText cs := by
  induction gapped (fun c => decide (c = ' ')) cs with
  | last hw =>
    refine .word (isWord_of_lacksIndicators (t := []) hne (fun c hc => ?_) nofun (by simpa using hhash)
      (by simpa using h))
    exact (hcs c hc).resolve_left (of_decide_eq_false (hw c hc))
  | @more w gap rest hw hgap hspaces hstart hrest ih =>
    obtain ⟨n, rfl⟩ := exists_spaces hgap hspaces
    have hwne : w ≠ [] := by
      rintro rfl
      exact hfirst (Printer.spaces n ++ rest) rfl
    have hword : IsWord w := by
      refine isWord_of_lacksIndicators hwne (fun c hc => ?_) (fun c hc => ?_) hhash h
      · exact (hcs c (List.mem_append_left _ hc)).resolve_left (of_decide_eq_false (hw c hc))
      · exact (Option.some.inj hc).symm
    have hcut (r : List Char) : w ++ (Printer.spaces (n + 1) ++ r) =
        w ++ Printer.spaces n ++ ' ' :: r := by
      rw [spaces_succ]
      simp
    -- What is known of the whole text is known of the rest after the gap.
    refine .more hword (ih ?_ ?_ ?_ ?_ ?_ ?_)
    · rintro rfl
      exact hlast (w ++ Printer.spaces n) (hcut [])
    · exact fun c hc => hcs c (by simp [hc])
    · rintro v rfl
      exact absurd rfl (of_decide_eq_false (hstart ' ' rfl))
    · rintro u rfl
      exact hlast (w ++ (Printer.spaces (n + 1) ++ u)) (by simp)
    · rintro v rfl
      exact h.hash _ v (hcut _)
    · rw [← List.append_assoc] at h
      exact h.of_append

/-- No two neighbours are an indicator where the text has none inside. -/
theorem not_indicator_of_hasInnerIndicator {a b : Char} {u v : List Char}
    (h : Printer.hasInnerIndicator (u ++ a :: b :: v) = false) :
    (b = ':' → isBlankOrEnd (v.headD '\x00') = false) ∧ (b = '#' → isBlankOrEnd a = false) := by
  induction u with
  | nil =>
    simp only [List.nil_append, Printer.hasInnerIndicator, Bool.or_eq_false_iff,
      Bool.and_eq_false_imp, decide_eq_true_eq] at h
    exact h.1
  | cons c u ih =>
    refine ih ?_
    obtain ⟨d, t, hd⟩ : ∃ d t, u ++ a :: b :: v = d :: t :=
      List.exists_cons_of_ne_nil (by simp)
    rw [List.cons_append, hd, Printer.hasInnerIndicator, Bool.or_eq_false_iff] at h
    rw [hd]
    exact h.2

/-- A text that begins with no indicator and has none inside lacks them. -/
theorem lacksIndicators_of_hasInnerIndicator (h : Printer.hasInnerIndicator cs = false)
    (hfirst : Printer.isLeadingIndicator (cs.headD '\x00')
      (isBlankOrEnd ((cs.drop 1).headD '\x00')) = false) : LacksIndicators cs where
  colon u v e := by
    subst e
    rcases List.eq_nil_or_concat u with rfl | ⟨u, a, rfl⟩
    · simp only [Printer.isLeadingIndicator, Bool.or_eq_false_iff, Bool.and_eq_false_imp] at hfirst
      exact hfirst.2 rfl
    · rw [List.concat_eq_append, List.append_assoc] at h
      exact (not_indicator_of_hasInnerIndicator h).1 rfl
  hash u v e := by
    subst e
    exact absurd ((not_indicator_of_hasInnerIndicator h).2 rfl) (by decide)

/-- A text that may be written plainly is the text of a plain scalar. -/
theorem isPlainText_of_plainAllowed (hne : cs ≠ []) (h : (Printer.features cs).plainAllowed = true) :
    IsPlainText cs := by
  simp only [Printer.features, Bool.not_eq_true', Bool.or_eq_false_iff] at h
  obtain ⟨⟨⟨⟨⟨⟨-, hlead⟩, hinner⟩, hbreaks⟩, -, hshown⟩, ⟨⟨hfirst, -⟩, hlast⟩, -⟩, -⟩ := h
  refine isPlainText_of_lacksIndicators hne ?_ ?_ ?_ ?_
    (lacksIndicators_of_hasInnerIndicator hinner hlead)
  · intro c hc
    by_cases hspace : c = ' '
    · exact .inl hspace
    · have hshown : Printer.isShown c = true := by
        rw [Bool.not_eq_false'] at hshown
        exact List.all_eq_true.1 hshown c hc
      have hbreak : isBreak c = false := by
        simpa using List.any_eq_false.1 hbreaks c hc
      exact .inr (solid_of_isShown hshown hspace hbreak)
  · rintro v rfl
    cases hfirst
  · rintro u rfl
    simp at hlast
  · rintro v rfl
    cases hlead

end ProviderAssets.Yaml
