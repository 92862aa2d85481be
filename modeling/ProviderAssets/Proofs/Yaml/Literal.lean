import ProviderAssets.Proofs.Yaml.Gap

/-!
# Literal blocks

A literal block is read line by line: the blank lines at its beginning, then each line with the
breaks after it, up to content further left. The indicators in its header say what becomes of the
breaks at the end, and the printer chooses them so that the text is kept.
-/

namespace ProviderAssets.Yaml

open Cursor (before)

variable {m : Mark} {c : Char} {cs ds ws : List Char}

/-! ## Blank lines -/

/-- Line breaks of a literal block: each stands for itself. -/
def IsLineBreak (c : Char) : Prop := c = '\n' ∨ c = '\u2028' ∨ c = '\u2029'

/-- These are line breaks. -/
theorem IsLineBreak.isBreak (h : IsLineBreak c) : isBreak c = true := by
  rcases h with rfl | rfl | rfl <;> rfl

/-- The characters of the text of a literal block. -/
def IsLiteralChar (c : Char) : Prop := c ≠ '\x00' ∧ c ≠ '\t' ∧ (isBreak c = true → IsLineBreak c)

/-- Line breaks may stand in a literal block. -/
theorem IsLineBreak.isLiteralChar (h : IsLineBreak c) : IsLiteralChar c := by
  refine ⟨?_, ?_, fun _ => h⟩ <;> rcases h with rfl | rfl | rfl <;> decide

/-- The `n` spaces before `ds` are the indentation that is passed over where `indent` is expected. -/
def Indents (indent : Option Nat) (n : Nat) (ds : List Char) : Prop :=
  match indent with
  | some k => n ≤ k ∧ (n < k → ds.head? ≠ some ' ')
  | none => ds.head? ≠ some ' '

/-- The text goes on with the contents of a line, or ends. -/
def BeginsLine (cs : List Char) : Prop := ∀ c ∈ cs.head?, isBreak c = false ∧ c ≠ '\t'

/-- A line break leads to the beginning of a line. -/
theorem Mark.column_after_break (hc : isBreak c = true) : (m.after [c]).column = 0 := by
  rw [Mark.after, if_pos hc]
  rfl

/-- The spaces after some line breaks lead to their column. -/
theorem Mark.column_after_breaks (hne : ws ≠ []) (hws : ∀ c ∈ ws, isBreak c = true) (n : Nat) :
    (m.after (ws ++ Printer.spaces n)).column = n := by
  have hzero : (m.after ws).column = 0 := by
    obtain ⟨u, c, rfl⟩ := (List.eq_nil_or_concat ws).resolve_left hne
    rw [List.concat_eq_append, Mark.after_append, column_after_break (hws c (by simp))]
  rw [Mark.after_append, Mark.column_after_of_line fun c => isBreak_of_mem_spaces, hzero,
    length_spaces, Nat.zero_add]

/-- The spaces before something else are counted. -/
theorem takeWhile_spaces {n : Nat} (h : ds.head? ≠ some ' ') :
    ((Printer.spaces n ++ ds).takeWhile (· = ' ')).length = n := by
  rw [List.takeWhile_append_of_pos fun c hc => decide_eq_true (eq_of_mem_spaces hc)]
  cases ds with
  | nil => simp
  | cons d ds =>
    rw [List.takeWhile_cons_of_neg (by simpa using h)]
    simp

namespace Scan

/-- The indentation of a line is passed over. -/
theorem skip_indentation {indent : Option Nat} {n : Nat} (h : Indents indent n ds) 
    (hm : m.column = 0) :
    (before (Printer.spaces n ++ ds) m).skip
      ((indent.map (min ((Printer.spaces n ++ ds).takeWhile (· = ' ')).length <| · - m.column)).getD
        ((Printer.spaces n ++ ds).takeWhile (· = ' ')).length) =
      before ds (m.after (Printer.spaces n)) := by
  have hcount : (indent.map (min ((Printer.spaces n ++ ds).takeWhile (· = ' ')).length <| · - m.column)).getD
        ((Printer.spaces n ++ ds).takeWhile (· = ' ')).length = (Printer.spaces n).length := by
    rw [length_spaces, hm]
    cases indent with
    | none => exact takeWhile_spaces h
    | some k =>
      obtain ⟨hle, hlt⟩ := h
      show min ((Printer.spaces n ++ ds).takeWhile (· = ' ')).length (k - 0) = n
      rcases Nat.lt_or_eq_of_le hle with hn | rfl
      · rw [takeWhile_spaces (hlt hn)]
        omega
      · rw [List.takeWhile_append_of_pos fun c hc => decide_eq_true (eq_of_mem_spaces hc)]
        rw [List.length_append, length_spaces]
        omega
  -- No more spaces are passed over than expected, and all of them if there are fewer.
  rw [hcount, Cursor.skip_before fun c => isBreak_of_mem_spaces]

/-- The indentation of a line is read, and then a break or something else. -/
theorem blankLines_indentation (start : Mark) {indent : Option Nat} {n : Nat}
    (hindent : Indents indent n ds) (htab : ds.head? ≠ some '\t') (fuel widest : Nat)
    (breaks : List Char) (stop m : Mark) (hm : m.column = 0) :
    blankLines start indent (fuel + 1) widest breaks stop (before (Printer.spaces n ++ ds) m) =
      (do
        if isBreak (← peek) then
          let b ← takeLine
          blankLines start indent fuel (max widest n) (b.toList ++ breaks) (← mark)
        else pure (max widest n, breaks, stop) : Scan _)
        (before ds (m.after (Printer.spaces n))) := by
  have hcolumn : (m.after (Printer.spaces n)).column = n := by
    rw [Mark.column_after_of_line fun c => isBreak_of_mem_spaces, hm, length_spaces, Nat.zero_add]
  have hpeek : decide ((before ds (m.after (Printer.spaces n))).peek 0 = '\t') = false := by
    cases ds with
    | nil => rfl
    | cons d ds => exact decide_eq_false fun e => htab (congrArg some e)
  rw [blankLines, get_bind, mark_bind]
  show (skip _ >>= _) _ = _
  rw [skip_bind]
  simp only [Cursor.before_rest, Cursor.before_mark]
  rw [skip_indentation hindent hm, mark_bind]
  show (peek >>= _) _ = _
  rw [peek_bind, hpeek, Cursor.before_mark, hcolumn]
  rfl

/-- Blank lines are read up to the indentation of the next line. -/
theorem blankLines_before (start : Mark) {indent : Option Nat} {n : Nat}
    (hws : ∀ c ∈ ws, IsLineBreak c) (hindent : Indents indent n ds) (hds : BeginsLine ds)
    {fuel : Nat} (hfuel : ws.length < fuel) (widest : Nat) (breaks : List Char) (stop m : Mark)
    (hm : m.column = 0) :
    ∃ stop', blankLines start indent fuel widest breaks stop
      (before (ws ++ (Printer.spaces n ++ ds)) m) =
      .ok ((max widest n, ws.reverse ++ breaks, stop'),
        before ds (m.after (ws ++ Printer.spaces n))) := by
  induction ws generalizing fuel widest breaks stop m with
  | nil =>
    obtain ⟨fuel, rfl⟩ : ∃ n, fuel = n + 1 := ⟨fuel - 1, by omega⟩
    have htab : ds.head? ≠ some '\t' := fun h => absurd rfl (hds _ h).2
    have hpeek : isBreak ((before ds (m.after (Printer.spaces n))).peek 0) = false := by
      cases ds with
      | nil => rfl
      | cons d ds => exact (hds d rfl).1
    refine ⟨stop, ?_⟩
    rw [List.nil_append, blankLines_indentation start hindent htab fuel widest breaks stop m hm,
      peek_bind, hpeek]
    rfl
  | cons c ws ih =>
    -- A blank line has no indentation at all, and the break that it is puts the rest on the next line.
    obtain ⟨fuel, rfl⟩ : ∃ n, fuel = n + 1 := ⟨fuel - 1, by omega⟩
    have hc := hws c List.mem_cons_self
    have htab : (c :: ws ++ (Printer.spaces n ++ ds)).head? ≠ some '\t' := by
      rcases hc with rfl | rfl | rfl <;> exact fun h => absurd (Option.some.inj h) (by decide)
    have hspace : Indents indent 0 (c :: ws ++ (Printer.spaces n ++ ds)) := by
      have : (c :: ws ++ (Printer.spaces n ++ ds)).head? ≠ some ' ' := by
        rcases hc with rfl | rfl | rfl <;> exact fun h => absurd (Option.some.inj h) (by decide)
      cases indent with
      | none => exact this
      | some k => exact ⟨Nat.zero_le k, fun _ => this⟩
    obtain ⟨stop', h⟩ := ih (fun d hd => hws d (List.mem_cons_of_mem _ hd))
      (by simpa using hfuel) (max widest 0) (c :: breaks) (m.after [c]) (m.after [c])
      (Mark.column_after_break hc.isBreak)
    have hstep := blankLines_indentation start hspace htab fuel widest breaks stop m hm
    have htake : (before (c :: (ws ++ (Printer.spaces n ++ ds))) m).takeLine = _ :=
      Cursor.takeLine_before hc
    refine ⟨stop', hstep.trans ?_⟩
    rw [peek_bind]
    show (if isBreak c = true then _ else _ : Scan _) _ = _
    rw [if_pos hc.isBreak, takeLine_bind]
    have hmark : m.after (Printer.spaces 0) = m := rfl
    rw [hmark, List.cons_append, htake, mark_bind]
    refine h.trans ?_
    rw [Nat.max_zero, List.reverse_cons, List.append_assoc]
    rfl

/-- At the end of the text there are no blank lines. -/
theorem blankLines_nil (start : Mark) (indent : Option Nat) (fuel widest : Nat)
    (breaks : List Char) (stop m : Mark) :
    ∃ widest', blankLines start indent fuel widest breaks stop (before [] m) =
      .ok ((widest', breaks, stop), before [] m) := by
  cases fuel with
  | zero => exact ⟨_, rfl⟩
  | succ fuel =>
    refine ⟨max widest m.column, ?_⟩
    have hskip (n : Nat) (hn : n = 0) : (before [] m).skip n = before [] m := by
      subst hn
      rfl
    rw [blankLines, get_bind, mark_bind]
    show (skip _ >>= _) _ = _
    rw [skip_bind, hskip _ (by cases indent <;> simp)]
    rfl

end Scan

/-! ## Lines -/

namespace Scan

/-- All that has been read of a block scalar, in reverse. -/
def BlockText.total (b : BlockText) : List Char := b.blank ++ (b.lineBreak.toList ++ b.text)

/-- A block scalar with one more line `w`, and the breaks `ws` after that. -/
def BlockText.addLine (b : BlockText) (w ws : List Char) (afterBlank : Bool) : BlockText :=
  ⟨w.reverse ++ b.total, ws.head?, ws.tail.reverse, afterBlank⟩

/-- A line is read after all that has been read before. -/
theorem BlockText.total_addLine (b : BlockText) (w ws : List Char) (afterBlank : Bool) :
    (b.addLine w ws afterBlank).total = (w ++ ws).reverse ++ b.total := by
  cases ws with
  | nil => simp [total, addLine]
  | cons c ws => simp [total, addLine]

/-- A block scalar ends before content that stands elsewhere. -/
theorem blockLines_end (start : Mark) (isLiteral : Bool) {indent : Nat}
    (h : m.column ≠ indent ∨ ds = []) (fuel : Nat) (b : BlockText) (stop : Mark) :
    blockLines start isLiteral indent fuel b stop (before ds m) = .ok ((b, stop), before ds m) := by
  cases fuel with
  | zero => rfl
  | succ fuel =>
    have hstop : (decide ((before ds m).mark.column = indent) &&
        decide ((before ds m).peek 0 ≠ '\x00')) = false := by
      rcases h with h | rfl
      · exact (congrArg (· && _) (decide_eq_false h)).trans (Bool.false_and _)
      · exact Bool.and_false _
    rw [blockLines, peek_bind, mark_bind, hstop]
    rfl

/-- A line of a literal block is read, and then what comes after it. -/
theorem blockLines_line (start : Mark) {indent : Nat} {w : List Char} (hne : w ≠ [])
    (hw : ∀ c ∈ w, isBreakOrEnd c = false) (hds : ∀ c ∈ ds.head?, isBreakOrEnd c = true) (fuel : Nat)
    (b : BlockText) (stop m : Mark) (hm : m.column = indent) :
    ∃ afterBlank, blockLines start true indent (fuel + 1) b stop (before (w ++ ds) m) =
      (do
        let lineBreak ← takeLine
        let (_, blank, stop) ← blankLines start (some indent) ((← remaining) + 1) 0 [] (← mark)
        blockLines start true indent fuel
          { text := w.reverse ++ b.total, lineBreak, blank, afterBlank } stop : Scan _)
        (before ds (m.after w)) := by
  obtain ⟨c, rest, rfl⟩ := List.exists_cons_of_ne_nil hne
  have hc : isBreakOrEnd c = false := hw c List.mem_cons_self
  have hgo : (decide ((before (c :: rest ++ ds) m).mark.column = indent) &&
      decide ((before (c :: rest ++ ds) m).peek 0 ≠ '\x00')) = true := by
    have hend : c ≠ '\x00' := by
      rintro rfl
      cases hc
    rw [Bool.and_eq_true]
    exact ⟨decide_eq_true hm, decide_eq_true hend⟩
  have hline : ∀ d ∈ c :: rest, isBreak d = false := fun d hd =>
    (Bool.or_eq_false_iff.1 (hw d hd)).1
  have htake := Cursor.takeWhile_before (m := m) (p := fun c => !isBreakOrEnd c)
    (fun d hd => by simpa using hw d hd) hline (fun d hd => by simpa using hds d hd)
  refine ⟨isBlank c, ?_⟩
  rw [blockLines, peek_bind, mark_bind, if_pos hgo, takeWhile_bind, htake]
  simp only [BlockText.total, List.append_assoc]
  rfl

/-- What has been read of a block scalar once `cs` has come after `before`: its lines, the break
after the last of them, and the blank lines after that. -/
def BlockText.Holds (b : BlockText) (before cs : List Char) : Prop :=
  ∃ core trail, cs = core ++ trail ∧ core ≠ [] ∧ (∀ c ∈ core.getLast?, isBreak c = false) ∧
    (∀ c ∈ trail, isBreak c = true) ∧ b.text = core.reverse ++ before ∧
    b.lineBreak = trail.head? ∧ b.blank = trail.tail.reverse

/-- A line and the line breaks after it have come. -/
theorem BlockText.holds_addLine (b : BlockText) {w gap : List Char} (hne : w ≠ [])
    (hw : ∀ c ∈ w, isBreak c = false) (hgap : ∀ c ∈ gap, isBreak c = true) (afterBlank : Bool) :
    (b.addLine w gap afterBlank).Holds b.total (w ++ gap) :=
  ⟨w, gap, rfl, hne, fun c hc => hw c (List.mem_of_getLast? hc), hgap, rfl, rfl, rfl⟩

/-- What has come after a line has come with that line before it. -/
theorem BlockText.Holds.after_line {b b' : BlockText} {w gap rest : List Char} {afterBlank : Bool}
    (h : b'.Holds (b.addLine w gap afterBlank).total rest) : b'.Holds b.total (w ++ (gap ++ rest)) := by
  obtain ⟨core, trail, rfl, hne, hcore, htrail, htext, hbreak, hblank⟩ := h
  refine ⟨w ++ (gap ++ core), trail, by simp, by simp [hne], ?_, htrail, ?_, hbreak, hblank⟩
  · rwa [← List.append_assoc, List.getLast?_append, Option.or_of_isSome (by simpa using hne)]
  · rw [htext, total_addLine]
    simp

end Scan

/-- Characters of one line are written one after the other. -/
theorem literalChars_line (indent : Nat) (hws : ∀ c ∈ ws, isBreak c = false) (cs : List Char) :
    Printer.literalChars indent false (ws ++ cs) = ws ++ Printer.literalChars indent false cs := by
  induction ws with
  | nil => rfl
  | cons c ws ih =>
    rw [List.cons_append, Printer.literalChars, hws c List.mem_cons_self, if_neg Bool.false_ne_true,
      ih fun d hd => hws d (List.mem_cons_of_mem _ hd)]
    rfl

/-- Line breaks are written one after the other. -/
theorem literalChars_breaks (indent : Nat) (hws : ∀ c ∈ ws, isBreak c = true) (cs : List Char) :
    Printer.literalChars indent true (ws ++ cs) = ws ++ Printer.literalChars indent true cs := by
  induction ws with
  | nil => rfl
  | cons c ws ih =>
    rw [List.cons_append, Printer.literalChars, if_pos (hws c List.mem_cons_self),
      ih fun d hd => hws d (List.mem_cons_of_mem _ hd)]
    rfl

/-- The first break of some ends the line. -/
theorem literalChars_false_breaks (indent : Nat) (hne : ws ≠ []) (hws : ∀ c ∈ ws, isBreak c = true)
    (cs : List Char) :
    Printer.literalChars indent false (ws ++ cs) = ws ++ Printer.literalChars indent true cs := by
  rw [← literalChars_breaks indent hws]
  obtain ⟨c, ws, rfl⟩ := List.exists_cons_of_ne_nil hne
  rw [List.cons_append, Printer.literalChars, Printer.literalChars, if_pos (hws c List.mem_cons_self),
    if_pos (hws c List.mem_cons_self)]

/-- Line breaks at the end are written as they are. -/
theorem literalChars_append_breaks (indent : Nat) (hws : ∀ c ∈ ws, isBreak c = true) (broken : Bool)
    (cs : List Char) :
    Printer.literalChars indent broken (cs ++ ws) = Printer.literalChars indent broken cs ++ ws := by
  induction cs generalizing broken with
  | nil =>
    show Printer.literalChars indent broken ws = ws
    cases broken with
    | true => simpa [Printer.literalChars] using literalChars_breaks indent hws []
    | false =>
      by_cases hne : ws = []
      · rw [hne]
        rfl
      · simpa [Printer.literalChars] using literalChars_false_breaks indent hne hws []
  | cons c cs ih =>
    rw [List.cons_append, Printer.literalChars, Printer.literalChars, ih, ih]
    split
    · rfl
    · rw [List.append_assoc]
      rfl

/-- A text is written with at least as many characters as it has. -/
theorem length_le_literalChars (indent : Nat) (broken : Bool) (cs : List Char) :
    cs.length ≤ (Printer.literalChars indent broken cs).length := by
  induction cs generalizing broken with
  | nil => exact Nat.le_refl _
  | cons c cs ih =>
    rw [Printer.literalChars]
    split
    · exact Nat.succ_le_succ (ih true)
    · have := ih false
      simp only [List.length_append, List.length_cons]
      omega

/-- What is written of a line after the indentation begins like the text. -/
theorem beginsLine_literalChars (indent : Nat) (hne : cs ≠ []) (hcs : ∀ c ∈ cs, IsLiteralChar c)
    (hhead : ∀ c ∈ cs.head?, isBreak c = false) (ds : List Char) :
    (Printer.literalChars indent false cs ++ ds).head? = cs.head? ∧
      BeginsLine (Printer.literalChars indent false cs ++ ds) := by
  obtain ⟨c, cs, rfl⟩ := List.exists_cons_of_ne_nil hne
  have hc := hhead c rfl
  have hwrite : Printer.literalChars indent false (c :: cs) =
      c :: Printer.literalChars indent false cs := by
    rw [Printer.literalChars, hc]
    rfl
  rw [hwrite]
  refine ⟨rfl, fun d hd => ?_⟩
  obtain rfl : c = d := Option.some.inj hd
  exact ⟨hc, (hcs c List.mem_cons_self).2.1⟩

/-- A line begins with the indentation. -/
theorem literalChars_true (indent : Nat) (hne : cs ≠ []) (hcs : ∀ c ∈ cs.head?, isBreak c = false) :
    Printer.literalChars indent true cs =
      Printer.spaces indent ++ Printer.literalChars indent false cs := by
  obtain ⟨c, cs, rfl⟩ := List.exists_cons_of_ne_nil hne
  rw [Printer.literalChars, Printer.literalChars, hcs c rfl]
  rfl

namespace Scan

/-- A line and the breaks after it are read together, up to the indentation of the next line. -/
theorem blockLines_breaks (start : Mark) {indent n : Nat} {w : List Char} (hne : w ≠ [])
    (hw : ∀ c ∈ w, isBreakOrEnd c = false) (hwsne : ws ≠ []) (hws : ∀ c ∈ ws, IsLineBreak c)
    (hindent : Indents (some indent) n ds) (hds : BeginsLine ds) (fuel : Nat) (b : BlockText)
    (stop m : Mark) (hm : m.column = indent) :
    ∃ afterBlank stop', blockLines start true indent (fuel + 1) b stop
        (before (w ++ (ws ++ (Printer.spaces n ++ ds))) m) =
      blockLines start true indent fuel (b.addLine w ws afterBlank) stop'
        (before ds (m.after (w ++ (ws ++ Printer.spaces n)))) := by
  obtain ⟨c, rest, rfl⟩ := List.exists_cons_of_ne_nil hwsne
  have hc := hws c List.mem_cons_self
  have hbreak : ∀ d ∈ (c :: rest ++ (Printer.spaces n ++ ds)).head?, isBreakOrEnd d = true := by
    intro d hd
    rw [← Option.some.inj hd, isBreakOrEnd, hc.isBreak, Bool.true_or]
  obtain ⟨afterBlank, hline⟩ := blockLines_line start hne hw hbreak fuel b stop m hm
  obtain ⟨stop', hblank⟩ := blankLines_before start (fun d hd => hws d (List.mem_cons_of_mem _ hd))
    hindent hds (show rest.length < (rest ++ (Printer.spaces n ++ ds)).length + 1 by
      simp only [List.length_append]; omega) 0 []
    ((m.after w).after [c]) ((m.after w).after [c]) (Mark.column_after_break hc.isBreak)
  refine ⟨afterBlank, stop', hline.trans ?_⟩
  rw [takeLine_bind, List.cons_append, Cursor.takeLine_before hc]
  show (remaining >>= _) _ = _
  rw [remaining_bind, Cursor.before_remaining, mark_bind, Cursor.before_mark, bind_of hblank]
  simp only [List.append_nil, Mark.after_append]
  rfl

/-- A line that the text ends in is read. -/
theorem blockLines_last (start : Mark) {indent : Nat} {w : List Char} (hne : w ≠ [])
    (hw : ∀ c ∈ w, isBreakOrEnd c = false) (fuel : Nat) (b : BlockText) (stop m : Mark)
    (hm : m.column = indent) :
    ∃ b' stop', blockLines start true indent (fuel + 1) b stop (before w m) =
        .ok ((b', stop'), before [] (m.after w)) ∧ b'.Holds b.total w := by
  obtain ⟨afterBlank, hline⟩ := blockLines_line start hne hw
    (show ∀ c ∈ ([] : List Char).head?, _ from nofun) fuel b stop m hm
  obtain ⟨widest, hblank⟩ := blankLines_nil start (some indent)
    (([] : List Char).length + 1) 0 [] (m.after w) (m.after w)
  have hholds := b.holds_addLine hne (fun c hc => (Bool.or_eq_false_iff.1 (hw c hc)).1)
    (show ∀ c ∈ [], isBreak c = true from nofun) afterBlank
  rw [List.append_nil] at hline hholds
  refine ⟨_, m.after w, ?_, hholds⟩
  rw [hline, takeLine_bind]
  show (remaining >>= _) (before [] (m.after w)) = _
  rw [remaining_bind, Cursor.before_remaining, mark_bind, Cursor.before_mark, bind_of hblank]
  exact blockLines_end start true (.inr rfl) fuel _ _

/-- A line is read with the breaks after it, where what follows them is no part of the block. -/
theorem blockLines_breaks_end (start : Mark) {indent n : Nat} (hn : n < indent) {w : List Char}
    (hne : w ≠ []) (hw : ∀ c ∈ w, isBreakOrEnd c = false) (hwsne : ws ≠ [])
    (hws : ∀ c ∈ ws, IsLineBreak c) (hds : BeginsLine ds) (hspace : ds.head? ≠ some ' ') (fuel : Nat)
    (b : BlockText) (stop m : Mark) (hm : m.column = indent) :
    ∃ b' stop', blockLines start true indent (fuel + 1) b stop
        (before (w ++ (ws ++ (Printer.spaces n ++ ds))) m) =
      .ok ((b', stop'), before ds (m.after (w ++ (ws ++ Printer.spaces n)))) ∧
      b'.Holds b.total (w ++ ws) := by
  have hbreaks : ∀ c ∈ ws, isBreak c = true := fun c hc => (hws c hc).isBreak
  obtain ⟨afterBlank, stop', hstep⟩ := blockLines_breaks start hne hw hwsne hws
    (n := n) ⟨Nat.le_of_lt hn, fun _ => hspace⟩ hds fuel b stop m hm
  have hcolumn : (m.after (w ++ (ws ++ Printer.spaces n))).column = n := by
    rw [Mark.after_append, Mark.column_after_breaks hwsne hbreaks]
  refine ⟨b.addLine w ws afterBlank, stop', ?_, ?_⟩
  · rw [hstep, blockLines_end start true (.inl (by omega))]
  · exact b.holds_addLine hne (fun c hc => (Bool.or_eq_false_iff.1 (hw c hc)).1) hbreaks afterBlank

/-- The lines of a literal block are read up to content further left, or to the end of the text. -/
theorem blockLines_before (start : Mark) {indent n : Nat} (hn : n < indent) (hne : cs ≠ [])
    (hcs : ∀ c ∈ cs, IsLiteralChar c)
    (hstart : ∀ c ∈ cs.head?, isBreak c = false) (hds : BeginsLine ds) (hspace : ds.head? ≠ some ' ')
    (hend : (∃ c ∈ cs.getLast?, isBreak c = true) ∨ n = 0 ∧ ds = []) {fuel : Nat}
    (hfuel : cs.length < fuel) (b : BlockText) (stop m : Mark) (hm : m.column = indent) :
    ∃ b' stop', blockLines start true indent fuel b stop
        (before (Printer.literalChars indent false cs ++ (Printer.spaces n ++ ds)) m) =
      .ok ((b', stop'), before ds
        (m.after (Printer.literalChars indent false cs ++ Printer.spaces n))) ∧
      b'.Holds b.total cs := by
  -- The text is split into its lines, each with the line breaks after it; only the last may have none.
  induction gapped isBreak cs generalizing fuel b stop m with
  | @last w hw =>
    -- Only at the end of the text may a block break off without a line break.
    obtain ⟨rfl, rfl⟩ : n = 0 ∧ ds = [] := by
      refine hend.resolve_left ?_
      rintro ⟨c, hc, hbreak⟩
      rw [hw c (List.mem_of_getLast? hc)] at hbreak
      cases hbreak
    obtain ⟨fuel, rfl⟩ : ∃ n, fuel = n + 1 := ⟨fuel - 1, by omega⟩
    have hsolid : ∀ c ∈ w, isBreakOrEnd c = false := fun c hc =>
      Bool.or_eq_false_iff.2 ⟨hw c hc, decide_eq_false (hcs c hc).1⟩
    have hwrite : Printer.literalChars indent false w = w := by
      simpa [Printer.literalChars] using literalChars_line indent hw []
    rw [hwrite, Printer.spaces, List.replicate_zero, List.append_nil, List.append_nil]
    exact blockLines_last start hne hsolid fuel b stop m hm
  | @more w gap rest hw hgap hgaps hrest h ih =>
    obtain ⟨fuel, rfl⟩ : ∃ n, fuel = n + 1 := ⟨fuel - 1, by omega⟩
    have hwne : w ≠ [] := by
      rintro rfl
      obtain ⟨c, gap, rfl⟩ := List.exists_cons_of_ne_nil hgap
      have := hstart c rfl
      rw [hgaps c List.mem_cons_self] at this
      cases this
    have hsolid : ∀ c ∈ w, isBreakOrEnd c = false := fun c hc =>
      Bool.or_eq_false_iff.2 ⟨hw c hc, decide_eq_false (hcs c (by simp [hc])).1⟩
    have hbreaks : ∀ c ∈ gap, IsLineBreak c := fun c hc => (hcs c (by simp [hc])).2.2 (hgaps c hc)
    rw [literalChars_line indent hw, literalChars_false_breaks indent hgap hgaps]
    by_cases hr : rest = []
    · subst hr
      simp only [Printer.literalChars, List.append_nil, List.append_assoc]
      exact blockLines_breaks_end start hn hwne hsolid hgap hbreaks hds hspace fuel b stop m hm
    · -- The next line stands at the indentation of the block.
      have hbegins := (beginsLine_literalChars indent hr (fun c hc => hcs c (by simp [hc])) hrest
        (Printer.spaces n ++ ds)).2
      obtain ⟨afterBlank, stop₁, hstep⟩ := blockLines_breaks start hwne hsolid hgap hbreaks
        (n := indent) ⟨Nat.le_refl _, fun h => absurd h (Nat.lt_irrefl _)⟩ hbegins fuel b stop m hm
      have hcolumn : (m.after (w ++ (gap ++ Printer.spaces indent))).column = indent := by
        rw [Mark.after_append, Mark.column_after_breaks hgap hgaps]
      have hlast : (∃ c ∈ rest.getLast?, isBreak c = true) ∨ n = 0 ∧ ds = [] := by
        rwa [← List.append_assoc, List.getLast?_append, Option.or_of_isSome (by simpa using hr)]
          at hend
      have hlength : rest.length < fuel := by
        simp only [List.length_append] at hfuel
        have := List.length_pos_iff.2 hwne
        omega
      obtain ⟨b', stop', hread, hholds⟩ := ih hr (fun c hc => hcs c (by simp [hc])) hrest hlast hlength
        (b.addLine w gap afterBlank) stop₁ _ hcolumn
      refine ⟨b', stop', ?_, hholds.after_line⟩
      rw [literalChars_true indent hr hrest]
      simp only [List.append_assoc] at hstep hread ⊢
      rw [hstep, hread]
      simp only [Mark.after_append]

end Scan

/-! ## The header -/

/-- The indicator of a way to end a block scalar. -/
def Scan.Chomping.indicator : Scan.Chomping → List Char
  | .clip => []
  | .strip => ['-']
  | .keep => ['+']

/-- How the printer ends the literal block of a text. -/
def literalChomping (cs : List Char) : Scan.Chomping :=
  match cs.reverse with
  | a :: b :: _ => if !isBreak a then .strip else if isBreak b then .keep else .clip
  | [a] => if isBreak a then .keep else .strip
  | [] => .strip

/-- Whether the printer tells the indentation of the literal block of a text. -/
def beginsWithSpace : List Char → Bool
  | c :: _ => decide (c = ' ') || isBreak c
  | [] => false

/-- The indicators are those of the indentation and of the end. -/
theorem literalHints_eq (cs : List Char) :
    Printer.literalHints cs =
      (if beginsWithSpace cs then ['2'] else []) ++ (literalChomping cs).indicator := by
  -- The printer looks at the text from its end.
  have hstop (ds : List Char) : (match ds with
      | a :: b :: _ => if !isBreak a then ['-'] else if isBreak b then ['+'] else []
      | [a] => if isBreak a then ['+'] else ['-']
      | [] => ['-']) = (literalChomping ds.reverse).indicator := by
    unfold literalChomping
    rw [List.reverse_reverse]
    split
    · split <;> [rfl; split <;> rfl]
    · split <;> rfl
    · rfl
  have hstart : (match cs with
      | c :: _ => if c = ' ' || isBreak c then ['2'] else []
      | [] => []) = if beginsWithSpace cs then ['2'] else [] := by
    cases cs <;> rfl
  have hreverse := hstop cs.reverse
  rw [List.reverse_reverse] at hreverse
  exact congrArg₂ (· ++ ·) hstart hreverse

namespace Scan

/-- The indicator of the end is read, if there is one. -/
theorem chomping?_before (chomping : Chomping) (ds : List Char) (m : Mark) :
    chomping? (before (chomping.indicator ++ '\n' :: ds) m) =
      .ok (if chomping = .clip then none else some chomping,
        before ('\n' :: ds) (m.after chomping.indicator)) := by
  cases chomping with
  | clip => rfl
  | strip => exact skip_one_bind (d := '-') rfl fun _ => pure (some Chomping.strip)
  | keep => exact skip_one_bind (d := '+') rfl fun _ => pure (some Chomping.keep)

/-- The indicators of a literal block are read, up to the end of their line. -/
theorem blockHeader_before (start : Mark) (wide : Bool) (chomping : Chomping) (ds : List Char)
    (m : Mark) :
    blockHeader start
        (before ((if wide then ['2'] else []) ++ (chomping.indicator ++ '\n' :: ds)) m) =
      .ok ((chomping, if wide then some 2 else none),
        before ('\n' :: ds) (m.after ((if wide then ['2'] else []) ++ chomping.indicator))) := by
  cases wide with
  | false =>
    have hchomping := chomping?_before chomping ds m
    have hwidth (m : Mark) :
        indentation? start (before ('\n' :: ds) m) = .ok (none, before ('\n' :: ds) m) := rfl
    show (chomping? >>= _) (before (chomping.indicator ++ '\n' :: ds) m) = _
    rw [bind_of hchomping]
    cases chomping with
    | clip => rfl
    | strip =>
      show (indentation? start >>= _) _ = _
      rw [bind_of (hwidth _)]
      rfl
    | keep =>
      show (indentation? start >>= _) _ = _
      rw [bind_of (hwidth _)]
      rfl
  | true =>
    have hchomping := chomping?_before chomping ds (m.after ['2'])
    -- The indentation is told first, so the end is looked for twice.
    have hwidth (rest : List Char) :
        indentation? start (before ('2' :: rest) m) = .ok (some 2, before rest (m.after ['2'])) :=
      skip_one_bind (d := '2') rfl fun _ => pure (some 2)
    have hnone (rest : List Char) :
        chomping? (before ('2' :: rest) m) = .ok (none, before ('2' :: rest) m) := rfl
    show (chomping? >>= _) (before ('2' :: (chomping.indicator ++ '\n' :: ds)) m) = _
    rw [bind_of (hnone _)]
    show (indentation? start >>= _) _ = _
    rw [bind_of (hwidth _)]
    show (chomping? >>= _) _ = _
    rw [bind_of hchomping]
    cases chomping <;> rfl

/-- The end of a line is read. -/
theorem finishLine_before (activity : Activity) (start : Mark) (ds : List Char) (m : Mark) :
    finishLine activity start (before ('\n' :: ds) m) = .ok ((), before ds (m.after ['\n'])) := by
  have hblank : (before ('\n' :: ds) m).takeWhile isBlank = ([], before ('\n' :: ds) m) :=
    Cursor.takeWhile_before (show ∀ c ∈ ([] : List Char), _ from nofun) nofun (by simp; decide)
  have htake : (before ('\n' :: ds) m).takeLine = _ := Cursor.takeLine_before (.inl rfl)
  rw [finishLine, skipWhile_bind, hblank]
  show (takeLine >>= fun _ => pure ()) (before ('\n' :: ds) m) = _
  rw [takeLine_bind, htake]
  rfl

end Scan

/-! ## The end -/

/-- Where the end is stripped, the text ends in no line break. -/
theorem getLast_of_strip (h : literalChomping cs = .strip) :
    ∀ c ∈ cs.getLast?, isBreak c = false := by
  intro c hc
  unfold literalChomping at h
  rw [← List.head?_reverse] at hc
  split at h
  · rename_i a b rest hr
    rw [hr] at hc
    obtain rfl : a = c := Option.some.inj hc
    by_cases ha : isBreak a = true
    · rw [ha] at h
      split at h
      · rename_i hfalse
        cases hfalse
      · split at h <;> cases h
    · exact Bool.eq_false_iff.2 ha
  · rename_i a hr
    rw [hr] at hc
    obtain rfl : a = c := Option.some.inj hc
    split at h
    · cases h
    · rename_i ha
      exact Bool.eq_false_iff.2 ha
  · rename_i hr
    rw [hr] at hc
    cases hc

/-- The end of a text of line breaks is kept. -/
theorem literalChomping_of_breaks (hne : cs ≠ []) (hcs : ∀ c ∈ cs, isBreak c = true) :
    literalChomping cs = .keep := by
  unfold literalChomping
  split
  · rename_i a b rest hr
    have ha : isBreak a = true := hcs a (List.mem_reverse.1 (by rw [hr]; simp))
    have hb : isBreak b = true := hcs b (List.mem_reverse.1 (by rw [hr]; simp))
    rw [ha, hb]
    rfl
  · rename_i a hr
    have ha : isBreak a = true := hcs a (List.mem_reverse.1 (by rw [hr]; simp))
    rw [ha]
    rfl
  · rename_i hr
    exact absurd (List.reverse_eq_nil_iff.1 hr) hne

/-- Where the end is clipped, the text ends in one line break. -/
theorem exists_of_clip (h : literalChomping cs = .clip) :
    ∃ core b, cs = core ++ [b] ∧ core ≠ [] ∧ isBreak b = true ∧
      ∀ c ∈ core.getLast?, isBreak c = false := by
  unfold literalChomping at h
  split at h
  · rename_i a b rest hr
    have hcs : cs = (rest.reverse ++ [b]) ++ [a] := by
      rw [← List.reverse_reverse cs, hr]
      simp
    split at h
    · cases h
    · rename_i ha
      split at h
      · cases h
      · rename_i hb
        refine ⟨_, a, hcs, by simp, by simpa using ha, ?_⟩
        simpa using hb
  · split at h <;> cases h
  · cases h

namespace Scan

/-- What is kept of a block scalar. -/
def BlockText.chomp (b : BlockText) : Chomping → List Char
  | .strip => b.text
  | .clip => b.lineBreak.toList ++ b.text
  | .keep => b.blank ++ b.lineBreak.toList ++ b.text

/-- What is left of a text without the line breaks at its end. -/
def core (cs : List Char) : List Char := (cs.reverse.dropWhile isBreak).reverse

/-- The line breaks at the end of a text. -/
def trail (cs : List Char) : List Char := (cs.reverse.takeWhile isBreak).reverse

/-- What an indicator leaves of the lines of a block. -/
def Chomping.leaves (chomping : Chomping) (cs : List Char) : List Char :=
  match chomping with
  | .strip => core cs
  | .clip => core cs ++ (trail cs).take 1
  | .keep => cs

/-- Line breaks after a text that ends in none are those at the end. -/
theorem core_append (hcs : ∀ c ∈ cs.getLast?, isBreak c = false) (hws : ∀ c ∈ ws, isBreak c = true) :
    core (cs ++ ws) = cs ∧ trail (cs ++ ws) = ws := by
  have hdrop : cs.reverse.dropWhile isBreak = cs.reverse ∧ cs.reverse.takeWhile isBreak = [] := by
    cases h : cs.reverse with
    | nil => exact ⟨rfl, rfl⟩
    | cons c u =>
      have hc : ¬ isBreak c = true := by
        rw [hcs c (by rw [← List.head?_reverse, h]; rfl)]
        exact Bool.false_ne_true
      exact ⟨List.dropWhile_cons_of_neg hc, List.takeWhile_cons_of_neg hc⟩
  have hws : ∀ c ∈ ws.reverse, isBreak c = true := fun c hc => hws c (List.mem_reverse.1 hc)
  rw [core, trail, List.reverse_append, List.dropWhile_append_of_pos hws,
    List.takeWhile_append_of_pos hws, hdrop.1, hdrop.2, List.append_nil, List.reverse_reverse,
    List.reverse_reverse]
  exact ⟨rfl, rfl⟩

/-- Of the lines of a block there is left what its indicator says. -/
theorem BlockText.Holds.chomp {b : BlockText} {lead body : List Char} (h : b.Holds lead.reverse body)
    (chomping : Chomping) : b.chomp chomping = (chomping.leaves (lead ++ body)).reverse := by
  -- The block has a line, so that the breaks after its last one are those at the end of the text.
  obtain ⟨front, breaks, rfl, hne, hfront, hbreaks, htext, hbreak, hblank⟩ := h
  have hlast : ∀ c ∈ (lead ++ front).getLast?, isBreak c = false := by
    rwa [List.getLast?_append, Option.or_of_isSome (by simpa using hne)]
  obtain ⟨hcore, htrail⟩ := core_append hlast hbreaks
  rw [List.append_assoc] at hcore htrail
  cases chomping with
  | strip => simp [BlockText.chomp, Chomping.leaves, hcore, htext]
  | clip =>
    rw [BlockText.chomp, Chomping.leaves, hcore, htrail, htext, hbreak]
    cases breaks <;> simp
  | keep =>
    rw [BlockText.chomp, Chomping.leaves, htext, hbreak, hblank]
    cases breaks <;> simp

/-- Whether the blank lines at the beginning of the text of a block are read, and then its other lines,
up to the cursor `c`; of them there is left `cs`. -/
def ReadsBody (start : Mark) (known : Option Nat) (parent : Nat) (chomping : Chomping) (stop₀ m : Mark)
    (text : List Char) (c : Cursor) (cs : List Char) : Prop :=
  ∃ widest blank stop₁ b stop₂ c₁,
    blankLines start known (text.length + 1) 0 [] stop₀ (before text m) =
      .ok ((widest, blank, stop₁), c₁) ∧
    blockLines start true (known.getD (max (max widest parent) 1)) (c₁.size - c₁.mark.index + 1)
      { blank } stop₁ c₁ = .ok ((b, stop₂), c) ∧
    b.chomp chomping = cs.reverse

/-- After blank lines at the beginning of a line, the indentation is the column. -/
theorem column_after_lead {lead : List Char} {m : Mark} (hm : m.column = 0)
    (hlead : ∀ c ∈ lead, isBreak c = true) (n : Nat) :
    (m.after (lead ++ Printer.spaces n)).column = n := by
  by_cases hl : lead = []
  · rw [hl, List.nil_append, Mark.column_after_of_line fun c => isBreak_of_mem_spaces, hm,
      length_spaces, Nat.zero_add]
  · exact Mark.column_after_breaks hl hlead n

/-- A block whose indentation is told may consist of blank lines alone. -/
theorem blockBody_blank (start : Mark) {parent n : Nat} (hn : n ≤ parent) {chomping : Chomping}
    (hcs : ∀ c ∈ cs, IsLineBreak c) (hclip : chomping ≠ .clip) (hds : BeginsLine ds)
    (hspace : ds.head? ≠ some ' ') (stop₀ m : Mark) (hm : m.column = 0) :
    ReadsBody start (some (parent + 1)) parent chomping stop₀ m (cs ++ (Printer.spaces n ++ ds))
      (before ds (m.after (cs ++ Printer.spaces n))) (chomping.leaves cs) := by
  have hbreaks : ∀ c ∈ cs, isBreak c = true := fun c hc => (hcs c hc).isBreak
  have hindents : Indents (some (parent + 1)) n ds := ⟨Nat.le_succ_of_le hn, fun _ => hspace⟩
  obtain ⟨stop₁, hblank⟩ := blankLines_before start hcs hindents hds
    (show cs.length < (cs ++ (Printer.spaces n ++ ds)).length + 1 by
      rw [List.length_append]; omega) 0 [] stop₀ m hm
  have hcolumn := column_after_lead hm hbreaks n
  refine ⟨max 0 n, cs.reverse ++ [], stop₁, { blank := cs.reverse }, stop₁, _, hblank, ?_, ?_⟩
  · rw [List.append_nil]
    exact blockLines_end start true (.inl (by rw [hcolumn]; show n ≠ parent + 1; omega)) _ _ _
  · obtain ⟨hcore, -⟩ := core_append (show ∀ c ∈ [].getLast?, isBreak c = false from nofun) hbreaks
    cases chomping with
    | strip => simpa [BlockText.chomp, Chomping.leaves] using hcore.symm
    | keep => simp [BlockText.chomp, Chomping.leaves]
    | clip => exact absurd rfl hclip

/-- The lines of a block are read after its blank lines, at the indentation of the first of them. -/
theorem blockBody_lines (start : Mark) {parent n : Nat} (hn : n ≤ parent) {known : Option Nat}
    {chomping : Chomping} {lead body : List Char} (hlead : ∀ c ∈ lead, IsLineBreak c)
    (hne : body ≠ []) (hbody : ∀ c ∈ body, IsLiteralChar c)
    (hstart : ∀ c ∈ body.head?, isBreak c = false)
    (hknown : known = some (parent + 1) ∨ known = none ∧ body.head? ≠ some ' ')
    (hend : (∃ c ∈ body.getLast?, isBreak c = true) ∨ n = 0 ∧ ds = []) (hds : BeginsLine ds)
    (hspace : ds.head? ≠ some ' ') (stop₀ m : Mark) (hm : m.column = 0) :
    ReadsBody start known parent chomping stop₀ m (lead ++ (Printer.spaces (parent + 1) ++
        (Printer.literalChars (parent + 1) false body ++ (Printer.spaces n ++ ds))))
      (before ds (m.after (lead ++ (Printer.spaces (parent + 1) ++
        (Printer.literalChars (parent + 1) false body ++ Printer.spaces n)))))
      (chomping.leaves (lead ++ body)) := by
  have hbreaks : ∀ c ∈ lead, isBreak c = true := fun c hc => (hlead c hc).isBreak
  obtain ⟨hhead, hbegins⟩ :=
    beginsLine_literalChars (parent + 1) hne hbody hstart (Printer.spaces n ++ ds)
  -- The indentation is told, or it is that of the first line, which does not begin with a space.
  have hindents : Indents known (parent + 1)
      (Printer.literalChars (parent + 1) false body ++ (Printer.spaces n ++ ds)) := by
    obtain rfl | ⟨rfl, hfirst⟩ := hknown
    · exact ⟨Nat.le_refl _, fun h => absurd h (Nat.lt_irrefl _)⟩
    · show _ ≠ _
      rwa [hhead]
  have hindent : known.getD (max (max (max 0 (parent + 1)) parent) 1) = parent + 1 := by
    obtain rfl | ⟨rfl, -⟩ := hknown
    · rfl
    · show max _ _ = _
      omega
  obtain ⟨stop₁, hblank⟩ := blankLines_before start hlead hindents hbegins
    (show lead.length < (lead ++ (Printer.spaces (parent + 1) ++
        (Printer.literalChars (parent + 1) false body ++ (Printer.spaces n ++ ds)))).length + 1 by
      rw [List.length_append]; omega) 0 [] stop₀ m hm
  have hfuel : body.length <
      (Printer.literalChars (parent + 1) false body ++ (Printer.spaces n ++ ds)).length + 1 := by
    have := length_le_literalChars (parent + 1) false body
    rw [List.length_append]
    omega
  obtain ⟨b, stop₂, hlines, hholds⟩ := blockLines_before start (Nat.lt_succ_of_le hn) hne hbody hstart
    hds hspace hend hfuel { blank := lead.reverse } stop₁ _ (column_after_lead hm hbreaks (parent + 1))
  have htotal : ({ blank := lead.reverse } : BlockText).total = lead.reverse := List.append_nil _
  refine ⟨_, _, stop₁, b, stop₂, _, hblank, ?_, ?_⟩
  · rw [hindent, Cursor.before_remaining, List.append_nil, hlines, ← Mark.after_append]
    simp only [List.append_assoc]
  · rw [htotal] at hholds
    exact hholds.chomp chomping

/-- The indentation of a block is told, or the block begins with a line, and that not with a space. -/
theorem told_or_head?_ne_space {wide : Bool} {lead body : List Char}
    (hlead : ∀ c ∈ lead, isBreak c = true)
    (hwide : wide = false → ∃ c ∈ (lead ++ body).head?, c ≠ ' ' ∧ isBreak c = false) (indent : Nat) :
    (if wide then some indent else none) = some indent ∨
      (if wide then some indent else none) = none ∧ body.head? ≠ some ' ' := by
  cases wide with
  | true => exact .inl rfl
  | false =>
    obtain ⟨c, hc, hcspace, hcbreak⟩ := hwide rfl
    refine .inr ⟨rfl, ?_⟩
    cases lead with
    | nil =>
      rw [show body.head? = some c from hc]
      exact fun h => hcspace (Option.some.inj h)
    | cons d lead =>
      obtain rfl : d = c := Option.some.inj hc
      rw [hlead d List.mem_cons_self] at hcbreak
      cases hcbreak

/-- The blank lines at the beginning of a literal block are read, and then its other lines. Unless its
indentation is told, the block begins with a line. -/
theorem blockBody_before (start : Mark) {parent n : Nat} (hn : n ≤ parent) {wide : Bool}
    {chomping : Chomping} (hcs : ∀ c ∈ cs, IsLiteralChar c)
    (hwide : wide = false → ∃ c ∈ cs.head?, c ≠ ' ' ∧ isBreak c = false)
    (hclip : chomping = .clip → ∃ c ∈ cs, isBreak c = false)
    (hend : cs = [] ∨ (∃ c ∈ cs.getLast?, isBreak c = true) ∨ n = 0 ∧ ds = [])
    (hds : BeginsLine ds) (hspace : ds.head? ≠ some ' ') (stop₀ m : Mark) (hm : m.column = 0) :
    ReadsBody start (if wide then some (parent + 1) else none) parent chomping stop₀ m
      (Printer.literalChars (parent + 1) true cs ++ (Printer.spaces n ++ ds))
      (before ds (m.after (Printer.literalChars (parent + 1) true cs ++ Printer.spaces n)))
      (chomping.leaves cs) := by
  -- The blank lines come first; what is left is empty, or begins with a line.
  obtain ⟨lead, body, rfl, hlead, hbody⟩ := exists_run isBreak cs
  have hbreaks : ∀ c ∈ lead, IsLineBreak c := fun c hc =>
    (hcs c (List.mem_append_left _ hc)).2.2 (hlead c hc)
  rw [literalChars_breaks (parent + 1) hlead body]
  by_cases hb : body = []
  · subst hb
    rw [List.append_nil] at hwide hclip ⊢
    have hknown : wide = true := by
      by_contra hno
      obtain ⟨c, hc, -, hbreak⟩ := hwide (Bool.eq_false_iff.2 hno)
      rw [hlead c (List.mem_of_mem_head? hc)] at hbreak
      cases hbreak
    have hclip : chomping ≠ .clip := by
      intro hno
      obtain ⟨c, hc, hbreak⟩ := hclip hno
      rw [hlead c hc] at hbreak
      cases hbreak
    rw [hknown, if_pos rfl, Printer.literalChars, List.append_nil]
    exact blockBody_blank start hn hbreaks hclip hds hspace stop₀ m hm
  · have hknown := told_or_head?_ne_space hlead hwide (parent + 1)
    have hlast : (∃ c ∈ body.getLast?, isBreak c = true) ∨ n = 0 ∧ ds = [] := by
      have hend := hend.resolve_left (by simp [hb])
      rwa [List.getLast?_append, Option.or_of_isSome (by simpa using hb)] at hend
    have hlines := @blockBody_lines ds start parent n hn _ chomping lead body hbreaks hb
      (fun c hc => hcs c (List.mem_append_right _ hc)) hbody hknown hlast hds hspace stop₀ m hm
    simpa only [literalChars_true (parent + 1) hb hbody, List.append_assoc] using hlines

/-- A literal block with the given indicators and lines. -/
def block (wide : Bool) (chomping : Chomping) (indent : Nat) (cs : List Char) : List Char :=
  '|' :: ((if wide then ['2'] else []) ++
    (chomping.indicator ++ '\n' :: Printer.literalChars indent true cs))

/-- The printer writes a text as the block of its lines, with indicators that suit it. -/
theorem literal_eq (indent : Nat) (cs : List Char) : Printer.literal indent cs =
    block (beginsWithSpace cs) (literalChomping cs) indent cs := by
  rw [Printer.literal, literalHints_eq, block]
  simp only [List.append_assoc, List.cons_append]

/-- A literal block is read as what its indicator leaves of its lines. It may be followed by content
further left. -/
theorem blockScalar_before {parent n : Nat} (hparent : 0 < parent) (hn : n ≤ parent) {wide : Bool}
    {chomping : Chomping} (hcs : ∀ c ∈ cs, IsLiteralChar c)
    (hwide : wide = false → ∃ c ∈ cs.head?, c ≠ ' ' ∧ isBreak c = false)
    (hclip : chomping = .clip → ∃ c ∈ cs, isBreak c = false)
    (hend : cs = [] ∨ (∃ c ∈ cs.getLast?, isBreak c = true) ∨ n = 0 ∧ ds = [])
    (hds : BeginsLine ds) (hspace : ds.head? ≠ some ' ') (m : Mark) :
    ∃ stop, blockScalar true parent
        (before (block wide chomping (parent + 1) cs ++ (Printer.spaces n ++ ds)) m) =
      .ok (⟨.scalar (String.ofList (chomping.leaves cs)) .literal, m, stop⟩,
        before ds (m.after (block wide chomping (parent + 1) cs ++ Printer.spaces n))) := by
  have hwrite (rest : List Char) : block wide chomping (parent + 1) cs ++ rest =
      '|' :: ((if wide then ['2'] else []) ++ (chomping.indicator ++
        '\n' :: (Printer.literalChars (parent + 1) true cs ++ rest))) := by
    simp only [block, List.append_assoc, List.cons_append]
  have hknown : (if wide then some 2 else none).map (parent - 1 + ·) =
      if wide then some (parent + 1) else none := by
    split
    · have : parent - 1 + 2 = parent + 1 := by omega
      exact congrArg some this
    · rfl
  -- where the lines begin, after the indicators
  obtain ⟨m₁, hm₁⟩ : ∃ m₁, m₁ = ((m.after ['|']).after ((if wide then ['2'] else []) ++
      chomping.indicator)).after ['\n'] := ⟨_, rfl⟩
  obtain ⟨widest, blank, stop₁, b, stop₂, c₁, hblank, hlines, hchomp⟩ :=
    blockBody_before m hn hcs hwide hclip hend hds hspace m₁ m₁
      (by rw [hm₁]; exact Mark.column_after_break rfl)
  refine ⟨stop₂, ?_⟩
  rw [hwrite, hwrite, blockScalar, mark_bind]
  show (skip 1 >>= _) _ = _
  rw [skip_one_bind rfl, bind_of (blockHeader_before ..)]
  show (finishLine _ _ >>= _) _ = _
  rw [bind_of (finishLine_before ..), ← hm₁]
  show (remaining >>= _) _ = _
  rw [remaining_bind, Cursor.before_remaining, mark_bind, Cursor.before_mark, Cursor.before_mark,
    hknown, bind_of hblank]
  show (remaining >>= _) _ = _
  rw [remaining_bind, bind_of hlines]
  show Except.ok ((⟨.scalar (String.ofList (b.chomp chomping).reverse) .literal, m,
    stop₂⟩ : Lexeme), _) = _
  rw [hchomp, List.reverse_reverse, hm₁]
  simp only [← Mark.after_append]
  simp

/-- A block whose text breaks off after its indicators is read as an empty text. -/
theorem blockScalar_header (parent : Nat) (m : Mark) :
    ∃ stop, blockScalar true parent (before ['|', '2', '+'] m) =
      .ok (⟨.scalar "" .literal, m, stop⟩, before [] (m.after ['|', '2', '+'])) := by
  obtain ⟨m₁, hm₁⟩ : ∃ m₁, m₁ = (m.after ['|']).after ['2', '+'] := ⟨_, rfl⟩
  have hheader : blockHeader m (before ['2', '+'] (m.after ['|'])) =
      .ok ((.keep, some 2), before [] m₁) := by
    rw [hm₁]
    rfl
  have hline : finishLine .blockScalar m (before [] m₁) = .ok ((), before [] m₁) := rfl
  obtain ⟨widest, hblank⟩ := blankLines_nil m (some (parent - 1 + 2)) 1 0 [] m₁ m₁
  refine ⟨m₁, ?_⟩
  rw [blockScalar, mark_bind]
  show (skip 1 >>= _) _ = _
  rw [Cursor.before_mark, skip_one_bind rfl, bind_of hheader]
  show (finishLine _ _ >>= _) _ = _
  rw [bind_of hline]
  show (remaining >>= _) _ = _
  rw [remaining_bind, Cursor.before_remaining, mark_bind]
  show (blankLines m (some (parent - 1 + 2)) 1 0 [] m₁ >>= _) _ = _
  rw [bind_of hblank]
  show (remaining >>= _) _ = _
  rw [remaining_bind, bind_of (blockLines_end m true (.inr rfl) _ _ _), hm₁, ← Mark.after_append]
  rfl

end Scan

end ProviderAssets.Yaml
