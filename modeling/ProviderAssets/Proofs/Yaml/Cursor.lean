import ProviderAssets.Yaml.Printer
import Mathlib.Data.List.TakeWhile

/-!
# Reading a known text

What a scan does is stated for a cursor in front of a known text: `Cursor.before cs m` stands at the
mark `m` with the characters `cs` still to be read. A scan that reads the beginning of the text goes
on to `Cursor.before` the rest, at the mark `Mark.after` these characters. `Scan.bind_of` takes a
scan apart by what its first step does.
-/

namespace ProviderAssets.Yaml

/-- The place after some characters, each of which stands for itself or is a line break of its own. -/
def Mark.after (m : Mark) : List Char → Mark
  | [] => m
  | c :: cs => Mark.after (if isBreak c then m.nextLine 1 else m.next) cs

namespace Mark

variable {m : Mark} {cs ds : List Char}

/-- Characters are passed one after the other. -/
theorem after_append (m : Mark) (cs ds : List Char) :
    m.after (cs ++ ds) = (m.after cs).after ds := by
  induction cs generalizing m with
  | nil => rfl
  | cons c cs ih => exact ih _

/-- Lines are counted up. -/
theorem line_le_after (m : Mark) (cs : List Char) : m.line ≤ (m.after cs).line := by
  induction cs generalizing m with
  | nil => exact Nat.le_refl _
  | cons c cs ih =>
    refine Nat.le_trans ?_ (ih _)
    split
    · exact Nat.le_succ _
    · exact Nat.le_refl _

/-- Characters of one line are passed together. -/
theorem after_of_line (h : ∀ c ∈ cs, isBreak c = false) : m.after cs = m.advance cs.length := by
  induction cs generalizing m with
  | nil => rfl
  | cons c cs ih =>
    rw [after, h c List.mem_cons_self, ih fun d hd => h d (List.mem_cons_of_mem _ hd)]
    simp only [next, advance, List.length_cons, Bool.false_eq_true, if_false, Mark.mk.injEq, true_and]
    omega

/-- After a line break, the line is a later one. -/
theorem line_lt_after (h : ∃ c ∈ cs, isBreak c = true) : m.line < (m.after cs).line := by
  induction cs generalizing m with
  | nil =>
    obtain ⟨c, hc, -⟩ := h
    cases hc
  | cons c cs ih =>
    rw [after]
    by_cases hc : isBreak c = true
    · rw [if_pos hc]
      exact line_le_after (m.nextLine 1) cs
    · rw [if_neg hc]
      obtain ⟨d, hd, hbreak⟩ := h
      rcases List.mem_cons.1 hd with rfl | hd
      · exact absurd hbreak hc
      · exact ih (m := m.next) ⟨d, hd, hbreak⟩

/-- On its line a place moves on by the characters passed. -/
theorem column_after_of_line (h : ∀ c ∈ cs, isBreak c = false) :
    (m.after cs).column = m.column + cs.length := by
  rw [after_of_line h]
  rfl

/-- One character that is no line break moves a place on by one column. -/
theorem column_after_one (m : Mark) (hc : isBreak c = false) : (m.after [c]).column = m.column + 1 :=
  column_after_of_line (List.forall_mem_singleton.2 hc)

end Mark

/-! ## Characters -/

/-- A list is a run of elements with a property and the rest, which begins without it. -/
theorem exists_run {α : Type} (p : α → Bool) (xs : List α) :
    ∃ run rest, xs = run ++ rest ∧ (∀ x ∈ run, p x = true) ∧ ∀ x ∈ rest.head?, p x = false := by
  induction xs with
  | nil => exact ⟨[], [], rfl, nofun, nofun⟩
  | cons x xs ih =>
    by_cases hx : p x = true
    · obtain ⟨run, rest, rfl, hrun, hrest⟩ := ih
      refine ⟨x :: run, rest, rfl, fun y hy => ?_, hrest⟩
      rcases List.mem_cons.1 hy with rfl | hy
      · exact hx
      · exact hrun y hy
    · refine ⟨[], x :: xs, rfl, nofun, fun y hy => ?_⟩
      rw [← Option.some.inj hy]
      exact Bool.eq_false_iff.2 hx

/-- A text as words with gaps between them, where the characters of gaps are those with the property.
Only the first and the last word may be empty. -/
inductive Gapped (p : Char → Bool) : List Char → Prop
  /-- A word that nothing follows. -/
  | last {w : List Char} (hw : ∀ c ∈ w, p c = false) : Gapped p w
  /-- A word, a gap, and a text that does not begin with a gap. -/
  | more {w gap rest : List Char} (hw : ∀ c ∈ w, p c = false) (hne : gap ≠ [])
    (hgap : ∀ c ∈ gap, p c = true) (hstart : ∀ c ∈ rest.head?, p c = false)
    (hrest : Gapped p rest) : Gapped p (w ++ (gap ++ rest))

/-- Every text consists of words and gaps. -/
theorem gapped (p : Char → Bool) (cs : List Char) : Gapped p cs := by
  induction hn : cs.length using Nat.strong_induction_on generalizing cs with
  | _ n ih =>
    -- A word is split off, then a gap; what remains is shorter, unless there is no gap.
    obtain ⟨w, t, rfl, hw, ht⟩ := exists_run (!p ·) cs
    have hw : ∀ c ∈ w, p c = false := fun c hc => by simpa using hw c hc
    obtain ⟨gap, rest, rfl, hgap, hstart⟩ := exists_run p t
    cases gap with
    | nil =>
      cases rest with
      | nil => simpa using Gapped.last hw
      | cons c rest =>
        have hyes : p c = true := by simpa using ht c rfl
        have hno : p c = false := hstart c rfl
        rw [hyes] at hno
        cases hno
    | cons c gap =>
      refine .more hw (List.cons_ne_nil _ _) hgap hstart (ih rest.length ?_ rest rfl)
      simp at hn
      omega

/-- The parts of a text have no pair that the whole has not. -/
theorem hasPair_of_append {p q : Char → Bool} {u v : List Char}
    (h : Printer.hasPair p q (u ++ v) = false) :
    Printer.hasPair p q u = false ∧ Printer.hasPair p q v = false := by
  induction u with
  | nil => exact ⟨rfl, h⟩
  | cons c u ih =>
    cases u with
    | nil =>
      cases v with
      | nil => exact ⟨rfl, rfl⟩
      | cons d v =>
        rw [List.singleton_append, Printer.hasPair, Bool.or_eq_false_iff] at h
        exact ⟨rfl, h.2⟩
    | cons d u =>
      rw [List.cons_append, List.cons_append, Printer.hasPair, Bool.or_eq_false_iff] at h
      obtain ⟨hu, hv⟩ := ih h.2
      rw [Printer.hasPair, Bool.or_eq_false_iff]
      exact ⟨⟨h.1, hu⟩, hv⟩

section Characters

variable {c : Char}

/-- A shown character is a space, a line break, or no white space at all. -/
theorem solid_of_isShown (h : Printer.isShown c = true) (hc : c ≠ ' ') (hbreak : isBreak c = false) :
    isBlankOrEnd c = false := by
  have htab : c ≠ '\t' := by rintro rfl; revert h; decide
  have hend : c ≠ '\x00' := by rintro rfl; revert h; decide
  simp [isBlankOrEnd, isBreakOrEnd, isBlank, hc, htab, hbreak, hend]

/-- What is no white space is no line break. -/
theorem isBreak_of_solid (h : isBlankOrEnd c = false) : isBreak c = false := by
  simp only [isBlankOrEnd, isBreakOrEnd, Bool.or_eq_false_iff] at h
  exact h.2.1

/-- What is no white space is no blank. -/
theorem isBlank_of_solid (h : isBlankOrEnd c = false) : isBlank c = false := by
  simp only [isBlankOrEnd, Bool.or_eq_false_iff] at h
  exact h.1

/-- Spaces are spaces. -/
theorem eq_of_mem_spaces {n : Nat} (h : c ∈ Printer.spaces n) : c = ' ' := List.eq_of_mem_replicate h

/-- There are as many spaces as are asked for. -/
@[simp] theorem length_spaces (n : Nat) : (Printer.spaces n).length = n := List.length_replicate

/-- A gap of spaces. -/
theorem exists_spaces {ws : List Char} (hne : ws ≠ []) (h : ∀ c ∈ ws, decide (c = ' ') = true) :
    ∃ n, ws = Printer.spaces (n + 1) := by
  refine ⟨ws.length - 1, List.eq_replicate_iff.2 ⟨?_, fun c hc => of_decide_eq_true (h c hc)⟩⟩
  have := List.length_pos_iff.2 hne
  omega

/-- Some spaces end in one. -/
theorem spaces_succ (n : Nat) : Printer.spaces (n + 1) = Printer.spaces n ++ [' '] :=
  List.replicate_succ'

/-- Spaces stand on a line. -/
theorem isBreak_of_mem_spaces {n : Nat} (h : c ∈ Printer.spaces n) : isBreak c = false := by
  rw [eq_of_mem_spaces h]
  rfl

/-- The spaces at the beginning of a line lead to their column. -/
theorem Mark.column_after_line (m : Mark) (cs : List Char) (n : Nat) :
    (m.after (cs ++ '\n' :: Printer.spaces n)).column = n := by
  have hline : m.after (cs ++ '\n' :: Printer.spaces n) =
      ((m.after cs).nextLine 1).after (Printer.spaces n) := Mark.after_append ..
  rw [hline, Mark.column_after_of_line fun c => isBreak_of_mem_spaces, length_spaces]
  exact Nat.zero_add n

end Characters

namespace Cursor

/-- The cursor in front of `cs`, at a mark. -/
def before (cs : List Char) (m : Mark) : Cursor := ⟨cs, m, m.index + cs.length⟩

variable {m : Mark} {c : Char} {cs ds : List Char}

/-- The text is still to be read. -/
@[simp] theorem before_rest : (before cs m).rest = cs := rfl

/-- The cursor stands at that mark. -/
@[simp] theorem before_mark : (before cs m).mark = m := rfl

/-- What is to be read is counted. -/
theorem before_remaining : (before cs m).size - (before cs m).mark.index = cs.length := by
  simp only [before]
  omega

/-- The first character, if there is one. -/
theorem peek_zero_before : (before cs m).peek 0 = cs.headD '\x00' := by
  cases cs <;> rfl

/-- The first of the characters to come. -/
theorem peek_zero_cons : (before (c :: cs) m).peek 0 = c := rfl

/-- A later character. -/
theorem peek_succ_before (n : Nat) : (before (c :: cs) m).peek (n + 1) = (before cs m).peek n := rfl

/-- Characters of one line are passed over. -/
theorem skip_before (h : ∀ c ∈ cs, isBreak c = false) :
    (before (cs ++ ds) m).skip cs.length = before ds (m.after cs) := by
  rw [Mark.after_of_line h]
  simp only [before, skip, List.drop_left, List.length_append, Mark.advance, Cursor.mk.injEq, true_and]
  omega

/-- A character that is no line break is passed over. -/
theorem skip_one_before (h : isBreak c = false) :
    (before (c :: cs) m).skip 1 = before cs (m.after [c]) :=
  skip_before (show ∀ d ∈ [c], isBreak d = false by simpa using h)

/-- A line feed, or a line or paragraph separator, is taken as itself. -/
theorem takeLine_before (h : c = '\n' ∨ c = '\u2028' ∨ c = '\u2029') :
    (before (c :: cs) m).takeLine = (some c, before cs (m.after [c])) := by
  have hsize : m.index + (c :: cs).length = m.index + 1 + cs.length := by
    rw [List.length_cons]
    omega
  rcases h with rfl | rfl | rfl <;>
  · simp only [before, hsize]
    rfl

/-- The longest run of characters with a property is taken up to one that does not have it. -/
theorem takeWhile_before {p : Char → Bool} (hp : ∀ c ∈ cs, p c = true)
    (hbreak : ∀ c ∈ cs, isBreak c = false) (hstop : ∀ c ∈ ds.head?, p c = false) :
    (before (cs ++ ds) m).takeWhile p = (cs, before ds (m.after cs)) := by
  have htaken : (cs ++ ds).takeWhile p = cs := by
    rw [List.takeWhile_append_of_pos hp]
    cases ds with
    | nil => rw [List.takeWhile_nil, List.append_nil]
    | cons d ds => rw [List.takeWhile_cons_of_neg (by simp [hstop d rfl]), List.append_nil]
  simp only [takeWhile, before_rest, htaken, skip_before hbreak]

/-- Document indicators stand at the beginning of a line. -/
theorem atDocumentIndicator_of_column (h : 0 < m.column) :
    (before cs m).atDocumentIndicator = false := by
  have : decide ((before cs m).mark.column = 0) = false := decide_eq_false (Nat.pos_iff_ne_zero.1 h)
  rw [atDocumentIndicator, this]
  rfl

end Cursor

namespace Scan

variable {α β : Type} {c c' : Cursor}

/-- A scan goes on with what its first step reads. -/
theorem bind_of {x : Scan α} {a : α} (h : x c = .ok (a, c')) (f : α → Scan β) :
    (x >>= f) c = f a c' := by
  show (x c >>= fun p => f p.1 p.2) = _
  rw [h]
  rfl

/-- Looking ahead reads nothing. -/
theorem peek_bind (n : Nat) (f : Char → Scan β) : (peek n >>= f) c = f (c.peek n) c := rfl

/-- Looking at the place reads nothing. -/
theorem mark_bind (f : Mark → Scan β) : (mark >>= f) c = f c.mark c := rfl

/-- Counting what is left reads nothing. -/
theorem remaining_bind (f : Nat → Scan β) : (remaining >>= f) c = f (c.size - c.mark.index) c := rfl

/-- Passing over characters. -/
theorem skip_bind (n : Nat) (f : Unit → Scan β) : (skip n >>= f) c = f () (c.skip n) := rfl

/-- Passing over a known character of the line. -/
theorem skip_one_bind {m : Mark} {d : Char} {ds : List Char} (hd : isBreak d = false)
    (f : Unit → Scan β) :
    (skip 1 >>= f) (Cursor.before (d :: ds) m) = f () (Cursor.before ds (m.after [d])) := by
  rw [skip_bind, Cursor.skip_one_before hd]

/-- Taking a line break. -/
theorem takeLine_bind (f : Option Char → Scan β) : (takeLine >>= f) c = f c.takeLine.1 c.takeLine.2 :=
  rfl

/-- Taking a run of characters. -/
theorem takeWhile_bind (p : Char → Bool) (f : List Char → Scan β) :
    (takeWhile p >>= f) c = f (c.takeWhile p).1 (c.takeWhile p).2 := rfl

/-- Passing over a run of characters. -/
theorem skipWhile_bind (p : Char → Bool) (f : Unit → Scan β) :
    (skipWhile p >>= f) c = f () (c.takeWhile p).2 := rfl

/-- A run of characters is passed over as it is taken. -/
theorem skipWhile_of {p : Char → Bool} {cs : List Char} (h : c.takeWhile p = (cs, c')) :
    skipWhile p c = .ok ((), c') := by
  show Except.ok ((), (c.takeWhile p).2) = _
  rw [h]

/-- Looking at the cursor reads nothing. -/
theorem get_bind (f : Cursor → Scan β) : ((get : Scan Cursor) >>= f) c = f c c := rfl

/-- The end of a scan. -/
theorem pure_apply (a : α) : (pure a : Scan α) c = .ok (a, c) := rfl

end Scan

end ProviderAssets.Yaml
