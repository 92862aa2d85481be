import ProviderAssets.Proofs.Yaml.Cursor
import ProviderAssets.Yaml.Token.Scalar

/-!
# White space between words

The words of plain and quoted scalars stand in gaps of white space. `Scan.gap_before` reads a whole
gap, and `Gap.pass` says what becomes of it.
-/

namespace ProviderAssets.Yaml

open Cursor (before)

variable {m : Mark} {c : Char} {cs ds ws : List Char}

/-- The gap with some more characters, each of which is a blank or a line break. -/
def Gap.pass (g : Gap) : List Char → Gap
  | [] => g
  | c :: cs => Gap.pass (if isBlank c then g.addBlank c else g.addBreak (some c)) cs

/-- A space, a line feed, or a line or paragraph separator. -/
def IsGapChar (c : Char) : Prop := c = ' ' ∨ c = '\n' ∨ c = '\u2028' ∨ c = '\u2029'

/-- The spaces before the content of a line are a gap with its break. -/
theorem isGapChar_of_mem_line {n : Nat} (h : c ∈ '\n' :: Printer.spaces n) : IsGapChar c := by
  rcases List.mem_cons.1 h with rfl | h
  · exact .inr (.inl rfl)
  · exact .inl (eq_of_mem_spaces h)

/-- The text goes on with something else than white space, or ends. -/
def BeginsWord (cs : List Char) : Prop := ∀ c ∈ cs.head?, isBlank c = false ∧ isBreak c = false

/-- Characters are passed one after the other. -/
theorem Gap.pass_append (g : Gap) (cs ds : List Char) : g.pass (cs ++ ds) = (g.pass cs).pass ds := by
  induction cs generalizing g with
  | nil => rfl
  | cons c cs ih => exact ih _

/-- Line breaks after the first one are kept as they are. -/
theorem Gap.pass_breaks (hws : ∀ c ∈ ws, isBlank c = false) (first : Option Char)
    (later : List Char) :
    ({ broken := true, first, later } : Gap).pass ws =
      { broken := true, first, later := ws.reverse ++ later } := by
  induction ws generalizing later with
  | nil => rfl
  | cons c ws ih =>
    have hc : isBlank c = false := hws c List.mem_cons_self
    rw [Gap.pass, hc, if_neg Bool.false_ne_true, List.reverse_cons, List.append_assoc]
    exact ih (fun d hd => hws d (List.mem_cons_of_mem _ hd)) (c :: later)

/-- Spaces after a word count. -/
theorem Gap.pass_spaces (n : Nat) :
    ({} : Gap).pass (Printer.spaces n) = { blanks := Printer.spaces n } := by
  have pass_into (n : Nat) (blanks : List Char) :
      ({ blanks } : Gap).pass (Printer.spaces n) = { blanks := Printer.spaces n ++ blanks } := by
    induction n generalizing blanks with
    | zero => rfl
    | succ n ih =>
      have hshift : Printer.spaces n ++ ' ' :: blanks = Printer.spaces (n + 1) ++ blanks := by
        rw [Printer.spaces, Printer.spaces, List.replicate_succ', List.append_assoc]
        rfl
      rw [← hshift]
      exact ih (' ' :: blanks)
  rw [pass_into, List.append_nil]

/-- Spaces after a line break do not count. -/
theorem Gap.pass_spaces_of_broken {g : Gap} (hg : g.broken = true) (n : Nat) :
    g.pass (Printer.spaces n) = g := by
  induction n with
  | zero => rfl
  | succ n ih =>
    have hadd : g.addBlank ' ' = g := if_pos hg
    show (g.addBlank ' ').pass (Printer.spaces n) = g
    rw [hadd, ih]

/-- The gap of a line break and the spaces after it. -/
theorem Gap.pass_line (n : Nat) :
    ({} : Gap).pass ('\n' :: Printer.spaces n) = { broken := true, first := some '\n' } :=
  Gap.pass_spaces_of_broken rfl n

namespace Scan

/-- White space is read up to something else. -/
theorem gap_before (start : Mark) (floor : Nat) (hws : ∀ c ∈ ws, IsGapChar c)
    (hds : BeginsWord ds) {fuel : Nat} (hfuel : ws.length ≤ fuel) (g : Gap) (m : Mark) :
    gap start floor fuel g (before (ws ++ ds) m) = .ok (g.pass ws, before ds (m.after ws)) := by
  induction ws generalizing fuel g m with
  | nil =>
    cases fuel with
    | zero => rfl
    | succ fuel =>
      cases ds with
      | nil => rfl
      | cons d ds =>
        obtain ⟨hblank, hbreak⟩ := hds d rfl
        rw [gap, peek_bind, List.nil_append, Cursor.peek_zero_cons, hblank, hbreak]
        rfl
  | cons c ws ih =>
    obtain ⟨fuel, rfl⟩ : ∃ n, fuel = n + 1 := ⟨fuel - 1, by simp at hfuel; omega⟩
    have hfuel : ws.length ≤ fuel := by simpa using hfuel
    have ih := ih (fun d hd => hws d (List.mem_cons_of_mem _ hd)) hfuel
    rw [gap, peek_bind, List.cons_append, Cursor.peek_zero_cons]
    -- Blanks and breaks are added to the gap in different ways.
    rcases hws c List.mem_cons_self with rfl | hc
    · rw [if_pos (show isBlank ' ' = true from rfl), mark_bind]
      rw [if_neg (by simp)]
      show (skip 1 >>= fun _ => gap start floor fuel (g.addBlank ' ')) _ = _
      rw [skip_bind, Cursor.skip_one_before rfl, ih]
      rfl
    · have hbreak : isBlank c = false ∧ isBreak c = true := by
        rcases hc with rfl | rfl | rfl <;> exact ⟨rfl, rfl⟩
      rw [hbreak.1, hbreak.2]
      show (takeLine >>= fun b => gap start floor fuel (g.addBreak b)) _ = _
      rw [takeLine_bind, Cursor.takeLine_before hc]
      show gap start floor fuel (g.addBreak (some c)) _ = _
      rw [ih, Gap.pass, hbreak.1]
      rfl

end Scan

end ProviderAssets.Yaml
