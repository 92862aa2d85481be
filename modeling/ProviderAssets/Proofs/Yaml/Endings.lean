import ProviderAssets.Proofs.Yaml.Leaves
import ProviderAssets.Text.Cut

/-!
# Ends of texts

A stream is trimmed where a document ends, and a file is given one line feed at its end. Either can reach
into the literal block that stands last. `Ending` is what is done to the line feeds at the end of a text,
`Ending.literal` is what the block is read as then, and `Ending.literal_eq_self_iff` says of which texts
that is the text again. What stands before the last character that is no line feed is left as it is
(`Ending.cut_append`).
-/

namespace ProviderAssets.Yaml

variable {c d : Char} {cs ds ws u v : List Char}

/-- What is done to the line feeds at the end of a text. -/
inductive Ending where
  /-- They are kept. -/
  | kept
  /-- There is one of them. -/
  | line
  /-- There are none. -/
  | bare
  deriving DecidableEq

/-- The text without the line feeds at its end. -/
def trimFeeds (cs : List Char) : List Char := (cs.reverse.dropWhile (· = '\n')).reverse

/-- The text with another end. -/
def Ending.cut : Ending → List Char → List Char
  | .kept, cs => cs
  | .line, cs => trimFeeds cs ++ ['\n']
  | .bare, cs => trimFeeds cs

/-- The line feeds at the end are trimmed, and nothing else. -/
theorem trimFeeds_append_feeds (h : cs.getLast? ≠ some '\n') (n : Nat) :
    trimFeeds (cs ++ List.replicate n '\n') = cs := by
  have hdrop : cs.reverse.dropWhile (· = '\n') = cs.reverse := by
    cases hcs : cs.reverse with
    | nil => rfl
    | cons c u =>
      have hlast : cs.getLast? = some c := by
        rw [← List.head?_reverse, hcs]
        rfl
      refine List.dropWhile_cons_of_neg ?_
      rintro hc
      rw [of_decide_eq_true hc] at hlast
      exact h hlast
  rw [trimFeeds, List.reverse_append, List.dropWhile_append_of_pos (by simp), hdrop,
    List.reverse_reverse]

/-- What comes before some other character is left as it is. -/
theorem trimFeeds_append (h : ∃ c ∈ v, c ≠ '\n') : trimFeeds (u ++ v) = u ++ trimFeeds v := by
  obtain ⟨c, hc, hne⟩ := h
  have hdrop : (v.reverse.dropWhile (· = '\n')).isEmpty = false := by
    rw [List.isEmpty_eq_false_iff, ne_eq, List.dropWhile_eq_nil_iff]
    exact fun hall => hne (of_decide_eq_true (hall c (List.mem_reverse.2 hc)))
  rw [trimFeeds, List.reverse_append, List.dropWhile_append, hdrop, if_neg Bool.false_ne_true,
    List.reverse_append, List.reverse_reverse, trimFeeds]

/-- What comes before some other character is left as it is. -/
theorem Ending.cut_append (e : Ending) (h : ∃ c ∈ v, c ≠ '\n') : e.cut (u ++ v) = u ++ e.cut v := by
  cases e with
  | kept => rfl
  | line => rw [cut, trimFeeds_append h, List.append_assoc, cut]
  | bare => exact trimFeeds_append h

/-- A character that is no line feed is left as it is. -/
theorem Ending.exists_cut_cons (e : Ending) (hc : c ≠ '\n') (u : List Char) :
    ∃ v, e.cut (c :: u) = c :: v := by
  have htrim : ∃ v, trimFeeds (c :: u) = c :: v := by
    by_cases hu : ∃ d ∈ u, d ≠ '\n'
    · exact ⟨_, trimFeeds_append (u := [c]) hu⟩
    · refine ⟨[], ?_⟩
      have hfeeds : u = List.replicate u.length '\n' :=
        List.eq_replicate_of_mem fun d hd => by_contra fun hne => hu ⟨d, hd, hne⟩
      rw [hfeeds]
      exact trimFeeds_append_feeds (show [c].getLast? ≠ some '\n' by simpa using hc) u.length
  obtain ⟨v, hv⟩ := htrim
  cases e with
  | kept => exact ⟨u, rfl⟩
  | line => exact ⟨v ++ ['\n'], by rw [cut, hv, List.cons_append]⟩
  | bare => exact ⟨v, hv⟩

/-- The first character is left as it is where some other one comes after it. -/
theorem Ending.cut_cons (e : Ending) (h : ∃ c ∈ v, c ≠ '\n') : e.cut (c :: v) = c :: e.cut v :=
  e.cut_append (u := [c]) h

/-- The line of a scalar that does not end in a line break: it gets one, and loses it where the end
is bare. -/
theorem cut_endLine (e : Ending) (hne : u ≠ []) (h : ∀ c ∈ u.getLast?, isBreak c = false) :
    ∃ ws, e.cut (Printer.endLine u) = u ++ ws ∧ (ws = ['\n'] ∨ e = .bare ∧ ws = []) := by
  have hline : Printer.endLine u = u ++ ['\n'] := by
    rw [Printer.endLine, List.getLast?_eq_some_getLast hne]
    simp [h _ (List.getLast?_eq_some_getLast hne)]
  have hlast : u.getLast? ≠ some '\n' := fun hu => absurd (h '\n' hu) (by decide)
  have htrim : trimFeeds (u ++ ['\n']) = u := trimFeeds_append_feeds hlast 1
  rw [hline]
  cases e with
  | kept => exact ⟨_, rfl, .inl rfl⟩
  | line => exact ⟨['\n'], by rw [Ending.cut, htrim], .inl rfl⟩
  | bare => exact ⟨[], by rw [Ending.cut, htrim, List.append_nil], .inr ⟨rfl, rfl⟩⟩

/-- The last character of the lines of a literal block is that of the text. -/
theorem getLast?_literalChars (indent : Nat) (broken : Bool) (cs : List Char) :
    (Printer.literalChars indent broken cs).getLast? = cs.getLast? := by
  induction cs generalizing broken with
  | nil => rfl
  | cons c cs ih =>
    have hcons (b : Bool) : (c :: Printer.literalChars indent b cs).getLast? = (c :: cs).getLast? := by
      rw [List.getLast?_cons, List.getLast?_cons, ih]
    rw [Printer.literalChars]
    split
    · exact hcons true
    · split
      · rw [List.getLast?_append, hcons, List.getLast?_cons]
        rfl
      · exact hcons false

/-- The last character of a literal block is that of the text. -/
theorem getLast?_literal (indent : Nat) (hne : cs ≠ []) :
    (Printer.literal indent cs).getLast? = cs.getLast? := by
  rw [Printer.literal, List.cons_append, List.getLast?_cons, List.getLast?_append, List.getLast?_cons,
    getLast?_literalChars, List.getLast?_eq_some_getLast hne]
  rfl

/-- Where all line breaks at the end are kept, there is one. -/
theorem isBreak_of_keep (h : literalChomping cs = .keep) : ∃ c ∈ cs.getLast?, isBreak c = true := by
  unfold literalChomping at h
  rw [← List.head?_reverse]
  split at h
  · rename_i a b rest hr
    refine ⟨a, by rw [hr]; rfl, ?_⟩
    by_contra ha
    rw [Bool.not_eq_true] at ha
    simp [ha] at h
  · rename_i a hr
    refine ⟨a, by rw [hr]; rfl, ?_⟩
    by_contra ha
    rw [if_neg ha] at h
    cases h
  · cases h

/-! ## Literal blocks at the end -/

/-- The lines of the literal block of a text under an ending. -/
def Ending.lines : Ending → List Char → List Char
  | .kept, cs => Printer.endLine cs
  | .line, cs => if trimFeeds cs = [] then [] else trimFeeds cs ++ ['\n']
  | .bare, cs => trimFeeds cs

/-- What the literal block of a text is read as under an ending. -/
def Ending.literal (e : Ending) (cs : List Char) : List Char :=
  (literalChomping cs).leaves (e.lines cs)

/-- What a text in the given style is read as under an ending. -/
def Ending.text (e : Ending) (s : String) : ScalarStyle → String
  | .literal => String.ofList (e.literal s.toList)
  | _ => s

/-- Whether a text that is written as a literal block at the end survives the ending. -/
def Survives : Ending → List Char → Prop
  | .kept, _ => True
  | .line, cs =>
    (cs.getLast? = some '\n' → cs.dropLast ≠ [] ∧ cs.dropLast.getLast? ≠ some '\n') ∧
      (cs.getLast? ≠ some '\n' → literalChomping cs ≠ .keep)
  | .bare, cs => cs.getLast? ≠ some '\n'

/-- Line breaks after a text do not count unless all line breaks at the end are kept. -/
theorem leaves_append (hws : ∀ c ∈ ws, isBreak c = true) (hkeep : literalChomping cs = .keep → ws = []) :
    (literalChomping cs).leaves (cs ++ ws) = cs := by
  cases hc : literalChomping cs with
  | strip => exact (Scan.core_append (getLast_of_strip hc) hws).1
  | clip =>
    obtain ⟨front, b, rfl, -, hb, hfront⟩ := exists_of_clip hc
    have hbreaks : ∀ c ∈ b :: ws, isBreak c = true := List.forall_mem_cons.2 ⟨hb, hws⟩
    obtain ⟨hcore, htrail⟩ := Scan.core_append hfront hbreaks
    rw [Scan.Chomping.leaves, List.append_assoc, List.singleton_append, hcore, htrail]
    rfl
  | keep => rw [hkeep hc, List.append_nil, Scan.Chomping.leaves]

/-- A line is the text, with a line break if it does not end in one. -/
theorem endLine_eq (hne : cs ≠ []) : ∃ ws, Printer.endLine cs = cs ++ ws ∧
    ((∃ c ∈ cs.getLast?, isBreak c = true) ∧ ws = [] ∨
      (∀ c ∈ cs.getLast?, isBreak c = false) ∧ ws = ['\n']) := by
  obtain ⟨c, hlast⟩ : ∃ c, cs.getLast? = some c := ⟨_, List.getLast?_eq_some_getLast hne⟩
  rw [Printer.endLine, hlast]
  by_cases hbreak : isBreak c = true
  · exact ⟨[], by simp [hbreak], .inl ⟨⟨c, rfl, hbreak⟩, rfl⟩⟩
  · refine ⟨['\n'], by simp [hbreak], .inr ⟨fun d hd => ?_, rfl⟩⟩
    rw [← Option.some.inj hd]
    exact Bool.eq_false_iff.2 hbreak

/-- Every text survives an end that is kept. -/
theorem Ending.literal_kept (hne : cs ≠ []) : Ending.kept.literal cs = cs := by
  obtain ⟨ws, hline, hcases⟩ := endLine_eq hne
  rw [Ending.literal, Ending.lines, hline]
  obtain ⟨-, rfl⟩ | ⟨hlast, rfl⟩ := hcases
  · exact leaves_append (List.forall_mem_nil _) fun _ => rfl
  · refine leaves_append (List.forall_mem_singleton.2 rfl) fun hkeep => ?_
    obtain ⟨c, hc, hbreak⟩ := isBreak_of_keep hkeep
    rw [hlast c hc] at hbreak
    cases hbreak

/-- A text that is spelled in a style that fits it survives an end that is kept. -/
theorem Ending.text_kept {s : String} {st : ScalarStyle} (h : Fits s st) : Ending.kept.text s st = s := by
  cases st with
  | literal => rw [Ending.text, Ending.literal_kept h.1, String.ofList_toList]
  | _ => rfl

/-- A text is what is left of it without the line feeds at its end, and those. -/
theorem exists_feeds (cs : List Char) : ∃ n, cs = trimFeeds cs ++ List.replicate n '\n' ∧
    (trimFeeds cs).getLast? ≠ some '\n' := by
  refine ⟨(cs.reverse.takeWhile (· = '\n')).length, ?_, ?_⟩
  · have hfeeds : cs.reverse.takeWhile (· = '\n') =
        List.replicate (cs.reverse.takeWhile (· = '\n')).length '\n' :=
      List.eq_replicate_of_mem fun c hc => by simpa using List.mem_takeWhile_imp hc
    rw [← List.reverse_replicate, ← hfeeds, trimFeeds, ← List.reverse_append,
      List.takeWhile_append_dropWhile, List.reverse_reverse]
  · rw [trimFeeds, List.getLast?_reverse]
    intro h
    have := List.head?_dropWhile_not (· = '\n') cs.reverse
    rw [h] at this
    simp at this

/-- What is left of lines is a part of them. -/
theorem length_leaves_le (chomping : Scan.Chomping) (cs : List Char) :
    (chomping.leaves cs).length ≤ cs.length := by
  have hparts : cs.length = (Scan.core cs).length + (Scan.trail cs).length := by
    rw [Scan.core, Scan.trail, List.length_reverse, List.length_reverse, Nat.add_comm,
      ← List.length_append, List.takeWhile_append_dropWhile, List.length_reverse]
  cases chomping with
  | strip => simp only [Scan.Chomping.leaves]; omega
  | clip =>
    simp only [Scan.Chomping.leaves, List.length_append, List.length_take]
    omega
  | keep => exact Nat.le_refl _

/-- A text that ends in no line feed survives a single one if it does not end in a line break that is
kept, and a text that ends in one does if there is something before it. -/
theorem survives_line_iff {x : List Char} {n : Nat} (hx : x.getLast? ≠ some '\n') :
    Survives .line (x ++ List.replicate n '\n') ↔
      n = 0 ∧ literalChomping x ≠ .keep ∨ n = 1 ∧ x ≠ [] := by
  have hend (k : Nat) : (x ++ List.replicate (k + 1) '\n').getLast? = some '\n' := by
    rw [List.replicate_succ', ← List.append_assoc, List.getLast?_concat]
  have hdrop (k : Nat) : (x ++ List.replicate (k + 1) '\n').dropLast = x ++ List.replicate k '\n' := by
    rw [List.replicate_succ', ← List.append_assoc, List.dropLast_concat]
  rw [Survives]
  cases n with
  | zero => simp [hx]
  | succ n =>
    rw [hend, hdrop]
    cases n with
    | zero => simp [hx]
    | succ n => simp [hend]

/-- A text that survives a single line feed is read as it is, and no other one. -/
theorem Ending.literal_line_eq_self_iff (hne : cs ≠ []) :
    Ending.line.literal cs = cs ↔ Survives .line cs := by
  obtain ⟨n, hcs, hlast⟩ := exists_feeds cs
  obtain ⟨x, hx⟩ : ∃ x, x = trimFeeds cs := ⟨_, rfl⟩
  rw [Ending.literal, Ending.lines, ← hx]
  rw [← hx] at hcs hlast
  subst hcs
  rw [survives_line_iff hlast]
  by_cases hfeeds : x = []
  · -- Of line feeds alone nothing is left.
    have hnil (chomping : Scan.Chomping) : chomping.leaves [] = [] := by cases chomping <;> rfl
    rw [if_pos hfeeds, hnil]
    refine iff_of_false (fun h => hne h.symm) ?_
    rintro (⟨rfl, -⟩ | ⟨-, hsome⟩)
    · exact hne (by rw [hfeeds]; rfl)
    · exact hsome hfeeds
  rw [if_neg hfeeds]
  rcases n with _ | _ | n
  case zero =>
    rw [List.replicate_zero, List.append_nil]
    by_cases hkeep : literalChomping x = .keep
    · refine iff_of_false (fun h => ?_) (by simp [hkeep])
      rw [hkeep, Scan.Chomping.leaves] at h
      simpa using congrArg List.length h
    · exact iff_of_true (leaves_append (List.forall_mem_singleton.2 rfl) fun h => absurd h hkeep)
        (.inl ⟨rfl, hkeep⟩)
  case succ.zero =>
    refine iff_of_true ?_ (.inr ⟨rfl, hfeeds⟩)
    simpa using @leaves_append (x ++ ['\n']) [] (List.forall_mem_nil _) fun _ => rfl
  case succ.succ =>
    -- There are fewer line feeds left than the text has.
    refine iff_of_false (fun h => ?_) (by simp)
    have hlength := length_leaves_le (literalChomping (x ++ List.replicate (n + 2) '\n')) (x ++ ['\n'])
    rw [h] at hlength
    simp at hlength

/-- A text that does not end in a line feed is read as it is where there is none, and no other one. -/
theorem Ending.literal_bare_eq_self_iff :
    Ending.bare.literal cs = cs ↔ cs.getLast? ≠ some '\n' := by
  obtain ⟨n, hcs, hlast⟩ := exists_feeds cs
  rw [Ending.literal, Ending.lines]
  cases n with
  | zero =>
    rw [List.replicate_zero, List.append_nil] at hcs
    rw [← hcs] at hlast ⊢
    refine iff_of_true ?_ hlast
    simpa using @leaves_append cs [] (List.forall_mem_nil _) fun _ => rfl
  | succ n =>
    refine iff_of_false (fun h => ?_) fun h => h ?_
    · have hlength := length_leaves_le (literalChomping cs) (trimFeeds cs)
      have hcount := congrArg List.length hcs
      rw [h] at hlength
      rw [List.length_append, List.length_replicate] at hcount
      omega
    · rw [hcs, List.replicate_succ', ← List.append_assoc, List.getLast?_concat]

/-- A text that survives is read as it is, and no other one. -/
theorem Ending.literal_eq_self_iff (e : Ending) (hne : cs ≠ []) : e.literal cs = cs ↔ Survives e cs := by
  cases e with
  | kept => exact iff_of_true (Ending.literal_kept hne) trivial
  | line => exact Ending.literal_line_eq_self_iff hne
  | bare => exact Ending.literal_bare_eq_self_iff

/-! ## Blocks under an ending -/

/-- The lines under an ending have the characters of the text, and perhaps a line feed. -/
theorem mem_or_of_mem_lines {e : Ending} (hc : c ∈ e.lines cs) : c ∈ cs ∨ c = '\n' := by
  have htrim : ∀ d ∈ trimFeeds cs, d ∈ cs := fun d hd =>
    List.mem_reverse.1 ((List.dropWhile_sublist _).subset (List.mem_reverse.1 hd))
  cases e with
  | kept =>
    by_cases hne : cs = []
    · rw [hne] at hc ⊢
      exact .inr (List.mem_singleton.1 hc)
    · obtain ⟨ws, hline, hcases⟩ := endLine_eq hne
      rw [Ending.lines, hline] at hc
      refine (List.mem_append.1 hc).imp_right fun hc => ?_
      obtain ⟨-, rfl⟩ | ⟨-, rfl⟩ := hcases
      · cases hc
      · exact List.mem_singleton.1 hc
  | line =>
    rw [Ending.lines] at hc
    split at hc
    · cases hc
    · exact (List.mem_append.1 hc).imp (htrim c) List.mem_singleton.1
  | bare => exact .inl (htrim c hc)

/-- A text with something else than line breaks has it in its lines under every ending, and these begin
like the text. -/
theorem lines_of_mem (e : Ending) (hc : c ∈ cs) (hbreak : isBreak c = false) :
    c ∈ e.lines cs ∧ (e.lines cs).head? = cs.head? := by
  obtain ⟨n, hcs, -⟩ := exists_feeds cs
  have hmem : c ∈ trimFeeds cs := by
    rw [hcs] at hc
    refine (List.mem_append.1 hc).resolve_right fun hfeed => ?_
    rw [List.eq_of_mem_replicate hfeed] at hbreak
    cases hbreak
  have hne : trimFeeds cs ≠ [] := List.ne_nil_of_mem hmem
  have hhead : (trimFeeds cs).head? = cs.head? := by
    conv_rhs => rw [hcs]
    rw [List.head?_append_of_ne_nil _ hne]
  cases e with
  | kept =>
    obtain ⟨ws, hline, -⟩ := endLine_eq (List.ne_nil_of_mem hc)
    rw [Ending.lines, hline, List.head?_append_of_ne_nil _ (List.ne_nil_of_mem hc)]
    exact ⟨List.mem_append_left _ hc, rfl⟩
  | line =>
    rw [Ending.lines, if_neg hne, List.head?_append_of_ne_nil _ hne]
    exact ⟨List.mem_append_left _ hmem, hhead⟩
  | bare => exact ⟨hmem, hhead⟩

/-- The lines under an ending end in a line break, unless there are none or the end is bare. -/
theorem getLast?_lines (e : Ending) (hne : cs ≠ []) :
    e.lines cs = [] ∨ (∃ c ∈ (e.lines cs).getLast?, isBreak c = true) ∨ e = .bare := by
  cases e with
  | kept =>
    obtain ⟨ws, hline, ⟨hlast, rfl⟩ | ⟨-, rfl⟩⟩ := endLine_eq hne
    · rw [Ending.lines, hline, List.append_nil]
      exact .inr (.inl hlast)
    · rw [Ending.lines, hline, List.getLast?_concat]
      exact .inr (.inl ⟨'\n', rfl, rfl⟩)
  | line =>
    rw [Ending.lines]
    split
    · exact .inl rfl
    · rw [List.getLast?_concat]
      exact .inr (.inl ⟨'\n', rfl, rfl⟩)
  | bare => exact .inr (.inr rfl)

/-- The characters of shown lines may stand in a literal block. -/
theorem isLiteralChar_of_mem_lines {e : Ending} (hshown : ∀ c ∈ cs, Printer.isShown c = true) :
    ∀ c ∈ e.lines cs, IsLiteralChar c := by
  intro c hc
  obtain hc | rfl := mem_or_of_mem_lines hc
  · exact isLiteralChar_of_isShown (hshown c hc)
  · exact IsLineBreak.isLiteralChar (.inl rfl)

/-- The lines of a text that begins in its first column do so under every ending. -/
theorem head?_lines (e : Ending) (hne : cs ≠ []) (h : beginsWithSpace cs = false) :
    ∃ c ∈ (e.lines cs).head?, c ≠ ' ' ∧ isBreak c = false := by
  obtain ⟨c, rest, rfl⟩ := List.exists_cons_of_ne_nil hne
  obtain ⟨hspace, hbreak⟩ := Bool.or_eq_false_iff.1 h
  obtain ⟨-, hfirst⟩ := lines_of_mem e List.mem_cons_self hbreak
  rw [hfirst]
  exact ⟨c, rfl, of_decide_eq_false hspace, hbreak⟩

/-- Where the end is clipped, some line has contents under every ending. -/
theorem exists_mem_lines_of_clip (e : Ending) (h : literalChomping cs = .clip) :
    ∃ c ∈ e.lines cs, isBreak c = false := by
  obtain ⟨front, b, hcs, hfront, -, hlast⟩ := exists_of_clip h
  have hmem : front.getLast hfront ∈ cs := by
    rw [hcs]
    exact List.mem_append_left _ (List.getLast_mem hfront)
  have hbreak := hlast _ (List.getLast?_eq_some_getLast hfront)
  exact ⟨_, (lines_of_mem e hmem hbreak).1, hbreak⟩

/-- Of line feeds alone nothing is left where the end is bare. -/
theorem Ending.text_of_feeds {s : String} (h : trimFeeds s.toList = []) :
    Ending.bare.text s .literal = "" := by
  rw [Ending.text, Ending.literal, Ending.lines, h]
  cases literalChomping s.toList <;> rfl

/-- The first line of a literal block. -/
def blockHead (cs : List Char) : List Char :=
  '|' :: ((if beginsWithSpace cs then ['2'] else []) ++ (literalChomping cs).indicator)

/-- The first line ends in something else than a line feed. -/
theorem getLast?_blockHead (u : List Char) : (u ++ blockHead cs).getLast? ≠ some '\n' := by
  have hall : ∀ c ∈ blockHead cs, c ≠ '\n' := by
    unfold blockHead
    cases beginsWithSpace cs <;> cases literalChomping cs <;> simp [Scan.Chomping.indicator]
  rw [List.getLast?_append_of_ne_nil u (show blockHead cs ≠ [] from List.cons_ne_nil _ _)]
  exact fun h => hall '\n' (List.mem_of_getLast? h) rfl

/-- A literal block is its first line, and then its other lines. -/
theorem append_block (u cs ds : List Char) (indent : Nat) :
    u ++ Scan.block (beginsWithSpace cs) (literalChomping cs) indent ds =
      (u ++ blockHead cs) ++ '\n' :: Printer.literalChars indent true ds := by
  simp only [Scan.block, blockHead, List.append_assoc, List.cons_append]

/-- The block of a text, with the line break at its end. -/
theorem endLine_literal (u : List Char) (indent : Nat) (hne : cs ≠ []) :
    Printer.endLine (u ++ Printer.literal indent cs) =
      u ++ Scan.block (beginsWithSpace cs) (literalChomping cs) indent (Printer.endLine cs) := by
  have hlast : (u ++ Printer.literal indent cs).getLast? = cs.getLast? := by
    rw [List.getLast?_append, getLast?_literal indent hne, List.getLast?_eq_some_getLast hne]
    rfl
  have hbreak : ∀ c ∈ ['\n'], isBreak c = true := List.forall_mem_singleton.2 rfl
  rw [Printer.endLine, Printer.endLine, hlast, List.getLast?_eq_some_getLast hne, Scan.literal_eq]
  dsimp only
  split
  · rfl
  · rw [append_block, append_block, literalChars_append_breaks indent hbreak, List.append_assoc]
    rfl

/-- The block of a text without the line feeds at its end: they are those of the text, or also the one
after the first line. -/
theorem trimFeeds_literal (u : List Char) (indent : Nat) (hne : cs ≠ []) :
    trimFeeds (Printer.endLine (u ++ Printer.literal indent cs)) =
      if trimFeeds cs = [] then u ++ blockHead cs
      else u ++ Scan.block (beginsWithSpace cs) (literalChomping cs) indent (trimFeeds cs) := by
  obtain ⟨n, hcs, hlast⟩ := exists_feeds cs
  obtain ⟨k, hk⟩ : ∃ k, Printer.endLine cs = trimFeeds cs ++ List.replicate k '\n' := by
    obtain ⟨ws, hline, ⟨-, rfl⟩ | ⟨-, rfl⟩⟩ := endLine_eq hne
    · exact ⟨n, by rw [hline, List.append_nil, ← hcs]⟩
    · refine ⟨n + 1, ?_⟩
      rw [hline, List.replicate_succ', ← List.append_assoc, ← hcs]
  have hbreaks : ∀ c ∈ List.replicate k '\n', isBreak c = true := by
    intro c hc
    rw [List.eq_of_mem_replicate hc]
    rfl
  rw [endLine_literal u indent hne, hk, append_block, literalChars_append_breaks indent hbreaks]
  -- Of a text of line feeds alone, the one after the first line is trimmed with them.
  split
  · rename_i hnil
    rw [hnil, Printer.literalChars, List.nil_append, ← List.replicate_succ]
    exact trimFeeds_append_feeds (getLast?_blockHead u) (k + 1)
  · rename_i hsome
    obtain ⟨c, hc⟩ : ∃ c, (trimFeeds cs).getLast? = some c := ⟨_, List.getLast?_eq_some_getLast hsome⟩
    have hend : ((u ++ blockHead cs) ++ '\n' :: Printer.literalChars indent true (trimFeeds cs)).getLast? ≠
        some '\n' := by
      rw [List.getLast?_append, List.getLast?_cons, getLast?_literalChars, hc]
      rw [hc] at hlast
      exact hlast
    rw [append_block, ← List.cons_append, ← List.append_assoc]
    exact trimFeeds_append_feeds hend k

/-- A literal block under an ending is the block of the lines that are left, unless it breaks off in its
first line. -/
theorem cut_literal {e : Ending} (u : List Char) (indent : Nat) (hne : cs ≠ [])
    (h : e = .bare → trimFeeds cs ≠ []) :
    e.cut (Printer.endLine (u ++ Printer.literal indent cs)) =
      u ++ Scan.block (beginsWithSpace cs) (literalChomping cs) indent (e.lines cs) := by
  cases e with
  | kept => exact endLine_literal u indent hne
  | bare => rw [Ending.cut, trimFeeds_literal u indent hne, if_neg (h rfl), Ending.lines]
  | line =>
    rw [Ending.cut, trimFeeds_literal u indent hne, Ending.lines]
    split
    · rw [append_block, Printer.literalChars]
    · have hbreak : ∀ c ∈ ['\n'], isBreak c = true := List.forall_mem_singleton.2 rfl
      rw [append_block, append_block, literalChars_append_breaks indent hbreak, List.append_assoc]
      rfl

/-- A text of line feeds alone leaves only its indicators where the end is bare. -/
theorem cut_literal_of_feeds (u : List Char) (indent : Nat) (hne : cs ≠ []) (h : trimFeeds cs = []) :
    Ending.bare.cut (Printer.endLine (u ++ Printer.literal indent cs)) = u ++ ['|', '2', '+'] := by
  obtain ⟨n, hcs, -⟩ := exists_feeds cs
  rw [h, List.nil_append] at hcs
  have hbreaks : ∀ c ∈ cs, isBreak c = true := by
    intro c hc
    rw [hcs] at hc
    rw [List.eq_of_mem_replicate hc]
    rfl
  have hspace : beginsWithSpace cs = true := by
    obtain ⟨c, rest, rfl⟩ := List.exists_cons_of_ne_nil hne
    exact Bool.or_eq_true_iff.2 (.inr (hbreaks c List.mem_cons_self))
  rw [Ending.cut, trimFeeds_literal u indent hne, if_pos h, blockHead, hspace,
    literalChomping_of_breaks hne hbreaks]
  rfl

end ProviderAssets.Yaml
