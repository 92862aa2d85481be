import ProviderAssets.Proofs.Yaml.Endings

/-!
# Scalars under an ending

A text in the style that the printer chose is read as one token, whatever is done to the end of what was
written: of a literal block the token holds what the ending leaves, and of any other style it holds the
text. `Lexer.At.scalar` is the statement for all styles. What may follow the text is `Lexer.Follows`.
-/

namespace ProviderAssets.Yaml

open Cursor (before)

variable {m m' : Mark} {c d : Char} {cs ds ws u v : List Char} {e : Ending} {s : String}

/-- The spaces after a line break lead to their column. -/
theorem Mark.column_after_spaces (h : ∃ c ∈ u.getLast?, isBreak c = true) (m : Mark) (n : Nat) :
    (m.after (u ++ Printer.spaces n)).column = n := by
  obtain ⟨c, hc, hbreak⟩ := h
  obtain ⟨v, rfl⟩ := List.getLast?_eq_some_iff.1 hc
  rw [Mark.after_append, Mark.column_after_of_line fun c => isBreak_of_mem_spaces, length_spaces,
    Mark.after_append, Mark.column_after_break hbreak, Nat.zero_add]

namespace Lexer

variable {l l' : Lexer} {xs : List Lexeme} {ins ins' : List Nat} {k k' : Option SimpleKey} {a : Bool}
variable {ts new : List Token} {indent n : Nat}

/-- What follows a text that ends in the given way, on the next line and after `n` spaces. -/
structure Follows (e : Ending) (n : Nat) (ds : List Char) : Prop where
  /-- There are contents, or there is nothing. -/
  content : Content ds
  /-- After a bare end there is nothing. -/
  bare : e = .bare → n = 0 ∧ ds = []

/-- Contents begin a word. -/
theorem Content.beginsWord (h : Content ds) : BeginsWord ds :=
  fun c hc => ⟨isBlank_of_solid (h c hc).1, isBreak_of_solid (h c hc).1⟩

/-- Contents begin a line. -/
theorem Content.beginsLine (h : Content ds) : BeginsLine ds := by
  intro c hc
  obtain ⟨hblank, hbreak⟩ := h.beginsWord c hc
  refine ⟨hbreak, ?_⟩
  rintro rfl
  cases hblank

/-- Contents do not begin with a space. -/
theorem Content.head?_ne (h : Content ds) : ds.head? ≠ some ' ' := by
  intro hspace
  exact absurd (h ' ' hspace).1 (by decide)

/-- Nothing but a key may stand at the column of the innermost block, and something else elsewhere. -/
theorem keyAt_free (h : ins.head? ≠ some m.column) :
    ∀ key ∈ keyAt a xs ins m, key.required = false ∧ key.mark = m := by
  intro key hkey
  cases a
  · cases hkey
  · rw [← Option.some.inj hkey]
    exact ⟨decide_eq_false h, rfl⟩

/-- A lexer that is ready for a token arrives behind it. -/
theorem Ready.reads {t : Token} (h : Ready l cs m ts ins a)
    (hread : ∀ xs, ∃ (x : Lexeme) (l₁ l₂ : Lexer), x.token = t ∧
      dispatch false (before cs m) (stand cs m xs ins none a) = .ok ((), l₁) ∧
      checkKeys l₁ = .ok ((), l₂) ∧ l₂.cursor.rest.length < cs.length ∧
      Arrives l₂ ds m' (lexed (x :: xs)) ins) :
    ∃ l', Reaches l l' ∧ Arrives l' ds m' (ts ++ [t]) ins := by
  refine h.round fun xs hxs => ?_
  obtain ⟨x, l₁, l₂, rfl, hdispatch, hkeys, hlt, harrives⟩ := hread xs
  refine ⟨l₂, ?_, hlt, (bind_of hdispatch _).trans hkeys⟩
  rwa [lexed_cons, hxs] at harrives

/-- How a scalar that is no literal block ends: its line ends before contents, or the text ends. -/
def EndsLine (ws : List Char) (n : Nat) (ds : List Char) : Prop :=
  ws = ['\n'] ∨ ws = [] ∧ n = 0 ∧ ds = []

/-- A plain scalar that is no key is read. -/
theorem Ready.plain (hfit : Fits s .plain)
    (h : Ready l (s.toList ++ (ws ++ (Printer.spaces n ++ ds))) m ts (indent :: ins) a)
    (hm : indent < m.column) (hn : n ≤ indent) (hends : EndsLine ws n ds) (hds : Content ds) :
    ∃ l', Reaches l l' ∧ Arrives l' ds (m.after (s.toList ++ (ws ++ Printer.spaces n)))
      (ts ++ [.scalar s .plain]) (indent :: ins) := by
  have hins : ∀ c ∈ (indent :: ins).head?, c ≤ m.column := fun c hc => by
    rw [← Option.some.inj hc]
    exact Nat.le_of_lt hm
  have hfree (xs : List Lexeme) : ∀ key ∈ keyAt a xs (indent :: ins) m,
      key.required = false ∧ key.mark = m := keyAt_free
    (by rw [List.head?_cons]; exact fun h => Nat.ne_of_lt hm (Option.some.inj h))
  -- A plain scalar goes on to the next line, where content at the indentation ends it.
  obtain ⟨broken, hend⟩ : ∃ broken, Scan.EndsPlain (floorOf (indent :: ins)) ds
      (ws ++ Printer.spaces n) broken ∧ (ds ≠ [] → broken = true ∧ '\n' ∈ ws) := by
    rcases hends with rfl | ⟨rfl, rfl, rfl⟩
    · exact ⟨true, .line (Nat.lt_succ_of_le hn) hds.beginsWord, fun _ => ⟨rfl, List.mem_cons_self⟩⟩
    · exact ⟨false, .here (.inl rfl), fun h => absurd rfl h⟩
  rw [← List.append_assoc ws] at h
  refine h.reads fun xs => ?_
  obtain ⟨x, hx, hdispatch⟩ := dispatch_plain (a := a) hfit hend.1 hins
  obtain ⟨l₂, hkeys, hrest, harrives⟩ := exists_arrives_here
    (k := keyAt a xs (indent :: ins) m) (a := broken)
    (m := m.after (s.toList ++ (ws ++ Printer.spaces n))) hds (fun key h => (hfree xs key h).1) (by
      intro hne
      obtain ⟨hbroken, hfeed⟩ := hend.2 hne
      refine ⟨hbroken, fun key h => ?_⟩
      rw [(hfree xs key h).2]
      exact Mark.line_lt_after ⟨'\n', by simp [hfeed], rfl⟩)
  refine ⟨x, _, l₂, hx, hdispatch, hkeys, ?_, harrives⟩
  rw [hrest]
  have := List.length_pos_iff.2 hfit.1
  simp
  omega

/-- A quoted scalar that is no key is read. -/
theorem Ready.quoted {st : ScalarStyle} {quote : Char} (hquote : IsQuote st quote) (hfit : Fits s st)
    (h : Ready l (spelled (indent + 2) s st ++ (ws ++ (Printer.spaces n ++ ds))) m ts (indent :: ins) a)
    (hm : indent < m.column) (hends : EndsLine ws n ds) (hds : Content ds) :
    ∃ l', Reaches l l' ∧ Arrives l' ds (m.after (spelled (indent + 2) s st ++ (ws ++ Printer.spaces n)))
      (ts ++ [.scalar s st]) (indent :: ins) := by
  have hfree (xs : List Lexeme) : ∀ key ∈ keyAt a xs (indent :: ins) m,
      key.required = false ∧ key.mark = m := keyAt_free
    (by rw [List.head?_cons]; exact fun h => Nat.ne_of_lt hm (Option.some.inj h))
  have hpos : 0 < (spelled (indent + 2) s st).length := by cases hquote <;> exact Nat.succ_pos _
  have hnext : (ws ++ (Printer.spaces n ++ ds)).head? ≠ some quote := by
    rcases hends with rfl | ⟨rfl, rfl, rfl⟩ <;> cases hquote <;> simp [Printer.spaces]
  refine h.reads fun xs => ?_
  obtain ⟨x, hx, hdispatch⟩ := dispatch_quoted xs (indent :: ins) a m hquote hfit hnext (indent + 1)
  have hline : (m.after (spelled (indent + 2) s st)).line ≥ m.line := Mark.line_le_after _ _
  rcases hends with rfl | ⟨rfl, rfl, rfl⟩
  · obtain ⟨l₂, hkeys, hrest, harrives⟩ := exists_arrives_line
      (k := keyAt a xs (indent :: ins) m) (a := false) (m := m.after (spelled (indent + 2) s st)) n hds
      (fun key h => ⟨(hfree xs key h).1, by rw [(hfree xs key h).2]; exact hline⟩)
    rw [← Mark.after_append] at harrives
    refine ⟨x, _, l₂, hx, hdispatch, hkeys, ?_, harrives⟩
    rw [hrest]
    simp
    omega
  · obtain ⟨l₂, hkeys, hrest, harrives⟩ := exists_arrives_here
      (k := keyAt a xs (indent :: ins) m) (a := false) (m := m.after (spelled (indent + 2) s st)) hds
      (fun key h => (hfree xs key h).1) (fun h => absurd rfl h)
    refine ⟨x, _, l₂, hx, hdispatch, hkeys, ?_, ?_⟩
    · rw [hrest]
      simp
      omega
    · simpa [Printer.spaces] using harrives

/-- A literal block is read with the white space after it. -/
theorem Ready.block {wide : Bool} {chomping : Scan.Chomping} (hcs : ∀ c ∈ cs, IsLiteralChar c)
    (hwide : wide = false → ∃ c ∈ cs.head?, c ≠ ' ' ∧ isBreak c = false)
    (hclip : chomping = .clip → ∃ c ∈ cs, isBreak c = false)
    (h : Ready l (Scan.block wide chomping (indent + 2) cs ++ (Printer.spaces n ++ ds)) m ts
      (indent :: ins) a)
    (hn : n ≤ indent) (hend : cs = [] ∨ (∃ c ∈ cs.getLast?, isBreak c = true) ∨ n = 0 ∧ ds = [])
    (hds : Content ds) :
    ∃ l', Reaches l l' ∧
      Arrives l' ds (m.after (Scan.block wide chomping (indent + 2) cs ++ Printer.spaces n))
        (ts ++ [.scalar (String.ofList (chomping.leaves cs)) .literal]) (indent :: ins) := by
  refine h.reads fun xs => ?_
  obtain ⟨x, hx, hdispatch⟩ := dispatch_block (a := a) (m := m) hn hcs hwide hclip hend
    hds.beginsLine hds.head?_ne
  obtain ⟨l₂, hkeys, hrest, harrives⟩ := exists_arrives_here (k := none) (a := true)
    (m := m.after (Scan.block wide chomping (indent + 2) cs ++ Printer.spaces n)) hds nofun
    (fun _ => ⟨rfl, nofun⟩)
  refine ⟨x, _, l₂, hx, hdispatch, hkeys, ?_, harrives⟩
  rw [hrest]
  simp [Scan.block]
  omega

/-- A literal block is read though its text breaks off after its indicators. -/
theorem Ready.header (h : Ready l ['|', '2', '+'] m ts (indent :: ins) a) :
    ∃ l', Reaches l l' ∧
      Arrives l' [] (m.after ['|', '2', '+']) (ts ++ [.scalar "" .literal]) (indent :: ins) := by
  refine h.reads fun xs => ?_
  obtain ⟨x, hx, hdispatch⟩ := dispatch_header m xs indent ins a
  obtain ⟨l₂, hkeys, hrest, harrives⟩ := exists_arrives_here (k := none) (a := true)
    (m := m.after ['|', '2', '+']) (show Content [] from nofun) nofun fun _ => ⟨rfl, nofun⟩
  refine ⟨x, _, l₂, hx, hdispatch, hkeys, ?_, harrives⟩
  rw [hrest]
  simp

/-- A spelling begins with contents. -/
theorem content_spelled {st : ScalarStyle} (hfit : Fits s st) (indent : Nat) (rest : List Char) :
    Content (spelled indent s st ++ rest) := by
  cases st with
  | folded => exact hfit.elim
  | plain =>
    obtain ⟨hne, hallowed⟩ := hfit
    obtain ⟨c, u, hcs, hsolid⟩ := (isPlainText_of_plainAllowed hne hallowed).exists_cons
    have hfeatures := hallowed
    simp only [Printer.features, Bool.not_eq_true', Bool.or_eq_false_iff, hcs] at hfeatures
    obtain ⟨⟨⟨⟨⟨⟨-, hlead⟩, -⟩, -⟩, -, hshown⟩, -⟩, -⟩ := hfeatures
    rw [Bool.not_eq_false'] at hshown
    have hshown : Printer.isShown c = true := List.all_eq_true.1 hshown c List.mem_cons_self
    intro d hd
    rw [spelled, hcs] at hd
    rw [← Option.some.inj hd]
    refine ⟨hsolid, ?_, ?_⟩
    · rintro rfl
      exact absurd hlead (by simp [Printer.isLeadingIndicator])
    · rintro rfl
      exact absurd hshown (by decide)
  | singleQuoted | doubleQuoted | literal =>
    intro d hd
    rw [← Option.some.inj hd]
    decide

/-- A plain scalar and a quoted one end in something else than a line break. -/
theorem getLast?_spelled {st : ScalarStyle} (hfit : Fits s st) (hst : st ≠ .literal) (indent : Nat) :
    ∀ c ∈ (spelled indent s st).getLast?, isBreak c = false := by
  cases st with
  | folded => exact hfit.elim
  | literal => exact absurd rfl hst
  | plain =>
    have hfeatures := hfit.2
    simp only [Printer.features, Bool.not_eq_true', Bool.or_eq_false_iff] at hfeatures
    obtain ⟨⟨⟨⟨-, hbreaks⟩, -⟩, -⟩, -⟩ := hfeatures
    intro c hc
    simpa using List.any_eq_false.1 hbreaks c (List.mem_of_mem_getLast? hc)
  | singleQuoted | doubleQuoted =>
    intro c hc
    have hlast : c = '\x27' ∨ c = '"' := by
      simp only [spelled, Printer.singleQuoted, Printer.doubleQuoted, List.getLast?_append] at hc
      simp at hc
      tauto
    rcases hlast with rfl | rfl <;> rfl

/-- The character after which a block goes on is a line break. -/
theorem getLast?_block {wide : Bool} {chomping : Scan.Chomping} (indent : Nat)
    (h : cs = [] ∨ ∃ c ∈ cs.getLast?, isBreak c = true) :
    ∃ c ∈ (Scan.block wide chomping indent cs).getLast?, isBreak c = true := by
  have hlast : (Scan.block wide chomping indent cs).getLast? =
      some ((cs.getLast?).getD '\n') := by
    rw [Scan.block, List.getLast?_cons, List.getLast?_append, List.getLast?_append, List.getLast?_cons,
      getLast?_literalChars]
    rfl
  rw [hlast]
  obtain rfl | ⟨c, hc, hbreak⟩ := h
  · exact ⟨'\n', rfl, rfl⟩
  · exact ⟨c, by rw [Option.mem_def.1 hc]; rfl, hbreak⟩

/-- A lexer that stands at the space before contents is ready for them, if these stand further right
than the innermost block. -/
theorem At.ready_space (h : At l (' ' :: cs) m ts (indent :: ins) a) (hcs : Content cs)
    (hm : indent < m.column) : Ready l cs (m.after [' ']) ts (indent :: ins) a := by
  refine At.ready_spaces (n := 1) h hcs fun c hc => ?_
  have hcolumn : (m.after [' ']).column = m.column + 1 := Mark.column_after_one m rfl
  rw [← Option.some.inj hc]
  show indent ≤ (m.after [' ']).column
  omega

/-- A literal block that is no key is read as what its ending leaves, with the white space after it. -/
theorem At.literal (hfit : Fits s .literal)
    (h : At l (e.cut (Printer.endLine (' ' :: spelled (indent + 2) s .literal)) ++
      (Printer.spaces n ++ ds)) m ts (indent :: ins) a)
    (hm : indent < m.column) (hn : n ≤ indent) (hfollows : Follows e n ds) :
    ∃ l' m', Reaches l l' ∧
      Arrives l' ds m' (ts ++ [.scalar (e.text s .literal) .literal]) (indent :: ins) ∧
      (ds ≠ [] → m'.column = n) := by
  obtain ⟨hne, hshown⟩ := hfit
  have hbar (cs : List Char) : Content ('|' :: cs) := by
    intro c hc
    rw [← Option.some.inj hc]
    decide
  -- Where the end is bare, a text of line feeds alone leaves only the indicators of its block.
  by_cases hheader : e = .bare ∧ trimFeeds s.toList = []
  · obtain ⟨rfl, hfeeds⟩ := hheader
    obtain ⟨rfl, rfl⟩ := hfollows.bare rfl
    have hcut := cut_literal_of_feeds [' '] (indent + 2) hne hfeeds
    have h : At l (' ' :: ['|', '2', '+']) m ts (indent :: ins) a := by
      have htext : Ending.bare.cut (Printer.endLine (' ' :: spelled (indent + 2) s .literal)) =
          ' ' :: ['|', '2', '+'] := hcut
      rw [htext] at h
      simpa [Printer.spaces] using h
    obtain ⟨l', hreach, harrives⟩ := (h.ready_space (hbar _) hm).header
    rw [Ending.text_of_feeds hfeeds]
    exact ⟨l', _, hreach, harrives, fun h => absurd rfl h⟩
  · have hcut := cut_literal (e := e) [' '] (indent + 2) hne fun he hfeeds => hheader ⟨he, hfeeds⟩
    have h : At l (' ' :: (Scan.block (beginsWithSpace s.toList) (literalChomping s.toList) (indent + 2)
        (e.lines s.toList) ++ (Printer.spaces n ++ ds))) m ts (indent :: ins) a := by
      have htext : e.cut (Printer.endLine (' ' :: spelled (indent + 2) s .literal)) =
          ' ' :: Scan.block (beginsWithSpace s.toList) (literalChomping s.toList) (indent + 2)
            (e.lines s.toList) := hcut
      rwa [htext] at h
    have hend := getLast?_lines e hne
    obtain ⟨l', hreach, harrives⟩ := (h.ready_space (hbar _) hm).block
      (isLiteralChar_of_mem_lines hshown) (head?_lines e hne) (exists_mem_lines_of_clip e) hn
      (hend.imp_right fun h => h.imp_right hfollows.bare) hfollows.content
    refine ⟨l', _, hreach, harrives, fun hmore => Mark.column_after_spaces ?_ _ n⟩
    refine getLast?_block (indent + 2) (hend.imp_right fun h => h.resolve_right fun he => ?_)
    exact hmore (hfollows.bare he).2

/-- A scalar that is no key is read as what its ending leaves, with the white space after it. -/
theorem At.scalar {st : ScalarStyle} (hfit : Fits s st)
    (h : At l (e.cut (Printer.endLine (' ' :: spelled (indent + 2) s st)) ++ (Printer.spaces n ++ ds))
      m ts (indent :: ins) a)
    (hm : indent < m.column) (hn : n ≤ indent) (hfollows : Follows e n ds) :
    ∃ l' m', Reaches l l' ∧ Arrives l' ds m' (ts ++ [.scalar (e.text s st) st]) (indent :: ins) ∧
      (ds ≠ [] → m'.column = n) := by
  -- The end of the line belongs to the text of a literal block, and to that of no other scalar.
  by_cases hst : st = .literal
  · subst hst
    exact h.literal hfit hm hn hfollows
  have hcolumn : (m.after [' ']).column = m.column + 1 := Mark.column_after_one m rfl
  obtain ⟨ws, hcut, hends⟩ := cut_endLine e (u := ' ' :: spelled (indent + 2) s st)
    (List.cons_ne_nil _ _) (by
      intro c hc
      rw [List.getLast?_cons] at hc
      cases hlast : (spelled (indent + 2) s st).getLast? with
      | none =>
        rw [hlast] at hc
        rw [← Option.some.inj hc]
        rfl
      | some d =>
        rw [hlast] at hc
        rw [← Option.some.inj hc]
        exact getLast?_spelled hfit hst _ d hlast)
  have hready : Ready l (spelled (indent + 2) s st ++ (ws ++ (Printer.spaces n ++ ds))) (m.after [' ']) ts
      (indent :: ins) a := by
    rw [hcut, List.cons_append, List.cons_append, List.append_assoc] at h
    exact h.ready_space (content_spelled hfit _ _) hm
  have hends : EndsLine ws n ds := hends.imp_right fun h => ⟨h.2, hfollows.bare h.1⟩
  have hline (hne : ds ≠ []) : ((m.after [' ']).after
      (spelled (indent + 2) s st ++ (ws ++ Printer.spaces n))).column = n := by
    obtain rfl := hends.resolve_right fun h => hne h.2.2
    rw [← List.append_assoc]
    exact Mark.column_after_spaces ⟨'\n', by simp, rfl⟩ _ n
  cases st with
  | folded => exact hfit.elim
  | literal => exact absurd rfl hst
  | plain =>
    obtain ⟨l', hreach, harrives⟩ := hready.plain hfit (by omega) hn hends hfollows.content
    exact ⟨l', _, hreach, harrives, hline⟩
  | singleQuoted =>
    obtain ⟨l', hreach, harrives⟩ := hready.quoted .single hfit (by omega) hends hfollows.content
    exact ⟨l', _, hreach, harrives, hline⟩
  | doubleQuoted =>
    obtain ⟨l', hreach, harrives⟩ := hready.quoted .double hfit (by omega) hends hfollows.content
    exact ⟨l', _, hreach, harrives, hline⟩

end Lexer

end ProviderAssets.Yaml
