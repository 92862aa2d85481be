import ProviderAssets.Proofs.Yaml.Keys
import ProviderAssets.Proofs.Yaml.LastString
import ProviderAssets.Proofs.Yaml.Numbers

/-!
# Values

The lexer reads what is written for a value as the tokens of the value, whatever stands around it.
The text may end in another way than the printer lets it; of the string at the end of the value, the
last token has then what its ending leaves.
-/

namespace ProviderAssets.Yaml

open Cursor (before)

mutual

/-- The tokens of a value under an ending. The items of a sequence stand at the indentation of the
mapping around it where `indentless` is set, and then no tokens are around them. -/
def tokens (e : Ending) (indentless : Bool) : Json.Value → List Token
  | .null => [.scalar "null" .plain]
  | .bool b => [.scalar (if b then "true" else "false") .plain]
  | .number n => [.scalar (Printer.number n) .plain]
  | .string s => [.scalar (e.text s (Printer.style s)) (Printer.style s)]
  | .array [] => [.flowSequenceStart, .flowSequenceEnd]
  | .array (x :: xs) =>
    if indentless then itemTokens e (x :: xs)
    else .blockSequenceStart :: (itemTokens e (x :: xs) ++ [.blockEnd])
  | .object [] => [.flowMappingStart, .flowMappingEnd]
  | .object (f :: fs) => .blockMappingStart :: (fieldTokens e (f :: fs) ++ [.blockEnd])

/-- The tokens of the items of a sequence. -/
def itemTokens (e : Ending) : List Json.Value → List Token
  | [] => []
  | x :: xs => .blockEntry :: (tokens (e.before xs) false x ++ itemTokens e xs)

/-- The tokens of the fields of a mapping. -/
def fieldTokens (e : Ending) : List (String × Json.Value) → List Token
  | [] => []
  | (key, v) :: rest =>
    .key :: .scalar key (Printer.style key) :: .value ::
      (tokens (e.before rest) (Printer.isSimpleKey key) v ++ fieldTokens e rest)

end

namespace Lexer

variable {l l' : Lexer} {m m' : Mark} {c d : Char} {cs ds ws u v : List Char} {e : Ending} {s : String}
variable {xs : List Lexeme} {ins ins' : List Nat} {k k' : Option SimpleKey} {a : Bool}
variable {ts new : List Token} {indent n : Nat}

/-- The lexer gets to contents at column `n`, or to the end of the text. -/
def Lands (l : Lexer) (ds : List Char) (n : Nat) (ts : List Token) (ins : List Nat) : Prop :=
  ∃ l' m', Reaches l l' ∧ Arrives l' ds m' ts ins ∧ (ds ≠ [] → m'.column = n)

/-- A lexer lands where one lands that it reaches. -/
theorem Lands.of_reaches (hreach : Reaches l l') (h : Lands l' ds n ts ins) : Lands l ds n ts ins := by
  obtain ⟨l'', m', hreach', h⟩ := h
  exact ⟨l'', m', hreach.trans hreach', h⟩

/-- The end of a block that is further right than those around it is passed, too. -/
theorem Lands.close (h : Lands l ds n ts (indent :: ins)) (hindent : ∀ d ∈ ins, d < indent) :
    Lands l ds n (ts ++ [.blockEnd]) ins := by
  obtain ⟨l', m', hreach, harrives, hcolumn⟩ := h
  exact ⟨l', m', hreach, harrives.close hindent, hcolumn⟩

/-- The brackets of an empty collection are read, with the white space after them. -/
theorem At.brackets {opening closing : Token} (hpair : IsBrackets c d opening closing)
    (h : At l (e.cut (Printer.endLine [' ', c, d]) ++ (Printer.spaces n ++ ds)) m ts (indent :: ins) a)
    (hm : indent < m.column) (hfollows : Follows e n ds) :
    Lands l ds n (ts ++ [opening, closing]) (indent :: ins) := by
  have hcolumn : (m.after [' ']).column = m.column + 1 := Mark.column_after_one m rfl
  have hc : isBlankOrEnd c = false ∧ c ≠ '#' ∧ c ≠ '\ufeff' := by cases hpair <;> decide
  have hd : isBreak d = false := by cases hpair <;> rfl
  obtain ⟨ws, hcut, hends⟩ := cut_endLine e (u := [' ', c, d]) (List.cons_ne_nil _ _) (by simpa using hd)
  have hends : EndsLine ws n ds := hends.imp_right fun h => ⟨h.2, hfollows.bare h.1⟩
  have h : At l (' ' :: c :: d :: (ws ++ (Printer.spaces n ++ ds))) m ts (indent :: ins) a := by
    simpa [hcut] using h
  have hcontent : Content (c :: d :: (ws ++ (Printer.spaces n ++ ds))) := fun b hb =>
    Option.some.inj hb ▸ hc
  obtain ⟨l', hreach, xs, ys, hxs, rfl⟩ := (h.ready_space hcontent hm).brackets hpair
  -- The brackets might be a key, but they stand further right than the block, so they need not be.
  have hfree : ∀ key ∈ keyAt a ys (indent :: ins) (m.after [' ']),
      key.required = false ∧ key.mark = m.after [' '] := keyAt_free (by
    rw [List.head?_cons, hcolumn]
    intro h
    have := Option.some.inj h
    omega)
  have hline : (m.after [' ']).line ≤ ((m.after [' ']).after [c, d]).line := Mark.line_le_after _ _
  rw [← hxs]
  rcases hends with rfl | ⟨rfl, rfl, rfl⟩
  · refine ⟨_, _, hreach, arrives_line n hfollows.content fun key h => ?_, fun _ =>
      Mark.column_after_line _ [] n⟩
    rw [(hfree key h).2]
    exact ⟨(hfree key h).1, hline⟩
  · exact ⟨_, _, hreach, arrives_here hfollows.content (fun key h => (hfree key h).1)
      (absurd rfl), (absurd rfl)⟩

/-- Whether a value is no collection, or an empty one, and stands on a line. -/
def IsLeaf : Json.Value → Prop
  | .array (_ :: _) | .object (_ :: _) => False
  | _ => True

/-- Such a value is written in the same way after a hyphen and after a key. -/
theorem layout_of_isLeaf {v : Json.Value} (h : IsLeaf v) (indent : Nat) :
    Printer.nested indent v = Printer.endLine (' ' :: Printer.inline (indent + 2) v) ∧
      Printer.fieldValue indent v = Printer.endLine (' ' :: Printer.inline (indent + 2) v) := by
  rcases v with _ | b | x | s | (_ | ⟨x, xs⟩) | (_ | ⟨f, fs⟩)
  case array.cons | object.cons => exact h.elim
  all_goals exact ⟨rfl, rfl⟩

/-- A value that is no collection, or an empty one, is read with the white space after it. -/
theorem At.leaf {v : Json.Value} (hleaf : IsLeaf v)
    (h : At l (e.cut (Printer.endLine (' ' :: Printer.inline (indent + 2) v)) ++
      (Printer.spaces n ++ ds)) m ts (indent :: ins) a)
    (hm : indent < m.column) (hn : n ≤ indent) (hfollows : Follows e n ds) (indentless : Bool) :
    Lands l ds n (ts ++ tokens e indentless v) (indent :: ins) := by
  have hword {w : String} (hfit : Fits w .plain)
      (h : At l (e.cut (Printer.endLine (' ' :: w.toList)) ++ (Printer.spaces n ++ ds)) m ts
        (indent :: ins) a) : Lands l ds n (ts ++ [.scalar w .plain]) (indent :: ins) :=
    At.scalar hfit h hm hn hfollows
  rcases v with _ | b | x | s | xs | fs
  · exact hword (w := "null") ⟨by decide, by decide⟩ h
  · cases b
    · exact hword (w := "false") ⟨by decide, by decide⟩ h
    · exact hword (w := "true") ⟨by decide, by decide⟩ h
  · exact hword (fits_number x) h
  · exact At.scalar (fits_style s) h hm hn hfollows
  · cases xs with
    | nil => exact At.brackets .sequence h hm hfollows
    | cons x xs => exact hleaf.elim
  · cases fs with
    | nil => exact At.brackets .mapping h hm hfollows
    | cons f fs => exact hleaf.elim

/-! ## Blocks -/

variable {bs : List (List Char)}

/-- Blocks under one another are the first one, and after its indentation the others. -/
theorem joinBlocks_cons (n : Nat) (b : List Char) (hbs : bs ≠ []) :
    Printer.joinBlocks n (b :: bs) = b ++ (Printer.spaces n ++ Printer.joinBlocks n bs) := by
  obtain ⟨b', rest, rfl⟩ := List.exists_cons_of_ne_nil hbs
  simp [Printer.joinBlocks]

/-- Blocks on lines of their own are such as stand under one another, after the first indentation. -/
theorem flatMap_spaces (n : Nat) (hbs : bs ≠ []) :
    bs.flatMap (Printer.spaces n ++ ·) = Printer.spaces n ++ Printer.joinBlocks n bs := by
  obtain ⟨b, rest, rfl⟩ := List.exists_cons_of_ne_nil hbs
  simp [Printer.joinBlocks]

/-- Every field has a block. -/
theorem fieldBlocks_ne_nil (n : Nat) (f : String × Json.Value) (fs : List (String × Json.Value)) :
    Printer.fieldBlocks n (f :: fs) ≠ [] := by
  rw [Printer.fieldBlocks]
  exact List.cons_ne_nil _ _

/-- Contents are some character that is no line feed. -/
theorem Content.exists_ne (h : Content cs) (hne : cs ≠ []) : ∃ c ∈ cs, c ≠ '\n' := by
  obtain ⟨c, u, rfl⟩ := List.exists_cons_of_ne_nil hne
  refine ⟨c, List.mem_cons_self, ?_⟩
  rintro rfl
  exact absurd (h '\n' rfl).1 (by decide)

/-- Contents are contents under every ending. -/
theorem Content.cut (h : Content cs) (e : Ending) (hne : cs ≠ []) (ds : List Char) :
    Content (e.cut cs ++ ds) ∧ e.cut cs ++ ds ≠ [] := by
  obtain ⟨c, u, rfl⟩ := List.exists_cons_of_ne_nil hne
  have hc := h c rfl
  have hfeed : c ≠ '\n' := by
    rintro rfl
    exact absurd hc.1 (by decide)
  obtain ⟨t, ht⟩ := e.exists_cut_cons hfeed u
  rw [ht]
  refine ⟨fun d hd => ?_, List.cons_ne_nil _ _⟩
  rw [← Option.some.inj hd]
  exact hc

/-- A line has the characters that it had, and perhaps a line break. -/
theorem exists_endLine (hne : cs ≠ []) : ∃ ws, Printer.endLine cs = cs ++ ws := by
  rw [Printer.endLine, List.getLast?_eq_some_getLast hne]
  by_cases hbreak : isBreak (cs.getLast hne) = true
  · exact ⟨[], by simp [hbreak]⟩
  · exact ⟨['\n'], by simp [hbreak]⟩

/-- A value on its line is contents. -/
theorem content_inline (v : Json.Value) (indent : Nat) (rest : List Char) :
    Content (Printer.inline indent v ++ rest) ∧ Printer.inline indent v ≠ [] := by
  have hword {w : String} (hfit : Fits w .plain) :
      Content (w.toList ++ rest) ∧ w.toList ≠ [] := ⟨content_spelled hfit indent rest, hfit.1⟩
  rcases v with _ | b | x | s | xs | fs
  · exact hword (w := "null") ⟨by decide, by decide⟩
  · cases b
    · exact hword (w := "false") ⟨by decide, by decide⟩
    · exact hword (w := "true") ⟨by decide, by decide⟩
  · exact hword (fits_number x)
  · exact ⟨content_spelled (fits_style s) indent rest, spelled_ne_nil (fits_style s) indent⟩
  · refine ⟨fun c hc => ?_, List.cons_ne_nil _ _⟩
    rw [← Option.some.inj hc]
    decide
  · refine ⟨fun c hc => ?_, List.cons_ne_nil _ _⟩
    rw [← Option.some.inj hc]
    decide

/-- The items of a sequence begin with contents. -/
theorem content_items (n : Nat) (x : Json.Value) (xs : List Json.Value) :
    Content (Printer.joinBlocks n (Printer.itemBlocks n (x :: xs))) ∧
      Printer.joinBlocks n (Printer.itemBlocks n (x :: xs)) ≠ [] := by
  refine ⟨fun c hc => ?_, List.cons_ne_nil _ _⟩
  rw [← Option.some.inj hc]
  decide

/-- The fields of a mapping begin with contents. -/
theorem content_fields (n : Nat) (f : String × Json.Value) (fs : List (String × Json.Value)) :
    Content (Printer.joinBlocks n (Printer.fieldBlocks n (f :: fs))) ∧
      Printer.joinBlocks n (Printer.fieldBlocks n (f :: fs)) ≠ [] := by
  obtain ⟨key, v⟩ := f
  rw [Printer.fieldBlocks, Printer.joinBlocks]
  split
  · rw [string_eq, List.append_assoc]
    exact ⟨content_spelled (fits_style key) _ _,
      fun h => spelled_ne_nil (fits_style key) _ (List.append_eq_nil_iff.1 h).1⟩
  · refine ⟨fun c hc => ?_, List.cons_ne_nil _ _⟩
    rw [← Option.some.inj hc]
    decide

/-- A value on a line that begins with a space has contents after it. -/
theorem exists_inline (v : Json.Value) (indent : Nat) :
    ∃ t, Printer.endLine (' ' :: Printer.inline indent v) = ' ' :: t ∧ Content t ∧ t ≠ [] := by
  obtain ⟨ws, hws⟩ := exists_endLine (List.cons_ne_nil ' ' (Printer.inline indent v))
  obtain ⟨hcontent, hne⟩ := content_inline v indent ws
  exact ⟨_, hws, hcontent, fun h => hne (List.append_eq_nil_iff.1 h).1⟩

/-- A value after a hyphen begins with a space and contents. -/
theorem exists_nested (v : Json.Value) (indent : Nat) :
    ∃ t, Printer.nested indent v = ' ' :: t ∧ Content t ∧ t ≠ [] := by
  have hleaf := exists_inline v (indent + 2)
  rcases v with _ | b | x | s | (_ | ⟨x, xs⟩) | (_ | ⟨f, fs⟩)
  case array.cons => exact ⟨_, rfl, content_items (indent + 2) x xs⟩
  case object.cons => exact ⟨_, rfl, content_fields (indent + 2) f fs⟩
  all_goals exact hleaf

/-- A value after a key begins with white space before its contents. -/
theorem exists_fieldValue (v : Json.Value) (indent : Nat) :
    ∃ c t, Printer.fieldValue indent v = c :: t ∧ isBlankOrEnd c = true ∧ ∃ d ∈ t, d ≠ '\n' := by
  have hblock {n : Nat} {bs : List (List Char)} (hbs : bs ≠ [])
      (h : Content (Printer.joinBlocks n bs) ∧ Printer.joinBlocks n bs ≠ []) :
      ∃ d ∈ bs.flatMap (Printer.spaces n ++ ·), d ≠ '\n' := by
    obtain ⟨d, hd, hne⟩ := h.1.exists_ne h.2
    rw [flatMap_spaces n hbs]
    exact ⟨d, List.mem_append_right _ hd, hne⟩
  have hleaf := exists_inline v (indent + 2)
  rcases v with _ | b | x | s | (_ | ⟨x, xs⟩) | (_ | ⟨f, fs⟩)
  case array.cons =>
    exact ⟨_, _, rfl, rfl, hblock (List.cons_ne_nil _ _) (content_items indent x xs)⟩
  case object.cons =>
    exact ⟨_, _, rfl, rfl, hblock (fieldBlocks_ne_nil _ f fs) (content_fields (indent + 2) f fs)⟩
  all_goals
    obtain ⟨t, ht, hcontent, hne⟩ := hleaf
    exact ⟨_, t, ht, rfl, hcontent.exists_ne hne⟩

/-! ## Trees -/

/-- The lexer reads a value as its tokens, after a hyphen and after a key. -/
def ReadsValue (v : Json.Value) : Prop :=
  ∀ {l : Lexer} {m : Mark} {ts : List Token} {indent n : Nat} {ins : List Nat} {ds : List Char}
    {e : Ending}, (∀ d ∈ ins, d < indent) → n ≤ indent →
    Follows e n ds →
    (At l (e.cut (Printer.nested indent v) ++ (Printer.spaces n ++ ds)) m ts (indent :: ins) true →
      m.column = indent + 1 → Lands l ds n (ts ++ tokens e false v) (indent :: ins)) ∧
    (At l (e.cut (Printer.fieldValue indent v) ++ (Printer.spaces n ++ ds)) m ts (indent :: ins) false →
      indent < m.column → Lands l ds n (ts ++ tokens e true v) (indent :: ins))

/-- The lexer reads the items of a sequence as their tokens. -/
def ReadsItems (xs : List Json.Value) : Prop :=
  ∀ {l : Lexer} {m : Mark} {ts new : List Token} {indent n : Nat} {ins ins' : List Nat}
    {ds : List Char} {e : Ending}, xs ≠ [] →
    (∀ d ∈ ins, d < indent) → n ≤ indent → Follows e n ds →
    Ready l (e.cut (Printer.joinBlocks indent (Printer.itemBlocks indent xs)) ++
      (Printer.spaces n ++ ds)) m ts ins' true →
    m.column = indent → Opens .blockSequenceStart indent ins' (indent :: ins) new →
    Lands l ds n (ts ++ (new ++ itemTokens e xs)) (indent :: ins)

/-- The lexer reads the fields of a mapping as their tokens. -/
def ReadsFields (fs : List (String × Json.Value)) : Prop :=
  ∀ {l : Lexer} {m : Mark} {ts new : List Token} {indent n : Nat} {ins ins' : List Nat}
    {ds : List Char} {e : Ending}, fs ≠ [] →
    (∀ d ∈ ins, d < indent) → n ≤ indent → Follows e n ds →
    Ready l (e.cut (Printer.joinBlocks indent (Printer.fieldBlocks indent fs)) ++
      (Printer.spaces n ++ ds)) m ts ins' true →
    m.column = indent → Opens .blockMappingStart indent ins' (indent :: ins) new →
    Lands l ds n (ts ++ (new ++ fieldTokens e fs)) (indent :: ins)

/-- A value that is no collection, or an empty one, is read as its token. -/
theorem readsValue_leaf {v : Json.Value} (hleaf : IsLeaf v) : ReadsValue v := by
  intro l m ts indent n ins ds e hins hn hfollows
  refine ⟨fun h hm => ?_, fun h hm => ?_⟩
  · rw [(layout_of_isLeaf hleaf indent).1] at h
    exact h.leaf hleaf (by omega) hn hfollows false
  · rw [(layout_of_isLeaf hleaf indent).2] at h
    exact h.leaf hleaf hm hn hfollows true

/-- A lexer that stands at the end of a line is ready for the blocks on the next lines. -/
theorem At.ready_blocks {column : Nat} (hbs : bs ≠ [])
    (h : At l (e.cut ('\n' :: bs.flatMap (Printer.spaces column ++ ·)) ++ ds) m ts (indent :: ins) a)
    (hcontent : Content (Printer.joinBlocks column bs)) (hne : Printer.joinBlocks column bs ≠ [])
    (hcolumn : indent ≤ column) :
    Ready l (e.cut (Printer.joinBlocks column bs) ++ ds) (m.after ('\n' :: Printer.spaces column)) ts
      (indent :: ins) true ∧ (m.after ('\n' :: Printer.spaces column)).column = column := by
  have htext : e.cut ('\n' :: bs.flatMap (Printer.spaces column ++ ·)) ++ ds =
      '\n' :: (Printer.spaces column ++ (e.cut (Printer.joinBlocks column bs) ++ ds)) := by
    rw [flatMap_spaces column hbs, ← List.cons_append, e.cut_append (hcontent.exists_ne hne)]
    simp
  rw [htext] at h
  refine ⟨h.ready_line (hcontent.cut e hne ds).1 fun c hc => ?_, Mark.column_after_line m [] column⟩
  rw [← Option.some.inj hc]
  exact hcolumn

/-- What lies deeper than a block lies deeper than those around it. -/
theorem lt_of_deeper (hins : ∀ d ∈ ins, d < indent) : ∀ d ∈ indent :: ins, d < indent + 2 := by
  intro d hd
  rcases List.mem_cons.1 hd with rfl | hd
  · omega
  · have := hins d hd
    omega

/-- A sequence is read if its items are. -/
theorem readsValue_array {x : Json.Value} {xs : List Json.Value} (ih : ReadsItems (x :: xs)) :
    ReadsValue (.array (x :: xs)) := by
  intro l m ts indent n ins ds e hins hn hfollows
  have hdeeper := lt_of_deeper hins
  refine ⟨fun h hm => ?_, fun h hm => ?_⟩
  · obtain ⟨hcontent, hne⟩ := content_items (indent + 2) x xs
    rw [Printer.nested, e.cut_cons (hcontent.exists_ne hne), List.cons_append] at h
    have hready := h.ready_space (hcontent.cut e hne _).1 (by omega)
    have := (ih (List.cons_ne_nil _ _) hdeeper (by omega) hfollows hready
      (by rw [Mark.column_after_one m rfl, hm]) (.first hdeeper)).close hdeeper
    simpa [tokens] using this
  · obtain ⟨hcontent, hne⟩ := content_items indent x xs
    obtain ⟨hready, hcolumn⟩ := At.ready_blocks (List.cons_ne_nil _ _) h hcontent hne (Nat.le_refl _)
    have := ih (List.cons_ne_nil _ _) hins hn hfollows hready hcolumn .later
    simpa [tokens] using this

/-- A mapping is read if its fields are. -/
theorem readsValue_object {f : String × Json.Value} {fs : List (String × Json.Value)}
    (ih : ReadsFields (f :: fs)) : ReadsValue (.object (f :: fs)) := by
  intro l m ts indent n ins ds e hins hn hfollows
  have hdeeper := lt_of_deeper hins
  obtain ⟨hcontent, hne⟩ := content_fields (indent + 2) f fs
  have hread {m' : Mark} {b : Bool} (hready : Ready l
      (e.cut (Printer.joinBlocks (indent + 2) (Printer.fieldBlocks (indent + 2) (f :: fs))) ++
        (Printer.spaces n ++ ds)) m' ts (indent :: ins) true) (hcolumn : m'.column = indent + 2) :
      Lands l ds n (ts ++ tokens e b (.object (f :: fs))) (indent :: ins) := by
    have := (ih (List.cons_ne_nil _ _) hdeeper (by omega) hfollows hready hcolumn
      (.first hdeeper)).close hdeeper
    simpa [tokens] using this
  refine ⟨fun h hm => ?_, fun h hm => ?_⟩
  · rw [Printer.nested, e.cut_cons (hcontent.exists_ne hne), List.cons_append] at h
    exact hread (h.ready_space (hcontent.cut e hne _).1 (by omega))
      (by rw [Mark.column_after_one m rfl, hm])
  · obtain ⟨hready, hcolumn⟩ := At.ready_blocks (fieldBlocks_ne_nil _ f fs) h hcontent hne
      (Nat.le_add_right _ _)
    exact hread hready hcolumn

/-- An entry of a sequence is read, with the white space after it. -/
theorem Ready.item {x : Json.Value} (hx : ReadsValue x)
    (hins : ∀ d ∈ ins, d < indent) (hn : n ≤ indent)
    (hfollows : Follows e n ds)
    (h : Ready l (e.cut ('-' :: Printer.nested indent x) ++ (Printer.spaces n ++ ds)) m ts ins' true)
    (hm : m.column = indent) (hopen : Opens .blockSequenceStart indent ins' (indent :: ins) new) :
    Lands l ds n (ts ++ (new ++ .blockEntry :: tokens e false x)) (indent :: ins) := by
  obtain ⟨t, ht, hcontent, hne⟩ := exists_nested _ indent
  have hcut : e.cut (Printer.nested indent x) = ' ' :: e.cut t := by
    rw [ht, e.cut_cons (hcontent.exists_ne hne)]
  have htext : e.cut ('-' :: Printer.nested indent x) = '-' :: ' ' :: e.cut t := by
    rw [e.cut_cons (by rw [ht]; exact ⟨' ', List.mem_cons_self, by decide⟩), hcut]
  rw [htext] at h
  obtain ⟨l₁, hreach, hat⟩ := h.blockEntry (by rw [hm]; exact hopen)
  have hat : At l₁ (e.cut (Printer.nested indent x) ++ (Printer.spaces n ++ ds)) (m.after ['-'])
      (ts ++ (new ++ [.blockEntry])) (indent :: ins) true := by rwa [hcut]
  have hnext : (m.after ['-']).column = indent + 1 := by
    rw [Mark.column_after_one m rfl, hm]
  have := (hx hins hn hfollows).1 hat hnext
  exact .of_reaches hreach (by simpa using this)

/-- An entry of a mapping is read whose key stands on the line of its value. -/
theorem Ready.simpleField {key : String} {v : Json.Value} (hv : ReadsValue v)
    (hkey : Printer.isSimpleKey key = true) (hins : ∀ d ∈ ins, d < indent) (hn : n ≤ indent)
    (hfollows : Follows e n ds)
    (h : Ready l (e.cut (Printer.string (indent + 2) key ++ ':' :: Printer.fieldValue indent v) ++
      (Printer.spaces n ++ ds)) m ts ins' true)
    (hm : m.column = indent) (hopen : Opens .blockMappingStart indent ins' (indent :: ins) new) :
    Lands l ds n (ts ++ (new ++ .key :: .scalar key (Printer.style key) :: .value ::
      tokens e true v)) (indent :: ins) := by
  obtain ⟨c, t, ht, hc, htne⟩ := exists_fieldValue v indent
  have hcut : e.cut (Printer.fieldValue indent v) = c :: e.cut t := by rw [ht, e.cut_cons htne]
  have htext : e.cut (Printer.string (indent + 2) key ++ ':' :: Printer.fieldValue indent v) =
      Printer.string (indent + 2) key ++ ':' :: c :: e.cut t := by
    rw [e.cut_append ⟨':', List.mem_cons_self, by decide⟩, e.cut_cons, hcut]
    obtain ⟨d, hd, hne⟩ := htne
    exact ⟨d, by rw [ht]; exact List.mem_cons_of_mem _ hd, hne⟩
  rw [htext, List.append_assoc] at h
  obtain ⟨l₁, m₁, hreach, hcolumn, hat⟩ := h.simpleKey hkey hc (by rw [hm]; exact hopen)
  have hat : At l₁ (e.cut (Printer.fieldValue indent v) ++ (Printer.spaces n ++ ds)) m₁
      (ts ++ (new ++ [.key, .scalar key (Printer.style key), .value])) (indent :: ins) false := by
    rwa [hcut]
  have := (hv hins hn hfollows).2 hat (by omega)
  exact .of_reaches hreach (by simpa using this)

/-- An entry of a mapping is read whose key is marked. The value is on lines of its own. -/
theorem Ready.complexField {key : String} {v : Json.Value} (hv : ReadsValue v)
    (hins : ∀ d ∈ ins, d < indent) (hn : n ≤ indent) (hfollows : Follows e n ds)
    (h : Ready l (e.cut ('?' :: Printer.endLine (' ' :: Printer.string (indent + 2) key) ++
      Printer.spaces indent ++ ':' :: Printer.nested indent v) ++ (Printer.spaces n ++ ds)) m ts ins' true)
    (hm : m.column = indent) (hopen : Opens .blockMappingStart indent ins' (indent :: ins) new) :
    Lands l ds n (ts ++ (new ++ .key :: .scalar key (Printer.style key) :: .value ::
      tokens e false v)) (indent :: ins) := by
  obtain ⟨t, ht, hcontent, hne⟩ := exists_nested _ indent
  have hcut : e.cut (Printer.nested indent v) = ' ' :: e.cut t := by
    rw [ht, e.cut_cons (hcontent.exists_ne hne)]
  have htext : e.cut ('?' :: Printer.endLine (' ' :: Printer.string (indent + 2) key) ++
      Printer.spaces indent ++ ':' :: Printer.nested indent v) =
      '?' :: (Printer.endLine (' ' :: Printer.string (indent + 2) key) ++
        (Printer.spaces indent ++ ':' :: ' ' :: e.cut t)) := by
    rw [e.cut_append ⟨':', List.mem_cons_self, by decide⟩, e.cut_cons, hcut]
    · simp
    · rw [ht]
      exact ⟨' ', List.mem_cons_self, by decide⟩
  rw [htext] at h
  have h : Ready l ('?' :: (Printer.endLine (' ' :: Printer.string (indent + 2) key) ++
      (Printer.spaces indent ++ ':' :: ' ' :: (e.cut t ++ (Printer.spaces n ++ ds))))) m ts ins' true := by
    simpa using h
  obtain ⟨l₁, m₁, hreach, hcolumn, hat⟩ := h.complexKey hm hopen
  have hat : At l₁ (e.cut (Printer.nested indent v) ++ (Printer.spaces n ++ ds)) m₁
      (ts ++ (new ++ [.key, .scalar key (Printer.style key), .value])) (indent :: ins) true := by
    rwa [hcut]
  have := (hv hins hn hfollows).1 hat hcolumn
  exact .of_reaches hreach (by simpa using this)

/-- An entry of a mapping is read, with the white space after it. -/
theorem Ready.field {key : String} {v : Json.Value} (hv : ReadsValue v)
    (hins : ∀ d ∈ ins, d < indent) (hn : n ≤ indent)
    (hfollows : Follows e n ds)
    (h : Ready l (e.cut (if Printer.isSimpleKey key then
        Printer.string (indent + 2) key ++ ':' :: Printer.fieldValue indent v
      else '?' :: Printer.endLine (' ' :: Printer.string (indent + 2) key) ++ Printer.spaces indent ++
        ':' :: Printer.nested indent v) ++ (Printer.spaces n ++ ds)) m ts ins' true)
    (hm : m.column = indent) (hopen : Opens .blockMappingStart indent ins' (indent :: ins) new) :
    Lands l ds n (ts ++ (new ++ .key :: .scalar key (Printer.style key) :: .value ::
      tokens e (Printer.isSimpleKey key) v)) (indent :: ins) := by
  cases hkey : Printer.isSimpleKey key with
  | true =>
    rw [hkey, if_pos rfl] at h
    exact h.simpleField hv hkey hins hn hfollows hm hopen
  | false =>
    rw [hkey, if_neg Bool.false_ne_true] at h
    exact h.complexField hv hins hn hfollows hm hopen

/-- A block among others on lines of their own, with the indentation of the next one, is cut at the
end of the last one. -/
theorem cut_joinBlocks (e : Ending) (indent : Nat) (b : List Char) (hbs : bs ≠ [])
    (hcontent : Content (Printer.joinBlocks indent bs)) (hne : Printer.joinBlocks indent bs ≠ []) :
    e.cut (Printer.joinBlocks indent (b :: bs)) ++ ds =
      b ++ (Printer.spaces indent ++ (e.cut (Printer.joinBlocks indent bs) ++ ds)) := by
  rw [joinBlocks_cons indent b hbs, ← List.append_assoc, e.cut_append (hcontent.exists_ne hne),
    List.append_assoc, List.append_assoc]

/-- The items of a sequence are read one after the other. -/
theorem readsItems_cons {x : Json.Value} {xs : List Json.Value} (hx : ReadsValue x)
    (ih : ReadsItems xs) : ReadsItems (x :: xs) := by
  intro l m ts new indent n ins ins' ds e _ hins hn hfollows hready hm hopen
  rw [Printer.itemBlocks] at hready
  cases xs with
  | nil =>
    have hone : Printer.joinBlocks indent [('-' :: Printer.nested indent x)] =
        '-' :: Printer.nested indent x := by simp [Printer.joinBlocks]
    rw [Printer.itemBlocks, hone] at hready
    simpa [itemTokens, Ending.before] using Ready.item hx hins hn hfollows hready hm hopen
  | cons y ys =>
    obtain ⟨hcontent, hne⟩ := content_items indent y ys
    obtain ⟨hrest, hnext⟩ := hcontent.cut e hne (Printer.spaces n ++ ds)
    rw [cut_joinBlocks e indent _ (by rw [Printer.itemBlocks]; exact List.cons_ne_nil _ _) hcontent hne]
      at hready
    obtain ⟨l₁, m₁, hreach, harrives, hcolumn⟩ := Ready.item (e := .kept) hx
      hins (Nat.le_refl _) ⟨hrest, fun h => by cases h⟩ hready hm hopen
    have := ih (List.cons_ne_nil _ _) hins hn hfollows
      (harrives.ready hnext (hcolumn hnext)) (hcolumn hnext) .later
    exact .of_reaches hreach (by simpa [itemTokens, Ending.before] using this)

/-- The fields of a mapping are read one after the other. -/
theorem readsFields_cons {key : String} {v : Json.Value} {fs : List (String × Json.Value)}
    (hv : ReadsValue v) (ih : ReadsFields fs) : ReadsFields ((key, v) :: fs) := by
  intro l m ts new indent n ins ins' ds e _ hins hn hfollows hready hm hopen
  rw [Printer.fieldBlocks] at hready
  cases fs with
  | nil =>
    rw [Printer.fieldBlocks, show ∀ b, Printer.joinBlocks indent [b] = b by simp [Printer.joinBlocks]]
      at hready
    simpa [fieldTokens, Ending.before] using Ready.field hv hins hn hfollows hready hm hopen
  | cons g gs =>
    obtain ⟨hcontent, hne⟩ := content_fields indent g gs
    obtain ⟨hrest, hnext⟩ := hcontent.cut e hne (Printer.spaces n ++ ds)
    rw [cut_joinBlocks e indent _ (fieldBlocks_ne_nil indent g gs) hcontent hne] at hready
    obtain ⟨l₁, m₁, hreach, harrives, hcolumn⟩ := Ready.field (e := .kept) hv
      hins (Nat.le_refl _) ⟨hrest, fun h => by cases h⟩ hready hm hopen
    have := ih (List.cons_ne_nil _ _) hins hn hfollows
      (harrives.ready hnext (hcolumn hnext)) (hcolumn hnext) .later
    exact .of_reaches hreach (by simpa [fieldTokens, Ending.before] using this)

/-- The lexer reads values, items and fields as their tokens. -/
theorem reads_all : (∀ v, ReadsValue v) ∧ (∀ xs, ReadsItems xs) ∧ ∀ fs, ReadsFields fs := by
  -- Blocks have a first item or field; an empty collection is a leaf.
  refine Json.Value.induction ?null ?bool ?number ?string ?array ?object (fun h => absurd rfl h)
    (fun _ _ hx hxs => readsItems_cons hx hxs) (fun h => absurd rfl h)
    (fun _ _ _ hv hfs => readsFields_cons hv hfs)
  case null => exact readsValue_leaf (v := .null) trivial
  case bool => exact fun b => readsValue_leaf (v := .bool b) trivial
  case number => exact fun n => readsValue_leaf (v := .number n) trivial
  case string => exact fun s => readsValue_leaf (v := .string s) trivial
  case array =>
    rintro (_ | ⟨x, xs⟩) ih
    · exact readsValue_leaf (v := .array []) trivial
    · exact readsValue_array ih
  case object =>
    rintro (_ | ⟨f, fs⟩) ih
    · exact readsValue_leaf (v := .object []) trivial
    · exact readsValue_object ih

end Lexer

end ProviderAssets.Yaml
