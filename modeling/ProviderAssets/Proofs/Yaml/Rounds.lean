import ProviderAssets.Proofs.Yaml.Literal
import ProviderAssets.Proofs.Yaml.Plain
import ProviderAssets.Proofs.Yaml.Quoted
import ProviderAssets.Yaml.Lexer

/-!
# Rounds of the lexer

In each round the lexer passes white space, closes the blocks that end there, and reads what comes next.
What a round does is stated for a lexer that stands in front of a known text: `Lexer.stand cs m xs ins k a`
is at the mark `m` with the characters `cs` to come, after the lexemes `xs`, in blocks at the columns
`ins`. `Lexer.Ready` is the state before a token is read and `Lexer.Arrives` the one after the last token
of a block, where it is still open what follows. `Lexer.Reaches` strings rounds together, in no more of
them than there are characters read, so that the fuel for the whole text is enough.
-/

namespace ProviderAssets.Yaml

open Cursor (before)

namespace Lexer

variable {α β : Type} {l l' : Lexer} {m : Mark} {c : Char} {cs ds ws : List Char}

/-- A step goes on with what its first part does. -/
theorem bind_of {x : Lex α} {a : α} (h : x l = .ok (a, l')) (f : α → Lex β) :
    (x >>= f) l = f a l' := by
  show (x l >>= fun p => f p.1 p.2) = _
  rw [h]
  rfl

/-- Looking at the state changes nothing. -/
theorem get_bind (f : Lexer → Lex β) : ((get : Lex Lexer) >>= f) l = f l l := rfl

/-- What a scan does to the lexer. -/
theorem scan_of {s : Scan α} {a : α} {c : Cursor} (h : s l.cursor = .ok (a, c)) :
    scan s l = .ok (a, { l with cursor := c }) := by
  show (s l.cursor >>= fun p => pure (p.1, { l with cursor := p.2 })) = _
  rw [h]
  rfl

/-- Passes over white space and gives up the keys that are out of date. -/
def settle : Lex Unit := do
  skipSpace ((← scan Scan.remaining) + 1)
  checkKeys

/-- Reads the token that begins with `c` and goes on with `after`, at `start`, inside brackets or
not. -/
def readToken (inFlow : Bool) (start : Mark) (c after : Char) : Lex Unit :=
  if c = '[' then flowStart .flowSequenceStart
  else if c = '{' then flowStart .flowMappingStart
  else if c = ']' then flowEnd .flowSequenceEnd
  else if c = '}' then flowEnd .flowMappingEnd
  else if c = ',' then flowEntry
  else if c = '-' && isBlankOrEnd after then blockEntry
  else if c = '?' && (inFlow || isBlankOrEnd after) then explicitKey
  else if c = ':' && (inFlow || isBlankOrEnd after) then value
  else if c = '*' then nodeStart Scan.aliasToken
  else if c = '&' then nodeStart Scan.anchor
  else if c = '!' then nodeStart (Scan.tag inFlow)
  else if c = '|' && !inFlow then blockScalar true
  else if c = '>' && !inFlow then blockScalar false
  else if c = '\x27' then nodeStart (Scan.quotedScalar .singleQuoted)
  else if c = '"' then nodeStart (Scan.quotedScalar .doubleQuoted)
  else if beginsPlain inFlow c after then plainScalar
  else scan (Scan.fail .nextToken start .tokenStart)

/-- Reads what stands at the cursor: the end of the text, a line outside of all blocks, or a
token. -/
def dispatch (inFlow : Bool) (cur : Cursor) : Lex Unit :=
  if cur.peek 0 = '\x00' then streamEnd
  else if cur.mark.column = 0 && cur.peek 0 = '%' then topLevel (do push (← scan Scan.directive))
  else if cur.atDocumentIndicator then
    topLevel (pushSpan (if cur.peek 0 = '-' then .documentStart else .documentEnd) 3)
  else readToken inFlow cur.mark (cur.peek 0) (cur.peek 1)

/-- Once white space is passed, blocks are closed and the token is read. -/
theorem next_of_settle (h : settle l = .ok ((), l')) :
    next l =
      (closeBlocks (some l'.cursor.mark.column) >>= fun _ => dispatch l'.inFlow l'.cursor) l' := by
  have hnext : next l = (settle >>= fun _ => get >>= fun l' =>
      closeBlocks (some l'.cursor.mark.column) >>= fun _ => dispatch l'.inFlow l'.cursor) l := by
    rw [settle, bind_assoc]
    show _ = ((skipSpace (l.cursor.size - l.cursor.mark.index + 1) >>= fun _ => checkKeys) >>=
      fun _ => _) l
    rw [bind_assoc]
    rfl
  rw [hnext, bind_of h]
  rfl

/-! ## States -/

/-- The lexer in front of `cs`, outside brackets, with the tokens `xs`, the columns `ins` of the open
blocks, the possible key `k`, and `a` saying whether keys are allowed. -/
def stand (cs : List Char) (m : Mark) (xs : List Lexeme) (ins : List Nat) (k : Option SimpleKey)
    (a : Bool) : Lexer :=
  { cursor := before cs m, lexemes := xs, count := xs.length, indents := ins, candidate := k,
    keyAllowed := a }

variable {xs : List Lexeme} {ins : List Nat} {k k' : Option SimpleKey} {a : Bool}

/-- Such a lexer stands at the beginning of the text. -/
@[simp] theorem stand_cursor : (stand cs m xs ins k a).cursor = before cs m := rfl

/-- The columns of the open blocks are those that are given. -/
@[simp] theorem stand_indents : (stand cs m xs ins k a).indents = ins := rfl

/-- There are no brackets around it. -/
@[simp] theorem stand_inFlow : (stand cs m xs ins k a).inFlow = false := rfl

/-- A scan moves the cursor. -/
theorem scan_stand {s : Scan α} {x : α} {ds : List Char} {m' : Mark}
    (h : s (before cs m) = .ok (x, before ds m')) :
    scan s (stand cs m xs ins k a) = .ok (x, stand ds m' xs ins k a) := scan_of h

/-- The text goes on with contents, or ends. -/
def Content (cs : List Char) : Prop :=
  ∀ c ∈ cs.head?, isBlankOrEnd c = false ∧ c ≠ '#' ∧ c ≠ '\ufeff'

/-- The keys are checked. -/
theorem checkKeys_stand (h : checkKey m k = .ok k') :
    checkKeys (stand cs m xs ins k a) = .ok ((), stand cs m xs ins k' a) := by
  have hkey : (checkKey m k : Except Fault _) = .ok k' := h
  show ((checkKey m k >>= fun k' => pure (k', stand cs m xs ins k a)) >>= fun p => _) = _
  rw [hkey]
  rfl

/-- Contents show what they begin with: no space, comment or line break, though perhaps the end. -/
theorem Content.peek (h : Content cs) :
    isBlank ((before cs m).peek 0) = false ∧ isBreak ((before cs m).peek 0) = false ∧
      (before cs m).peek 0 ≠ '#' ∧ (before cs m).peek 0 ≠ '\ufeff' := by
  cases cs with
  | nil => exact ⟨rfl, rfl, (by decide : '\x00' ≠ '#'), (by decide : '\x00' ≠ '\ufeff')⟩
  | cons c cs =>
    obtain ⟨hc, hcomment, hmark⟩ := h c rfl
    exact ⟨isBlank_of_solid hc, isBreak_of_solid hc, hcomment, hmark⟩

/-- The spaces before contents are passed over. -/
theorem skipSpace_spaces {n : Nat} (hl : l.cursor = before (Printer.spaces n ++ cs) m)
    (hcs : Content cs) (fuel : Nat) :
    skipSpace (fuel + 1) l =
      .ok ((), { l with cursor := before cs (m.after (Printer.spaces n)) }) := by
  obtain ⟨hblank, hbreak, hcomment, hmark⟩ := hcs.peek (m := m.after (Printer.spaces n))
  have hfirst : (decide (l.cursor.mark.index = 0) && decide (l.cursor.peek 0 = '\ufeff')) = false := by
    rw [Bool.and_eq_false_iff]
    refine .inr (decide_eq_false ?_)
    rw [hl]
    cases n with
    | zero => exact (hcs.peek (m := m)).2.2.2
    | succ n => exact (by decide : ' ' ≠ '\ufeff')
  have htake : l.cursor.takeWhile
      (fun c => c = ' ' || ((l.inFlow || !l.keyAllowed) && c = '\t')) =
        (Printer.spaces n, before cs (m.after (Printer.spaces n))) := by
    rw [hl]
    -- Spaces are passed over whether or not tabs are.
    refine Cursor.takeWhile_before ?_ (fun c => isBreak_of_mem_spaces) ?_
    · intro c hc
      rw [eq_of_mem_spaces hc]
      rfl
    · intro c hc
      have hblank := isBlank_of_solid (hcs c hc).1
      simp only [isBlank, Bool.or_eq_false_iff] at hblank
      simp [hblank]
  have hpass : scan (Scan.skipWhile fun c => c = ' ' || ((l.inFlow || !l.keyAllowed) && c = '\t')) l =
      .ok ((), { l with cursor := before cs (m.after (Printer.spaces n)) }) :=
    scan_of (Scan.skipWhile_of htake)
  rw [skipSpace]
  show (ite _ _ _ : Lex Unit) l = _
  rw [if_neg (ne_true_of_eq_false hfirst), bind_of hpass]
  show (ite _ _ _ : Lex Unit) _ = _
  rw [if_neg hcomment]
  show (ite _ _ _ : Lex Unit) _ = _
  rw [if_neg (ne_true_of_eq_false hbreak)]
  rfl

/-- Outside brackets, a line break before spaces and contents is passed over, and keys are allowed
after it. -/
theorem skipSpace_line {n : Nat} (hl : l.cursor = before ('\n' :: (Printer.spaces n ++ cs)) m)
    (hflow : l.inFlow = false) (hcs : Content cs) (fuel : Nat) :
    skipSpace (fuel + 2) l =
      .ok ((), { l with
        cursor := before cs (m.after ('\n' :: Printer.spaces n)), keyAllowed := true }) := by
  have hfirst : (decide (l.cursor.mark.index = 0) && decide (l.cursor.peek 0 = '\ufeff')) = false := by
    rw [Bool.and_eq_false_iff, hl]
    exact .inr (decide_eq_false (by decide : '\n' ≠ '\ufeff'))
  -- There are no blanks before the line break, and no comment.
  have htake : l.cursor.takeWhile
      (fun c => c = ' ' || ((l.inFlow || !l.keyAllowed) && c = '\t')) = ([], l.cursor) := by
    rw [hl]
    refine Cursor.takeWhile_before (show ∀ c ∈ ([] : List Char), _ from nofun) nofun ?_
    intro c hc
    rw [← Option.some.inj hc]
    simp
  have hpass : scan (Scan.skipWhile fun c => c = ' ' || ((l.inFlow || !l.keyAllowed) && c = '\t')) l =
      .ok ((), l) :=
    scan_of (Scan.skipWhile_of htake)
  have hcomment : l.cursor.peek 0 ≠ '#' := by
    rw [hl]
    exact (by decide : '\n' ≠ '#')
  have hbreak : isBreak (l.cursor.peek 0) = true := by
    rw [hl]
    rfl
  have hline : scan Scan.takeLine l =
      .ok (some '\n', { l with cursor := before (Printer.spaces n ++ cs) (m.after ['\n']) }) := by
    refine scan_of (congrArg Except.ok ?_)
    rw [hl]
    exact Cursor.takeLine_before (.inl rfl)
  have hdiscard : discard (scan Scan.takeLine) l =
      .ok ((), { l with cursor := before (Printer.spaces n ++ cs) (m.after ['\n']) }) := by
    show (scan Scan.takeLine >>= fun _ => pure ()) l = _
    rw [bind_of hline]
    rfl
  rw [skipSpace]
  show (ite _ _ _ : Lex Unit) l = _
  rw [if_neg (ne_true_of_eq_false hfirst), bind_of hpass]
  show (ite _ _ _ : Lex Unit) l = _
  rw [if_neg hcomment]
  show (ite _ _ _ : Lex Unit) l = _
  rw [if_pos hbreak, bind_of hdiscard, hflow]
  exact skipSpace_spaces (l := { l with
    cursor := before (Printer.spaces n ++ cs) (m.after ['\n']), keyAllowed := true }) rfl hcs fuel

/-! ## The steps of the lexer -/

/-- The tokens read, in order. -/
def lexed (xs : List Lexeme) : List Token := xs.reverse.map (·.token)

/-- At first no tokens have been read. -/
@[simp] theorem lexed_nil : lexed [] = [] := rfl

/-- The newest token is the last one. -/
@[simp] theorem lexed_cons (x : Lexeme) (xs : List Lexeme) : lexed (x :: xs) = lexed xs ++ [x.token] := by
  simp [lexed]

/-- Of two runs of tokens the newer one comes last. -/
@[simp] theorem lexed_append (xs ys : List Lexeme) : lexed (xs ++ ys) = lexed ys ++ lexed xs := by
  simp [lexed]

/-- The tokens of the blocks that are closed. -/
theorem lexed_blockEnds (n : Nat) (xs : List Lexeme) :
    lexed (List.replicate n ⟨.blockEnd, m, m⟩ ++ xs) =
      lexed xs ++ List.replicate n .blockEnd := by
  simp [lexed]

/-- A key that must not stand here is given up on a later line. -/
theorem checkKey_stale (h : ∀ key ∈ k, key.required = false ∧ key.mark.line < m.line) :
    checkKey m k = .ok none := by
  cases k with
  | none => rfl
  | some key =>
    obtain ⟨hrequired, hline⟩ := h key rfl
    have hstale : isStale m key = true := by simp [isStale, hline]
    rw [checkKey, if_pos hstale, hrequired]
    rfl

/-- A possible key is kept on its line, up to some length. -/
theorem checkKey_fresh {key : SimpleKey} (hline : key.mark.line = m.line)
    (hindex : m.index ≤ key.mark.index + 1024) : checkKey m (some key) = .ok (some key) := by
  have hstale : isStale m key = false := by
    simp only [isStale, hline, Bool.or_eq_false_iff, decide_eq_false_iff_not]
    omega
  rw [checkKey, hstale]
  rfl

/-- A key that need not stand here is kept or given up. -/
theorem exists_checkKey (h : ∀ key ∈ k, key.required = false) :
    ∃ k', checkKey m k = .ok k' ∧ ∀ key ∈ k', key ∈ k := by
  cases k with
  | none => exact ⟨none, rfl, nofun⟩
  | some key =>
    by_cases hstale : isStale m key = true
    · refine ⟨none, ?_, nofun⟩
      rw [checkKey, if_pos hstale, h key rfl]
      rfl
    · refine ⟨some key, ?_, fun _ h => h⟩
      rw [checkKey, if_neg hstale]
      rfl

/-- The innermost possible key is given up where none had to stand. -/
theorem dropKey_stand (h : ∀ key ∈ k, key.required = false) :
    dropKey (stand cs m xs ins k a) = .ok ((), stand cs m xs ins none a) := by
  cases k with
  | none => rfl
  | some key =>
    have hrequired := h key rfl
    show (ite _ _ _ : Lex Unit) (stand cs m xs ins (some key) a) = _
    rw [if_neg (ne_true_of_eq_false hrequired)]
    rfl

/-- Content closes the blocks that are further right. -/
theorem closeBlocks_stand {cols : List Nat} {n : Nat} (hcols : ∀ c ∈ cols, n < c)
    (hins : ∀ c ∈ ins.head?, c ≤ n) :
    closeBlocks (some n) (stand cs m xs (cols ++ ins) k a) =
      .ok ((), stand cs m (List.replicate cols.length ⟨.blockEnd, m, m⟩ ++ xs) ins k a) := by
  have hleft : blocksLeft (some n) (cols ++ ins) = ins := by
    rw [blocksLeft, List.dropWhile_append_of_pos (by simpa using hcols)]
    cases ins with
    | nil => rfl
    | cons c ins => exact List.dropWhile_cons_of_neg (by simpa using hins c rfl)
  have hstate : closeBlocks (some n) (stand cs m xs (cols ++ ins) k a) =
      .ok ((), { stand cs m xs (cols ++ ins) k a with
        indents := blocksLeft (some n) (cols ++ ins)
        lexemes := List.replicate
          ((cols ++ ins).length - (blocksLeft (some n) (cols ++ ins)).length)
          (⟨.blockEnd, m, m⟩ : Lexeme) ++ xs
        count := xs.length +
          ((cols ++ ins).length - (blocksLeft (some n) (cols ++ ins)).length) }) := rfl
  have hcount : (cols ++ ins).length - ins.length = cols.length := by simp
  rw [hstate, hleft, hcount]
  simp [stand, Nat.add_comm]

/-- At the end of a document all blocks are closed. -/
theorem closeBlocks_none_stand :
    closeBlocks none (stand cs m xs ins k a) =
      .ok ((), stand cs m (List.replicate ins.length ⟨.blockEnd, m, m⟩ ++ xs) [] k a) := by
  have hstate : closeBlocks none (stand cs m xs ins k a) =
      .ok ((), { stand cs m xs ins k a with
        indents := []
        lexemes := List.replicate ins.length (⟨.blockEnd, m, m⟩ : Lexeme) ++ xs
        count := xs.length + ins.length }) := rfl
  rw [hstate]
  simp [stand, Nat.add_comm]

/-- Keys are allowed or forbidden. -/
theorem allowKey_stand (b : Bool) :
    allowKey b (stand cs m xs ins k a) = .ok ((), stand cs m xs ins k b) := rfl

/-- An indicator is read. -/
theorem pushSpan_stand (token : Token) (hcs : ∀ c ∈ cs, isBreak c = false) :
    pushSpan token cs.length (stand (cs ++ ds) m xs ins k a) =
      .ok ((), stand ds (m.after cs) (⟨token, m, m.after cs⟩ :: xs) ins k a) := by
  have hskip : scan (Scan.skip cs.length) (stand (cs ++ ds) m xs ins k a) =
      .ok ((), stand ds (m.after cs) xs ins k a) :=
    scan_stand (congrArg (fun c => Except.ok ((), c)) (Cursor.skip_before hcs))
  show (scan (Scan.skip cs.length) >>= fun _ => scan Scan.mark >>= fun stop =>
    push ⟨token, m, stop⟩) (stand (cs ++ ds) m xs ins k a) = _
  rw [bind_of hskip]
  rfl

/-! ## Rounds -/

/-- The lexer gets from one state to another in no more rounds than it reads characters. -/
def Reaches (l l' : Lexer) : Prop :=
  ∃ n, n + l'.cursor.rest.length ≤ l.cursor.rest.length ∧ ∀ fuel, run (fuel + n) l = run fuel l'

/-- Rounds follow one another. -/
theorem Reaches.trans {l₁ l₂ l₃ : Lexer} (h : Reaches l₁ l₂) (h' : Reaches l₂ l₃) :
    Reaches l₁ l₃ := by
  obtain ⟨n, hn, hrun⟩ := h
  obtain ⟨n', hn', hrun'⟩ := h'
  refine ⟨n' + n, by omega, fun fuel => ?_⟩
  rw [← Nat.add_assoc, hrun, hrun']

/-- A round without a fault. -/
theorem run_succ (hfinished : l.finished = false)
    (h : (next >>= fun _ => checkKeys) l = .ok ((), l')) (fuel : Nat) :
    run (fuel + 1) l = run fuel l' := by
  have hround : (do next; checkKeys : Lex Unit).run l = .ok ((), l') := h
  rw [run, hfinished, if_neg Bool.false_ne_true, hround]

/-- A round that reads something. -/
theorem Reaches.round (hfinished : l.finished = false)
    (h : (next >>= fun _ => checkKeys) l = .ok ((), l'))
    (hlt : l'.cursor.rest.length < l.cursor.rest.length) : Reaches l l' :=
  ⟨1, by omega, run_succ hfinished h⟩

/-- The lexer stands in front of `cs` after the tokens `ts`, and nothing that it has read may turn
out to be a key. -/
def At (l : Lexer) (cs : List Char) (m : Mark) (ts : List Token) (ins : List Nat) (a : Bool) :
    Prop :=
  ∃ xs, lexed xs = ts ∧ l = stand cs m xs ins none a

/-- The lexer comes to stand in front of `cs` once it has passed white space and closed blocks. -/
def Ready (l : Lexer) (cs : List Char) (m : Mark) (ts : List Token) (ins : List Nat) (a : Bool) :
    Prop :=
  l.finished = false ∧ cs.length ≤ l.cursor.rest.length ∧
    ∃ xs cols ys, lexed xs = ts ∧ settle l = .ok ((), stand cs m ys (cols ++ ins) none a) ∧
      closeBlocks (some m.column) (stand cs m ys (cols ++ ins) none a) =
        .ok ((), stand cs m xs ins none a)

/-- The lexer comes to stand in front of `ds` once it has passed white space, which leaves `ins` of
the open blocks if content at their column follows. The tokens `ts` hold the ends of the others. At
the end of the text there may be a possible key left. -/
def Arrives (l : Lexer) (ds : List Char) (m : Mark) (ts : List Token) (ins : List Nat) : Prop :=
  l.finished = false ∧ ds.length ≤ l.cursor.rest.length ∧
    ∃ xs cols k a, settle l = .ok ((), stand ds m xs (cols ++ ins) k a) ∧
      lexed xs ++ List.replicate cols.length .blockEnd = ts ∧
      (∀ c ∈ cols, ∀ d ∈ ins, d < c) ∧ (ds = [] ∨ k = none ∧ a = true) ∧
      ∀ key ∈ k, key.required = false

variable {ts : List Token}

/-- Passing white space ends in looking at the keys. -/
theorem settle_of (h : ∀ fuel, skipSpace (fuel + 1) l = .ok ((), l')) :
    settle l = checkKeys l' := by
  show (skipSpace (l.cursor.size - l.cursor.mark.index + 1) >>= fun _ => checkKeys) l = _
  rw [bind_of (h _)]

/-- White space is passed where only spaces come before contents. -/
theorem settle_spaces {n : Nat} (hcs : Content cs)
    (hkey : checkKey (m.after (Printer.spaces n)) k = .ok k') :
    settle (stand (Printer.spaces n ++ cs) m xs ins k a) =
      .ok ((), stand cs (m.after (Printer.spaces n)) xs ins k' a) :=
  (settle_of (skipSpace_spaces rfl hcs)).trans (checkKeys_stand hkey)

/-- White space is passed where a line ends before contents. -/
theorem settle_line {n : Nat} (hcs : Content cs)
    (hkey : checkKey (m.after ('\n' :: Printer.spaces n)) k = .ok k') :
    settle (stand ('\n' :: (Printer.spaces n ++ cs)) m xs ins k a) =
      .ok ((), stand cs (m.after ('\n' :: Printer.spaces n)) xs ins k' true) := by
  have hfuel : (before ('\n' :: (Printer.spaces n ++ cs)) m).size -
      (before ('\n' :: (Printer.spaces n ++ cs)) m).mark.index =
        (Printer.spaces n ++ cs).length + 1 := Cursor.before_remaining
  show (skipSpace (_ + 1) >>= fun _ => checkKeys) (stand _ m xs ins k a) = _
  rw [stand_cursor, hfuel, bind_of (skipSpace_line rfl rfl hcs _)]
  exact checkKeys_stand hkey

/-- A lexer that stands at contents is ready for them. -/
theorem At.ready_spaces {n : Nat} (h : At l (Printer.spaces n ++ cs) m ts ins a) (hcs : Content cs)
    (hins : ∀ c ∈ ins.head?, c ≤ (m.after (Printer.spaces n)).column) :
    Ready l cs (m.after (Printer.spaces n)) ts ins a := by
  obtain ⟨xs, hxs, rfl⟩ := h
  exact ⟨rfl, by simp, xs, [], xs, hxs, settle_spaces hcs rfl, closeBlocks_stand nofun hins⟩

/-- A lexer that stands at the end of a line is ready for the contents of the next one. -/
theorem At.ready_line {n : Nat} (h : At l ('\n' :: (Printer.spaces n ++ cs)) m ts ins a)
    (hcs : Content cs) (hins : ∀ c ∈ ins.head?, c ≤ n) :
    Ready l cs (m.after ('\n' :: Printer.spaces n)) ts ins true := by
  obtain ⟨xs, hxs, rfl⟩ := h
  have hcolumn : (m.after ('\n' :: Printer.spaces n)).column = n :=
    Mark.column_after_line m [] n
  refine ⟨rfl, by simp; omega, xs, [], xs, hxs, settle_line hcs rfl, ?_⟩
  exact closeBlocks_stand nofun fun c hc => by rw [hcolumn]; exact hins c hc

/-- The end of a block that is further right than those around it is passed, too. -/
theorem Arrives.close {c : Nat} (h : Arrives l ds m ts (c :: ins)) (hc : ∀ d ∈ ins, d < c) :
    Arrives l ds m (ts ++ [.blockEnd]) ins := by
  obtain ⟨hfinished, hlength, xs, cols, k, a, hsettle, hts, hcols, hk⟩ := h
  refine ⟨hfinished, hlength, xs, cols ++ [c], k, a, by simpa using hsettle, ?_, ?_, hk⟩
  · rw [List.length_append, List.length_singleton, List.replicate_succ', ← List.append_assoc, hts]
  · intro d hd e he
    rcases List.mem_append.1 hd with hd | hd
    · exact hcols d hd e (List.mem_cons_of_mem _ he)
    · rw [List.mem_singleton.1 hd]
      exact hc e he

/-- A lexer that arrives at the column of the innermost block left open is ready for more. -/
theorem Arrives.ready {c : Nat} (h : Arrives l ds m ts (c :: ins)) (hds : ds ≠ [])
    (hc : m.column = c) : Ready l ds m ts (c :: ins) true := by
  obtain ⟨hfinished, hlength, xs, cols, k, a, hsettle, hts, hcols, hk, -⟩ := h
  obtain ⟨rfl, rfl⟩ := hk.resolve_left hds
  refine ⟨hfinished, hlength, _, cols, xs, ?_, hsettle, closeBlocks_stand ?_ ?_⟩
  · rw [lexed_blockEnds, hts]
  · intro d hd
    rw [hc]
    exact hcols d hd c List.mem_cons_self
  · intro d hd
    rw [hc, ← Option.some.inj hd]

/-- A lexer that stands at contents, or at the end of the text, has arrived. -/
theorem arrives_here (hds : Content ds) (hk : ∀ key ∈ k, key.required = false)
    (hnew : ds ≠ [] → a = true ∧ ∀ key ∈ k, key.mark.line < m.line) :
    Arrives (stand ds m xs ins k a) ds m (lexed xs) ins := by
  have hspaces {k' : Option SimpleKey} (hkey : checkKey m k = .ok k') :
      settle (stand ds m xs ins k a) = .ok ((), stand ds m xs ins k' a) :=
    settle_spaces (n := 0) hds hkey
  -- Before contents a possible key is given up, since it is on an earlier line; at the end of the text
  -- it may be kept.
  by_cases hnil : ds = []
  · obtain ⟨k', hkey, hk'⟩ := exists_checkKey (m := m) hk
    exact ⟨rfl, Nat.le_refl _, xs, [], k', a, hspaces hkey, by simp, nofun, .inl hnil,
      fun key hkey => hk key (hk' key hkey)⟩
  · obtain ⟨rfl, hline⟩ := hnew hnil
    exact ⟨rfl, Nat.le_refl _, xs, [], none, true,
      hspaces (checkKey_stale fun key hkey => ⟨hk key hkey, hline key hkey⟩), by simp, nofun,
      .inr ⟨rfl, rfl⟩, nofun⟩

/-- A lexer that stands at the end of a line arrives at the contents of the next one. -/
theorem arrives_line (n : Nat) (hds : Content ds)
    (hk : ∀ key ∈ k, key.required = false ∧ key.mark.line ≤ m.line) :
    Arrives (stand ('\n' :: (Printer.spaces n ++ ds)) m xs ins k a) ds
      (m.after ('\n' :: Printer.spaces n)) (lexed xs) ins := by
  have hline : m.line < (m.after ('\n' :: Printer.spaces n)).line :=
    Mark.line_lt_after ⟨'\n', List.mem_cons_self, rfl⟩
  have hkey : checkKey (m.after ('\n' :: Printer.spaces n)) k = .ok none :=
    checkKey_stale fun key hkey => ⟨(hk key hkey).1, Nat.lt_of_le_of_lt (hk key hkey).2 hline⟩
  refine ⟨rfl, ?_, xs, [], none, true, settle_line hds hkey, by simp, nofun, .inr ⟨rfl, rfl⟩, nofun⟩
  simp only [stand_cursor, Cursor.before_rest, List.length_cons, List.length_append]
  omega

/-- The look at the keys after a token leads to contents, or to the end of the text. -/
theorem exists_arrives_here (hds : Content ds) (hk : ∀ key ∈ k, key.required = false)
    (hnew : ds ≠ [] → a = true ∧ ∀ key ∈ k, key.mark.line < m.line) :
    ∃ l', checkKeys (stand ds m xs ins k a) = .ok ((), l') ∧ l'.cursor.rest = ds ∧
      Arrives l' ds m (lexed xs) ins := by
  obtain ⟨k', hkey, hk'⟩ := exists_checkKey (m := m) hk
  refine ⟨_, checkKeys_stand hkey, rfl, arrives_here hds (fun key h => hk key (hk' key h)) ?_⟩
  exact fun h => ⟨(hnew h).1, fun key hkey => (hnew h).2 key (hk' key hkey)⟩

/-- The look at the keys after a token leads to the end of its line. -/
theorem exists_arrives_line (n : Nat) (hds : Content ds)
    (hk : ∀ key ∈ k, key.required = false ∧ key.mark.line ≤ m.line) :
    ∃ l', checkKeys (stand ('\n' :: (Printer.spaces n ++ ds)) m xs ins k a) = .ok ((), l') ∧
      l'.cursor.rest = '\n' :: (Printer.spaces n ++ ds) ∧
      Arrives l' ds (m.after ('\n' :: Printer.spaces n)) (lexed xs) ins := by
  obtain ⟨k', hkey, hk'⟩ := exists_checkKey (m := m) fun key h => (hk key h).1
  exact ⟨_, checkKeys_stand hkey, rfl, arrives_line n hds fun key h => hk key (hk' key h)⟩

/-- The round of a lexer that is ready is one of the token that it stands at. -/
theorem Ready.round (h : Ready l cs m ts ins a) {P : Lexer → Prop}
    (hread : ∀ xs, lexed xs = ts → ∃ l', P l' ∧ l'.cursor.rest.length < cs.length ∧
      (dispatch false (before cs m) >>= fun _ => checkKeys) (stand cs m xs ins none a) =
        .ok ((), l')) :
    ∃ l', Reaches l l' ∧ P l' := by
  -- White space is passed and blocks are closed first, which leads to where the token is read.
  obtain ⟨hfinished, hlength, xs, cols, ys, hxs, hsettle, hclose⟩ := h
  obtain ⟨l', hp, hlt, hdispatch⟩ := hread xs hxs
  refine ⟨l', .round hfinished ?_ (by omega), hp⟩
  have hnext : next l = dispatch false (before cs m) (stand cs m xs ins none a) := by
    rw [next_of_settle hsettle]
    exact bind_of hclose _
  show (next l >>= fun p => checkKeys p.2) = _
  rw [hnext]
  exact hdispatch

end Lexer

end ProviderAssets.Yaml
