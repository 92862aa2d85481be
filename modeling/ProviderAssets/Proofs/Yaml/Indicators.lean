import ProviderAssets.Proofs.Yaml.Rounds

/-!
# Indicators

Some tokens hold no text: the hyphen of an item, the marks of a key and of its value, the brackets of
what is empty, the line between documents and the end of the text. The first entry of a block opens it,
and the others find it open (`Lexer.Opens`). The colon after a key is read when the key has been, and the
token of the key is put in before it. For scalars, what is stated is the round around the scan that reads
them (`Lexer.nodeStart_stand`, `Lexer.plainScalar_stand`, `Lexer.blockScalar_stand`).
-/

namespace ProviderAssets.Yaml

open Cursor (before)

namespace Lexer

variable {l l' : Lexer} {m m' : Mark} {c d : Char} {cs ds ws : List Char} {xs : List Lexeme}
variable {ins ins' : List Nat} {k k' : Option SimpleKey} {a : Bool} {ts new : List Token}

/-- What begins with neither the end of the text nor what stands outside of all blocks is a token. -/
theorem dispatch_cons {inFlow : Bool} (hend : c ≠ '\x00') (hdirective : c ≠ '%')
    (hdoc : (before (c :: cs) m).atDocumentIndicator = false) :
    dispatch inFlow (before (c :: cs) m) = readToken inFlow m c (cs.headD '\x00') := by
  have hnext : (before (c :: cs) m).peek 1 = cs.headD '\x00' := Cursor.peek_zero_before (m := m)
  have hline : ¬(decide ((before (c :: cs) m).mark.column = 0) &&
      decide ((before (c :: cs) m).peek 0 = '%')) = true := by
    rw [Cursor.peek_zero_cons, decide_eq_false hdirective, Bool.and_false]
    exact Bool.false_ne_true
  have hsome : (before (c :: cs) m).peek 0 ≠ '\x00' := hend
  rw [dispatch, if_neg hsome, if_neg hline, hdoc, if_neg Bool.false_ne_true, hnext]
  rfl

/-- A single hyphen, or another character, is no document indicator. -/
theorem atDocumentIndicator_cons (hc : c ≠ '.') (hd : c = '-' → cs.head? ≠ some '-') :
    (before (c :: cs) m).atDocumentIndicator = false := by
  rw [Cursor.atDocumentIndicator, Bool.and_assoc, Bool.and_eq_false_iff]
  refine .inr ?_
  rw [Bool.and_eq_false_iff]
  refine .inl ?_
  split
  · rename_i h
    obtain ⟨rfl, rfl⟩ := List.cons.inj h
    exact absurd rfl (hd rfl)
  · rename_i h
    exact absurd (List.cons.inj h).1 hc
  · rfl

/-- A block at column `c` among those at `ins`: it is opened by its first entry, whose column is
further right, and later entries find it open. -/
inductive Opens (token : Token) (c : Nat) : List Nat → List Nat → List Token → Prop
  /-- The first entry opens the block. -/
  | first {ins : List Nat} (h : ∀ d ∈ ins, d < c) : Opens token c ins (c :: ins) [token]
  /-- The block is open. -/
  | later {ins : List Nat} : Opens token c (c :: ins) (c :: ins) []

/-- The innermost open block is not further right than the one to be opened. -/
theorem Opens.head_le {token : Token} {c : Nat} (h : Opens token c ins ins' new) :
    ∀ d ∈ ins.head?, d ≤ c := by
  intro d hd
  cases h with
  | first h => exact Nat.le_of_lt (h d (List.mem_of_mem_head? hd))
  | later => exact Nat.le_of_eq (Option.some.inj hd).symm

/-- A block is opened at the end of the tokens. -/
theorem openBlock_stand {token : Token} {n : Nat} (h : Opens token n ins ins' new) (start : Mark) :
    ∃ xs', lexed xs' = lexed xs ++ new ∧
      openBlock n none token start (stand cs m xs ins k a) = .ok ((), stand cs m xs' ins' k a) := by
  cases h with
  | first h =>
    refine ⟨⟨token, start, start⟩ :: xs, by simp, ?_⟩
    have hopen : (!(stand cs m xs ins k a).inFlow &&
        (stand cs m xs ins k a).indents.all (· < n)) = true := by simpa using h
    show (ite _ _ _ : Lex Unit) (stand cs m xs ins k a) = _
    rw [if_pos hopen]
    rfl
  | later =>
    rename_i ins
    refine ⟨xs, by simp, ?_⟩
    have hopen : (!(stand cs m xs (n :: ins) k a).inFlow &&
        (stand cs m xs (n :: ins) k a).indents.all (· < n)) = false := by simp
    show (ite _ _ _ : Lex Unit) (stand cs m xs (n :: ins) k a) = _
    rw [if_neg (ne_true_of_eq_false hopen)]
    rfl

/-- An indicator that may begin a block opens it, where keys are allowed. -/
theorem openHere_stand {token : Token} (h : Opens token m.column ins ins' new) (p : Malformed) :
    ∃ xs', lexed xs' = lexed xs ++ new ∧
      openHere token p (stand cs m xs ins k true) = .ok ((), stand cs m xs' ins' k true) :=
  openBlock_stand h m

/-- An indicator of one character is read. -/
theorem pushSpan_one_stand (token : Token) (hc : isBreak c = false) :
    pushSpan token 1 (stand (c :: cs) m xs ins k a) =
      .ok ((), stand cs (m.after [c]) (⟨token, m, m.after [c]⟩ :: xs) ins k a) :=
  pushSpan_stand token (show ∀ d ∈ [c], isBreak d = false by simpa using hc)

/-- The hyphen of an entry is read. -/
theorem Ready.blockEntry (h : Ready l ('-' :: ' ' :: cs) m ts ins true)
    (hopen : Opens .blockSequenceStart m.column ins ins' new) :
    ∃ l', Reaches l l' ∧
      At l' (' ' :: cs) (m.after ['-']) (ts ++ (new ++ [.blockEntry])) ins' true := by
  refine h.round fun xs hxs => ?_
  obtain ⟨xs', hxs', hhere⟩ := openHere_stand (k := none) hopen
    .blockEntryContext
  refine ⟨_, ⟨⟨.blockEntry, m, m.after ['-']⟩ :: xs', ?_, rfl⟩, by simp, ?_⟩
  · rw [lexed_cons, hxs', hxs, List.append_assoc]
  · have htoken : dispatch false (before ('-' :: ' ' :: cs) m) = Lexer.blockEntry :=
      (dispatch_cons (by decide) (by decide)
        (atDocumentIndicator_cons (by decide) fun _ => by simp)).trans rfl
    rw [htoken, Lexer.blockEntry]
    simp only [bind_assoc]
    rw [bind_of hhere, bind_of (dropKey_stand (k := none) nofun), bind_of (allowKey_stand true),
      bind_of (pushSpan_one_stand _ rfl)]
    exact checkKeys_stand rfl

/-- The question mark of an explicit key is read. -/
theorem Ready.explicitKey (h : Ready l ('?' :: ' ' :: cs) m ts ins true)
    (hopen : Opens .blockMappingStart m.column ins ins' new) :
    ∃ l', Reaches l l' ∧ At l' (' ' :: cs) (m.after ['?']) (ts ++ (new ++ [.key])) ins' true := by
  refine h.round fun xs hxs => ?_
  obtain ⟨xs', hxs', hhere⟩ := openHere_stand (k := none) hopen
    .keyContext
  refine ⟨_, ⟨⟨.key, m, m.after ['?']⟩ :: xs', ?_, rfl⟩, by simp, ?_⟩
  · rw [lexed_cons, hxs', hxs, List.append_assoc]
  · have htoken : dispatch false (before ('?' :: ' ' :: cs) m) = Lexer.explicitKey :=
      (dispatch_cons (by decide) (by decide)
        (atDocumentIndicator_cons (by decide) (absurd · (by decide)))).trans rfl
    rw [htoken, Lexer.explicitKey]
    simp only [bind_assoc]
    rw [bind_of hhere, bind_of (dropKey_stand (k := none) nofun)]
    show (allowKey true >>= fun _ => pushSpan .key 1 >>= fun _ => checkKeys)
      (stand ('?' :: ' ' :: cs) m xs' ins' none true) = _
    rw [bind_of (allowKey_stand true), bind_of (pushSpan_one_stand _ rfl)]
    exact checkKeys_stand rfl

/-- The colon after an explicit key is read. -/
theorem Ready.explicitValue {n : Nat} (h : Ready l (':' :: ' ' :: cs) m ts (n :: ins) true)
    (hn : m.column = n) :
    ∃ l', Reaches l l' ∧ At l' (' ' :: cs) (m.after [':']) (ts ++ [.value]) (n :: ins) true := by
  subst hn
  refine h.round fun xs hxs => ?_
  obtain ⟨xs', hxs', hhere⟩ := openHere_stand (m := m) (k := none)
    (Opens.later) .valueContext
  refine ⟨_, ⟨⟨.value, m, m.after [':']⟩ :: xs', ?_, rfl⟩, by simp, ?_⟩
  · rw [lexed_cons, hxs', hxs, List.append_nil]
  · have htoken : dispatch false (before (':' :: ' ' :: cs) m) = Lexer.value :=
      (dispatch_cons (by decide) (by decide)
        (atDocumentIndicator_cons (by decide) (absurd · (by decide)))).trans rfl
    have hvalue : value (stand (':' :: ' ' :: cs) m xs (m.column :: ins) none true) =
        (openHere .blockMappingStart .valueContext >>= fun _ => allowKey true >>= fun _ =>
          pushSpan .value 1) (stand (':' :: ' ' :: cs) m xs (m.column :: ins) none true) := rfl
    rw [htoken]
    show (value _ >>= fun p => checkKeys p.2) = _
    rw [hvalue, bind_of hhere, bind_of (allowKey_stand true), pushSpan_one_stand _ rfl]
    exact checkKeys_stand (k := none) rfl

/-- The place of a possible key that begins at the mark, where keys are allowed. -/
def keyAt (a : Bool) (xs : List Lexeme) (ins : List Nat) (m : Mark) : Option SimpleKey :=
  if a then some ⟨xs.length, m, decide (ins.head? = some m.column)⟩ else none

/-- A key may begin where keys are allowed. -/
theorem saveKey_stand :
    saveKey (stand cs m xs ins none a) = .ok ((), stand cs m xs ins (keyAt a xs ins m) a) := by
  cases a <;> rfl

/-- The tokens before a key are inserted when its colon is met. -/
theorem insertAt_stand (y : Lexeme) (ys : List Lexeme) :
    insertAt xs.length y (stand cs m (ys ++ xs) ins k a) =
      .ok ((), stand cs m (ys ++ y :: xs) ins k a) := by
  have hlater : (ys ++ xs).length - xs.length = ys.length := by simp
  have hstate : insertAt xs.length y (stand cs m (ys ++ xs) ins k a) =
      .ok ((), { stand cs m (ys ++ xs) ins k a with
        lexemes := (ys ++ xs).take ((ys ++ xs).length - xs.length) ++
          y :: (ys ++ xs).drop ((ys ++ xs).length - xs.length)
        count := (ys ++ xs).length + 1 }) := rfl
  rw [hstate, hlater, List.take_left, List.drop_left]
  simp [stand, Nat.add_assoc]

/-- A block is opened before tokens that have been read. -/
theorem openBlock_insert {token : Token} {n : Nat} (h : Opens token n ins ins' new) (start : Mark)
    (ys : List Lexeme) :
    ∃ xs', lexed xs' = lexed xs ++ (new ++ lexed ys) ∧
      openBlock n (some xs.length) token start (stand cs m (ys ++ xs) ins k a) =
        .ok ((), stand cs m xs' ins' k a) := by
  cases h with
  | first h =>
    refine ⟨ys ++ ⟨token, start, start⟩ :: xs, by simp, ?_⟩
    have hopen : (!(stand cs m (ys ++ xs) ins k a).inFlow &&
        (stand cs m (ys ++ xs) ins k a).indents.all (· < n)) = true := by simpa using h
    show (ite _ _ _ : Lex Unit) (stand cs m (ys ++ xs) ins k a) = _
    rw [if_pos hopen]
    exact insertAt_stand _ ys
  | later =>
    rename_i ins
    refine ⟨ys ++ xs, by simp, ?_⟩
    have hopen : (!(stand cs m (ys ++ xs) (n :: ins) k a).inFlow &&
        (stand cs m (ys ++ xs) (n :: ins) k a).indents.all (· < n)) = false := by simp
    show (ite _ _ _ : Lex Unit) (stand cs m (ys ++ xs) (n :: ins) k a) = _
    rw [if_neg (ne_true_of_eq_false hopen)]
    rfl

/-- The indicator of a value makes a key of the scalar before it, and opens a mapping if need be. -/
theorem value_keyAt {x : Lexeme} {xs' : List Lexeme} (m m' : Mark)
    (hblock : openBlock m.column (some xs.length) .blockMappingStart m
      (stand (':' :: cs) m' ([x, ⟨.key, m, m⟩] ++ xs) ins (keyAt true xs ins m) false) =
        .ok ((), stand (':' :: cs) m' xs' ins' (keyAt true xs ins m) false)) :
    Lexer.value (stand (':' :: cs) m' (x :: xs) ins (keyAt true xs ins m) false) =
      .ok ((), stand cs (m'.after [':']) (⟨.value, m', m'.after [':']⟩ :: xs') ins' none false) := by
  have hvalue : value (stand (':' :: cs) m' (x :: xs) ins (keyAt true xs ins m) false) =
      (insertAt xs.length ⟨.key, m, m⟩ >>= fun _ =>
        openBlock m.column (some xs.length) .blockMappingStart m >>= fun _ =>
        modify ({ · with candidate := none }) >>= fun _ => allowKey false >>= fun _ =>
        pushSpan .value 1) (stand (':' :: cs) m' (x :: xs) ins (keyAt true xs ins m) false) :=
    rfl
  have hinsert : insertAt xs.length ⟨.key, m, m⟩
      (stand (':' :: cs) m' (x :: xs) ins (keyAt true xs ins m) false) =
        .ok ((), stand (':' :: cs) m' ([x, ⟨.key, m, m⟩] ++ xs) ins (keyAt true xs ins m) false) :=
    insertAt_stand _ [x]
  have hforget : (modify ({ · with candidate := none }) : Lex Unit)
      (stand (':' :: cs) m' xs' ins' (keyAt true xs ins m) false) =
        .ok ((), stand (':' :: cs) m' xs' ins' none false) := rfl
  rw [hvalue, bind_of hinsert, bind_of hblock, bind_of hforget, bind_of (allowKey_stand false),
    pushSpan_one_stand _ rfl]

/-- The colon after a scalar makes a key of it. -/
theorem reaches_colon {x : Lexeme} (hc : isBlankOrEnd c = true) (hline : m.line = m'.line)
    (hindex : m'.index ≤ m.index + 1024) (hcolumn : m.column ≤ m'.column)
    (hopen : Opens .blockMappingStart m.column ins ins' new) :
    ∃ l', Reaches (stand (':' :: c :: cs) m' (x :: xs) ins (keyAt true xs ins m) false) l' ∧
      At l' (c :: cs) (m'.after [':']) (lexed xs ++ (new ++ [.key, x.token, .value])) ins' false := by
  obtain ⟨xs', hxs', hblock⟩ := openBlock_insert (m := m')
    (k := keyAt true xs ins m) (a := false) hopen m [x, ⟨.key, m, m⟩]
  have hcontent : Content (':' :: c :: cs) := by
    intro d hd
    obtain rfl := Option.some.inj hd
    exact ⟨by decide, by decide, by decide⟩
  have hsettle : settle (stand (':' :: c :: cs) m' (x :: xs) ins (keyAt true xs ins m) false) =
      .ok ((), stand (':' :: c :: cs) m' (x :: xs) ins (keyAt true xs ins m) false) :=
    settle_spaces (n := 0) hcontent (checkKey_fresh hline hindex)
  have hclose : closeBlocks (some m'.column)
      (stand (':' :: c :: cs) m' (x :: xs) ins (keyAt true xs ins m) false) =
        .ok ((), stand (':' :: c :: cs) m' (x :: xs) ins (keyAt true xs ins m) false) :=
    closeBlocks_stand (show ∀ d ∈ ([] : List Nat), _ from nofun) fun d hd => (hopen.head_le d hd).trans hcolumn
  have htoken : dispatch false (before (':' :: c :: cs) m') = Lexer.value := by
    rw [dispatch_cons (by decide) (by decide)
      (atDocumentIndicator_cons (by decide) (absurd · (by decide)))]
    show (ite _ _ _ : Lex Unit) = _
    rw [if_neg (by decide), if_neg (by decide), if_neg (by decide), if_neg (by decide),
      if_neg (by decide), if_neg (by simp), if_neg (by simp), if_pos]
    simpa using hc
  refine ⟨_, .round rfl ?_ ?_, ⟨⟨.value, m', m'.after [':']⟩ :: xs', ?_, rfl⟩⟩
  · show (next _ >>= fun p => checkKeys p.2) = _
    rw [next_of_settle hsettle]
    show (((closeBlocks (some m'.column) >>= fun _ => dispatch false (before (':' :: c :: cs) m')) >>=
      fun _ => checkKeys) : Lex Unit) _ = _
    rw [bind_assoc, bind_of hclose, htoken]
    show (value _ >>= fun p => checkKeys p.2) = _
    rw [value_keyAt m m' hblock]
    exact checkKeys_stand (k := none) rfl
  · simp
  · rw [lexed_cons, hxs']
    simp

/-! ## Scalars -/

/-- A quoted scalar is read, which may be a key. -/
theorem nodeStart_stand {read : Scan Lexeme} {x : Lexeme}
    (h : read (before cs m) = .ok (x, before ds m')) :
    nodeStart read (stand cs m xs ins none a) =
      .ok ((), stand ds m' (x :: xs) ins (keyAt a xs ins m) false) := by
  rw [nodeStart, bind_of saveKey_stand, bind_of (allowKey_stand false), bind_of (scan_stand h)]
  rfl

/-- The least column of content in the innermost of the blocks. -/
def floorOf (ins : List Nat) : Nat := (ins.head?.map (· + 1)).getD 0

/-- The least column of content, for a lexer that stands in front of a text. -/
theorem floor_stand : (stand cs m xs ins k a).floor = floorOf ins := by cases ins <;> rfl

/-- A plain scalar is read, which may be a key. -/
theorem plainScalar_stand {x : Lexeme} {broken : Bool}
    (h : Scan.plainScalar (floorOf ins) false (before cs m) = .ok ((x, broken), before ds m')) :
    plainScalar (stand cs m xs ins none a) =
      .ok ((), stand ds m' (x :: xs) ins (keyAt a xs ins m) broken) := by
  have hscan : scan (Scan.plainScalar (stand cs m xs ins (keyAt a xs ins m) false).floor false)
      (stand cs m xs ins (keyAt a xs ins m) false) =
        .ok ((x, broken), stand ds m' xs ins (keyAt a xs ins m) false) := by
    rw [floor_stand]
    exact scan_stand h
  rw [plainScalar, bind_of saveKey_stand, bind_of (allowKey_stand false), get_bind, stand_inFlow,
    bind_of hscan]
  cases broken <;> rfl

/-- A block scalar is read. -/
theorem blockScalar_stand {isLiteral : Bool} {x : Lexeme}
    (h : Scan.blockScalar isLiteral (floorOf ins) (before cs m) = .ok (x, before ds m')) :
    blockScalar isLiteral (stand cs m xs ins none a) =
      .ok ((), stand ds m' (x :: xs) ins none true) := by
  have hscan : scan (Scan.blockScalar isLiteral (stand cs m xs ins none true).floor)
      (stand cs m xs ins none true) = .ok (x, stand ds m' xs ins none true) := by
    rw [floor_stand]
    exact scan_stand h
  rw [blockScalar, bind_of (dropKey_stand (k := none) nofun), bind_of (allowKey_stand true), get_bind,
    bind_of hscan]
  rfl

/-- A character that may begin a plain scalar does. -/
theorem readToken_plain (hsolid : isBlankOrEnd c = false)
    (hlead : Printer.isLeadingIndicator c (isBlankOrEnd d) = false) :
    readToken false m c d = plainScalar := by
  simp only [Printer.isLeadingIndicator, List.mem_cons, List.not_mem_nil, or_false,
    Bool.or_eq_false_iff, decide_eq_false_iff_not, not_or, Bool.and_eq_false_iff] at hlead
  obtain ⟨h, hblank⟩ := hlead
  have hbegins : beginsPlain false c d = true := by
    by_cases hc : c = '?' ∨ c = ':' ∨ c = '-'
    · have hd : isBlankOrEnd d = false := hblank.resolve_left fun hno => by tauto
      have := isBlank_of_solid hd
      rcases hc with rfl | rfl | rfl <;> simp [beginsPlain, hd, this]
    · simp only [not_or] at hc
      simp [beginsPlain, hsolid, h, hc]
  have hmark (e : Char) (he : e = '?' ∨ e = ':' ∨ e = '-') :
      (decide (c = e) && isBlankOrEnd d) = false := by
    rw [Bool.and_eq_false_iff, decide_eq_false_iff_not]
    by_cases hc : c = e
    · exact .inr (hblank.resolve_left fun hno => by subst hc; tauto)
    · exact .inl hc
  simp only [readToken, h, hmark, Bool.false_or, hbegins, if_true, if_false, decide_false,
    Bool.false_and, Bool.false_eq_true, true_or, or_true]

/-! ## Brackets -/

/-- Brackets with their tokens. -/
inductive IsBrackets : Char → Char → Token → Token → Prop
  /-- The brackets of a sequence. -/
  | sequence : IsBrackets '[' ']' .flowSequenceStart .flowSequenceEnd
  /-- The brackets of a mapping. -/
  | mapping : IsBrackets '{' '}' .flowMappingStart .flowMappingEnd

variable {opening closing : Token}

/-- The lexer inside the brackets that began with the possible key `k`. -/
def within (cs : List Char) (m : Mark) (xs : List Lexeme) (ins : List Nat) (k : Option SimpleKey) :
    Lexer :=
  { stand cs m xs ins none true with outer := [k] }

/-- Inside brackets, the key that they may be part of is checked. -/
theorem checkKeys_within (h : checkKey m k = .ok k) :
    checkKeys (within cs m xs ins k) = .ok ((), within cs m xs ins k) := by
  have hkeys : ([k].reverse.mapM (checkKey m) : Except Fault _) = .ok [k] := by
    show (checkKey m k >>= fun k' => pure [k']) = _
    rw [h]
    rfl
  show ((([k].reverse.mapM (checkKey m) : Except Fault _) >>= fun ks =>
    pure (ks, within cs m xs ins k)) >>= fun p => _) = _
  rw [hkeys]
  rfl

/-- A possible key is kept on its line, up to some length. -/
theorem checkKey_keyAt (hline : m.line = m'.line) (hindex : m'.index ≤ m.index + 1024) :
    checkKey m' (keyAt a xs ins m) = .ok (keyAt a xs ins m) := by
  cases a
  · rfl
  · exact checkKey_fresh hline hindex

/-- An opening bracket is read outside of others. -/
theorem dispatch_opening (h : IsBrackets c d opening closing) :
    (dispatch false (before (c :: cs) m) >>= fun _ => checkKeys) (stand (c :: cs) m xs ins none a) =
      .ok ((), within cs (m.after [c]) (⟨opening, m, m.after [c]⟩ :: xs) ins (keyAt a xs ins m)) := by
  have htoken : dispatch false (before (c :: cs) m) = flowStart opening := by
    cases h <;>
    exact (dispatch_cons (by decide) (by decide)
      (atDocumentIndicator_cons (by decide) (absurd · (by decide)))).trans rfl
  have hc : isBreak c = false := by cases h <;> rfl
  have hkey : checkKey (m.after [c]) (keyAt a xs ins m) = .ok (keyAt a xs ins m) := by
    rw [Mark.after, hc]
    exact checkKey_keyAt rfl (Nat.add_le_add_left (by decide) _)
  have hskip : scan (Scan.skip 1) (within (c :: cs) m xs ins (keyAt a xs ins m)) =
      .ok ((), within cs (m.after [c]) xs ins (keyAt a xs ins m)) :=
    scan_of (congrArg (fun c => Except.ok ((), c)) (Cursor.skip_one_before hc))
  have hspan : pushSpan opening 1 (within (c :: cs) m xs ins (keyAt a xs ins m)) =
      .ok ((), within cs (m.after [c]) (⟨opening, m, m.after [c]⟩ :: xs) ins (keyAt a xs ins m)) := by
    show (scan (Scan.skip 1) >>= fun _ => scan Scan.mark >>= fun stop =>
      push ⟨opening, m, stop⟩) _ = _
    rw [bind_of hskip]
    rfl
  have hstart : flowStart opening (stand (c :: cs) m xs ins none a) =
      .ok ((), within cs (m.after [c]) (⟨opening, m, m.after [c]⟩ :: xs) ins (keyAt a xs ins m)) := by
    rw [flowStart, bind_of saveKey_stand]
    exact hspan
  rw [htoken, bind_of hstart]
  exact checkKeys_within hkey

/-- The closing bracket after an opening one is read. -/
theorem dispatch_closing (h : IsBrackets c d opening closing) (hk : checkKey (m.after [d]) k = .ok k) :
    (dispatch true (before (d :: cs) m) >>= fun _ => checkKeys) (within (d :: cs) m xs ins k) =
      .ok ((), stand cs (m.after [d]) (⟨closing, m, m.after [d]⟩ :: xs) ins k false) := by
  have htoken : dispatch true (before (d :: cs) m) = flowEnd closing := by
    cases h <;>
    exact (dispatch_cons (by decide) (by decide)
      (atDocumentIndicator_cons (by decide) (absurd · (by decide)))).trans rfl
  have hd : isBreak d = false := by cases h <;> rfl
  have hend : flowEnd closing (within (d :: cs) m xs ins k) =
      .ok ((), stand cs (m.after [d]) (⟨closing, m, m.after [d]⟩ :: xs) ins k false) :=
    pushSpan_one_stand closing hd
  rw [htoken, bind_of hend]
  exact checkKeys_stand hk

/-- The brackets of an empty collection are read. -/
theorem Ready.brackets (h : Ready l (c :: d :: cs) m ts ins a) (hpair : IsBrackets c d opening closing) :
    ∃ l', Reaches l l' ∧ ∃ xs ys, lexed xs = ts ++ [opening, closing] ∧
      l' = stand cs (m.after [c, d]) xs ins (keyAt a ys ins m) false := by
  have hc : isBreak c = false := by cases hpair <;> rfl
  have hd : isBreak d = false := by cases hpair <;> rfl
  -- Both brackets are on one line, where a key that begins with the first one is still possible.
  have hmark : m.after [c, d] = m.next.next := by
    rw [Mark.after, hc, Mark.after, hd]
    rfl
  obtain ⟨l₁, hreach, xs, hxs, rfl⟩ := h.round (P := fun l₁ => ∃ xs, lexed xs = ts ∧
    l₁ = within (d :: cs) (m.after [c]) (⟨opening, m, m.after [c]⟩ :: xs) ins (keyAt a xs ins m))
    fun xs hxs => ⟨_, ⟨xs, hxs, rfl⟩, by simp [within], dispatch_opening hpair⟩
  have hcontent : Content (d :: cs) := by
    intro e he
    rw [← Option.some.inj he]
    cases hpair <;> exact ⟨by decide, by decide, by decide⟩
  have hkey : checkKey (m.after [c]) (keyAt a xs ins m) = .ok (keyAt a xs ins m) := by
    rw [Mark.after, hc]
    exact checkKey_keyAt rfl (Nat.add_le_add_left (by decide) _)
  have hsettle : settle (within (d :: cs) (m.after [c]) (⟨opening, m, m.after [c]⟩ :: xs) ins
      (keyAt a xs ins m)) = .ok ((), within (d :: cs) (m.after [c]) (⟨opening, m, m.after [c]⟩ :: xs)
        ins (keyAt a xs ins m)) :=
    (settle_of (skipSpace_spaces (n := 0) rfl hcontent)).trans (checkKeys_within hkey)
  have hclosed : checkKey ((m.after [c]).after [d]) (keyAt a xs ins m) = .ok (keyAt a xs ins m) := by
    rw [← Mark.after_append, List.singleton_append, hmark]
    exact checkKey_keyAt rfl (Nat.add_le_add_left (by decide : 2 ≤ 1024) m.index)
  have hnext := next_of_settle hsettle
  refine ⟨_, hreach.trans (.round rfl ?_ ?_),
    ⟨closing, m.after [c], m.after [c, d]⟩ :: ⟨opening, m, m.after [c]⟩ :: xs, xs, by simp [hxs], rfl⟩
  · show (next _ >>= fun p => checkKeys p.2) = _
    rw [hnext]
    exact dispatch_closing hpair hclosed
  · simp [within]

/-! ## The ends of documents -/

/-- Content may close some of the blocks before the end of the document closes the others. -/
theorem closeBlocks_some (ins : List Nat) (n : Nat) :
    ∃ u v, ins = u ++ v ∧ closeBlocks (some n) (stand cs m xs ins k a) =
      .ok ((), stand cs m (List.replicate u.length ⟨.blockEnd, m, m⟩ ++ xs) v k a) := by
  obtain ⟨u, v, rfl, hu, hv⟩ := exists_run (fun c => decide (n < c)) ins
  exact ⟨u, v, rfl, closeBlocks_stand (fun c hc => of_decide_eq_true (hu c hc))
    fun c hc => Nat.not_lt.1 (of_decide_eq_false (hv c hc))⟩

/-- The line that begins the next document is read. -/
theorem Arrives.documentStart (h : Arrives l ('-' :: '-' :: '-' :: '\n' :: cs) m ts [])
    (hcolumn : m.column = 0) :
    ∃ l', Reaches l l' ∧ At l' ('\n' :: cs) (m.after ['-', '-', '-']) (ts ++ [.documentStart]) []
      false := by
  obtain ⟨hfinished, hlength, xs, cols, k, a, hsettle, hts, -, hk, -⟩ := h
  obtain ⟨rfl, rfl⟩ := hk.resolve_left (List.cons_ne_nil _ _)
  rw [List.append_nil] at hsettle
  -- Some blocks are closed since the line stands further left, and the others since a document begins.
  obtain ⟨u, v, rfl, hclose⟩ := closeBlocks_some (m := m) (k := none) (a := true) cols m.column
  have hdoc : (before ('-' :: '-' :: '-' :: '\n' :: cs) m).atDocumentIndicator = true := by
    rw [Cursor.atDocumentIndicator, Cursor.before_mark, hcolumn]
    rfl
  have htoken : dispatch false (before ('-' :: '-' :: '-' :: '\n' :: cs) m) =
      topLevel (pushSpan .documentStart 3) := by
    simp [dispatch, hdoc, Cursor.peek_zero_cons]
  have hspan (ys : List Lexeme) :
      pushSpan .documentStart 3 (stand ('-' :: '-' :: '-' :: '\n' :: cs) m ys [] none false) =
        .ok ((), stand ('\n' :: cs) (m.after ['-', '-', '-'])
          (⟨.documentStart, m, m.after ['-', '-', '-']⟩ :: ys) [] none false) :=
    pushSpan_stand .documentStart (show ∀ d ∈ ['-', '-', '-'], isBreak d = false by simp; decide)
  have hround : (next >>= fun _ => checkKeys) l =
      .ok ((), stand ('\n' :: cs) (m.after ['-', '-', '-'])
        (⟨.documentStart, m, m.after ['-', '-', '-']⟩ :: (List.replicate v.length ⟨.blockEnd, m, m⟩ ++
          (List.replicate u.length ⟨.blockEnd, m, m⟩ ++ xs))) [] none false) := by
    show (next l >>= fun p => checkKeys p.2) = _
    rw [next_of_settle hsettle]
    show (((closeBlocks (some m.column) >>= fun _ => dispatch false (before _ m)) >>=
      fun _ => checkKeys) : Lex Unit) _ = _
    rw [bind_assoc, bind_of hclose, htoken, topLevel]
    simp only [bind_assoc]
    rw [bind_of closeBlocks_none_stand, bind_of (dropKey_stand (k := none) (by simp)),
      bind_of (allowKey_stand false), bind_of (hspan _)]
    exact checkKeys_stand (k := none) rfl
  refine ⟨_, .round hfinished hround ?_, _, ?_, rfl⟩
  · rw [stand_cursor, Cursor.before_rest]
    exact Nat.lt_of_lt_of_le (by simp) hlength
  · rw [lexed_cons, lexed_blockEnds, lexed_blockEnds, ← hts, List.length_append, List.replicate_add,
      List.append_assoc (lexed xs)]

/-- The end of the text closes the blocks that are left. -/
theorem streamEnd_stand (hk : ∀ key ∈ k, key.required = false) :
    ∃ l', (streamEnd >>= fun _ => checkKeys) (stand [] m xs ins k a) = .ok ((), l') ∧
      l'.finished = true ∧
      lexed l'.lexemes = lexed xs ++ List.replicate ins.length .blockEnd ++ [.streamEnd] := by
  have hts (m' : Mark) : lexed (⟨.streamEnd, m', m'.advance 0⟩ ::
      (List.replicate (ins.length - 0) ⟨.blockEnd, m', m'⟩ ++ xs)) =
        lexed xs ++ List.replicate ins.length .blockEnd ++ [.streamEnd] := by
    rw [lexed_cons, Nat.sub_zero, lexed_blockEnds]
  cases k with
  | none => exact ⟨_, rfl, rfl, hts _⟩
  | some key =>
    obtain ⟨n, start, required⟩ := key
    have hrequired : required = false := hk _ rfl
    subst hrequired
    exact ⟨_, rfl, rfl, hts _⟩

/-- At the end of the text the lexer is done. -/
theorem Arrives.streamEnd (h : Arrives l [] m ts []) :
    ∃ ys, ys.map (·.token) = ts ++ [.streamEnd] ∧ ∀ fuel, run (fuel + 2) l = ⟨ys, none⟩ := by
  obtain ⟨hfinished, hlength, xs, cols, k, a, hsettle, hts, -, -, hk⟩ := h
  rw [List.append_nil] at hsettle
  obtain ⟨u, v, rfl, hclose⟩ := closeBlocks_some (m := m) (k := k) (a := a) cols m.column
  obtain ⟨l', hend, hdone, hlexed⟩ := streamEnd_stand (m := m) (a := a) hk
  have hround : (next >>= fun _ => checkKeys) l = .ok ((), l') := by
    show (next l >>= fun p => checkKeys p.2) = _
    rw [next_of_settle hsettle]
    show (((closeBlocks (some m.column) >>= fun _ => Lexer.streamEnd) >>=
      fun _ => checkKeys) : Lex Unit) _ = _
    rw [bind_assoc, bind_of hclose, hend]
  refine ⟨l'.lexemes.reverse, ?_, ?_⟩
  · show lexed l'.lexemes = _
    rw [hlexed, lexed_blockEnds, ← hts, List.length_append, List.replicate_add,
      List.append_assoc (lexed xs)]
  · intro fuel
    rw [run_succ hfinished hround, run, if_pos hdone]

end Lexer

end ProviderAssets.Yaml
