import ProviderAssets.Proofs.Yaml.Documents

/-!
# What is written may stand in a text

Every character that the printer writes is one that may occur in a text.
-/

namespace ProviderAssets.Yaml

variable {c : Char} {cs ds : List Char} {s : String} {n : Nat}

/-- Whether the printer shows all the characters. -/
def IsShown (cs : List Char) : Prop := ∀ c ∈ cs, Printer.isShown c = true

/-- Shown characters may occur in a text. -/
theorem isAllowed_of_isShown (h : Printer.isShown c = true) : isAllowed c = true := by
  simp only [Printer.isShown, isAllowed, Bool.or_eq_true, decide_eq_true_eq, Bool.and_eq_true] at h ⊢
  omega

/-- A text without controls is read as it is. -/
theorem charsOfString_of_isShown (h : IsShown cs) : charsOfString (String.ofList cs) = .ok cs := by
  have hnone (offset : Nat) : findControl offset cs = none := by
    induction cs generalizing offset with
    | nil => rfl
    | cons c cs ih =>
      rw [findControl, if_pos (isAllowed_of_isShown (h c List.mem_cons_self))]
      exact ih (fun d hd => h d (List.mem_cons_of_mem _ hd)) _
  rw [charsOfString, String.toList_ofList, hnone]
  rfl

namespace IsShown

/-- Two parts. -/
theorem append (hcs : IsShown cs) (hds : IsShown ds) : IsShown (cs ++ ds) :=
  fun c hc => (List.mem_append.1 hc).elim (hcs c) (hds c)

/-- A character more. -/
theorem cons (hc : Printer.isShown c = true) (hcs : IsShown cs) : IsShown (c :: cs) := by
  intro d hd
  rcases List.mem_cons.1 hd with rfl | hd
  · exact hc
  · exact hcs d hd

/-- Spaces. -/
theorem spaces (n : Nat) : IsShown (Printer.spaces n) := by
  intro c hc
  rw [eq_of_mem_spaces hc]
  rfl

/-- A text without the line feeds at its end. -/
theorem trimFeeds (hcs : IsShown cs) : IsShown (trimFeeds cs) := fun c hc =>
  hcs c (List.mem_reverse.1 ((List.dropWhile_sublist _).subset (List.mem_reverse.1 hc)))

/-- A text with its end changed. -/
theorem cut (e : Ending) (hcs : IsShown cs) : IsShown (e.cut cs) := by
  cases e with
  | kept => exact hcs
  | line => exact hcs.trimFeeds.append (by simp [IsShown, Printer.isShown])
  | bare => exact hcs.trimFeeds

/-- A line. -/
theorem endLine (hcs : IsShown cs) : IsShown (Printer.endLine cs) := by
  have hfeed : IsShown ['\n'] := by simp [IsShown, Printer.isShown]
  unfold Printer.endLine
  split
  · split
    · exact hcs
    · exact hcs.append hfeed
  · exact hfeed

/-- Spellings of characters. -/
theorem flatMap {f : Char → List Char} (h : ∀ c ∈ cs, IsShown (f c)) : IsShown (cs.flatMap f) := by
  intro d hd
  obtain ⟨c, hc, hd⟩ := List.mem_flatMap.1 hd
  exact h c hc d hd

/-- Lines of a literal block. -/
theorem literalChars (indent : Nat) (broken : Bool) (hcs : IsShown cs) :
    IsShown (Printer.literalChars indent broken cs) := by
  induction cs generalizing broken with
  | nil => exact nofun
  | cons c cs ih =>
    have hc : Printer.isShown c = true := hcs c List.mem_cons_self
    have ih := fun b => ih b fun d hd => hcs d (List.mem_cons_of_mem _ hd)
    rw [Printer.literalChars]
    split
    · exact .cons hc (ih true)
    · split
      · exact (spaces indent).append (.cons hc (ih false))
      · exact .cons hc (ih false)

/-- Lines between single quotes. -/
theorem singleQuotedChars (indent : Nat) (broken : Bool) (hcs : IsShown cs) :
    IsShown (Printer.singleQuotedChars indent broken cs) := by
  have hstart (b : Bool) : IsShown (if b then Printer.spaces indent else []) := by
    cases b
    · exact nofun
    · exact spaces indent
  induction cs generalizing broken with
  | nil => exact hstart broken
  | cons c cs ih =>
    have hc : Printer.isShown c = true := hcs c List.mem_cons_self
    have ih := fun b => ih b fun d hd => hcs d (List.mem_cons_of_mem _ hd)
    rw [Printer.singleQuotedChars]
    split
    · exact .cons hc (ih true)
    · refine ((hstart broken).append ?_).append (ih false)
      split <;> simp [IsShown, hc]

/-- A text in a spelling that fits it. -/
theorem spelled {st : ScalarStyle} (h : Fits s st) (indent : Nat) : IsShown (spelled indent s st) := by
  cases st with
  | folded => exact h.elim
  | plain =>
    have hfeatures := h.2
    simp only [Printer.features, Bool.not_eq_true', Bool.or_eq_false_iff] at hfeatures
    obtain ⟨⟨⟨-, -, hshown⟩, -⟩, -⟩ := hfeatures
    rw [Bool.not_eq_false'] at hshown
    exact List.all_eq_true.1 hshown
  | singleQuoted =>
    exact (IsShown.cons rfl (singleQuotedChars indent false h.shown)).append
      (by simp [IsShown, Printer.isShown])
  | doubleQuoted =>
    exact (IsShown.cons rfl (flatMap fun c _ => isShown_doubleSpelling c)).append
      (by simp [IsShown, Printer.isShown])
  | literal =>
    refine .append (.cons rfl ?_) (.cons rfl (literalChars indent true h.2))
    rw [literalHints_eq]
    refine .append ?_ ?_
    · split <;> simp [IsShown, Printer.isShown]
    · cases literalChomping s.toList <;> simp [IsShown, Printer.isShown, Scan.Chomping.indicator]

/-- A value that is no block. -/
theorem inline (v : Json.Value) (indent : Nat) :
    IsShown (Printer.inline indent v) := by
  cases v with
  | null => simp [IsShown, Printer.inline, Printer.isShown]
  | bool b => cases b <;> simp [IsShown, Printer.inline, Printer.isShown]
  | number n => exact spelled (fits_number n) indent
  | string s => exact spelled (fits_style s) indent
  | array xs => simp [IsShown, Printer.inline, Printer.isShown]
  | object fs => simp [IsShown, Printer.inline, Printer.isShown]

/-- Blocks under one another. -/
theorem joinBlocks (indent : Nat) {bs : List (List Char)} (hbs : ∀ b ∈ bs, IsShown b) :
    IsShown (Printer.joinBlocks indent bs) ∧ IsShown (bs.flatMap (Printer.spaces indent ++ ·)) := by
  have hlines {bs : List (List Char)} (hbs : ∀ b ∈ bs, IsShown b) :
      IsShown (bs.flatMap (Printer.spaces indent ++ ·)) := by
    intro c hc
    obtain ⟨b, hb, hc⟩ := List.mem_flatMap.1 hc
    exact (spaces indent).append (hbs b hb) c hc
  refine ⟨?_, hlines hbs⟩
  cases bs with
  | nil => exact nofun
  | cons b bs =>
    exact (hbs b List.mem_cons_self).append (hlines fun d hd => hbs d (List.mem_cons_of_mem _ hd))

/-- Whether a value is shown after a hyphen and after a key. -/
def OfValue (v : Json.Value) : Prop :=
  ∀ indent, IsShown (Printer.nested indent v) ∧ IsShown (Printer.fieldValue indent v)

/-- Whether items are shown. -/
def OfItems (xs : List Json.Value) : Prop :=
  ∀ indent, ∀ b ∈ Printer.itemBlocks indent xs, IsShown b

/-- Whether fields are shown. -/
def OfFields (fs : List (String × Json.Value)) : Prop :=
  ∀ indent, ∀ b ∈ Printer.fieldBlocks indent fs, IsShown b

/-- A value that is no block is shown. -/
theorem leaf {v : Json.Value} (h : Lexer.IsLeaf v) : OfValue v := by
  intro indent
  rw [(Lexer.layout_of_isLeaf h indent).1, (Lexer.layout_of_isLeaf h indent).2]
  exact ⟨(IsShown.cons rfl (inline v _)).endLine, (IsShown.cons rfl (inline v _)).endLine⟩

/-- A field is shown if its value is. -/
theorem fieldBlock {key : String} {v : Json.Value} (hv : OfValue v)
    (indent : Nat) : ∀ b ∈ Printer.fieldBlocks indent [(key, v)], IsShown b := by
  intro b hb
  rw [Printer.fieldBlocks, Printer.fieldBlocks, List.mem_singleton] at hb
  subst hb
  have hname : IsShown (Printer.string (indent + 2) key) := spelled (fits_style key) _
  split
  · exact hname.append (.cons rfl (hv indent).2)
  · refine .append (.append (.cons rfl ?_) (spaces indent)) (.cons rfl (hv indent).1)
    exact (IsShown.cons rfl hname).endLine

/-- Values, items and fields are shown. -/
theorem all : (∀ v, OfValue v) ∧ (∀ xs, OfItems xs) ∧ ∀ fs, OfFields fs := by
  -- The printer writes nothing but indicators, spaces and line feeds around texts that are shown.
  refine Json.Value.induction ?null ?bool ?number ?string ?array ?object (fun _ => nofun) ?item
    (fun _ => nofun) ?field
  case null => exact leaf trivial
  case bool => exact fun _ => leaf trivial
  case number => exact fun _ => leaf trivial
  case string => exact fun _ => leaf trivial
  case array =>
    rintro (_ | ⟨x, xs⟩) ih
    · exact leaf trivial
    · intro n
      exact ⟨.cons rfl (joinBlocks _ (ih _)).1, .cons rfl (joinBlocks _ (ih _)).2⟩
  case object =>
    rintro (_ | ⟨f, fs⟩) ih
    · exact leaf trivial
    · intro n
      exact ⟨.cons rfl (joinBlocks _ (ih _)).1, .cons rfl (joinBlocks _ (ih _)).2⟩
  case item =>
    intro x xs hx hxs n b hb
    rw [Printer.itemBlocks] at hb
    rcases List.mem_cons.1 hb with rfl | hb
    · exact .cons rfl (hx n).1
    · exact hxs n b hb
  case field =>
    intro key v fs hv hfs n b hb
    rcases List.mem_cons.1 hb with rfl | hb
    · exact fieldBlock hv n _ (List.mem_singleton.2 rfl)
    · exact hfs n b hb

/-- The documents of a stream. -/
theorem stream (e : Ending) {vs : List Json.Value} (hvs : ∀ v ∈ vs, IsDocument v) :
    IsShown (streamChars e (vs.map Printer.document)) := by
  have hdocument {v : Json.Value} (hv : IsDocument v) : IsShown (Printer.document v) := by
    obtain ⟨f, fs, rfl⟩ := hv
    exact (joinBlocks 0 (all.2.2 (f :: fs) 0)).1
  have hline : IsShown ['-', '-', '-', '\n'] := by simp [IsShown, Printer.isShown]
  induction vs with
  | nil => exact fun _ h => by cases h
  | cons v vs ih =>
    have hv := hdocument (hvs v List.mem_cons_self)
    have ih := ih fun w hw => hvs w (List.mem_cons_of_mem _ hw)
    cases vs with
    | nil => exact hv.cut e
    | cons v' vs => exact (hv.cut .line).append (hline.append ih)

end IsShown

/-- A stream of documents is read as the documents, which show what is left of the values. -/
theorem documents_ofList_stream {e : Ending} {vs : List Json.Value} (hne : vs ≠ [])
    (hvs : ∀ v ∈ vs, IsDocument v) :
    ∃ ns : List Node,
      documents (String.ofList (streamChars e (vs.map Printer.document))) = ns.map (⟨·, none⟩) ∧
        List.Forall₂ Shows (e.stream vs) ns := by
  obtain ⟨ns, hns, hshows⟩ := documents_stream hne hvs
  refine ⟨ns, ?_, hshows⟩
  rw [← hns, documents, charsOfString_of_isShown (.stream e hvs)]
  rfl

end ProviderAssets.Yaml
