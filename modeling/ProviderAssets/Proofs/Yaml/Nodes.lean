import ProviderAssets.Yaml.Document
import ProviderAssets.Proofs.Yaml.Stream

/-!
# Nodes of tokens

The tokens of a value are read as a node that shows the value: it is built in the same way, and has no
tags, anchors and aliases (`Shows`). A mapping is told from a sequence by the token that opens it, except
for a sequence at the indentation of the mapping around it, which is known by its first hyphen.
`Reader.reads_all` is the induction over values, over items and over fields; each level of a value takes
some of the fuel, of which there is enough for all tokens.
-/

namespace ProviderAssets.Yaml

/-! ## Nodes of values -/

/-- A node that is a scalar without properties. -/
def Node.IsScalar (text : String) (style : ScalarStyle) (n : Node) : Prop :=
  ∃ mark, n = .scalar { mark } text style

mutual

/-- The node shows the value: it is built in the same way, without tags, anchors and aliases. A string
may have any spelling that stands for it. -/
def Shows : Json.Value → Node → Prop
  | .null, n => n.IsScalar "null" .plain
  | .bool b, n => n.IsScalar (if b then "true" else "false") .plain
  | .number x, n => n.IsScalar (Printer.number x) .plain
  | .string s, n => ∃ style, n.IsScalar s style ∧ readScalar none s style = .ok (.string s)
  | .array xs, n => ∃ mark items, n = .sequence { mark } items ∧ ShowsItems xs items
  | .object fs, n => ∃ mark entries, n = .mapping { mark } entries ∧ ShowsEntries fs entries

/-- The nodes show the items of an array. -/
def ShowsItems : List Json.Value → List Node → Prop
  | [], ns => ns = []
  | x :: xs, ns => ∃ n rest, ns = n :: rest ∧ Shows x n ∧ ShowsItems xs rest

/-- The nodes show the fields of an object. -/
def ShowsEntries : List (String × Json.Value) → List (Node × Node) → Prop
  | [], es => es = []
  | (key, v) :: fs, es =>
    ∃ k n rest, es = (k, n) :: rest ∧ k.IsScalar key (Printer.style key) ∧ Shows v n ∧
      ShowsEntries fs rest

end

namespace Reader

/-- The reader with the tokens `xs` to come and nothing out of place so far. -/
def ahead (handles : List (String × String)) (xs : List Lexeme) : Reader :=
  { lexemes := xs, fault := none, handles }

variable {h : List (String × String)} {xs rest : List Lexeme} {p q p' q' : Mark} {fuel : Nat}
variable {b i j : Bool} {v : Json.Value}

/-- A computation goes on with what its first part reads. -/
theorem bind_of {α β : Type} {x : Read α} {a : α} {r r' : Reader} (hx : x r = (a, r'))
    (f : α → Read β) : (x >>= f) r = f a r' := by
  show f (x r).1 (x r).2 = _
  rw [hx]

/-- A scalar is read. -/
theorem node_scalar (text : String) (style : ScalarStyle) :
    node (fuel + 1) b i (ahead h (⟨.scalar text style, p, q⟩ :: xs)) =
      (.scalar { mark := p } text style, ahead h xs) := rfl

/-- The brackets of an empty sequence are read. -/
theorem node_emptySequence :
    node (fuel + 2) b i
        (ahead h (⟨.flowSequenceStart, p, q⟩ :: ⟨.flowSequenceEnd, p', q'⟩ :: xs)) =
      (.sequence { mark := p } [], ahead h xs) := rfl

/-- The brackets of an empty mapping are read. -/
theorem node_emptyMapping :
    node (fuel + 2) b i (ahead h (⟨.flowMappingStart, p, q⟩ :: ⟨.flowMappingEnd, p', q'⟩ :: xs)) =
      (.mapping { mark := p } [], ahead h xs) := rfl

/-- A sequence is read with its entries. -/
theorem node_blockSequence {ns : List Node} {r : Reader}
    (hns : blockSequence fuel p (ahead h xs) = (ns, r)) :
    node (fuel + 1) true i (ahead h (⟨.blockSequenceStart, p, q⟩ :: xs)) =
      (.sequence { mark := p } ns, r) := by
  have hnode : node (fuel + 1) true i (ahead h (⟨.blockSequenceStart, p, q⟩ :: xs)) =
      (Node.sequence { mark := p } (blockSequence fuel p (ahead h xs)).1,
        (blockSequence fuel p (ahead h xs)).2) := by
    cases i <;> rfl
  rw [hnode, hns]

/-- A sequence at the indentation of its mapping is read with its entries. -/
theorem node_indentlessSequence {ns : List Node} {r : Reader}
    (hns : indentlessSequence fuel (ahead h (⟨.blockEntry, p, q⟩ :: xs)) = (ns, r)) :
    node (fuel + 1) b true (ahead h (⟨.blockEntry, p, q⟩ :: xs)) =
      (.sequence { mark := p } ns, r) := by
  have hnode : node (fuel + 1) b true (ahead h (⟨.blockEntry, p, q⟩ :: xs)) =
      (Node.sequence { mark := p }
        (indentlessSequence fuel (ahead h (⟨.blockEntry, p, q⟩ :: xs))).1,
        (indentlessSequence fuel (ahead h (⟨.blockEntry, p, q⟩ :: xs))).2) := rfl
  rw [hnode, hns]

/-- A mapping is read with its entries. -/
theorem node_blockMapping {es : List (Node × Node)} {r : Reader}
    (hes : blockMapping fuel p (ahead h xs) = (es, r)) :
    node (fuel + 1) true i (ahead h (⟨.blockMappingStart, p, q⟩ :: xs)) =
      (.mapping { mark := p } es, r) := by
  have hnode : node (fuel + 1) true i (ahead h (⟨.blockMappingStart, p, q⟩ :: xs)) =
      (Node.mapping { mark := p } (blockMapping fuel p (ahead h xs)).1,
        (blockMapping fuel p (ahead h xs)).2) := by
    cases i <;> rfl
  rw [hnode, hes]

/-- Whether a token begins the contents of an entry. -/
def Begins (t : Token) : Prop := endsBlockEntry t = false ∧ t ≠ .blockEntry

/-- The end of a block sequence is read. -/
theorem blockSequence_end (start : Mark) :
    blockSequence (fuel + 1) start (ahead h (⟨.blockEnd, p, q⟩ :: xs)) = ([], ahead h xs) := rfl

/-- An entry of a block sequence is read, and then the others. -/
theorem blockSequence_entry {x : Lexeme} {n : Node} {ns : List Node} {r : Reader} (start : Mark)
    (hx : Begins x.token) (hn : node fuel true false (ahead h (x :: xs)) = (n, ahead h rest))
    (hns : blockSequence fuel start (ahead h rest) = (ns, r)) :
    blockSequence (fuel + 1) start (ahead h (⟨.blockEntry, p, q⟩ :: x :: xs)) = (n :: ns, r) := by
  have hcase : (decide (x.token = Token.blockEntry) || decide (x.token = Token.blockEnd)) = false := by
    obtain ⟨hends, hentry⟩ := hx
    rw [Bool.or_eq_false_iff]
    refine ⟨decide_eq_false hentry, decide_eq_false ?_⟩
    intro he
    rw [he] at hends
    cases hends
  have hread : blockSequence (fuel + 1) start (ahead h (⟨.blockEntry, p, q⟩ :: x :: xs)) =
      (if decide (x.token = Token.blockEntry) || decide (x.token = Token.blockEnd) then do
        let item ← pure (emptyScalar q)
        return item :: (← blockSequence fuel start)
      else do
        let item ← node fuel true false
        return item :: (← blockSequence fuel start) : Read (List Node)) (ahead h (x :: xs)) := rfl
  rw [hread, hcase, if_neg Bool.false_ne_true, bind_of hn, bind_of hns]
  rfl

/-- An entry of a sequence at the indentation of its mapping is read, and then the others. -/
theorem indentlessSequence_entry {x : Lexeme} {n : Node} {ns : List Node} {r : Reader}
    (hx : Begins x.token) (hn : node fuel true false (ahead h (x :: xs)) = (n, ahead h rest))
    (hns : indentlessSequence fuel (ahead h rest) = (ns, r)) :
    indentlessSequence (fuel + 1) (ahead h (⟨.blockEntry, p, q⟩ :: x :: xs)) = (n :: ns, r) := by
  have hcase : (decide (x.token = Token.blockEntry) || endsBlockEntry x.token) = false := by
    rw [hx.1, decide_eq_false hx.2]
    rfl
  have hread : indentlessSequence (fuel + 1) (ahead h (⟨.blockEntry, p, q⟩ :: x :: xs)) =
      (if decide (x.token = Token.blockEntry) || endsBlockEntry x.token then do
        let item ← pure (emptyScalar q)
        return item :: (← indentlessSequence fuel)
      else do
        let item ← node fuel true false
        return item :: (← indentlessSequence fuel) : Read (List Node)) (ahead h (x :: xs)) := rfl
  rw [hread, hcase, if_neg Bool.false_ne_true, bind_of hn, bind_of hns]
  rfl

/-- A sequence at the indentation of its mapping ends before something else than an entry. -/
theorem indentlessSequence_end {x : Lexeme} (hx : x.token ≠ .blockEntry) :
    indentlessSequence (fuel + 1) (ahead h (x :: xs)) = ([], ahead h (x :: xs)) := by
  obtain ⟨token, start, stop⟩ := x
  cases token <;> first | rfl | exact absurd rfl hx

/-- The end of a block mapping is read. -/
theorem blockMapping_end (start : Mark) :
    blockMapping (fuel + 1) start (ahead h (⟨.blockEnd, p, q⟩ :: xs)) = ([], ahead h xs) := rfl

/-- The value of an entry is read. -/
theorem blockValue_node {x : Lexeme} {n : Node} (hx : endsBlockEntry x.token = false)
    (hn : node fuel true true (ahead h (x :: xs)) = (n, ahead h rest)) :
    blockValue (fuel + 1) (ahead h (⟨.value, p, q⟩ :: x :: xs)) = (n, ahead h rest) := by
  have hread : blockValue (fuel + 1) (ahead h (⟨.value, p, q⟩ :: x :: xs)) =
      (if endsBlockEntry x.token then return emptyScalar q else node fuel true true : Read Node)
        (ahead h (x :: xs)) := rfl
  rw [hread, hx, if_neg Bool.false_ne_true, hn]

/-- An entry of a block mapping is read, and then the others. -/
theorem blockMapping_entry {text : String} {style : ScalarStyle} {n : Node} {es : List (Node × Node)}
    {r : Reader} (start : Mark)
    (hn : blockValue (fuel + 1) (ahead h xs) = (n, ahead h rest))
    (hes : blockMapping (fuel + 1) start (ahead h rest) = (es, r)) :
    blockMapping (fuel + 2) start (ahead h (⟨.key, p, q⟩ :: ⟨.scalar text style, p', q'⟩ :: xs)) =
      ((.scalar { mark := p' } text style, n) :: es, r) := by
  have hread : blockMapping (fuel + 2) start
      (ahead h (⟨.key, p, q⟩ :: ⟨.scalar text style, p', q'⟩ :: xs)) =
      (do
        let value ← blockValue (fuel + 1)
        return (.scalar { mark := p' } text style, value) :: (← blockMapping (fuel + 1) start) :
          Read (List (Node × Node))) (ahead h xs) := rfl
  rw [hread, bind_of hn, bind_of hes]
  rfl

/-! ## Trees -/

/-- Of the tokens of a value under an ending, the reader makes a node that shows what is left of it. -/
def ReadsNode (v : Json.Value) : Prop :=
  ∀ {h : List (String × String)} {xs u : List Lexeme} {fuel : Nat} {i j : Bool} {e : Ending},
    xs.map (·.token) = tokens e i v →
    (i = true → j = true ∧ ∃ y ys, u = y :: ys ∧ y.token ≠ .blockEntry) →
    2 * xs.length + 2 ≤ fuel →
    ∃ n, node fuel true j (ahead h (xs ++ u)) = (n, ahead h u) ∧ Shows (e.value v) n

/-- The reader makes nodes of the tokens of items, whether or not there is a token at their end. -/
def ReadsNodes (vs : List Json.Value) : Prop :=
  ∀ {h : List (String × String)} {xs u : List Lexeme} {fuel : Nat} {e : Ending},
    xs.map (·.token) = itemTokens e vs → 2 * xs.length + 1 ≤ fuel →
    (∀ {p q s : Mark}, ∃ ns,
      blockSequence fuel s (ahead h (xs ++ ⟨.blockEnd, p, q⟩ :: u)) = (ns, ahead h u) ∧
        ShowsItems (e.items vs) ns) ∧
    ((∃ y ys, u = y :: ys ∧ y.token ≠ .blockEntry) →
      ∃ ns, indentlessSequence fuel (ahead h (xs ++ u)) = (ns, ahead h u) ∧
        ShowsItems (e.items vs) ns)

/-- The reader makes nodes of the tokens of fields. -/
def ReadsEntries (fs : List (String × Json.Value)) : Prop :=
  ∀ {h : List (String × String)} {xs u : List Lexeme} {fuel : Nat} {p q start : Mark} {e : Ending},
    xs.map (·.token) = fieldTokens e fs → 2 * xs.length + 1 ≤ fuel →
    ∃ es, blockMapping fuel start (ahead h (xs ++ ⟨.blockEnd, p, q⟩ :: u)) = (es, ahead h u) ∧
      ShowsEntries (e.fields fs) es

/-- A token with its places. -/
theorem exists_of_map_cons {t : Token} {ts : List Token} (hxs : xs.map (·.token) = t :: ts) :
    ∃ p q ys, xs = ⟨t, p, q⟩ :: ys ∧ ys.map (·.token) = ts := by
  obtain ⟨⟨token, p, q⟩, ys, rfl, ht, hys⟩ := List.map_eq_cons_iff.1 hxs
  obtain rfl : token = t := ht
  exact ⟨p, q, ys, rfl, hys⟩

/-- The last token with its places. -/
theorem exists_of_map_end {t : Token} {ts : List Token} (hxs : xs.map (·.token) = ts ++ [t]) :
    ∃ ys p q, xs = ys ++ [⟨t, p, q⟩] ∧ ys.map (·.token) = ts := by
  obtain ⟨ys, last, rfl, hys, hlast⟩ := List.map_eq_append_iff.1 hxs
  obtain ⟨p, q, us, rfl, hus⟩ := exists_of_map_cons hlast
  obtain rfl := List.map_eq_nil_iff.1 hus
  exact ⟨ys, p, q, rfl, hys⟩

/-- The contents of an entry begin with the tokens of a value. -/
theorem exists_tokens_cons (e : Ending) (i : Bool) (v : Json.Value) :
    ∃ t ts, tokens e i v = t :: ts ∧ endsBlockEntry t = false ∧ (i = false → t ≠ .blockEntry) := by
  rcases v with _ | b | x | s | (_ | ⟨x, xs⟩) | (_ | ⟨f, fs⟩)
  case array.cons => cases i <;> exact ⟨_, _, rfl, rfl, by simp⟩
  all_goals exact ⟨_, _, rfl, rfl, fun _ => nofun⟩

/-- A value that has a scalar for its token is read. -/
theorem readsNode_scalar {text : Ending → String} {style : ScalarStyle}
    (hv : ∀ e i, tokens e i v = [.scalar (text e) style])
    (hshows : ∀ e, ∀ n : Node, n.IsScalar (text e) style → Shows (Ending.value e v) n) :
    ReadsNode v := by
  intro h xs u fuel i j e hxs _ hfuel
  rw [hv] at hxs
  obtain ⟨p, q, ys, rfl, hys⟩ := exists_of_map_cons hxs
  obtain rfl := List.map_eq_nil_iff.1 hys
  obtain ⟨fuel, rfl⟩ : ∃ k, fuel = k + 1 := ⟨fuel - 1, by omega⟩
  exact ⟨_, node_scalar (text e) style, hshows e _ ⟨p, rfl⟩⟩

/-- An array is read if its items are. -/
theorem readsNode_array {x : Json.Value} {vs : List Json.Value} (ih : ReadsNodes (x :: vs)) :
    ReadsNode (.array (x :: vs)) := by
  intro h xs u fuel i j e hxs hi hfuel
  obtain ⟨fuel, rfl⟩ : ∃ k, fuel = k + 1 := ⟨fuel - 1, by omega⟩
  cases i with
  | true =>
    obtain ⟨rfl, hrest⟩ := hi rfl
    have hxs : xs.map (·.token) = itemTokens e (x :: vs) := by simpa [tokens] using hxs
    obtain ⟨p, q, ys, rfl, -⟩ := exists_of_map_cons (hxs.trans (by rw [itemTokens]))
    have hfuel : 2 * (⟨.blockEntry, p, q⟩ :: ys : List Lexeme).length + 1 ≤ fuel := by omega
    obtain ⟨ns, hns, hshows⟩ := (ih hxs hfuel).2 hrest
    exact ⟨_, node_indentlessSequence hns, p, ns, rfl, hshows⟩
  | false =>
    have hxs : xs.map (·.token) = .blockSequenceStart :: (itemTokens e (x :: vs) ++ [.blockEnd]) := by
      simpa [tokens] using hxs
    obtain ⟨p, q, ys, rfl, hys⟩ := exists_of_map_cons hxs
    obtain ⟨zs, p', q', rfl, hzs⟩ := exists_of_map_end hys
    simp only [List.length_cons, List.length_append, List.length_nil] at hfuel
    have hfuel : 2 * zs.length + 1 ≤ fuel := by omega
    obtain ⟨ns, hns, hshows⟩ := (ih (h := h) (u := u) hzs hfuel).1 (p := p') (q := q')
    have := node_blockSequence (q := q) (i := j) hns
    exact ⟨_, by simpa using this, p, ns, rfl, hshows⟩

/-- An object is read if its fields are. -/
theorem readsNode_object {f : String × Json.Value} {fs : List (String × Json.Value)}
    (ih : ReadsEntries (f :: fs)) : ReadsNode (.object (f :: fs)) := by
  intro h xs u fuel i j e hxs hi hfuel
  obtain ⟨fuel, rfl⟩ : ∃ k, fuel = k + 1 := ⟨fuel - 1, by omega⟩
  have hxs : xs.map (·.token) = .blockMappingStart :: (fieldTokens e (f :: fs) ++ [.blockEnd]) := by
    simpa [tokens] using hxs
  obtain ⟨p, q, ys, rfl, hys⟩ := exists_of_map_cons hxs
  obtain ⟨zs, p', q', rfl, hzs⟩ := exists_of_map_end hys
  simp only [List.length_cons, List.length_append, List.length_nil] at hfuel
  have hfuel : 2 * zs.length + 1 ≤ fuel := by omega
  obtain ⟨es, hes, hshows⟩ := ih (h := h) (u := u) (p := p') (q := q') hzs hfuel
  have := node_blockMapping (q := q) (i := j) hes
  exact ⟨_, by simpa using this, p, es, rfl, hshows⟩

/-- The items of a sequence are read one after the other. -/
theorem readsNodes_cons {x : Json.Value} {vs : List Json.Value} (hx : ReadsNode x)
    (ih : ReadsNodes vs) : ReadsNodes (x :: vs) := by
  intro h xs u fuel e hxs hfuel
  obtain ⟨fuel, rfl⟩ : ∃ k, fuel = k + 1 := ⟨fuel - 1, by omega⟩
  rw [itemTokens] at hxs
  obtain ⟨p, q, ys, rfl, hys⟩ := exists_of_map_cons hxs
  obtain ⟨us, ws, rfl, hus, hws⟩ := List.map_eq_append_iff.1 hys
  obtain ⟨t, ts, ht, hbegins, hentry⟩ := exists_tokens_cons (e.before vs) false x
  obtain ⟨p₁, q₁, us', rfl, -⟩ := exists_of_map_cons (hus.trans ht)
  simp only [List.length_cons, List.length_append] at hfuel
  have hfuel₁ : 2 * (⟨t, p₁, q₁⟩ :: us' : List Lexeme).length + 2 ≤ fuel := by
    rw [List.length_cons]
    omega
  have hfuel₂ : 2 * ws.length + 1 ≤ fuel := by omega
  -- The items end in a token of their own, or before the next key of the mapping around them.
  refine ⟨fun {p' q' start} => ?_, fun hrest => ?_⟩
  · obtain ⟨n, hn, hshows⟩ := hx (h := h) (u := ws ++ ⟨.blockEnd, p', q'⟩ :: u) (j := false) hus
      (by simp) hfuel₁
    obtain ⟨ns, hns, hshowsItems⟩ := (ih (h := h) (u := u) hws hfuel₂).1 (p := p') (q := q') (s := start)
    refine ⟨n :: ns, ?_, n, ns, rfl, hshows, hshowsItems⟩
    have := blockSequence_entry (p := p) (q := q) start ⟨hbegins, hentry rfl⟩ hn hns
    simpa using this
  · obtain ⟨n, hn, hshows⟩ := hx (h := h) (u := ws ++ u) (j := false) hus (by simp) hfuel₁
    obtain ⟨ns, hns, hshowsItems⟩ := (ih hws hfuel₂).2 hrest
    refine ⟨n :: ns, ?_, n, ns, rfl, hshows, hshowsItems⟩
    have := indentlessSequence_entry (p := p) (q := q) ⟨hbegins, hentry rfl⟩ hn hns
    simpa using this

/-- The fields of a mapping are read one after the other. -/
theorem readsEntries_cons {key : String} {v : Json.Value} {fs : List (String × Json.Value)}
    (hv : ReadsNode v) (ih : ReadsEntries fs) : ReadsEntries ((key, v) :: fs) := by
  intro h xs u fuel p q start e hxs hfuel
  rw [fieldTokens] at hxs
  obtain ⟨p₁, q₁, ys₁, rfl, hys₁⟩ := exists_of_map_cons hxs
  obtain ⟨p₂, q₂, ys₂, rfl, hys₂⟩ := exists_of_map_cons hys₁
  obtain ⟨p₃, q₃, ys₃, rfl, hys₃⟩ := exists_of_map_cons hys₂
  obtain ⟨us, ws, rfl, hus, hws⟩ := List.map_eq_append_iff.1 hys₃
  obtain ⟨t, ts, ht, hbegins, -⟩ := exists_tokens_cons (e.before fs) (Printer.isSimpleKey key) v
  obtain ⟨p₄, q₄, us', rfl, -⟩ := exists_of_map_cons (hus.trans ht)
  simp only [List.length_cons, List.length_append] at hfuel
  obtain ⟨fuel, rfl⟩ : ∃ k, fuel = k + 2 := ⟨fuel - 2, by omega⟩
  have hfuel₁ : 2 * (⟨t, p₄, q₄⟩ :: us' : List Lexeme).length + 2 ≤ fuel := by
    rw [List.length_cons]
    omega
  have hfuel₂ : 2 * ws.length + 1 ≤ fuel + 1 := by omega
  -- What follows the value is a key or the end, so a sequence without tokens around it ends there.
  have hnext : ∃ y ys, ws ++ ⟨.blockEnd, p, q⟩ :: u = y :: ys ∧ y.token ≠ .blockEntry := by
    rcases fs with _ | ⟨⟨key', v'⟩, fs⟩
    · obtain rfl := List.map_eq_nil_iff.1 hws
      exact ⟨_, _, rfl, (by simp)⟩
    · obtain ⟨p₅, q₅, ws', rfl, -⟩ := exists_of_map_cons (hws.trans (by rw [fieldTokens]))
      exact ⟨_, _, rfl, (by simp)⟩
  obtain ⟨n, hn, hshows⟩ := hv (u := ws ++ ⟨.blockEnd, p, q⟩ :: u) (j := true) (h := h) hus
    (fun _ => ⟨rfl, hnext⟩) hfuel₁
  obtain ⟨es, hes, hshowsEntries⟩ := ih (u := u) (h := h) (p := p) (q := q) hws hfuel₂
  refine ⟨_, ?_, _, n, es, rfl, ⟨p₂, rfl⟩, hshows, hshowsEntries⟩
  simpa using blockMapping_entry start (blockValue_node hbegins hn) hes

/-- The reader makes nodes that show the values. -/
theorem reads_all : (∀ v, ReadsNode v) ∧ (∀ vs, ReadsNodes vs) ∧ ∀ fs, ReadsEntries fs := by
  -- An empty collection is written in brackets, any other one as a block.
  refine Json.Value.induction ?null ?bool ?number ?string ?array ?object ?noItem
    (fun _ _ hx hvs => readsNodes_cons hx hvs) ?noField
    (fun _ _ _ hv hfs => readsEntries_cons hv hfs)
  case null => exact readsNode_scalar (v := .null) (fun _ _ => rfl) fun _ _ h => h
  case bool => exact fun b => readsNode_scalar (v := .bool b) (fun _ _ => rfl) fun _ _ h => h
  case number => exact fun x => readsNode_scalar (v := .number x) (fun _ _ => rfl) fun _ _ h => h
  case string =>
    exact fun s => readsNode_scalar (v := .string s) (fun _ _ => rfl) fun e _ h =>
      ⟨_, h, e.readScalar_text s⟩
  case array =>
    rintro (_ | ⟨x, vs⟩) ih
    · intro h xs u fuel i j e hxs _ hfuel
      obtain ⟨p, q, ys, rfl, hys⟩ := exists_of_map_cons hxs
      obtain ⟨p', q', us, rfl, hus⟩ := exists_of_map_cons hys
      obtain rfl := List.map_eq_nil_iff.1 hus
      obtain ⟨fuel, rfl⟩ : ∃ k, fuel = k + 2 := ⟨fuel - 2, by omega⟩
      exact ⟨_, node_emptySequence, p, [], rfl, rfl⟩
    · exact readsNode_array ih
  case object =>
    rintro (_ | ⟨f, fs⟩) ih
    · intro h xs u fuel i j e hxs _ hfuel
      obtain ⟨p, q, ys, rfl, hys⟩ := exists_of_map_cons hxs
      obtain ⟨p', q', us, rfl, hus⟩ := exists_of_map_cons hys
      obtain rfl := List.map_eq_nil_iff.1 hus
      obtain ⟨fuel, rfl⟩ : ∃ k, fuel = k + 2 := ⟨fuel - 2, by omega⟩
      exact ⟨_, node_emptyMapping, p, [], rfl, rfl⟩
    · exact readsNode_object ih
  case noItem =>
    intro h xs u fuel e hxs hfuel
    obtain rfl := List.map_eq_nil_iff.1 hxs
    obtain ⟨fuel, rfl⟩ : ∃ k, fuel = k + 1 := ⟨fuel - 1, by omega⟩
    refine ⟨⟨[], blockSequence_end _, rfl⟩, ?_⟩
    rintro ⟨y, ys, rfl, hy⟩
    exact ⟨[], indentlessSequence_end hy, rfl⟩
  case noField =>
    intro h xs u fuel p q start e hxs hfuel
    obtain rfl := List.map_eq_nil_iff.1 hxs
    obtain ⟨fuel, rfl⟩ : ∃ k, fuel = k + 1 := ⟨fuel - 1, by omega⟩
    exact ⟨[], blockMapping_end _, rfl⟩

end Reader

end ProviderAssets.Yaml
