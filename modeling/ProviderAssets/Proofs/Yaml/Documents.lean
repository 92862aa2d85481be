import ProviderAssets.Proofs.Yaml.Nodes

/-!
# Documents of tokens

The tokens of a stream are read as one node for each document, which shows what the ending has left of its
value (`documents_stream`). The line before a document is there for each one but the first, and the
handles of tags and the anchors are forgotten in between.
-/

namespace ProviderAssets.Yaml

namespace Reader

variable {h : List (String × String)} {xs u : List Lexeme} {p q : Mark} {fuel : Nat}
variable {f : String × Json.Value} {fs : List (String × Json.Value)}

/-- What comes after a document: another one, or the end of the text. -/
def EndsDocument (u : List Lexeme) : Prop :=
  ∃ y ys, u = y :: ys ∧ (y.token = .documentStart ∨ y.token = .streamEnd)

/-- The next token is looked at. -/
theorem peek_ahead (x : Lexeme) : peek (ahead h (x :: xs)) = (some x, ahead h (x :: xs)) := rfl

/-- The anchors of the document before are forgotten. -/
theorem forget_ahead :
    (modify ({ · with anchors := [], named := 0 }) : Read Unit) (ahead h xs) = ((), ahead h xs) := rfl

/-- The root of the first document. -/
theorem root_first {n : Node} {ys : List Lexeme}
    (hn : node (fuel + 1) true false (ahead defaultHandles (⟨.blockMappingStart, p, q⟩ :: xs)) =
      (n, ahead defaultHandles ys)) :
    root (fuel + 1) true ⟨.blockMappingStart, p, q⟩ (ahead h (⟨.blockMappingStart, p, q⟩ :: xs)) =
      (n, ahead defaultHandles ys) := by
  have hread : root (fuel + 1) true ⟨.blockMappingStart, p, q⟩
      (ahead h (⟨.blockMappingStart, p, q⟩ :: xs)) =
      node (fuel + 1) true false (ahead defaultHandles (⟨.blockMappingStart, p, q⟩ :: xs)) := rfl
  rw [hread, hn]

/-- The root of a later document. -/
theorem root_later {n : Node} {ys : List Lexeme} {p' q' : Mark}
    (hn : node (fuel + 1) true false (ahead defaultHandles (⟨.blockMappingStart, p, q⟩ :: xs)) =
      (n, ahead defaultHandles ys)) :
    root (fuel + 1) false ⟨.documentStart, p', q'⟩
        (ahead h (⟨.documentStart, p', q'⟩ :: ⟨.blockMappingStart, p, q⟩ :: xs)) =
      (n, ahead defaultHandles ys) := by
  have hread : root (fuel + 1) false ⟨.documentStart, p', q'⟩
      (ahead h (⟨.documentStart, p', q'⟩ :: ⟨.blockMappingStart, p, q⟩ :: xs)) =
      node (fuel + 1) true false (ahead defaultHandles (⟨.blockMappingStart, p, q⟩ :: xs)) := rfl
  rw [hread, hn]

/-- A document is read with its root. -/
theorem document?_root {first : Bool} {x : Lexeme} {n : Node} {h' : List (String × String)}
    (hskip : first = false → skipDocumentEnds fuel (ahead h (x :: xs)) = ((), ahead h (x :: xs)))
    (hx : x.token ≠ .streamEnd) (hu : EndsDocument u)
    (hroot : root fuel first x (ahead h (x :: xs)) = (n, ahead h' u)) :
    document? fuel first (ahead h (x :: xs)) = (some ⟨n, none⟩, ahead h' u) := by
  rw [document?, bind_of forget_ahead]
  dsimp only
  cases first
  case' true => rw [Bool.not_true, if_neg Bool.false_ne_true, bind_of (peek_ahead x)]
  case' false => rw [Bool.not_false, if_pos rfl, bind_of (hskip rfl), bind_of (peek_ahead x)]
  all_goals
    dsimp only
    rw [if_neg hx, bind_of hroot]
    obtain ⟨⟨token, start, stop⟩, ys, rfl, hy⟩ := hu
    rcases hy with hy | hy
    · obtain rfl : token = .documentStart := hy
      rfl
    · obtain rfl : token = .streamEnd := hy
      rfl

/-- Documents are read one after the other. -/
theorem documents_cons {first : Bool} {r r' : Reader} {mark : Mark} {entries : List (Node × Node)}
    {ds : List Document}
    (hd : document? fuel first r = (some ⟨.mapping { mark } entries, none⟩, r'))
    (hds : (documents fuel false r').1 = ds) :
    (documents (fuel + 1) first r).1 = ⟨.mapping { mark } entries, none⟩ :: ds := by
  rw [documents, bind_of hd]
  show _ :: (documents fuel false r').1 = _
  rw [hds]

/-- After the last document there are no others. -/
theorem documents_end :
    (documents (fuel + 2) false (ahead h (⟨.streamEnd, p, q⟩ :: xs))).1 = [] := rfl

/-- The document of an object is read, with the line before it if it is not the first one. -/
theorem document?_object {e : Ending} {first : Bool} {lead : List Lexeme}
    (hlead : first = true ∧ lead = [] ∨ first = false ∧ ∃ p q, lead = [⟨.documentStart, p, q⟩])
    (hxs : xs.map (·.token) = tokens e false (.object (f :: fs))) (hu : EndsDocument u)
    (hfuel : 2 * xs.length + 2 ≤ fuel) :
    ∃ mark entries, document? fuel first (ahead h (lead ++ (xs ++ u))) =
        (some ⟨.mapping { mark } entries, none⟩, ahead defaultHandles u) ∧
      Shows (e.value (.object (f :: fs))) (.mapping { mark } entries) := by
  obtain ⟨n, hn, hshows⟩ := reads_all.1 (.object (f :: fs)) (h := defaultHandles) (u := u) (j := false)
    hxs (by simp) hfuel
  obtain ⟨mark, entries, rfl, hentries⟩ := hshows
  obtain ⟨p, q, ys, rfl, -⟩ := exists_of_map_cons (hxs.trans (by rw [tokens]))
  obtain ⟨fuel, rfl⟩ : ∃ k, fuel = k + 1 := ⟨fuel - 1, by omega⟩
  refine ⟨mark, entries, ?_, mark, entries, rfl, hentries⟩
  rcases hlead with ⟨rfl, rfl⟩ | ⟨rfl, p', q', rfl⟩
  · exact document?_root (by simp) (by simp) hu (root_first hn)
  · exact document?_root (fun _ => rfl) (by simp) hu (root_later hn)

/-- The documents of a stream are read one after the other. -/
theorem documents_stream {e : Ending} {vs : List Json.Value} (hne : vs ≠ [])
    (hvs : ∀ v ∈ vs, IsDocument v) {first : Bool} {lead : List Lexeme}
    (hlead : first = true ∧ lead = [] ∨ first = false ∧ ∃ p q, lead = [⟨.documentStart, p, q⟩])
    (hxs : xs.map (·.token) = streamTokens e vs) (hfuel : 3 * xs.length + 3 ≤ fuel) :
    ∃ ns, (documents fuel first (ahead h (lead ++ xs))).1 = ns.map (⟨·, none⟩) ∧
      List.Forall₂ Shows (e.stream vs) ns := by
  -- The handles of tags are the default ones after each document, whatever they were before.
  induction vs generalizing xs h first lead fuel with
  | nil => exact absurd rfl hne
  | cons v vs ih =>
    obtain ⟨f, fs, rfl⟩ := hvs v List.mem_cons_self
    obtain ⟨fuel, rfl⟩ : ∃ k, fuel = k + 1 := ⟨fuel - 1, by omega⟩
    cases vs with
    | nil =>
      obtain ⟨ys, zs, rfl, hys, hzs⟩ := List.map_eq_append_iff.1 hxs
      obtain ⟨p, q, us, rfl, -⟩ := exists_of_map_cons hzs
      simp only [List.length_append, List.length_cons] at hfuel
      obtain ⟨mark, entries, hd, hshows⟩ := document?_object hlead hys
        ⟨⟨.streamEnd, p, q⟩, us, rfl, .inr rfl⟩ (show 2 * ys.length + 2 ≤ fuel by omega)
      obtain ⟨fuel, rfl⟩ : ∃ k, fuel = k + 2 := ⟨fuel - 2, by omega⟩
      exact ⟨[_], documents_cons hd documents_end, .cons hshows .nil⟩
    | cons v' vs =>
      obtain ⟨ys, zs, rfl, hys, hzs⟩ := List.map_eq_append_iff.1 hxs
      obtain ⟨p, q, us, rfl, hus⟩ := exists_of_map_cons hzs
      simp only [List.length_append, List.length_cons] at hfuel
      obtain ⟨mark, entries, hd, hshows⟩ := document?_object hlead hys
        ⟨⟨.documentStart, p, q⟩, us, rfl, .inl rfl⟩ (show 2 * ys.length + 2 ≤ fuel by omega)
      obtain ⟨ns, hns, hall⟩ := ih (List.cons_ne_nil _ _) (fun w hw => hvs w (List.mem_cons_of_mem _ hw))
        (.inr ⟨rfl, p, q, rfl⟩) hus (show 3 * us.length + 3 ≤ fuel by omega)
      exact ⟨_ :: ns, documents_cons hd hns, .cons hshows hall⟩

end Reader

/-- The documents of a stream show what is left of its values. -/
theorem documents_stream {e : Ending} {vs : List Json.Value} (hne : vs ≠ [])
    (hvs : ∀ v ∈ vs, IsDocument v) :
    ∃ ns, (Tokens.ofChars (streamChars e (vs.map Printer.document))).documents =
        ns.map (⟨·, none⟩) ∧ List.Forall₂ Shows (e.stream vs) ns := by
  obtain ⟨xs, htokens, hxs⟩ := tokens_ofChars_stream hne hvs
  rw [htokens]
  exact Reader.documents_stream hne hvs (.inl ⟨rfl, rfl⟩) hxs (Nat.le_succ _)

end ProviderAssets.Yaml
