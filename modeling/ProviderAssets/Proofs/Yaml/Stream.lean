import ProviderAssets.Proofs.Yaml.Trees

/-!
# Tokens of a stream

A stream is written document by document with a line of hyphens in between, and only its last document may
end in another way than the printer lets it. The lexer reads it as the tokens of its documents, to the
end of the text and without a fault (`tokens_ofChars_stream`).
-/

namespace ProviderAssets.Yaml

namespace Lexer

variable {l l' : Lexer} {m : Mark} {ds : List Char} {e : Ending} {ts : List Token}

/-- The lexer gets to the end of the text, with the given tokens. -/
def Ends (l : Lexer) (ts : List Token) : Prop :=
  ∃ ys : List Lexeme, ys.map (·.token) = ts ∧
    ∀ fuel, l.cursor.rest.length ≤ fuel → run (fuel + 2) l = ⟨ys, none⟩

/-- A lexer gets to the end if one does that it reaches. -/
theorem Ends.of_reaches (hreach : Reaches l l') (h : Ends l' ts) : Ends l ts := by
  obtain ⟨n, hn, hrun⟩ := hreach
  obtain ⟨ys, hys, hend⟩ := h
  refine ⟨ys, hys, fun fuel hfuel => ?_⟩
  obtain ⟨k, rfl⟩ : ∃ k, fuel = k + n := ⟨fuel - n, by omega⟩
  rw [show k + n + 2 = k + 2 + n by omega, hrun, hend k (by omega)]

/-- A document is read as its tokens. -/
theorem Ready.document {f : String × Json.Value} {fs : List (String × Json.Value)}
    (hfollows : Follows e 0 ds)
    (h : Ready l (e.cut (Printer.document (.object (f :: fs))) ++ ds) m ts [] true)
    (hm : m.column = 0) : Lands l ds 0 (ts ++ tokens e false (.object (f :: fs))) [] := by
  have hnone : ∀ d ∈ ([] : List Nat), d < 0 := by simp
  have := (reads_all.2.2 (f :: fs) (List.cons_ne_nil _ _) hnone (Nat.le_refl 0) hfollows
    h hm (.first hnone)).close hnone
  simpa [tokens] using this

end Lexer

/-- The characters of documents with the lines between them; the last one ends in the given way. -/
def streamChars (e : Ending) : List (List Char) → List Char
  | [] => []
  | [d] => e.cut d
  | d :: d' :: rest => Ending.line.cut d ++ '-' :: '-' :: '-' :: '\n' :: streamChars e (d' :: rest)

/-- The tokens of values in documents of their own; the last one ends in the given way. -/
def streamTokens (e : Ending) : List Json.Value → List Token
  | [] => [.streamEnd]
  | [v] => tokens e false v ++ [.streamEnd]
  | v :: v' :: rest => tokens .line false v ++ .documentStart :: streamTokens e (v' :: rest)

/-- Whether a value may be a document of a stream: an object with fields. -/
def IsDocument (v : Json.Value) : Prop := ∃ f fs, v = .object (f :: fs)

namespace Lexer

variable {l l' : Lexer} {m : Mark} {ds : List Char} {e : Ending} {ts : List Token}

/-- The end of the text may stand for contents. -/
theorem content_nil : Content [] := by
  intro c hc
  cases hc

/-- A document begins with contents. -/
theorem content_document {v : Json.Value} (hv : IsDocument v) :
    Content (Printer.document v) ∧ Printer.document v ≠ [] := by
  obtain ⟨f, fs, rfl⟩ := hv
  exact content_fields 0 f fs

/-- The documents of a stream begin with contents. -/
theorem content_stream (e : Ending) {v : Json.Value} (hv : IsDocument v) (vs : List Json.Value) :
    Content (streamChars e ((v :: vs).map Printer.document)) := by
  obtain ⟨hcontent, hne⟩ := content_document hv
  cases vs with
  | nil => simpa [streamChars] using (hcontent.cut e hne []).1
  | cons v' vs => exact (hcontent.cut .line hne _).1

/-- The documents of a stream are read as their tokens. -/
theorem Ready.stream {vs : List Json.Value} (hne : vs ≠ []) (hvs : ∀ v ∈ vs, IsDocument v)
    (h : Ready l (streamChars e (vs.map Printer.document)) m ts [] true)
    (hm : m.column = 0) : Ends l (ts ++ streamTokens e vs) := by
  induction vs generalizing l m ts with
  | nil => exact absurd rfl hne
  | cons v vs ih =>
    have hv := hvs v List.mem_cons_self
    obtain ⟨f, fs, rfl⟩ := hv
    cases vs with
    | nil =>
      have h : Ready l (e.cut (Printer.document (.object (f :: fs))) ++ []) m ts [] true := by
        simpa [streamChars] using h
      obtain ⟨l', m', hreach, harrives, -⟩ := Ready.document
        ⟨content_nil, fun _ => ⟨rfl, rfl⟩⟩ h hm
      refine .of_reaches hreach ?_
      obtain ⟨ys, hys, hrun⟩ := harrives.streamEnd
      refine ⟨ys, by simpa [streamTokens] using hys, fun fuel _ => hrun fuel⟩
    | cons v' vs =>
      -- A line of hyphens follows, at the first column.
      obtain ⟨l₁, m₁, hreach₁, harrives, hcolumn⟩ := Ready.document (e := .line)
        ⟨by
          intro c hc
          rw [← Option.some.inj hc]
          decide, nofun⟩ h hm
      obtain ⟨l₂, hreach₂, hat⟩ := harrives.documentStart (hcolumn (List.cons_ne_nil _ _))
      have hready := At.ready_line (n := 0) hat
        (content_stream e (hvs v' (List.mem_cons_of_mem _ List.mem_cons_self)) vs) nofun
      have := ih (List.cons_ne_nil _ _) (fun w hw => hvs w (List.mem_cons_of_mem _ hw)) hready
        (Mark.column_after_line _ [] 0)
      exact .of_reaches (hreach₁.trans hreach₂) (by simpa [streamTokens] using this)

end Lexer

/-- The tokens of a stream are those of its documents. -/
theorem tokens_ofChars_stream {e : Ending} {vs : List Json.Value} (hne : vs ≠ [])
    (hvs : ∀ v ∈ vs, IsDocument v) :
    ∃ ys, Tokens.ofChars (streamChars e (vs.map Printer.document)) = ⟨ys, none⟩ ∧
      ys.map (·.token) = streamTokens e vs := by
  obtain ⟨cs, hcs⟩ : ∃ cs, cs = streamChars e (vs.map Printer.document) := ⟨_, rfl⟩
  have hcontent : Lexer.Content cs := by
    obtain ⟨v, rest, rfl⟩ := List.exists_cons_of_ne_nil hne
    rw [hcs]
    exact Lexer.content_stream e (hvs v List.mem_cons_self) rest
  have hstart : ({ cursor := Cursor.ofChars cs } : Lexer) = Lexer.stand cs Mark.start [] [] none true := by
    simp [Lexer.stand, Cursor.ofChars, Cursor.before, Mark.start]
  have hready : Lexer.Ready { cursor := Cursor.ofChars cs } cs Mark.start [] [] true :=
    Lexer.At.ready_spaces (n := 0) ⟨[], rfl, hstart⟩ hcontent (by simp)
  obtain ⟨ys, hys, hrun⟩ := Lexer.Ready.stream hne hvs (by rw [← hcs]; exact hready) rfl
  rw [← hcs]
  exact ⟨ys, hrun cs.length (Nat.le_refl _), by simpa using hys⟩

end ProviderAssets.Yaml
