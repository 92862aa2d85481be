import ProviderAssets.Yaml.Value
import ProviderAssets.Proofs.Yaml.Nodes

/-!
# What a node is decoded as

A node that shows a value is decoded as the value, for it has no tags and no aliases. What a decoder
gives for such nodes depends neither on what is around them nor on what came before them.
-/

namespace ProviderAssets.Yaml

namespace Decode

variable {α β : Type} {x : Decode α} {a : α} {b : β} {p : Place} {n : Node}

/-- The computation gives `a`, whatever is around, and follows no alias. -/
def Yields (x : Decode α) (a : α) : Prop := ∀ s k, x s k = .ok (a, k)

/-- A value yields itself. -/
theorem Yields.pure (a : α) : Yields (Pure.pure a : Decode α) a := fun _ _ => rfl

/-- What comes after a computation gets what it yields. -/
theorem Yields.bind {f : α → Decode β} (hx : Yields x a) (hf : Yields (f a) b) :
    Yields (x >>= f) b := by
  intro s k
  show (x s k >>= fun r => f r.1 s r.2) = _
  rw [hx s k]
  exact hf s k

/-- What a computation yields may be changed. -/
theorem Yields.map (hx : Yields x a) (f : α → β) : Yields (f <$> x) (f a) := by
  intro s k
  show (x s k >>= fun r => Pure.pure (f r.1, r.2)) = _
  rw [hx s k]
  rfl

/-- The site of mismatches does not matter where there are none. -/
theorem Yields.located (hx : Yields x a) (mark : Mark) (path : Path) :
    Yields (located mark path x) a := by
  intro s k
  show (tryCatch (x s k) fun e => (throw (e.locate mark path) : Decode α) s k) = _
  rw [hx s k]
  rfl

/-- A collection is opened if one more may be. -/
theorem Yields.enter {depth : Nat} {body : Place → Decode α} (mark : Mark)
    (hdepth : p.depth = depth + 1) (hbody : Yields (body { p with depth }) a) :
    Yields (enter mark p body) a := by
  unfold Decode.enter
  rw [hdepth]
  exact hbody.located mark p.path

/-- The text of a scalar is decoded. -/
theorem yields_string {text : String} {style : ScalarStyle} (h : n.IsScalar text style) (p : Place)
    (expected : String) : Yields (stringAs expected p n) text := by
  obtain ⟨mark, rfl⟩ := h
  exact .bind (.pure _) (.pure _)

variable {fs : List (String × String)} {entries : List (Node × Node)} {depth : Nat}

/-- A mapping is decoded as its entries are, if one more collection may be opened. -/
theorem yields_mapping {expected : String} {body : Place → List (Node × Node) → Decode α} (mark : Mark)
    (hdepth : p.depth = depth + 1) (hbody : Yields (body { p with depth } entries) a) :
    Yields (mapping expected body p (.mapping { mark } entries)) a := by
  have henter : Yields (enter mark p fun p => body p entries) a := .enter mark hdepth hbody
  exact .bind (.pure _) henter

/-- Entries that show texts are decoded as these. -/
theorem yields_entries (h : ShowsEntries (fs.map fun (key, value) => (key, .string value)) entries) :
    Yields (Decode.entries string (fun _ => string) p entries) fs := by
  induction fs generalizing entries with
  | nil =>
    obtain rfl : entries = [] := h
    exact .pure []
  | cons f fs ih =>
    obtain ⟨_, n, rest, rfl, ⟨mark, rfl⟩, ⟨style, hvalue, -⟩, hrest⟩ := h
    exact .bind (yields_string ⟨mark, rfl⟩ _ _) (.bind (yields_string hvalue _ _)
      (.bind (ih hrest) (.pure _)))

/-- An object of texts is decoded as a map of them. -/
theorem yields_stringMap (h : Shows (.object (fs.map fun (key, value) => (key, .string value))) n)
    (hdepth : p.depth = depth + 1) : Yields (stringMap p n) fs := by
  obtain ⟨mark, entries, rfl, hentries⟩ := h
  exact yields_mapping mark hdepth (yields_entries hentries)

/-- The value of an entry stands as deep as its mapping allows. -/
theorem depth_ofKey (p : Place) (k : Node) : (Place.ofKey p k).depth = p.depth := by
  cases k <;> rfl

/-- A known field that comes for the first time is decoded into the record. -/
theorem yields_fields_cons {σ : Type} {known seen : List String} {name : String} {style : ScalarStyle}
    {set : String → Place → Node → σ → Decode σ} {k v : Node} {record next last : σ}
    (hk : k.IsScalar name style) (hknown : name ∈ known) (hnew : name ∉ seen)
    (hset : Yields (set name (Place.ofKey p k) v record) next)
    (hrest : Yields (fields known .ignored set p (name :: seen) entries next) last) :
    Yields (fields known .ignored set p seen ((k, v) :: entries) record) last := by
  obtain ⟨mark, rfl⟩ := hk
  have hname : Yields (fieldName known .ignored p (.scalar { mark } name style)) name :=
    .bind (.pure _) (.bind (yields_string ⟨mark, rfl⟩ _ _) (.pure _))
  rw [fields]
  · refine .bind hname ?_
    rw [if_pos hknown, if_neg hnew]
    exact .bind hset hrest
  · nofun

end Decode

/-! ## Values -/

/-- What the text of a number stands for. -/
def foundNumber : Json.Number → Found
  | .integer n => .integer n
  | .float x => .float x

/-- Whether a number is read back from its text. -/
def ReadsBack (n : Json.Number) : Prop := readPlain (Printer.number n) = foundNumber n

namespace Value

mutual

/-- A JSON value as a value. -/
def ofJson : Json.Value → Value
  | .null => .null
  | .bool b => .bool b
  | .number (.integer n) => .integer n
  | .number (.float x) => .float x
  | .string s => .string s
  | .array xs => .sequence (ofJsonItems xs)
  | .object fs => .mapping (ofJsonFields fs)

/-- The items of an array as values. -/
def ofJsonItems : List Json.Value → List Value
  | [] => []
  | x :: xs => ofJson x :: ofJsonItems xs

/-- The fields of an object as entries. -/
def ofJsonFields : List (String × Json.Value) → List (Value × Value)
  | [] => []
  | (key, v) :: fs => (.string key, ofJson v) :: ofJsonFields fs

end

open Decode (Yields)

variable {v : Json.Value} {n : Node} {r : Reading} {p : Place} {fuel : Nat}

/-- A scalar is decoded as what it stands for. -/
theorem yields_scalar {text : String} {style : ScalarStyle} {x : Found} {v : Value}
    (hn : n.IsScalar text style) (hx : readScalar none text style = .ok x)
    (hv : ofFound r.expected x = .ok v) : Yields (readWith r (fuel + 1) p n) v := by
  obtain ⟨mark, rfl⟩ := hn
  have hbind : (readScalar none text style >>= ofFound r.expected) = .ok v := by rw [hx, ← hv]; rfl
  have hvalue : Yields (readScalarValue r none text style) v := by
    unfold readScalarValue
    rw [hbind]
    exact .pure v
  exact .bind (.pure _) (hvalue.located mark p.path)

/-- Whether a node that shows a value is decoded as the value. -/
def DecodesValue (v : Json.Value) : Prop :=
  ∀ {n : Node} {r : Reading} {p : Place} {fuel : Nat}, Shows v n → v.IsRegular ReadsBack p.depth →
    p.depth < fuel → Yields (readWith r fuel p n) (ofJson v)

/-- Whether nodes that show items are decoded as the items. -/
def DecodesItems (xs : List Json.Value) : Prop :=
  ∀ {ns : List Node} {r : Reading} {p : Place} {fuel i : Nat}, ShowsItems xs ns →
    Json.Value.RegularItems ReadsBack p.depth xs → p.depth < fuel →
    Yields (Decode.items (readWith r fuel) p i ns) (ofJsonItems xs)

/-- Whether entries that show fields are decoded as the fields, after others with different keys. -/
def DecodesFields (fs : List (String × Json.Value)) : Prop :=
  ∀ {es : List (Node × Node)} {r : Reading} {p : Place} {fuel : Nat} {done : List (Value × Value)},
    ShowsEntries fs es → (Fields.keys fs).Nodup → Json.Value.RegularFields ReadsBack p.depth fs →
    p.depth < fuel → (∀ e ∈ done, ∀ key ∈ Fields.keys fs, e.1.sameKey (.string key) = false) →
    Yields (readEntries r (readWith r fuel) p done es) (done.reverse ++ ofJsonFields fs)

/-- A node that shows a value begins neither the end of a broken text nor an alias. -/
theorem ne_of_shows (h : Shows v n) : n ≠ .missing ∧ ∀ mark i, n ≠ .aliasOf mark i := by
  have hscalar {text : String} {style : ScalarStyle} (h : n.IsScalar text style) :
      n ≠ .missing ∧ ∀ mark i, n ≠ .aliasOf mark i := by
    obtain ⟨mark, rfl⟩ := h
    exact ⟨nofun, nofun⟩
  cases v with
  | null | bool | number => exact hscalar h
  | string s =>
    obtain ⟨style, h, -⟩ := h
    exact hscalar h
  | array xs =>
    obtain ⟨mark, items, rfl, -⟩ := h
    exact ⟨nofun, nofun⟩
  | object fs =>
    obtain ⟨mark, entries, rfl, -⟩ := h
    exact ⟨nofun, nofun⟩

/-- Items are decoded one after the other. -/
theorem decodesItems_cons {x : Json.Value} {xs : List Json.Value} (hx : DecodesValue x)
    (hxs : DecodesItems xs) : DecodesItems (x :: xs) := by
  rintro _ r p fuel i ⟨n, ns, rfl, hshows, hrest⟩ hregular hfuel
  have hne := (ne_of_shows hshows).1
  have hitems : Decode.items (readWith r fuel) p i (n :: ns) = (do
      let y ← readWith r fuel { p with path := p.path.item i } n
      return y :: (← Decode.items (readWith r fuel) p (i + 1) ns)) := by
    rw [Decode.items]
    rintro rfl
    exact hne rfl
  rw [hitems]
  exact .bind (hx hshows hregular.1 hfuel) (.bind (hxs hrest hregular.2 hfuel) (.pure _))

/-- Fields are decoded one after the other. -/
theorem decodesFields_cons {key : String} {v : Json.Value} {fs : List (String × Json.Value)}
    (hv : DecodesValue v) (hfs : DecodesFields fs) : DecodesFields ((key, v) :: fs) := by
  rintro _ r p fuel done ⟨k, n, es, rfl, hkey, hshows, hrest⟩ hnodup hregular hfuel hdone
  obtain ⟨mark, rfl⟩ := hkey
  obtain ⟨hnotin, hnodup⟩ := List.nodup_cons.1 hnodup
  obtain ⟨fuel, rfl⟩ : ∃ k, fuel = k + 1 := ⟨fuel - 1, by omega⟩
  have hname : Yields (readWith r (fuel + 1) p (.scalar { mark } key (Printer.style key))) (.string key) :=
    yields_scalar ⟨mark, rfl⟩ (readScalar_style key) rfl
  -- The keys are distinct, so none is refused as coming twice.
  have hfresh : (r.distinctKeys && done.any fun e => e.1.sameKey (.string key)) = false := by
    rw [Bool.and_eq_false_iff]
    refine .inr (List.any_eq_false.2 fun e he => ?_)
    rw [hdone e he key List.mem_cons_self]
    exact Bool.false_ne_true
  have hlater : ∀ e ∈ (Value.string key, ofJson v) :: done, ∀ other ∈ Fields.keys fs,
      e.1.sameKey (.string other) = false := by
    intro e he other hother
    rcases List.mem_cons.1 he with rfl | he
    · refine decide_eq_false ?_
      rintro rfl
      exact hnotin hother
    · exact hdone e he other (List.mem_cons_of_mem _ hother)
  have hnext := hfs (r := r) hrest hnodup hregular.2 hfuel hlater
  rw [List.reverse_cons, List.append_assoc] at hnext
  rw [readEntries]
  · refine .bind hname ?_
    rw [hfresh]
    exact .bind (hv hshows hregular.1 hfuel) hnext
  · nofun

/-- Nodes that show values, items and fields are decoded as these. -/
theorem decodes_all : (∀ v, DecodesValue v) ∧ (∀ xs, DecodesItems xs) ∧ ∀ fs, DecodesFields fs := by
  -- Each collection takes one of the fuel, of which there is more than the depth.
  refine Json.Value.induction ?null ?bool ?number ?string ?array ?object ?noItem
    (fun _ _ hx hxs => decodesItems_cons hx hxs) ?noField
    (fun _ _ _ hv hfs => decodesFields_cons hv hfs)
  case null =>
    rintro n r p (_ | fuel) hshows - hfuel
    · omega
    · exact yields_scalar hshows rfl rfl
  case bool =>
    rintro b n r p (_ | fuel) hshows - hfuel
    · omega
    · cases b <;> exact yields_scalar hshows rfl rfl
  case number =>
    rintro x n r p (_ | fuel) hshows hregular hfuel
    · omega
    · have hread : readPlain (Printer.number x) = foundNumber x :=
        Json.Value.isRegular_number.1 hregular
      have hscalar : readScalar none (Printer.number x) .plain = .ok (foundNumber x) := by
        rw [← hread]
        rfl
      cases x <;> exact yields_scalar hshows hscalar rfl
  case string =>
    rintro s n r p (_ | fuel) ⟨style, hshows, hread⟩ - hfuel
    · omega
    · exact yields_scalar hshows hread rfl
  case array =>
    rintro xs ih n r p (_ | fuel) ⟨mark, items, rfl, hshows⟩ hregular hfuel
    · omega
    · obtain ⟨depth, hdepth, hregular⟩ := Json.Value.isRegular_array.1 hregular
      have hitems : Yields (Decode.items (readWith r fuel) { p with depth } 0 items) (ofJsonItems xs) :=
        ih hshows hregular (by show depth < fuel; omega)
      have henter : Yields (Decode.enter mark p fun p => do
          return sequence (← Decode.items (readWith r fuel) p 0 items)) (.sequence (ofJsonItems xs)) :=
        .enter mark hdepth (hitems.bind (.pure _))
      exact .bind (.pure _) (henter.located mark p.path)
  case object =>
    rintro fs ih n r p (_ | fuel) ⟨mark, entries, rfl, hshows⟩ hregular hfuel
    · omega
    · obtain ⟨depth, hdepth, hkeys, hregular⟩ := Json.Value.isRegular_object.1 hregular
      have hentries : Yields (readEntries r (readWith r fuel) { p with depth } [] entries)
          (ofJsonFields fs) := ih hshows hkeys hregular (by show depth < fuel; omega) nofun
      have henter : Yields (Decode.enter mark p fun p => do
          return mapping (← readEntries r (readWith r fuel) p [] entries)) (.mapping (ofJsonFields fs)) :=
        .enter mark hdepth (hentries.bind (.pure _))
      exact .bind (.pure _) (henter.located mark p.path)
  case noItem =>
    rintro _ r p fuel i rfl - -
    exact .pure []
  case noField =>
    rintro _ r p fuel done rfl - - - -
    rw [readEntries, ofJsonFields, List.append_nil]
    exact .pure _

end Value

end ProviderAssets.Yaml
