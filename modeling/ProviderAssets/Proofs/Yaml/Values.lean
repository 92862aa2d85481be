import ProviderAssets.Proofs.Fields
import ProviderAssets.Proofs.Success
import ProviderAssets.Proofs.Yaml.Decoding

/-!
# Values that were read

A value that is read from a document has no more levels than a document may have, and its integers
fit in 64 bits. The JSON value of it has distinct keys, too. So it can be read back.
-/

namespace ProviderAssets

/-- Whether an integer fits in 64 bits, with or without a sign, or a double is finite. -/
def Json.Number.InRange : Json.Number → Prop
  | .integer n => -(2 ^ 63) ≤ n ∧ n < 2 ^ 64
  | .float x => x.isFinite = true

namespace Yaml

/-! ## JSON values -/

namespace Value

open Json.Value (IsRegular RegularItems RegularFields)
open Json.Number (InRange)

/-- What a JSON value is as a value is the JSON value again. -/
theorem toJson_ofJson_all :
    (∀ v : Json.Value, ∀ depth, IsRegular InRange depth v → (ofJson v).toJson = .ok v) ∧
      (∀ xs, ∀ depth, RegularItems InRange depth xs → toJsonItems (ofJsonItems xs) = .ok xs) ∧
      ∀ fs, ∀ depth, RegularFields InRange depth fs → ∀ first acc, (Fields.keys (acc ++ fs)).Nodup →
        toJsonFields first acc (ofJsonFields fs) = .ok (acc ++ fs) := by
  refine Json.Value.induction ?null ?bool ?number ?string ?array ?object ?noItem ?item ?noField ?field
  case null => exact fun _ _ => rfl
  case bool => exact fun _ _ _ => rfl
  case string => exact fun _ _ _ => rfl
  case number =>
    rintro (n | x) depth h
    · rfl
    · have hfinite : x.isFinite = true := Json.Value.isRegular_number.1 h
      rw [ofJson, toJson, if_pos hfinite]
      rfl
  case array =>
    intro xs ih depth h
    obtain ⟨k, rfl, h⟩ := Json.Value.isRegular_array.1 h
    rw [ofJson, toJson, ih k h]
    rfl
  case object =>
    intro fs ih depth h
    obtain ⟨k, rfl, hkeys, h⟩ := Json.Value.isRegular_object.1 h
    rw [ofJson, toJson, ih k h true [] hkeys]
    rfl
  case noItem => exact fun _ _ => rfl
  case item =>
    intro x xs hx hxs depth h
    rw [ofJsonItems, toJsonItems, hx depth h.1, hxs depth h.2]
    rfl
  case noField =>
    intro depth _ first acc _
    rw [ofJsonFields, toJsonFields, List.append_nil]
    rfl
  case field =>
    intro key v fs hv hfs depth h first acc hkeys
    -- The key is not among those before it, so its field comes after them.
    have hnew : key ∉ Fields.keys acc := by
      have apart := hkeys
      unfold Fields.keys at apart
      rw [List.map_append, List.nodup_append] at apart
      intro hmem
      exact apart.2.2 _ hmem _ List.mem_cons_self rfl
    rw [List.append_cons] at hkeys ⊢
    rw [ofJsonFields, toJsonFields, hv depth h.1]
    show toJsonFields false (Fields.insert acc key v) (ofJsonFields fs) = _
    rw [Fields.insert_of_not_mem v hnew]
    exact hfs depth h.2 false _ hkeys

/-- The object that a JSON object is as a value is the object again. -/
theorem toObject_ofJson {fs : Json.Object} {depth : Nat} (h : IsRegular InRange depth (.object fs)) :
    (ofJson (.object fs)).toObject = .ok fs := by
  obtain ⟨k, rfl, hkeys, h⟩ := Json.Value.isRegular_object.1 h
  exact toJson_ofJson_all.2.2 fs k h false [] hkeys

/-! ## What is read -/

mutual

/-- Whether a value nests at most `depth` collections, and its integers fit in 64 bits. Keys do not
count. -/
def IsReadable : Nat → Value → Prop
  | _, integer n => -(2 ^ 63) ≤ n ∧ n < 2 ^ 64
  | depth, tagged _ v => IsReadable depth v
  | depth + 1, sequence xs => ReadableItems depth xs
  | depth + 1, mapping es => ReadableEntries depth es
  | 0, sequence _ | 0, mapping _ => False
  | _, _ => True

/-- Whether items are readable. -/
def ReadableItems : Nat → List Value → Prop
  | _, [] => True
  | depth, x :: xs => IsReadable depth x ∧ ReadableItems depth xs

/-- Whether the values of entries are readable. -/
def ReadableEntries : Nat → List (Value × Value) → Prop
  | _, [] => True
  | depth, (_, v) :: es => IsReadable depth v ∧ ReadableEntries depth es

end

/-- An integer is readable if it fits in 64 bits. -/
theorem isReadable_integer {depth : Nat} {n : Int} :
    (integer n).IsReadable depth ↔ -(2 ^ 63) ≤ n ∧ n < 2 ^ 64 := by
  cases depth <;> exact Iff.rfl

/-- A value with a tag is readable if the value is. -/
theorem isReadable_tagged {depth : Nat} {tag : String} {v : Value} :
    (tagged tag v).IsReadable depth ↔ v.IsReadable depth := by
  cases depth <;> exact Iff.rfl

/-- Induction over values, over the items of sequences and over the entries of mappings at once. -/
theorem induction {P : Value → Prop} {Q : List Value → Prop} {R : List (Value × Value) → Prop}
    (null : P .null) (bool : ∀ b, P (.bool b)) (integer : ∀ n, P (.integer n))
    (float : ∀ x, P (.float x)) (string : ∀ s, P (.string s))
    (sequence : ∀ xs, Q xs → P (.sequence xs)) (mapping : ∀ es, R es → P (.mapping es))
    (tagged : ∀ t v, P v → P (.tagged t v)) (noItem : Q []) (item : ∀ x xs, P x → Q xs → Q (x :: xs))
    (noEntry : R []) (entry : ∀ k v es, P v → R es → R ((k, v) :: es)) :
    (∀ v, P v) ∧ (∀ xs, Q xs) ∧ ∀ es, R es := by
  have hvalue (v : Value) : P v :=
    Value.rec (motive_1 := P) (motive_2 := Q) (motive_3 := R) (motive_4 := fun e => P e.2)
      null bool integer float string sequence mapping tagged noItem item noEntry
      (fun e es hv hes => entry e.1 e.2 es hv hes) (fun _ _ _ h => h) v
  refine ⟨hvalue, fun xs => ?_, fun es => ?_⟩
  · induction xs with
    | nil => exact noItem
    | cons x xs ih => exact item x xs (hvalue x) ih
  · induction es with
    | nil => exact noEntry
    | cons e es ih => exact entry e.1 e.2 es (hvalue e.2) ih

/-- The JSON value of a readable value is regular. -/
theorem isRegular_toJson_all :
    (∀ v : Value, ∀ depth w, v.IsReadable depth → v.toJson = .ok w → IsRegular InRange depth w) ∧
      (∀ xs, ∀ depth ws, ReadableItems depth xs → toJsonItems xs = .ok ws →
        RegularItems InRange depth ws) ∧
      ∀ es, ∀ depth first acc fs, ReadableEntries depth es → (Fields.keys acc).Nodup →
        RegularFields InRange depth acc → toJsonFields first acc es = .ok fs →
        (Fields.keys fs).Nodup ∧ RegularFields InRange depth fs := by
  -- A value with a tag has no JSON value, and a field that comes again is written over.
  refine induction ?null ?bool ?integer ?float ?string ?sequence ?mapping ?tagged ?noItem ?item
    ?noEntry ?entry
  case null =>
    rintro depth w - h
    cases h
    exact Json.Value.isRegular_null
  case bool =>
    rintro b depth w - h
    cases h
    exact Json.Value.isRegular_bool b
  case string =>
    rintro s depth w - h
    cases h
    exact Json.Value.isRegular_string s
  case integer =>
    intro n depth w hreadable h
    cases h
    exact Json.Value.isRegular_number.2 (isReadable_integer.1 hreadable)
  case float =>
    rintro x depth w - h
    rw [toJson] at h
    cases hfinite : x.isFinite with
    | true =>
      rw [hfinite] at h
      cases h
      exact Json.Value.isRegular_number.2 hfinite
    | false =>
      rw [hfinite] at h
      cases h
      exact Json.Value.isRegular_null
  case sequence =>
    rintro xs ih (_ | depth) w hreadable h
    · exact hreadable.elim
    · rw [toJson] at h
      obtain ⟨ws, hws, h⟩ := bind_eq_ok.1 h
      cases h
      exact ih depth ws hreadable hws
  case mapping =>
    rintro es ih (_ | depth) w hreadable h
    · exact hreadable.elim
    · rw [toJson] at h
      obtain ⟨fs, hfs, h⟩ := bind_eq_ok.1 h
      cases h
      exact ih depth true [] fs hreadable .nil trivial hfs
  case tagged =>
    rintro t v - depth w - h
    cases h
  case noItem =>
    rintro depth ws - h
    cases h
    trivial
  case item =>
    intro x xs hx hxs depth ws hreadable h
    rw [toJsonItems] at h
    obtain ⟨w, hw, h⟩ := bind_eq_ok.1 h
    obtain ⟨ws', hws, h⟩ := bind_eq_ok.1 h
    cases h
    exact ⟨hx depth w hreadable.1 hw, hxs depth ws' hreadable.2 hws⟩
  case noEntry =>
    intro depth first acc fs _ hkeys hacc h
    cases h
    exact ⟨hkeys, hacc⟩
  case entry =>
    intro k v es hv hes depth first acc fs hreadable hkeys hacc h
    rw [toJsonFields] at h
    obtain ⟨key, -, h⟩ := bind_eq_ok.1 h
    obtain ⟨w, hw, h⟩ := bind_eq_ok.1 h
    exact hes depth false _ fs hreadable.2 (Fields.nodup_keys_insert hkeys key w)
      (hacc.insert key (hv depth w hreadable.1 hw)) h

/-- A value is readable without its tags, too. -/
theorem isReadable_untagged {depth : Nat} :
    ∀ v : Value, v.IsReadable depth → v.untagged.IsReadable depth
  | tagged _ v, h => isReadable_untagged v (isReadable_tagged.1 h)
  | null, h | bool _, h | integer _, h | float _, h | string _, h | sequence _, h | mapping _, h => h

/-- The object of a readable value is regular. -/
theorem isRegular_toObject {v : Value} {depth : Nat} {o : Json.Object}
    (hreadable : v.IsReadable (depth + 1)) (h : v.toObject = .ok o) :
    IsRegular InRange (depth + 1) (.object o) := by
  have huntagged := isReadable_untagged v hreadable
  unfold toObject at h
  split at h
  · cases h
    exact ⟨.nil, trivial⟩
  · rename_i es hes
    rw [hes] at huntagged
    exact isRegular_toJson_all.2.2 es depth false [] o huntagged .nil trivial h
  · cases h

end Value

namespace Decode

variable {α β : Type} {x : Decode α} {a : α} {s : Surroundings} {k k' : Nat} {p : Place}

/-- Where a computation succeeds, its parts do one after the other. -/
theorem exists_of_bind {f : α → Decode β} {b : β} (h : (x >>= f) s k = .ok (b, k')) :
    ∃ a j, x s k = .ok (a, j) ∧ f a s j = .ok (b, k') := by
  obtain ⟨⟨a, j⟩, hx, hf⟩ := bind_eq_ok.1 (show (x s k >>= fun r => f r.1 s r.2) = .ok (b, k') from h)
  exact ⟨a, j, hx, hf⟩

/-- A computation that succeeds at a site succeeds anywhere. -/
theorem eq_ok_of_located {mark : Mark} {path : Path} (h : located mark path x s k = .ok (a, k')) :
    x s k = .ok (a, k') := by
  cases hx : x s k with
  | ok r =>
    have hlocated : located mark path x s k = x s k := by
      show tryCatch (x s k) _ = _
      rw [hx]
      rfl
    rwa [hlocated, hx] at h
  | error e =>
    have hlocated : located mark path x s k = .error (e.locate mark path) := by
      show tryCatch (x s k) _ = _
      rw [hx]
      rfl
    rw [hlocated] at h
    cases h

/-- A collection that is opened is one level further in. -/
theorem exists_of_enter {mark : Mark} {body : Place → Decode α}
    (h : enter mark p body s k = .ok (a, k')) :
    ∃ depth, p.depth = depth + 1 ∧ body { p with depth } s k = .ok (a, k') := by
  unfold enter at h
  cases hdepth : p.depth with
  | zero =>
    rw [hdepth] at h
    cases h
  | succ depth =>
    rw [hdepth] at h
    exact ⟨depth, rfl, eq_ok_of_located h⟩

/-- The place where a text breaks off gives nothing. -/
theorem broken_ne_ok : (broken : Decode α) s k ≠ .ok (a, k') := by
  obtain ⟨anchors, limit, _ | fault⟩ := s <;> exact nofun

end Decode

/-- The integers that are read from texts fit in 64 bits. -/
theorem inRange_of_integerOfText? {text : String} {n : Int}
    (h : integerOfText? text = some (.integer n)) : -(2 ^ 63) ≤ n ∧ n < 2 ^ 64 := by
  unfold integerOfText? at h
  split at h
  all_goals
    simp only [bind, Option.bind_eq_some_iff] at h
    obtain ⟨m, -, h⟩ := h
    split at h
    · rename_i hm
      cases h
      simp only [Nat.pow_eq] at hm
      omega
    · split at h <;> cases h

/-- A plain text without a tag stands for integers that fit in 64 bits only. -/
theorem inRange_of_readPlain {text : String} {n : Int} (h : readPlain text = .integer n) :
    -(2 ^ 63) ≤ n ∧ n < 2 ^ 64 := by
  unfold readPlain at h
  split at h
  · cases h
  split at h
  · cases h
  split at h
  · rename_i x hx
    exact inRange_of_integerOfText? (hx.trans (congrArg some h))
  split at h
  · cases h
  · split at h <;> cases h

/-- A scalar stands for integers that fit in 64 bits only. -/
theorem inRange_of_readScalar {tag : Option String} {text : String} {style : ScalarStyle} {n : Int}
    (h : readScalar tag text style = .ok (.integer n)) : -(2 ^ 63) ≤ n ∧ n < 2 ^ 64 := by
  have hplain (h : (if style = .plain then readPlain text else .string text) = .integer n) :
      -(2 ^ 63) ≤ n ∧ n < 2 ^ 64 := by
    split at h
    · exact inRange_of_readPlain h
    · cases h
  -- A tag of the core schema decides what the text must be; no tag and one of the document's own do not.
  unfold readScalar at h
  generalize (if style = .plain then readPlain text else .string text) = plain at h hplain
  cases tag with
  | none => exact hplain (Except.ok.inj h)
  | some tag =>
    dsimp only at h
    by_cases hbool : tag = coreTag "bool"
    · rw [if_pos hbool] at h
      cases hx : boolOfText? text <;> rw [hx] at h <;> cases h
    rw [if_neg hbool] at h
    by_cases hint : tag = coreTag "int"
    · rw [if_pos hint] at h
      cases hx : integerOfText? text <;> rw [hx] at h <;> cases h
      exact inRange_of_integerOfText? hx
    rw [if_neg hint] at h
    by_cases hfloat : tag = coreTag "float"
    · rw [if_pos hfloat] at h
      cases hx : floatOfText? text <;> rw [hx] at h <;> cases h
    rw [if_neg hfloat] at h
    by_cases hnull : tag = coreTag "null"
    · rw [if_pos hnull] at h
      cases hx : isNullText text <;> rw [hx] at h <;> cases h
    rw [if_neg hnull] at h
    split at h
    · exact hplain (Except.ok.inj h)
    · cases h

namespace Value

variable {r : Reading} {s : Surroundings} {k k' depth : Nat} {p : Place} {value : Decoder Value}

/-- What is read with a tag is readable if the contents are. -/
theorem isReadable_readTagged {tag : Option String} {contents : Decode Value} {v : Value}
    (hcontents : ∀ {w j}, contents s k = .ok (w, j) → w.IsReadable depth)
    (h : readTagged r tag contents s k = .ok (v, k')) : v.IsReadable depth := by
  unfold readTagged at h
  cases htag : ownTag? tag with
  | none =>
    rw [htag] at h
    exact hcontents h
  | some name =>
    rw [htag] at h
    cases hkeeps : r.keepsTags with
    | false =>
      simp only [hkeeps, Bool.false_eq_true, if_false] at h
      cases h
    | true =>
      simp only [hkeeps, if_true] at h
      obtain ⟨w, j, hw, h⟩ := Decode.exists_of_bind h
      cases h
      exact isReadable_tagged.2 (hcontents hw)

/-- The value of a scalar is readable. -/
theorem isReadable_readScalarValue {tag : Option String} {text : String} {style : ScalarStyle} {v : Value}
    (h : readScalarValue r tag text style s k = .ok (v, k')) : v.IsReadable depth := by
  refine isReadable_readTagged (fun {w j} h => ?_) h
  cases hread : readScalar tag text style >>= ofFound r.expected with
  | error m =>
    simp only [hread] at h
    cases h
  | ok v =>
    simp only [hread] at h
    cases h
    obtain ⟨x, hx, hv⟩ := bind_eq_ok.1 hread
    cases x with
    | integer n =>
      cases hv
      exact isReadable_integer.2 (inRange_of_readScalar hx)
    | _ => cases hv <;> cases depth <;> trivial

/-- Items are readable if each one is. -/
theorem readableItems_items
    (hvalue : ∀ {p : Place} {n : Node} {s : Surroundings} {k k' : Nat} {v : Value},
      value p n s k = .ok (v, k') → v.IsReadable p.depth) {i : Nat} {ns : List Node} {vs : List Value}
    (h : Decode.items value p i ns s k = .ok (vs, k')) : ReadableItems p.depth vs := by
  induction ns generalizing i k vs with
  | nil =>
    cases h
    trivial
  | cons n ns ih =>
    by_cases hn : n = .missing
    · rw [hn] at h
      exact absurd h Decode.broken_ne_ok
    · rw [Decode.items] at h
      · obtain ⟨v, j, hv, h⟩ := Decode.exists_of_bind h
        obtain ⟨ws, j', hws, h⟩ := Decode.exists_of_bind h
        cases h
        have hreadable := hvalue hv
        exact ⟨hreadable, ih hws⟩
      · exact hn

/-- Entries are readable if the value of each one is. -/
theorem readableEntries_iff {es : List (Value × Value)} :
    ReadableEntries depth es ↔ ∀ e ∈ es, e.2.IsReadable depth := by
  induction es with
  | nil => exact ⟨fun _ => nofun, fun _ => trivial⟩
  | cons e es ih =>
    rw [List.forall_mem_cons, ← ih]
    exact Iff.rfl

/-- Entries are readable if each one is. -/
theorem readableEntries_readEntries
    (hvalue : ∀ {p : Place} {n : Node} {s : Surroundings} {k k' : Nat} {v : Value},
      value p n s k = .ok (v, k') → v.IsReadable p.depth) {done : List (Value × Value)}
    {es : List (Node × Node)} {vs : List (Value × Value)}
    (hdone : ∀ e ∈ done, e.2.IsReadable p.depth)
    (h : readEntries r value p done es s k = .ok (vs, k')) : ReadableEntries p.depth vs := by
  induction es generalizing done k with
  | nil =>
    cases h
    exact readableEntries_iff.2 fun e he => hdone e (List.mem_reverse.1 he)
  | cons e es ih =>
    obtain ⟨n, m⟩ := e
    by_cases hn : n = .missing
    · rw [hn] at h
      exact absurd h Decode.broken_ne_ok
    · rw [readEntries] at h
      · obtain ⟨key, j, -, h⟩ := Decode.exists_of_bind h
        dsimp only at h
        split at h
        · cases h
        obtain ⟨v, j', hv, h⟩ := Decode.exists_of_bind h
        have hreadable := hvalue hv
        rw [Decode.depth_ofKey] at hreadable
        refine ih (fun e he => ?_) h
        rcases List.mem_cons.1 he with rfl | he
        · exact hreadable
        · exact hdone e he
      · exact hn

/-- What is read from a node is readable, whatever the tags and aliases. -/
theorem isReadable_readWith (fuel : Nat) {n : Node} {v : Value}
    (h : readWith r fuel p n s k = .ok (v, k')) : v.IsReadable p.depth := by
  induction fuel generalizing p n s k k' v with
  | zero => cases h
  | succ fuel ih =>
    obtain ⟨m, j, -, h⟩ := Decode.exists_of_bind h
    cases m with
    | absent =>
      cases h
      trivial
    | missing => exact absurd h Decode.broken_ne_ok
    | aliasOf => exact absurd h Decode.broken_ne_ok
    | scalar info text style => exact isReadable_readScalarValue (Decode.eq_ok_of_located h)
    | sequence info xs =>
      refine isReadable_readTagged (fun {w i} h => ?_) (Decode.eq_ok_of_located h)
      obtain ⟨depth, hdepth, h⟩ := Decode.exists_of_enter h
      obtain ⟨ws, i', hws, h⟩ := Decode.exists_of_bind h
      cases h
      rw [hdepth]
      exact readableItems_items (p := { p with depth }) ih hws
    | mapping info es =>
      refine isReadable_readTagged (fun {w i} h => ?_) (Decode.eq_ok_of_located h)
      obtain ⟨depth, hdepth, h⟩ := Decode.exists_of_enter h
      obtain ⟨ws, i', hws, h⟩ := Decode.exists_of_bind h
      cases h
      rw [hdepth]
      exact readableEntries_readEntries (p := { p with depth }) ih (fun _ he => absurd he List.not_mem_nil) hws

end Value

end Yaml

end ProviderAssets
