import ProviderAssets.Json.Printer
import ProviderAssets.Json.Reader
import ProviderAssets.Proofs.Text.Bytes

/-!
# Objects of texts are read back

The indented text of an object of texts is read as the fields of the object. What is read depends on
the bytes that are left alone, so `Read.Reads` leaves open which ones came before. Each step of the
reader has a lemma that says which bytes it takes: an escape (`escaped_cases`), the characters of a
string (`reads_stringBytes`), a field (`reads_field`), and the fields after the first one
(`reads_fields`). The main statement is `readFields_pretty`.
-/

namespace ProviderAssets.Json

open Text (toList_toUTF8 ofBytes?_toUTF8 utf8EncodeChar_ascii le_of_mem_utf8EncodeChar)

/-- The bytes of some characters. -/
def bytesOf (cs : List Char) : List UInt8 := cs.flatMap String.utf8EncodeChar

/-- The bytes of a character and of those after it. -/
theorem bytesOf_cons (c : Char) (cs : List Char) :
    bytesOf (c :: cs) = String.utf8EncodeChar c ++ bytesOf cs := rfl

/-- The bytes of characters that come after others come after theirs. -/
theorem bytesOf_append (cs ds : List Char) : bytesOf (cs ++ ds) = bytesOf cs ++ bytesOf ds :=
  List.flatMap_append

namespace Read

variable {α β : Type} {x : Read α} {f : α → Read β} {a : α} {b : β} {cs ds es : List UInt8}

/-- From the bytes `cs`, `x` reads `a` and leaves `ds`, whatever came before. -/
def Reads (x : Read α) (cs : List UInt8) (a : α) (ds : List UInt8) : Prop :=
  ∀ before, ∃ before', x ⟨before, cs⟩ = .ok (a, ⟨before', ds⟩)

/-- What takes no bytes leaves them. -/
theorem Reads.pure (a : α) (cs : List UInt8) : Reads (Pure.pure a) cs a cs :=
  fun before => ⟨before, rfl⟩

/-- A sequence of steps goes on with the bytes that the first one leaves. -/
theorem Reads.bind (hx : Reads x cs a ds) (hf : Reads (f a) ds b es) : Reads (x >>= f) cs b es := by
  intro before
  obtain ⟨before₁, h₁⟩ := hx before
  obtain ⟨before₂, h₂⟩ := hf before₁
  refine ⟨before₂, ?_⟩
  show (x ⟨before, cs⟩ >>= fun p => f p.1 p.2) = _
  rw [h₁]
  exact h₂

/-- A step may look at what is left. -/
theorem Reads.get_bind {f : Input → Read β} (h : ∀ before, Reads (f ⟨before, cs⟩) cs b ds) :
    Reads (get >>= f) cs b ds := fun before => h before before

/-- What was read may be left alone. -/
theorem Reads.discard (hx : Reads x cs a ds) : Reads (discard x) cs () ds := by
  intro before
  obtain ⟨before', h⟩ := hx before
  refine ⟨before', ?_⟩
  show (x ⟨before, cs⟩ >>= fun p => Except.ok ((), p.2)) = _
  rw [h]
  rfl

/-- The next byte is seen. -/
theorem reads_peek (cs : List UInt8) : Reads peek cs cs.head? cs := fun before => ⟨before, rfl⟩

/-- The next byte is read. -/
theorem reads_next (c : UInt8) (cs : List UInt8) : Reads next (c :: cs) (some c) cs :=
  fun before => ⟨c :: before, rfl⟩

/-- A byte is passed over. -/
theorem reads_skip (c : UInt8) (cs : List UInt8) : Reads skip (c :: cs) () cs :=
  (reads_next c cs).discard

/-- Bytes with a property are read up to one that lacks it. -/
theorem reads_takeWhile {p : UInt8 → Bool} (hcs : ∀ c ∈ cs, p c = true)
    (hds : ∀ d ∈ ds.head?, p d = false) : Reads (takeWhile p) (cs ++ ds) cs ds := by
  have htaken : (cs ++ ds).takeWhile p = cs := by
    rw [List.takeWhile_append_of_pos hcs]
    cases ds with
    | nil => exact List.append_nil cs
    | cons d ds =>
      have hd : ¬ p d = true := by simp [hds d rfl]
      rw [List.takeWhile_cons_of_neg hd, List.append_nil]
  intro before
  refine ⟨cs.reverse ++ before, ?_⟩
  show Except.ok ((cs ++ ds).takeWhile p, Input.mk (((cs ++ ds).takeWhile p).reverse ++ before)
    ((cs ++ ds).drop ((cs ++ ds).takeWhile p).length)) = _
  rw [htaken, List.drop_left]

/-- Whether a byte is white space. -/
def isSpace (c : UInt8) : Bool :=
  c = byte ' ' || c = byte '\n' || c = byte '\t' || c = byte '\r'

/-- White space is passed over, and the byte after it is seen. -/
theorem reads_peekToken (hcs : ∀ c ∈ cs, isSpace c = true) (hds : ∀ d ∈ ds.head?, isSpace d = false) :
    Reads peekToken (cs ++ ds) ds.head? ds :=
  (reads_takeWhile hcs hds).discard.bind (reads_peek ds)

/-- The byte that comes next is seen. -/
theorem reads_peekToken_cons {c : UInt8} (hc : isSpace c = false) (cs : List UInt8) :
    Reads peekToken (c :: cs) (some c) (c :: cs) :=
  @reads_peekToken [] (c :: cs) (by simp) (by simpa using hc)

/-! ## Escapes -/

/-- The four digits of a control character are read as its code point. -/
theorem reads_hexEscape {n : Nat} (hn : n < 0x20) (ds : List UInt8) :
    Reads hexEscape (bytesOf ['0', '0', hexDigit (n / 16), hexDigit (n % 16)] ++ ds) n ds := by
  have hdigits : ∀ n < 0x20, (bytesOf ['0', '0', hexDigit (n / 16), hexDigit (n % 16)]).length = 4 ∧
      ((bytesOf ['0', '0', hexDigit (n / 16), hexDigit (n % 16)]).mapM hexValue?).map
        (·.foldl (16 * · + ·) 0) = some n := by decide +kernel
  obtain ⟨hlength, hvalue⟩ := hdigits n hn
  obtain ⟨values, hvalues, hsum⟩ := Option.map_eq_some_iff.1 hvalue
  generalize bytesOf ['0', '0', hexDigit (n / 16), hexDigit (n % 16)] = digits at hlength hvalues
  obtain _ | ⟨a, _ | ⟨b, _ | ⟨c, _ | ⟨d, _ | ⟨e, more⟩⟩⟩⟩⟩ := digits
  case cons.cons.cons.cons.nil =>
    intro before
    refine ⟨d :: c :: b :: a :: before, ?_⟩
    simp only [hexEscape, bind, StateT.bind, get, getThe, MonadStateOf.get, StateT.get, set,
      Except.bind, Pure.pure, Except.pure, List.cons_append, List.nil_append, hvalues]
    rw [← hsum]
    rfl
  all_goals simp at hlength

/-- The bytes of a code point are those of its character. -/
theorem encode_toNat (c : Char) : encode c.toNat = String.utf8EncodeChar c := by
  have hvalid : c.toNat.isValidChar := c.valid
  have hchar : Char.ofNatAux c.toNat hvalid = c := rfl
  rw [encode, dif_pos hvalid, hchar, toList_toUTF8, String.toList_singleton, List.flatMap_singleton]

/-- An escape that gives a control character is read as its bytes. -/
theorem reads_unicodeEscape {c : Char} (hc : c.toNat < 0x20) (ds : List UInt8) :
    Reads unicodeEscape
      (bytesOf ['0', '0', hexDigit (c.toNat / 16), hexDigit (c.toNat % 16)] ++ ds)
      (String.utf8EncodeChar c) ds := by
  refine (reads_hexEscape hc ds).bind ?_
  have hlow : (decide (0xDC00 ≤ c.toNat) && decide (c.toNat ≤ 0xDFFF)) = false := by
    simp; omega
  have hplane : (decide (c.toNat < 0xD800) || decide (0xDBFF < c.toNat)) = true := by
    simp; omega
  rw [hlow, if_neg Bool.false_ne_true, hplane, if_pos rfl, encode_toNat]
  exact Reads.pure _ _

/-- A byte of a string that the reader takes as it is. -/
def IsPlain (b : UInt8) : Prop := b ≠ byte '"' ∧ b ≠ byte '\\' ∧ ¬ b < 0x20

/-- The bytes of a character that needs no escape are plain. -/
theorem isPlain_of_mem {c : Char} (hquote : c ≠ '"') (hback : c ≠ '\\') (hcontrol : ¬ c.toNat < 0x20)
    {b : UInt8} (hb : b ∈ String.utf8EncodeChar c) : IsPlain b := by
  by_cases hascii : c.toNat < 128
  · rw [utf8EncodeChar_ascii hascii] at hb
    obtain rfl := List.mem_singleton.1 hb
    have hnat : c.toUInt8.toNat = c.toNat := by
      show c.toNat % 256 = c.toNat
      omega
    have hne {d : Char} (hd : d.toNat < 128) (hcd : c ≠ d) : c.toUInt8 ≠ byte d := by
      intro h
      have hd' : (byte d).toNat = d.toNat := by
        show d.toNat % 256 = d.toNat
        omega
      exact hcd (Char.toNat_inj.1 (by rw [← hnat, h, hd']))
    refine ⟨hne (by decide) hquote, hne (by decide) hback, fun h => hcontrol ?_⟩
    rw [← hnat]
    exact UInt8.lt_iff_toNat_lt.1 h
  · have hle := le_of_mem_utf8EncodeChar (Nat.not_lt.1 hascii) hb
    refine ⟨?_, ?_, fun h => ?_⟩
    · rintro rfl
      exact absurd hle (by decide)
    · rintro rfl
      exact absurd hle (by decide)
    · have := UInt8.lt_iff_toNat_lt.1 h
      exact absurd (Nat.lt_of_le_of_lt hle this) (by decide)

/-- A character is written as a backslash and an escape, or by itself if its bytes are plain. -/
theorem escaped_cases (c : Char) :
    (∃ es, bytesOf (escaped c) = byte '\\' :: es ∧
      ∀ ds, Reads escape (es ++ ds) (String.utf8EncodeChar c) ds) ∨
    bytesOf (escaped c) = String.utf8EncodeChar c ∧ ∀ b ∈ String.utf8EncodeChar c, IsPlain b := by
  unfold escaped
  split
  case h_8 hquote hback _ _ _ _ _ =>
    by_cases hcontrol : c.toNat < 0x20
    · rw [if_pos hcontrol]
      refine .inl ⟨byte 'u' :: bytesOf ['0', '0', hexDigit (c.toNat / 16), hexDigit (c.toNat % 16)],
        rfl, fun ds => ?_⟩
      exact (reads_next _ _).bind (reads_unicodeEscape hcontrol ds)
    · rw [if_neg hcontrol]
      exact .inr ⟨List.append_nil _, fun b => isPlain_of_mem hquote hback hcontrol⟩
  all_goals exact .inl ⟨[_], rfl, fun ds before => ⟨_, rfl⟩⟩

/-! ## Strings -/

/-- Plain bytes are taken as they are. -/
theorem Reads.plainBytes {fuel : Nat} {bytes : List UInt8} (hcs : ∀ c ∈ cs, IsPlain c) :
    ∀ {text : List UInt8}, Reads (stringBytes fuel (cs.reverse ++ text)) ds bytes es →
      Reads (stringBytes (fuel + cs.length) text) (cs ++ ds) bytes es := by
  induction cs with
  | nil => exact fun h => h
  | cons c cs ih =>
    intro text h
    obtain ⟨⟨hquote, hback, hcontrol⟩, hcs⟩ := List.forall_mem_cons.1 hcs
    refine (reads_next c _).bind ?_
    simp only [if_neg hquote, if_neg hback, if_neg hcontrol]
    refine ih hcs ?_
    rwa [List.reverse_cons, List.append_assoc] at h

/-- What is written between quotes is read as the bytes of the characters that were meant. -/
theorem reads_stringBytes (cs : List Char) (ds : List UInt8) : ∀ {fuel : Nat} {text : List UInt8},
    (bytesOf (cs.flatMap escaped)).length < fuel →
      Reads (stringBytes fuel text) (bytesOf (cs.flatMap escaped) ++ byte '"' :: ds)
        ((bytesOf cs).reverse ++ text) ds := by
  induction cs with
  | nil =>
    intro fuel text hfuel
    obtain ⟨fuel, rfl⟩ : ∃ k, fuel = k + 1 := ⟨fuel - 1, by omega⟩
    refine (reads_next _ _).bind ?_
    exact Reads.pure _ _
  | cons c cs ih =>
    intro fuel text hfuel
    have htext : (bytesOf (c :: cs)).reverse ++ text =
        (bytesOf cs).reverse ++ ((String.utf8EncodeChar c).reverse ++ text) := by
      rw [bytesOf_cons, List.reverse_append, List.append_assoc]
    rw [List.flatMap_cons, bytesOf_append] at hfuel ⊢
    rw [htext, List.append_assoc]
    -- An escape takes one unit of fuel, and any other character one for each of its bytes.
    obtain ⟨es, hes, hescape⟩ | ⟨hself, hplain⟩ := escaped_cases c
    · rw [hes] at hfuel ⊢
      obtain ⟨fuel, rfl⟩ : ∃ k, fuel = k + 1 := ⟨fuel - 1, by omega⟩
      refine (reads_next _ _).bind ?_
      refine (hescape _).bind (ih ?_)
      simp only [List.cons_append, List.length_cons, List.length_append] at hfuel
      omega
    · rw [hself] at hfuel ⊢
      rw [List.length_append] at hfuel
      obtain ⟨k, rfl⟩ : ∃ k, fuel = k + (String.utf8EncodeChar c).length :=
        ⟨fuel - (String.utf8EncodeChar c).length, by omega⟩
      have hk : (bytesOf (cs.flatMap escaped)).length < k := by omega
      exact Reads.plainBytes hplain (ih hk)

/-- A string between quotes is read. -/
theorem reads_string (s : String) (ds : List UInt8) :
    Reads string (bytesOf (quoted s).toList ++ ds) s ds := by
  have hquoted : bytesOf (quoted s).toList ++ ds =
      byte '"' :: (bytesOf (s.toList.flatMap escaped) ++ byte '"' :: ds) := by
    rw [quoted, String.toList_ofList, List.cons_append, bytesOf_cons, bytesOf_append]
    simp only [List.append_assoc]
    rfl
  rw [hquoted]
  refine (reads_skip _ _).bind (Reads.get_bind fun before => ?_)
  refine (reads_stringBytes s.toList ds ?_).bind ?_
  · simp only [List.length_append]
    omega
  · have hback : Text.ofBytes? ((bytesOf s.toList).reverse ++ []).reverse = some s := by
      rw [List.append_nil, List.reverse_reverse, bytesOf, ← toList_toUTF8, ofBytes?_toUTF8]
    rw [hback]
    exact Reads.pure _ _

/-! ## Fields -/

/-- The string of a text begins with a quote. -/
theorem bytesOf_quoted (s : String) : ∃ bytes, bytesOf (quoted s).toList = byte '"' :: bytes := by
  rw [quoted, String.toList_ofList, List.cons_append, bytesOf_cons]
  exact ⟨_, rfl⟩

/-- The bytes of a field on its line. -/
def fieldBytes (e : String × String) : List UInt8 :=
  bytesOf (quoted e.1).toList ++ byte ':' :: byte ' ' :: bytesOf (quoted e.2).toList

/-- A string is read after white space. -/
theorem reads_peekToken_quoted (hcs : ∀ c ∈ cs, isSpace c = true) (s : String) (ds : List UInt8) :
    Reads peekToken (cs ++ (bytesOf (quoted s).toList ++ ds)) (some (byte '"'))
      (bytesOf (quoted s).toList ++ ds) := by
  obtain ⟨bytes, hbytes⟩ := bytesOf_quoted s
  rw [hbytes]
  exact reads_peekToken hcs (by simp; rfl)

/-- A string value is read after white space. -/
theorem reads_stringValue (hcs : ∀ c ∈ cs, isSpace c = true) (s : String) (ds : List UInt8) :
    Reads stringValue (cs ++ (bytesOf (quoted s).toList ++ ds)) s ds := by
  unfold stringValue
  refine (reads_peekToken_quoted hcs s ds).bind ?_
  exact reads_string s ds

/-- The colon after a key is passed over. -/
theorem reads_colon (ds : List UInt8) : Reads colon (byte ':' :: ds) () ds := by
  unfold colon
  exact (reads_peekToken_cons rfl ds).bind (reads_skip _ ds)

/-- A field is read up to the end of its value. -/
theorem reads_field (e : String × String) (ds : List UInt8) :
    Reads field (fieldBytes e ++ ds) e ds := by
  have hvalue := reads_stringValue (List.forall_mem_singleton.2 (rfl : isSpace (byte ' ') = true)) e.2 ds
  rw [List.singleton_append] at hvalue
  rw [fieldBytes, List.append_assoc, List.cons_append, List.cons_append]
  refine (reads_string e.1 _).bind ?_
  refine (reads_colon _).bind ?_
  exact hvalue.bind (Reads.pure _ _)

/-- The white space before a field. -/
def indent : List UInt8 := [byte '\n', byte ' ', byte ' ']

/-- There is nothing else before a field. -/
theorem isSpace_of_mem_indent : ∀ c ∈ indent, isSpace c = true := List.all_eq_true.1 rfl

/-- The lines of the fields after the first one are read, up to the closing brace. -/
theorem reads_fields (entries : List (String × String)) (ds : List UInt8) : ∀ {fuel : Nat},
    entries.length < fuel →
      Reads (fields fuel)
        (entries.flatMap (fun e => byte ',' :: (indent ++ fieldBytes e)) ++
          byte '\n' :: byte '\x7d' :: ds)
        entries (byte '\x7d' :: ds) := by
  induction entries with
  | nil =>
    intro fuel hfuel
    obtain ⟨fuel, rfl⟩ : ∃ k, fuel = k + 1 := ⟨fuel - 1, by omega⟩
    have hbrace : Reads peekToken ([byte '\n'] ++ byte '\x7d' :: ds) (some (byte '\x7d'))
        (byte '\x7d' :: ds) := reads_peekToken (by simp; rfl) (by simp; rfl)
    exact hbrace.bind (Reads.pure _ _)
  | cons e entries ih =>
    intro fuel hfuel
    obtain ⟨fuel, rfl⟩ : ∃ k, fuel = k + 1 := ⟨fuel - 1, by omega⟩
    rw [List.flatMap_cons, List.cons_append, List.cons_append, List.append_assoc, List.append_assoc]
    unfold fields
    refine (reads_peekToken_cons rfl _).bind ?_
    refine (reads_skip _ _).bind ?_
    rw [fieldBytes, List.append_assoc]
    refine (reads_peekToken_quoted isSpace_of_mem_indent e.1 _).bind ?_
    rw [← List.append_assoc]
    refine (reads_field e _).bind ?_
    exact (ih (Nat.lt_of_succ_lt_succ hfuel)).bind (Reads.pure _ _)

/-- The line of a field holds its bytes. -/
theorem bytesOf_fieldLine (e : String × String) :
    bytesOf (fieldLine e).toList = byte ' ' :: byte ' ' :: fieldBytes e := by
  have hspace : bytesOf "  ".toList = [byte ' ', byte ' '] := by decide
  have hcolon : bytesOf ": ".toList = [byte ':', byte ' '] := by decide
  simp only [fieldLine, fieldBytes, String.toList_append, bytesOf_append, hspace, hcolon,
    List.append_assoc, List.cons_append, List.nil_append]

/-- The lines of some fields are those of each one, with a comma before each line but the first. -/
theorem bytesOf_joinWith (e : String × String) (entries : List (String × String)) :
    bytesOf (Text.joinWith ",\n" ((e :: entries).map fieldLine)).toList =
      byte ' ' :: byte ' ' :: (fieldBytes e ++
        entries.flatMap fun e => byte ',' :: (indent ++ fieldBytes e)) := by
  have hcomma : bytesOf ",\n".toList = [byte ',', byte '\n'] := by decide
  induction entries generalizing e with
  | nil =>
    rw [List.flatMap_nil, List.append_nil]
    exact bytesOf_fieldLine e
  | cons e' entries ih =>
    have hjoin : Text.joinWith ",\n" ((e :: e' :: entries).map fieldLine) =
        fieldLine e ++ ",\n" ++ Text.joinWith ",\n" ((e' :: entries).map fieldLine) := rfl
    rw [hjoin, String.toList_append, String.toList_append, bytesOf_append, bytesOf_append, ih,
      bytesOf_fieldLine, hcomma, List.flatMap_cons, indent]
    simp only [List.append_assoc, List.cons_append, List.nil_append]

/-- After an object there may be white space. -/
theorem reads_end (hds : ∀ d ∈ ds, isSpace d = true) : Reads peekToken ds none [] := by
  have h := @reads_peekToken ds [] hds (by simp)
  rwa [List.append_nil] at h

/-- An object without fields is read. -/
theorem reads_document_nil (hds : ∀ d ∈ ds, isSpace d = true) :
    Reads document (byte '\x7b' :: byte '\x7d' :: ds) [] [] := by
  unfold document
  refine (reads_peekToken_cons rfl _).bind ?_
  refine (reads_skip _ _).bind ?_
  refine (reads_peekToken_cons rfl _).bind ?_
  refine (Reads.pure [] _).bind ?_
  refine (reads_skip _ _).bind ?_
  exact (reads_end hds).bind (Reads.pure _ _)

/-- There is a line for each field. -/
theorem length_le_lines (entries : List (String × String)) : entries.length ≤
    (entries.flatMap fun e => byte ',' :: (indent ++ fieldBytes e)).length := by
  induction entries with
  | nil => exact Nat.le_refl 0
  | cons e entries ih =>
    simp only [List.flatMap_cons, List.cons_append, List.length_cons, List.length_append] at ih ⊢
    omega

/-- An object with fields is read. -/
theorem reads_document_cons (e : String × String) (entries : List (String × String))
    (hds : ∀ d ∈ ds, isSpace d = true) :
    Reads document (byte '\x7b' :: (indent ++ (fieldBytes e ++
      (entries.flatMap (fun e => byte ',' :: (indent ++ fieldBytes e)) ++
        byte '\n' :: byte '\x7d' :: ds)))) (e :: entries) [] := by
  have hfields := @reads_fields entries ds
  have hbytes (es : List UInt8) : fieldBytes e ++ es = bytesOf (quoted e.1).toList ++
      (byte ':' :: byte ' ' :: bytesOf (quoted e.2).toList ++ es) := by
    rw [fieldBytes, List.append_assoc]
  -- The number of bytes that are left bounds that of the fields.
  have hlength : entries.length <
      (entries.flatMap (fun e => byte ',' :: (indent ++ fieldBytes e)) ++
        byte '\n' :: byte '\x7d' :: ds).length + 1 := by
    have hle := length_le_lines entries
    rw [List.length_append]
    omega
  generalize entries.flatMap (fun e => byte ',' :: (indent ++ fieldBytes e)) ++
    byte '\n' :: byte '\x7d' :: ds = lines at hfields hlength ⊢
  unfold document
  refine (reads_peekToken_cons rfl _).bind ?_
  refine (reads_skip _ _).bind ?_
  rw [hbytes]
  refine (reads_peekToken_quoted isSpace_of_mem_indent e.1 _).bind ?_
  rw [← hbytes]
  refine (reads_field e _).bind ?_
  refine Reads.get_bind fun before => ?_
  refine (hfields hlength).bind ?_
  refine (Reads.pure (e :: entries) _).bind ?_
  refine (reads_skip _ _).bind ?_
  exact (reads_end hds).bind (Reads.pure _ _)

end Read

/-- The text of an object ends with its brace. -/
theorem exists_toList_pretty (m : SortedFields) : ∃ cs, (pretty m).toList = cs ++ ['\x7d'] := by
  unfold pretty
  split
  · exact ⟨['\x7b'], rfl⟩
  · have hlast : "\n\x7d".toList = ['\n'] ++ ['\x7d'] := rfl
    rw [String.toList_append, hlast, ← List.append_assoc]
    exact ⟨_, rfl⟩

/-- There is no newline at the end of the text of an object, so ending its line adds one. -/
theorem endLine_pretty (m : SortedFields) : Text.endLine (pretty m) = pretty m ++ "\n" := by
  obtain ⟨cs, hcs⟩ := exists_toList_pretty m
  have htrim : Text.trimNewlines (pretty m) = pretty m := by
    rw [Text.trimNewlines, hcs, List.reverse_append, List.reverse_singleton, List.singleton_append,
      List.dropWhile_cons_of_neg (by decide), List.reverse_cons, List.reverse_reverse, ← hcs,
      String.ofList_toList]
  rw [Text.endLine, htrim]

/-- The text of an object of texts is read. -/
theorem Read.reads_document (m : SortedFields) (hds : ∀ d ∈ ds, isSpace d = true) :
    Reads document (bytesOf (pretty m).toList ++ ds) m.entries [] := by
  obtain ⟨_ | ⟨e, entries⟩, hascending⟩ := m
  · have hpretty : pretty ⟨[], hascending⟩ = "\x7b\x7d" := rfl
    have hempty : bytesOf "\x7b\x7d".toList = [byte '\x7b', byte '\x7d'] := by decide
    rw [hpretty, hempty]
    exact reads_document_nil hds
  · have hfirst : bytesOf "\x7b\n".toList = [byte '\x7b', byte '\n'] := by decide
    have hlast : bytesOf "\n\x7d".toList = [byte '\n', byte '\x7d'] := by decide
    have hbytes : bytesOf (pretty ⟨e :: entries, hascending⟩).toList ++ ds =
        byte '\x7b' :: (indent ++ (fieldBytes e ++
          (entries.flatMap (fun e => byte ',' :: (indent ++ fieldBytes e)) ++
            byte '\n' :: byte '\x7d' :: ds))) := by
      have hpretty : pretty ⟨e :: entries, hascending⟩ =
        "\x7b\n" ++ Text.joinWith ",\n" ((e :: entries).map fieldLine) ++ "\n\x7d" := rfl
      rw [hpretty, String.toList_append, String.toList_append, bytesOf_append, bytesOf_append,
        bytesOf_joinWith, hfirst, hlast, indent]
      simp only [List.append_assoc, List.cons_append, List.nil_append]
    rw [hbytes]
    exact reads_document_cons e entries hds

/-- The bytes of an object of texts on lines of its own are read as the fields of the object. -/
theorem readFields_pretty (m : SortedFields) :
    readFields (Text.endLine (pretty m)).toUTF8.toList = .ok m.entries := by
  have hnewline : bytesOf "\n".toList = [Read.byte '\n'] := by decide
  have hbytes : (Text.endLine (pretty m)).toUTF8.toList =
      bytesOf (pretty m).toList ++ [Read.byte '\n'] := by
    rw [endLine_pretty, toList_toUTF8, String.toList_append, ← hnewline, ← bytesOf_append, bytesOf]
  obtain ⟨before, h⟩ := Read.reads_document m
    (List.forall_mem_singleton.2 (rfl : Read.isSpace (Read.byte '\n') = true)) []
  rw [hbytes, readFields, h]
  rfl

end ProviderAssets.Json
