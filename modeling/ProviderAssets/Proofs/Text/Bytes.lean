import ProviderAssets.Text.Cut
import Mathlib.Data.Char
import Mathlib.Data.List.Basic
import Mathlib.Data.List.Lex

/-!
# The bytes of a text

The bytes of a text in UTF-8 are those of its characters, one after the other, and the text is read
back from them. A character of ASCII is one byte; all bytes of any other character are greater than
those of ASCII, so a reader that looks for such a character finds none inside another one. Texts and
their bytes are in the same order (`toUTF8_lt`).
-/

namespace ProviderAssets.Text

variable {c d : Char} {b : UInt8}

/-- The bytes that are listed from an index on. -/
theorem toList_loop (bytes : ByteArray) (i : Nat) (r : List UInt8) :
    ByteArray.toList.loop bytes i r = r.reverse ++ bytes.data.toList.drop i := by
  fun_induction ByteArray.toList.loop bytes i r with
  | case1 i r h ih =>
    have hi : i < bytes.data.toList.length := h
    have hget : bytes.get! i = bytes.data.toList[i] := getElem!_pos bytes.data i h
    rw [ih, List.drop_eq_getElem_cons hi, hget]
    simp
  | case2 i r h =>
    have hi : bytes.data.toList.length ≤ i := Nat.not_lt.1 h
    rw [List.drop_eq_nil_of_le hi, List.append_nil]

/-- The bytes of an array, as a list. -/
theorem toList_bytes (bytes : ByteArray) : bytes.toList = bytes.data.toList :=
  toList_loop bytes 0 []

/-- The bytes of a text are those of its characters. -/
theorem toList_toUTF8 (s : String) : s.toUTF8.toList = s.toList.flatMap String.utf8EncodeChar := by
  have hbytes : s.toUTF8 = s.toList.utf8Encode := String.utf8Encode_toList.symm
  rw [hbytes, toList_bytes, List.utf8Encode, List.data_toByteArray]

/-- A text is read back from its bytes. -/
theorem ofBytes?_toUTF8 (s : String) : ofBytes? s.toUTF8.toList = some s := by
  have hvalid : s.toUTF8.IsValidUTF8 := s.isValidUTF8
  have hsame : (⟨s.toUTF8.toList.toArray⟩ : ByteArray) = s.toUTF8 := by
    rw [toList_bytes]
  rw [ofBytes?, hsame, String.fromUTF8?, dif_pos hvalid]
  rfl

/-- A text that bytes are read as has these bytes. -/
theorem toUTF8_of_ofBytes? {bytes : List UInt8} {s : String} (h : ofBytes? bytes = some s) :
    s.toUTF8.toList = bytes := by
  rw [ofBytes?, String.fromUTF8?] at h
  split at h <;> cases h
  rw [toList_bytes]
  rfl

/-- A character of ASCII is one byte. -/
theorem utf8EncodeChar_ascii (h : c.toNat < 128) : String.utf8EncodeChar c = [c.toUInt8] := by
  have hle : c.val.toNat ≤ 127 := Nat.le_of_lt_succ h
  rw [String.utf8EncodeChar.eq_1, if_pos hle]
  rfl

/-- The bytes of a character beyond ASCII are beyond it as well. -/
theorem le_of_mem_utf8EncodeChar (h : 128 ≤ c.toNat) (hb : b ∈ String.utf8EncodeChar c) :
    128 ≤ b.toNat := by
  have hgt : ¬ c.val.toNat ≤ 127 := Nat.not_le.2 h
  -- A byte is a marker of at least 128 with some bits of the code point below it.
  have hbyte {n k m : Nat} (hk : 0 < k) (hm : 128 ≤ m) (hsum : k + m ≤ 256) :
      128 ≤ (UInt8.ofNat (n % k + m)).toNat := by
    have hlt : n % k < k := Nat.mod_lt n hk
    rw [UInt8.toNat_ofNat', Nat.mod_eq_of_lt (by omega)]
    omega
  rw [String.utf8EncodeChar.eq_1, if_neg hgt] at hb
  split at hb
  · rcases List.mem_cons.1 hb with rfl | hb
    · exact hbyte (by decide) (by decide) (by decide)
    · rw [List.mem_singleton.1 hb]
      exact hbyte (by decide) (by decide) (by decide)
  split at hb <;>
  · simp only [List.mem_cons, List.not_mem_nil, or_false] at hb
    rcases hb with rfl | rfl | rfl | rfl
    all_goals exact hbyte (by decide) (by decide) (by decide)

/-! ## The order of texts -/

/-- Bytes that are given by numbers are compared as the numbers are. -/
theorem ofNat_cons_lt_iff {n m : Nat} (hn : n < 256) (hm : m < 256) (as bs : List UInt8) :
    UInt8.ofNat n :: as < UInt8.ofNat m :: bs ↔ n < m ∨ n = m ∧ as < bs := by
  rw [List.cons_lt_cons_iff, UInt8.lt_iff_toNat_lt, ← UInt8.toNat_inj, UInt8.toNat_ofNat',
    UInt8.toNat_ofNat', Nat.mod_eq_of_lt hn, Nat.mod_eq_of_lt hm]

/-- The smaller one of two numbers is smaller without its last digit, or else in this digit. -/
theorem div_lt_or_mod_lt {n m : Nat} (h : n < m) (k : Nat) :
    n / k < m / k ∨ n / k = m / k ∧ n % k < m % k := by
  rcases Nat.lt_or_eq_of_le (Nat.div_le_div_right (c := k) h.le) with hlt | heq
  · exact .inl hlt
  · have hn := Nat.div_add_mod n k
    have hm := Nat.div_add_mod m k
    rw [heq] at hn
    exact .inr ⟨heq, by omega⟩

/-- The bytes of a smaller character come before those of a greater one, whatever follows. -/
theorem utf8EncodeChar_append_lt (h : c < d) (as bs : List UInt8) :
    String.utf8EncodeChar c ++ as < String.utf8EncodeChar d ++ bs := by
  have hlt : c.val.toNat < d.val.toNat := UInt32.lt_iff_toNat_lt.1 (Char.lt_def.1 h)
  have hd : d.val.toNat < 0x110000 := by
    have hvalid := d.valid
    simp only [UInt32.isValidChar, Nat.isValidChar] at hvalid
    omega
  -- Each byte after the first one holds a digit of the code point in base 64.
  have hdigits (n : Nat) : n / 4096 = n / 64 / 64 ∧ n / 262144 = n / 64 / 64 / 64 := by
    constructor <;> simp only [Nat.div_div_eq_div_mul]
  rw [String.utf8EncodeChar.eq_1, String.utf8EncodeChar.eq_1, (hdigits _).1, (hdigits _).1,
    (hdigits _).2, (hdigits _).2]
  generalize c.val.toNat = n at hlt hd ⊢
  generalize d.val.toNat = m at hlt hd ⊢
  have hlast := div_lt_or_mod_lt hlt 64
  have hsecond : n / 64 < m / 64 → _ := fun h => div_lt_or_mod_lt h 64
  have hthird : n / 64 / 64 < m / 64 / 64 → _ := fun h => div_lt_or_mod_lt h 64
  -- With the same number of bytes the first digit that differs decides, else the first byte.
  split_ifs <;>
    simp (disch := omega) only [List.cons_append, List.nil_append, ofNat_cons_lt_iff] <;>
    omega

/-- The bytes of characters are ordered as the characters are. -/
theorem flatMap_utf8EncodeChar_lt {cs ds : List Char} (h : cs < ds) :
    cs.flatMap String.utf8EncodeChar < ds.flatMap String.utf8EncodeChar := by
  induction h with
  | @nil d ds =>
    obtain ⟨b, bs, hb⟩ := List.exists_cons_of_ne_nil (String.utf8EncodeChar_ne_nil (c := d))
    rw [List.flatMap_cons, hb]
    exact List.nil_lt_cons ..
  | rel h => exact utf8EncodeChar_append_lt h _ _
  | cons _ ih => exact List.append_left_lt ih

/-- The bytes of texts are ordered as the texts are. -/
theorem toUTF8_lt {s t : String} (h : s < t) : s.toUTF8.toList < t.toUTF8.toList := by
  rw [toList_toUTF8, toList_toUTF8]
  exact flatMap_utf8EncodeChar_lt (String.lt_iff.1 h)

end ProviderAssets.Text
