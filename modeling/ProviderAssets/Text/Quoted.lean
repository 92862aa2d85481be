import ProviderAssets.Text.Property

/-!
# Quoted text

A text between double quotes, as messages show it. Quotes, backslashes and characters that do not
print, or that would join the character before them, are written as escapes.
-/

namespace ProviderAssets.Text

/-- The hexadecimal digits of a number, in lower case. -/
def hex (n : Nat) : List Char := Nat.toDigits 16 n

/-- A character as it stands in a quoted text. -/
def quotedChar (c : Char) : List Char :=
  match c with
  | '\x00' => ['\\', '0']
  | '\t' => ['\\', 't']
  | '\r' => ['\\', 'r']
  | '\n' => ['\\', 'n']
  | '\\' => ['\\', '\\']
  | '"' => ['\\', '"']
  | c =>
    if extendsGrapheme c || !isPrintable c then ['\\', 'u', '{'] ++ hex c.toNat ++ ['}'] else [c]

/-- The text between quotes. -/
def quoted (s : String) : String :=
  String.ofList ('"' :: s.toList.flatMap quotedChar ++ ['"'])

end ProviderAssets.Text
