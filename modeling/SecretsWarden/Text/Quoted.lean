import SecretsWarden.Text.Printable

/-!
# Quoted text

A text between double quotes in which every character can be seen: quotes and backslashes are
escaped, and what would not show is written as its code point in hexadecimal.
-/

namespace SecretsWarden.Text

/-- A character as it stands between quotes. -/
def quoteChar (c : Char) : List Char :=
  match c with
  | '"' => ['\\', '"']
  | '\\' => ['\\', '\\']
  | '\n' => ['\\', 'n']
  | '\r' => ['\\', 'r']
  | '\t' => ['\\', 't']
  | '\x00' => ['\\', '0']
  | c =>
    if isPrintable c && !extendsGrapheme c then [c]
    else '\\' :: 'u' :: '\x7b' :: Nat.toDigits 16 c.toNat ++ ['\x7d']

def quote (s : String) : String :=
  "\"" ++ String.ofList (s.toList.flatMap quoteChar) ++ "\""

end SecretsWarden.Text
