import StorageUpgrade.Text.Printable

/-!
# Quoted texts in messages

A value cited in an error message stands between double quotes. The quote, the backslash and the
common controls are escaped by a letter, and a character that cannot be shown is spelled by its
code point in hexadecimal.
-/
namespace StorageUpgrade.Text

def quoteChar (c : Char) : List Char :=
  if c = '"' then ['\\', '"']
  else if c = '\\' then ['\\', '\\']
  else if c = '\n' then ['\\', 'n']
  else if c = '\r' then ['\\', 'r']
  else if c = '\t' then ['\\', 't']
  else if c.toNat = 0 then ['\\', '0']
  else if isPrintable c then [c]
  else ['\\', 'u', '\x7b'] ++ Nat.toDigits 16 c.toNat ++ ['\x7d']

def quoted (s : String) : String :=
  String.ofList ('"' :: s.toList.flatMap quoteChar ++ ['"'])

end StorageUpgrade.Text
