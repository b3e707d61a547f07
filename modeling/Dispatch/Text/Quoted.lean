import Dispatch.Text.Printable

/-! # Quoted texts

* `hex`: a number in lower-case hexadecimal digits.
* `escape`: a character as it stands between quotes: the quote, the backslash and the common
  controls by a backslash and one sign, any other unprintable character by its number in braces.
* `quoted`: a text between double quotes.
-/

namespace Dispatch.Text
set_option autoImplicit false

def hex (n : Nat) : List Char := Nat.toDigits 16 n

def escape (c : Char) : List Char :=
  match c with
  | '"' => ['\\', '"']
  | '\\' => ['\\', '\\']
  | '\n' => ['\\', 'n']
  | '\t' => ['\\', 't']
  | '\r' => ['\\', 'r']
  | '\x00' => ['\\', '0']
  | c => if isPrintable c then [c] else ['\\', 'u', '\x7b'] ++ hex c.toNat ++ ['\x7d']

def quoted (s : String) : String :=
  String.ofList ('"' :: s.toList.flatMap escape ++ ['"'])

end Dispatch.Text
