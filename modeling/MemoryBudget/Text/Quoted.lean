import MemoryBudget.Text.Visible

/-!
# Quoted text

A string between double quotes. The quote, the backslash and the usual controls have short escapes; any other
character that is not visible is written as its code point in hexadecimal between braces.
-/

set_option autoImplicit false

namespace MemoryBudget

namespace Text

/-- Lower-case hexadecimal digits, without leading zeros. -/
def hexadecimal (number : Nat) : List Char :=
  Nat.toDigits 16 number

def escape (character : Char) : List Char :=
  match character with
  | '\x00' => ['\\', '0']
  | '\t' => ['\\', 't']
  | '\n' => ['\\', 'n']
  | '\r' => ['\\', 'r']
  | '"' => ['\\', '"']
  | '\\' => ['\\', '\\']
  | _ =>
      if isVisible character then [character]
      else ['\\', 'u', '\x7b'] ++ hexadecimal character.toNat ++ ['\x7d']

def quote (text : String) : String :=
  String.ofList ('"' :: text.toList.flatMap escape ++ ['"'])

end Text

end MemoryBudget
