import Sagas.Text.Unprintable

/-!
# Quoted texts

A text between double quotes, as it is shown within a message: quotes and backslashes stand behind
a backslash, line breaks, tabs and the zero character have letters, and other characters that are
not shown have their code point in braces.
-/

namespace Sagas.Text.Quoted

def escape (c : Char) : List Char :=
  match c with
  | '\x00' => ['\\', '0']
  | '\t' => ['\\', 't']
  | '\r' => ['\\', 'r']
  | '\n' => ['\\', 'n']
  | '"' => ['\\', '"']
  | '\\' => ['\\', '\\']
  | c =>
    if isUnprintable c then '\\' :: 'u' :: '{' :: Nat.toDigits 16 c.toNat ++ ['}'] else [c]

def quote (s : String) : String :=
  String.ofList ('"' :: s.toList.flatMap escape ++ ['"'])

example : escape '\u2003' = ['\\', 'u', '{', '2', '0', '0', '3', '}'] := by decide +kernel
example : escape 'é' = ['é'] := by decide +kernel

end Sagas.Text.Quoted
