import Formula.Character.Unprintable

namespace Formula

/-! Texts in double quotes, on one line and without unprintable characters. -/

namespace Quoted

/-- A code point in hexadecimal, between braces. -/
def codePoint (character : Char) : List Char :=
  ['\\', 'u', '\x7b'] ++ Nat.toDigits 16 character.toNat ++ ['\x7d']

def escape (character : Char) : List Char :=
  match character with
  | '\x00' => ['\\', '0']
  | '\t' => ['\\', 't']
  | '\r' => ['\\', 'r']
  | '\n' => ['\\', 'n']
  | '"' => ['\\', '"']
  | '\\' => ['\\', '\\']
  | _ => if Character.isUnprintable character then codePoint character else [character]

def text (content : String) : String :=
  String.ofList ('"' :: content.toList.flatMap escape ++ ['"'])

/-- A list of texts in quotes, between square brackets. -/
def list (contents : List String) : String :=
  "[" ++ ", ".intercalate (contents.map text) ++ "]"

end Quoted

end Formula
