import TextGrammar.Text.Visible

/-!
Text in double quotes for diagnostics. A quote and a backslash are written
after a backslash, the usual controls by their letters, and every other
character that would not show by itself as its code point in braces.
-/

namespace TextGrammar.Quoted

def encodeChar (c : Char) : List Char :=
  match c with
  | '"' => ['\\', '"']
  | '\\' => ['\\', '\\']
  | '\n' => ['\\', 'n']
  | '\r' => ['\\', 'r']
  | '\t' => ['\\', 't']
  | '\x00' => ['\\', '0']
  | c =>
      if Visible.isVisible c then
        [c]
      else
        ['\\', 'u', '\x7b'] ++ Nat.toDigits 16 c.toNat ++ ['\x7d']

def encode (text : String) : String :=
  String.ofList ('"' :: text.toList.flatMap encodeChar ++ ['"'])

end TextGrammar.Quoted
