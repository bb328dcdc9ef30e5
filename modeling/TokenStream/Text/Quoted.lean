import TokenStream.Text.DefaultIgnorable
import TokenStream.Text.ExtendingMark
import TokenStream.Text.OtherOrSeparator

/-!
# Quoted texts

A text is put between quotes so that every character of it can be told on sight.  A quote and a
backslash stand behind a backslash; a character that would not show, or would merge with the one
before it, is written by its code point in braces, or by a letter if it has one.
-/

namespace TokenStream.Text

/-- Whether a character shows as a character of its own.  Of the blanks only the space does. -/
def isPlain (c : Char) : Bool :=
  c == ' '
    || !(CodePoints.otherOrSeparator.contains c || CodePoints.extendingMark.contains c
      || CodePoints.defaultIgnorable.contains c)

/-- A character as it is written between quotes. -/
def quotedChar (c : Char) : List Char :=
  match c with
  | '"' => ['\\', '"']
  | '\\' => ['\\', '\\']
  | '\t' => ['\\', 't']
  | '\n' => ['\\', 'n']
  | '\r' => ['\\', 'r']
  | '\x00' => ['\\', '0']
  | c => if isPlain c then [c] else ['\\', 'u', '{'] ++ Nat.toDigits 16 c.toNat ++ ['}']

/-- A text in quotes. -/
def quoted (text : String) : String :=
  "\"" ++ String.ofList (text.toList.flatMap quotedChar) ++ "\""

end TokenStream.Text
