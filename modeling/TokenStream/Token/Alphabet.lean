import TokenStream.Text.Bytes
import TokenStream.Token.Kind

/-!
# Classes of bytes

Words, numbers and the blanks between tokens are runs of bytes of one class each; symbols are one
or two bytes long.  The classes are ASCII: a byte of a longer character belongs to none of them,
and neither does the byte zero.  Which bytes are in a class is told by `isLetter_iff`, `isDigit_iff`
and `isBlank_iff`, by listing them.
-/

namespace TokenStream

/-- Bytes of words: the letters `a` to `z` and `A` to `Z`, and the underscore. -/
def isLetter (b : UInt8) : Bool :=
  ('a'.toUInt8 ≤ b && b ≤ 'z'.toUInt8) || ('A'.toUInt8 ≤ b && b ≤ 'Z'.toUInt8)
    || b == '_'.toUInt8

theorem isLetter_iff (b : UInt8) : isLetter b = true ↔
    b ∈ Text.bytes "ABCDEFGHIJKLMNOPQRSTUVWXYZabcdefghijklmnopqrstuvwxyz_" := by
  revert b
  apply Text.forall_byte
  decide +kernel

/-- Bytes of numbers: `0` to `9`. -/
def isDigit (b : UInt8) : Bool := '0'.toUInt8 ≤ b && b ≤ '9'.toUInt8

theorem isDigit_iff (b : UInt8) : isDigit b = true ↔ b ∈ Text.bytes "0123456789" := by
  revert b
  apply Text.forall_byte
  decide +kernel

/-- Bytes that only separate tokens: space, tab, line feed, carriage return. -/
def isBlank (b : UInt8) : Bool :=
  b == ' '.toUInt8 || b == '\t'.toUInt8 || b == '\n'.toUInt8 || b == '\r'.toUInt8

theorem isBlank_iff (b : UInt8) : isBlank b = true ↔ b ∈ Text.bytes " \t\n\r" := by
  revert b
  apply Text.forall_byte
  decide +kernel

namespace Kind

/-- The symbol that a byte is by itself. -/
def ofByte? (b : UInt8) : Option Kind :=
  match Char.ofUInt8 b with
  | '=' => some .assign
  | '!' => some .bang
  | '+' => some .plus
  | '-' => some .minus
  | '*' => some .asterisk
  | '/' => some .slash
  | '<' => some .lessThan
  | '>' => some .greaterThan
  | ',' => some .comma
  | ';' => some .semicolon
  | '(' => some .leftParen
  | ')' => some .rightParen
  | '{' => some .leftBrace
  | '}' => some .rightBrace
  | _ => none

/-- The symbol that a one-byte symbol makes together with the byte right behind it. -/
def withNext? (single : Kind) (next : UInt8) : Option Kind :=
  if next == '='.toUInt8 then
    match single with
    | assign => some .equal
    | bang => some .notEqual
    | _ => none
  else none

/-- The symbol at the front of two bytes and its width: two bytes where they make one symbol,
else the first byte alone. -/
def symbol? (current next : UInt8) : Option (Kind × Nat) :=
  (ofByte? current).map fun single =>
    match single.withNext? next with
    | some double => (double, 2)
    | none => (single, 1)

theorem symbol?_width_pos {current next : UInt8} {kind : Kind} {width : Nat}
    (h : symbol? current next = some (kind, width)) : 0 < width := by
  obtain ⟨single, -, hw⟩ := Option.map_eq_some_iff.1 h
  split at hw
  · obtain ⟨-, rfl⟩ := Prod.mk.inj hw
    exact Nat.two_pos
  · obtain ⟨-, rfl⟩ := Prod.mk.inj hw
    exact Nat.one_pos

end Kind

end TokenStream
