import RunnerPool.Json.Value
import RunnerPool.Number.Shortest

/-! # Writing JSON

The compact text of a value: no blanks, members in the order in which they stand.

* `Text.written cs`    a text between quotes, with the escapes that JSON asks for
* `Value.chars v`      the text of a value as characters
* `Value.compact v`    the same as a string -/

namespace RunnerPool.Json

/-- A digit of base sixteen in lower case. -/
def hexDigit (n : Nat) : Char :=
  Nat.digitChar n

/-- One character inside the quotes: the quote, the backslash and the controls are escaped, all
    else stands for itself. -/
def escapedChar (c : Char) : List Char :=
  match c with
  | '"' => ['\\', '"']
  | '\\' => ['\\', '\\']
  | '\x08' => ['\\', 'b']
  | '\x0c' => ['\\', 'f']
  | '\n' => ['\\', 'n']
  | '\r' => ['\\', 'r']
  | '\t' => ['\\', 't']
  | c =>
    if c.toNat < 0x20 then ['\\', 'u', '0', '0', hexDigit (c.toNat / 16), hexDigit (c.toNat % 16)]
    else [c]

/-- A text between quotes. -/
def textChars (s : String) : List Char :=
  '"' :: (s.toList.flatMap escapedChar ++ ['"'])

/-- Floats show a point or an exponent: positional from five places left of the point to sixteen
    right of it. -/
def floatLayout : Layout where
  maxPoint := some 16
  minPoint := some (-4)
  wholeEnding := ['.', '0']
  tie := .toEven

/-- The text of a number. -/
def Number.chars : Number → List Char
  | .int n => Digits.ofInt n
  | .float x => floatLayout.write x

namespace Value

mutual

/-- The compact text of a value. -/
def chars : Value → List Char
  | .null => ['n', 'u', 'l', 'l']
  | .bool true => ['t', 'r', 'u', 'e']
  | .bool false => ['f', 'a', 'l', 's', 'e']
  | .number n => n.chars
  | .text s => textChars s
  | .array [] => ['[', ']']
  | .array (x :: xs) => '[' :: (chars x ++ itemsChars xs)
  | .object [] => ['{', '}']
  | .object ((k, x) :: ms) => '{' :: (textChars k ++ ':' :: (chars x ++ membersChars ms))
termination_by structural v => v

/-- The items after the first, each behind a comma, and the closing bracket. -/
def itemsChars : List Value → List Char
  | [] => [']']
  | x :: xs => ',' :: (chars x ++ itemsChars xs)
termination_by structural xs => xs

/-- The members after the first, each behind a comma, and the closing brace. -/
def membersChars : List (String × Value) → List Char
  | [] => ['}']
  | (k, x) :: ms => ',' :: (textChars k ++ ':' :: (chars x ++ membersChars ms))
termination_by structural ms => ms

end

/-- The compact text of a value. -/
def compact (v : Value) : String :=
  String.ofList v.chars

end Value

end RunnerPool.Json
