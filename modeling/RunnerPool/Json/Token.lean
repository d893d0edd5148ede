import RunnerPool.Json.Numeral

/-! # The tokens of a JSON text

Reading goes from characters to tokens to a tree.  A token remembers what remained of the text
before and after it, which is all that a fault needs to tell its place.

* `readText cs`    the text up to its closing quote
* `skipText cs`    the same for a reader that does not want the text: it accepts escapes that
  stand for no character
* `tokens cs`      the tokens of a text, up to the first place that begins none -/

namespace RunnerPool.Json

/-- The blanks between tokens. -/
def isSpace (c : Char) : Bool :=
  c == ' ' || c == '\n' || c == '\t' || c == '\r'

/-! ### Texts -/

/-- The character of a short escape. -/
def unescape? : Char → Option Char
  | '"' => some '"'
  | '\\' => some '\\'
  | '/' => some '/'
  | 'b' => some '\x08'
  | 'f' => some '\x0c'
  | 'n' => some '\n'
  | 'r' => some '\r'
  | 't' => some '\t'
  | _ => none

/-- The value of a digit of base sixteen, of either case. -/
def hexValue? (c : Char) : Option Nat :=
  if '0' ≤ c ∧ c ≤ '9' then some (c.toNat - '0'.toNat)
  else if 'a' ≤ c ∧ c ≤ 'f' then some (c.toNat - 'a'.toNat + 10)
  else if 'A' ≤ c ∧ c ≤ 'F' then some (c.toNat - 'A'.toNat + 10)
  else none

/-- The code unit that four digits of base sixteen name. -/
def unit? (a b c d : Char) : Option Nat := do
  let a ← hexValue? a
  let b ← hexValue? b
  let c ← hexValue? c
  let d ← hexValue? d
  return ((a * 16 + b) * 16 + c) * 16 + d

/-- Whether a code unit is the first of a pair. -/
def isLeading (n : Nat) : Bool :=
  0xd800 ≤ n && n ≤ 0xdbff

/-- Whether a code unit is the second of a pair. -/
def isTrailing (n : Nat) : Bool :=
  0xdc00 ≤ n && n ≤ 0xdfff

/-- The character of a pair of code units. -/
def pairedChar (n m : Nat) : Char :=
  Char.ofNat ((n - 0xd800) * 0x400 + (m - 0xdc00) + 0x10000)

/-- Four digits are missing: the text ends within the next four bytes, or they are no digits. -/
def badUnit (remaining : List Char) : Fault Flaw :=
  if Utf8.size remaining < 4 then .atEnd .endInText
  else ⟨.invalidEscape, Utf8.size remaining - 4⟩

/-- No second code unit follows a first one. -/
def badPair : List Char → Fault Flaw
  | [] => .atEnd .endInText
  | '\\' :: 'u' :: r => badUnit r
  | '\\' :: r => if r.isEmpty then .atEnd .endInText else .ahead .endOfEscape r
  | r => .ahead .endOfEscape r

/-- The text up to its closing quote, and what remains after the quote. -/
def readText : List Char → Except (Fault Flaw) (List Char × List Char)
  | [] => .error (.atEnd .endInText)
  | '"' :: r => .ok ([], r)
  | '\\' :: r =>
    match r with
    | [] => .error (.atEnd .endInText)
    | 'u' :: r =>
      match r with
      | a :: b :: c :: d :: r' =>
        match unit? a b c d with
        | none => .error (badUnit r)
        | some n =>
          -- the second half of a pair must not come first, and the first not alone
          if isTrailing n then .error (.behind .loneSurrogate r')
          else if isLeading n then
            match r' with
            | '\\' :: 'u' :: a :: b :: c :: d :: r'' =>
              match unit? a b c d with
              | none => .error (badPair r')
              | some m =>
                if isTrailing m then
                  (readText r'').map fun (s, rest) => (pairedChar n m :: s, rest)
                else .error (.behind .loneSurrogate r'')
            | _ => .error (badPair r')
          else (readText r').map fun (s, rest) => (Char.ofNat n :: s, rest)
      | _ => .error (badUnit r)
    | e :: r =>
      match unescape? e with
      | some c => (readText r).map fun (s, rest) => (c :: s, rest)
      | none => .error (.ahead .invalidEscape (e :: r))
  | c :: r =>
    if c.toNat < 0x20 then .error (.behind .controlCharacter r)
    else (readText r).map fun (s, rest) => (c :: s, rest)

/-- What remains after the closing quote, for a reader that does not want the text. -/
def skipText : List Char → Except (Fault Flaw) (List Char)
  | [] => .error (.atEnd .endInText)
  | '"' :: r => .ok r
  | '\\' :: r =>
    match r with
    | [] => .error (.atEnd .endInText)
    | 'u' :: r =>
      match r with
      | a :: b :: c :: d :: r' =>
        if (unit? a b c d).isSome then skipText r' else .error (badUnit r)
      | _ => .error (badUnit r)
    | e :: r =>
      if (unescape? e).isSome then skipText r else .error (.ahead .invalidEscape (e :: r))
  | c :: r => if c.toNat < 0x20 then .error (.behind .controlCharacter (c :: r)) else skipText r

/-! ### Tokens -/

/-- A value that holds no other. -/
inductive Scalar
  | null
  | bool (b : Bool)
  | number (n : Number)
  | text (s : String)
deriving DecidableEq

/-- A place where the text ceases to be JSON: the fault as a reader of the value words it, and as
    one that skips the value does. -/
structure Break where
  reading : Fault Flaw
  skipping : Fault Flaw
deriving DecidableEq

/-- A break that both readers word alike. -/
def Break.both (f : Fault Flaw) : Break := ⟨f, f⟩

/-- What a token is. -/
inductive Lexeme
  | openBrace
  | closeBrace
  | openBracket
  | closeBracket
  | colon
  | comma
  /-- A text that is well formed; its escapes may still stand for no character. -/
  | text (value : Except (Fault Flaw) String)
  /-- A word or number that is well formed; the number may be out of range. -/
  | scalar (value : Except (Fault Flaw) Scalar)
  /-- A text, word or number that is not well formed. -/
  | broken (isText : Bool) (why : Break)
  /-- A character that begins no token. -/
  | stray

/-- A token and the text around it. -/
structure Token where
  lexeme : Lexeme
  /-- What remains of the text where the token begins. -/
  start : List Char
  /-- What remains of the text after the token. -/
  rest : List Char

/-- The rest of a word whose first letter was read. -/
def readWord : (letters : List Char) → List Char → Except (Fault Flaw) (List Char)
  | [], r => .ok r
  | _ :: _, [] => .error (.atEnd .endInValue)
  | w :: ws, c :: r => if c = w then readWord ws r else .error (.ahead .expectedIdent (c :: r))

namespace Lexeme

/-- A text whose opening quote was read. -/
def ofText (cs : List Char) : Lexeme × List Char :=
  match readText cs with
  | .ok (s, rest) => (.text (.ok (String.ofList s)), rest)
  | .error f =>
    match skipText cs with
    | .ok rest => (.text (.error f), rest)
    | .error g => (.broken true ⟨f, g⟩, [])

/-- A word whose first letter was read. -/
def ofWord (letters : List Char) (value : Scalar) (cs : List Char) : Lexeme × List Char :=
  match readWord letters cs with
  | .ok rest => (.scalar (.ok value), rest)
  | .error f => (.broken false (.both f), [])

/-- A number from its first character on. -/
def ofNumber (cs : List Char) : Lexeme × List Char :=
  match Numeral.read cs with
  | .error (f, g) => (.broken false ⟨f, g⟩, [])
  | .ok (n, rest) =>
    match n.value with
    | .ok x => (.scalar (.ok (.number x)), rest)
    | .error unread => (.scalar (.error ⟨.numberOutOfRange, Utf8.size rest + unread⟩), rest)

/-- The token that begins with the character, and what remains after it. -/
def scan (c : Char) (cs : List Char) : Lexeme × List Char :=
  match c with
  | '{' => (.openBrace, cs)
  | '}' => (.closeBrace, cs)
  | '[' => (.openBracket, cs)
  | ']' => (.closeBracket, cs)
  | ':' => (.colon, cs)
  | ',' => (.comma, cs)
  | '"' => ofText cs
  | 'n' => ofWord ['u', 'l', 'l'] .null cs
  | 't' => ofWord ['r', 'u', 'e'] (.bool true) cs
  | 'f' => ofWord ['a', 'l', 's', 'e'] (.bool false) cs
  | c => if c = '-' ∨ isDigit c then ofNumber (c :: cs) else (.stray, [])

end Lexeme

/-- The tokens of a text; the fuel bounds the number of its characters. -/
def tokensWithin : (fuel : Nat) → List Char → List Token
  | 0, _ => []
  | _ + 1, [] => []
  | fuel + 1, c :: cs =>
    if isSpace c then tokensWithin fuel cs
    else
      let (l, rest) := Lexeme.scan c cs
      ⟨l, c :: cs, rest⟩ :: tokensWithin fuel rest

/-- The tokens of a text.  A place that begins none, or breaks off, is the last of them. -/
def tokens (cs : List Char) : List Token :=
  tokensWithin cs.length cs

end RunnerPool.Json
