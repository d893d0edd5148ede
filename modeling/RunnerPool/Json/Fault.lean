import RunnerPool.Calendar.Timestamp
import RunnerPool.Text.Utf8
import RunnerPool.Text.Quoted
import RunnerPool.Json.Printer

/-! # What can be wrong with a JSON text

A fault is a cause and a place.  The place is given by how many bytes of the text are left after
the offending one, so that a reader needs to know only what remains of its text; the line and
the column follow from the whole text afterwards.

* `Flaw`       the text is not JSON
* `Mismatch`   the value is not of the wanted form
* `Position`   line and column of a place -/

namespace RunnerPool.Json

/-- Why a text is not JSON. -/
inductive Flaw
  | expectedValue
  | expectedIdent
  | expectedColon
  | expectedCommaOrBracket
  | expectedCommaOrBrace
  | keyMustBeText
  | trailingComma
  | trailingCharacters
  | endInValue
  | endInList
  | endInObject
  | endInText
  | invalidNumber
  | numberOutOfRange
  | invalidEscape
  | controlCharacter
  | loneSurrogate
  | endOfEscape
  | tooDeep
deriving Repr, DecidableEq

/-- The wording of a flaw. -/
def Flaw.message : Flaw → String
  | .expectedValue => "expected value"
  | .expectedIdent => "expected ident"
  | .expectedColon => "expected `:`"
  | .expectedCommaOrBracket => "expected `,` or `]`"
  | .expectedCommaOrBrace => "expected `,` or `\x7d`"
  | .keyMustBeText => "key must be a string"
  | .trailingComma => "trailing comma"
  | .trailingCharacters => "trailing characters"
  | .endInValue => "EOF while parsing a value"
  | .endInList => "EOF while parsing a list"
  | .endInObject => "EOF while parsing an object"
  | .endInText => "EOF while parsing a string"
  | .invalidNumber => "invalid number"
  | .numberOutOfRange => "number out of range"
  | .invalidEscape => "invalid escape"
  | .controlCharacter =>
    "control character (\\u0000-\\u001F) found while parsing a string"
  | .loneSurrogate => "lone leading surrogate in hex escape"
  | .endOfEscape => "unexpected end of hex escape"
  | .tooDeep => "recursion limit exceeded"

/-- The kind of value that was met, and the value itself if it is short. -/
inductive Found
  | null
  | bool (b : Bool)
  | int (n : Int)
  | float (x : Binary64)
  | text (s : String)
  | sequence
  | map
deriving DecidableEq

/-- The wording of what was met. -/
def Found.message : Found → String
  | .null => "null"
  | .bool b => "boolean `" ++ (if b then "true" else "false") ++ "`"
  | .int n => "integer `" ++ String.ofList (Digits.ofInt n) ++ "`"
  | .float x => "floating point `" ++ String.ofList (floatLayout.write x) ++ "`"
  | .text s => "string " ++ Text.quoted s
  | .sequence => "sequence"
  | .map => "map"

/-- Why a value is not of the wanted form. -/
inductive Mismatch
  | kind (found : Found) (expected : String)
  | range (n : Int) (expected : String)
  | missing (field : String)
  | duplicate (field : String)
  | count (given : Nat) (type : String) (wanted : Nat)
  | timestamp (why : Timestamp.Flaw)
  /-- The name is none of several. -/
  | variant (name : String) (known : List String)
deriving DecidableEq

/-- The wording of a mismatch. -/
def Mismatch.message : Mismatch → String
  | .kind found expected => "invalid type: " ++ found.message ++ ", expected " ++ expected
  | .range n expected =>
    "invalid value: integer `" ++ String.ofList (Digits.ofInt n) ++ "`, expected " ++ expected
  | .missing field => "missing field `" ++ field ++ "`"
  | .duplicate field => "duplicate field `" ++ field ++ "`"
  | .count given type wanted =>
    "invalid length " ++ toString given ++ ", expected struct " ++ type ++ " with " ++
      toString wanted ++ (if wanted = 1 then " element" else " elements")
  | .timestamp why => why.message
  | .variant name known =>
    "unknown variant `" ++ name ++ "`, expected one of " ++
      String.intercalate ", " (known.map fun s => "`" ++ s ++ "`")

/-- A cause at a place. -/
structure Fault (Cause : Type) where
  cause : Cause
  /-- How many bytes of the text follow the offending one. -/
  left : Nat
deriving Repr, DecidableEq

namespace Fault

/-- The fault lies in the first byte of what remains, or at the end of the text. -/
def ahead (cause : Cause) (remaining : List Char) : Fault Cause :=
  ⟨cause, Utf8.size remaining - 1⟩

/-- The fault lies just before what remains. -/
def behind (cause : Cause) (remaining : List Char) : Fault Cause :=
  ⟨cause, Utf8.size remaining⟩

/-- The fault is that the text ended. -/
def atEnd (cause : Cause) : Fault Cause :=
  ⟨cause, 0⟩

end Fault

/-- Why a text does not give a value of the wanted form. -/
inductive Cause
  | flaw (f : Flaw)
  | mismatch (m : Mismatch)
deriving DecidableEq

/-- The wording of a cause. -/
def Cause.message : Cause → String
  | .flaw f => f.message
  | .mismatch m => m.message

/-- The same fault among more causes. -/
def Fault.ofFlaw (f : Fault Flaw) : Fault Cause :=
  ⟨.flaw f.cause, f.left⟩

/-- A place in a text: the line, from one, and how many bytes of it were consumed. -/
structure Position where
  line : Nat
  column : Nat
deriving Repr, DecidableEq

namespace Position

/-- The position after the given number of bytes, counting on from another. -/
def advance (p : Position) : List Char → Nat → Position
  | [], _ => p
  | c :: cs, n =>
    if n < c.utf8Size then ⟨p.line, p.column + n⟩
    else if c = '\n' then advance ⟨p.line + 1, 0⟩ cs (n - c.utf8Size)
    else advance ⟨p.line, p.column + c.utf8Size⟩ cs (n - c.utf8Size)

/-- The position in a text at which the given number of bytes is left. -/
def ofLeft (text : List Char) (left : Nat) : Position :=
  advance ⟨1, 0⟩ text (Utf8.size text - left)

/-- The wording of a position. -/
def message (p : Position) : String :=
  " at line " ++ toString p.line ++ " column " ++ toString p.column

end Position

/-- The wording of a fault found in a text. -/
def Fault.messageIn (f : Fault Cause) (text : List Char) : String :=
  f.cause.message ++ (Position.ofLeft text f.left).message

end RunnerPool.Json
