import RunnerPool.Calendar.Date
import RunnerPool.Number.Digits
import RunnerPool.Text.Blank

/-! # Timestamps

A moment to the second, as resources write it.  It is read freely: with blanks between its parts,
numbers of fewer digits, years of any width behind a sign, a fraction of a second that is dropped,
and any offset; it is written in one form, without an offset.

* `Timestamp.read cs`    the moment of a text, or why there is none
* `Timestamp.shown t`    the text of a moment -/

namespace RunnerPool

/-- A moment, by the clock without an offset. -/
structure Timestamp where
  date : Date
  /-- Minutes since the day began. -/
  minute : Nat
  /-- Seconds since the minute began; second 60 is a leap second. -/
  second : Nat
  minute_valid : minute < 24 * 60
  second_valid : second ≤ 60
deriving DecidableEq

namespace Timestamp

/-- Why a text is no timestamp. -/
inductive Flaw
  | outOfRange
  /-- The moment lies before the first year or after the last. -/
  | impossible
  | invalidCharacters
  | endTooSoon
  | trailing
deriving Repr, DecidableEq

/-- The wording of a flaw. -/
def Flaw.message : Flaw → String
  | .outOfRange => "input is out of range"
  | .impossible => "no possible date and time matching input"
  | .invalidCharacters => "input contains invalid characters"
  | .endTooSoon => "premature end of input"
  | .trailing => "trailing input"

/-- A number of one to so many digits. -/
def number (most : Nat) (cs : List Char) : Except Flaw (Nat × List Char) :=
  match Digits.take most cs, cs with
  | ([], _), [] => .error .endTooSoon
  | ([], _), _ => .error .invalidCharacters
  | (ds, rest), _ => .ok (Digits.value ds, rest)

/-- A number of one or two digits within a range, blanks before it. -/
def numberWithin (low high : Nat) (cs : List Char) : Except Flaw (Nat × List Char) := do
  let (n, rest) ← number 2 (Text.trimStart cs)
  if low ≤ n ∧ n ≤ high then return (n, rest) else throw .outOfRange

/-- One character. -/
def mark (c : Char) : List Char → Except Flaw (List Char)
  | [] => .error .endTooSoon
  | d :: rest => if d = c then .ok rest else .error .invalidCharacters

/-- A year behind blanks: up to four digits, or a sign and any number of them; 32 bits hold it. -/
def year (cs : List Char) : Except Flaw (Int × List Char) := do
  let (n, rest) ←
    match Text.trimStart cs with
    | '-' :: r => (number r.length r).map fun (n, rest) => (-(n : Int), rest)
    | '+' :: r => (number r.length r).map fun (n, rest) => ((n : Int), rest)
    | r => (number 4 r).map fun (n, rest) => ((n : Int), rest)
  if Int32.minValue.toInt ≤ n ∧ n ≤ Int32.maxValue.toInt then return (n, rest)
  else throw .outOfRange

/-- Year, month and day; that the month has such a day is not looked at. -/
def datePart (cs : List Char) : Except Flaw ((Int × Nat × Nat) × List Char) := do
  let (y, cs) ← year cs
  let cs ← mark '-' (Text.trimStart cs)
  let (m, cs) ← numberWithin 1 12 cs
  let cs ← mark '-' (Text.trimStart cs)
  let (d, cs) ← numberWithin 1 31 cs
  return ((y, m, d), cs)

/-- What stands between date and time. -/
def divider : List Char → Except Flaw (List Char)
  | [] => .error .endTooSoon
  | c :: rest => if c = 't' ∨ c = 'T' ∨ c = ' ' then .ok rest else .error .invalidCharacters

/-- A fraction, which is dropped. -/
def fraction : List Char → Except Flaw (List Char)
  | '.' :: cs => (number cs.length cs).map (·.2)
  | cs => .ok cs

/-- Hour, minute and second. -/
def timePart (cs : List Char) : Except Flaw ((Nat × Nat × Nat) × List Char) := do
  let (h, cs) ← numberWithin 0 23 cs
  let cs ← mark ':' (Text.trimStart cs)
  let (m, cs) ← numberWithin 0 59 cs
  let cs ← mark ':' (Text.trimStart cs)
  let (s, cs) ← numberWithin 0 60 cs
  let cs ← fraction cs
  return ((h, m, s), cs)

/-- Two digits; of a text shorter than two bytes it is said that it ends. -/
def twoDigits : List Char → Except Flaw (Nat × List Char)
  | a :: b :: rest =>
    if a.isDigit ∧ b.isDigit then .ok (Digits.value [a, b], rest) else .error .invalidCharacters
  | [c] => if c.utf8Size = 1 then .error .endTooSoon else .error .invalidCharacters
  | [] => .error .endTooSoon

/-- Hours and minutes of an offset in minutes, with or without colons and blanks between them. -/
def hoursAndMinutes (cs : List Char) : Except Flaw (Nat × List Char) := do
  let (h, cs) ← twoDigits cs
  let (m, cs) ← twoDigits (cs.dropWhile fun c => c == ':' || Text.isBlank c)
  if m < 60 then return (h * 60 + m, cs) else throw .outOfRange

/-- An offset in minutes: none, or a sign with hours and minutes. -/
def offset (cs : List Char) : Except Flaw (Int × List Char) :=
  match cs with
  | [] => .error .endTooSoon
  | '+' :: r => (hoursAndMinutes r).map fun (n, rest) => (n, rest)
  | '-' :: r | '\u2212' :: r => (hoursAndMinutes r).map fun (n, rest) => (-(n : Int), rest)
  | c :: r =>
    if c.toLower = 'z' then .ok (0, r)
    else if (cs.take 3).map Char.toLower = ['u', 't', 'c'] then .ok (0, cs.drop 3)
    else .error .invalidCharacters

/-- The moment at which a clock that is ahead by so many minutes shows a date and a time. -/
def ofLocal (date : Date) (minute second : Nat) (hm : minute < 24 * 60) (hs : second ≤ 60)
    (ahead : Int) : Except Flaw Timestamp :=
  if h : -(24 * 60) < ahead ∧ ahead < 24 * 60 then
    if ha : ahead ≤ minute then
      if hn : minute - ahead < 24 * 60 then
        .ok ⟨date, (minute - ahead).toNat, second, by omega, hs⟩
      else
        match date.next? with
        | some date => .ok ⟨date, (minute - ahead - 24 * 60).toNat, second, by omega, hs⟩
        | none => .error .impossible
    else
      match date.previous? with
      | some date => .ok ⟨date, (minute - ahead + 24 * 60).toNat, second, by omega, hs⟩
      | none => .error .impossible
  else .error .outOfRange

/-- The moment of a whole text. -/
def read (cs : List Char) : Except Flaw Timestamp := do
  let ((y, month, d), cs) ← datePart cs
  let cs ← divider cs
  let ((h, m, s), cs) ← timePart cs
  let (ahead, cs) ← offset (Text.trimStart cs)
  if !(Text.trimStart cs).isEmpty then throw .trailing
  match Date.ofParts? y month d with
  | none => throw .outOfRange
  | some date =>
    if hm : h * 60 + m < 24 * 60 ∧ s ≤ 60 then ofLocal date (h * 60 + m) s hm.1 hm.2 ahead
    else throw .outOfRange

/-- The text of a year: four digits, with a sign if it is before year 0 or needs more digits. -/
def yearChars (y : Int) : List Char :=
  if y < 0 then '-' :: Digits.padded 4 y.natAbs
  else if 9999 < y then '+' :: Digits.padded 4 y.natAbs
  else Digits.padded 4 y.natAbs

/-- The text of a moment as characters. -/
def chars (t : Timestamp) : List Char :=
  yearChars t.date.year ++ '-' :: Digits.padded 2 t.date.month ++ '-' ::
    Digits.padded 2 t.date.day ++ 'T' :: Digits.padded 2 (t.minute / 60) ++ ':' ::
    Digits.padded 2 (t.minute % 60) ++ ':' :: Digits.padded 2 t.second ++ ['Z']

/-- The text of a moment. -/
def shown (t : Timestamp) : String :=
  String.ofList t.chars

end Timestamp

end RunnerPool
