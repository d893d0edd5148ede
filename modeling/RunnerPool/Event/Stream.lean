import RunnerPool.Event.Wire
import RunnerPool.Text.Blank

/-! # Events as lines

A stream of bytes in which each line that is not blank holds one event.

* `physicalLines bytes`    the lines with their terminators
* `EventLines.next`        the next event, skipping blank lines
* `EventLines.toList`      everything that reading to the end gives -/

namespace RunnerPool

/-- Bytes cut after each newline; bytes after the last one are a line too. -/
def physicalLines : List UInt8 → List (List UInt8)
  | [] => []
  | b :: bs =>
    if b = 10 then [b] :: physicalLines bs
    else
      match physicalLines bs with
      | [] => [[b]]
      | l :: ls => (b :: l) :: ls

/-- Why reading a line fails. -/
inductive LineFault
  | notText (fault : Utf8.Fault)
  /-- A line, counted from one, that holds no event. -/
  | refused (line : Nat) (refusal : Event.Refusal)
deriving DecidableEq

/-- The fault and what lies behind it, the outermost first. -/
def LineFault.chain : LineFault → List String
  | .notText fault => ["reading event stream", fault.message]
  | .refused line refusal => ["decoding event on line " ++ toString line, refusal.message]

/-- A reader within its stream. -/
structure EventLines where
  /-- The lines not yet read. -/
  pending : List (List UInt8)
  /-- How many lines were read as text. -/
  count : Nat

namespace EventLines

/-- A reader before its stream. -/
def ofBytes (bytes : List UInt8) : EventLines :=
  ⟨physicalLines bytes, 0⟩

/-- A line without its newline and a carriage return before it. -/
def dropTerminator (cs : List Char) : List Char :=
  match cs.reverse with
  | '\n' :: '\r' :: r => r.reverse
  | '\n' :: r => r.reverse
  | _ => cs

/-- What a line gives: nothing if it is blank; `count` lines were read before it. -/
def ofLine (count : Nat) (line : List UInt8) : Option (Except LineFault Event) :=
  match Utf8.decode line with
  | .error fault => some (.error (.notText fault))
  | .ok cs =>
    match Text.trim (dropTerminator cs) with
    | [] => none
    | cs => some ((Event.read cs).mapError (.refused (count + 1)))

/-- How many lines were read as text once this one was read too. -/
def countAfter (count : Nat) (line : List UInt8) : Nat :=
  match Utf8.decode line with
  | .error _ => count
  | .ok _ => count + 1

/-- The next event or fault, none at the end of the stream, and the reader after it. -/
def nextFrom : (pending : List (List UInt8)) → (count : Nat) →
    Option (Except LineFault Event) × EventLines
  | [], count => (none, ⟨[], count⟩)
  | line :: pending, count =>
    match ofLine count line with
    | none => nextFrom pending (countAfter count line)
    | some r => (some r, ⟨pending, countAfter count line⟩)

/-- The next event or fault, none at the end of the stream, and the reader after it. -/
def next (s : EventLines) : Option (Except LineFault Event) × EventLines :=
  nextFrom s.pending s.count

/-- Everything that the lines give. -/
def collect : (pending : List (List UInt8)) → (count : Nat) → List (Except LineFault Event)
  | [], _ => []
  | line :: pending, count =>
    (ofLine count line).toList ++ collect pending (countAfter count line)

/-- Everything that reading to the end gives, going on after faults. -/
def toList (s : EventLines) : List (Except LineFault Event) :=
  collect s.pending s.count

/-- Reading next gives the first of everything. -/
theorem head?_toList (s : EventLines) : s.toList.head? = s.next.1 := by
  obtain ⟨pending, count⟩ := s
  induction pending generalizing count with
  | nil => rfl
  | cons line pending ih =>
    simp only [toList, collect, next, nextFrom]
    cases h : ofLine count line with
    | none => simpa [toList, next] using ih (countAfter count line)
    | some r => simp

end EventLines

end RunnerPool
