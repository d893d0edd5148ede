import RunnerPool.Log
import RunnerPool.Log.Pattern
import RunnerPool.Text.Alphanumeric
import RunnerPool.Text.Blank
import RunnerPool.Text.Pieces
import RunnerPool.Text.Utf8
import RunnerPool.Number.Floating

/-! # Which entries are shown

A filter is a list of directives, each with the least level that it shows and perhaps with the
parts of the program, the span and the field that it is about.  The directive that names an entry
most closely decides.  The program opens no spans, so a directive about a span, or about a value
that a span would have to carry, is about no entry.

* `Filter.parse? s`     the filter that a text asks for, none if the text is malformed
* `Filter.ofLevel l`    everything from a level on
* `Filter.shows f e`    whether an entry is shown -/

namespace RunnerPool.Log

/-- What a directive asks of the fields: that there is one of a name, perhaps of a value. -/
structure FieldTest where
  name : String
  hasValue : Bool
deriving Repr, DecidableEq

/-- What is shown of some entries. -/
structure Directive where
  /-- What the names of the parts begin with; none is all parts. -/
  target : Option String := none
  /-- The span within which entries are meant. -/
  span : Option String := none
  field : Option FieldTest := none
  /-- The least level that is shown; none shows nothing. -/
  least : Option Level := some .trace
deriving Repr, DecidableEq

/-- A filter: of directives about the same entries the last one holds. -/
structure Filter where
  directives : List Directive
deriving Repr, DecidableEq

namespace Directive

/-- The level of a number that counts up from showing nothing. -/
def levelNumbered : Nat → Option (Option Level)
  | 0 => some none
  | 1 => some (some .error)
  | 2 => some (some .warn)
  | 3 => some (some .info)
  | 4 => some (some .debug)
  | 5 => some (some .trace)
  | _ => none

/-- The natural number that a text is; a plus sign may stand before it. -/
def natural? (cs : List Char) : Option Nat :=
  let ds :=
    match cs with
    | '+' :: ds => ds
    | ds => ds
  if ds.isEmpty || !ds.all Char.isDigit then none else some (Digits.value ds)

/-- The level that a number or a word in any case asks for; the inner none shows nothing. -/
def level? (cs : List Char) : Option (Option Level) :=
  match natural? cs with
  | some n => levelNumbered n
  | none =>
    match String.ofList (cs.map Char.toLower) with
    | "off" => some none
    | "error" => some (some .error)
    | "warn" => some (some .warn)
    | "info" => some (some .info)
    | "debug" => some (some .debug)
    | "trace" => some (some .trace)
    | _ => none

/-- The characters of a text from one byte up to another. -/
def cut (start stop : Nat) : List Char → List Char
  | [] => []
  | c :: cs =>
    if stop = 0 then []
    else if start = 0 then c :: cut 0 (stop - c.utf8Size) cs
    else cut (start - c.utf8Size) (stop - c.utf8Size) cs

/-- The test that a text asks for: the name of a field, or a name and a value after an equals
    sign.  A value is a word for a truth value, a number, or a pattern. -/
def fieldTest? (cs : List Char) : Option FieldTest :=
  match Text.pieces '=' cs with
  | field :: value :: _ =>
    if (Floating.parse? value).isSome || Pattern.isWellFormed value then
      some ⟨String.ofList field, true⟩
    else none
  | field :: _ => some ⟨String.ofList field, false⟩
  | [] => none

/-- The end of a directive after its bracket was closed: nothing, or an equals sign and a level.
    The level is taken from `full`, behind the byte `place`. -/
def withLevel? (full : List Char) (place : Nat) (d : Directive) : List Char → Option Directive
  | [] => some d
  | '=' :: _ =>
    match cut (place + 1) (Utf8.size full) full with
    | [] => some d
    | level => (level? level).map fun least => { d with least }
  | _ => none

/-- What follows an opening brace: a test, the closing brace and the closing bracket. -/
def withField? (full : List Char) (place : Nat) (d : Directive) (cs : List Char) :
    Option Directive :=
  let stop := place + Utf8.size (cs.takeWhile (· != '}'))
  match cs.dropWhile (· != '}') with
  | '}' :: ']' :: rest =>
    match cut place stop full with
    | [] => none
    | test =>
      (fieldTest? test).bind fun field =>
        withLevel? full (stop + 2) { d with field := some field } rest
  | _ => none

/-- What follows an opening bracket: the name of a span, perhaps with a field in braces, and the
    closing bracket. -/
def withSpan? (full : List Char) (place : Nat) (d : Directive) (cs : List Char) :
    Option Directive :=
  let isEnd (c : Char) : Bool := c == ']' || c == '{'
  let stop := place + Utf8.size (cs.takeWhile (!isEnd ·))
  let span := String.ofList (cut place stop full)
  match cs.dropWhile (!isEnd ·) with
  | ']' :: rest => withLevel? full (stop + 1) { d with span := some span } rest
  | '{' :: rest =>
    withField? full (stop + 1) { d with span := if span.isEmpty then none else some span } rest
  | _ => none

/-- Whether a directive that begins with no bracket can begin with a character. -/
def canBegin (c : Char) : Bool :=
  c == '-' || c == ':' || c == '_' || Text.isAlphanumeric c

/-- The directive of a text: a level; or parts of the program, then perhaps a span or a field in
    brackets, then perhaps an equals sign and a level.  Without a level everything is shown.
    Blanks around it are not read, but the places of its parts are counted without them and
    looked up in the whole text, so that blanks before a directive shift what is taken. -/
def parse? (full : List Char) : Option Directive :=
  match Text.trim full with
  | [] => none
  | '[' :: cs => withSpan? full 1 {} cs
  | cs =>
    if !(cs.head?.all canBegin) then none
    else
      let isEnd (c : Char) : Bool := c == '=' || c == '['
      let stop := Utf8.size (cs.takeWhile (!isEnd ·))
      let d : Directive := { target := some (String.ofList (cut 0 stop full)) }
      match cs.dropWhile (!isEnd ·) with
      | '[' :: rest => withSpan? full (stop + 1) d rest
      | [] =>
        -- without a level the whole text is one, or else the name of a part
        match level? full with
        | some least => some { least }
        | none => some { target := some (String.ofList full) }
      | rest => withLevel? full stop d rest

/-- Whether a directive is about entries, and not only about spans. -/
def isAboutEntries (d : Directive) : Bool :=
  d.span.isNone && d.field.all (!·.hasValue)

/-- The names of the fields of an entry. -/
def fieldNames (e : Entry) : List String :=
  "message" :: e.fields.map (·.1)

/-- Whether a directive is about an entry. -/
def isAbout (d : Directive) (e : Entry) : Bool :=
  d.isAboutEntries &&
    d.target.all (fun t => t.toList.isPrefixOf e.source.name.toList) &&
    d.field.all (fun f => (fieldNames e).contains f.name)

/-- Whether of two directives about one entry the second names it at least as closely: by more of
    its part's name, or else by a field, of two fields by the later in the alphabet. -/
def isAsClose (b d : Directive) : Bool :=
  let parts (d : Directive) : Nat := (d.target.map (·.length + 1)).getD 0
  if parts b ≠ parts d then parts b < parts d
  else
    match b.field, d.field with
    | none, _ => true
    | some _, none => false
    | some f, some g => !(g.name < f.name)

end Directive

namespace Filter

/-- Everything from a level on. -/
def ofLevel (least : Level) : Filter := ⟨[{ least := some least }]⟩

/-- The filter of a text: directives between commas.  Without any directive errors are shown. -/
def parse? (s : String) : Option Filter :=
  match (Text.pieces ',' s.toList).filter (!·.isEmpty) with
  | [] => some (ofLevel .error)
  | ps => (ps.mapM Directive.parse?).map (⟨·⟩)

/-- The directive that decides about an entry: the closest, and the last of several. -/
def deciding (f : Filter) (e : Entry) : Option Directive :=
  (f.directives.filter (·.isAbout e)).foldl (fun best d =>
    match best with
    | none => some d
    | some b => if b.isAsClose d then some d else best) none

/-- Whether an entry is shown. -/
def shows (f : Filter) (e : Entry) : Bool :=
  match (f.deciding e).bind (·.least) with
  | some least => least.rank ≤ e.level.rank
  | none => false

end Filter

end RunnerPool.Log
