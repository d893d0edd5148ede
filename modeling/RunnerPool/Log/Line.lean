import RunnerPool.Json.Printer
import RunnerPool.Log
import RunnerPool.Text.Quoted

/-! # Entries as lines

How an entry is written: as a JSON object, or as plain text.

* `Entry.toValue e`   the object
* `Entry.text e`      the text -/

namespace RunnerPool.Log

/-- A datum as a JSON value. -/
def Datum.toValue : Datum → Json.Value
  | .plain s | .quoted s => .text s
  | .int n => .int n
  | .bool b => .bool b

/-- A datum as text. -/
def Datum.text : Datum → String
  | .plain s => s
  | .quoted s => Text.quoted s
  | .int n => toString n
  | .bool b => toString b

namespace Entry

/-- An entry as a JSON object; its message is the first of the fields. -/
def toValue (e : Entry) : Json.Value :=
  .object [
    ("level", .text e.level.name),
    ("fields", .object (("message", .text e.message) ::
      e.fields.map fun (key, d) => (key, d.toValue))),
    ("target", .text e.source.name)]

/-- An entry as text: the fields follow the message. -/
def text (e : Entry) : String :=
  e.level.name ++ " " ++ e.source.name ++ ": " ++ e.message ++
    String.join (e.fields.map fun (key, d) => " " ++ key ++ "=" ++ d.text)

end Entry

end RunnerPool.Log
