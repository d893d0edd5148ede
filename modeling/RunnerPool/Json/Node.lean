import RunnerPool.Json.Token

/-! # JSON texts as trees with places

The tree of a text, read from its tokens.  The tree is total: where the text ceases to be JSON
the tree says so in that place, and the containers around it break off there too.  A reader that
goes through the tree in order therefore meets whatever is wrong first, be it in the text or in
the value.

* `Document.read cs`   the tree of a whole text
* `Node.toValue`       the generic value of a tree
* `Node.skip`          passing over a tree whose value is not wanted
* `Value.parse s`      the generic value of a text
* `Node.ofValue v`     a value as a tree without places -/

namespace RunnerPool.Json

/-- How a container ends. -/
inductive Ending
  /-- With its closing bracket or brace; what remains of the text after it. -/
  | closed (rest : List Char)
  | broken (why : Break)

/-- The key of a member. -/
structure Key where
  value : Except (Fault Flaw) String
  /-- What remains of the text after the key and the blanks behind it. -/
  after : List Char

/-- The end of a container whose value is wanted. -/
def Ending.check : Ending → Except (Fault Flaw) Unit
  | .closed _ => .ok ()
  | .broken why => .error why.reading

/-- The end of a container that is passed over. -/
def Ending.skip : Ending → Except (Fault Flaw) Unit
  | .closed _ => .ok ()
  | .broken why => .error why.skipping

/-- A scalar as a value. -/
def Scalar.toValue : Scalar → Value
  | .null => .null
  | .bool b => .bool b
  | .number n => .number n
  | .text s => .text s

/-- A value in a text. -/
inductive Node
  | scalar (start rest : List Char) (value : Except (Fault Flaw) Scalar)
  | array (start : List Char) (items : List Node) (ending : Ending)
  | object (start : List Char) (members : List (Key × Node)) (ending : Ending)
  /-- No value: the text breaks off where one should stand. -/
  | missing (start : List Char) (why : Break)

namespace Node

/-- What remains of the text where the value begins. -/
def start : Node → List Char
  | .scalar s _ _ => s
  | .array s _ _ => s
  | .object s _ _ => s
  | .missing s _ => s

/-- What remains after a comma that stands where a value should. -/
def afterComma : List Char → List Char
  | ',' :: cs => cs.dropWhile isSpace
  | cs => cs

/-! ### From tokens -/

/-- The text ended. -/
def ended (flaw : Flaw) : Break :=
  .both (.atEnd flaw)

/-- The token does not fit here. -/
def misplaced (flaw : Flaw) (t : Token) : Break :=
  .both (.ahead flaw t.start)

mutual

/-- One value, and the tokens after it or the break in it. -/
def read : (fuel : Nat) → List Token → Node × Except Break (List Token)
  | 0, _ | _ + 1, [] => (.missing [] (ended .endInValue), .error (ended .endInValue))
  | fuel + 1, t :: ts =>
    match t.lexeme with
    | .scalar v => (.scalar t.start t.rest v, .ok ts)
    | .text v => (.scalar t.start t.rest (v.map .text), .ok ts)
    | .openBracket =>
      let (ns, e, after) := readItems fuel ts
      (.array t.start ns e, after)
    | .openBrace =>
      let (ms, e, after) := readMembers fuel ts
      (.object t.start ms e, after)
    | .broken _ why => (.missing t.start why, .error why)
    | _ =>
      let why := misplaced .expectedValue t
      (.missing t.start why, .error why)
termination_by structural fuel => fuel

/-- The items after an opening bracket. -/
def readItems : (fuel : Nat) → List Token → List Node × Ending × Except Break (List Token)
  | 0, _ | _ + 1, [] => ([], .broken (ended .endInList), .error (ended .endInList))
  | fuel + 1, t :: ts =>
    match t.lexeme with
    | .closeBracket => ([], .closed t.rest, .ok ts)
    | _ => readMoreItems fuel (t :: ts)
termination_by structural fuel => fuel

/-- The items where one must stand. -/
def readMoreItems : (fuel : Nat) → List Token → List Node × Ending × Except Break (List Token)
  | 0, _ => ([], .broken (ended .endInList), .error (ended .endInList))
  | fuel + 1, ts =>
    match read fuel ts with
    | (n, .error why) => ([n], .broken why, .error why)
    | (n, .ok []) => ([n], .broken (ended .endInList), .error (ended .endInList))
    | (n, .ok (t :: ts)) =>
      match t.lexeme with
      | .closeBracket => ([n], .closed t.rest, .ok ts)
      | .comma =>
        match ts with
        -- a bracket right after a comma has a wording of its own
        | ⟨.closeBracket, start, _⟩ :: _ =>
          let why : Break := ⟨.ahead .trailingComma start, .ahead .expectedValue start⟩
          ([n], .broken why, .error why)
        | _ =>
          let (ns, e, after) := readMoreItems fuel ts
          (n :: ns, e, after)
      | _ =>
        let why := misplaced .expectedCommaOrBracket t
        ([n], .broken why, .error why)
termination_by structural fuel => fuel

/-- The members after an opening brace. -/
def readMembers : (fuel : Nat) → List Token → List (Key × Node) × Ending × Except Break (List Token)
  | 0, _ | _ + 1, [] => ([], .broken (ended .endInObject), .error (ended .endInObject))
  | fuel + 1, t :: ts =>
    match t.lexeme with
    | .closeBrace => ([], .closed t.rest, .ok ts)
    | _ => readMoreMembers fuel (t :: ts)
termination_by structural fuel => fuel

/-- The members where one must stand. -/
def readMoreMembers : (fuel : Nat) → List Token →
    List (Key × Node) × Ending × Except Break (List Token)
  | 0, _ | _ + 1, [] =>
    let why : Break := ⟨.atEnd .endInValue, .atEnd .endInObject⟩
    ([], .broken why, .error why)
  | fuel + 1, t :: ts =>
    match t.lexeme with
    | .text v =>
      let key : Key := ⟨v, t.rest.dropWhile isSpace⟩
      match readMemberValue fuel ts with
      | (n, .error why) => ([(key, n)], .broken why, .error why)
      | (n, .ok []) => ([(key, n)], .broken (ended .endInObject), .error (ended .endInObject))
      | (n, .ok (t :: ts)) =>
        match t.lexeme with
        | .closeBrace => ([(key, n)], .closed t.rest, .ok ts)
        | .comma =>
          let (ms, e, after) := readMoreMembers fuel ts
          ((key, n) :: ms, e, after)
        | _ =>
          let why := misplaced .expectedCommaOrBrace t
          ([(key, n)], .broken why, .error why)
    -- a brace where a key must stand comes after a comma
    | .closeBrace =>
      let why : Break := ⟨.ahead .trailingComma t.start, .ahead .keyMustBeText t.start⟩
      ([], .broken why, .error why)
    | .broken true why => ([], .broken why, .error why)
    | _ =>
      let why := misplaced .keyMustBeText t
      ([], .broken why, .error why)
termination_by structural fuel => fuel

/-- The colon and the value after a key. -/
def readMemberValue : (fuel : Nat) → List Token → Node × Except Break (List Token)
  | 0, _ | _ + 1, [] => (.missing [] (ended .endInObject), .error (ended .endInObject))
  | fuel + 1, t :: ts =>
    match t.lexeme with
    | .colon => read fuel ts
    | _ =>
      let why := misplaced .expectedColon t
      (.missing t.start why, .error why)
termination_by structural fuel => fuel

end

/-! ### Passing over -/

mutual

/-- Passes over a value that is not wanted. -/
def skip : Node → Except (Fault Flaw) Unit
  | .scalar _ _ _ => .ok ()
  | .array _ ns e => do skipItems ns; e.skip
  | .object _ ms e => do skipMembers ms; e.skip
  | .missing _ why => .error why.skipping
termination_by structural n => n

/-- Passes over items. -/
def skipItems : List Node → Except (Fault Flaw) Unit
  | [] => .ok ()
  | n :: ns => do skip n; skipItems ns
termination_by structural ns => ns

/-- Passes over members. -/
def skipMembers : List (Key × Node) → Except (Fault Flaw) Unit
  | [] => .ok ()
  | (_, n) :: ms => do skip n; skipMembers ms
termination_by structural ms => ms

end

/-! ### Generic values -/

/-- How many containers may be open at once. -/
def depthLimit : Nat := 127

mutual

/-- The generic value of a tree, with room for so many open containers.  Of members with one key
    the last counts. -/
def valueWithin : (room : Nat) → Node → Except (Fault Flaw) Value
  | _, .scalar _ _ v => v.map Scalar.toValue
  | 0, .array start _ _ | 0, .object start _ _ => .error (.ahead .tooDeep start)
  | room + 1, .array _ ns e => do
    let xs ← itemsWithin room ns
    e.check
    return .array xs
  | room + 1, .object _ ms e => do
    let members ← membersWithin room [] ms
    e.check
    return .object members
  | _, .missing _ why => .error why.reading
termination_by structural _ n => n

/-- The generic values of items. -/
def itemsWithin : (room : Nat) → List Node → Except (Fault Flaw) (List Value)
  | _, [] => .ok []
  | room, n :: ns => do
    let x ← valueWithin room n
    let xs ← itemsWithin room ns
    return x :: xs
termination_by structural _ ns => ns

/-- The members so far with the generic values of more of them. -/
def membersWithin : (room : Nat) → Members → List (Key × Node) → Except (Fault Flaw) Members
  | _, acc, [] => .ok acc
  | room, acc, (k, n) :: ms => do
    let key ← k.value
    let x ← valueWithin room n
    membersWithin room (Members.insert key x acc) ms
termination_by structural _ _ ms => ms

end

/-- The generic value of a tree. -/
def toValue (n : Node) : Except (Fault Flaw) Value :=
  valueWithin depthLimit n

mutual

/-- A value as a tree without places. -/
def ofValue : Value → Node
  | .null => .scalar [] [] (.ok .null)
  | .bool b => .scalar [] [] (.ok (.bool b))
  | .number n => .scalar [] [] (.ok (.number n))
  | .text s => .scalar [] [] (.ok (.text s))
  | .array xs => .array [] (ofItems xs) (.closed [])
  | .object ms => .object [] (ofMembers ms) (.closed [])
termination_by structural v => v

/-- Items as trees. -/
def ofItems : List Value → List Node
  | [] => []
  | x :: xs => ofValue x :: ofItems xs
termination_by structural xs => xs

/-- Members as trees. -/
def ofMembers : List (String × Value) → List (Key × Node)
  | [] => []
  | (k, x) :: ms => (⟨.ok k, []⟩, ofValue x) :: ofMembers ms
termination_by structural ms => ms

end

end Node

/-! ### Whole texts -/

/-- The tree of a text and the fault of what follows it, if anything does. -/
structure Document where
  root : Node
  after : Except (Fault Flaw) Unit

namespace Document

/-- The tree of a text. -/
def read (cs : List Char) : Document :=
  let ts := tokens cs
  let (root, after) := Node.read (3 * ts.length + 3) ts
  ⟨root,
    match after with
    | .ok (t :: _) => .error (.ahead .trailingCharacters t.start)
    | _ => .ok ()⟩

/-- What a reader makes of the whole text. -/
def decode (d : Document) (reader : Node → Except (Fault Cause) α) : Except (Fault Cause) α := do
  let a ← reader d.root
  d.after.mapError Fault.ofFlaw
  return a

end Document

/-- The generic value of a text. -/
def Value.read (cs : List Char) : Except (Fault Flaw) Value := do
  let d := Document.read cs
  let v ← d.root.toValue
  d.after
  return v

/-- The generic value of a text. -/
def Value.parse (s : String) : Except (Fault Flaw) Value :=
  Value.read s.toList

end RunnerPool.Json
