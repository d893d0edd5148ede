/-! # Blank characters

Which characters count as white space around a line, and trimming them.

* `isBlank c`   the white-space property of the character database
* `trim cs`     the text without the blank characters at its two ends -/

namespace RunnerPool.Text

/-- The characters with the white-space property: the controls from tab to carriage return,
    next line, the spaces of all widths, and the line and paragraph separators. -/
def isBlank (c : Char) : Bool :=
  let n := c.toNat
  (9 ≤ n && n ≤ 13) || n == 0x20 || n == 0x85 || n == 0xa0 || n == 0x1680 ||
    (0x2000 ≤ n && n ≤ 0x200a) || n == 0x2028 || n == 0x2029 || n == 0x202f || n == 0x205f ||
    n == 0x3000

/-- The text from its first character that is not blank. -/
def trimStart (cs : List Char) : List Char :=
  cs.dropWhile isBlank

/-- The text up to its last character that is not blank. -/
def trimEnd : List Char → List Char
  | [] => []
  | c :: cs =>
    match trimEnd cs with
    | [] => if isBlank c then [] else [c]
    | kept => c :: kept

/-- The text without blank characters at its ends. -/
def trim (cs : List Char) : List Char :=
  trimEnd (trimStart cs)

end RunnerPool.Text
