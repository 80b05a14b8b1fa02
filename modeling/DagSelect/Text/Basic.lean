/-
Module: DagSelect.Text.Basic
Purpose: The pieces of text handling that the node format rests on: blank characters, trimming,
  lines, and cutting a text at a separator. Texts are lists of characters, so every function is a
  plain recursion.
Main exports: isBlank, trim, lines, cut?, fields, stripLeading?, stripTrailing?
-/
namespace DagSelect.Text

/-- Closed ranges of the code points that have the `White_Space` property. -/
def blankRanges : List (Nat × Nat) :=
  [(0x09, 0x0D), (0x20, 0x20), (0x85, 0x85), (0xA0, 0xA0), (0x1680, 0x1680), (0x2000, 0x200A),
   (0x2028, 0x2029), (0x202F, 0x202F), (0x205F, 0x205F), (0x3000, 0x3000)]

/-- Whether a character separates words. -/
def isBlank (c : Char) : Bool :=
  blankRanges.any fun range => decide (range.1 ≤ c.toNat) && decide (c.toNat ≤ range.2)

/-- The text without the blanks at either end. -/
def trim (text : List Char) : List Char :=
  ((text.dropWhile isBlank).reverse.dropWhile isBlank).reverse

/-- The lines of a text. A line feed ends a line, and the text after the last one is a line only if
it is not empty. A carriage return stays in its line, where it counts as a blank. -/
def lines : List Char → List (List Char)
  | [] => []
  | c :: rest =>
    if c = '\n' then [] :: lines rest
    else
      match lines rest with
      | [] => [[c]]
      | line :: more => (c :: line) :: more

/-- The text before and the text after the first occurrence of a separator. -/
def cut? (separator : Char) : List Char → Option (List Char × List Char)
  | [] => none
  | c :: rest =>
    if c = separator then some ([], rest)
    else (cut? separator rest).map fun parts => (c :: parts.1, parts.2)

/-- The pieces of a text between the occurrences of a separator; there is always at least one. -/
def fields (separator : Char) : List Char → List (List Char)
  | [] => [[]]
  | c :: rest =>
    if c = separator then [] :: fields separator rest
    else
      match fields separator rest with
      | [] => [[c]]
      | field :: more => (c :: field) :: more

/-- The text after a leading character, if it starts with it. -/
def stripLeading? (lead : Char) : List Char → Option (List Char)
  | [] => none
  | c :: rest => if c = lead then some rest else none

/-- The text before a trailing character, if it ends with it. -/
def stripTrailing? (last : Char) (text : List Char) : Option (List Char) :=
  (stripLeading? last text.reverse).map List.reverse

end DagSelect.Text
