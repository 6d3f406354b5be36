/-!
# Lines and words

A text is cut into lines at its newlines, and a line into words at its blanks. The blanks
are the characters that the standard counts as white space.

Main statement: `isBlank_of_isWhitespace`, the blanks of the smaller character set are
blanks here.
-/

namespace TriggerChain.Text

/-! ## Blanks -/

/-- The code points of the blanks, as closed ranges. -/
def blankRanges : List (Nat × Nat) :=
  [(0x9, 0xD), (0x20, 0x20), (0x85, 0x85), (0xA0, 0xA0), (0x1680, 0x1680), (0x2000, 0x200A),
    (0x2028, 0x2029), (0x202F, 0x202F), (0x205F, 0x205F), (0x3000, 0x3000)]

/-- Whether a character is a blank. -/
def isBlank (c : Char) : Bool :=
  blankRanges.any fun (low, high) => decide (low ≤ c.toNat ∧ c.toNat ≤ high)

/-- The space, the tabulator, the carriage return and the newline are blanks. -/
theorem isBlank_of_isWhitespace {c : Char} (h : c.isWhitespace = true) :
    isBlank c = true := by
  simp only [Char.isWhitespace, Bool.or_eq_true, decide_eq_true_eq] at h
  rcases h with ((rfl | rfl) | rfl) | rfl <;> decide

/-! ## Lines -/

/-- A line as it was read, latest character first, without a carriage return at its end. -/
def dropReturn : List Char → List Char
  | '\r' :: rest => rest
  | cs => cs

/-- Cuts a text into lines, from the characters of the line begun, latest first, and the
    lines before it, latest first. -/
def linesFrom (begun : List Char) (before : List (List Char)) :
    List Char → List (List Char)
  | [] => (if begun.isEmpty then before else begun.reverse :: before).reverse
  | c :: rest =>
    if c = '\n' then linesFrom [] ((dropReturn begun).reverse :: before) rest
    else linesFrom (c :: begun) before rest

/-- The lines of a text. A newline ends a line, with a carriage return before it if there
    is one; what is left behind the last newline is a line if it is not empty. -/
def lines (cs : List Char) : List (List Char) := linesFrom [] [] cs

/-! ## Words -/

/-- A word is added to those before it, unless it is empty. -/
def closeWord (begun : List Char) (before : List (List Char)) : List (List Char) :=
  if begun.isEmpty then before else begun.reverse :: before

/-- Cuts a line into words, from the characters of the word begun, latest first, and the
    words before it, latest first. -/
def wordsFrom (begun : List Char) (before : List (List Char)) :
    List Char → List (List Char)
  | [] => (closeWord begun before).reverse
  | c :: rest =>
    if isBlank c then wordsFrom [] (closeWord begun before) rest
    else wordsFrom (c :: begun) before rest

/-- The words of a line: the longest stretches without a blank. -/
def words (cs : List Char) : List (List Char) := wordsFrom [] [] cs

end TriggerChain.Text
