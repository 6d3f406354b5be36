import TriggerChain.Text.Hidden
import TriggerChain.Text.Joining

/-!
# Invisible characters

Characters that a quoted text does not show as they are: those that show nothing by
themselves, and those that extend the character before them and would join the quote or
whatever else stands there.

Main statements: the tables are ascending (`isAscending_hiddenRanges`,
`isAscending_joiningRanges`), so no code point stands in one of them twice.
-/

namespace TriggerChain.Text

/-- Whether a code point lies in one of some closed ranges. -/
def inRanges (ranges : List (Nat × Nat)) (n : Nat) : Bool :=
  ranges.any fun (first, last) => first ≤ n && n ≤ last

/-- Whether closed ranges are ascending and do not touch, from the code point `n` on. -/
def isAscendingFrom (n : Nat) : List (Nat × Nat) → Bool
  | [] => true
  | (first, last) :: rest => n ≤ first && first ≤ last && isAscendingFrom (last + 2) rest

theorem isAscending_hiddenRanges : isAscendingFrom 0 hiddenRanges = true := by decide +kernel

theorem isAscending_joiningRanges : isAscendingFrom 0 joiningRanges = true := by
  decide +kernel

/-- Whether a quoted text must not show a character as it is. -/
def isInvisible (c : Char) : Bool :=
  inRanges hiddenRanges c.toNat || inRanges joiningRanges c.toNat

end TriggerChain.Text
