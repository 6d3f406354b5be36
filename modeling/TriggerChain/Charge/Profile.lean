/-!
# Charge profiles

The charge along a track is smoothed with circular running means, and a smoothed profile
is cut into its closed runs above the mean. A run that is still open where the profile
ends is left out. Sums are taken from left to right, one rounding per addition.
-/

namespace TriggerChain

/-! ## Sums and running means -/

/-- The sum of a list from left to right, from the neutral element of addition on. -/
def sumOf (values : List Float) : Float :=
  values.foldl (· + ·) (-0.0)

/-- The value at a position of the circle that the values close up to. -/
def circularAt (values : Array UInt32) (i : Nat) : Float :=
  Float.ofNat (values[i % values.size]?.getD 0).toNat

/-- The circular running mean: element `i` is the mean of the `width` values from `i` on,
    wrapping around as often as the width asks for. -/
def runningMean (values : List UInt32) (width : Nat) : List Float :=
  if width = 0 then []
  else
    let circle := values.toArray
    (List.range values.length).map fun i =>
      sumOf ((List.range width).map fun j => circularAt circle (i + j)) / Float.ofNat width

/-- A series of means is as long as the list that it smooths. -/
theorem length_runningMean (values : List UInt32) {width : Nat} (h : width ≠ 0) :
    (runningMean values width).length = values.length := by
  simp [runningMean, h]

/-! ## Clusters above the mean -/

/-- The mean of a series; zero if it is empty. -/
def meanOf (series : List Float) : Float :=
  if series.isEmpty then 0.0 else sumOf series / Float.ofNat series.length

/-- The sums of the closed runs above a baseline. `open?` holds the sum of the run that is
    open where the series begins, if one is. -/
def closedRuns (baseline : Float) : Option Float → List Float → List Float
  | _, [] => []
  | open?, value :: rest =>
    if value > baseline then closedRuns baseline (some (open?.getD 0.0 + value)) rest
    else match open? with
      | none => closedRuns baseline none rest
      | some charge => charge :: closedRuns baseline none rest

/-- The charge of each closed run of a series above its mean. -/
def chargeClusters (series : List Float) : List Float :=
  closedRuns (meanOf series) none series

/-! ## The peak -/

/-- The largest of the charges; below all numbers if there is none. -/
def largestOf (charges : List Float) : Float :=
  charges.foldl (fun best c => if best < c then c else best) (-1.0 / 0.0)

/-- Whether two charges are the same number, bit for bit. -/
def sameBits (a b : Float) : Bool := a.toBits == b.toBits

/-- The position of the first largest charge. -/
def peakOf (charges : List Float) : Option Nat :=
  charges.findIdx? (sameBits (largestOf charges))

/-- Whether the first or the last charge is the largest. -/
def peakAtEnd (charges : List Float) : Bool :=
  charges.head?.any (sameBits (largestOf charges))
    || charges.getLast?.any (sameBits (largestOf charges))

end TriggerChain
