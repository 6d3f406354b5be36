/-!
# Tolerance rules

A run of adjacent channels may bridge a few small gaps. Each bridged gap is paid for out
of a tolerance budget; the rule says what a gap costs.
-/

namespace TriggerChain

/-- What bridging a gap costs. -/
inductive ToleranceRule where
  /-- One unit for each wire missing between the two channels. -/
  | missingWires
  /-- One unit for each channel of distance. -/
  | gapWidth
  /-- One unit for any gap. -/
  | flat
  deriving DecidableEq, Repr, Inhabited

namespace ToleranceRule

/-- The price of a step of `gap` channels. -/
def cost : ToleranceRule → Nat → Nat
  | .missingWires, gap => gap - 1
  | .gapWidth, gap => gap
  | .flat, _ => 1

/-- The name of a rule in settings. -/
def name : ToleranceRule → String
  | .missingWires => "missing_wires"
  | .gapWidth => "gap_width"
  | .flat => "flat"

/-- The rule of a name. -/
def ofName? (text : String) : Option ToleranceRule :=
  [missingWires, gapWidth, flat].find? (fun rule => rule.name = text)

/-- What is said of a name that no rule has. -/
def unknownName (text : String) : String :=
  "unknown tolerance rule `" ++ text ++ "` (expected missing_wires, gap_width or flat)"

/-- A text names a rule exactly if it is the rule's name. -/
theorem ofName?_eq_some_iff {text : String} {rule : ToleranceRule} :
    ofName? text = some rule ↔ text = rule.name := by
  constructor
  · intro h
    have := List.find?_some h
    simpa using (of_decide_eq_true this).symm
  · rintro rfl
    cases rule <;> decide

end ToleranceRule

end TriggerChain
