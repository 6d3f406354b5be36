import TriggerChain.Maker.Builtin
import TriggerChain.Text.Quoted

/-!
# The registry of makers

Makers are asked for by name. A registry holds one table of names for the activity makers
and one for the candidate makers; a name may stand for any kind of its level.
-/

namespace TriggerChain

/-- The names under which makers can be asked for. -/
structure Registry where
  /-- The activity makers. -/
  activity : KeyTable ActivityMakerKind := []
  /-- The candidate makers. -/
  candidate : KeyTable CandidateMakerKind := []
  deriving Repr, Inhabited

namespace Registry

/-- Adds or replaces the activity maker of a name. -/
def setActivity (r : Registry) (name : String) (kind : ActivityMakerKind) : Registry :=
  { r with activity := r.activity.set name kind }

/-- Adds or replaces the candidate maker of a name. -/
def setCandidate (r : Registry) (name : String) (kind : CandidateMakerKind) : Registry :=
  { r with candidate := r.candidate.set name kind }

/-- The registry that holds every kind under its own name. -/
def builtin : Registry :=
  let r : Registry :=
    ActivityMakerKind.all.foldl (fun r kind => r.setActivity kind.name kind) {}
  CandidateMakerKind.all.foldl (fun r kind => r.setCandidate kind.name kind) r

/-- The names of the activity makers, ascending. -/
def activityNames (r : Registry) : List String := r.activity.keys

/-- The names of the candidate makers, ascending. -/
def candidateNames (r : Registry) : List String := r.candidate.keys

/-- Builds the activity maker of a name. -/
def buildActivity (r : Registry) (name : String) (config : Json) :
    Except SettingsError (ActivityMaker × List Notice) :=
  match r.activity.get? name with
  | none => .error (.unknownMaker name)
  | some kind => kind.build config

/-- Builds the candidate maker of a name. -/
def buildCandidate (r : Registry) (name : String) (config : Json) :
    Except SettingsError (CandidateMaker × List Notice) :=
  match r.candidate.get? name with
  | none => .error (.unknownMaker name)
  | some kind => kind.build config

/-- The text of a registry: its names. -/
def text (r : Registry) : String :=
  "MakerRegistry \x7b activity: " ++ Text.quotedList r.activityNames ++ ", candidate: "
    ++ Text.quotedList r.candidateNames ++ " \x7d"

end Registry

end TriggerChain
