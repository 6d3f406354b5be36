import TriggerChain.Json.Value
import TriggerChain.Settings.Basic
import TriggerChain.Text.Numeral

/-!
# Rejected settings

Settings may be refused because a value has the wrong sort, is out of range or belongs to
no key. All rejections are reported together, in ascending order of their keys.
-/

namespace TriggerChain

/-- Why a key is rejected. -/
inductive Reason where
  | notBoolean (got : Json.Kind)
  | notCount (got : Json.Kind)
  | notTicks (got : Json.Kind)
  | notText (got : Json.Kind)
  /-- A count that is too large for its key. -/
  | outOfRange (value : Nat)
  | unknownRule (text : String)
  | unknownKey
  /-- A zero where one is the least value. -/
  | zero
  | notPositive
  | negative
  deriving DecidableEq, Repr, Inhabited

/-- The text of a reason. -/
def Reason.message : Reason → String
  | .notBoolean got => "expected a boolean, got " ++ got.phrase
  | .notCount got => "expected a non-negative integer, got " ++ got.phrase
  | .notTicks got => "expected an integer tick count, got " ++ got.phrase
  | .notText got => "expected a string, got " ++ got.phrase
  | .outOfRange value => "value " ++ Text.ofNat value ++ " is out of range"
  | .unknownRule text => ToleranceRule.unknownName text
  | .unknownKey => "unknown key"
  | .zero => "must be at least 1"
  | .notPositive => "must be positive"
  | .negative => "must not be negative"

/-- A rejected key. -/
structure Rejection where
  /-- The key. -/
  key : String
  /-- Why it is rejected. -/
  reason : Reason
  deriving DecidableEq, Repr, Inhabited

/-- The text of a rejection. -/
def Rejection.message (r : Rejection) : String :=
  "`" ++ r.key ++ "`: " ++ r.reason.message

/-- Puts rejections in ascending order of their keys; rejections of one key keep their
    order. -/
def sortRejections (rs : List Rejection) : List Rejection :=
  rs.mergeSort fun a b => !decide (b.key < a.key)

/-- Why a maker does not take its settings, or is not made at all. -/
inductive SettingsError where
  /-- Some keys are rejected. -/
  | rejected (rejections : List Rejection)
  /-- The settings are no JSON object. -/
  | notAnObject (got : Json.Kind)
  /-- The maker has already processed inputs. -/
  | locked (maker : String) (processed : Nat)
  /-- No maker has this name. -/
  | unknownMaker (name : String)
  /-- A maker with these settings cannot be set up. -/
  | stopped (fault : Fault)
  deriving DecidableEq, Repr, Inhabited

/-- The text of an error. -/
def SettingsError.message : SettingsError → String
  | .rejected rejections =>
    "invalid configuration: " ++ "; ".intercalate (rejections.map Rejection.message)
  | .notAnObject got => "configuration must be a JSON object, got " ++ got.phrase
  | .locked maker processed =>
    "maker `" ++ maker ++ "` cannot be reconfigured after " ++ Text.ofNat processed
      ++ " inputs were processed"
  | .unknownMaker name => "unknown maker `" ++ name ++ "`"
  | .stopped fault => fault.message

/-! ## Ranges -/

namespace Settings

/-- The keys whose values are out of range. -/
def rangeRejections (s : Settings) : List Rejection :=
  (if s.prescale = 0 then [⟨"prescale", .zero⟩] else [])
    ++ (if s.bundleSize = 0 then [⟨"bundle_size", .zero⟩] else [])
    ++ (if s.windowLength ≤ 0 then [⟨"window_length", .notPositive⟩] else [])
    ++ (if s.readoutBefore < 0 then [⟨"readout_window_ticks_before", .negative⟩] else [])
    ++ (if s.readoutAfter < 0 then [⟨"readout_window_ticks_after", .negative⟩] else [])

/-- Accepts settings whose values are all in range. -/
def validate (s : Settings) : Except SettingsError Unit :=
  if s.rangeRejections.isEmpty then .ok ()
  else .error (.rejected (sortRejections s.rangeRejections))

/-- Settings are accepted exactly if every value is in range. -/
theorem validate_eq_ok_iff {s : Settings} :
    s.validate = .ok () ↔ s.prescale ≠ 0 ∧ s.bundleSize ≠ 0 ∧ 0 < s.windowLength ∧
      0 ≤ s.readoutBefore ∧ 0 ≤ s.readoutAfter := by
  unfold validate rangeRejections
  by_cases h₁ : s.prescale = 0 <;> by_cases h₂ : s.bundleSize = 0 <;>
    by_cases h₃ : s.windowLength ≤ 0 <;> by_cases h₄ : s.readoutBefore < 0 <;>
    by_cases h₅ : s.readoutAfter < 0 <;>
    simp_all [Int64.lt_iff_toInt_lt, Int64.le_iff_toInt_le]

end Settings

end TriggerChain
