/-!
# Ticks and checked words

Times are counted in ticks, signed words of 64 bits; charges are unsigned words. Sums
and differences that do not fit their word stop a run with a `Fault`. The age of an
element, on the other hand, is a saturating difference: extreme time stamps make it
stick to the ends of the range and never stop anything.

Main statements: `Ticks.plus_eq_ok_iff` and `Ticks.minus_eq_ok_iff` say that a checked
operation succeeds exactly on the exact result; `Ticks.since_lt_iff` says that comparing
a saturated age with a positive length is comparing the exact difference.
-/

namespace TriggerChain

/-! ## Faults -/

/-- Why a run stops in the middle of a call. -/
inductive Fault where
  /-- A sum does not fit its word. -/
  | sumOverflow
  /-- A difference does not fit its word. -/
  | differenceOverflow
  /-- A bundle would have more bytes than a size can count. -/
  | bundleTooLarge
  /-- The machine does not have the memory that a bundle would take. -/
  | noMemory (bytes : Nat)
  /-- An element leaving a window carries more charge than the window holds. -/
  | aggregateUnderflow
  /-- An element leaving a window carries a channel that the window does not count. -/
  | unmatchedRelease (channel : UInt32)
  deriving DecidableEq, Repr, Inhabited

/-- The text of a fault. -/
def Fault.message : Fault → String
  | .sumOverflow => "attempt to add with overflow"
  | .differenceOverflow => "attempt to subtract with overflow"
  | .bundleTooLarge => "capacity overflow"
  | .noMemory bytes => "memory allocation of " ++ toString bytes ++ " bytes failed"
  | .aggregateUnderflow => "ADC aggregate underflow"
  | .unmatchedRelease c =>
    "channel " ++ toString c.toNat ++ " released without a matching add"

/-! ## Ticks -/

/-- A point in time or a length of time, in clock ticks. -/
abbrev Ticks := Int64

namespace Ticks

/-- Whether an exact tick count fits the word. -/
def Fits (i : Int) : Prop := -0x8000000000000000 ≤ i ∧ i < 0x8000000000000000

instance (i : Int) : Decidable (Fits i) := inferInstanceAs (Decidable (_ ∧ _))

/-- The sum of two tick counts, or a fault where it does not fit. -/
def plus (a b : Ticks) : Except Fault Ticks :=
  if Fits (a.toInt + b.toInt) then .ok (a + b) else .error .sumOverflow

/-- The difference of two tick counts, or a fault where it does not fit. -/
def minus (a b : Ticks) : Except Fault Ticks :=
  if Fits (a.toInt - b.toInt) then .ok (a - b) else .error .differenceOverflow

/-- The sum of a list of tick counts from left to right, faulting at the first partial
    sum that does not fit. -/
def total (ts : List Ticks) : Except Fault Ticks :=
  ts.foldlM plus 0

/-- The tick count of an exact integer, if it fits. -/
def ofInt? (i : Int) : Option Ticks :=
  if Fits i then some (Int64.ofInt i) else none

/-- How long before `now` the moment `earlier` was, cut off at the ends of the range. -/
def since (now earlier : Ticks) : Ticks :=
  Int64.ofIntClamp (now.toInt - earlier.toInt)

/-- The distance between two moments, exactly. -/
def distance (a b : Ticks) : Nat := (a.toInt - b.toInt).natAbs

/-! ### Laws -/

theorem fits_toInt (a : Ticks) : Fits a.toInt := ⟨a.le_toInt, a.toInt_lt⟩

@[simp] theorem ofInt?_toInt (a : Ticks) : ofInt? a.toInt = some a := by
  rw [ofInt?, if_pos (fits_toInt a), Int64.ofInt_toInt a]

theorem toInt_add_of_fits {a b : Ticks} (h : Fits (a.toInt + b.toInt)) :
    (a + b).toInt = a.toInt + b.toInt := by
  obtain ⟨h₁, h₂⟩ := h
  rw [Int64.toInt_add]
  simp only [Int.bmod]
  omega

theorem toInt_sub_of_fits {a b : Ticks} (h : Fits (a.toInt - b.toInt)) :
    (a - b).toInt = a.toInt - b.toInt := by
  obtain ⟨h₁, h₂⟩ := h
  rw [Int64.toInt_sub]
  simp only [Int.bmod]
  omega

/-- A checked sum succeeds exactly with the exact sum. -/
theorem plus_eq_ok_iff {a b c : Ticks} :
    plus a b = .ok c ↔ c.toInt = a.toInt + b.toInt := by
  unfold plus
  constructor
  · intro h
    split at h
    · rename_i hf
      cases h
      exact toInt_add_of_fits hf
    · cases h
  · intro h
    have hf : Fits (a.toInt + b.toInt) := h ▸ fits_toInt c
    rw [if_pos hf]
    exact congrArg _ (Int64.toInt_inj.1 (by rw [toInt_add_of_fits hf, h]))

/-- A checked difference succeeds exactly with the exact difference. -/
theorem minus_eq_ok_iff {a b c : Ticks} :
    minus a b = .ok c ↔ c.toInt = a.toInt - b.toInt := by
  unfold minus
  constructor
  · intro h
    split at h
    · rename_i hf
      cases h
      exact toInt_sub_of_fits hf
    · cases h
  · intro h
    have hf : Fits (a.toInt - b.toInt) := h ▸ fits_toInt c
    rw [if_pos hf]
    exact congrArg _ (Int64.toInt_inj.1 (by rw [toInt_sub_of_fits hf, h]))

/-- The saturated difference is the exact one, cut off at the ends of the range. -/
theorem toInt_since (now earlier : Ticks) :
    (since now earlier).toInt
      = max (-0x8000000000000000) (min 0x7FFFFFFFFFFFFFFF (now.toInt - earlier.toInt)) := by
  unfold since
  have hmin : Int64.minValue.toInt = -0x8000000000000000 := by decide
  have hmax : Int64.maxValue.toInt = 0x7FFFFFFFFFFFFFFF := by decide
  by_cases h₁ : now.toInt - earlier.toInt < -0x8000000000000000
  · have : Int64.ofIntClamp (now.toInt - earlier.toInt) = Int64.minValue := by
      unfold Int64.ofIntClamp
      rw [dif_neg (by omega)]
    rw [this, hmin]
    omega
  · by_cases h₂ : 0x8000000000000000 ≤ now.toInt - earlier.toInt
    · have : Int64.ofIntClamp (now.toInt - earlier.toInt) = Int64.maxValue := by
        unfold Int64.ofIntClamp
        rw [dif_pos (by omega), dif_neg (by omega)]
      rw [this, hmax]
      omega
    · rw [Int64.toInt_ofIntClamp (by omega) (by omega)]
      omega

/-- Comparing a saturated age with a positive length is comparing the exact difference. -/
theorem since_lt_iff {now earlier length : Ticks} (h : 0 < length.toInt) :
    since now earlier < length ↔ now.toInt - earlier.toInt < length.toInt := by
  have h₁ := length.toInt_lt
  rw [Int64.lt_iff_toInt_lt, toInt_since]
  omega

end Ticks

/-! ## Charge sums -/

/-- A summed charge. -/
abbrev Charge := UInt64

/-- The sum of two charges, or a fault where it does not fit. -/
def Charge.plus (a b : Charge) : Except Fault Charge :=
  if a.toNat + b.toNat < UInt64.size then .ok (a + b) else .error .sumOverflow

/-- A checked charge sum succeeds exactly with the exact sum. -/
theorem Charge.plus_eq_ok_iff {a b c : Charge} :
    Charge.plus a b = .ok c ↔ c.toNat = a.toNat + b.toNat := by
  unfold Charge.plus
  have hadd : (a + b).toNat = (a.toNat + b.toNat) % UInt64.size := UInt64.toNat_add a b
  constructor
  · intro h
    split at h
    · rename_i hf
      cases h
      rw [hadd, Nat.mod_eq_of_lt hf]
    · cases h
  · intro h
    have hf : a.toNat + b.toNat < UInt64.size := h ▸ c.toNat_lt
    rw [if_pos hf]
    exact congrArg _ (UInt64.toNat_inj.1 (by rw [hadd, Nat.mod_eq_of_lt hf, h]))

end TriggerChain
