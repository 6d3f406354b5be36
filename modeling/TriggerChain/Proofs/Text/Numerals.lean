import Mathlib.Data.Nat.Digits.Lemmas
import TriggerChain.Text.Numeral

/-!
# What is read as a numeral

A numeral is one decimal digit or more, as many as there are, behind an optional plus; where values
below zero have a place there may be a minus instead. A reader of a word takes exactly the numerals
whose value fits the word, and nothing else.

Main statements: `unsigned?_eq_some_iff` and `signed?_eq_some_iff`.
-/

namespace TriggerChain.Text

/-! ## Digits -/

/-- One decimal digit or more. -/
structure AreDigits (ds : List Char) : Prop where
  ne_nil : ds ≠ []
  digits : ∀ c ∈ ds, c.isDigit = true

/-- The value of decimal digits, the first of which counts most. -/
def decimal (ds : List Char) : Nat :=
  Nat.ofDigits 10 (ds.reverse.map fun c => c.toNat - '0'.toNat)

theorem decimal_cons (c : Char) (ds : List Char) :
    decimal (c :: ds) = 10 ^ ds.length * (c.toNat - '0'.toNat) + decimal ds := by
  unfold decimal
  rw [List.reverse_cons, List.map_append, Nat.ofDigits_append, List.map_singleton,
    Nat.ofDigits_singleton, List.length_map, List.length_reverse, Nat.add_comm]

theorem digitValue?_eq_some_iff {c : Char} {d : Nat} :
    digitValue? c = some d ↔ c.isDigit = true ∧ d = c.toNat - '0'.toNat := by
  have hdigit : ('0' ≤ c ∧ c ≤ '9') ↔ c.isDigit = true := by
    simp [Char.isDigit, Char.le_def, UInt32.le_iff_toNat_le]
  unfold digitValue?
  by_cases h : '0' ≤ c ∧ c ≤ '9'
  · rw [if_pos h, Option.some_inj]
    exact ⟨fun hd => ⟨hdigit.1 h, hd.symm⟩, fun hd => hd.2.symm⟩
  · rw [if_neg h]
    simp [mt hdigit.2 h]

/-- Digits are read behind others as the lower places of a number. -/
theorem digits?_eq_some_iff {n m : Nat} {ds : List Char} :
    digits? n ds = some m ↔
      (∀ c ∈ ds, c.isDigit = true) ∧ m = 10 ^ ds.length * n + decimal ds := by
  induction ds generalizing n with
  | nil =>
    rw [digits?, Option.some_inj]
    simpa [decimal] using eq_comm
  | cons c ds ih =>
    rw [digits?, Option.bind_eq_some_iff, decimal_cons, List.length_cons, List.forall_mem_cons]
    constructor
    · rintro ⟨d, hd, hrest⟩
      obtain ⟨hc, rfl⟩ := digitValue?_eq_some_iff.1 hd
      obtain ⟨hds, rfl⟩ := ih.1 hrest
      exact ⟨⟨hc, hds⟩, by ring⟩
    · rintro ⟨⟨hc, hds⟩, rfl⟩
      exact ⟨_, digitValue?_eq_some_iff.2 ⟨hc, rfl⟩, ih.2 ⟨hds, by ring⟩⟩

theorem magnitude?_eq_some_iff {n : Nat} {ds : List Char} :
    magnitude? ds = some n ↔ AreDigits ds ∧ n = decimal ds := by
  unfold magnitude?
  cases ds with
  | nil =>
    constructor
    · intro h
      cases h
    · exact fun h => absurd rfl h.1.ne_nil
  | cons c ds =>
    rw [if_neg (by simp), digits?_eq_some_iff, Nat.mul_zero, Nat.zero_add]
    constructor
    · exact fun h => ⟨⟨List.cons_ne_nil c ds, h.1⟩, h.2⟩
    · exact fun h => ⟨h.1.digits, h.2⟩

/-- No sign is a digit. -/
theorem AreDigits.not_sign {c : Char} {ds : List Char} (h : AreDigits (c :: ds)) :
    c ≠ '+' ∧ c ≠ '-' := by
  have hc := h.digits c List.mem_cons_self
  constructor
  · rintro rfl
    exact absurd hc (by decide)
  · rintro rfl
    exact absurd hc (by decide)

/-! ## Numerals -/

/-- A word is a numeral of an integer. -/
inductive IsNumeral (signed : Bool) : List Char → Int → Prop
  /-- Digits alone. -/
  | digits {ds : List Char} (h : AreDigits ds) : IsNumeral signed ds (decimal ds)
  /-- Digits behind a plus. -/
  | plus {ds : List Char} (h : AreDigits ds) : IsNumeral signed ('+' :: ds) (decimal ds)
  /-- Digits behind a minus, where values below zero have a place. -/
  | minus {ds : List Char} (hsigned : signed = true) (h : AreDigits ds) :
    IsNumeral signed ('-' :: ds) (-(decimal ds : Int))

/-- A numeral has one value. -/
theorem IsNumeral.unique {signed : Bool} {word : List Char} {i j : Int}
    (h : IsNumeral signed word i) (h' : IsNumeral signed word j) : i = j := by
  cases h with
  | digits hds =>
    cases h' with
    | digits => rfl
    | plus => exact absurd rfl hds.not_sign.1
    | minus => exact absurd rfl hds.not_sign.2
  | plus =>
    cases h' with
    | digits hds => exact absurd rfl hds.not_sign.1
    | plus => rfl
  | minus =>
    cases h' with
    | digits hds => exact absurd rfl hds.not_sign.2
    | minus => rfl

theorem unsigned?_eq_some_iff {limit n : Nat} {word : List Char} :
    unsigned? limit word = some n ↔ IsNumeral false word n ∧ n < limit := by
  unfold unsigned?
  rw [Option.filter_eq_some_iff, decide_eq_true_eq]
  refine and_congr_left fun _ => ?_
  split
  · rename_i ds
    rw [magnitude?_eq_some_iff]
    constructor
    · rintro ⟨hds, rfl⟩
      exact .plus hds
    · intro h
      generalize hi : (n : Int) = i at h
      cases h with
      | digits hds => exact absurd rfl hds.not_sign.1
      | plus hds => exact ⟨hds, by omega⟩
  · rename_i hplus
    rw [magnitude?_eq_some_iff]
    constructor
    · rintro ⟨hds, rfl⟩
      exact .digits hds
    · intro h
      generalize hi : (n : Int) = i at h
      cases h with
      | digits hds => exact ⟨hds, by omega⟩
      | plus hds => exact absurd rfl (hplus _)
      | minus hsigned => cases hsigned

/-- An integer has a place among the tick counts if it fits. -/
theorem ofInt?_eq_some_iff {i : Int} {t : Ticks} : Ticks.ofInt? i = some t ↔ t.toInt = i := by
  unfold Ticks.ofInt?
  constructor
  · intro h
    split at h
    · rename_i hfits
      obtain rfl := Option.some.inj h
      exact Int64.toInt_ofInt_of_le hfits.1 hfits.2
    · cases h
  · rintro rfl
    rw [if_pos (Ticks.fits_toInt t), Int64.ofInt_toInt]

theorem signed?_eq_some_iff {word : List Char} {t : Ticks} :
    signed? word = some t ↔ IsNumeral true word t.toInt := by
  have hread : ∀ (ds : List Char) (value : Nat → Int),
      ((magnitude? ds).bind fun n => Ticks.ofInt? (value n)) = some t ↔
        AreDigits ds ∧ t.toInt = value (decimal ds) := by
    intro ds value
    rw [Option.bind_eq_some_iff]
    constructor
    · rintro ⟨n, hn, ht⟩
      obtain ⟨hds, rfl⟩ := magnitude?_eq_some_iff.1 hn
      exact ⟨hds, ofInt?_eq_some_iff.1 ht⟩
    · rintro ⟨hds, ht⟩
      exact ⟨_, magnitude?_eq_some_iff.2 ⟨hds, rfl⟩, ofInt?_eq_some_iff.2 ht⟩
  unfold signed?
  split
  · rename_i ds
    rw [hread ds fun n => -(n : Int)]
    constructor
    · rintro ⟨hds, ht⟩
      exact ht ▸ .minus rfl hds
    · intro h
      generalize t.toInt = i at h
      cases h with
      | digits hds => exact absurd rfl hds.not_sign.2
      | minus _ hds => exact ⟨hds, rfl⟩
  · rename_i ds
    rw [hread ds fun n => n]
    constructor
    · rintro ⟨hds, ht⟩
      exact ht ▸ .plus hds
    · intro h
      generalize t.toInt = i at h
      cases h with
      | digits hds => exact absurd rfl hds.not_sign.1
      | plus hds => exact ⟨hds, rfl⟩
  · rename_i hminus hplus
    rw [hread word fun n => n]
    constructor
    · rintro ⟨hds, ht⟩
      exact ht ▸ .digits hds
    · intro h
      generalize t.toInt = i at h
      cases h with
      | digits hds => exact ⟨hds, rfl⟩
      | plus hds => exact absurd rfl (hplus _)
      | minus _ hds => exact absurd rfl (hminus _)

end TriggerChain.Text
