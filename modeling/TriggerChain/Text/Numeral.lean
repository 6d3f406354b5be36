import TriggerChain.Ticks

/-!
# Decimal numerals

Integers are written with the fewest decimal digits, behind a minus if they are negative.
A reader also takes leading zeros and a plus; a minus it takes only where negative values
have a place, and a value that does not fit the word is refused.

Main statements: `unsigned?_natural` and `signed?_integer`, what is written reads back.
-/

namespace TriggerChain.Text

/-! ## Writing -/

/-- The character of a digit below ten. -/
def digitChar (d : Nat) : Char := Char.ofNat (48 + d)

/-- The digits of a natural number. -/
def natural (n : Nat) : List Char :=
  if n < 10 then [digitChar n] else natural (n / 10) ++ [digitChar (n % 10)]

/-- The numeral of an integer. -/
def integer (i : Int) : List Char :=
  if i < 0 then '-' :: natural i.natAbs else natural i.toNat

/-- The text of a natural number. -/
def ofNat (n : Nat) : String := String.ofList (natural n)

/-- The text of an integer. -/
def ofInt (i : Int) : String := String.ofList (integer i)

/-! ## Reading -/

/-- The value of a digit. -/
def digitValue? (c : Char) : Option Nat :=
  if '0' ≤ c ∧ c ≤ '9' then some (c.toNat - 48) else none

/-- Reads digits to the end of the text, from the value of the digits before. -/
def digits? (n : Nat) : List Char → Option Nat
  | [] => some n
  | c :: rest => (digitValue? c).bind fun d => digits? (10 * n + d) rest

/-- Reads one digit or more, and nothing else. -/
def magnitude? (cs : List Char) : Option Nat :=
  if cs.isEmpty then none else digits? 0 cs

/-- Reads a number below a limit, with an optional plus. -/
def unsigned? (limit : Nat) (cs : List Char) : Option Nat :=
  let digits := match cs with
    | '+' :: rest => rest
    | _ => cs
  (magnitude? digits).filter (fun n => decide (n < limit))

/-- Reads a tick count, with an optional sign. -/
def signed? (cs : List Char) : Option Ticks :=
  match cs with
  | '-' :: rest => (magnitude? rest).bind fun n => Ticks.ofInt? (-(n : Int))
  | '+' :: rest => (magnitude? rest).bind fun n => Ticks.ofInt? n
  | _ => (magnitude? cs).bind fun n => Ticks.ofInt? n

/-! ## Laws -/

theorem digitValue?_digitChar {d : Nat} (h : d < 10) :
    digitValue? (digitChar d) = some d := by
  have key : ∀ d : Fin 10, digitValue? (digitChar d) = some d.val := by decide
  exact key ⟨d, h⟩

/-- No digit is a sign. -/
theorem digitChar_ne_sign {d : Nat} (h : d < 10) :
    digitChar d ≠ '-' ∧ digitChar d ≠ '+' := by
  have key : ∀ d : Fin 10, digitChar d ≠ '-' ∧ digitChar d ≠ '+' := by decide
  exact key ⟨d, h⟩

theorem natural_ne_nil (n : Nat) : natural n ≠ [] := by
  unfold natural
  split <;> simp

/-- Every character of a numeral is a digit. -/
theorem mem_natural {n : Nat} {c : Char} (h : c ∈ natural n) :
    ∃ d, d < 10 ∧ c = digitChar d := by
  induction n using natural.induct with
  | case1 n hn =>
    rw [natural, if_pos hn] at h
    exact ⟨n, hn, by simpa using h⟩
  | case2 n hn ih =>
    rw [natural, if_neg hn] at h
    rcases List.mem_append.1 h with h | h
    · exact ih h
    · exact ⟨n % 10, Nat.mod_lt _ (by decide), by simpa using h⟩

/-- Digits read one after the other. -/
theorem digits?_append (n : Nat) (cs : List Char) (c : Char) :
    digits? n (cs ++ [c])
      = (digits? n cs).bind fun m => (digitValue? c).map fun d => 10 * m + d := by
  induction cs generalizing n with
  | nil => cases h : digitValue? c <;> simp [digits?, h]
  | cons a cs ih =>
    cases h : digitValue? a with
    | none => simp [digits?, h]
    | some d => simp [digits?, h, ih]

theorem digits?_natural (n : Nat) : digits? 0 (natural n) = some n := by
  induction n using natural.induct with
  | case1 n hn =>
    rw [natural, if_pos hn]
    simp [digits?, digitValue?_digitChar hn]
  | case2 n hn ih =>
    rw [natural, if_neg hn, digits?_append, ih]
    simp only [Option.bind_some, digitValue?_digitChar (Nat.mod_lt n (by decide : 0 < 10)),
      Option.map_some]
    congr 1
    omega

theorem magnitude?_natural (n : Nat) : magnitude? (natural n) = some n := by
  unfold magnitude?
  rw [if_neg (by simpa using natural_ne_nil n), digits?_natural]

/-- A written number begins with a digit. -/
theorem natural_eq_cons (n : Nat) :
    ∃ c cs, natural n = c :: cs ∧ c ≠ '-' ∧ c ≠ '+' := by
  cases h : natural n with
  | nil => exact absurd h (natural_ne_nil n)
  | cons c cs =>
    obtain ⟨d, hd, rfl⟩ := mem_natural (n := n) (c := c) (by simp [h])
    exact ⟨_, cs, rfl, digitChar_ne_sign hd⟩

/-- What is written of a number that fits reads back. -/
theorem unsigned?_natural {limit n : Nat} (h : n < limit) :
    unsigned? limit (natural n) = some n := by
  obtain ⟨c, cs, hc, -, hplus⟩ := natural_eq_cons n
  have : magnitude? (c :: cs) = some n := hc ▸ magnitude?_natural n
  unfold unsigned?
  rw [hc]
  dsimp only
  split
  · rename_i heq
    cases heq
    exact absurd rfl hplus
  · simp [this, h]

/-- What is written of a tick count reads back. -/
theorem signed?_integer (t : Ticks) : signed? (integer t.toInt) = some t := by
  unfold integer
  split
  · rename_i hneg
    have hvalue : (-(t.toInt.natAbs : Int)) = t.toInt := by omega
    have hread : signed? ('-' :: natural t.toInt.natAbs)
        = (magnitude? (natural t.toInt.natAbs)).bind fun n => Ticks.ofInt? (-(n : Int)) := rfl
    rw [hread, magnitude?_natural, Option.bind_some, hvalue, Ticks.ofInt?_toInt]
  · rename_i hneg
    obtain ⟨c, cs, hc, hminus, hplus⟩ := natural_eq_cons t.toInt.toNat
    have hm : magnitude? (c :: cs) = some t.toInt.toNat := hc ▸ magnitude?_natural _
    have : ((t.toInt.toNat : Nat) : Int) = t.toInt := by omega
    unfold signed?
    rw [hc]
    split
    · rename_i heq
      cases heq
      exact absurd rfl hminus
    · rename_i heq
      cases heq
      exact absurd rfl hplus
    · rw [hm, Option.bind_some, this, Ticks.ofInt?_toInt]

end TriggerChain.Text
