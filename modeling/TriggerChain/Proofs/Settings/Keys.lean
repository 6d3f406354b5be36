import Mathlib.Data.List.Basic
import TriggerChain.Proofs.Checked
import TriggerChain.Settings.Overlay

/-!
# The keys of settings, one by one

Settings are what their keys say: two settings with the same value at every key are the same. A
member of a JSON object that is taken sets the value of its own key and leaves every other key
alone, and the ranges of settings are looked at key by key too. So for every key there is one
answer to the question why it does not take a value, whatever the settings are that the value is
laid over.

Main statements: `Settings.ext_value`, `Settings.value_of_change` and
`Settings.rangeRejections_eq`.
-/

namespace TriggerChain

/-! ## Names -/

namespace SettingsKey

theorem ofName?_name (key : SettingsKey) : ofName? key.name = some key := by
  rcases key with k | k | k | _
  · cases k <;> decide
  · cases k <;> decide
  · cases k <;> decide
  · decide

/-- A text names a key exactly if it is the key's name. -/
theorem ofName?_eq_some_iff {text : String} {key : SettingsKey} :
    ofName? text = some key ↔ text = key.name := by
  constructor
  · intro h
    have hname := List.find?_some h
    exact (of_decide_eq_true hname).symm
  · rintro rfl
    exact ofName?_name key

theorem name_injective {key key' : SettingsKey} (h : key.name = key'.name) : key = key' := by
  have hsome := ofName?_name key
  rw [h, ofName?_name key'] at hsome
  exact (Option.some.inj hsome).symm

theorem mem_all (key : SettingsKey) : key ∈ all := by
  rcases key with k | k | k | _
  · cases k <;> decide
  · cases k <;> decide
  · cases k <;> decide
  · decide

theorem nodup_all : all.Nodup := by decide

end SettingsKey

/-! ## Values -/

theorem ToleranceRule.name_injective {rule rule' : ToleranceRule} (h : rule.name = rule'.name) :
    rule = rule' := by
  have hsome := ofName?_eq_some_iff.2 h
  rw [ofName?_eq_some_iff.2 rfl] at hsome
  exact Option.some.inj hsome

namespace Settings

theorem toleranceRule_of_value {s s' : Settings} (h : s.value .rule = s'.value .rule) :
    s.toleranceRule = s'.toleranceRule := by
  simp only [value] at h
  cases hs : s.toleranceRule with
  | none =>
    cases hs' : s'.toleranceRule with
    | none => rfl
    | some rule' =>
      rw [hs, hs'] at h
      cases h
  | some rule =>
    cases hs' : s'.toleranceRule with
    | none =>
      rw [hs, hs'] at h
      cases h
    | some rule' =>
      rw [hs, hs'] at h
      exact congrArg some (ToleranceRule.name_injective (Json.text.inj h))

/-- Settings are determined by the values of their keys. -/
theorem ext_value {s s' : Settings} (h : ∀ key, s.value key = s'.value key) : s = s' := by
  have hcount : ∀ {n n' : Nat}, Json.integer n = .integer n' → n = n' :=
    fun h => Int.natCast_inj.1 (Json.integer.inj h)
  have hticks : ∀ {t t' : Ticks}, Json.integer t.toInt = .integer t'.toInt → t = t' :=
    fun h => Int64.toInt_inj.1 (Json.integer.inj h)
  have hrule := toleranceRule_of_value (h .rule)
  cases s
  cases s'
  rw [mk.injEq]
  exact ⟨Json.bool.inj (h (.flag .onAdc)), Json.bool.inj (h (.flag .onChannels)),
    Json.bool.inj (h (.flag .onAdjacency)), Json.bool.inj (h (.flag .onTot)),
    hcount (h (.count .adcThreshold)), hcount (h (.count .channelsThreshold)),
    hcount (h (.count .adjacencyThreshold)), hcount (h (.count .adjacencyTolerance)), hrule,
    hcount (h (.count .totThreshold)), hticks (h (.ticks .windowLength)),
    hcount (h (.count .prescale)), hcount (h (.count .bundleSize)),
    hcount (h (.count .activityThreshold)), hcount (h (.count .hitThreshold)),
    hticks (h (.ticks .readoutBefore)), hticks (h (.ticks .readoutAfter)),
    Json.bool.inj (h (.flag .reportInputs))⟩

/-! ## Changes -/

theorem value_setFlag (s : Settings) (b : Bool) (k : FlagKey) (key : SettingsKey) :
    (s.setFlag b k).value key = if key = .flag k then .bool b else s.value key := by
  rcases key with k' | k' | k' | _
  · cases k <;> cases k' <;> rfl
  · cases k <;> cases k' <;> rfl
  · cases k <;> cases k' <;> rfl
  · cases k <;> rfl

theorem value_setCount (s : Settings) (n : Nat) (k : CountKey) (key : SettingsKey) :
    (s.setCount n k).value key = if key = .count k then .integer n else s.value key := by
  rcases key with k' | k' | k' | _
  · cases k <;> cases k' <;> rfl
  · cases k <;> cases k' <;> rfl
  · cases k <;> cases k' <;> rfl
  · cases k <;> rfl

theorem value_setTicks (s : Settings) (t : Ticks) (k : TicksKey) (key : SettingsKey) :
    (s.setTicks t k).value key = if key = .ticks k then .integer t.toInt else s.value key := by
  rcases key with k' | k' | k' | _
  · cases k <;> cases k' <;> rfl
  · cases k <;> cases k' <;> rfl
  · cases k <;> cases k' <;> rfl
  · cases k <;> rfl

theorem value_setRule (s : Settings) (rule : ToleranceRule) (key : SettingsKey) :
    ({ s with toleranceRule := some rule } : Settings).value key =
      if key = .rule then .text rule.name else s.value key := by
  rcases key with k' | k' | k' | _
  · cases k' <;> rfl
  · cases k' <;> rfl
  · cases k' <;> rfl
  · rfl

end Settings

namespace Json

theorem eq_of_flag? {j : Json} {b : Bool} (h : j.flag? = .ok b) : j = .bool b := by
  unfold flag? at h
  split at h
  · exact congrArg Json.bool (Except.ok.inj h)
  · cases h

theorem eq_of_count? {j : Json} {limit n : Nat} (h : j.count? limit = .ok n) :
    j = .integer n := by
  unfold count? at h
  split at h
  · split at h
    · exact congrArg (fun n : Nat => Json.integer n) (Except.ok.inj h)
    · cases h
  · cases h

theorem eq_of_ticks? {j : Json} {t : Ticks} (h : j.ticks? = .ok t) : j = .integer t.toInt := by
  unfold ticks? at h
  split at h
  · split at h
    · next i _ t' hticks =>
      obtain rfl := Except.ok.inj h
      unfold Ticks.ofInt? at hticks
      split at hticks
      · next hfits =>
        obtain rfl := Option.some.inj hticks
        rw [Int64.toInt_ofInt_of_le hfits.1 hfits.2]
      · cases hticks
    · cases h
  · cases h

theorem eq_of_rule? {j : Json} {rule : ToleranceRule} (h : j.rule? = .ok rule) :
    j = .text rule.name := by
  unfold rule? at h
  split at h
  · split at h
    · next rule' hname =>
      obtain rfl := Except.ok.inj h
      exact congrArg Json.text (ToleranceRule.ofName?_eq_some_iff.1 hname)
    · cases h
  · cases h

end Json

namespace Settings

/-- A change sets the value of its key, and of no other. -/
theorem value_of_change {key : SettingsKey} {j : Json} {f : Settings → Settings}
    (h : change key.name j = .ok f) (s : Settings) (other : SettingsKey) :
    (f s).value other = if other = key then j else s.value other := by
  unfold change at h
  rw [SettingsKey.ofName?_name] at h
  cases key with
  | flag k =>
    obtain ⟨b, hb, rfl⟩ := Checked.map_eq_ok_iff.1 h
    rw [Json.eq_of_flag? hb]
    exact s.value_setFlag b k other
  | count k =>
    obtain ⟨n, hn, rfl⟩ := Checked.map_eq_ok_iff.1 h
    rw [Json.eq_of_count? hn]
    exact s.value_setCount n k other
  | ticks k =>
    obtain ⟨t, ht, rfl⟩ := Checked.map_eq_ok_iff.1 h
    rw [Json.eq_of_ticks? ht]
    exact s.value_setTicks t k other
  | rule =>
    obtain ⟨rule, hrule, rfl⟩ := Checked.map_eq_ok_iff.1 h
    rw [Json.eq_of_rule? hrule]
    exact s.value_setRule rule other

end Settings

/-! ## Ranges -/

/-- What is said of a number that is too small for a key. -/
def SettingsKey.tooSmall? : SettingsKey → Json → Option Reason
  | .count .prescale, .integer i => if i = 0 then some .zero else none
  | .count .bundleSize, .integer i => if i = 0 then some .zero else none
  | .ticks .windowLength, .integer i => if i ≤ 0 then some .notPositive else none
  | .ticks .readoutBefore, .integer i => if i < 0 then some .negative else none
  | .ticks .readoutAfter, .integer i => if i < 0 then some .negative else none
  | _, _ => none

/-- A reason, if there is one, as a list of rejections. -/
theorem toList_map_ite {c : Prop} [Decidable c] (reason : Reason) (key : String) :
    ((if c then some reason else none).map (Rejection.mk key)).toList =
      if c then [⟨key, reason⟩] else [] := by
  split <;> rfl

/-- The ranges of settings are those of their keys. -/
theorem Settings.rangeRejections_eq (s : Settings) :
    s.rangeRejections = SettingsKey.all.filterMap fun key =>
      (key.tooSmall? (s.value key)).map (Rejection.mk key.name) := by
  have hlength : s.windowLength ≤ 0 ↔ s.windowLength.toInt ≤ 0 := by
    rw [Int64.le_iff_toInt_le, Int64.toInt_zero]
  have hbefore : s.readoutBefore < 0 ↔ s.readoutBefore.toInt < 0 := by
    rw [Int64.lt_iff_toInt_lt, Int64.toInt_zero]
  have hafter : s.readoutAfter < 0 ↔ s.readoutAfter.toInt < 0 := by
    rw [Int64.lt_iff_toInt_lt, Int64.toInt_zero]
  rw [rangeRejections, List.filterMap_eq_flatMap_toList]
  -- Most keys have no range of their own; what they say is the empty list.
  simp only [SettingsKey.all, List.flatMap_cons, List.flatMap_nil, SettingsKey.tooSmall?, value,
    hlength, hbefore, hafter, Int.natCast_eq_zero, toList_map_ite, Option.map_none,
    Option.toList_none, List.nil_append, List.append_nil, List.append_assoc, SettingsKey.name]

/-! ## What a key takes -/

/-- Why a key does not take a value, if it does not: the value has the wrong sort, does not fit the
    word of the key, names no rule, or is too small. -/
def SettingsKey.refusal? : SettingsKey → Json → Option Reason
  | .flag _, .bool _ => none
  | .flag _, j => some (.notBoolean j.kind)
  | .count k, .integer (.ofNat n) =>
    if k.limit ≤ n then some (.outOfRange n) else tooSmall? (.count k) (.integer n)
  | .count _, j => some (.notCount j.kind)
  | .ticks k, .integer i =>
    if ¬ Ticks.Fits i then some (.notTicks .number) else tooSmall? (.ticks k) (.integer i)
  | .ticks _, j => some (.notTicks j.kind)
  | .rule, .text name =>
    if (ToleranceRule.ofName? name).isNone then some (.unknownRule name) else none
  | .rule, j => some (.notText j.kind)

/-- The reason of a value that is not even staged. -/
def SettingsKey.mistyped? (key : SettingsKey) (j : Json) : Option Reason :=
  match Settings.change key.name j with
  | .ok _ => none
  | .error reason => some reason

/-- A value that is refused is not staged, or it is staged and too small. -/
theorem SettingsKey.refusal?_eq (key : SettingsKey) (j : Json) :
    key.refusal? j = (key.mistyped? j).or (key.tooSmall? j) := by
  unfold mistyped? Settings.change
  rw [ofName?_name]
  cases key with
  | flag k => cases j <;> rfl
  | count k =>
    cases j with
    | integer i =>
      cases i with
      | ofNat n =>
        rw [refusal?]
        simp only [Json.count?]
        by_cases hlimit : n < k.limit
        · rw [if_pos hlimit, if_neg (Nat.not_le.2 hlimit)]
          rfl
        · rw [if_neg hlimit, if_pos (Nat.le_of_not_lt hlimit)]
          rfl
      | negSucc n => rfl
    | _ => rfl
  | ticks k =>
    cases j with
    | integer i =>
      rw [refusal?]
      simp only [Json.ticks?, Ticks.ofInt?]
      by_cases hfits : Ticks.Fits i
      · rw [if_pos hfits, if_neg (not_not_intro hfits)]
        rfl
      · rw [if_neg hfits, if_pos hfits]
        rfl
    | _ => rfl
  | rule =>
    cases j with
    | text name =>
      have hnone : tooSmall? .rule (.text name) = none := rfl
      rw [refusal?, hnone, Option.or_none]
      simp only [Json.rule?]
      cases ToleranceRule.ofName? name <;> rfl
    | _ => rfl

end TriggerChain
