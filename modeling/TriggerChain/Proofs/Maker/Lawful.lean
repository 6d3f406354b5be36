import TriggerChain.Proofs.Maker.Reference

/-!
# Lawful policies

A policy looks at the aggregates that a window keeps; its counterpart on lists works them out
from the elements. On a consistent window the two agree, in what they decide as in what they
make of the window, and where a number of the output does not fit its word, both have none.

Main statements: the instances of `LawfulPolicy` for the three policies.
-/

namespace TriggerChain

/-- Whether a fault is a sum or a difference that does not fit its word. -/
def Fault.IsOverflow (fault : Fault) : Prop :=
  fault = .sumOverflow ∨ fault = .differenceOverflow

/-- A policy decides on a consistent window what it decides on the list of its elements. -/
class LawfulPolicy (π : Type) (τ ο : outParam Type) [Element τ] [Policy π τ ο]
    [ListPolicy π τ ο] [Cluster ο τ] : Prop where
  passes_eq : ∀ p : π, Policy.passthrough p = ListPolicy.passes p
  fires_eq : ∀ (p : π) (w : Window τ) (x : τ), w.Consistent →
    Policy.evaluate p w x = ListPolicy.fires p w.inputs x
  firesAtEnd_eq : ∀ (p : π) (w : Window τ), w.Consistent →
    Policy.evaluateFlush p w = ListPolicy.firesAtEnd p w.inputs
  construct_cases : ∀ (p : π) (w : Window τ), w.Consistent → w.inputs ≠ [] →
    (∃ o, Policy.construct p w = .ok (some o) ∧ ListPolicy.record? p w.inputs = some o) ∨
    (∃ fault, Policy.construct p w = .error fault ∧ fault.IsOverflow ∧
      ListPolicy.record? p w.inputs = none)
  elements_record : ∀ (p : π) (xs : List τ) (o : ο),
    ListPolicy.record? p xs = some o → Cluster.elements o = xs

/-! ## Conditions on the aggregates -/

theorem firesOnSums_eq {τ : Type} [Element τ] (s : Settings) {w : Window τ}
    (hw : w.Consistent) : s.aggregates w = s.firesOnSums w.inputs := by
  have hchannels : w.channelsHit = (Window.channelsOf w.inputs).dedup.length :=
    hw.represents.channelsHit
  rw [Settings.aggregates, Settings.firesOnSums, hw.aggregates.charge, hchannels]

theorem channelsOf_primitives (ps : List Primitive) :
    Window.channelsOf ps = ps.map (·.channel) := by
  induction ps with
  | nil => rfl
  | cons p ps ih =>
    rw [Window.channelsOf_cons, ih]
    rfl

/-! ## Checked times -/

theorem Ticks.plus_cases (a b : Ticks) :
    (∃ c, a.plus b = .ok c ∧ ofInt? (a.toInt + b.toInt) = some c) ∨
    (a.plus b = .error .sumOverflow ∧ ofInt? (a.toInt + b.toInt) = none) := by
  by_cases hfits : Fits (a.toInt + b.toInt)
  · have hok : a.plus b = .ok (a + b) := if_pos hfits
    have hsum := plus_eq_ok_iff.1 hok
    exact .inl ⟨a + b, hok, hsum ▸ ofInt?_toInt (a + b)⟩
  · exact .inr ⟨if_neg hfits, if_neg hfits⟩

theorem Ticks.minus_cases (a b : Ticks) :
    (∃ c, a.minus b = .ok c ∧ ofInt? (a.toInt - b.toInt) = some c) ∨
    (a.minus b = .error .differenceOverflow ∧ ofInt? (a.toInt - b.toInt) = none) := by
  by_cases hfits : Fits (a.toInt - b.toInt)
  · have hok : a.minus b = .ok (a - b) := if_pos hfits
    have hdiff := minus_eq_ok_iff.1 hok
    exact .inl ⟨a - b, hok, hdiff ▸ ofInt?_toInt (a - b)⟩
  · exact .inr ⟨if_neg hfits, if_neg hfits⟩

theorem Charge.ofNat?_toNat (c : Charge) : Charge.ofNat? c.toNat = some c := by
  rw [ofNat?, if_pos c.toNat_lt, UInt64.ofNat_toNat]

/-! ## Activities -/

theorem activity_of_cons {w : Window Primitive} {first : Primitive} {rest : List Primitive}
    (hinputs : w.inputs = first :: rest) (algorithm : ActivityAlgorithm)
    (endIncludesTot : Bool) :
    w.activity algorithm endIncludesTot =
      (if endIncludesTot then (rest.getLastD first).timeEnd
        else .ok (rest.getLastD first).timeStart).map fun timeEnd =>
          some (.spanning algorithm w.timeStart timeEnd w.adcIntegral first rest) := by
  rw [Window.activity, hinputs]
  cases endIncludesTot with
  | true =>
    -- The rest of the computation cannot stop, so it is a map.
    show (rest.getLastD first).timeEnd.bind _ = (rest.getLastD first).timeEnd.map _
    cases (rest.getLastD first).timeEnd <;> rfl
  | false => rfl

/-- When an activity that ends with a primitive lasts until, exactly. -/
def exactTimeEnd (endIncludesTot : Bool) (last : Primitive) : Int :=
  if endIncludesTot then last.timeStart.toInt + last.timeOverThreshold.toInt
  else last.timeStart.toInt

theorem timeEnd_cases (endIncludesTot : Bool) (last : Primitive) :
    (∃ t, (if endIncludesTot then last.timeEnd else .ok last.timeStart) = .ok t ∧
      Ticks.ofInt? (exactTimeEnd endIncludesTot last) = some t) ∨
    ((if endIncludesTot then last.timeEnd else .ok last.timeStart) = .error .sumOverflow ∧
      Ticks.ofInt? (exactTimeEnd endIncludesTot last) = none) := by
  cases endIncludesTot with
  | true => exact Ticks.plus_cases last.timeStart last.timeOverThreshold
  | false => exact .inl ⟨last.timeStart, rfl, Ticks.ofInt?_toInt last.timeStart⟩

theorem activity_cases {w : Window Primitive} (hw : w.Consistent) (hinputs : w.inputs ≠ [])
    (algorithm : ActivityAlgorithm) (endIncludesTot : Bool) :
    (∃ a, w.activity algorithm endIncludesTot = .ok (some a) ∧
      Activity.ofPrimitives? algorithm (exactTimeEnd endIncludesTot) w.inputs = some a) ∨
    (w.activity algorithm endIncludesTot = .error .sumOverflow ∧
      Activity.ofPrimitives? algorithm (exactTimeEnd endIncludesTot) w.inputs = none) := by
  obtain ⟨first, rest, hcons⟩ := List.exists_cons_of_ne_nil hinputs
  -- The charge and the start are kept by the window; only the end can fail to fit.
  have hcharge : Charge.ofNat? (Window.chargeOf (first :: rest)) = some w.adcIntegral := by
    rw [← hcons, ← hw.aggregates.charge, Charge.ofNat?_toNat]
  have hstart : w.timeStart = first.timeStart := by
    rw [hw.start, hcons]
    rfl
  rw [activity_of_cons hcons, hcons, hstart, Activity.ofPrimitives?, hcharge]
  rcases timeEnd_cases endIncludesTot (rest.getLastD first) with
    ⟨timeEnd, hend, hexact⟩ | ⟨hend, hexact⟩
  · rw [hend, hexact]
    exact .inl ⟨_, rfl, rfl⟩
  · rw [hend, hexact]
    exact .inr ⟨rfl, rfl⟩

theorem inputs_ofPrimitives? {algorithm : ActivityAlgorithm} {timeEnd : Primitive → Int}
    {ps : List Primitive} {a : Activity}
    (h : Activity.ofPrimitives? algorithm timeEnd ps = some a) :
    a.inputs = ps ∧ a.timeStart = Window.startOf ps := by
  cases ps with
  | nil => cases h
  | cons first rest =>
    obtain ⟨timeEnd, -, h⟩ := Option.bind_eq_some_iff.1 h
    obtain ⟨charge, -, h⟩ := Option.bind_eq_some_iff.1 h
    obtain rfl := Option.some.inj h
    exact ⟨rfl, rfl⟩

/-! ## Candidates -/

theorem endOf_cases (a : Activity) :
    (∃ t, Grouping.endOf a = .ok t ∧ Ticks.ofInt? (Grouping.exactEndOf a) = some t) ∨
    (Grouping.endOf a = .error .sumOverflow ∧
      Ticks.ofInt? (Grouping.exactEndOf a) = none) := by
  rw [Grouping.endOf, Grouping.exactEndOf]
  cases a.inputs.getLast? with
  | none => exact .inl ⟨a.timeEnd, rfl, Ticks.ofInt?_toInt a.timeEnd⟩
  | some p => exact Ticks.plus_cases p.timeStart p.timeOverThreshold

theorem getLast?_cons_eq_getLastD {α : Type} (first : α) (rest : List α) :
    (first :: rest).getLast? = some (rest.getLastD first) := by
  rw [List.getLast?_cons, List.getLastD_eq_getLast?]

theorem candidate_cases (g : Grouping) {w : Window Activity} (hw : w.Consistent)
    (hinputs : w.inputs ≠ []) :
    (∃ c, g.construct w = .ok (some c) ∧ g.record? w.inputs = some c) ∨
    (∃ fault, g.construct w = .error fault ∧ fault.IsOverflow ∧
      g.record? w.inputs = none) := by
  obtain ⟨first, rest, hcons⟩ := List.exists_cons_of_ne_nil hinputs
  have hstart : w.timeStart = first.timeStart := by
    rw [hw.start, hcons]
    rfl
  rw [Grouping.construct, hcons, hstart, getLast?_cons_eq_getLastD, Grouping.record?]
  dsimp only
  -- The three checked numbers, in the order in which both sides look at them.
  rcases endOf_cases (rest.getLastD first) with ⟨lastEnd, hend, hexact⟩ | ⟨hend, hexact⟩
  · rw [hend, hexact]
    dsimp only [bind, Except.bind, Option.bind]
    rcases first.timeStart.minus_cases g.settings.readoutBefore with
      ⟨timeStart, hbefore, hexact⟩ | ⟨hbefore, hexact⟩
    · rw [hbefore, hexact]
      dsimp only
      rcases lastEnd.plus_cases g.settings.readoutAfter with
        ⟨timeEnd, hafter, hexact⟩ | ⟨hafter, hexact⟩
      · rw [hafter, hexact]
        refine .inl ⟨_, rfl, ?_⟩
        simp only [Candidate.ofActivities, getLast?_cons_eq_getLastD]
        rfl
      · rw [hafter, hexact]
        exact .inr ⟨_, rfl, .inl rfl, rfl⟩
    · rw [hbefore, hexact]
      exact .inr ⟨_, rfl, .inr rfl, rfl⟩
  · rw [hend, hexact]
    exact .inr ⟨_, rfl, .inl rfl, rfl⟩

theorem inputs_record? {g : Grouping} {as : List Activity} {c : Candidate}
    (h : g.record? as = some c) : c.inputs = as := by
  cases as with
  | nil => cases h
  | cons first rest =>
    obtain ⟨lastEnd, -, h⟩ := Option.bind_eq_some_iff.1 h
    obtain ⟨timeStart, -, h⟩ := Option.bind_eq_some_iff.1 h
    obtain ⟨timeEnd, -, h⟩ := Option.bind_eq_some_iff.1 h
    obtain rfl := Option.some.inj h
    rfl

/-! ## The policies are lawful -/

instance : LawfulPolicy Geometry Primitive Activity where
  passes_eq _ := rfl
  fires_eq g w x hw := by
    show g.evaluate w x = g.firesOn w.inputs x
    rw [Geometry.evaluate, Geometry.firesOn, firesOnSums_eq g.settings hw,
      Geometry.evaluateAdjacency, Geometry.evaluateTot, Geometry.adjacency,
      channelsOf_primitives]
    split
    · rfl
    · rfl
  firesAtEnd_eq g w hw := firesOnSums_eq g.settings hw
  construct_cases g w hw hinputs := by
    rcases activity_cases hw hinputs g.algorithm false with hmade | ⟨herr, hnone⟩
    · exact .inl hmade
    · exact .inr ⟨_, herr, .inl rfl, hnone⟩
  elements_record g xs o h := (inputs_ofPrimitives? h).1

instance : LawfulPolicy Shape Primitive Activity where
  passes_eq _ := rfl
  fires_eq p w x hw := by
    show p.evaluate w = p.firesOn w.inputs
    rw [Shape.evaluate, Shape.firesOn, Shape.isLong, Shape.adjacency, channelsOf_primitives]
    by_cases hon : p.settings.triggerOnAdjacency = true
    · simp only [hon, Bool.true_and, decide_eq_true_eq, true_and]
      by_cases hlong : p.settings.adjacencyThreshold <
          p.test.scanner.longestRun (w.inputs.map (·.channel))
      · simp only [hlong, if_true, true_and]
      · simp only [hlong, if_false, false_and]
    · simp only [hon, Bool.false_and, Bool.false_eq_true, if_false, false_and]
  firesAtEnd_eq _ _ _ := rfl
  construct_cases p w hw hinputs := by
    rcases activity_cases hw hinputs .michelElectron true with hmade | ⟨herr, hnone⟩
    · exact .inl hmade
    · exact .inr ⟨_, herr, .inl rfl, hnone⟩
  elements_record p xs o h := (inputs_ofPrimitives? h).1

instance : LawfulPolicy Grouping Activity Candidate where
  passes_eq g := by
    show g.passthrough = _
    rw [Grouping.passthrough, Bool.not_or, Bool.not_or]
    rfl
  fires_eq g w x hw := by
    show g.evaluate w = _
    rw [Grouping.evaluate, firesOnSums_eq g.settings hw]
    rfl
  firesAtEnd_eq g w hw := firesOnSums_eq g.settings hw
  construct_cases g w hw hinputs := candidate_cases g hw hinputs
  elements_record g as c h := inputs_record? h

end TriggerChain
