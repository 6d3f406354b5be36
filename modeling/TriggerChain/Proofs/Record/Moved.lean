import TriggerChain.Proofs.Maker.Summary

/-!
# Records moved in time

Two records that are the same but for their times, which are all later by the same offset. What is
made of primitives that are moved is moved with them, if its end still fits; sums, peaks and
channels stay where they are.
-/

namespace TriggerChain

/-- A moment is another one, moved by `d`. -/
def Ticks.MovedBy (d : Int) (a b : Ticks) : Prop := b.toInt = a.toInt + d

/-- A primitive is another one, moved by `d`: it begins and it peaks as much later. -/
structure Primitive.MovedBy (d : Int) (p q : Primitive) : Prop where
  timeStart : Ticks.MovedBy d p.timeStart q.timeStart
  timeOverThreshold : p.timeOverThreshold = q.timeOverThreshold
  timePeak : Ticks.MovedBy d p.timePeak q.timePeak
  channel : p.channel = q.channel
  adcIntegral : p.adcIntegral = q.adcIntegral
  adcPeak : p.adcPeak = q.adcPeak
  detid : p.detid = q.detid
  kind : p.kind = q.kind

/-- An activity is another one, moved by `d`, and so are its primitives. An activity that the
    prescale makes is filed under the time zero, moved or not. -/
structure Activity.MovedBy (d : Int) (a b : Activity) : Prop where
  timeStart : Ticks.MovedBy d a.timeStart b.timeStart
  timeEnd : Ticks.MovedBy d a.timeEnd b.timeEnd
  timePeak : Ticks.MovedBy d a.timePeak b.timePeak
  timeActivity : a.algorithm ≠ .prescale → Ticks.MovedBy d a.timeActivity b.timeActivity
  timePrescaled : a.algorithm = .prescale → a.timeActivity = 0 ∧ b.timeActivity = 0
  channelStart : a.channelStart = b.channelStart
  channelEnd : a.channelEnd = b.channelEnd
  channelPeak : a.channelPeak = b.channelPeak
  adcIntegral : a.adcIntegral = b.adcIntegral
  adcPeak : a.adcPeak = b.adcPeak
  detid : a.detid = b.detid
  kind : a.kind = b.kind
  algorithm : a.algorithm = b.algorithm
  version : a.version = b.version
  inputs : List.Forall₂ (Primitive.MovedBy d) a.inputs b.inputs

/-- A candidate is another one, moved by `d`, and so are its activities. -/
structure Candidate.MovedBy (d : Int) (c c' : Candidate) : Prop where
  timeStart : Ticks.MovedBy d c.timeStart c'.timeStart
  timeEnd : Ticks.MovedBy d c.timeEnd c'.timeEnd
  timeCandidate : Ticks.MovedBy d c.timeCandidate c'.timeCandidate
  detid : c.detid = c'.detid
  kind : c.kind = c'.kind
  algorithm : c.algorithm = c'.algorithm
  version : c.version = c'.version
  inputs : List.Forall₂ (Activity.MovedBy d) c.inputs c'.inputs
  regions : c.regions = c'.regions

variable {d : Int}

/-! ## Checked times -/

theorem Ticks.movedBy_of_ofInt? {i j : Int} {s t : Ticks} (hs : ofInt? i = some s)
    (ht : ofInt? j = some t) (hij : j = i + d) : MovedBy d s t := by
  rw [MovedBy, ofInt?_eq_some hs, ofInt?_eq_some ht, hij]

/-! ## Lists of records -/

section Lists

variable {α β γ : Type} {R : α → β → Prop} {xs : List α} {ys : List β}

theorem forall₂_map_eq {f : α → γ} {g : β → γ} (hfg : ∀ a b, R a b → f a = g b)
    (h : List.Forall₂ R xs ys) : xs.map f = ys.map g := by
  induction h with
  | nil => rfl
  | cons hab _ ih => rw [List.map_cons, List.map_cons, hfg _ _ hab, ih]

theorem forall₂_getLastD {a : α} {b : β} (hab : R a b) (h : List.Forall₂ R xs ys) :
    R (xs.getLastD a) (ys.getLastD b) := by
  induction h generalizing a b with
  | nil => exact hab
  | cons hcd _ ih =>
    rw [List.getLastD_cons, List.getLastD_cons]
    exact ih hcd

end Lists

/-! ## What does not move -/

section Sums

variable {τ : Type} [Element τ] {R : τ → τ → Prop} {xs ys : List τ}

/-- A relation of elements that leaves their charge and their channels as they are. -/
structure KeepsSums (R : τ → τ → Prop) : Prop where
  charge : ∀ a b, R a b → Element.charge a = Element.charge b
  channels : ∀ a b, R a b → Element.channels a = Element.channels b

theorem KeepsSums.chargeOf_eq (hR : KeepsSums R) (h : List.Forall₂ R xs ys) :
    Window.chargeOf xs = Window.chargeOf ys :=
  congrArg List.sum (forall₂_map_eq (fun a b hab => congrArg UInt64.toNat (hR.charge a b hab)) h)

theorem KeepsSums.channelsOf_eq (hR : KeepsSums R) (h : List.Forall₂ R xs ys) :
    Window.channelsOf xs = Window.channelsOf ys := by
  unfold Window.channelsOf
  rw [List.flatMap_def, List.flatMap_def, forall₂_map_eq hR.channels h]

theorem KeepsSums.aggregatesFit (hR : KeepsSums R) (h : List.Forall₂ R xs ys)
    (hfit : Window.AggregatesFit xs) : Window.AggregatesFit ys :=
  ⟨hR.chargeOf_eq h ▸ hfit.charge, hR.channelsOf_eq h ▸ hfit.hits⟩

theorem KeepsSums.firesOnSums_eq (hR : KeepsSums R) (s : Settings) (h : List.Forall₂ R xs ys) :
    s.firesOnSums xs = s.firesOnSums ys := by
  rw [Settings.firesOnSums, Settings.firesOnSums, hR.chargeOf_eq h, hR.channelsOf_eq h]

end Sums

theorem Primitive.keepsSums (d : Int) : KeepsSums (Primitive.MovedBy d) where
  charge _ _ h := congrArg UInt32.toUInt64 h.adcIntegral
  channels _ _ h := congrArg (fun c => [c]) h.channel

theorem Activity.keepsSums (d : Int) : KeepsSums (Activity.MovedBy d) where
  charge _ _ h := h.adcIntegral
  channels _ _ h := forall₂_map_eq (fun _ _ hpq => hpq.channel) h.inputs

theorem highestFrom_moved {p q : Primitive} {ps qs : List Primitive} (hpq : p.MovedBy d q)
    (h : List.Forall₂ (Primitive.MovedBy d) ps qs) :
    (highestFrom p ps).MovedBy d (highestFrom q qs) := by
  induction h generalizing p q with
  | nil => exact hpq
  | @cons p' q' ps qs hpq' _ ih =>
    rw [highestFrom_cons, highestFrom_cons, ← hpq.adcPeak, ← hpq'.adcPeak]
    split
    · exact ih hpq'
    · exact ih hpq

/-! ## Activities of primitives that move -/

/-- When a primitive is over moves with it. -/
theorem Primitive.MovedBy.exactTimeEnd {p q : Primitive} (h : p.MovedBy d q)
    (endIncludesTot : Bool) :
    TriggerChain.exactTimeEnd endIncludesTot q = TriggerChain.exactTimeEnd endIncludesTot p + d := by
  have hstart : q.timeStart.toInt = p.timeStart.toInt + d := h.timeStart
  unfold TriggerChain.exactTimeEnd
  rw [hstart, h.timeOverThreshold]
  split <;> omega

section Record

variable {algorithm : ActivityAlgorithm} {timeEnd : Primitive → Int} {ps qs : List Primitive}
variable {a : Activity}

/-- The record of primitives that are moved is there exactly if the end of the activity, moved as
    well, fits its word. -/
theorem ofPrimitives?_moved_iff
    (hend : ∀ {p q : Primitive}, p.MovedBy d q → timeEnd q = timeEnd p + d)
    (h : List.Forall₂ (Primitive.MovedBy d) ps qs)
    (ha : Activity.ofPrimitives? algorithm timeEnd ps = some a) :
    Activity.ofPrimitives? algorithm timeEnd qs ≠ none ↔ Ticks.Fits (a.timeEnd.toInt + d) := by
  cases h with
  | nil => cases ha
  | @cons p q ps qs hpq hrest =>
    have hcharge : Window.chargeOf (p :: ps) = Window.chargeOf (q :: qs) :=
      (Primitive.keepsSums d).chargeOf_eq (.cons hpq hrest)
    obtain ⟨stop, hstop, ha⟩ := Option.bind_eq_some_iff.1 ha
    obtain ⟨charge, hsum, ha⟩ := Option.bind_eq_some_iff.1 ha
    obtain rfl := Option.some.inj ha
    have hlast : timeEnd (qs.getLastD q) = stop.toInt + d := by
      rw [hend (forall₂_getLastD hpq hrest), Ticks.ofInt?_eq_some hstop]
    have hfits : Window.chargeOf (q :: qs) < UInt64.size := by
      rw [← hcharge, ← Charge.ofNat?_eq_some hsum]
      exact charge.toNat_lt
    show _ ↔ Ticks.Fits (stop.toInt + d)
    rw [ofPrimitives?_ne_none_iff, getLast?_cons_eq_getLastD, ← hlast]
    constructor
    · rintro ⟨⟨last, hmem, hend⟩, -⟩
      obtain rfl := Option.some.inj hmem
      exact hend
    · exact fun hend => ⟨⟨_, rfl, hend⟩, hfits⟩

theorem Activity.movedBy_of_record (halgorithm : algorithm ≠ .prescale)
    (hend : ∀ {p q : Primitive}, p.MovedBy d q → timeEnd q = timeEnd p + d)
    (h : List.Forall₂ (Primitive.MovedBy d) ps qs) {b : Activity}
    (ha : Activity.ofPrimitives? algorithm timeEnd ps = some a)
    (hb : Activity.ofPrimitives? algorithm timeEnd qs = some b) : a.MovedBy d b := by
  cases h with
  | nil => cases ha
  | @cons p q ps qs hpq hrest =>
    have hlast := forall₂_getLastD hpq hrest
    have hpeak := highestFrom_moved hpq hrest
    have hall : List.Forall₂ (Primitive.MovedBy d) (p :: ps) (q :: qs) := .cons hpq hrest
    obtain ⟨stop, hstop, ha⟩ := Option.bind_eq_some_iff.1 ha
    obtain ⟨stop', hstop', hb⟩ := Option.bind_eq_some_iff.1 hb
    obtain ⟨charge, hsum, ha⟩ := Option.bind_eq_some_iff.1 ha
    obtain ⟨charge', hsum', hb⟩ := Option.bind_eq_some_iff.1 hb
    obtain rfl := Option.some.inj ha
    obtain rfl := Option.some.inj hb
    have hcharge : charge = charge' := by
      rw [(Primitive.keepsSums d).chargeOf_eq hall] at hsum
      exact Option.some.inj (hsum.symm.trans hsum')
    exact {
      timeStart := hpq.timeStart
      timeEnd := Ticks.movedBy_of_ofInt? hstop hstop' (hend hlast)
      timePeak := hpeak.timePeak
      timeActivity := fun _ => hpeak.timePeak
      timePrescaled := fun h => absurd h halgorithm
      channelStart := hpq.channel
      channelEnd := hlast.channel
      channelPeak := hpeak.channel
      adcIntegral := hcharge
      adcPeak := hpeak.adcPeak
      detid := hlast.detid
      kind := rfl
      algorithm := rfl
      version := rfl
      inputs := hall }

end Record

/-- The activity of one primitive moves with it, if its end still fits. -/
theorem Activity.ofPrimitive_moved {p q : Primitive} (h : p.MovedBy d q) {a : Activity}
    (ha : ofPrimitive p .prescale = .ok a) :
    ((∃ b, ofPrimitive q .prescale = .ok b) ↔ Ticks.Fits (a.timeEnd.toInt + d)) ∧
      ∀ b, ofPrimitive q .prescale = .ok b → a.MovedBy d b := by
  obtain ⟨stop, hstop, ha⟩ := Checked.bind_eq_ok_iff.1 ha
  obtain rfl := Except.ok.inj ha
  have hexact : q.timeStart.toInt + q.timeOverThreshold.toInt = stop.toInt + d := by
    have hstart : q.timeStart.toInt = p.timeStart.toInt + d := h.timeStart
    rw [Ticks.plus_eq_ok_iff.1 hstop, hstart, h.timeOverThreshold]
    omega
  refine ⟨⟨?_, ?_⟩, ?_⟩
  · rintro ⟨b, hb⟩
    obtain ⟨stop', hstop', -⟩ := Checked.bind_eq_ok_iff.1 hb
    show Ticks.Fits (stop.toInt + d)
    rw [← hexact, ← Ticks.plus_eq_ok_iff.1 hstop']
    exact Ticks.fits_toInt stop'
  · intro hfits
    change Ticks.Fits (stop.toInt + d) at hfits
    rw [← hexact] at hfits
    have hstop' : q.timeEnd = .ok _ := if_pos hfits
    exact ⟨_, Checked.bind_eq_ok_iff.2 ⟨_, hstop', rfl⟩⟩
  · intro b hb
    obtain ⟨stop', hstop', hb⟩ := Checked.bind_eq_ok_iff.1 hb
    obtain rfl := Except.ok.inj hb
    exact {
      timeStart := h.timeStart
      timeEnd := (Ticks.plus_eq_ok_iff.1 hstop').trans hexact
      timePeak := h.timePeak
      timeActivity := fun h => absurd rfl h
      timePrescaled := fun _ => ⟨rfl, rfl⟩
      channelStart := h.channel
      channelEnd := h.channel
      channelPeak := h.channel
      adcIntegral := congrArg UInt32.toUInt64 h.adcIntegral
      adcPeak := h.adcPeak
      detid := h.detid
      kind := rfl
      algorithm := rfl
      version := rfl
      inputs := .cons h .nil }

end TriggerChain
