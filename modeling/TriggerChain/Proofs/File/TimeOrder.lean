import TriggerChain.Command.Run
import TriggerChain.Proofs.File.Figures
import TriggerChain.Proofs.Text.Utf8

/-!
# Primitives in the order of their start times

The primitives of a file are sorted only if they are out of order. Primitives that are in order are
what a stable sort makes of them, so it shows nowhere whether they were sorted; and as the figures
of a file are those of its primitives in order, the order of its lines does not show in them.

Main statement: `ordered_reading_sorts_stably`.
-/

namespace TriggerChain

/-- Primitives are in order if neighbours are. -/
theorem isTimeOrdered_iff {ps : List Primitive} :
    isTimeOrdered ps = true ↔ ps.Pairwise fun p q => p.timeStart ≤ q.timeStart := by
  induction ps with
  | nil => simp [isTimeOrdered]
  | cons p ps ih =>
    cases ps with
    | nil => simp [isTimeOrdered]
    | cons q ps =>
      have hstep : isTimeOrdered (p :: q :: ps) =
          (decide (p.timeStart ≤ q.timeStart) && isTimeOrdered (q :: ps)) := rfl
      rw [hstep, Bool.and_eq_true, decide_eq_true_eq, ih, List.pairwise_cons (a := p)]
      refine and_congr_left fun hrest => ?_
      rw [List.forall_mem_cons]
      refine ⟨fun hpq => ⟨hpq, fun r hr => ?_⟩, And.left⟩
      exact Std.le_trans hpq ((List.pairwise_cons.1 hrest).1 r hr)

variable {sort : List Primitive → List Primitive}

/-- Primitives that are in order are sorted already. -/
theorem timeOrderedBy_eq_sort (hsort : ∀ ps, StablySorted Primitive.timeStart ps (sort ps))
    (ps : List Primitive) : timeOrderedBy sort ps = sort ps := by
  unfold timeOrderedBy
  split
  · rename_i hordered
    have hself : StablySorted Primitive.timeStart ps ps :=
      ⟨isTimeOrdered_iff.1 hordered, .refl ps, fun _ => rfl⟩
    exact hself.unique (hsort ps)
  · rfl

theorem stablySorted_timeOrdered (ps : List Primitive) :
    StablySorted Primitive.timeStart ps (timeOrdered ps) := by
  have hsort := stablySorted_mergeSort Primitive.timeStart
  rw [timeOrdered, timeOrderedBy_eq_sort hsort]
  exact hsort ps

/-- Every stable sort orders primitives in the same way. -/
theorem timeOrderedBy_eq_timeOrdered
    (hsort : ∀ ps, StablySorted Primitive.timeStart ps (sort ps)) (ps : List Primitive) :
    timeOrderedBy sort ps = timeOrdered ps := by
  rw [timeOrderedBy_eq_sort hsort]
  exact (hsort ps).unique (stablySorted_timeOrdered ps)

/-- Primitives have the figures of the primitives that they are sorted from. -/
theorem figures_timeOrdered (ps : List Primitive) :
    (Summary.ofPrimitives (timeOrdered ps)).Figures ps := by
  have hsorted := stablySorted_timeOrdered ps
  exact (Summary.figures_ofPrimitives hsorted.ascending).of_perm hsorted.perm

theorem ofPrimitives_timeOrdered_of_perm {ps qs : List Primitive} (h : qs.Perm ps) :
    Summary.ofPrimitives (timeOrdered qs) = Summary.ofPrimitives (timeOrdered ps) :=
  ((figures_timeOrdered qs).of_perm h).unique (figures_timeOrdered ps)

/-- The primitives of a file in the order of their start times, which a sort puts them in. -/
def orderedOfBytes (sort : List Primitive → List Primitive) (bytes : List UInt8) :
    Except FileError (List Primitive) :=
  (primitivesOfBytes bytes).map (timeOrderedBy sort)

/-- The figures of a file. -/
def summaryOfBytes (sort : List Primitive → List Primitive) (bytes : List UInt8) :
    Except FileError Summary :=
  (orderedOfBytes sort bytes).map Summary.ofPrimitives

/-- What is read from a file that holds some primitives. -/
structure OrderedReading (sort : List Primitive → List Primitive) (bytes : List UInt8)
    (ps : List Primitive) : Prop where
  /-- They are read in the order of their start times, in which those that begin together stand as
      in the file. -/
  stable : ∃ qs, orderedOfBytes sort bytes = .ok qs ∧ StablySorted Primitive.timeStart ps qs
  /-- They are the sorted ones also if they were not sorted, and no other sort gives others. -/
  unique : ∀ qs, StablySorted Primitive.timeStart ps qs → orderedOfBytes sort bytes = .ok qs
  /-- The commands read them as any stable sort has them. -/
  commands : ∀ path, Command.orderedPrimitives path bytes =
    (orderedOfBytes sort bytes).mapError (.input path)
  /-- The figures are those of the primitives; their charge fits its word unless there are more than
      2^32 of them. -/
  figures : ∃ s, summaryOfBytes sort bytes = .ok s ∧ s.Figures ps ∧
    (ps.length ≤ 2 ^ 32 → s.adcTotal < 2 ^ 64)
  /-- Another file with these primitives, in whatever order, has the same figures. -/
  orderFree : ∀ bytes' ps', primitivesOfBytes bytes' = .ok ps' → ps'.Perm ps →
    summaryOfBytes sort bytes' = summaryOfBytes sort bytes

/-- A file is read in the order of the start times as if its primitives were sorted, stably,
    whatever their order in the file; and its figures do not depend on this order. -/
theorem ordered_reading_sorts_stably (hsort : ∀ ps, StablySorted Primitive.timeStart ps (sort ps))
    {bytes : List UInt8} {ps : List Primitive} (hread : primitivesOfBytes bytes = .ok ps) :
    OrderedReading sort bytes ps := by
  have hordered : ∀ {bytes : List UInt8} {ps : List Primitive},
      primitivesOfBytes bytes = .ok ps → orderedOfBytes sort bytes = .ok (timeOrdered ps) := by
    intro bytes ps hread
    rw [orderedOfBytes, hread, ← timeOrderedBy_eq_timeOrdered hsort]
    rfl
  have hsummary : ∀ {bytes : List UInt8} {ps : List Primitive}, primitivesOfBytes bytes = .ok ps →
      summaryOfBytes sort bytes = .ok (Summary.ofPrimitives (timeOrdered ps)) := by
    intro bytes ps hread
    rw [summaryOfBytes, hordered hread]
    rfl
  have hstable := stablySorted_timeOrdered ps
  have hfigures := figures_timeOrdered ps
  refine ⟨⟨_, hordered hread, hstable⟩, fun qs hqs => ?_, fun path => ?_,
    ⟨_, hsummary hread, hfigures, hfigures.adcTotal_lt⟩, fun bytes' ps' hread' hperm => ?_⟩
  · rw [hordered hread, hstable.unique hqs]
  · rw [Command.orderedPrimitives, hordered hread, hread]
    rfl
  · rw [hsummary hread', hsummary hread, ofPrimitives_timeOrdered_of_perm hperm]

/-- The first of these lines begins last, and the other two begin together. -/
theorem sorted_when_out_of_order :
    let text := "300 0 300 1 1 1 0 0\n100 0 100 2 1 1 0 0\n100 0 100 3 1 1 0 0\n"
    let late : Primitive := ⟨300, 0, 300, 1, 1, 1, 0, 0⟩
    let early : Primitive := ⟨100, 0, 100, 2, 1, 1, 0, 0⟩
    let next : Primitive := ⟨100, 0, 100, 3, 1, 1, 0, 0⟩
    let sort := fun ps : List Primitive =>
      ps.mergeSort fun a b => decide (a.timeStart ≤ b.timeStart)
    isTimeOrdered [late, early, next] = false ∧
      OrderedReading sort text.toUTF8.toList [late, early, next] := by
  intro text late early next sort
  have hread : primitivesOfBytes text.toUTF8.toList = .ok [late, early, next] := by
    rw [primitivesOfBytes, Text.decode_toUTF8]
    decide +kernel
  exact ⟨by decide, ordered_reading_sorts_stably (stablySorted_mergeSort Primitive.timeStart) hread⟩

end TriggerChain
