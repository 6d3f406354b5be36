import Mathlib.Algebra.GroupWithZero.Nat
import Mathlib.Data.List.Perm.Subperm
import TriggerChain.Proofs.Window.Tally
import TriggerChain.Window.Basic

/-!
# Windows agree with their elements

The aggregates of a window are redundant: all of them can be read off its elements. A window
is consistent if they are what its elements say. Every change keeps a consistent window
consistent, or stops because an exact sum does not fit its word; an element that leaves takes
out what it brought in, so nothing else can stop a change.

Main statement: `window_represents_elements`, for every sequence of changes.
-/

namespace TriggerChain

namespace Window

variable {τ : Type} [Element τ]

/-! ## Exact aggregates -/

/-- The summed charge of some elements, exactly. -/
def chargeOf (xs : List τ) : Nat := (xs.map fun e => (Element.charge e).toNat).sum

/-- The channels that some elements hit, one entry per hit. -/
def channelsOf (xs : List τ) : List Channel := xs.flatMap Element.channels

@[simp] theorem chargeOf_nil : chargeOf ([] : List τ) = 0 := rfl

@[simp] theorem chargeOf_cons (x : τ) (xs : List τ) :
    chargeOf (x :: xs) = (Element.charge x).toNat + chargeOf xs := rfl

@[simp] theorem chargeOf_append (xs ys : List τ) :
    chargeOf (xs ++ ys) = chargeOf xs + chargeOf ys := by
  simp [chargeOf]

@[simp] theorem channelsOf_nil : channelsOf ([] : List τ) = [] := rfl

@[simp] theorem channelsOf_cons (x : τ) (xs : List τ) :
    channelsOf (x :: xs) = Element.channels x ++ channelsOf xs := rfl

@[simp] theorem channelsOf_append (xs ys : List τ) :
    channelsOf (xs ++ ys) = channelsOf xs ++ channelsOf ys := by
  simp [channelsOf]

theorem chargeOf_perm {xs ys : List τ} (h : xs.Perm ys) : chargeOf xs = chargeOf ys :=
  (h.map _).sum_nat

theorem channelsOf_perm {xs ys : List τ} (h : xs.Perm ys) :
    (channelsOf xs).Perm (channelsOf ys) := h.flatMap_right _

/-- The exact aggregates of some elements fit their words. -/
structure AggregatesFit (xs : List τ) : Prop where
  /-- The summed charge fits. -/
  charge : chargeOf xs < UInt64.size
  /-- The hit count of every channel fits. -/
  hits : ∀ c, (channelsOf xs).count c < UInt32.size

/-- Fewer elements, in whatever order, have no more charge and no more hits. -/
theorem AggregatesFit.of_subperm {xs ys : List τ} (h : AggregatesFit ys)
    (hsub : xs.Subperm ys) : AggregatesFit xs := by
  obtain ⟨zs, hperm, hzs⟩ := hsub
  obtain ⟨rest, hrest⟩ := hzs.exists_perm_append
  have hys : ys.Perm (xs ++ rest) := hrest.trans (hperm.append_right rest)
  refine ⟨?_, fun c => ?_⟩
  · have hcharge := h.charge
    rw [chargeOf_perm hys, chargeOf_append] at hcharge
    omega
  · have hhits := h.hits c
    rw [(channelsOf_perm hys).count_eq, channelsOf_append, List.count_append] at hhits
    omega

/-! ## Elements in a list

    A window keeps its elements in an array. What is said of them is said of the list that they
    are. -/

/-- Puts an element behind those at the front that began no later; behind all of them, if elements
    are delivered in order. -/
def place (x : τ) (xs : List τ) : List τ :=
  if Element.inOrder τ then xs ++ [x]
  else
    let earlier := fun e => decide (Element.timeStart e ≤ Element.timeStart x)
    xs.takeWhile earlier ++ x :: xs.dropWhile earlier

/-- When the first of some elements began; zero if there is none. -/
def startOf (xs : List τ) : Ticks := (xs.head?.map Element.timeStart).getD 0

/-- An element that is put in front of the first one that does not satisfy a condition is put
    behind those at the front that do. -/
theorem insertIdx_findIdx {α : Type} (p : α → Bool) (x : α) (xs : List α) :
    xs.insertIdx (xs.findIdx fun e => !p e) x = xs.takeWhile p ++ x :: xs.dropWhile p := by
  induction xs with
  | nil => rfl
  | cons e xs ih =>
    rw [List.findIdx_cons]
    cases he : p e with
    | false => simp [he]
    | true => simpa [he] using ih

theorem toList_insert (x : τ) (xs : Array τ) : (insert x xs).toList = place x xs.toList := by
  unfold insert place
  split
  · exact Array.toList_push
  · obtain ⟨xs⟩ := xs
    rw [Array.toList_insertIdx, List.findIdx_toArray]
    exact insertIdx_findIdx _ x xs

/-- What follows on the elements at the front that satisfy a condition. -/
theorem toList_extract_takeWhile {α : Type} (p : α → Bool) (xs : Array α) :
    (xs.extract (xs.takeWhile p).size).toList = xs.toList.dropWhile p := by
  have hsplit : xs.toList = xs.toList.takeWhile p ++ xs.toList.dropWhile p :=
    List.takeWhile_append_dropWhile.symm
  have hsize : (xs.takeWhile p).size = (xs.toList.takeWhile p).length := by
    rw [← Array.length_toList, Array.toList_takeWhile]
  rw [Array.toList_extract, List.extract_eq_take_drop, hsize, List.take_of_length_le (by simp)]
  exact (congrArg (List.drop _) hsplit).trans List.drop_left

theorem firstStart_eq (xs : Array τ) : firstStart xs = startOf xs.toList := by
  unfold firstStart startOf
  rw [List.head?_eq_getElem?, Array.getElem?_toList]

/-- An element is put among others, and nothing else happens to them. -/
theorem place_perm (x : τ) (xs : List τ) : (place x xs).Perm (x :: xs) := by
  unfold place
  split
  · exact List.perm_append_singleton x xs
  · exact List.perm_middle.trans (by rw [List.takeWhile_append_dropWhile])

@[simp] theorem place_nil (x : τ) : place x [] = [x] := by
  unfold place
  split <;> rfl

/-! ## Consistent windows -/

/-- The aggregates of a window are those of some elements. -/
structure Describes (w : Window τ) (xs : List τ) : Prop where
  charge : w.adcIntegral.toNat = chargeOf xs
  hits : w.hits.Tallies (channelsOf xs)

/-- The aggregates and the start of a window are those of its own elements. -/
structure Consistent (w : Window τ) : Prop where
  aggregates : w.Describes w.inputs
  start : w.timeStart = startOf w.inputs

theorem Describes.perm {w : Window τ} {xs ys : List τ} (h : w.Describes xs)
    (hperm : xs.Perm ys) : w.Describes ys :=
  ⟨h.charge.trans (chargeOf_perm hperm), h.hits.perm (channelsOf_perm hperm)⟩

theorem Describes.fit {w : Window τ} {xs : List τ} (h : w.Describes xs) : AggregatesFit xs :=
  ⟨h.charge ▸ w.adcIntegral.toNat_lt, h.hits.count_lt⟩

theorem consistent_empty : (empty : Window τ).Consistent := ⟨⟨rfl, .nil⟩, rfl⟩

/-- A consistent window is determined by its elements. -/
theorem Consistent.ext {w w' : Window τ} (h : w.Consistent) (h' : w'.Consistent)
    (heq : w.inputs = w'.inputs) : w = w' := by
  obtain ⟨start, charge, hits, elements⟩ := w
  obtain ⟨start', charge', hits', elements'⟩ := w'
  obtain rfl : elements = elements' := Array.toList_inj.1 heq
  obtain rfl : start = start' := h.start.trans h'.start.symm
  obtain rfl : charge = charge' :=
    UInt64.toNat_inj.1 (h.aggregates.charge.trans h'.aggregates.charge.symm)
  obtain rfl : hits = hits' := h.aggregates.hits.unique h'.aggregates.hits
  rfl

/-! ## One element more -/

theorem charge_plus_cases (a b : Charge) :
    (∃ c, a.plus b = .ok c ∧ c.toNat = a.toNat + b.toNat) ∨
    (a.plus b = .error .sumOverflow ∧ UInt64.size ≤ a.toNat + b.toNat) := by
  by_cases hfit : a.toNat + b.toNat < UInt64.size
  · have hok : a.plus b = .ok (a + b) := by rw [Charge.plus, if_pos hfit]
    exact .inl ⟨a + b, hok, Charge.plus_eq_ok_iff.1 hok⟩
  · exact .inr ⟨by rw [Charge.plus, if_neg hfit], Nat.le_of_not_lt hfit⟩

/-- An element is added to a consistent window, unless an aggregate overflows. -/
theorem Consistent.add {w : Window τ} (hw : w.Consistent) (x : τ) :
    (∃ w', w.add x = .ok w' ∧ w'.Consistent ∧ w'.inputs = place x w.inputs) ∨
    (w.add x = .error .sumOverflow ∧ ¬ AggregatesFit (place x w.inputs)) := by
  -- The aggregates do not see where the element is put.
  have hperm := place_perm x w.inputs
  unfold Window.add
  rcases charge_plus_cases w.adcIntegral (Element.charge x) with
    ⟨charge, hcharge, hsum⟩ | ⟨herr, hfull⟩
  · rw [hcharge]
    rcases hw.aggregates.hits.add (Element.channels x) with
      ⟨hits, hhits, htally⟩ | ⟨herr, c, hfull⟩
    · rw [hhits]
      have hcharge' : charge.toNat = chargeOf (x :: w.inputs) := by
        rw [chargeOf_cons, ← hw.aggregates.charge, hsum]
        omega
      have hinputs : (insert x w.elements).toList = place x w.inputs := toList_insert x w.elements
      refine .inl ⟨_, rfl, ⟨?_, firstStart_eq _⟩, hinputs⟩
      rw [inputs, hinputs]
      exact Describes.perm ⟨hcharge', htally⟩ hperm.symm
    · rw [herr]
      refine .inr ⟨rfl, fun hfit => ?_⟩
      have hlt := hfit.hits c
      rw [(channelsOf_perm hperm).count_eq, channelsOf_cons] at hlt
      omega
  · rw [herr]
    refine .inr ⟨rfl, fun hfit => ?_⟩
    have hlt := hfit.charge
    rw [chargeOf_perm hperm, chargeOf_cons, ← hw.aggregates.charge] at hlt
    omega

/-! ## Elements that leave -/

/-- What an element brought in can be taken out again. -/
theorem Describes.release {w : Window τ} {e : τ} {xs : List τ} (h : w.Describes (e :: xs)) :
    ∃ w', w.release e = .ok w' ∧ w'.Describes xs := by
  have hcharge := h.charge
  rw [chargeOf_cons] at hcharge
  -- The charge of the element is a part of the charge of the window.
  have hle : Element.charge e ≤ w.adcIntegral := by
    rw [UInt64.le_iff_toNat_le]
    omega
  obtain ⟨hits, hok, htally⟩ := HitCounts.Tallies.release (Element.channels e) h.hits
  refine ⟨{ w with adcIntegral := w.adcIntegral - Element.charge e, hits }, ?_, ?_, htally⟩
  · rw [Window.release, if_neg (UInt64.not_lt.2 hle), hok]
    rfl
  · show (w.adcIntegral - Element.charge e).toNat = _
    rw [UInt64.toNat_sub_of_le _ _ hle]
    omega

theorem Describes.releaseAll {w : Window τ} (old : List τ) {xs : List τ}
    (h : w.Describes (old ++ xs)) :
    ∃ w', old.foldlM Window.release w = .ok w' ∧ w'.Describes xs := by
  induction old generalizing w with
  | nil => exact ⟨w, rfl, h⟩
  | cons e old ih =>
    obtain ⟨w₁, hok, hw₁⟩ := Describes.release h
    rw [List.foldlM_cons, hok]
    exact ih hw₁

/-- The elements that stay when an element arrives at `now`. -/
def unexpired (now length : Ticks) (xs : List τ) : List τ := xs.dropWhile (expired now length)

/-- A consistent window slides, unless an aggregate overflows. -/
theorem Consistent.slide {w : Window τ} (hw : w.Consistent) (x : τ) (length : Ticks) :
    (∃ w', w.slide x length = .ok w' ∧ w'.Consistent ∧
      w'.inputs = place x (unexpired (Element.timeStart x) length w.inputs)) ∨
    (w.slide x length = .error .sumOverflow ∧
      ¬ AggregatesFit (place x (unexpired (Element.timeStart x) length w.inputs))) := by
  unfold Window.slide
  dsimp only
  have hstay := toList_extract_takeWhile (expired (Element.timeStart x) length) w.elements
  change _ = unexpired (Element.timeStart x) length w.inputs at hstay
  have hleave : (w.elements.takeWhile (expired (Element.timeStart x) length)).toList =
      w.inputs.takeWhile (expired (Element.timeStart x) length) := Array.toList_takeWhile
  generalize w.elements.takeWhile (expired (Element.timeStart x) length) = old at hstay hleave ⊢
  generalize w.elements.extract old.size = kept at hstay ⊢
  -- The window describes what leaves and what stays, so what leaves can be taken out.
  have hsplit : w.Describes (old.toList ++ kept.toList) := by
    rw [hleave, hstay, unexpired, List.takeWhile_append_dropWhile]
    exact hw.aggregates
  obtain ⟨released, hreleased, hrest⟩ := hsplit.releaseAll
  rw [← Array.foldlM_toList, hreleased, ← hstay]
  dsimp only [bind, Except.bind]
  split
  · next hnone =>
    -- Everything leaves, and the window starts over.
    rw [Array.isEmpty_iff.1 hnone]
    exact consistent_empty.add x
  · have hyoung : ({ released with
        timeStart := firstStart kept, elements := kept } : Window τ).Consistent :=
      ⟨⟨hrest.charge, hrest.hits⟩, firstStart_eq kept⟩
    exact hyoung.add x

/-! ## Sequences of changes -/

/-- A change to a window. -/
inductive Change (τ : Type) where
  /-- An element is added. -/
  | add (x : τ)
  /-- The window slides on to an element. -/
  | slide (x : τ) (length : Ticks)
  /-- The window starts over with an element. -/
  | reset (x : τ)
  /-- The window is emptied. -/
  | clear

/-- Forgets every element, and sets every aggregate back. -/
def clear (w : Window τ) : Window τ :=
  { w with timeStart := 0, adcIntegral := 0, hits := {}, elements := #[] }

/-- The window after a change. -/
def change (w : Window τ) : Change τ → Except Fault (Window τ)
  | .add x => w.add x
  | .slide x length => w.slide x length
  | .reset x => reset x
  | .clear => .ok w.clear

/-- The elements after a change. -/
def Change.elements (xs : List τ) : Change τ → List τ
  | .add x => place x xs
  | .slide x length => place x (unexpired (Element.timeStart x) length xs)
  | .reset x => [x]
  | .clear => []

/-- The window after some changes, from the empty one on. -/
def afterAll (changes : List (Change τ)) : Except Fault (Window τ) :=
  changes.foldlM change empty

/-- The elements after some changes, from no elements on. -/
def elementsAfter (changes : List (Change τ)) : List τ :=
  changes.foldl Change.elements []

/-- A change keeps a consistent window consistent, or an aggregate overflows. -/
theorem Consistent.change {w : Window τ} (hw : w.Consistent) (c : Change τ) :
    (∃ w', w.change c = .ok w' ∧ w'.Consistent ∧ w'.inputs = c.elements w.inputs) ∨
    (w.change c = .error .sumOverflow ∧ ¬ AggregatesFit (c.elements w.inputs)) := by
  cases c with
  | add x => exact hw.add x
  | slide x length => exact hw.slide x length
  | reset x =>
    have hone : Change.elements w.inputs (.reset x) = place x (empty : Window τ).inputs :=
      (place_nil x).symm
    rw [hone]
    exact consistent_empty.add x
  | clear => exact .inl ⟨empty, rfl, consistent_empty, rfl⟩

/-- Changes keep a consistent window consistent, until an aggregate overflows. -/
theorem Consistent.changes {w : Window τ} (hw : w.Consistent) (cs : List (Change τ)) :
    (∃ w', cs.foldlM Window.change w = .ok w' ∧ w'.Consistent ∧
      w'.inputs = cs.foldl Change.elements w.inputs ∧
      ∀ pre, pre <+: cs → AggregatesFit (pre.foldl Change.elements w.inputs)) ∨
    (cs.foldlM Window.change w = .error .sumOverflow ∧
      ∃ pre, pre <+: cs ∧ ¬ AggregatesFit (pre.foldl Change.elements w.inputs)) := by
  induction cs generalizing w with
  | nil =>
    refine .inl ⟨w, rfl, hw, rfl, fun pre hpre => ?_⟩
    rw [List.prefix_nil.1 hpre]
    exact hw.aggregates.fit
  | cons c cs ih =>
    rw [List.foldlM_cons]
    -- A prefix is empty, or it has the first change and a prefix of the others.
    rcases hw.change c with ⟨w₁, hok, hw₁, hinputs⟩ | ⟨herr, hfit⟩
    · rw [hok, List.foldl_cons, ← hinputs]
      rcases ih hw₁ with ⟨w', hrun, hw', hlast, hpre⟩ | ⟨hrun, pre, hpre, hfit⟩
      · refine .inl ⟨w', hrun, hw', hlast, fun pre hprefix => ?_⟩
        rcases List.prefix_cons_iff.1 hprefix with rfl | ⟨rest, rfl, hrest⟩
        · exact hw.aggregates.fit
        · rw [List.foldl_cons, ← hinputs]
          exact hpre rest hrest
      · refine .inr ⟨hrun, c :: pre, List.cons_prefix_cons.2 ⟨rfl, hpre⟩, ?_⟩
        rwa [List.foldl_cons, ← hinputs]
    · rw [herr]
      exact .inr ⟨rfl, [c], List.cons_prefix_cons.2 ⟨rfl, List.nil_prefix⟩, hfit⟩

/-! ## What a window shows -/

/-- Everything that a window shows is what its elements say. -/
structure Represents (w : Window τ) (xs : List τ) : Prop where
  /-- The elements are the expected ones. -/
  inputs : w.inputs = xs
  /-- The charge is the sum of their charges. -/
  charge : w.adcIntegral.toNat = chargeOf xs
  /-- A channel is counted as often as they hit it. -/
  hits : ∀ c, (w.hits.count c).toNat = (channelsOf xs).count c
  /-- The table holds exactly the channels that they hit. -/
  channels : ∀ c, c ∈ w.hits.channels ↔ ∃ e ∈ xs, c ∈ Element.channels e
  /-- No channel is kept with a count of zero. -/
  positive : ∀ e ∈ w.hits.entries, e.2 ≠ 0
  /-- The number of channels is the number of distinct ones. -/
  channelsHit : w.channelsHit = (channelsOf xs).dedup.length
  /-- The window starts with its first element; an empty one at zero. -/
  start : w.timeStart = (xs.head?.map Element.timeStart).getD 0

theorem Consistent.represents {w : Window τ} (hw : w.Consistent) : w.Represents w.inputs where
  inputs := rfl
  charge := hw.aggregates.charge
  hits := hw.aggregates.hits.count
  channels c := hw.aggregates.hits.mem_iff.trans (by rw [channelsOf, List.mem_flatMap])
  positive := hw.aggregates.hits.positive
  channelsHit := hw.aggregates.hits.size_eq
  start := hw.start

/-- Over every sequence of changes from the empty window on, for primitives and activities
    alike: the sequence goes through exactly if the exact aggregates fit their words after
    every change; the window then shows what its elements say; nothing but a sum that does
    not fit stops a sequence, so no element ever takes out more than was brought in; starting
    over gives one window, whatever was there before; and sequences that lead to the same
    elements lead to the same window. -/
theorem window_represents_elements (changes : List (Change τ)) :
    ((∃ w, afterAll changes = .ok w) ↔
      ∀ pre, pre <+: changes → AggregatesFit (elementsAfter pre)) ∧
    (∀ w, afterAll changes = .ok w → w.Represents (elementsAfter changes)) ∧
    (∀ fault, afterAll changes = .error fault → fault = .sumOverflow) ∧
    (∀ (w : Window τ) (x : τ), w.clear.add x = reset x) ∧
    ∀ changes' w w', afterAll changes = .ok w → afterAll changes' = .ok w' →
      elementsAfter changes = elementsAfter changes' → w = w' := by
  have hcases := consistent_empty.changes changes
  -- Whatever went through is consistent, which settles what it shows.
  have hconsistent : ∀ (cs : List (Change τ)) w, afterAll cs = .ok w →
      w.Consistent ∧ w.inputs = elementsAfter cs := by
    intro cs w hw
    rcases consistent_empty.changes cs with ⟨w', hok, hcons, hinputs, -⟩ | ⟨herr, -⟩
    · obtain rfl : w = w' := Except.ok.inj (hw.symm.trans hok)
      exact ⟨hcons, hinputs⟩
    · exact (Checked.false_of_ok_error hw herr).elim
  refine ⟨⟨?_, ?_⟩, ?_, ?_, fun _ _ => rfl, ?_⟩
  · rintro ⟨w, hw⟩
    rcases hcases with ⟨_, _, _, _, hfit⟩ | ⟨herr, _⟩
    · exact hfit
    · exact (Checked.false_of_ok_error hw herr).elim
  · intro hfit
    rcases hcases with ⟨w, hw, _⟩ | ⟨_, pre, hpre, hnot⟩
    · exact ⟨w, hw⟩
    · exact absurd (hfit pre hpre) hnot
  · intro w hw
    obtain ⟨hcons, hinputs⟩ := hconsistent changes w hw
    rw [← hinputs]
    exact hcons.represents
  · intro fault hfault
    rcases hcases with ⟨_, hok, _⟩ | ⟨herr, _⟩
    · exact (Checked.false_of_ok_error hok hfault).elim
    · exact Except.error.inj (hfault.symm.trans herr)
  · intro changes' w w' hw hw' helements
    obtain ⟨hcons, hinputs⟩ := hconsistent changes w hw
    obtain ⟨hcons', hinputs'⟩ := hconsistent changes' w' hw'
    exact hcons.ext hcons' (hinputs.trans (helements.trans hinputs'.symm))

end Window

end TriggerChain
