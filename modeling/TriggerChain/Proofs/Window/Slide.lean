import TriggerChain.Proofs.Window.Order

/-!
# What a slide leaves in a window

A window slides on by dropping elements from the front, for as long as they are too old. Where the
elements stand in the order in which they began, age falls from the front to the back, so this
drops every element that is too old and nothing else. The first element is the oldest; whether it
goes is what the window was asked when it did not admit the incoming element.

Main statement: `slide_keeps_young_elements`.
-/

namespace TriggerChain

namespace Window

/-- If a condition fails for good once it fails, what is dropped from the front is all that meets
    it. -/
theorem dropWhile_eq_filter {α : Type} {r : α → α → Prop} {p : α → Bool} {xs : List α}
    (hr : ∀ a b, r a b → p b = true → p a = true) (hxs : xs.Pairwise r) :
    xs.dropWhile p = xs.filter fun e => !p e := by
  have hfront : (xs.takeWhile p).filter (fun e => !p e) = [] := by
    simp only [List.filter_eq_nil_iff, Bool.not_eq_true', Bool.not_eq_false]
    intro e he
    exact List.mem_takeWhile_imp he
  have hback : (xs.dropWhile p).filter (fun e => !p e) = xs.dropWhile p := by
    simp only [List.filter_eq_self, Bool.not_eq_true']
    exact not_of_mem_dropWhile hr hxs
  calc xs.dropWhile p
      = (xs.takeWhile p ++ xs.dropWhile p).filter fun e => !p e := by
        rw [List.filter_append, hfront, hback, List.nil_append]
    _ = xs.filter fun e => !p e := by rw [List.takeWhile_append_dropWhile]

variable {τ : Type} [Element τ]

/-! ## Young elements -/

/-- Whether an element began less than a length before another one, exactly. -/
def isYoung (x : τ) (length : Ticks) (e : τ) : Bool :=
  decide (began x - began e < length.toInt)

theorem not_expired (x : τ) {length : Ticks} (hlength : 0 < length) (e : τ) :
    (!expired (Element.timeStart x) length e) = isYoung x length e := by
  rw [Bool.eq_iff_iff, Bool.not_eq_true', ← Bool.not_eq_true, expired_iff x e hlength, isYoung,
    decide_eq_true_eq, Int.not_le]

/-- Of elements in order, those that stay are the young ones. -/
theorem unexpired_eq_filter (x : τ) {length : Ticks} (hlength : 0 < length) {xs : List τ}
    (hxs : Chronological xs) :
    unexpired (Element.timeStart x) length xs = xs.filter (isYoung x length) := by
  have holder : ∀ a b : τ, began a ≤ began b →
      expired (Element.timeStart x) length b = true →
      expired (Element.timeStart x) length a = true := by
    intro a b hab hb
    rw [expired_iff x _ hlength] at hb ⊢
    omega
  rw [unexpired, dropWhile_eq_filter holder hxs]
  exact List.filter_congr fun e _ => not_expired x hlength e

/-- The place of an element that is added goes by the elements alone. -/
theorem inputs_of_add {w w' : Window τ} {x : τ} (h : w.add x = .ok w') :
    w'.inputs = place x w.inputs := by
  obtain ⟨charge, -, h⟩ := Checked.bind_eq_ok_iff.1 h
  obtain ⟨hits, -, h⟩ := Checked.bind_eq_ok_iff.1 h
  obtain rfl := Except.ok.inj h
  exact toList_insert x w.elements

/-- So does what a slide drops, whatever the aggregates of the window say. -/
theorem inputs_of_slide {w w' : Window τ} {x : τ} {length : Ticks}
    (h : w.slide x length = .ok w') :
    w'.inputs = place x (unexpired (Element.timeStart x) length w.inputs) := by
  have hstay := toList_extract_takeWhile (expired (Element.timeStart x) length) w.elements
  change _ = unexpired (Element.timeStart x) length w.inputs at hstay
  obtain ⟨released, -, h⟩ := Checked.bind_eq_ok_iff.1 h
  rw [← hstay]
  split at h
  · next hnone =>
    rw [Array.isEmpty_iff.1 hnone]
    exact inputs_of_add h
  · exact inputs_of_add h

/-! ## The place of the element that came -/

section Placed

variable {x : τ} {length : Ticks} {xs : List τ}

/-- An element that is delivered in order goes to the end. -/
theorem place_delivered (x : τ) (xs : List τ) (horder : Element.inOrder τ = true) :
    place x xs = xs ++ [x] := by
  simp [place, horder]

/-- The end is the right place exactly for an element that began last. What is too old to stay
    began before it anyway. -/
theorem chronological_young_snoc (hxs : Chronological xs) (hlength : 0 < length) :
    Chronological (xs.filter (isYoung x length) ++ [x]) ↔
      ∀ last ∈ xs.getLast?, began last ≤ began x := by
  have hpos : 0 < length.toInt := Int64.lt_iff_toInt_lt.1 hlength
  constructor
  · intro hchron last hlast
    by_cases hyoung : isYoung x length last = true
    · have hmem := List.mem_filter.2 ⟨List.mem_of_getLast? hlast, hyoung⟩
      exact (List.pairwise_append.1 hchron).2.2 last hmem x (List.mem_singleton.2 rfl)
    · rw [isYoung, decide_eq_true_eq] at hyoung
      omega
  · intro hle
    refine List.pairwise_append.2 ⟨hxs.sublist List.filter_sublist, by simp, ?_⟩
    intro e he y hy
    obtain rfl := List.mem_singleton.1 hy
    -- No element began after the last one.
    have he' := (List.mem_filter.1 he).1
    have hlast := List.getLast?_eq_some_getLast (List.ne_nil_of_mem he')
    have hbefore := hxs.le_last hlast e he'
    have hafter := hle _ hlast
    omega

end Placed

/-! ## Slides -/

/-- What is left of a window of elements in order when it has slid on to an element. -/
structure SlidTo (w : Window τ) (x : τ) (length : Ticks) (w' : Window τ) : Prop where
  /-- Beside the element there are those that are young, in the order in which they stood. The
      element is behind those that began no later and in front of those that began later; where
      elements are delivered in order, it is the last. -/
  elements : ∃ front back, w.inputs.filter (isYoung x length) = front ++ back ∧
    w'.inputs = front ++ x :: back ∧
    (Element.inOrder τ = false →
      (∀ e ∈ front, began e ≤ began x) ∧ ∀ e ∈ back, began x < began e) ∧
    (Element.inOrder τ = true → back = [])
  /-- Elements that may arrive late stand in order again. -/
  late : Element.inOrder τ = false → Chronological w'.inputs
  /-- Elements that are delivered in order stand in order again exactly if the element did not
      begin before the last one in the window. -/
  delivered : Element.inOrder τ = true →
    (Chronological w'.inputs ↔ ∀ last ∈ w.inputs.getLast?, began last ≤ began x)

theorem slidTo_of_slide {w w' : Window τ} (hw : Chronological w.inputs) {x : τ} {length : Ticks}
    (hlength : 0 < length) (h : w.slide x length = .ok w') : SlidTo w x length w' := by
  have hinputs := inputs_of_slide h
  rw [unexpired_eq_filter x hlength hw] at hinputs
  have hyoung : Chronological (w.inputs.filter (isYoung x length)) :=
    hw.sublist List.filter_sublist
  cases horder : Element.inOrder τ with
  | true =>
    rw [place_delivered x _ horder] at hinputs
    refine ⟨⟨_, [], (List.append_nil _).symm, hinputs, by simp [horder], by simp⟩,
      by simp [horder], fun _ => ?_⟩
    rw [hinputs]
    exact chronological_young_snoc hw hlength
  | false =>
    obtain ⟨front, back, hsplit, hplace, hfront, hback⟩ := place_split x hyoung horder
    refine ⟨⟨front, back, hsplit, hinputs.trans hplace, fun _ => ⟨hfront, hback⟩,
      by simp [horder]⟩, fun _ => ?_, by simp [horder]⟩
    rw [hinputs]
    exact place_chronological x hyoung horder

/-- What a window says of an incoming element decides whether its first element stays; if this one
    stays, all stay. -/
theorem young_iff_admits {w : Window τ} (hw : Chronological w.inputs) (hcons : w.Consistent)
    {first : τ} {rest : List τ} (hinputs : w.inputs = first :: rest) (x : τ) {length : Ticks}
    (hlength : 0 < length) :
    (w.admits (Element.timeStart x) length = true →
      w.inputs.filter (isYoung x length) = w.inputs) ∧
    (w.admits (Element.timeStart x) length = false →
      w.inputs.filter (isYoung x length) = rest.filter (isYoung x length)) := by
  have hadmits := admits_iff hcons hinputs x hlength
  constructor
  · intro hyes
    rw [List.filter_eq_self]
    intro e he
    rw [hinputs] at hw he
    have hfirst := hw.head_le e he
    have hage := hadmits.1 hyes
    rw [isYoung, decide_eq_true_eq]
    omega
  · intro hno
    have hold : ¬ isYoung x length first = true := by
      rw [isYoung, decide_eq_true_eq, ← hadmits, hno]
      exact Bool.false_ne_true
    rw [hinputs, List.filter_cons_of_neg hold]

/-- Over the whole range of times, and for windows whose elements stand in order: a slide keeps
    exactly the elements that began less than a length before the incoming one, in their order,
    and puts this one where it belongs. A consistent window slides unless an exact aggregate of
    what it then holds does not fit; and it drops its first element exactly where it did not admit
    the incoming one. -/
theorem slide_keeps_young_elements {w : Window τ} (hw : Chronological w.inputs) (x : τ)
    {length : Ticks} (hlength : 0 < length) :
    (∀ w', w.slide x length = .ok w' → SlidTo w x length w') ∧
    (w.Consistent →
      ((∃ w', w.slide x length = .ok w') ↔
        AggregatesFit (place x (w.inputs.filter (isYoung x length)))) ∧
      ∀ first rest, w.inputs = first :: rest →
        (w.admits (Element.timeStart x) length = true →
          w.inputs.filter (isYoung x length) = w.inputs) ∧
        (w.admits (Element.timeStart x) length = false →
          w.inputs.filter (isYoung x length) = rest.filter (isYoung x length))) := by
  refine ⟨fun w' h => slidTo_of_slide hw hlength h, fun hcons => ⟨?_, ?_⟩⟩
  · have hslide := hcons.slide x length
    rw [unexpired_eq_filter x hlength hw] at hslide
    constructor
    · rintro ⟨w', h⟩
      rcases hslide with ⟨w₁, -, hw₁, hinputs⟩ | ⟨herr, -⟩
      · rw [← hinputs]
        exact hw₁.aggregates.fit
      · exact (Checked.false_of_ok_error h herr).elim
    · intro hfit
      rcases hslide with ⟨w', h, -⟩ | ⟨-, hnot⟩
      · exact ⟨w', h⟩
      · exact absurd hfit hnot
  · intro first rest hinputs
    exact young_iff_admits hw hcons hinputs x hlength

/-- Four activities that carry no charge and no hits. -/
def fourActivities : Window Activity where
  timeStart := 50
  elements :=
    #[{ timeStart := 50 }, { timeStart := 100 }, { timeStart := 200 }, { timeStart := 300 }]

/-- A late activity drops the first of four and comes to stand between the others. At the ends of
    the range of times, where an age does not fit its word, the old hit leaves and the hit that came
    begins the window. -/
theorem late_activity_slides_into_place :
    (fourActivities.Consistent ∧ fourActivities.admits 260 200 = false ∧
      fourActivities.inputs.filter (isYoung { timeStart := 260 } 200) =
        fourActivities.inputs.tail.filter (isYoung { timeStart := 260 } 200) ∧
      ∃ w', fourActivities.slide { timeStart := 260 } 200 = .ok w' ∧
        w'.inputs.map (·.timeStart) = [100, 200, 260, 300] ∧
        SlidTo fourActivities { timeStart := 260 } 200 w') ∧
    ∃ w w' : Window Primitive, reset (.hit 1 (-9223372036854775808) 10) = .ok w ∧
      w.admits 9223372036854775807 8000 = false ∧
      w.slide (.hit 2 9223372036854775807 20) 8000 = .ok w' ∧
      w'.inputs = [.hit 2 9223372036854775807 20] ∧
      SlidTo w (.hit 2 9223372036854775807 20) 8000 w' := by
  constructor
  · have hchron : Chronological fourActivities.inputs := by
      unfold Chronological
      decide
    have hcons : fourActivities.Consistent := ⟨⟨rfl, .nil⟩, rfl⟩
    obtain ⟨hslides, hwhole⟩ :=
      slide_keeps_young_elements hchron { timeStart := 260 } (show (0 : Ticks) < 200 by decide)
    have hadmission := (hwhole hcons).2 _ _ rfl
    have hstarts : (fourActivities.slide { timeStart := 260 } 200).toOption.map
        (fun w' => w'.inputs.map (·.timeStart)) = some [100, 200, 260, 300] := by
      decide +kernel
    obtain ⟨w', hslide, hplaces⟩ := Checked.toOption_map_eq_some_iff.1 hstarts
    exact ⟨hcons, rfl, hadmission.2 rfl, w', hslide, hplaces, hslides w' hslide⟩
  · have hfull : (reset (Primitive.hit 1 (-9223372036854775808) 10)).toOption.map
        (fun w => w.admits 9223372036854775807 8000) = some false := by
      decide +kernel
    have hleft : (do
        let w ← reset (Primitive.hit 1 (-9223372036854775808) 10)
        w.slide (.hit 2 9223372036854775807 20) 8000).toOption.map Window.inputs =
        some [.hit 2 9223372036854775807 20] := by
      decide +kernel
    obtain ⟨w, hreset, hadmits⟩ := Checked.toOption_map_eq_some_iff.1 hfull
    obtain ⟨w', hslide, hinputs⟩ := Checked.toOption_map_eq_some_iff.1 hleft
    rw [hreset] at hslide
    refine ⟨w, w', hreset, hadmits, hslide, hinputs, ?_⟩
    refine (slide_keeps_young_elements ?_ _ (by decide)).1 w' hslide
    rw [(Sound.of_reset hreset).2]
    exact List.pairwise_singleton _ _

end Window

end TriggerChain
