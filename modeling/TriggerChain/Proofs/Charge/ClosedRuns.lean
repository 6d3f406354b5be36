import TriggerChain.Charge.Track

/-!
# The closed runs of a profile

The values of a profile are above its mean or not. A closed block is a stretch of values that are
all above, as long as it can be, with a value behind it that is not. The charge clusters are the
sums of the closed blocks, in order. A value may be no number at all, and sums round as they like:
all that is used of the values is whether they are above.

Main statement: `clusters_are_closed_blocks`.
-/

namespace TriggerChain

/-! ## Closed blocks -/

section Blocks

variable {α : Type} {above : α → Bool} {xs before rest : List α} {i j start : Nat} {v : α}

/-- The values at the positions from `i` on and before `j` are a maximal block of values that are
    above, and the value at `j`, which is not, closes it. -/
structure IsClosedBlock (above : α → Bool) (xs : List α) (i j : Nat) : Prop where
  nonempty : i < j
  inside : ∀ k v, i ≤ k → k < j → xs[k]? = some v → above v = true
  /-- The block cannot be taken further to the left. -/
  opens : i = 0 ∨ ∃ v, xs[i - 1]? = some v ∧ above v = false
  closes : ∃ v, xs[j]? = some v ∧ above v = false

/-- No closed block reaches across a value that is not above. -/
theorem IsClosedBlock.not_across (h : IsClosedBlock above xs i j) {k : Nat} (hk : xs[k]? = some v)
    (hv : above v = false) : k < i ∨ j ≤ k := by
  rcases Nat.lt_or_ge k i with hbefore | hfrom
  · exact .inl hbefore
  · rcases Nat.lt_or_ge k j with hin | hbehind
    · cases hv.symm.trans (h.inside k v hfrom hin hk)
    · exact .inr hbehind

/-- The block that is open behind the values in `before` begins at `start`; it may be empty. -/
structure OpensAt (above : α → Bool) (before : List α) (start : Nat) : Prop where
  le : start ≤ before.length
  inside : ∀ k v, start ≤ k → before[k]? = some v → above v = true
  opens : start = 0 ∨ ∃ v, before[start - 1]? = some v ∧ above v = false

theorem opensAt_nil (above : α → Bool) : OpensAt above [] 0 :=
  ⟨Nat.le_refl 0, fun _ _ _ h => (nomatch h), .inl rfl⟩

theorem OpensAt.snoc (h : OpensAt above before start) (hv : above v = true) :
    OpensAt above (before ++ [v]) start := by
  refine ⟨?_, ?_, ?_⟩
  · rw [List.length_append]
    exact Nat.le_add_right_of_le h.le
  · intro k v' hk hv'
    rcases Nat.lt_or_ge k before.length with hold | hnew
    · rw [List.getElem?_append_left hold] at hv'
      exact h.inside k v' hk hv'
    · rw [List.getElem?_append_right hnew] at hv'
      obtain rfl := List.mem_singleton.1 (List.mem_of_getElem? hv')
      exact hv
  · rcases h.opens with hzero | ⟨v', hstart, hv'⟩
    · exact .inl hzero
    · refine .inr ⟨v', ?_, hv'⟩
      rw [List.getElem?_append_left (List.getElem?_eq_some_iff.1 hstart).1, hstart]

theorem opensAt_behind (before : List α) (hv : above v = false) :
    OpensAt above (before ++ [v]) (before.length + 1) := by
  have hlength : (before ++ [v]).length = before.length + 1 := by simp
  refine ⟨Nat.le_of_eq hlength.symm, ?_, .inr ⟨v, ?_, hv⟩⟩
  · intro k v' hk hv'
    rw [List.getElem?_eq_none (by omega)] at hv'
    cases hv'
  · simp

/-- A value that is not above closes the open block, unless that one is empty, and no other. -/
theorem OpensAt.isClosedBlock_iff (h : OpensAt above before start) (hv : above v = false) :
    IsClosedBlock above (before ++ v :: rest) i before.length ↔
      i = start ∧ start < before.length := by
  have hfront : ∀ k, k < before.length → (before ++ v :: rest)[k]? = before[k]? :=
    fun k hk => List.getElem?_append_left hk
  constructor
  · intro hblock
    have hlt := hblock.nonempty
    rcases Nat.lt_trichotomy i start with hless | rfl | hgreater
    · -- The value in front of the open block would be in the block.
      rcases h.opens with hzero | ⟨w, hstart, hw⟩
      · omega
      · have hle := h.le
        rw [← hfront _ (by omega)] at hstart
        have := hblock.not_across hstart hw
        omega
    · exact ⟨rfl, hlt⟩
    · -- The value in front of the block would be in the open block.
      rcases hblock.opens with hzero | ⟨w, hbefore, hw⟩
      · omega
      · rw [hfront _ (by omega)] at hbefore
        cases hw.symm.trans (h.inside _ w (by omega) hbefore)
  · rintro ⟨rfl, hlt⟩
    refine ⟨hlt, ?_, ?_, v, by simp, hv⟩
    · intro k w hk hkj hw
      rw [hfront k hkj] at hw
      exact h.inside k w hk hw
    · refine h.opens.imp_right ?_
      rintro ⟨w, hstart, hw⟩
      exact ⟨w, by rw [hfront _ (by omega), hstart], hw⟩

/-- Where the next value is not above, a block closes at it, which is the open one, or behind it. -/
theorem OpensAt.closes_here_or_later (h : OpensAt above before start) (hv : above v = false) :
    before.length ≤ j ∧ IsClosedBlock above (before ++ v :: rest) i j ↔
      (j = before.length ∧ i = start ∧ start < before.length) ∨
        (before.length + 1 ≤ j ∧ IsClosedBlock above (before ++ v :: rest) i j) := by
  rw [Nat.le_iff_lt_or_eq, or_and_right, or_comm]
  refine or_congr_left ⟨?_, ?_⟩
  · rintro ⟨rfl, hblock⟩
    exact ⟨rfl, (h.isClosedBlock_iff hv).1 hblock⟩
  · rintro ⟨rfl, hstart⟩
    exact ⟨rfl, (h.isClosedBlock_iff hv).2 hstart⟩

/-- Where the next value is above, no block closes at it. -/
theorem IsClosedBlock.closes_later (h : IsClosedBlock above (before ++ v :: rest) i j)
    (hv : above v = true) (hj : before.length ≤ j) : before.length + 1 ≤ j := by
  refine Nat.lt_of_le_of_ne hj ?_
  rintro rfl
  have hat : (before ++ v :: rest)[before.length]? = some v := by simp
  obtain ⟨w, hw, hlow⟩ := h.closes
  obtain rfl := Option.some.inj (hat.symm.trans hw)
  cases hv.symm.trans hlow

/-- The closed blocks that close in the rest of a list. The open block begins at `start`, the rest
    at `pos`. -/
def closedBlocks (above : α → Bool) : Nat → Nat → List α → List (Nat × Nat)
  | _, _, [] => []
  | start, pos, v :: rest =>
    if above v then closedBlocks above start (pos + 1) rest
    else if start < pos then (start, pos) :: closedBlocks above (pos + 1) (pos + 1) rest
    else closedBlocks above (pos + 1) (pos + 1) rest

/-- The scan finds the closed blocks that close behind the values it has gone through. -/
theorem mem_closedBlocks (h : OpensAt above before start) :
    (i, j) ∈ closedBlocks above start before.length rest ↔
      before.length ≤ j ∧ IsClosedBlock above (before ++ rest) i j := by
  induction rest generalizing before start with
  | nil =>
    refine iff_of_false (List.not_mem_nil) ?_
    rintro ⟨hj, -, -, -, v, hv, -⟩
    rw [List.append_nil, List.getElem?_eq_none hj] at hv
    cases hv
  | cons v rest ih =>
    have hlength : (before ++ [v]).length = before.length + 1 := by simp
    have hsplit : before ++ v :: rest = before ++ [v] ++ rest := by simp
    cases hv : above v with
    | true =>
      have hmore := ih (h.snoc hv)
      rw [hlength, ← hsplit] at hmore
      rw [closedBlocks, if_pos hv, hmore]
      exact and_congr_left fun hblock => ⟨Nat.le_of_succ_le, hblock.closes_later hv⟩
    | false =>
      have hmore := ih (opensAt_behind before hv)
      rw [hlength, ← hsplit] at hmore
      rw [closedBlocks, if_neg (by rw [hv]; decide), h.closes_here_or_later hv, ← hmore]
      split
      · next hstart => simp [hstart, and_comm]
      · next hstart => simp [hstart]

/-- It finds them one behind the other. -/
theorem pairwise_closedBlocks (h : OpensAt above before start) :
    (closedBlocks above start before.length rest).Pairwise fun a b => a.2 < b.1 := by
  induction rest generalizing before start with
  | nil => exact .nil
  | cons v rest ih =>
    have hlength : (before ++ [v]).length = before.length + 1 := by simp
    cases hv : above v with
    | true =>
      rw [closedBlocks, if_pos hv, ← hlength]
      exact ih (h.snoc hv)
    | false =>
      have hopens := opensAt_behind before hv
      rw [closedBlocks, if_neg (by rw [hv]; decide), ← hlength]
      rw [← hlength] at hopens
      split
      · refine List.pairwise_cons.2 ⟨?_, ih hopens⟩
        rintro ⟨i, j⟩ hmem
        obtain ⟨hj, hblock⟩ := (mem_closedBlocks hopens).1 hmem
        have hat : (before ++ [v] ++ rest)[before.length]? = some v := by simp
        have hapart := hblock.not_across hat hv
        show before.length < i
        omega
      · exact ih hopens

/-- A block at the front, a longer one, and one that nothing closes. -/
example : closedBlocks id 0 0 [true, false, true, true, false, true] = [(0, 1), (2, 4)] := rfl

end Blocks

/-! ## Clusters -/

/-- Whether a value is above a baseline. -/
def isAbove (baseline value : Float) : Bool := decide (value > baseline)

/-- The sum of a block from left to right, from zero on. -/
def blockSum (block : List Float) : Float := block.foldl (· + ·) 0.0

section Runs

variable {baseline v : Float} {open? : Option Float} {rest : List Float}

theorem closedRuns_of_above (h : isAbove baseline v = true) :
    closedRuns baseline open? (v :: rest) =
      closedRuns baseline (some (open?.getD 0.0 + v)) rest := by
  have hgt : v > baseline := of_decide_eq_true h
  cases open? <;> exact if_pos hgt

theorem closedRuns_of_not_above (h : isAbove baseline v = false) :
    closedRuns baseline open? (v :: rest) = open?.toList ++ closedRuns baseline none rest := by
  have hle : ¬v > baseline := of_decide_eq_false h
  cases open? <;> exact if_neg hle

end Runs

theorem closedRuns_eq {baseline : Float} {before rest : List Float} {start : Nat}
    {open? : Option Float} (h : OpensAt (isAbove baseline) before start)
    (hopen : open? =
      if start < before.length then some (blockSum (before.drop start)) else none) :
    closedRuns baseline open? rest =
      (closedBlocks (isAbove baseline) start before.length rest).map fun b =>
        blockSum ((before ++ rest).extract b.1 b.2) := by
  induction rest generalizing before start open? with
  | nil => rfl
  | cons v rest ih =>
    have hlength : (before ++ [v]).length = before.length + 1 := by simp
    have hsplit : before ++ v :: rest = before ++ [v] ++ rest := by simp
    cases hv : isAbove baseline v with
    | true =>
      -- The block grows by the value, or begins with it.
      have hsum : some (open?.getD 0.0 + v) =
          if start < (before ++ [v]).length then some (blockSum ((before ++ [v]).drop start))
          else none := by
        have hlt : start < (before ++ [v]).length := hlength ▸ Nat.lt_succ_of_le h.le
        rw [if_pos hlt, List.drop_append_of_le_length h.le, blockSum, List.foldl_append, hopen]
        split
        · rfl
        · next hempty =>
          rw [List.drop_eq_nil_of_le (Nat.le_of_not_lt hempty)]
          rfl
      have hmore := ih (h.snoc hv) hsum
      rw [hlength, ← hsplit] at hmore
      rw [closedRuns_of_above hv, closedBlocks, if_pos hv, hmore]
    | false =>
      have hnone : none = if before.length + 1 < (before ++ [v]).length
          then some (blockSum ((before ++ [v]).drop (before.length + 1))) else none := by
        rw [if_neg (by omega)]
      have hmore := ih (opensAt_behind before hv) hnone
      rw [hlength, ← hsplit] at hmore
      rw [closedRuns_of_not_above hv, closedBlocks, if_neg (by rw [hv]; decide), hopen, hmore]
      split
      · -- What is behind the block does not count.
        have hblock : (before ++ v :: rest).extract start before.length = before.drop start := by
          rw [List.extract_eq_take_drop, List.drop_append_of_le_length h.le,
            List.take_left' (by rw [List.length_drop])]
        rw [List.map_cons, hblock]
        rfl
      · rfl

theorem chargeClusters_eq (series : List Float) :
    chargeClusters series =
      (closedBlocks (isAbove (meanOf series)) 0 0 series).map fun b =>
        blockSum (series.extract b.1 b.2) :=
  closedRuns_eq (opensAt_nil _) rfl

/-- What the clusters of a series are. -/
structure SumsClosedBlocks (series clusters : List Float) : Prop where
  /-- The baseline is the sum from left to right, divided by the length. -/
  mean : meanOf series = sumOf series / Float.ofNat series.length
  /-- Each closed block gives one cluster, its sum, in the order of the blocks. A value in one block
      is in no other. -/
  blocks : ∃ blocks : List (Nat × Nat),
    (∀ b, b ∈ blocks ↔ IsClosedBlock (isAbove (meanOf series)) series b.1 b.2) ∧
    blocks.Pairwise (fun a b => a.2 < b.1) ∧
    clusters = blocks.map fun b => blockSum (series.extract b.1 b.2)

theorem sumsClosedBlocks (first : Float) (rest : List Float) :
    SumsClosedBlocks (first :: rest) (chargeClusters (first :: rest)) := by
  have hopens := opensAt_nil (isAbove (meanOf (first :: rest)))
  refine ⟨rfl, closedBlocks _ 0 0 (first :: rest), ?_, pairwise_closedBlocks hopens,
    chargeClusters_eq _⟩
  -- Every block closes behind the values in front of the series, of which there are none.
  intro b
  exact (mem_closedBlocks hopens).trans (and_iff_right (Nat.zero_le b.2))

theorem chargeClusters_eq_nil {series : List Float}
    (h : ∀ i j, ¬IsClosedBlock (isAbove (meanOf series)) series i j) :
    chargeClusters series = [] := by
  have hnone : closedBlocks (isAbove (meanOf series)) 0 0 series = [] := by
    refine List.eq_nil_iff_forall_not_mem.2 ?_
    rintro ⟨i, j⟩ hmem
    exact h i j ((mem_closedBlocks (opensAt_nil _)).1 hmem).2
  rw [chargeClusters_eq, hnone, List.map_nil]

/-! ## Tests of profiles -/

namespace ProfileTest

/-- The running mean that decides; none if there is no width at the deciding position. -/
def decidingSeries (t : ProfileTest) (ps : List Primitive) : List Float :=
  (t.run ps).means[t.decision]?.getD []

/-- A test that finds no clusters does not pass. -/
theorem not_endPeaked_of_clusters {t : ProfileTest} {ps : List Primitive}
    (h : chargeClusters (t.decidingSeries ps) = []) :
    (t.run ps).endPeaked = false ∧ (t.run ps).clusters = [] ∧ (t.run ps).peakCluster = none := by
  have hclusters : (t.run ps).clusters = [] := h
  refine ⟨?_, hclusters, ?_⟩
  · show peakAtEnd (t.run ps).clusters = false
    rw [hclusters]
    rfl
  · show peakOf (t.run ps).clusters = none
    rw [hclusters]
    rfl

end ProfileTest

/-- The clusters of a series are its closed blocks above the mean. Where there is no such block, a
    test of a profile does not pass and has no peak. -/
theorem clusters_are_closed_blocks :
    (∀ first rest, SumsClosedBlocks (first :: rest) (chargeClusters (first :: rest))) ∧
      ∀ (t : ProfileTest) (ps : List Primitive),
        (∀ i j, ¬IsClosedBlock (isAbove (meanOf (t.decidingSeries ps))) (t.decidingSeries ps) i j) →
        (t.run ps).endPeaked = false ∧ (t.run ps).peakCluster = none := by
  refine ⟨sumsClosedBlocks, fun t ps hnone => ?_⟩
  obtain ⟨hpeaked, -, hpeak⟩ := t.not_endPeaked_of_clusters (chargeClusters_eq_nil hnone)
  exact ⟨hpeaked, hpeak⟩

end TriggerChain
