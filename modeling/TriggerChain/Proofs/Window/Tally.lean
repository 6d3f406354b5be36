import Mathlib.Data.List.Dedup
import TriggerChain.Proofs.Checked
import TriggerChain.Window.Hits

/-!
# What a table of hit counts tallies

A table tallies a list of channels if it counts every channel as often as the list has it and
keeps none that it counts zero times. Adding a hit and releasing one keep this, whatever the
order of the list, so a table can be taken apart in another order than it was built in.

Main statements: `Tallies.add` and `Tallies.release` for the hits of an element, and
`Tallies.unique`, which says that a list of channels has one table only.
-/

namespace TriggerChain

namespace HitCounts

/-! ## Entries -/

theorem count_insert (h : HitCounts) (c d : Channel) (n : UInt32) :
    ({ table := h.table.insert c n } : HitCounts).count d = if c = d then n else h.count d := by
  unfold count
  rw [Std.ExtTreeMap.getD_insert]
  simp only [Std.LawfulEqCmp.compare_eq_iff_eq]

theorem count_erase (h : HitCounts) (c d : Channel) :
    ({ table := h.table.erase c } : HitCounts).count d = if c = d then 0 else h.count d := by
  unfold count
  rw [Std.ExtTreeMap.getD_erase]
  simp only [Std.LawfulEqCmp.compare_eq_iff_eq]

theorem mem_entries {h : HitCounts} {c : Channel} {n : UInt32} :
    (c, n) ∈ h.entries ↔ h.table[c]? = some n := Std.ExtTreeMap.mem_toList_iff_getElem?_eq_some

/-- No channel is kept with a count of zero. -/
def Positive (h : HitCounts) : Prop := ∀ e ∈ h.entries, e.2 ≠ 0

/-- A table of positive counts has an entry for exactly the channels that it counts. -/
theorem Positive.getElem? {h : HitCounts} (hpos : h.Positive) (c : Channel) :
    h.table[c]? = if h.count c = 0 then none else some (h.count c) := by
  unfold count
  rw [Std.ExtTreeMap.getD_eq_getD_getElem?]
  cases hentry : h.table[c]? with
  | none => rfl
  | some n =>
    have hn : n ≠ 0 := hpos (c, n) (mem_entries.2 hentry)
    exact (if_neg hn).symm

theorem Positive.mem_channels {h : HitCounts} (hpos : h.Positive) {c : Channel} :
    c ∈ h.channels ↔ h.count c ≠ 0 := by
  unfold channels
  rw [Std.ExtTreeMap.mem_keys, Std.ExtTreeMap.mem_iff_isSome_getElem?, hpos.getElem?]
  split
  · next hzero => simp [hzero]
  · next hne => simp [hne]

theorem Positive.insert {h : HitCounts} (hpos : h.Positive) {n : UInt32} (hn : n ≠ 0)
    (c : Channel) : ({ table := h.table.insert c n } : HitCounts).Positive := by
  rintro ⟨d, k⟩ hentry
  rw [mem_entries, Std.ExtTreeMap.getElem?_insert] at hentry
  split at hentry
  · exact Option.some.inj hentry ▸ hn
  · exact hpos (d, k) (mem_entries.2 hentry)

theorem Positive.erase {h : HitCounts} (hpos : h.Positive) (c : Channel) :
    ({ table := h.table.erase c } : HitCounts).Positive := by
  rintro ⟨d, k⟩ hentry
  rw [mem_entries, Std.ExtTreeMap.getElem?_erase] at hentry
  split at hentry
  · cases hentry
  · exact hpos (d, k) (mem_entries.2 hentry)

/-! ## One hit more, one hit less -/

variable {h : HitCounts} {c : Channel}

/-- A hit that fits the count is counted, and nothing else changes. -/
theorem addHit_spec (hpos : h.Positive) (hfit : (h.count c).toNat + 1 < UInt32.size) :
    ∃ h', h.addHit c = .ok h' ∧ h'.Positive ∧
      ∀ d, (h'.count d).toNat = (h.count d).toNat + if c = d then 1 else 0 := by
  have hsum : (h.count c + 1).toNat = (h.count c).toNat + 1 := by
    rw [UInt32.toNat_add]
    exact Nat.mod_eq_of_lt hfit
  have hne : h.count c + 1 ≠ 0 := by
    intro hzero
    rw [hzero] at hsum
    cases hsum
  refine ⟨_, if_pos hfit, hpos.insert hne c, fun d => ?_⟩
  rw [count_insert]
  split
  · next heq => rw [hsum, heq]
  · rfl

/-- A hit that does not fit the count stops the run. -/
theorem addHit_overflow (hfull : UInt32.size ≤ (h.count c).toNat + 1) :
    h.addHit c = .error .sumOverflow := if_neg (Nat.not_lt.2 hfull)

/-- A hit that is counted can be released, and nothing else changes. -/
theorem releaseHit_spec (hpos : h.Positive) (hhit : 0 < (h.count c).toNat) :
    ∃ h', h.releaseHit c = .ok h' ∧ h'.Positive ∧
      ∀ d, (h'.count d).toNat + (if c = d then 1 else 0) = (h.count d).toNat := by
  have hzero : h.count c ≠ 0 := by
    intro hzero
    rw [hzero] at hhit
    exact absurd hhit (by decide)
  have hentry : h.table[c]? = some (h.count c) := by rw [hpos.getElem?, if_neg hzero]
  unfold releaseHit
  rw [hentry]
  dsimp only
  rw [if_neg hzero]
  by_cases hone : h.count c = 1
  · -- The last hit takes the channel out of the table.
    refine ⟨_, if_pos hone, hpos.erase c, fun d => ?_⟩
    rw [count_erase]
    split
    · next heq =>
      rw [← heq, hone]
      rfl
    · rfl
  · -- One of several hits leaves the entry where it is.
    have hle : (1 : UInt32) ≤ h.count c := UInt32.le_iff_toNat_le.2 hhit
    have hdiff : (h.count c - 1).toNat = (h.count c).toNat - 1 := UInt32.toNat_sub_of_le _ _ hle
    have hmany : (h.count c).toNat ≠ 1 := fun heq => hone (UInt32.toNat_inj.1 heq)
    have hne : h.count c - 1 ≠ 0 := by
      intro hnone
      rw [hnone, UInt32.toNat_zero] at hdiff
      omega
    refine ⟨_, if_neg hone, hpos.insert hne c, fun d => ?_⟩
    rw [count_insert]
    split
    · next heq =>
      rw [← heq, hdiff]
      omega
    · rfl

/-! ## What a table tallies -/

/-- A table counts every channel as often as a list has it, and keeps no other. -/
structure Tallies (h : HitCounts) (cs : List Channel) : Prop where
  positive : h.Positive
  count : ∀ c, (h.count c).toNat = cs.count c

theorem Tallies.nil : Tallies {} [] := ⟨fun _ he => (List.not_mem_nil he).elim, fun _ => rfl⟩

/-- The order of the list does not matter. -/
theorem Tallies.perm {cs ds : List Channel} (ht : h.Tallies cs) (hperm : cs.Perm ds) :
    h.Tallies ds :=
  ⟨ht.positive, fun c => (ht.count c).trans (hperm.count_eq c)⟩

theorem Tallies.count_lt {cs : List Channel} (ht : h.Tallies cs) (c : Channel) :
    cs.count c < UInt32.size := by
  rw [← ht.count c]
  exact UInt32.toNat_lt _

theorem Tallies.mem_iff {cs : List Channel} (ht : h.Tallies cs) : c ∈ h.channels ↔ c ∈ cs := by
  rw [ht.positive.mem_channels, ← List.count_pos_iff (l := cs), ← ht.count c,
    Nat.pos_iff_ne_zero, ne_eq, ne_eq, ← UInt32.toNat_inj, UInt32.toNat_zero]

/-- There are as many entries as distinct channels. -/
theorem Tallies.size_eq {cs : List Channel} (ht : h.Tallies cs) : h.size = cs.dedup.length := by
  have hnodup : h.channels.Nodup := Std.ExtTreeMap.nodup_keys
  have hperm : h.channels.Perm cs.dedup := by
    rw [List.perm_ext_iff_of_nodup hnodup cs.nodup_dedup]
    intro c
    rw [ht.mem_iff, List.mem_dedup]
  exact Std.ExtTreeMap.length_keys.symm.trans hperm.length_eq

/-- Two tables that tally the same list are the same table. -/
theorem Tallies.unique {h h' : HitCounts} {cs : List Channel} (ht : h.Tallies cs)
    (ht' : h'.Tallies cs) : h = h' := by
  have hcount : ∀ c, h.count c = h'.count c := fun c =>
    UInt32.toNat_inj.1 ((ht.count c).trans (ht'.count c).symm)
  have htable : h.table = h'.table := Std.ExtTreeMap.ext_getElem? fun c => by
    rw [ht.positive.getElem?, ht'.positive.getElem?, hcount]
  cases h
  exact congrArg HitCounts.mk htable

/-! ## The hits of an element -/

/-- The hits of an element are tallied, unless a count overflows. -/
theorem Tallies.add {cs : List Channel} (ht : h.Tallies cs) (ds : List Channel) :
    (∃ h', h.add ds = .ok h' ∧ h'.Tallies (ds ++ cs)) ∨
    (h.add ds = .error .sumOverflow ∧ ∃ c, UInt32.size ≤ (ds ++ cs).count c) := by
  unfold HitCounts.add
  induction ds generalizing h cs with
  | nil => exact .inl ⟨h, rfl, ht⟩
  | cons d ds ih =>
    -- The table takes the hits in the order of the list, the tally puts each on top.
    have hperm : (ds ++ d :: cs).Perm (d :: ds ++ cs) := List.perm_middle
    rw [List.foldlM_cons]
    by_cases hfit : (h.count d).toNat + 1 < UInt32.size
    · obtain ⟨h₁, hadd, hpos, hcount⟩ := addHit_spec ht.positive hfit
      have htally : h₁.Tallies (d :: cs) := by
        refine ⟨hpos, fun c => ?_⟩
        rw [hcount, ht.count]
        by_cases hc : d = c
        · rw [if_pos hc, hc, List.count_cons_self]
        · rw [if_neg hc, List.count_cons_of_ne hc]
          rfl
      rw [hadd]
      rcases ih htally with ⟨h', hok, htally'⟩ | ⟨herr, c, hc⟩
      · exact .inl ⟨h', hok, htally'.perm hperm⟩
      · exact .inr ⟨herr, c, hperm.count_eq c ▸ hc⟩
    · rw [addHit_overflow (Nat.not_lt.1 hfit)]
      refine .inr ⟨rfl, d, ?_⟩
      rw [ht.count] at hfit
      rw [List.cons_append, List.count_cons_self, List.count_append]
      omega

/-- The hits of an element that is tallied can be released. -/
theorem Tallies.release {cs : List Channel} (ds : List Channel) (ht : h.Tallies (ds ++ cs)) :
    ∃ h', h.release ds = .ok h' ∧ h'.Tallies cs := by
  unfold HitCounts.release
  induction ds generalizing h with
  | nil => exact ⟨h, rfl, ht⟩
  | cons d ds ih =>
    have hhit : 0 < (h.count d).toNat := by
      rw [ht.count, List.cons_append, List.count_cons_self]
      omega
    obtain ⟨h₁, hrelease, hpos, hcount⟩ := releaseHit_spec ht.positive hhit
    have htally : h₁.Tallies (ds ++ cs) := by
      refine ⟨hpos, fun c => ?_⟩
      have hsame := hcount c
      rw [ht.count, List.cons_append] at hsame
      by_cases hc : d = c
      · rw [if_pos hc, hc, List.count_cons_self] at hsame
        omega
      · rwa [if_neg hc, List.count_cons_of_ne hc] at hsame
    rw [List.foldlM_cons, hrelease]
    exact ih htally

end HitCounts

end TriggerChain
