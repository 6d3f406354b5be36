import TriggerChain.Proofs.Command.Desk
import TriggerChain.Proofs.Text.Fields
import Mathlib.Data.List.Nodup

/-!
# Names of tables

The tables of a partition are named after the stem of its path: the stem, and a suffix for each
table. No suffix ends with another one, so a name tells the stem and the suffix that it was put
together from. But it does not tell the path: a stem forgets the folders and the extension.

Main statement: `stem_and_suffix_of_name`.
-/

namespace TriggerChain.Command

/-! ## Stems -/

theorem notMem_ofNat (n : Nat) : '/' ∉ (Text.ofNat n).toList := by
  rw [Text.ofNat, String.toList_ofList]
  exact Text.notMem_natural (by decide) n

/-- A stem is the name of a file, not a path. -/
theorem notMem_stemOf (path : String) (index : Nat) : '/' ∉ (stemOf path index).toList := by
  have hnone : '/' ∉ ("partition" ++ Text.ofNat index).toList := by
    rw [String.toList_append]
    exact fun h => (List.mem_append.1 h).elim (by decide) (notMem_ofNat index)
  unfold stemOf
  dsimp only
  split
  · exact hnone
  · next name hname =>
    have hmem : name ∈ parts path := (List.mem_filter.1 (List.mem_of_getLast? hname)).1
    have hslash : '/' ∉ name := notMem_of_mem_cutAtSlashes hmem
    split
    · exact hnone
    · split
      · rw [String.toList_ofList]
        exact hslash
      · rw [String.toList_ofList]
        exact fun h => hslash (List.mem_of_mem_take h)

/-- The stems of the inputs of a job. -/
def Job.stems (job : Job) : List String := job.inputs.zipIdx.map fun (path, i) => stemOf path i

theorem Job.stems_getElem? (job : Job) (i : Nat) :
    job.stems[i]? = job.inputs[i]?.map fun path => stemOf path i := by
  unfold Job.stems
  rw [List.getElem?_map, List.getElem?_zipIdx, Option.map_map, Nat.zero_add]
  rfl

theorem Job.notMem_of_mem_stems {job : Job} {stem : String} (h : stem ∈ job.stems) :
    '/' ∉ stem.toList := by
  obtain ⟨⟨path, i⟩, -, rfl⟩ := List.mem_map.1 h
  exact notMem_stemOf path i

/-! ## Names of tables -/

/-- What the names of the tables of results end with. -/
def resultSuffixes : List String := ["_activities.csv", "_candidates.csv"]

/-- What the names of the tables of events end with. -/
def eventSuffixes : List String :=
  ["_activity_windows.csv", "_activity_tracks.csv", "_activity_primitives.csv",
    "_candidate_windows.csv", "_candidate_tracks.csv", "_candidate_primitives.csv"]

/-- The names of the tables of results of a partition. -/
def resultNames (stem : String) : List String := resultSuffixes.map fun suffix => stem ++ suffix

/-- The names of the tables of events of a partition. -/
def eventNames (stem : String) : List String := eventSuffixes.map fun suffix => stem ++ suffix

/-- A name tells the stem and the suffix that it is put together from. -/
theorem stem_and_suffix_of_name {stem stem' suffix suffix' : String}
    (h : suffix ∈ resultSuffixes ++ eventSuffixes) (h' : suffix' ∈ resultSuffixes ++ eventSuffixes)
    (hname : stem ++ suffix = stem' ++ suffix') : stem = stem' ∧ suffix = suffix' := by
  have hends : ∀ a ∈ resultSuffixes ++ eventSuffixes, ∀ b ∈ resultSuffixes ++ eventSuffixes,
      a.toList <:+ b.toList → a = b := by
    decide +kernel
  have hchars : stem.toList ++ suffix.toList = stem'.toList ++ suffix'.toList := by
    rw [← String.toList_append, ← String.toList_append, hname]
  have hsuffix : suffix = suffix' := by
    rcases List.suffix_or_suffix_of_suffix (List.suffix_append stem.toList suffix.toList)
      (hchars ▸ List.suffix_append stem'.toList suffix'.toList) with hends' | hends'
    · exact hends suffix h suffix' h' hends'
    · exact (hends suffix' h' suffix h hends').symm
  rw [hsuffix] at hchars
  exact ⟨String.toList_inj.1 (List.append_cancel_right hchars), hsuffix⟩

theorem isTableName_of_suffix {stem suffix : String} (hstem : '/' ∉ stem.toList)
    (h : suffix ∈ resultSuffixes ++ eventSuffixes) : IsTableName (stem ++ suffix).toList := by
  have hsuffix : ∀ a ∈ resultSuffixes ++ eventSuffixes,
      '/' ∉ a.toList ∧ ".csv".toList <:+ a.toList := by
    decide +kernel
  obtain ⟨hslash, hending⟩ := hsuffix suffix h
  rw [String.toList_append]
  exact ⟨fun hmem => (List.mem_append.1 hmem).elim hstem hslash,
    hending.trans (List.suffix_append _ _)⟩

theorem isTableName_of_resultName {stem name : String} (hstem : '/' ∉ stem.toList)
    (h : name ∈ resultNames stem) : IsTableName name.toList := by
  obtain ⟨suffix, hsuffix, rfl⟩ := List.mem_map.1 h
  exact isTableName_of_suffix hstem (List.mem_append_left _ hsuffix)

theorem isTableName_of_eventName {stem name : String} (hstem : '/' ∉ stem.toList)
    (h : name ∈ eventNames stem) : IsTableName name.toList := by
  obtain ⟨suffix, hsuffix, rfl⟩ := List.mem_map.1 h
  exact isTableName_of_suffix hstem (List.mem_append_right _ hsuffix)

theorem nodup_map_stem {stem : String} {suffixes : List String} (h : suffixes.Nodup) :
    (suffixes.map fun suffix => stem ++ suffix).Nodup := by
  refine List.Nodup.map (fun a b hab => ?_) h
  have hchars : stem.toList ++ a.toList = stem.toList ++ b.toList := by
    rw [← String.toList_append, ← String.toList_append]
    exact congrArg String.toList hab
  exact String.toList_inj.1 (List.append_cancel_left hchars)

theorem nodup_resultNames (stem : String) : (resultNames stem).Nodup :=
  nodup_map_stem (by decide)

theorem nodup_eventNames (stem : String) : (eventNames stem).Nodup :=
  nodup_map_stem (by decide)

/-- Partitions with different stems have different tables. -/
theorem notMem_of_stem_ne {stem stem' name : String} (hne : stem ≠ stem') :
    (name ∈ resultNames stem → name ∉ resultNames stem') ∧
      (name ∈ eventNames stem → name ∉ eventNames stem') := by
  constructor
  · intro h h'
    obtain ⟨a, ha, rfl⟩ := List.mem_map.1 h
    obtain ⟨b, hb, hname⟩ := List.mem_map.1 h'
    exact hne (stem_and_suffix_of_name (List.mem_append_left _ ha) (List.mem_append_left _ hb)
      hname.symm).1
  · intro h h'
    obtain ⟨a, ha, rfl⟩ := List.mem_map.1 h
    obtain ⟨b, hb, hname⟩ := List.mem_map.1 h'
    exact hne (stem_and_suffix_of_name (List.mem_append_right _ ha) (List.mem_append_right _ hb)
      hname.symm).1

/-- No table of events is named as a table of results is. -/
theorem eventName_notMem_resultNames {stem stem' name : String} (h : name ∈ eventNames stem) :
    name ∉ resultNames stem' := by
  intro h'
  obtain ⟨a, ha, rfl⟩ := List.mem_map.1 h
  obtain ⟨b, hb, hname⟩ := List.mem_map.1 h'
  have hdisjoint : ∀ a ∈ eventSuffixes, a ∉ resultSuffixes := by decide
  apply hdisjoint a ha
  rwa [← (stem_and_suffix_of_name (List.mem_append_left _ hb) (List.mem_append_right _ ha)
    hname).2]

end TriggerChain.Command
