import TriggerChain.Record.Activity

/-!
# Candidates

A candidate is a cluster of activities, handed to the decision layer together with the
interval to read out and the set of detector elements that took part. The set is kept as an
ascending list, which `mem_regionsOf` and `sorted_regionsOf` describe.
-/

namespace TriggerChain

/-- The kind of a candidate. -/
inductive CandidateKind where
  | unknown
  | prescale
  | bundle
  | horizontalMuon
  | supernova
  deriving DecidableEq, Repr, Inhabited

/-- The name of a kind in tables. -/
def CandidateKind.name : CandidateKind → String
  | .unknown => "Unknown"
  | .prescale => "Prescale"
  | .bundle => "Bundle"
  | .horizontalMuon => "HorizontalMuon"
  | .supernova => "Supernova"

/-- The algorithm that made a candidate. -/
inductive CandidateAlgorithm where
  | unknown
  | prescale
  | bundle
  | horizontalMuon
  | supernova
  deriving DecidableEq, Repr, Inhabited

/-- The name of an algorithm in tables and messages. -/
def CandidateAlgorithm.name : CandidateAlgorithm → String
  | .unknown => "unknown"
  | .prescale => "prescale"
  | .bundle => "bundle"
  | .horizontalMuon => "horizontal_muon"
  | .supernova => "supernova"

/-! ## Regions -/

/-- Adds a detector element to an ascending list, once. -/
def insertRegion (d : DetId) : List DetId → List DetId
  | [] => [d]
  | e :: es => if d < e then d :: e :: es else if d = e then e :: es else e :: insertRegion d es

/-- The set of detector elements in a list, as an ascending list without repetition. -/
def regionsOf (ds : List DetId) : List DetId :=
  ds.foldr insertRegion []

theorem mem_insertRegion {d e : DetId} {ds : List DetId} :
    e ∈ insertRegion d ds ↔ e = d ∨ e ∈ ds := by
  induction ds with
  | nil => simp [insertRegion]
  | cons f ds ih =>
    rw [insertRegion]
    split
    · rw [List.mem_cons]
    · split
      · next heq =>
        -- The element is there already.
        subst heq
        simp
      · rw [List.mem_cons, ih, List.mem_cons]
        exact or_left_comm

theorem sorted_insertRegion (d : DetId) {ds : List DetId} (h : ds.Pairwise (· < ·)) :
    (insertRegion d ds).Pairwise (· < ·) := by
  induction ds with
  | nil => exact List.pairwise_singleton _ d
  | cons f ds ih =>
    obtain ⟨hfirst, hrest⟩ := List.pairwise_cons.1 h
    rw [insertRegion]
    split
    · next hlt =>
      refine List.pairwise_cons.2 ⟨fun e he => ?_, h⟩
      rcases List.mem_cons.1 he with rfl | he
      · exact hlt
      · exact UInt16.lt_trans hlt (hfirst e he)
    · next hge =>
      split
      · exact h
      · next hne =>
        refine List.pairwise_cons.2 ⟨fun e he => ?_, ih hrest⟩
        rcases mem_insertRegion.1 he with rfl | he
        · exact UInt16.lt_of_le_of_ne (UInt16.not_lt.1 hge) (Ne.symm hne)
        · exact hfirst e he

theorem mem_regionsOf {e : DetId} {ds : List DetId} : e ∈ regionsOf ds ↔ e ∈ ds := by
  induction ds with
  | nil => rfl
  | cons d ds ih =>
    rw [regionsOf, List.foldr_cons, ← regionsOf, mem_insertRegion, ih, List.mem_cons]

theorem sorted_regionsOf (ds : List DetId) : (regionsOf ds).Pairwise (· < ·) := by
  induction ds with
  | nil => exact .nil
  | cons d ds ih => exact sorted_insertRegion d ih

/-! ## The record -/

/-- A cluster of activities. -/
structure Candidate where
  /-- Where the interval to read out begins. -/
  timeStart : Ticks := 0
  /-- Where the interval to read out ends. -/
  timeEnd : Ticks := 0
  /-- The time under which the candidate is filed. -/
  timeCandidate : Ticks := 0
  /-- The detector element under which the candidate is filed. -/
  detid : DetId := 0
  /-- The kind of the candidate. -/
  kind : CandidateKind := .unknown
  /-- The algorithm that made it. -/
  algorithm : CandidateAlgorithm := .unknown
  /-- The version of the record. -/
  version : UInt16 := 0
  /-- The activities, in order. -/
  inputs : List Activity := []
  /-- The detector elements of the activities, ascending and without repetition. -/
  regions : List DetId := []
  deriving DecidableEq, Repr, Inhabited

namespace Candidate

/-- The detector element that stands for the whole detector. -/
def wholeDetector : DetId := 65535

/-- A candidate that groups activities, with no times set. It is filed under the detector
    element of the last activity. -/
def ofActivities (inputs : List Activity) (kind : CandidateKind)
    (algorithm : CandidateAlgorithm) : Candidate where
  detid := (inputs.getLast?.map (·.detid)).getD 0
  kind
  algorithm
  inputs
  regions := regionsOf (inputs.map (·.detid))

end Candidate

end TriggerChain
