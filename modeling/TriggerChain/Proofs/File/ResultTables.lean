import TriggerChain.File.Results
import TriggerChain.Proofs.File.Layout
import TriggerChain.Proofs.Maker.Regions

/-!
# Tables of results that are read back

The tables of activities and of candidates list numbers, names, and the regions of a candidate with
a semicolon between them. No numeral and no name holds a comma, a semicolon or a newline, so each
field is found where it was written; a numeral reads back as the value it was written for, over the
whole range of its word, and a name as the value that has it.

Main statement: `result_tables_are_lossless`.
-/

namespace TriggerChain

/-! ## What stands under a column -/

namespace Cells

variable {β : Type} (cells : Cells) (column : String)

/-- A tick count. -/
def ticks? : Option Ticks := (cells column).bind Text.signed?

/-- A natural number below a limit. -/
def below? (limit : Nat) : Option Nat := (cells column).bind (Text.unsigned? limit)

/-- A natural number. -/
def count? : Option Nat := (cells column).bind Text.magnitude?

/-- One of some values, by its name. -/
def named? (values : List β) (name : β → String) : Option β :=
  (cells column).bind fun word => values.find? fun value => (name value).toList = word

/-- Detector elements with a semicolon between them. In an empty field there are none. -/
def regions? : Option (List DetId) :=
  (cells column).bind fun word =>
    if word.isEmpty then some []
    else (word.splitOn ';').mapM fun numeral =>
      (Text.unsigned? UInt16.size numeral).map UInt16.ofNat

variable {cells : Cells} {column : String}

theorem ticks?_eq {t : Ticks} (h : cells column = some (Text.ofInt t.toInt).toList) :
    cells.ticks? column = some t := by
  rw [ticks?, h, Text.ofInt, String.toList_ofList]
  exact Text.signed?_integer t

theorem below?_eq {limit n : Nat} (h : cells column = some (Text.ofNat n).toList)
    (hn : n < limit) : cells.below? column limit = some n := by
  rw [below?, h, Text.ofNat, String.toList_ofList]
  exact Text.unsigned?_natural hn

theorem count?_eq {n : Nat} (h : cells column = some (Text.ofNat n).toList) :
    cells.count? column = some n := by
  rw [count?, h, Text.ofNat, String.toList_ofList]
  exact Text.magnitude?_natural n

/-- A value is found by its name if the values before it have other names. -/
theorem named?_eq {values : List β} {name : β → String} {value : β}
    (h : cells column = some (name value).toList) (hmem : value ∈ values)
    (hnames : (values.map name).Nodup) : cells.named? column values name = some value := by
  rw [named?, h]
  change values.find? _ = some value
  obtain ⟨before, after, rfl⟩ := List.append_of_mem hmem
  rw [List.map_append, List.map_cons] at hnames
  -- The values before it have other names, so they are passed over.
  rw [List.find?_eq_some_iff_append]
  refine ⟨by simp, before, after, rfl, fun other hother => ?_⟩
  have hne := (List.nodup_append.1 hnames).2.2 (name other) (List.mem_map_of_mem hother)
    (name value) List.mem_cons_self
  simpa [String.toList_inj] using hne

end Cells

/-! ## Regions -/

/-- What is written of some detector elements: their numerals with a semicolon between them. -/
def regionsField (ds : List DetId) : String := ";".intercalate (ds.map fun d => Text.ofNat d.toNat)

/-- The numerals of some detector elements. -/
def numerals (ds : List DetId) : List (List Char) := ds.map fun d => Text.natural d.toNat

theorem toList_regionsField (ds : List DetId) :
    (regionsField ds).toList = [';'].intercalate (numerals ds) := by
  rw [regionsField, String.toList_intercalate, List.map_map, numerals]
  congr 2
  funext d
  exact String.toList_ofList

/-- No numeral of a detector element holds anything but digits. -/
theorem notMem_of_mem_numerals {c : Char} (hc : c.isDigit = false) {ds : List DetId}
    {word : List Char} (h : word ∈ numerals ds) : c ∉ word := by
  obtain ⟨d, -, rfl⟩ := List.mem_map.1 h
  exact Text.notMem_natural hc d.toNat

theorem notMem_regionsField {c : Char} (hc : c.isDigit = false) (hsemicolon : c ≠ ';')
    (ds : List DetId) : c ∉ (regionsField ds).toList := by
  rw [toList_regionsField]
  intro hmem
  rcases Text.eq_or_mem_of_mem_intercalate hmem with hc' | ⟨word, hword, hmem⟩
  · exact hsemicolon hc'
  · exact notMem_of_mem_numerals hc hword hmem

theorem isField_regionsField (ds : List DetId) : Text.IsField (regionsField ds) :=
  ⟨notMem_regionsField (by decide) (by decide) ds, notMem_regionsField (by decide) (by decide) ds⟩

theorem splitOn_regionsField {ds : List DetId} (h : ds ≠ []) :
    (regionsField ds).toList.splitOn ';' = numerals ds := by
  rw [toList_regionsField]
  refine List.splitOn_intercalate ';' ?_ (mt List.map_eq_nil_iff.1 h)
  intro word hword
  exact notMem_of_mem_numerals (by decide) hword

/-- The field of some detector elements is empty only if there are none. -/
theorem toList_regionsField_ne_nil (d : DetId) (ds : List DetId) :
    (regionsField (d :: ds)).toList ≠ [] := by
  intro hnil
  have hpieces := splitOn_regionsField (List.cons_ne_nil d ds)
  rw [hnil] at hpieces
  -- An empty field has one piece, which is empty; a numeral is not.
  exact Text.natural_ne_nil d.toNat (List.cons.inj hpieces).1.symm

theorem mapM_numerals (ds : List DetId) :
    (numerals ds).mapM (fun numeral => (Text.unsigned? UInt16.size numeral).map UInt16.ofNat) =
      some ds := by
  have hone : ∀ d : DetId,
      (Text.unsigned? UInt16.size (Text.natural d.toNat)).map UInt16.ofNat = some d := by
    intro d
    rw [Text.unsigned?_natural d.toNat_lt, Option.map_some, UInt16.ofNat_toNat]
  rw [numerals, List.mapM_map, Function.comp_def]
  simp only [hone]
  exact List.mapM_pure.trans (congrArg some (List.map_id' ds))

theorem Cells.regions?_eq {cells : Cells} {column : String} {ds : List DetId}
    (h : cells column = some (regionsField ds).toList) : cells.regions? column = some ds := by
  rw [regions?, h, Option.bind_some]
  cases ds with
  | nil => rfl
  | cons d ds =>
    rw [if_neg (mt List.isEmpty_iff.1 (toList_regionsField_ne_nil d ds)),
      splitOn_regionsField (List.cons_ne_nil d ds)]
    exact mapM_numerals (d :: ds)

/-! ## Activities -/

/-- What the table of activities lists of an activity. -/
structure ListedActivity where
  /-- When the cluster began. -/
  timeStart : Ticks
  /-- When the cluster ended. -/
  timeEnd : Ticks
  /-- When its highest primitive peaked. -/
  timePeak : Ticks
  /-- The time under which the cluster is filed. -/
  timeActivity : Ticks
  /-- The channel of the first primitive. -/
  channelStart : Channel
  /-- The channel of the last primitive. -/
  channelEnd : Channel
  /-- The channel of the highest primitive. -/
  channelPeak : Channel
  /-- The summed charge. -/
  adcIntegral : Charge
  /-- The largest charge sample. -/
  adcPeak : UInt32
  /-- The detector element of the cluster. -/
  detid : DetId
  /-- The algorithm that made the cluster. -/
  algorithm : ActivityAlgorithm
  /-- The number of primitives. -/
  size : Nat
  deriving DecidableEq, Repr

/-- What is listed of an activity. -/
def Activity.listed (a : Activity) : ListedActivity where
  timeStart := a.timeStart
  timeEnd := a.timeEnd
  timePeak := a.timePeak
  timeActivity := a.timeActivity
  channelStart := a.channelStart
  channelEnd := a.channelEnd
  channelPeak := a.channelPeak
  adcIntegral := a.adcIntegral
  adcPeak := a.adcPeak
  detid := a.detid
  algorithm := a.algorithm
  size := a.inputs.length

/-- Every algorithm of activities. -/
def ActivityAlgorithm.all : List ActivityAlgorithm :=
  [unknown, prescale, adcSimpleWindow, horizontalMuon, michelElectron]

namespace ListedActivity

/-- The names of the columns. -/
def columns : List String :=
  ["time_start", "time_end", "time_peak", "time_activity", "channel_start", "channel_end",
    "channel_peak", "adc_integral", "adc_peak", "detid", "algorithm", "n_primitives"]

/-- The fields of a row. -/
def fields (a : ListedActivity) : List String :=
  [Text.ofInt a.timeStart.toInt, Text.ofInt a.timeEnd.toInt, Text.ofInt a.timePeak.toInt,
    Text.ofInt a.timeActivity.toInt, Text.ofNat a.channelStart.toNat,
    Text.ofNat a.channelEnd.toNat, Text.ofNat a.channelPeak.toNat,
    Text.ofNat a.adcIntegral.toNat, Text.ofNat a.adcPeak.toNat, Text.ofNat a.detid.toNat,
    a.algorithm.name, Text.ofNat a.size]

/-- Reads a row: decimal numbers that fit the words, and the name of an algorithm. -/
def read? (cells : Cells) : Option ListedActivity := do
  let timeStart ← cells.ticks? "time_start"
  let timeEnd ← cells.ticks? "time_end"
  let timePeak ← cells.ticks? "time_peak"
  let timeActivity ← cells.ticks? "time_activity"
  let channelStart ← cells.below? "channel_start" UInt32.size
  let channelEnd ← cells.below? "channel_end" UInt32.size
  let channelPeak ← cells.below? "channel_peak" UInt32.size
  let adcIntegral ← cells.below? "adc_integral" UInt64.size
  let adcPeak ← cells.below? "adc_peak" UInt32.size
  let detid ← cells.below? "detid" UInt16.size
  let algorithm ← cells.named? "algorithm" ActivityAlgorithm.all ActivityAlgorithm.name
  let size ← cells.count? "n_primitives"
  return {
    timeStart, timeEnd, timePeak, timeActivity
    channelStart := .ofNat channelStart
    channelEnd := .ofNat channelEnd
    channelPeak := .ofNat channelPeak
    adcIntegral := .ofNat adcIntegral
    adcPeak := .ofNat adcPeak
    detid := .ofNat detid
    algorithm, size }

theorem isField_of_mem_fields (a : ListedActivity) : ∀ f ∈ a.fields, Text.IsField f := by
  have hname : Text.IsField a.algorithm.name := by cases a.algorithm <;> decide
  simp [fields, Text.isField_ofInt, Text.isField_ofNat, hname]

theorem read?_fields (a : ListedActivity) :
    read? (cellsOf columns (a.fields.map String.toList)) = some a := by
  have halgorithm : a.algorithm ∈ ActivityAlgorithm.all := by cases a.algorithm <;> decide
  unfold read?
  rw [Cells.ticks?_eq (t := a.timeStart) rfl, Cells.ticks?_eq (t := a.timeEnd) rfl,
    Cells.ticks?_eq (t := a.timePeak) rfl, Cells.ticks?_eq (t := a.timeActivity) rfl,
    Cells.below?_eq rfl a.channelStart.toNat_lt, Cells.below?_eq rfl a.channelEnd.toNat_lt,
    Cells.below?_eq rfl a.channelPeak.toNat_lt, Cells.below?_eq rfl a.adcIntegral.toNat_lt,
    Cells.below?_eq rfl a.adcPeak.toNat_lt, Cells.below?_eq rfl a.detid.toNat_lt,
    Cells.named?_eq rfl halgorithm (by decide), Cells.count?_eq rfl]
  simp

/-- How activities are laid out. -/
def layout : Layout ListedActivity where
  columns := columns
  fields := fields
  read? := read?
  columns_ne_nil := List.cons_ne_nil _ _
  isField_columns := by decide
  isField_fields := isField_of_mem_fields
  length_fields _ := rfl
  read?_fields := read?_fields

end ListedActivity

theorem activityTable_eq (activities : List Activity) :
    activityTable activities = ListedActivity.layout.text (activities.map Activity.listed) := by
  rw [Layout.text, List.map_map]
  rfl

/-! ## Candidates -/

/-- What the table of candidates lists of a candidate. -/
structure ListedCandidate where
  /-- Where the interval to read out begins. -/
  timeStart : Ticks
  /-- Where the interval to read out ends. -/
  timeEnd : Ticks
  /-- The time under which the candidate is filed. -/
  timeCandidate : Ticks
  /-- The detector element under which the candidate is filed. -/
  detid : DetId
  /-- The kind of the candidate. -/
  kind : CandidateKind
  /-- The algorithm that made it. -/
  algorithm : CandidateAlgorithm
  /-- The number of activities. -/
  size : Nat
  /-- The detector elements of the activities. -/
  regions : List DetId
  deriving DecidableEq, Repr

/-- What is listed of a candidate. -/
def Candidate.listed (c : Candidate) : ListedCandidate where
  timeStart := c.timeStart
  timeEnd := c.timeEnd
  timeCandidate := c.timeCandidate
  detid := c.detid
  kind := c.kind
  algorithm := c.algorithm
  size := c.inputs.length
  regions := c.regions

/-- Every kind of candidates. -/
def CandidateKind.all : List CandidateKind := [unknown, prescale, bundle, horizontalMuon, supernova]

/-- Every algorithm of candidates. -/
def CandidateAlgorithm.all : List CandidateAlgorithm :=
  [unknown, prescale, bundle, horizontalMuon, supernova]

namespace ListedCandidate

/-- The names of the columns. -/
def columns : List String :=
  ["time_start", "time_end", "time_candidate", "detid", "type", "algorithm", "n_activities",
    "regions"]

/-- The fields of a row. -/
def fields (c : ListedCandidate) : List String :=
  [Text.ofInt c.timeStart.toInt, Text.ofInt c.timeEnd.toInt, Text.ofInt c.timeCandidate.toInt,
    Text.ofNat c.detid.toNat, c.kind.name, c.algorithm.name, Text.ofNat c.size,
    regionsField c.regions]

/-- Reads a row: decimal numbers that fit the words, the names of a kind and of an algorithm, and
    detector elements with a semicolon between them. -/
def read? (cells : Cells) : Option ListedCandidate := do
  let timeStart ← cells.ticks? "time_start"
  let timeEnd ← cells.ticks? "time_end"
  let timeCandidate ← cells.ticks? "time_candidate"
  let detid ← cells.below? "detid" UInt16.size
  let kind ← cells.named? "type" CandidateKind.all CandidateKind.name
  let algorithm ← cells.named? "algorithm" CandidateAlgorithm.all CandidateAlgorithm.name
  let size ← cells.count? "n_activities"
  let regions ← cells.regions? "regions"
  return {
    timeStart, timeEnd, timeCandidate
    detid := .ofNat detid
    kind, algorithm, size, regions }

theorem isField_of_mem_fields (c : ListedCandidate) : ∀ f ∈ c.fields, Text.IsField f := by
  have hkind : Text.IsField c.kind.name := by cases c.kind <;> decide
  have halgorithm : Text.IsField c.algorithm.name := by cases c.algorithm <;> decide
  simp [fields, Text.isField_ofInt, Text.isField_ofNat, isField_regionsField, hkind, halgorithm]

theorem read?_fields (c : ListedCandidate) :
    read? (cellsOf columns (c.fields.map String.toList)) = some c := by
  have hkind : c.kind ∈ CandidateKind.all := by cases c.kind <;> decide
  have halgorithm : c.algorithm ∈ CandidateAlgorithm.all := by cases c.algorithm <;> decide
  unfold read?
  rw [Cells.ticks?_eq (t := c.timeStart) rfl, Cells.ticks?_eq (t := c.timeEnd) rfl,
    Cells.ticks?_eq (t := c.timeCandidate) rfl, Cells.below?_eq rfl c.detid.toNat_lt,
    Cells.named?_eq rfl hkind (by decide), Cells.named?_eq rfl halgorithm (by decide),
    Cells.count?_eq rfl, Cells.regions?_eq rfl]
  simp

/-- How candidates are laid out. -/
def layout : Layout ListedCandidate where
  columns := columns
  fields := fields
  read? := read?
  columns_ne_nil := List.cons_ne_nil _ _
  isField_columns := by decide
  isField_fields := isField_of_mem_fields
  length_fields _ := rfl
  read?_fields := read?_fields

end ListedCandidate

theorem candidateTable_eq (candidates : List Candidate) :
    candidateTable candidates = ListedCandidate.layout.text (candidates.map Candidate.listed) := by
  rw [Layout.text, List.map_map]
  rfl

/-! ## Both tables -/

/-- The text of a table of results is cut into a header and one row for each record, as wide as the
    header, and what is listed of the records is read from the rows, so the same text is written
    for the same listed values only. The regions that are listed of a candidate are those it has,
    which ascend for the candidates of every maker. -/
theorem result_tables_are_lossless :
    (∀ activities : List Activity, IsTable ListedActivity.columns ListedActivity.read?
      (activities.map Activity.listed) (activityTable activities)) ∧
    (∀ candidates : List Candidate, IsTable ListedCandidate.columns ListedCandidate.read?
      (candidates.map Candidate.listed) (candidateTable candidates)) ∧
    (∀ as bs : List Activity,
      activityTable as = activityTable bs ↔ as.map Activity.listed = bs.map Activity.listed) ∧
    (∀ cs ds : List Candidate,
      candidateTable cs = candidateTable ds ↔ cs.map Candidate.listed = ds.map Candidate.listed) ∧
    ∀ (m : CandidateMaker) (calls : List (Call Activity))
      (steps : List (Step CandidateMaker Candidate)), Maker.run m calls = .ok steps →
      ∀ c ∈ Maker.outputs steps, c.listed.regions.Pairwise (· < ·) := by
  refine ⟨fun activities => ?_, fun candidates => ?_, fun as bs => ?_, fun cs ds => ?_, ?_⟩
  · rw [activityTable_eq]
    exact ListedActivity.layout.isTable _
  · rw [candidateTable_eq]
    exact ListedCandidate.layout.isTable _
  · rw [activityTable_eq, activityTable_eq]
    exact ListedActivity.layout.text_inj
  · rw [candidateTable_eq, candidateTable_eq]
    exact ListedCandidate.layout.text_inj
  · intro m calls steps hrun c hc
    exact (CandidateMaker.listsRegions_of_run hrun c hc).ascending

/-- Two regions stand in one field, and where there is none the field is empty. -/
example : candidateTable [{ timeStart := -10, regions := [2, 4] }, { detid := 3 }] =
    "time_start,time_end,time_candidate,detid,type,algorithm,n_activities,regions\n" ++
      "-10,0,0,0,Unknown,unknown,0,2;4\n" ++ "0,0,0,3,Unknown,unknown,0,\n" := by
  decide +kernel

end TriggerChain
