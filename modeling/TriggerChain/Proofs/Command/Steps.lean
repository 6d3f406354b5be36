import TriggerChain.Proofs.Chain.Recording
import TriggerChain.Proofs.Command.Names
import TriggerChain.Proofs.Command.Tables

/-!
# The steps of a partition

A partition is run and then finished. Running it writes the tables of its events, if there is a
folder for them, and finishing it those of its results. All of them have names with the stem of the
partition, and no other files are touched.

Main statements: `wrote_of_runPartition` and `wrote_of_finishPartition`.
-/

namespace TriggerChain.Command

variable {verbosity : Nat} {job : Job} {setup : ChainSetup} {stem : String} {d d' : Desk}

/-! ## The tables of a chain -/

/-- The tables of results of a partition, with the names of their files. -/
def resultTables (stem : String) (activities : List Activity) (candidates : List Candidate) :
    List (String × String) :=
  [(stem ++ "_activities.csv", activityTable activities),
    (stem ++ "_candidates.csv", candidateTable candidates)]

theorem resultFiles_eq (stem : String) (c : RecordedChain) :
    resultFiles stem c = resultTables stem c.outcome.activities c.outcome.candidates := rfl

theorem namesOf_eventFiles_sublist (base : String) (sink : Option Sink) :
    (namesOf (eventFiles base sink)).Sublist
      [base ++ "_windows.csv", base ++ "_tracks.csv", base ++ "_primitives.csv"] := by
  unfold eventFiles
  split
  · exact List.Sublist.refl _
  · exact List.nil_sublist _

theorem eventNames_eq (stem : String) :
    eventNames stem =
      [activityBase stem ++ "_windows.csv", activityBase stem ++ "_tracks.csv",
        activityBase stem ++ "_primitives.csv"] ++
      [candidateBase stem ++ "_windows.csv", candidateBase stem ++ "_tracks.csv",
        candidateBase stem ++ "_primitives.csv"] := by
  simp only [activityBase, candidateBase, String.append_assoc]
  rfl

theorem namesOf_debugFiles_sublist (stem : String) (c : RecordedChain) :
    (namesOf (debugFiles stem c)).Sublist (eventNames stem) := by
  rw [eventNames_eq]
  unfold debugFiles namesOf
  rw [List.map_append]
  exact (namesOf_eventFiles_sublist _ _).append (namesOf_eventFiles_sublist _ _)

/-- A chain whose makers both have tables leaves all six tables of events. -/
theorem namesOf_debugFiles (stem : String) {c : RecordedChain}
    (h : c.activityMaker.HasTables ∧ c.candidateMaker.HasTables) :
    namesOf (debugFiles stem c) = eventNames stem := by
  obtain ⟨⟨t, ht⟩, t', ht'⟩ := h
  rw [eventNames_eq]
  unfold debugFiles namesOf
  rw [List.map_append, ht, ht']
  rfl

theorem isTableName_of_debugFiles (hstem : '/' ∉ stem.toList) (c : RecordedChain) :
    ∀ table ∈ debugFiles stem c, IsTableName table.1.toList := by
  intro table htable
  apply isTableName_of_eventName hstem
  exact (namesOf_debugFiles_sublist stem c).subset (mem_namesOf htable)

theorem isTableName_of_resultFiles (hstem : '/' ∉ stem.toList) (c : RecordedChain) :
    ∀ table ∈ resultFiles stem c, IsTableName table.1.toList := by
  intro table htable
  exact isTableName_of_resultName hstem (mem_namesOf htable)

/-! ## Steps that touch no file -/

theorem quiet_of_showLines {lines : List String} (h : Does (showLines lines) d () d') :
    Quiet d d' := by
  refine quiet_of_forM (fun line d₁ d₂ hline => ?_) h
  obtain ⟨-, rfl⟩ := Prod.mk.inj (does_host_iff.1 hline)
  exact ⟨⟨rfl, rfl⟩, rfl⟩

theorem quiet_of_logNotices {notices : List Notice}
    (h : Does (logNotices verbosity notices) d () d') : Quiet d d' := by
  refine quiet_of_forM (fun notice d₁ d₂ hnotice => ?_) h
  obtain ⟨-, rfl⟩ := Prod.mk.inj (does_host_iff.1 hnotice)
  exact ⟨⟨rfl, rfl⟩, rfl⟩

/-- Building the makers leaves the desk as it is. -/
theorem run_setUp (setup : ChainSetup) (d : Desk) :
    (setUp setup : Action (StateM Desk) ChainSetup.Built).run d =
      (buildMakers d.machine.memory setup, d) := rfl

theorem does_setUp_iff {built : ChainSetup.Built} :
    Does (setUp setup) d built d' ↔ buildMakers d.machine.memory setup = .ok built ∧ d = d' := by
  unfold Does
  rw [run_setUp, Prod.mk.injEq]

/-! ## One partition -/

/-- Tables of events that are written are there, and no other files are touched. -/
theorem wrote_of_eventTables {folder : String} {tables : List (String × String)}
    (hstem : '/' ∉ stem.toList) (hnames : (namesOf tables).Sublist (eventNames stem))
    (h : Does (writeTables folder tables) d () d') :
    Touches (eventNames stem) d d' ∧ Written folder tables d' := by
  have htables : ∀ table ∈ tables, IsTableName table.1.toList := fun table htable =>
    isTableName_of_eventName hstem (hnames.subset (mem_namesOf htable))
  obtain ⟨htouches, hwritten⟩ := wrote_of_writeTables htables
    ((nodup_eventNames stem).sublist hnames) h
  exact ⟨htouches.mono hnames.subset, hwritten⟩

theorem touches_of_openTables {folder : String} {tables : List (String × String)}
    (hstem : '/' ∉ stem.toList) (hnames : (namesOf tables).Sublist (eventNames stem))
    (h : Does (openTables folder tables) d () d') : Touches (eventNames stem) d d' := by
  refine (wrote_of_eventTables hstem ?_ h).1
  unfold namesOf at hnames ⊢
  rw [List.map_map]
  exact hnames

theorem touches_of_openEvents {folder : String} (hstem : '/' ∉ stem.toList)
    (h : Does (openEvents folder stem) d () d') : Touches (eventNames stem) d d' := by
  have hactivity : (namesOf (eventFiles (activityBase stem) (some (.tables {})))).Sublist
      (eventNames stem) := by
    rw [eventNames_eq]
    exact List.sublist_append_left _ _
  have hcandidate : (namesOf (eventFiles (candidateBase stem) (some (.tables {})))).Sublist
      (eventNames stem) := by
    rw [eventNames_eq]
    exact List.sublist_append_right _ _
  obtain ⟨_, d₁, hopen, h⟩ := does_bind_iff.1 h
  refine (touches_of_openTables hstem hactivity hopen).again ?_
  rcases does_tryCatch h with h | ⟨failure, d₂, h⟩
  · exact touches_of_openTables hstem hcandidate h
  · -- The failure is passed on.
    obtain ⟨_, d₃, -, h⟩ := does_bind_iff.1 h
    exact absurd h not_does_throw

/-- The chain of a job over some primitives, with tables for its events if there is a folder for
    them. -/
def recordedRun (job : Job) (built : ChainSetup.Built) (primitives : List Primitive) :
    ChainRun (Recorded ActivityMaker) (Recorded CandidateMaker) RecordedChain :=
  let sink := job.debugFolder.map fun _ => Sink.tables {}
  Chain.run { maker := built.activityMaker, sink } { maker := built.candidateMaker, sink } primitives

/-- A step that is taken if there is a folder for events. -/
theorem does_forM_iff {folder? : Option String} {f : String → Action (StateM Desk) Unit} :
    Does (folder?.forM f) d () d' ↔
      match folder? with
      | none => d = d'
      | some folder => Does (f folder) d () d' := by
  cases folder? with
  | none => exact does_pure_iff.trans (and_iff_right rfl)
  | some folder => exact Iff.rfl

/-- What is left when the chain has run over a partition. -/
theorem wrote_of_runPartition {primitives : List Primitive} {result : Except Fault RecordedChain}
    (hstem : '/' ∉ stem.toList)
    (h : Does (runPartition verbosity job setup stem primitives) d result d') :
    (∃ built, buildMakers d.machine.memory setup = .ok built ∧
      result = (recordedRun job built primitives).mapError Prod.fst) ∧
    Touches (eventNames stem) d d' ∧ ∀ folder c, job.debugFolder = some folder →
      result = .ok c → Written folder (debugFiles stem c) d' := by
  obtain ⟨built, d₁, hmakers, h⟩ := does_bind_iff.1 h
  obtain ⟨hbuilt, rfl⟩ := does_setUp_iff.1 hmakers
  obtain ⟨_, d₁, hlog, h⟩ := does_bind_iff.1 h
  obtain ⟨_, d₂, hopen, h⟩ := does_bind_iff.1 h
  obtain ⟨_, d₃, hlog', h⟩ := does_bind_iff.1 h
  obtain ⟨_, d₄, hwrite, h⟩ := does_bind_iff.1 h
  obtain ⟨rfl, rfl⟩ := does_pure_iff.1 h
  have hlogs := (quiet_of_logNotices hlog).touches.mono (List.nil_subset (eventNames stem))
  have hlogs' := (quiet_of_logNotices hlog').touches.mono (List.nil_subset (eventNames stem))
  rw [does_forM_iff] at hopen hwrite
  refine ⟨⟨built, hbuilt, rfl⟩, ?_⟩
  cases hfolder : job.debugFolder with
  | none =>
    rw [hfolder] at hopen hwrite
    dsimp only at hopen hwrite
    subst hopen hwrite
    exact ⟨hlogs.again hlogs', fun folder c hsome => by cases hsome⟩
  | some folder =>
    rw [hfolder] at hopen hwrite
    obtain ⟨htouches, hwritten⟩ :=
      wrote_of_eventTables hstem (namesOf_debugFiles_sublist stem _) hwrite
    refine ⟨((hlogs.again (touches_of_openEvents hstem hopen)).again hlogs').again htouches, ?_⟩
    intro folder' c hsome hok
    obtain rfl := Option.some.inj hsome
    -- The tables are those of the chain that went through.
    rw [Checked.mapError_eq_ok_iff.1 hok] at hwritten
    exact hwritten

/-- What is left when the results of a partition have been written. -/
theorem wrote_of_finishPartition {path : String} {c : RecordedChain} (hstem : '/' ∉ stem.toList)
    (h : Does (finishPartition job setup path stem c) d () d') :
    Touches (resultNames stem) d d' ∧ Written job.output (resultFiles stem c) d' := by
  have htables := isTableName_of_resultFiles hstem c
  obtain ⟨_, d₁, hwrite, hshow⟩ := does_bind_iff.1 h
  obtain ⟨htouches, hwritten⟩ := wrote_of_writeTables htables (nodup_resultNames stem) hwrite
  have hlines := (quiet_of_showLines hshow).touches
  refine ⟨htouches.again (hlines.mono (List.nil_subset _)), ?_⟩
  exact hwritten.of_touches hlines htables fun _ _ => List.not_mem_nil

end TriggerChain.Command
