import TriggerChain.Proofs.Command.Steps

/-!
# Tables of partitions

Processing runs a chain over each file and writes its tables under the stem of the path. Nothing is
in the way of two partitions with the same stem: then the later one writes over the earlier one, and
nobody is told. The tables of a partition stay if no later one has its stem.

Main statements: `process_keeps_last_of_each_stem`, and `namesake_overwrites_results`.
-/

namespace TriggerChain.Command

variable {readers : Readers} {verbosity : Nat} {job : Job} {setup : ChainSetup} {d d' : Desk}

/-! ## Before the tables -/

theorem desk_of_loadSetup (h : Does (loadSetup readers job) d setup d') : d = d' := by
  unfold loadSetup at h
  split at h
  · exact (does_pure_iff.1 h).2
  · next path _ =>
    obtain ⟨bytes?, d₁, hread, h⟩ := does_bind_iff.1 h
    obtain ⟨-, rfl⟩ := Prod.mk.inj (does_host_iff.1 hread)
    split at h
    · exact absurd h not_does_throw
    · obtain ⟨read, d₂, hsetup, h⟩ := does_bind_iff.1 h
      exact (does_checked_iff.1 hsetup).2.trans (does_pure_iff.1 h).2

theorem run_makeFolder (path : String) (d : Desk) :
    (makeFolder path : Action (StateM Desk) Unit).run d =
      match d.makeFolder path with
      | some next => (.ok (), next)
      | none => (.error .noFolder, d) := by
  have hmake : (Host.makeFolder path : StateM Desk Bool) d = d.settle (d.makeFolder path) := rfl
  unfold makeFolder
  rw [run_bind, run_host, hmake]
  cases d.makeFolder path with
  | none => rfl
  | some next => rfl

theorem does_makeFolder_iff {path : String} :
    Does (makeFolder path) d () d' ↔ d.makeFolder path = some d' := by
  unfold Does
  rw [run_makeFolder]
  cases d.makeFolder path with
  | none =>
    constructor
    · intro h
      cases congrArg Prod.fst h
    · intro h
      cases h
  | some next =>
    constructor
    · intro h
      exact congrArg some (Prod.mk.inj h).2
    · intro h
      rw [Option.some.inj h]

/-- A folder that is not made leaves the desk as it is. -/
theorem desk_of_fails_makeFolder {path : String} {failure : Failure}
    (h : Fails (makeFolder path) d failure d') : d = d' := by
  unfold Fails at h
  rw [run_makeFolder] at h
  cases hmade : d.makeFolder path with
  | none =>
    rw [hmade] at h
    exact (Prod.mk.inj h).2
  | some next =>
    rw [hmade] at h
    cases congrArg Prod.fst h

theorem made_of_makeFolder {path : String} (h : Does (makeFolder path) d () d') :
    d.MadeFolders d' := Desk.made_of_makeFolder (does_makeFolder_iff.1 h)

theorem made_of_makeFolder_forM {folder? : Option String}
    (h : Does (folder?.forM makeFolder) d () d') : d.MadeFolders d' := by
  rw [does_forM_iff] at h
  split at h
  · rw [h]
    exact ⟨rfl, rfl⟩
  · exact made_of_makeFolder h

/-! ## Reading -/

/-- The primitives of a file, in the order of their start times. -/
def partitionOf (d : Desk) (path : String) : Except Failure (List Primitive) :=
  match d.contents? path with
  | none => .error (.input path .missing)
  | some bytes => orderedPrimitives path bytes

theorem partitionOf_congr (h : Quiet d d') (path : String) :
    partitionOf d' path = partitionOf d path := by
  unfold partitionOf
  rw [Desk.contents?_congr h.toSameFolders h.files]

/-- Reading a file leaves the desk as it is. -/
theorem run_read (path : String) (d : Desk) :
    (do
      let bytes ← readBytes path
      orderedPrimitives path bytes : Action (StateM Desk) (List Primitive)).run d =
      (partitionOf d path, d) := by
  have hread : (Host.readFile path : StateM Desk (Option (List UInt8))) d =
      (d.contents? path, d) := rfl
  unfold partitionOf
  rw [run_bind, readBytes, run_bind, run_host, hread]
  cases d.contents? path with
  | none => rfl
  | some bytes => rfl

theorem partitionOf_of_read {path : String} {primitives : List Primitive}
    (h : Does (do
      let bytes ← readBytes path
      orderedPrimitives path bytes : Action (StateM Desk) (List Primitive)) d primitives d') :
    d = d' ∧ partitionOf d path = .ok primitives := by
  unfold Does at h
  rw [run_read] at h
  exact (Prod.mk.inj h).symm

/-- Every input is read on the same desk. -/
theorem partitions_of_read {inputs : List String} {partitions : List (List Primitive)}
    (h : Does (inputs.mapM fun path => do
      let bytes ← readBytes path
      orderedPrimitives path bytes : Action (StateM Desk) (List (List Primitive))) d partitions d') :
    d = d' ∧ ∀ (i : Nat) path, inputs[i]? = some path →
      ∃ primitives, partitions[i]? = some primitives ∧ partitionOf d path = .ok primitives := by
  apply rounds_of_mapM (I := fun d' => d = d')
    (R := fun path primitives => partitionOf d path = .ok primitives) _ rfl h
  rintro path - primitives d₁ d₂ rfl hread
  exact partitionOf_of_read hread

/-! ## Rounds -/

/-- Every partition is run by makers of its own, and keeps its tables of events if no later one has
    its stem. -/
theorem results_of_runs {partitions : List (List Primitive)}
    {results : List (Except Fault RecordedChain)}
    (h : Does ((job.stems.zip partitions).mapM fun (stem, primitives) =>
      runPartition verbosity job setup stem primitives) d results d') :
    d.SameFolders d' ∧ ∀ (i : Nat) stem primitives, job.stems[i]? = some stem →
      partitions[i]? = some primitives → ∃ result, results[i]? = some result ∧
      (∃ built, buildMakers d.machine.memory setup = .ok built ∧
        result = (recordedRun job built primitives).mapError Prod.fst) ∧
      ((∀ k, i < k → job.stems[k]? ≠ some stem) → ∀ folder c,
        job.debugFolder = some folder → result = .ok c → Written folder (debugFiles stem c) d') := by
  have hstems : ∀ x ∈ job.stems.zip partitions, '/' ∉ x.1.toList := fun x hx =>
    Job.notMem_of_mem_stems (List.of_mem_zip hx).1
  -- All rounds are on one machine, so they build the same makers.
  have hrounds := (rounds_of_mapM (I := fun e => e.machine = d.machine)
    (R := fun x result => ∃ built, buildMakers d.machine.memory setup = .ok built ∧
      result = (recordedRun job built x.2).mapError Prod.fst)
    (by
      intro x hx result d₁ d₂ hmachine hrun
      obtain ⟨hmade, htouches, -⟩ := wrote_of_runPartition (hstems x hx) hrun
      exact ⟨htouches.machine.trans hmachine, hmachine ▸ hmade⟩) rfl h).2
  obtain ⟨htouches, hkept⟩ := kept_of_mapM (N := fun x => eventNames x.1)
    (K := fun x result d => ∀ folder c, job.debugFolder = some folder → result = .ok c →
      Written folder (debugFiles x.1 c) d)
    (by
      intro x hx result others d₁ d₂ htouches hothers hwritten folder c hfolder hok
      refine (hwritten folder c hfolder hok).of_touches htouches
        (isTableName_of_debugFiles (hstems x hx) c) ?_
      intro name hname
      exact hothers name ((namesOf_debugFiles_sublist x.1 c).subset hname))
    (fun x hx _ _ _ hrun => (wrote_of_runPartition (hstems x hx) hrun).2) h
  refine ⟨htouches.toSameFolders, fun i stem primitives hstem hprimitives => ?_⟩
  have hx : (job.stems.zip partitions)[i]? = some (stem, primitives) :=
    List.getElem?_zip_eq_some.2 ⟨hstem, hprimitives⟩
  obtain ⟨result, hresult, hrun⟩ := hrounds i _ hx
  refine ⟨result, hresult, hrun, fun hlater => hkept i _ result hx hresult ?_⟩
  intro k x' hik hx' name hname
  have hne : stem ≠ x'.1 := fun hsame =>
    hlater k hik (hsame ▸ (List.getElem?_zip_eq_some.1 hx').1)
  exact (notMem_of_stem_ne hne).2 hname

/-- No partition has been stopped by a fault. -/
theorem chains_of_results {results : List (Except Fault RecordedChain)} {chains : List RecordedChain}
    (h : Does (results.mapM fun result =>
      (liftM (result.mapError Failure.stopped) : Action (StateM Desk) RecordedChain)) d chains d') :
    d = d' ∧ ∀ (i : Nat) result, results[i]? = some result →
      ∃ c, chains[i]? = some c ∧ result = .ok c := by
  apply rounds_of_mapM (I := fun d' => d = d') (R := fun result c => result = .ok c) _ rfl h
  rintro result - c d₁ d₂ rfl hchecked
  obtain ⟨hok, rfl⟩ := does_checked_iff.1 hchecked
  exact ⟨rfl, Checked.mapError_eq_ok_iff.1 hok⟩

/-- A partition keeps its tables of results if no later one has its stem. -/
theorem wrote_of_finish {chains : List RecordedChain}
    (h : Does ((job.inputs.zip (job.stems.zip chains)).forM fun (path, stem, c) =>
      finishPartition job setup path stem c) d () d') :
    (∃ stems : List String, Touches (stems.flatMap resultNames) d d') ∧ ∀ (i : Nat) path stem c,
      job.inputs[i]? = some path → job.stems[i]? = some stem → chains[i]? = some c →
      (∀ k, i < k → job.stems[k]? ≠ some stem) → Written job.output (resultFiles stem c) d' := by
  have hstems : ∀ x ∈ job.inputs.zip (job.stems.zip chains), '/' ∉ x.2.1.toList := fun x hx =>
    Job.notMem_of_mem_stems (List.of_mem_zip (List.of_mem_zip hx).2).1
  obtain ⟨htouches, hkept⟩ := kept_of_mapM (N := fun x => resultNames x.2.1)
    (K := fun x _ d => Written job.output (resultFiles x.2.1 x.2.2) d)
    (by
      intro x hx _ others d₁ d₂ htouches hothers hwritten
      exact hwritten.of_touches htouches (isTableName_of_resultFiles (hstems x hx) x.2.2) hothers)
    (fun x hx _ _ _ hfinish => wrote_of_finishPartition (hstems x hx) hfinish)
    (does_mapM_of_forM h)
  refine ⟨⟨(job.inputs.zip (job.stems.zip chains)).map fun x => x.2.1, ?_⟩, ?_⟩
  · rw [List.flatMap_map]
    exact htouches
  · intro i path stem c hpath hstem hc hlater
    have hx : (job.inputs.zip (job.stems.zip chains))[i]? = some (path, stem, c) :=
      List.getElem?_zip_eq_some.2 ⟨hpath, List.getElem?_zip_eq_some.2 ⟨hstem, hc⟩⟩
    refine hkept i (path, stem, c) () hx ?_ ?_
    · rw [List.getElem?_map, hx]
      rfl
    · intro k x' hik hx' name hname
      have hne : stem ≠ x'.2.1 := fun hsame => hlater k hik
        (hsame ▸ (List.getElem?_zip_eq_some.1 (List.getElem?_zip_eq_some.1 hx').2).1)
      exact (notMem_of_stem_ne hne).1 hname

/-! ## The whole job -/

/-- What the stages of a job leave of its inputs, one stage after the other. -/
theorem stages_of_process (h : Does (process readers verbosity job) d () d') :
    ∃ setup built, Does (loadSetup readers job) d setup d ∧
      buildMakers d.machine.memory setup = .ok built ∧ ∀ (i : Nat) path, job.inputs[i]? = some path → ∃ primitives recorded,
        partitionOf { d with folders := d'.folders } path = .ok primitives ∧
        recordedRun job built primitives = .ok recorded ∧
        ((∀ k, i < k → job.stems[k]? ≠ some (stemOf path i)) →
          Written job.output (resultFiles (stemOf path i) recorded) d') ∧
        ((∀ k, i < k → job.stems[k]? ≠ some (stemOf path i)) →
          ∀ folder, job.debugFolder = some folder →
            Written folder (debugFiles (stemOf path i) recorded) d') := by
  obtain ⟨setup, d₁, hload, h⟩ := does_bind_iff.1 h
  obtain rfl := desk_of_loadSetup hload
  obtain ⟨built, d₁, hmakers, h⟩ := does_bind_iff.1 h
  obtain ⟨hbuilt, rfl⟩ := does_setUp_iff.1 hmakers
  obtain ⟨_, d₁, hlog, h⟩ := does_bind_iff.1 h
  obtain ⟨_, d₂, houtput, h⟩ := does_bind_iff.1 h
  obtain ⟨_, d₃, hdebug, h⟩ := does_bind_iff.1 h
  have hlogs := quiet_of_logNotices hlog
  have hmade : d.MadeFolders d₃ := Desk.MadeFolders.trans ⟨hlogs.machine, hlogs.files⟩
    ((made_of_makeFolder houtput).trans (made_of_makeFolder_forM hdebug))
  obtain ⟨partitions, d₄, hread, h⟩ := does_bind_iff.1 h
  obtain ⟨rfl, hpartitions⟩ := partitions_of_read hread
  obtain ⟨results, d₄, hrun, h⟩ := does_bind_iff.1 h
  obtain ⟨hruns, hresults⟩ := results_of_runs hrun
  obtain ⟨chains, d₅, hchecked, h⟩ := does_bind_iff.1 h
  obtain ⟨rfl, hchains⟩ := chains_of_results hchecked
  obtain ⟨_, d₅, hfinish, h⟩ := does_bind_iff.1 h
  obtain ⟨⟨stems, htouches⟩, hfinished⟩ := wrote_of_finish hfinish
  obtain ⟨_, d₆, hdisplay, hshow⟩ := does_bind_iff.1 h
  have hquiet : Quiet d₅ d' := by
    obtain ⟨-, rfl⟩ := Prod.mk.inj (does_host_iff.1 hdisplay)
    have hlines := quiet_of_showLines hshow
    exact ⟨⟨hlines.machine, hlines.folders⟩, hlines.files⟩
  refine ⟨setup, built, hload, hbuilt, fun i path hpath => ?_⟩
  have hstem : job.stems[i]? = some (stemOf path i) := by
    rw [job.stems_getElem?, hpath]
    rfl
  obtain ⟨primitives, hprimitives, hpartition⟩ := hpartitions i path hpath
  obtain ⟨result, hresult, ⟨built', hbuilt', rfl⟩, hevents⟩ :=
    hresults i _ primitives hstem hprimitives
  rw [hmade.machine, hbuilt] at hbuilt'
  obtain rfl := Except.ok.inj hbuilt'
  obtain ⟨recorded, hrecorded, hok⟩ := hchains i _ hresult
  refine ⟨primitives, recorded, ?_, Checked.mapError_eq_ok_iff.1 hok, ?_, ?_⟩
  · -- The folders of the desk behind the job are those on which the inputs were read.
    have hfolders : d'.folders = d₃.folders :=
      hquiet.folders.trans (htouches.folders.trans hruns.folders)
    have hsame : Quiet d₃ { d with folders := d'.folders } :=
      ⟨⟨hmade.machine.symm, hfolders⟩, hmade.files.symm⟩
    exact (partitionOf_congr hsame path).trans hpartition
  · intro hlater
    exact (hfinished i path _ recorded hpath hstem hrecorded hlater).of_touches hquiet.touches
      (isTableName_of_resultFiles (notMem_stemOf path i) recorded) fun _ _ => List.not_mem_nil
  · intro hlater folder hfolder
    -- The results that are written afterwards have other names.
    refine (hevents hlater folder recorded hfolder hok).of_touches (htouches.trans hquiet.touches)
      (isTableName_of_debugFiles (notMem_stemOf path i) recorded) ?_
    intro name hname hmem
    rw [List.append_nil] at hmem
    obtain ⟨stem, -, hname'⟩ := List.mem_flatMap.1 hmem
    exact eventName_notMem_resultNames
      ((namesOf_debugFiles_sublist _ recorded).subset hname) hname'

/-- What a job leaves of one of its inputs, where `d` is the desk before it and `d'` the desk
    behind it. -/
structure PartitionKept (job : Job) (built : ChainSetup.Built) (d d' : Desk) (i : Nat) (path : String)
    (primitives : List Primitive) (c : Chain ActivityMaker CandidateMaker) : Prop where
  /-- The input was read when the folders had been made, and before any table was written. -/
  read : partitionOf { d with folders := d'.folders } path = .ok primitives
  /-- The chain goes through it. -/
  ran : built.run primitives = .ok c
  /-- The tables of results are those of the chain, if no later input has the same stem. -/
  results : (∀ k, i < k → job.stems[k]? ≠ some (stemOf path i)) →
    Written job.output (resultTables (stemOf path i) c.activities.toList c.candidates.toList) d'
  /-- The six tables of events are those of the chain, if no other input has the same stem. -/
  events : (∀ k, k ≠ i → job.stems[k]? ≠ some (stemOf path i)) →
    ∀ folder, job.debugFolder = some folder → ∃ recorded,
      recordedRun job built primitives = .ok recorded ∧ recorded.outcome = c.outcome ∧
        namesOf (debugFiles (stemOf path i) recorded) = eventNames (stemOf path i) ∧
        Written folder (debugFiles (stemOf path i) recorded) d'

/-- Every input is read and goes through the chain, and of the inputs with one stem the last one
    leaves its tables. So no table is lost if the stems differ. -/
theorem process_keeps_last_of_each_stem (readers : Readers) (verbosity : Nat) (job : Job)
    (d d' : Desk)
    (h : (process readers verbosity job : Action (StateM Desk) Unit).run d = (.ok (), d')) :
    ∃ setup built,
      (loadSetup readers job : Action (StateM Desk) ChainSetup).run d = (.ok setup, d) ∧
      buildMakers d.machine.memory setup = .ok built ∧
      ∀ (i : Nat) path, job.inputs[i]? = some path →
        ∃ primitives c, PartitionKept job built d d' i path primitives c := by
  obtain ⟨setup, built, hload, hbuilt, hinputs⟩ := stages_of_process h
  refine ⟨setup, built, hload, hbuilt, fun i path hpath => ?_⟩
  obtain ⟨primitives, recorded, hread, hrecorded, hresults, hevents⟩ := hinputs i path hpath
  obtain ⟨c, hran, houtcome⟩ := Chain.outcome_of_recorded hrecorded
  refine ⟨primitives, c, hread, hran, ?_, ?_⟩
  · intro hlater
    have hwritten := hresults hlater
    rwa [resultFiles_eq, houtcome] at hwritten
  · intro hothers folder hfolder
    refine ⟨recorded, hrecorded, houtcome, ?_, ?_⟩
    · apply namesOf_debugFiles
      apply Chain.tables_of_recorded hrecorded
      · exact ⟨{}, by rw [hfolder]; rfl⟩
      · exact ⟨{}, by rw [hfolder]; rfl⟩
    · exact hevents (fun k hik => hothers k (Nat.ne_of_gt hik)) folder hfolder

/-! ## Namesakes -/

theorem run_of_isOk {x : Action (StateM Desk) Unit} (h : (x.run d).1.isOk = true) :
    x.run d = (.ok (), (x.run d).2) := by
  have hok : (x.run d).1 = .ok () := by
    cases hx : (x.run d).1 with
    | ok a => rfl
    | error failure =>
      rw [hx] at h
      cases h
  exact congrArg (fun result => (result, (x.run d).2)) hok

/-- Two files with one name in two folders, and a third one. -/
def namesakes : Desk where
  files :=
    [("b.txt", "9 3 9 3 300 8 0 0\n".toUTF8.toList), ("x/a.txt", "0 3 0 1 100 7 0 0\n".toUTF8.toList),
      ("y/a.txt", "5 3 5 2 200 9 0 0\n".toUTF8.toList)]
  folders := ["x", "y"]

/-- A job over the two namesakes, in which every hit becomes an activity. -/
def overNamesakes : Job where
  inputs := ["x/a.txt", "y/a.txt"]
  output := "o"
  activityMaker := some "prescale"

/-- A job over all three files that also has a folder for events. -/
def overAllFiles : Job :=
  { overNamesakes with inputs := ["x/a.txt", "b.txt", "y/a.txt"], debugFolder := some "o/debug" }

/-- The third file and the last one of the two namesakes leave their tables. -/
theorem two_of_three_keep_their_tables :
    ∃ d', (process {} 0 overAllFiles : Action (StateM Desk) Unit).run namesakes = (.ok (), d') ∧
      ∃ setup built,
        (loadSetup {} overAllFiles : Action (StateM Desk) ChainSetup).run namesakes =
          (.ok setup, namesakes) ∧
        buildMakers namesakes.machine.memory setup = .ok built ∧
        ∀ (i : Nat) path, overAllFiles.inputs[i]? = some path →
          ∃ primitives c, PartitionKept overAllFiles built namesakes d' i path primitives c :=
  have hdone := run_of_isOk (by decide +kernel)
  ⟨_, hdone, process_keeps_last_of_each_stem {} 0 overAllFiles namesakes _ hdone⟩

/-- The table of the activities of a file, when nobody records them. -/
def activitiesOf (setup : ChainSetup) (d : Desk) (path : String) : Except Failure String := do
  let built ← buildMakers d.machine.memory setup
  let primitives ← partitionOf d path
  let c ← (built.run primitives).mapError fun stop => Failure.stopped stop.1
  return activityTable c.activities.toList

/-- The job over the two namesakes is done, and no file holds the activities of the first one. -/
theorem namesake_overwrites_results :
    overNamesakes.inputs.Nodup ∧ ∃ d' table,
      (process {} 0 overNamesakes : Action (StateM Desk) Unit).run namesakes = (.ok (), d') ∧
      (activitiesOf (overNamesakes.override {}) { namesakes with folders := d'.folders }
        "x/a.txt").toOption = some table ∧
      ∀ file ∈ d'.files, file.2 ≠ table.toUTF8.toList := by
  refine ⟨by decide, _, activityHeader ++ "0,3,0,0,1,1,1,100,7,0,prescale,1\n",
    run_of_isOk ?_, ?_, ?_⟩
  · decide +kernel
  · decide +kernel
  · decide +kernel

end TriggerChain.Command
