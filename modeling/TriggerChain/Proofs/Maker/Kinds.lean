import TriggerChain.Chain.Setup
import TriggerChain.Proofs.Maker.Calls

/-!
# Makers of a kind

What a kind makes of settings, and that nothing else is ever built: where the makers of a chain
are built from their JSON objects, each of them is what its kind makes of settings in range. Later
proofs take such a maker apart by the type that it belongs to.

Main statement: `ChainSetup.makers_of_build`.
-/

namespace TriggerChain

/-! ## Makers of one level seen as one type -/

theorem ActivityMaker.embeds_geometry : Embeds ActivityMaker.geometry :=
  ⟨fun _ _ => rfl, fun _ => rfl⟩

theorem ActivityMaker.embeds_shape : Embeds ActivityMaker.shape :=
  ⟨fun _ _ => rfl, fun _ => rfl⟩

theorem ActivityMaker.embeds_prescale : Embeds ActivityMaker.prescale :=
  ⟨fun _ _ => rfl, fun _ => rfl⟩

theorem CandidateMaker.embeds_grouping : Embeds CandidateMaker.grouping :=
  ⟨fun _ _ => rfl, fun _ => rfl⟩

theorem CandidateMaker.embeds_prescale : Embeds CandidateMaker.prescale :=
  ⟨fun _ _ => rfl, fun _ => rfl⟩

theorem CandidateMaker.embeds_bundle : Embeds CandidateMaker.bundle :=
  ⟨fun _ _ => rfl, fun _ => rfl⟩

theorem CandidateMaker.embeds_burst : Embeds CandidateMaker.burst :=
  ⟨fun _ _ => rfl, fun _ => rfl⟩

/-! ## What a kind makes of settings -/

/-- The activity maker of a kind with some settings. -/
def ActivityMakerKind.made (s : Settings) : ActivityMakerKind → ActivityMaker
  | adcSimpleWindow => .geometry { policy := .charge s }
  | horizontalMuon => .geometry { policy := .horizontal s }
  | michelElectron => .shape { policy := { settings := s } }
  | prescale => .prescale { prescale := s.prescale }

/-- The candidate maker of a kind with some settings. -/
def CandidateMakerKind.made (s : Settings) : CandidateMakerKind → CandidateMaker
  | bundle => .bundle { bundleSize := max s.bundleSize 1, prescale := max s.prescale 1 }
  | horizontalMuon => .grouping { policy := { settings := s } }
  | prescale => .prescale { prescale := s.prescale }
  | supernova =>
    .burst { window := s.windowLength, activityThreshold := s.activityThreshold,
             hitThreshold := s.hitThreshold }

/-- A maker that has processed nothing takes settings only if they are in range. -/
theorem Settings.of_accept {ρ σ : Type} {s : Settings} {maker : String} {made : ρ} {seen : ρ → σ}
    {outcome : σ}
    (h : Except.map seen (do s.acceptFor maker {}; return made) = .ok outcome) :
    s.validate = .ok () ∧ seen made = outcome := by
  have haccept : s.acceptFor maker {} = s.validate := rfl
  rw [haccept] at h
  cases hvalid : s.validate with
  | error e =>
    rw [hvalid] at h
    cases h
  | ok u =>
    rw [hvalid] at h
    exact ⟨rfl, Except.ok.inj h⟩

theorem ActivityMakerKind.made_of_configure {kind : ActivityMakerKind} {s : Settings}
    {maker : ActivityMaker} {said : List Notice}
    (h : Maker.configure kind.fresh s = .ok (maker, said)) :
    s.validate = .ok () ∧ kind.made s = maker := by
  cases kind
  all_goals
    obtain ⟨hvalid, hmade⟩ := Settings.of_accept h
    exact ⟨hvalid, congrArg Prod.fst hmade⟩

/-- A bundler takes settings only if they are in range and there is room for its bundles. -/
theorem Bundler.made_of_configure {s : Settings} {m : Bundler} {said : List Notice}
    (h : Maker.configure ({} : Bundler) s = .ok (m, said)) :
    s.validate = .ok () ∧ m = { bundleSize := max s.bundleSize 1, prescale := max s.prescale 1 } := by
  obtain ⟨u, hvalid, h⟩ := Checked.bind_eq_ok_iff.1 h
  obtain ⟨made, hmade, h⟩ := Checked.bind_eq_ok_iff.1 h
  obtain ⟨rfl, -⟩ := Prod.mk.inj (Except.ok.inj h)
  refine ⟨hvalid, ?_⟩
  cases hroom : Bundler.ofSize s.bundleSize s.prescale with
  | error fault =>
    rw [hroom] at hmade
    cases hmade
  | ok m =>
    rw [hroom] at hmade
    obtain rfl := Except.ok.inj hmade
    exact (Bundler.ofSize_eq_ok_iff.1 hroom).2

theorem CandidateMakerKind.made_of_configure {kind : CandidateMakerKind} {s : Settings}
    {maker : CandidateMaker} {said : List Notice}
    (h : Maker.configure kind.fresh s = .ok (maker, said)) :
    s.validate = .ok () ∧ kind.made s = maker := by
  cases kind with
  | bundle =>
    change Except.map _ (Maker.configure ({} : Bundler) s) = _ at h
    cases hconfigure : Maker.configure ({} : Bundler) s with
    | error e =>
      rw [hconfigure] at h
      cases h
    | ok outcome =>
      rw [hconfigure] at h
      obtain ⟨hvalid, hbundler⟩ := Bundler.made_of_configure hconfigure
      refine ⟨hvalid, Eq.trans ?_ (congrArg Prod.fst (Except.ok.inj h))⟩
      exact congrArg CandidateMaker.bundle hbundler.symm
  | horizontalMuon =>
    obtain ⟨hvalid, hmade⟩ := Settings.of_accept h
    exact ⟨hvalid, congrArg Prod.fst hmade⟩
  | prescale =>
    obtain ⟨hvalid, hmade⟩ := Settings.of_accept h
    exact ⟨hvalid, congrArg Prod.fst hmade⟩
  | supernova =>
    obtain ⟨hvalid, hmade⟩ := Settings.of_accept h
    exact ⟨hvalid, congrArg Prod.fst hmade⟩

/-! ## Makers that have heard nothing -/

/-- An activity maker that has heard nothing, with settings in range. -/
inductive ActivityMaker.Fresh : ActivityMaker → Prop
  | geometry {g : Geometry} (hg : (Policy.settings g).validate = .ok ()) :
      Fresh (.geometry { policy := g })
  | shape {p : Shape} (hp : (Policy.settings p).validate = .ok ()) :
      Fresh (.shape { policy := p })
  | prescale {n : Nat} (hn : n ≠ 0) : Fresh (.prescale { prescale := n })

theorem ActivityMakerKind.fresh_made (kind : ActivityMakerKind) {s : Settings}
    (hs : s.validate = .ok ()) : (kind.made s).Fresh := by
  cases kind with
  | adcSimpleWindow => exact .geometry (g := .charge s) hs
  | horizontalMuon => exact .geometry (g := .horizontal s) hs
  | michelElectron => exact .shape (p := { settings := s }) hs
  | prescale => exact .prescale (Settings.validate_eq_ok_iff.1 hs).1

/-- A candidate maker that has heard nothing, with settings in range. -/
inductive CandidateMaker.Fresh (s : Settings) : CandidateMaker → Prop
  | grouping (hs : s.validate = .ok ()) : Fresh s (.grouping { policy := { settings := s } })
  | prescale {n : Nat} (hn : n ≠ 0) : Fresh s (.prescale { prescale := n })
  | bundle {size n : Nat} (hn : n ≠ 0) : Fresh s (.bundle { bundleSize := size, prescale := n })
  | burst {window : Ticks} {activities hits : Nat} (hwindow : 0 ≤ window.toInt) :
      Fresh s (.burst { window, activityThreshold := activities, hitThreshold := hits })

theorem CandidateMakerKind.fresh_made (kind : CandidateMakerKind) {s : Settings}
    (hs : s.validate = .ok ()) : (kind.made s).Fresh s := by
  obtain ⟨hprescale, -, hlength, -⟩ := Settings.validate_eq_ok_iff.1 hs
  cases kind with
  | bundle => exact .bundle (Nat.ne_of_gt (Nat.le_max_right _ _))
  | horizontalMuon => exact .grouping hs
  | prescale => exact .prescale hprescale
  | supernova => exact .burst (Int.le_of_lt (Int64.lt_iff_toInt_lt.1 hlength))

/-! ## Chains that are built -/

namespace ChainSetup

/-- The settings that the candidate maker of a chain is asked to take: its JSON object, laid over
    the settings that are standard for its kind. -/
def candidateSettings (setup : ChainSetup) (registry : Registry) :
    Except SettingsError Settings :=
  match registry.candidate.get? setup.candidateMaker with
  | none => .error (.unknownMaker setup.candidateMaker)
  | some kind => kind.standard.overlay setup.candidateConfig

/-- The makers of a chain have heard nothing and have settings in range. -/
structure Makers (setup : ChainSetup) (registry : Registry) (built : Built) : Prop where
  activity : built.activityMaker.Fresh
  candidate : ∃ s, setup.candidateSettings registry = .ok s ∧ built.candidateMaker.Fresh s

theorem makers_of_build {setup : ChainSetup} {registry : Registry} {built : Built}
    (h : setup.build registry = .ok built) : Makers setup registry built := by
  obtain ⟨⟨activityMaker, said⟩, hactivity, h⟩ := Checked.bind_eq_ok_iff.1 h
  obtain ⟨⟨candidateMaker, also⟩, hcandidate, h⟩ := Checked.bind_eq_ok_iff.1 h
  obtain rfl := Except.ok.inj h
  refine ⟨?_, ?_⟩
  · unfold Registry.buildActivity at hactivity
    split at hactivity
    · cases hactivity
    · next kind _ =>
      obtain ⟨s, -, hconfigure⟩ := Checked.bind_eq_ok_iff.1 hactivity
      obtain ⟨hvalid, rfl⟩ := kind.made_of_configure hconfigure
      exact kind.fresh_made hvalid
  · unfold Registry.buildCandidate at hcandidate
    split at hcandidate
    · cases hcandidate
    · next kind hkind =>
      obtain ⟨s, hoverlay, hconfigure⟩ := Checked.bind_eq_ok_iff.1 hcandidate
      obtain ⟨hvalid, rfl⟩ := kind.made_of_configure hconfigure
      refine ⟨s, ?_, kind.fresh_made hvalid⟩
      rw [candidateSettings, hkind]
      exact hoverlay

end ChainSetup

end TriggerChain
