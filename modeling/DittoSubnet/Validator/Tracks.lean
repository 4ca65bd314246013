import DittoSubnet.Kit.Tally

/-!
# Competition tracks

`ditto/validator/tracks.py`: the static description of the tracks (`Track`, `TrackRegistry`), the basis-point split that
the ledger serves (`resolveTrackShares`), and the shipped four-track registry (`buildDefaultRegistry`).

A track and a registry carry what their constructors check. A registry is always built
(`buildDefaultRegistry_eq_ok`): a split that the checks refuse gives way to the safe one.

A track's fold is not part of the description here: the vectors are a family over the track ids.
-/

namespace DittoSubnet.Validator

open Kit

def BASIS_POINT_SCALE : ℤ := 10000

def TRACK_MEMORY : String := "memory"
def TRACK_CODING : String := "coding"
def TRACK_ROUTER : String := "router"
def TRACK_GENERATOR : String := "generator"

/-- The lifecycle of a track. -/
inductive TrackState
  | shadow
  | active
  | retiring
  | retired
  deriving DecidableEq, Repr

/-- The states that draw emissions. -/
def TrackState.paying : TrackState → Bool
  | .active => true
  | .retiring => true
  | .shadow => false
  | .retired => false

/-- The static description of one track. -/
structure Track where
  trackId : String
  state : TrackState
  emissionShareBps : ℤ
  weightEligible : Bool
  /-- The track that receives this track's share when it folds no payable miner. -/
  unclaimedShareTo : Option String
  trackId_ne : trackId ≠ ""
  emissionShareBps_mem : 0 ≤ emissionShareBps ∧ emissionShareBps ≤ BASIS_POINT_SCALE

namespace Track

theorem eq_iff (a b : Track) : a.trackId = b.trackId ∧ a.state = b.state ∧ a.emissionShareBps = b.emissionShareBps ∧
    a.weightEligible = b.weightEligible ∧ a.unclaimedShareTo = b.unclaimedShareTo ↔ a = b := by
  cases a
  cases b
  simp

instance : DecidableEq Track := fun a b => decidable_of_iff _ (eq_iff a b)

/-- The constructor, with the checks of `__post_init__`. -/
def create (trackId : String) (state : TrackState) (emissionShareBps : ℤ) (weightEligible : Bool)
    (unclaimedShareTo : Option String) : Except String Track :=
  if hid : trackId = "" then .error "track_id must be non-empty"
  else if hbps : 0 ≤ emissionShareBps ∧ emissionShareBps ≤ BASIS_POINT_SCALE then
    .ok ⟨trackId, state, emissionShareBps, weightEligible, unclaimedShareTo, hid, hbps⟩
  else .error s!"track '{trackId}' emission_share_bps out of range: {emissionShareBps}"

/-- Whether the track pays this epoch. -/
def drawsEmission (track : Track) : Bool := track.weightEligible && track.state.paying

/-- The configured share of a paying track. -/
def effectiveBps (track : Track) : ℤ := if track.drawsEmission then track.emissionShareBps else 0

theorem effectiveBps_nonneg (track : Track) : 0 ≤ track.effectiveBps := by
  unfold effectiveBps
  split
  · exact track.emissionShareBps_mem.1
  · exact le_refl 0

end Track

/-- An ordered set of tracks whose paying shares do not exceed the scale. -/
structure TrackRegistry where
  tracks : List Track
  nodup : (tracks.map (·.trackId)).Nodup
  capped : (tracks.map (·.effectiveBps)).sum ≤ BASIS_POINT_SCALE
  deriving DecidableEq

namespace TrackRegistry

/-- The first id that an earlier track has, or the empty one. -/
def firstRepeat : List String → List String → String
  | _, [] => ""
  | seen, t :: ts => if t ∈ seen then t else firstRepeat (t :: seen) ts

/-- The constructor, with the checks of `__post_init__`. -/
def create (tracks : List Track) : Except String TrackRegistry :=
  let total := (tracks.map (·.effectiveBps)).sum
  let repeated := firstRepeat [] (tracks.map (·.trackId))
  if hnodup : (tracks.map (·.trackId)).Nodup then
    if hcapped : (tracks.map (·.effectiveBps)).sum ≤ BASIS_POINT_SCALE then .ok ⟨tracks, hnodup, hcapped⟩
    else .error s!"eligible track emission shares exceed {BASIS_POINT_SCALE} bps: {total}"
  else .error s!"duplicate track id: '{repeated}'"

/-- The tracks that pay this epoch, in registration order. -/
def activeEligible (registry : TrackRegistry) : List Track := registry.tracks.filter Track.drawsEmission

/-- The share of each paying track. -/
def sharesBps (registry : TrackRegistry) : Dict String ℤ :=
  registry.activeEligible.map fun track => (track.trackId, track.effectiveBps)

/-- The fallback of each paying track that declares one. -/
def fallbacks (registry : TrackRegistry) : Dict String String :=
  registry.activeEligible.filterMap fun track => track.unclaimedShareTo.map fun target => (track.trackId, target)

theorem keys_sharesBps_nodup (registry : TrackRegistry) : registry.sharesBps.keys.Nodup := by
  have : registry.sharesBps.keys = registry.activeEligible.map (·.trackId) := by
    simp [sharesBps, Dict.keys, Function.comp_def]
  rw [this]
  exact (List.filter_sublist.map _).nodup registry.nodup

theorem sharesBps_nonneg (registry : TrackRegistry) : ∀ tb ∈ registry.sharesBps, 0 ≤ tb.2 := by
  intro tb htb
  obtain ⟨track, -, rfl⟩ := List.mem_map.1 htb
  exact track.effectiveBps_nonneg

/-- A paying share is the share of a track of the registry. -/
theorem mem_tracks_of_mem_sharesBps {registry : TrackRegistry} {t : String} (h : t ∈ registry.sharesBps.keys) :
    t ∈ registry.tracks.map (·.trackId) := by
  obtain ⟨tb, htb, rfl⟩ := List.mem_map.1 h
  obtain ⟨track, htrack, rfl⟩ := List.mem_map.1 htb
  exact List.mem_map_of_mem (List.mem_of_mem_filter htrack)

theorem total_sharesBps_le (registry : TrackRegistry) : registry.sharesBps.total ≤ BASIS_POINT_SCALE := by
  refine le_trans ?_ registry.capped
  have : registry.sharesBps.total = (registry.activeEligible.map (·.effectiveBps)).sum := by
    simp [sharesBps, Dict.total, Function.comp_def]
  rw [this]
  exact (List.filter_sublist.map _).sum_le_sum (fun x hx => by
    obtain ⟨track, -, rfl⟩ := List.mem_map.1 hx
    exact track.effectiveBps_nonneg)

end TrackRegistry

/-! ## The served split -/

/-- The split this epoch: the served map, unless it is empty, malformed or over the scale. -/
def resolveTrackShares (raw default : Dict String ℤ) : Dict String ℤ :=
  if raw.isEmpty then default
  else if raw.any fun tb => tb.1 = "" ∨ ¬ (0 ≤ tb.2 ∧ tb.2 ≤ BASIS_POINT_SCALE) then default
  else if raw.total > BASIS_POINT_SCALE then default
  else raw

/-- The states and the eligibility of the tracks besides memory. -/
structure TrackSettings where
  routerState : TrackState
  routerWeightEligible : Bool
  codingState : TrackState
  codingWeightEligible : Bool
  generatorState : TrackState
  generatorWeightEligible : Bool

def buildRegistry (shares : Dict String ℤ) (settings : TrackSettings) : Except String TrackRegistry := do
  let memory ← Track.create TRACK_MEMORY .active ((shares.get? TRACK_MEMORY).getD BASIS_POINT_SCALE) true none
  let coding ← Track.create TRACK_CODING settings.codingState (shares.amount TRACK_CODING)
    settings.codingWeightEligible none
  let router ← Track.create TRACK_ROUTER settings.routerState (shares.amount TRACK_ROUTER)
    settings.routerWeightEligible none
  let generator ← Track.create TRACK_GENERATOR settings.generatorState (shares.amount TRACK_GENERATOR)
    settings.generatorWeightEligible (some TRACK_MEMORY)
  TrackRegistry.create [memory, coding, router, generator]

/-- The compiled safe split: memory owns the whole pool. -/
def SAFE_TRACK_SHARES_BPS : Dict String ℤ :=
  [(TRACK_MEMORY, BASIS_POINT_SCALE), (TRACK_CODING, 0), (TRACK_ROUTER, 0), (TRACK_GENERATOR, 0)]

/-- The shipped registry; a split over the cap gives way to the safe one. -/
def buildDefaultRegistry (shares : Dict String ℤ) (settings : TrackSettings) : Except String TrackRegistry :=
  match buildRegistry shares settings with
  | .ok registry => .ok registry
  | .error _ => buildRegistry SAFE_TRACK_SHARES_BPS settings

theorem Track.effectiveBps_of_zero {track : Track} (h : track.emissionShareBps = 0) : track.effectiveBps = 0 := by
  rw [Track.effectiveBps, h, ite_self]

/-- The safe split always gives a registry. -/
theorem buildRegistry_safe (settings : TrackSettings) :
    ∃ registry, buildRegistry SAFE_TRACK_SHARES_BPS settings = .ok registry := by
  have h0 : (0 : ℤ) ≤ 0 ∧ (0 : ℤ) ≤ BASIS_POINT_SCALE := by decide
  have hfull : (0 : ℤ) ≤ BASIS_POINT_SCALE ∧ BASIS_POINT_SCALE ≤ BASIS_POINT_SCALE := by decide
  let memory : Track := ⟨TRACK_MEMORY, .active, BASIS_POINT_SCALE, true, none, by decide, hfull⟩
  let coding : Track := ⟨TRACK_CODING, settings.codingState, 0, settings.codingWeightEligible, none, by decide, h0⟩
  let router : Track := ⟨TRACK_ROUTER, settings.routerState, 0, settings.routerWeightEligible, none, by decide, h0⟩
  let generator : Track := ⟨TRACK_GENERATOR, settings.generatorState, 0, settings.generatorWeightEligible,
    some TRACK_MEMORY, by decide, h0⟩
  have hnodup : ([memory, coding, router, generator].map (·.trackId)).Nodup := by
    show [TRACK_MEMORY, TRACK_CODING, TRACK_ROUTER, TRACK_GENERATOR].Nodup
    decide
  have hcapped : ([memory, coding, router, generator].map (·.effectiveBps)).sum ≤ BASIS_POINT_SCALE := by
    have hm : memory.effectiveBps = BASIS_POINT_SCALE := rfl
    have hc : coding.effectiveBps = 0 := Track.effectiveBps_of_zero rfl
    have hr : router.effectiveBps = 0 := Track.effectiveBps_of_zero rfl
    have hg : generator.effectiveBps = 0 := Track.effectiveBps_of_zero rfl
    simp [hm, hc, hr, hg]
  refine ⟨⟨_, hnodup, hcapped⟩, ?_⟩
  have hc : TrackRegistry.create [memory, coding, router, generator] = .ok ⟨_, hnodup, hcapped⟩ := by
    simp only [TrackRegistry.create]
    rw [dif_pos hnodup, dif_pos hcapped]
  rw [← hc]
  rfl

theorem buildDefaultRegistry_eq_ok (shares : Dict String ℤ) (settings : TrackSettings) :
    ∃ registry, buildDefaultRegistry shares settings = .ok registry := by
  unfold buildDefaultRegistry
  cases buildRegistry shares settings with
  | ok registry => exact ⟨registry, rfl⟩
  | error _ => exact buildRegistry_safe settings

end DittoSubnet.Validator
