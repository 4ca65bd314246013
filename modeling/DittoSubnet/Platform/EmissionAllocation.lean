import DittoSubnet.Kit.Sorting
import DittoSubnet.Kit.Tally
import DittoSubnet.Kit.Transaction

/-!
# Typed emission allocations

`emission_allocation_math.py` in exact arithmetic: an operator types what every destination receives in basis points,
`derive_served` turns this into the three nested fields that validators fold, and `effective_split` with
`entries_from_split` reads it back.

* `canonicalEntries_eq_ok_iff`: which lists of entries are accepted.
* `deriveServed_eq_ok`: the fields that an accepted allocation is served as.
* `effectiveSplit_served`: the fold of these fields, destination by destination.
* `derived_fields_exact`: the round trip.
-/

namespace DittoSubnet.Platform

open Kit

namespace Emission

/-! ## Entries -/

def BASIS_POINTS : ℤ := 10000
def KIND_BURN : String := "burn"
def KIND_TRACK : String := "track"
def KIND_GAMMA : String := "gamma"
def KINDS : List String := [KIND_BURN, KIND_TRACK, KIND_GAMMA]

/-- Track ids in their registration order. -/
def KNOWN_TRACKS : List String := ["memory", "coding", "router", "generator"]

def PAYABLE_TRACKS : List String := ["memory", "generator"]

/-- What validators fold while no track map is served. -/
def COMPILED_TRACK_SPLIT : Dict String ℤ := [("memory", BASIS_POINTS)]

def ROUND_TRIP_TOLERANCE_BPS : ℚ := 1 / 1000000

/-- A destination and what it receives: the key is a track id, a bucket id, or none for the burn. -/
structure AllocationEntry where
  kind : String
  key : Option String
  bps : ℤ
  deriving DecidableEq, Repr

namespace AllocationEntry

def label (entry : AllocationEntry) : String :=
  if entry.kind = KIND_BURN then "burn"
  else if entry.kind = KIND_GAMMA then "gamma:" ++ entry.key.getD "None"
  else entry.key.getD "None"

/-- What makes an entry a duplicate. -/
def identity (entry : AllocationEntry) : String × Option String := (entry.kind, entry.key)

/-- An entry of a track that a shipped validator pays. -/
def paidTrack (entry : AllocationEntry) : Prop := entry.kind = KIND_TRACK ∧ entry.key ∈ PAYABLE_TRACKS.map some

instance (entry : AllocationEntry) : Decidable entry.paidTrack := inferInstanceAs (Decidable (_ ∧ _))

end AllocationEntry

/-- Burn, then tracks in registration order, then buckets by id. -/
def order (entry : AllocationEntry) : ℕ ×ₗ ℕ ×ₗ String :=
  if entry.kind = KIND_TRACK then
    toLex (KINDS.idxOf entry.kind, toLex (KNOWN_TRACKS.idxOf (entry.key.getD "None"), ""))
  else toLex (KINDS.idxOf entry.kind, toLex (0, entry.key.getD ""))

/-- A string or `None`, as it is quoted in a message. -/
def quote : Option String → String
  | some text => s!"'{text}'"
  | none => "None"

/-- A list of strings, as it is shown in a message. -/
def quoteAll (texts : List String) : String := "[" ++ ", ".intercalate (texts.map fun t => quote (some t)) ++ "]"

/-- The checks of one entry, against the ones before it. -/
def checkEntry (seen : List (String × Option String)) (entry : AllocationEntry) :
    Except String (List (String × Option String)) := do
  ensure (entry.kind ∈ KINDS) ("unknown kind " ++ quote (some entry.kind) ++ "; known: " ++ quoteAll KINDS)
  ensure (0 ≤ entry.bps ∧ entry.bps ≤ BASIS_POINTS) (entry.label ++ " bps must be an integer in 0..10000")
  ensure (¬ (entry.kind = KIND_BURN ∧ entry.key ≠ none)) "the burn entry takes no id or bucket"
  ensure (¬ (entry.kind = KIND_TRACK ∧ entry.key ∉ KNOWN_TRACKS.map some))
    ("unknown track " ++ quote entry.key ++ "; known: " ++ quoteAll KNOWN_TRACKS)
  ensure (¬ (entry.kind = KIND_GAMMA ∧ (entry.key = none ∨ entry.key = some "")))
    "a gamma entry must name its service bucket"
  ensure (entry.identity ∉ seen) ("duplicate entry " ++ entry.label)
  ensure (¬ (entry.kind = KIND_TRACK ∧ 0 < entry.bps ∧ entry.key ∉ PAYABLE_TRACKS.map some))
    ("no shipped validator pays track " ++ entry.key.getD "None" ++ "; its share would burn. Only " ++
      quoteAll PAYABLE_TRACKS ++ " may hold a nonzero share")
  pure (entry.identity :: seen)

/-- The buckets that are named, against those of the treasury policy in force. -/
def checkBuckets (gammaBuckets : List String) (seen : List (String × Option String)) : Except String Unit := do
  let named := (seen.filter fun identity => identity.1 = KIND_GAMMA).map fun identity => identity.2.getD "None"
  let unknown := sortOn id ((named.filter fun bucket => bucket ∉ gammaBuckets).dedup)
  ensure (unknown = []) ("unknown Gamma bucket " ++ quoteAll unknown ++ "; the treasury policy has " ++
    quoteAll (sortOn id gammaBuckets))
  let absent := sortOn id ((gammaBuckets.filter fun bucket => bucket ∉ named).dedup)
  ensure (absent = []) ("name every Gamma bucket, at 0 if it takes nothing; missing " ++ quoteAll absent)

/-- The checked entries in their order. -/
def canonicalEntries (entries : List AllocationEntry) (gammaBuckets : Option (List String)) :
    Except String (List AllocationEntry) := do
  let seen ← entries.foldlM checkEntry []
  ensure ((KIND_BURN, none) ∈ seen) "name the burn entry, at 0 if nothing burns"
  let missing := PAYABLE_TRACKS.filter fun track => (KIND_TRACK, some track) ∉ seen
  ensure (missing = []) ("name every paid track, at 0 if it takes nothing; missing " ++ quoteAll missing)
  match gammaBuckets with
  | some gammaBuckets => checkBuckets gammaBuckets seen
  | none => pure ()
  let total := (entries.map (·.bps)).sum
  ensure (total = BASIS_POINTS)
    ("entries sum to " ++ toString total ++ " bps; an allocation accounts for exactly " ++ toString BASIS_POINTS)
  pure (sortOn order entries)

/-! ## The served fields -/

/-- The served fields that an allocation folds to. -/
structure DerivedServed where
  burnShare : ℚ
  burnFraction : ℚ
  trackSharesBps : Option (Dict String ℤ)
  gammaBps : Dict String ℤ
  deriving DecidableEq, Repr

/-- A fraction as it is shown in a message. -/
def fractionText (q : ℚ) : String :=
  if q.den = 1 then toString q.num else toString q.num ++ "/" ++ toString q.den

/-- One track of the fold: only payable tracks are paid. -/
def foldTrack (miner : ℚ) (shares : Dict String ℤ) (state : Dict String ℚ × ℚ) (track : String) : Dict String ℚ × ℚ :=
  if track ∈ PAYABLE_TRACKS then
    (state.1.set track (miner * shares.amount track), state.2 + miner * shares.amount track)
  else state

/-- The map that is folded: an absent or an empty one is the compiled one. -/
def mapInForce (trackSharesBps : Option (Dict String ℤ)) : Dict String ℤ :=
  match trackSharesBps with
  | none => COMPILED_TRACK_SPLIT
  | some [] => COMPILED_TRACK_SPLIT
  | some shares => shares

/-- What the buckets receive. -/
def gammaSplit (gammaBps : Dict String ℤ) : Dict String ℚ :=
  (sortOn (fun kv => toLex kv) gammaBps).map fun kv => ("gamma:" ++ kv.1, (kv.2 : ℚ))

/-- What each destination receives as validators fold: Gamma first, the burn share of the remainder, then the tracks,
with what they leave unclaimed burning. -/
def effectiveSplit (burnShare : ℚ) (trackSharesBps : Option (Dict String ℤ)) (gammaBps : Dict String ℤ) :
    Except String (Dict String ℚ) := do
  ensure (0 ≤ burnShare ∧ burnShare ≤ 1) "burn_share must be a finite fraction in [0, 1]"
  let service : ℚ := gammaBps.total / BASIS_POINTS
  let miner := (1 - service) * (1 - burnShare)
  let (result, paid) := KNOWN_TRACKS.foldl (foldTrack miner (mapInForce trackSharesBps)) (gammaSplit gammaBps, 0)
  pure (result.set "burn" (BASIS_POINTS * (1 - service) - paid))

/-- One track of the served map. -/
def serveTrack (tracks : Dict String ℤ) (shares : Dict String ℤ) (track : String) : Except String (Dict String ℤ) := do
  let pool := tracks.total
  let numerator := tracks.amount track * BASIS_POINTS
  ensure (numerator % pool = 0)
    (track ++ "=" ++ toString (tracks.amount track) ++ " of a " ++ toString pool ++ "-bps track pool is " ++
      fractionText (numerator / pool) ++
      " bps of the served track map, not an integer; validators fold integer bps, " ++
      "so this split is not exactly representable. Move a few bps between the tracks and burn so each track's bps x " ++
        "10000 divides by the track total (burn 5000 makes any split exact)")
  let served := numerator / pool
  pure (if track = "memory" ∨ 0 < served then shares.set track served else shares)

/-- The typed bps of the payable tracks. -/
def typedTracks (entries : List AllocationEntry) : Dict String ℤ :=
  Dict.ofList ((entries.filter fun e => decide e.paidTrack).map fun e => (e.key.getD "None", e.bps))

/-- The typed bps of the buckets. -/
def typedGamma (entries : List AllocationEntry) : Dict String ℤ :=
  Dict.ofList ((entries.filter fun e => e.kind = KIND_GAMMA).map fun e => (e.key.getD "None", e.bps))

def typedBurn (entries : List AllocationEntry) : ℤ := ((entries.filter fun e => e.kind = KIND_BURN).map (·.bps)).sum

/-- The fold of the served fields may not drift from what was typed. -/
def checkDrift (folded : Dict String ℚ) (expected : Dict String ℤ) : Except String Unit :=
  expected.forM fun e =>
    ensure (|folded.amount e.1 - e.2| ≤ ROUND_TRIP_TOLERANCE_BPS)
      ("derived fields fold " ++ e.1 ++ " to " ++ fractionText (folded.amount e.1) ++ " bps, not " ++ toString e.2 ++
        "; refusing to drift")

/-- The burn share, track map and buckets that validators must be served. -/
def deriveServed (entries : List AllocationEntry) : Except String DerivedServed := do
  let entries ← canonicalEntries entries none
  let burn := typedBurn entries
  let gamma := typedGamma entries
  let tracks := typedTracks entries
  let remainder := BASIS_POINTS - gamma.total
  ensure (0 < remainder) "Gamma cannot take the whole emission"
  let burnFraction : ℚ := burn / remainder
  if 0 < tracks.total then do
    let shares ← PAYABLE_TRACKS.foldlM (serveTrack tracks) []
    let derived : DerivedServed := ⟨burnFraction, burnFraction, some shares, gamma⟩
    let folded ← effectiveSplit derived.burnShare (some shares) gamma
    let expected := tracks.foldl (fun expected kv => expected.set kv.1 kv.2)
      (Dict.ofList ((entries.filter fun e => e.kind ≠ KIND_TRACK).map fun e => (e.label, e.bps)))
    checkDrift folded expected
    pure derived
  else pure ⟨burnFraction, burnFraction, none, gamma⟩

/-- Rounds to the nearest integer, halves to the even one. -/
def roundHalfEven (q : ℚ) : ℤ :=
  let low := ⌊q⌋
  if q - low < 1 / 2 then low
  else if 1 / 2 < q - low then low + 1
  else if low % 2 = 0 then low else low + 1

/-- The integer entry of a folded destination. -/
def entryOfSplit (destination : String × ℚ) : Option AllocationEntry :=
  let rounded := roundHalfEven destination.2
  if ROUND_TRIP_TOLERANCE_BPS < |destination.2 - rounded| ∨ rounded < 0 then none
  else if destination.1 = "burn" then some ⟨KIND_BURN, none, rounded⟩
  else if "gamma:".toList.isPrefixOf destination.1.toList then
    some ⟨KIND_GAMMA, some (String.ofList (destination.1.toList.drop 6)), rounded⟩
  else some ⟨KIND_TRACK, some destination.1, rounded⟩

/-- The integer allocation that a folded split corresponds to. -/
def entriesFromSplit (split : Dict String ℚ) : Option (List AllocationEntry) := do
  let entries ← split.mapM entryOfSplit
  (canonicalEntries entries none).toOption

/-! ## Accepted allocations -/

/-- An entry that passes its own checks. -/
structure EntryOk (e : AllocationEntry) : Prop where
  kind : e.kind ∈ KINDS
  bps : 0 ≤ e.bps ∧ e.bps ≤ BASIS_POINTS
  burn : ¬ (e.kind = KIND_BURN ∧ e.key ≠ none)
  track : ¬ (e.kind = KIND_TRACK ∧ e.key ∉ KNOWN_TRACKS.map some)
  gamma : ¬ (e.kind = KIND_GAMMA ∧ (e.key = none ∨ e.key = some ""))
  payable : ¬ (e.kind = KIND_TRACK ∧ 0 < e.bps ∧ e.key ∉ PAYABLE_TRACKS.map some)

/-- A whole allocation. -/
structure Allocation (entries : List AllocationEntry) : Prop where
  each : ∀ e ∈ entries, EntryOk e
  nodup : (entries.map (·.identity)).Nodup
  burn : (KIND_BURN, none) ∈ entries.map (·.identity)
  tracks : ∀ track ∈ PAYABLE_TRACKS, (KIND_TRACK, some track) ∈ entries.map (·.identity)
  total : (entries.map (·.bps)).sum = BASIS_POINTS

theorem checkEntry_eq_ok_iff {seen seen' : List (String × Option String)} {e : AllocationEntry} :
    checkEntry seen e = .ok seen' ↔ EntryOk e ∧ e.identity ∉ seen ∧ e.identity :: seen = seen' := by
  simp only [checkEntry, ensure_bind_eq_ok_iff, pure_eq_ok_iff]
  constructor
  · rintro ⟨hkind, hbps, hburn, htrack, hgamma, hnew, hpayable, h⟩
    exact ⟨⟨hkind, hbps, hburn, htrack, hgamma, hpayable⟩, hnew, h⟩
  · rintro ⟨h, hnew, hseen⟩
    exact ⟨h.kind, h.bps, h.burn, h.track, h.gamma, hnew, h.payable, hseen⟩

theorem foldlM_checkEntry_eq_ok_iff : ∀ (entries : List AllocationEntry) {seen seen' : List (String × Option String)},
    entries.foldlM checkEntry seen = .ok seen' ↔ (∀ e ∈ entries, EntryOk e) ∧ (entries.map (·.identity)).Nodup ∧
      (∀ e ∈ entries, e.identity ∉ seen) ∧ (entries.map (·.identity)).reverse ++ seen = seen' := by
  intro entries
  induction entries with
  | nil => intro seen seen'; simp
  | cons e entries ih =>
    intro seen seen'
    simp only [List.foldlM_cons, bind_eq_ok_iff, checkEntry_eq_ok_iff, ih, List.forall_mem_cons, List.map_cons,
      List.nodup_cons, List.reverse_cons, List.append_assoc, List.singleton_append]
    constructor
    · rintro ⟨_, ⟨hok, hnew, rfl⟩, hall, hnodup, hfresh, rfl⟩
      refine ⟨⟨hok, hall⟩, ⟨?_, hnodup⟩, ⟨hnew, ?_⟩, rfl⟩
      · intro hmem
        obtain ⟨e', he', hsame⟩ := List.mem_map.1 hmem
        exact hfresh e' he' (by rw [hsame]; exact List.mem_cons_self)
      · exact fun e' he' hseen => hfresh e' he' (List.mem_cons_of_mem _ hseen)
    · rintro ⟨⟨hok, hall⟩, ⟨hnot, hnodup⟩, ⟨hnew, hfresh⟩, rfl⟩
      refine ⟨_, ⟨hok, hnew, rfl⟩, hall, hnodup, ?_, rfl⟩
      intro e' he' hmem
      rcases List.mem_cons.1 hmem with hsame | hseen
      · exact hnot (List.mem_map.2 ⟨e', he', hsame⟩)
      · exact hfresh e' he' hseen

/-- Which entries are accepted when no treasury policy is at hand. -/
theorem canonicalEntries_eq_ok_iff {entries canonical : List AllocationEntry} :
    canonicalEntries entries none = .ok canonical ↔ Allocation entries ∧ sortOn order entries = canonical := by
  simp only [canonicalEntries, bind_eq_ok_iff, foldlM_checkEntry_eq_ok_iff, ensure_eq_ok_iff, pure_eq_ok_iff,
    List.append_nil, List.not_mem_nil, not_false_eq_true, implies_true, true_and, exists_and_left, exists_const]
  constructor
  · rintro ⟨_, ⟨heach, hnodup, rfl⟩, hburn, htracks, htotal, rfl⟩
    refine ⟨⟨heach, hnodup, by simpa using hburn, ?_, htotal⟩, rfl⟩
    intro track htrack
    by_contra hmissing
    have := List.filter_eq_nil_iff.1 htracks track htrack
    simp only [List.mem_reverse, decide_eq_true_eq, not_not] at this
    exact hmissing this
  · rintro ⟨h, rfl⟩
    refine ⟨_, ⟨h.each, h.nodup, rfl⟩, by simpa using h.burn, ?_, h.total, rfl⟩
    refine List.filter_eq_nil_iff.2 ?_
    intro track htrack
    simpa using h.tracks track htrack

/-- What the entries that pass are. -/
theorem EntryOk.cases {e : AllocationEntry} (h : EntryOk e) : e = ⟨KIND_BURN, none, e.bps⟩ ∨
    (∃ track ∈ KNOWN_TRACKS, e = ⟨KIND_TRACK, some track, e.bps⟩) ∨
      ∃ bucket, bucket ≠ "" ∧ e = ⟨KIND_GAMMA, some bucket, e.bps⟩ := by
  obtain ⟨kind, key, bps⟩ := e
  have hkind := h.kind
  simp only [KINDS, List.mem_cons, List.not_mem_nil, or_false] at hkind
  rcases hkind with rfl | rfl | rfl
  · left
    have hkey : key = none := by
      by_contra hne
      exact h.burn ⟨rfl, hne⟩
    rw [hkey]
  · right
    left
    have hkey : key ∈ KNOWN_TRACKS.map some := by
      by_contra hne
      exact h.track ⟨rfl, hne⟩
    obtain ⟨track, htrack, rfl⟩ := List.mem_map.1 hkey
    exact ⟨track, htrack, rfl⟩
  · right
    right
    cases key with
    | none => exact absurd ⟨rfl, .inl rfl⟩ h.gamma
    | some bucket =>
      refine ⟨bucket, ?_, rfl⟩
      rintro rfl
      exact h.gamma ⟨rfl, .inr rfl⟩

/-- Entries that pass are told apart by the order. -/
theorem identity_of_order {e e' : AllocationEntry} (h : EntryOk e) (h' : EntryOk e') (horder : order e = order e') :
    e.identity = e'.identity := by
  have hburn : KINDS.idxOf KIND_BURN = 0 := by decide
  have htrack : KINDS.idxOf KIND_TRACK = 1 := by decide
  have hgamma : KINDS.idxOf KIND_GAMMA = 2 := by decide
  have hbt : KIND_BURN ≠ KIND_TRACK := by decide
  have hgt : KIND_GAMMA ≠ KIND_TRACK := by decide
  rcases h.cases with he | ⟨track, hmem, he⟩ | ⟨bucket, -, he⟩ <;>
    rcases h'.cases with he' | ⟨track', hmem', he'⟩ | ⟨bucket', -, he'⟩ <;>
    rw [he, he'] at horder ⊢ <;>
    simp only [order, hburn, htrack, hgamma, hbt, hgt, if_true, if_false, toLex_inj, Prod.mk.injEq,
      Option.getD_some, Option.getD_none] at horder
  · rfl
  · omega
  · omega
  · omega
  · rw [(List.idxOf_inj hmem).1 horder.2.1]
    rfl
  · omega
  · omega
  · omega
  · rw [horder.2.2]
    rfl

namespace Allocation

variable {entries entries' : List AllocationEntry}

theorem perm (h : Allocation entries) (hp : entries.Perm entries') : Allocation entries' where
  each := fun e he => h.each e (hp.mem_iff.2 he)
  nodup := (hp.map _).nodup_iff.1 h.nodup
  burn := (hp.map _).mem_iff.1 h.burn
  tracks := fun track htrack => (hp.map _).mem_iff.1 (h.tracks track htrack)
  total := by
    rw [← (hp.map _).sum_eq]
    exact h.total

/-- An entry is determined by what it is for. -/
theorem eq_of_identity (h : Allocation entries) {e e' : AllocationEntry} (he : e ∈ entries) (he' : e' ∈ entries)
    (hsame : e.identity = e'.identity) : e = e' := List.inj_on_of_nodup_map h.nodup he he' hsame

theorem eq_of_order (h : Allocation entries) : ∀ e ∈ entries, ∀ e' ∈ entries, order e = order e' → e = e' :=
  fun e he e' he' horder => h.eq_of_identity he he' (identity_of_order (h.each e he) (h.each e' he') horder)

end Allocation

/-! ## What is typed -/

theorem paidTrack_iff {e : AllocationEntry} (h : EntryOk e) :
    e.paidTrack ↔ e = ⟨KIND_TRACK, some "memory", e.bps⟩ ∨ e = ⟨KIND_TRACK, some "generator", e.bps⟩ := by
  constructor
  · rintro ⟨hkind, hkey⟩
    obtain ⟨kind, key, bps⟩ := e
    simp only [PAYABLE_TRACKS, List.map_cons, List.map_nil, List.mem_cons, List.not_mem_nil, or_false] at hkind hkey
    subst hkind
    rcases hkey with rfl | rfl
    · exact .inl rfl
    · exact .inr rfl
  · rintro (he | he)
    · rw [he]
      exact ⟨rfl, List.mem_cons_self⟩
    · rw [he]
      exact ⟨rfl, List.mem_cons_of_mem _ List.mem_cons_self⟩

/-- A payable track, or an unpaid one with nothing. -/
theorem EntryOk.bps_of_unpaid {e : AllocationEntry} (h : EntryOk e) (hkind : e.kind = KIND_TRACK)
    (hpaid : ¬ e.paidTrack) : e.bps = 0 := by
  have hkey : e.key ∉ PAYABLE_TRACKS.map some := fun hkey => hpaid ⟨hkind, hkey⟩
  have hle : ¬ 0 < e.bps := fun hpos => h.payable ⟨hkind, hpos, hkey⟩
  have := h.bps.1
  omega

/-- What is typed is for the burn, for a bucket or for a payable track. -/
theorem sum_bps_split : ∀ {entries : List AllocationEntry}, (∀ e ∈ entries, EntryOk e) →
    (entries.map (·.bps)).sum = typedBurn entries + ((entries.filter fun e => e.kind = KIND_GAMMA).map (·.bps)).sum +
      ((entries.filter fun e => decide e.paidTrack).map (·.bps)).sum
  | [], _ => rfl
  | e :: entries, h => by
    have ih := sum_bps_split fun x hx => h x (List.mem_cons_of_mem _ hx)
    have he := h e List.mem_cons_self
    unfold typedBurn at ih ⊢
    simp only [List.map_cons, List.sum_cons, ih, List.filter_cons]
    rcases he.cases with hb | ⟨track, -, ht⟩ | ⟨bucket, -, hg⟩
    · have hk : e.kind = KIND_BURN := by rw [hb]
      have hpaid : ¬ e.paidTrack := fun hp => absurd (hk.symm.trans hp.1) (by decide)
      have hgamma : e.kind ≠ KIND_GAMMA := by rw [hk]; decide
      simp only [hk, hpaid, decide_true, decide_false, if_true, List.map_cons, List.sum_cons]
      rw [if_neg (by decide), if_neg (by decide)]
      omega
    · have hk : e.kind = KIND_TRACK := by rw [ht]
      by_cases hpaid : e.paidTrack
      · simp only [hk, hpaid, decide_true, if_true, List.map_cons, List.sum_cons]
        rw [if_neg (by decide), if_neg (by decide)]
        omega
      · have hzero := he.bps_of_unpaid hk hpaid
        simp only [hk, hpaid, decide_false]
        rw [if_neg (by decide), if_neg (by decide), if_neg (by decide)]
        omega
    · have hk : e.kind = KIND_GAMMA := by rw [hg]
      have hpaid : ¬ e.paidTrack := fun hp => absurd (hk.symm.trans hp.1) (by decide)
      simp only [hk, hpaid, decide_true, decide_false, if_true, List.map_cons, List.sum_cons]
      rw [if_neg (by decide), if_neg (by decide)]
      omega

section Typed

variable {entries : List AllocationEntry}

/-- Distinct entries of one kind have distinct keys. -/
theorem nodup_keys_of_kind (h : Allocation entries) {p : AllocationEntry → Bool} {kind : String}
    (hp : ∀ e ∈ entries, p e = true → e.kind = kind ∧ e.key.isSome) :
    (Dict.keys ((entries.filter p).map fun e => (e.key.getD "None", e.bps))).Nodup := by
  have hkeys : Dict.keys ((entries.filter p).map fun e => (e.key.getD "None", e.bps)) =
      (entries.filter p).map fun e => e.key.getD "None" := by
    simp [Dict.keys, Function.comp_def]
  rw [hkeys]
  refine List.Nodup.map_on ?_ (List.filter_sublist.nodup (List.Nodup.of_map _ h.nodup))
  intro e he e' he' hsame
  obtain ⟨hmem, hpe⟩ := List.mem_filter.1 he
  obtain ⟨hmem', hpe'⟩ := List.mem_filter.1 he'
  obtain ⟨hkind, hkey⟩ := hp e hmem hpe
  obtain ⟨hkind', hkey'⟩ := hp e' hmem' hpe'
  obtain ⟨k, hk⟩ := Option.isSome_iff_exists.1 hkey
  obtain ⟨k', hk'⟩ := Option.isSome_iff_exists.1 hkey'
  rw [hk, hk', Option.getD_some, Option.getD_some] at hsame
  refine h.eq_of_identity hmem hmem' ?_
  simp only [AllocationEntry.identity, hkind, hkind', hk, hk', hsame]

theorem typedGamma_eq (h : Allocation entries) : typedGamma entries =
    (entries.filter fun e => e.kind = KIND_GAMMA).map fun e => (e.key.getD "None", e.bps) := by
  refine Dict.ofList_eq_self (@nodup_keys_of_kind entries h _ KIND_GAMMA ?_)
  intro e he hkind
  have hkind : e.kind = KIND_GAMMA := by simpa using hkind
  refine ⟨hkind, ?_⟩
  cases hkey : e.key with
  | none => exact absurd ⟨hkind, .inl hkey⟩ (h.each e he).gamma
  | some bucket => rfl

theorem typedTracks_eq (h : Allocation entries) : typedTracks entries =
    (entries.filter fun e => decide e.paidTrack).map fun e => (e.key.getD "None", e.bps) := by
  refine Dict.ofList_eq_self (@nodup_keys_of_kind entries h _ KIND_TRACK ?_)
  intro e he hpaid
  have hpaid : e.paidTrack := by simpa using hpaid
  refine ⟨hpaid.1, ?_⟩
  obtain ⟨track, -, hkey⟩ := List.mem_map.1 hpaid.2
  rw [← hkey]
  rfl

theorem keys_typedGamma_nodup (entries : List AllocationEntry) : (Dict.keys (typedGamma entries)).Nodup :=
  Dict.keys_ofList_nodup _

theorem keys_typedTracks_nodup (entries : List AllocationEntry) : (Dict.keys (typedTracks entries)).Nodup :=
  Dict.keys_ofList_nodup _

theorem mem_typedGamma_iff (h : Allocation entries) {bucket : String} {bps : ℤ} :
    (bucket, bps) ∈ typedGamma entries ↔ ⟨KIND_GAMMA, some bucket, bps⟩ ∈ entries := by
  rw [typedGamma_eq h]
  constructor
  · intro hmem
    obtain ⟨e, he, heq⟩ := List.mem_map.1 hmem
    obtain ⟨he, hkind⟩ := List.mem_filter.1 he
    have hkind : e.kind = KIND_GAMMA := by simpa using hkind
    rcases (h.each e he).cases with hb | ⟨track, -, ht⟩ | ⟨bucket', -, hg⟩
    · have hburn : e.kind = KIND_BURN := congrArg AllocationEntry.kind hb
      exact absurd (hburn.symm.trans hkind) (by decide)
    · have htrack : e.kind = KIND_TRACK := congrArg AllocationEntry.kind ht
      exact absurd (htrack.symm.trans hkind) (by decide)
    · rw [hg] at heq he
      obtain ⟨rfl, rfl⟩ := Prod.mk.inj heq
      exact he
  · intro hmem
    exact List.mem_map.2 ⟨_, List.mem_filter.2 ⟨hmem, by simp⟩, rfl⟩

theorem amount_typedTracks (h : Allocation entries) {track : String} (htrack : track ∈ PAYABLE_TRACKS) {bps : ℤ}
    (hmem : ⟨KIND_TRACK, some track, bps⟩ ∈ entries) : (typedTracks entries).amount track = bps := by
  refine Dict.amount_of_mem (keys_typedTracks_nodup entries) ?_
  rw [typedTracks_eq h]
  refine List.mem_map.2 ⟨_, List.mem_filter.2 ⟨hmem, ?_⟩, rfl⟩
  simpa [AllocationEntry.paidTrack] using htrack

/-- Every payable track is typed. -/
theorem mem_of_payable (h : Allocation entries) {track : String} (htrack : track ∈ PAYABLE_TRACKS) :
    ⟨KIND_TRACK, some track, (typedTracks entries).amount track⟩ ∈ entries := by
  obtain ⟨e, he, hidentity⟩ := List.mem_map.1 (h.tracks track htrack)
  obtain ⟨kind, key, bps⟩ := e
  obtain ⟨rfl, rfl⟩ := Prod.mk.inj hidentity
  rw [amount_typedTracks h htrack he]
  exact he

/-- The burn is typed once. -/
theorem mem_of_burn (h : Allocation entries) : ⟨KIND_BURN, none, typedBurn entries⟩ ∈ entries := by
  obtain ⟨e, he, hidentity⟩ := List.mem_map.1 h.burn
  obtain ⟨kind, key, bps⟩ := e
  obtain ⟨rfl, rfl⟩ := Prod.mk.inj hidentity
  have hone : (entries.filter fun e => e.kind = KIND_BURN) = [⟨KIND_BURN, none, bps⟩] := by
    refine List.perm_singleton.1 ((List.perm_ext_iff_of_nodup (List.filter_sublist.nodup (List.Nodup.of_map _ h.nodup))
      (List.nodup_singleton _)).2 ?_)
    intro e
    rw [List.mem_filter, List.mem_singleton]
    constructor
    · rintro ⟨hmem, hkind⟩
      refine h.eq_of_identity hmem he ?_
      have hkind : e.kind = KIND_BURN := by simpa using hkind
      have hkey : e.key = none := by
        by_contra hne
        exact (h.each e hmem).burn ⟨hkind, hne⟩
      simp only [AllocationEntry.identity, hkind, hkey]
    · rintro rfl
      exact ⟨he, by simp⟩
  have hburn : typedBurn entries = bps := by
    rw [typedBurn, hone]
    simp
  rw [hburn]
  exact he

/-- The payable tracks are two. -/
theorem total_typedTracks (h : Allocation entries) : (typedTracks entries).total =
    (typedTracks entries).amount "memory" + (typedTracks entries).amount "generator" := by
  have hkeys : ∀ kv ∈ typedTracks entries, kv.1 = "memory" ∨ kv.1 = "generator" := by
    rw [typedTracks_eq h]
    intro kv hkv
    obtain ⟨e, he, rfl⟩ := List.mem_map.1 hkv
    obtain ⟨hmem, hpaid⟩ := List.mem_filter.1 he
    rcases (paidTrack_iff (h.each e hmem)).1 (by simpa using hpaid) with heq | heq <;> rw [heq] <;> simp
  rw [← Dict.sum_ite_eq_amount (keys_typedTracks_nodup entries),
    ← Dict.sum_ite_eq_amount (keys_typedTracks_nodup entries), Dict.total]
  revert hkeys
  induction typedTracks entries with
  | nil => intro _; rfl
  | cons kv d ih =>
    intro hkeys
    have ih := ih fun x hx => hkeys x (List.mem_cons_of_mem _ hx)
    simp only [List.map_cons, List.sum_cons, ih]
    rcases hkeys kv List.mem_cons_self with hk | hk
    · rw [if_pos hk, if_neg (by rw [hk]; decide)]
      omega
    · rw [if_neg (by rw [hk]; decide), if_pos hk]
      omega

/-- What is typed adds up to the whole emission. -/
theorem typed_total (h : Allocation entries) :
    typedBurn entries + (typedGamma entries).total + (typedTracks entries).total = BASIS_POINTS := by
  have hsum := sum_bps_split h.each
  rw [h.total] at hsum
  have hgamma : (typedGamma entries).total = ((entries.filter fun e => e.kind = KIND_GAMMA).map (·.bps)).sum := by
    rw [typedGamma_eq h, Dict.total, List.map_map]
    rfl
  have htracks : (typedTracks entries).total = ((entries.filter fun e => decide e.paidTrack).map (·.bps)).sum := by
    rw [typedTracks_eq h, Dict.total, List.map_map]
    rfl
  rw [hgamma, htracks]
  exact hsum.symm

end Typed

/-! ## The fold -/

section Fold

variable {gamma : Dict String ℤ}

theorem gamma_label_ne {bucket label : String} (h : label.toList.head? ≠ some 'g' ∨ label.toList[5]? ≠ some ':') :
    "gamma:" ++ bucket ≠ label := by
  rintro rfl
  have hlist : ("gamma:" ++ bucket).toList = 'g' :: 'a' :: 'm' :: 'm' :: 'a' :: ':' :: bucket.toList := by
    rw [String.toList_append]
    rfl
  rw [hlist] at h
  simp at h

theorem gamma_label_inj {bucket bucket' : String} (h : "gamma:" ++ bucket = "gamma:" ++ bucket') :
    bucket = bucket' := by
  have hlist := congrArg String.toList h
  rw [String.toList_append, String.toList_append] at hlist
  exact String.toList_inj.1 (List.append_cancel_left hlist)

theorem mem_gammaSplit {kv : String × ℚ} : kv ∈ gammaSplit gamma ↔
    ∃ bucket bps, (bucket, bps) ∈ gamma ∧ kv = ("gamma:" ++ bucket, (bps : ℚ)) := by
  simp only [gammaSplit, List.mem_map, mem_sortOn, Prod.exists]
  constructor
  · rintro ⟨bucket, bps, hmem, rfl⟩
    exact ⟨bucket, bps, hmem, rfl⟩
  · rintro ⟨bucket, bps, hmem, rfl⟩
    exact ⟨bucket, bps, hmem, rfl⟩

theorem not_mem_keys_gammaSplit {label : String} (h : label.toList.head? ≠ some 'g' ∨ label.toList[5]? ≠ some ':') :
    label ∉ Dict.keys (gammaSplit gamma) := by
  intro hmem
  obtain ⟨kv, hkv, rfl⟩ := List.mem_map.1 hmem
  obtain ⟨bucket, bps, -, rfl⟩ := mem_gammaSplit.1 hkv
  exact gamma_label_ne h rfl

theorem keys_gammaSplit_nodup (hgamma : (Dict.keys gamma).Nodup) : (Dict.keys (gammaSplit gamma)).Nodup := by
  have hsorted : (Dict.keys (sortOn (fun kv => toLex kv) gamma)).Nodup :=
    ((sortOn_perm _ _).map Prod.fst).nodup_iff.2 hgamma
  have hkeys : Dict.keys (gammaSplit gamma) = (Dict.keys (sortOn (fun kv => toLex kv) gamma)).map ("gamma:" ++ ·) := by
    simp [Dict.keys, gammaSplit, Function.comp_def]
  rw [hkeys]
  exact hsorted.map fun _ _ => gamma_label_inj

theorem total_gammaSplit (gamma : Dict String ℤ) : (gammaSplit gamma).total = (gamma.total : ℚ) := by
  have hsum : ((sortOn (fun kv => toLex kv) gamma).map fun kv => (kv.2 : ℚ)).sum =
      (gamma.map fun kv => (kv.2 : ℚ)).sum :=
    ((sortOn_perm _ _).map _).sum_eq
  rw [Dict.total, gammaSplit, List.map_map]
  show ((sortOn (fun kv => toLex kv) gamma).map fun kv => (kv.2 : ℚ)).sum = _
  rw [hsum, Dict.total]
  clear hsum
  induction gamma with
  | nil => rfl
  | cons kv d ih => rw [List.map_cons, List.sum_cons, ih, List.map_cons, List.sum_cons, Int.cast_add]

/-- Buckets first, then the two payable tracks and the burn. -/
def splitOf (gamma : Dict String ℤ) (memory generator burn : ℚ) : Dict String ℚ :=
  gammaSplit gamma ++ [("memory", memory), ("generator", generator), ("burn", burn)]

theorem keys_splitOf_nodup (hgamma : (Dict.keys gamma).Nodup) (memory generator burn : ℚ) :
    (Dict.keys (splitOf gamma memory generator burn)).Nodup := by
  have hkeys : Dict.keys (splitOf gamma memory generator burn) =
      Dict.keys (gammaSplit gamma) ++ ["memory", "generator", "burn"] := by
    simp [Dict.keys, splitOf]
  rw [hkeys]
  refine List.Nodup.append (keys_gammaSplit_nodup hgamma) (by decide) ?_
  intro label hlabel hmem
  simp only [List.mem_cons, List.not_mem_nil, or_false] at hmem
  rcases hmem with rfl | rfl | rfl
  · exact not_mem_keys_gammaSplit (by decide) hlabel
  · exact not_mem_keys_gammaSplit (by decide) hlabel
  · exact not_mem_keys_gammaSplit (by decide) hlabel

theorem amount_splitOf_burn (hgamma : (Dict.keys gamma).Nodup) (memory generator burn : ℚ) :
    (splitOf gamma memory generator burn).amount "burn" = burn :=
  Dict.amount_of_mem (keys_splitOf_nodup hgamma _ _ _) (by simp [splitOf])

theorem total_splitOf (gamma : Dict String ℤ) (memory generator burn : ℚ) :
    (splitOf gamma memory generator burn).total = gamma.total + (memory + generator + burn) := by
  rw [splitOf, Dict.total_append, total_gammaSplit]
  simp [add_assoc]

/-- The fold of any served fields. -/
theorem effectiveSplit_eq {burnShare : ℚ} (hshare : 0 ≤ burnShare ∧ burnShare ≤ 1)
    (trackSharesBps : Option (Dict String ℤ)) (gamma : Dict String ℤ) :
    effectiveSplit burnShare trackSharesBps gamma = .ok (splitOf gamma
      ((1 - gamma.total / BASIS_POINTS) * (1 - burnShare) * (mapInForce trackSharesBps).amount "memory")
      ((1 - gamma.total / BASIS_POINTS) * (1 - burnShare) * (mapInForce trackSharesBps).amount "generator")
      (BASIS_POINTS * (1 - gamma.total / BASIS_POINTS) -
        ((1 - gamma.total / BASIS_POINTS) * (1 - burnShare) * (mapInForce trackSharesBps).amount "memory" +
          (1 - gamma.total / BASIS_POINTS) * (1 - burnShare) * (mapInForce trackSharesBps).amount "generator"))) := by
  have hcoding : "coding" ∉ PAYABLE_TRACKS := by decide
  have hrouter : "router" ∉ PAYABLE_TRACKS := by decide
  have hmemory : "memory" ∈ PAYABLE_TRACKS := by decide
  have hgenerator : "generator" ∈ PAYABLE_TRACKS := by decide
  have hset : ∀ v : ℚ, (gammaSplit gamma).set "memory" v = gammaSplit gamma ++ [("memory", v)] :=
    fun v => Dict.set_of_not_mem (not_mem_keys_gammaSplit (by decide)) v
  have hset' : ∀ v w : ℚ, Dict.set (gammaSplit gamma ++ [("memory", v)]) "generator" w =
      gammaSplit gamma ++ [("memory", v), ("generator", w)] := by
    intro v w
    have hnot := @not_mem_keys_gammaSplit gamma "generator" (by decide)
    rw [Dict.set_of_not_mem (by simpa [Dict.keys] using hnot), List.append_assoc]
    rfl
  have hset'' : ∀ v w x : ℚ, Dict.set (gammaSplit gamma ++ [("memory", v), ("generator", w)]) "burn" x =
      gammaSplit gamma ++ [("memory", v), ("generator", w), ("burn", x)] := by
    intro v w x
    have hnot := @not_mem_keys_gammaSplit gamma "burn" (by decide)
    rw [Dict.set_of_not_mem (by simpa [Dict.keys] using hnot), List.append_assoc]
    rfl
  unfold effectiveSplit
  rw [ensure_bind_pos hshare]
  simp only [KNOWN_TRACKS, List.foldl_cons, List.foldl_nil, foldTrack, if_pos hmemory, if_pos hgenerator,
    if_neg hcoding, if_neg hrouter, zero_add, hset, hset', hset'']
  rfl

end Fold

/-! ## What is served -/

section Served

variable {entries : List AllocationEntry}

theorem bps_nonneg (h : Allocation entries) :
    0 ≤ typedBurn entries ∧ 0 ≤ (typedTracks entries).amount "memory" ∧ 0 ≤ (typedTracks entries).amount "generator" :=
  ⟨(h.each _ (mem_of_burn h)).bps.1, (h.each _ (mem_of_payable h (by decide))).bps.1,
    (h.each _ (mem_of_payable h (by decide))).bps.1⟩

/-- The burn share of an allocation. -/
def burnShareOf (entries : List AllocationEntry) : ℚ :=
  typedBurn entries / ((BASIS_POINTS - (typedGamma entries).total : ℤ) : ℚ)

theorem burnShareOf_mem (h : Allocation entries) (hremainder : 0 < BASIS_POINTS - (typedGamma entries).total) :
    0 ≤ burnShareOf entries ∧ burnShareOf entries ≤ 1 := by
  obtain ⟨hburn, hmemory, hgenerator⟩ := bps_nonneg h
  have htotal := typed_total h
  rw [total_typedTracks h] at htotal
  have hpos : (0 : ℚ) < ((BASIS_POINTS - (typedGamma entries).total : ℤ) : ℚ) := by exact_mod_cast hremainder
  have hle : typedBurn entries ≤ BASIS_POINTS - (typedGamma entries).total := by omega
  unfold burnShareOf
  constructor
  · have : (0 : ℚ) ≤ typedBurn entries := by exact_mod_cast hburn
    positivity
  · rw [div_le_one hpos]
    exact_mod_cast hle

/-- What is left for the tracks after the buckets and the burn share, in basis points. -/
theorem miner_eq (h : Allocation entries) (hremainder : 0 < BASIS_POINTS - (typedGamma entries).total) :
    (1 - ((typedGamma entries).total : ℚ) / BASIS_POINTS) * (1 - burnShareOf entries) =
      (typedTracks entries).total / BASIS_POINTS := by
  have htotal := typed_total h
  have hpos : (0 : ℚ) < ((BASIS_POINTS - (typedGamma entries).total : ℤ) : ℚ) := by exact_mod_cast hremainder
  have htracks : ((typedTracks entries).total : ℚ) =
      ((BASIS_POINTS - (typedGamma entries).total : ℤ) : ℚ) - typedBurn entries := by
    have : (typedTracks entries).total = (BASIS_POINTS - (typedGamma entries).total) - typedBurn entries := by omega
    rw [this]
    push_cast
    ring
  have hservice : 1 - ((typedGamma entries).total : ℚ) / BASIS_POINTS =
      ((BASIS_POINTS - (typedGamma entries).total : ℤ) : ℚ) / BASIS_POINTS := by
    have hbasis : (BASIS_POINTS : ℚ) ≠ 0 := by norm_num [BASIS_POINTS]
    push_cast
    field_simp
  rw [hservice, htracks, burnShareOf]
  have hbasis : (BASIS_POINTS : ℚ) ≠ 0 := by norm_num [BASIS_POINTS]
  field_simp

/-- The destinations with what was typed for them. -/
def typedSplit (entries : List AllocationEntry) : Dict String ℚ :=
  splitOf (typedGamma entries) ((typedTracks entries).amount "memory") ((typedTracks entries).amount "generator")
    (typedBurn entries)

theorem burn_eq (h : Allocation entries) : (BASIS_POINTS : ℚ) * (1 - ((typedGamma entries).total : ℚ) / BASIS_POINTS) -
    (typedTracks entries).total = typedBurn entries := by
  have htotal : (typedBurn entries : ℚ) + (typedGamma entries).total + (typedTracks entries).total = BASIS_POINTS := by
    exact_mod_cast typed_total h
  have hbasis : (BASIS_POINTS : ℚ) ≠ 0 := by norm_num [BASIS_POINTS]
  field_simp
  linarith

/-- A map with the typed proportions is folded to what was typed. -/
theorem effectiveSplit_typed (h : Allocation entries) (hremainder : 0 < BASIS_POINTS - (typedGamma entries).total)
    {trackSharesBps : Option (Dict String ℤ)}
    (hmap : ∀ track ∈ PAYABLE_TRACKS, (typedTracks entries).total * (mapInForce trackSharesBps).amount track =
      (typedTracks entries).amount track * BASIS_POINTS) :
    effectiveSplit (burnShareOf entries) trackSharesBps (typedGamma entries) = .ok (typedSplit entries) := by
  have hbasis : (BASIS_POINTS : ℚ) ≠ 0 := by norm_num [BASIS_POINTS]
  have htrack : ∀ track ∈ PAYABLE_TRACKS, ((typedTracks entries).total : ℚ) / BASIS_POINTS *
      (mapInForce trackSharesBps).amount track = (typedTracks entries).amount track := by
    intro track hmem
    have hint : ((typedTracks entries).total : ℚ) * (mapInForce trackSharesBps).amount track =
        (typedTracks entries).amount track * BASIS_POINTS := by exact_mod_cast hmap track hmem
    field_simp
    linarith
  have hsum : ((typedTracks entries).amount "memory" : ℚ) + (typedTracks entries).amount "generator" =
      (typedTracks entries).total := by
    rw [total_typedTracks h]
    push_cast
    rfl
  rw [effectiveSplit_eq (burnShareOf_mem h hremainder), miner_eq h hremainder, htrack "memory" (by decide),
    htrack "generator" (by decide), hsum, burn_eq h]
  rfl

/-- One track is served when its share is whole. -/
theorem serveTrack_eq_ok_iff {tracks shares shares' : Dict String ℤ} {track : String} :
    serveTrack tracks shares track = .ok shares' ↔ tracks.amount track * BASIS_POINTS % tracks.total = 0 ∧
      (if track = "memory" ∨ 0 < tracks.amount track * BASIS_POINTS / tracks.total then
        shares.set track (tracks.amount track * BASIS_POINTS / tracks.total) else shares) = shares' := by
  simp only [serveTrack, ensure_bind_eq_ok_iff, pure_eq_ok_iff]

/-- The map that is served claims the whole pool, in the typed proportions. -/
structure ServedMap (entries : List AllocationEntry) (shares : Dict String ℤ) : Prop where
  nonempty : shares ≠ []
  exact : ∀ track ∈ PAYABLE_TRACKS,
    (typedTracks entries).total * shares.amount track = (typedTracks entries).amount track * BASIS_POINTS
  whole : shares.total = BASIS_POINTS

theorem servedMap_of_foldlM (h : Allocation entries) (hpool : 0 < (typedTracks entries).total) {shares : Dict String ℤ}
    (hshares : PAYABLE_TRACKS.foldlM (serveTrack (typedTracks entries)) [] = .ok shares) :
      ServedMap entries shares := by
  obtain ⟨-, -, hgenerator⟩ := bps_nonneg h
  have htotal := total_typedTracks h
  simp only [PAYABLE_TRACKS, List.foldlM_cons, List.foldlM_nil, bind_eq_ok_iff, serveTrack_eq_ok_iff,
    pure_eq_ok_iff] at hshares
  obtain ⟨shares₁, ⟨hmod, rfl⟩, shares₂, ⟨hmod', rfl⟩, rfl⟩ := hshares
  have hm := Int.mul_ediv_cancel' (Int.dvd_of_emod_eq_zero hmod)
  have hg := Int.mul_ediv_cancel' (Int.dvd_of_emod_eq_zero hmod')
  set memory := (typedTracks entries).amount "memory" * BASIS_POINTS / (typedTracks entries).total with hmemory
  set generator := (typedTracks entries).amount "generator" * BASIS_POINTS / (typedTracks entries).total with hgen
  have hwhole : memory + generator = BASIS_POINTS := by
    have hprod : (typedTracks entries).total * (memory + generator) = (typedTracks entries).total * BASIS_POINTS := by
      rw [mul_add, hm, hg, ← add_mul, ← htotal]
    exact mul_left_cancel₀ (by omega) hprod
  by_cases hpos : 0 < generator
  · rw [if_pos (.inr hpos), if_pos (.inl trivial)]
    refine ⟨by simp [Dict.set], ?_, by simpa [Dict.set] using hwhole⟩
    intro track htrack
    simp only [PAYABLE_TRACKS, List.mem_cons, List.not_mem_nil, or_false] at htrack
    rcases htrack with rfl | rfl
    · simpa [Dict.set, Dict.amount_cons] using hm
    · simpa [Dict.set, Dict.amount_cons] using hg
  · -- A generator share of zero is not named in the map.
    have hnonneg : 0 ≤ generator := Int.ediv_nonneg (by simp only [BASIS_POINTS]; omega) hpool.le
    have hzero : generator = 0 := by omega
    rw [if_neg (not_or.2 ⟨by decide, hpos⟩), if_pos (.inl trivial)]
    rw [hzero] at hg hwhole
    refine ⟨by simp [Dict.set], ?_, by simpa [Dict.set] using hwhole⟩
    intro track htrack
    simp only [PAYABLE_TRACKS, List.mem_cons, List.not_mem_nil, or_false] at htrack
    rcases htrack with rfl | rfl
    · simpa [Dict.set, Dict.amount_cons] using hm
    · simpa [Dict.set, Dict.amount_cons] using hg

/-- What is served for an accepted allocation. -/
theorem deriveServed_eq_ok {served : DerivedServed} (h : deriveServed entries = .ok served) :
    ∃ canonical, canonicalEntries entries none = .ok canonical ∧ Allocation canonical ∧
      0 < BASIS_POINTS - (typedGamma canonical).total ∧ served.burnFraction = burnShareOf canonical ∧
      served.gammaBps = typedGamma canonical ∧
      ((0 < (typedTracks canonical).total ∧ ∃ shares, served.trackSharesBps = some shares ∧
        ServedMap canonical shares) ∨ ((typedTracks canonical).total = 0 ∧ served.trackSharesBps = none)) := by
  simp only [deriveServed, bind_eq_ok_iff] at h
  obtain ⟨canonical, hcanonical, h⟩ := h
  obtain ⟨hallocation, hsorted⟩ := canonicalEntries_eq_ok_iff.1 hcanonical
  have hcanonicalAllocation : Allocation canonical := by
    rw [← hsorted]
    exact hallocation.perm (sortOn_perm _ _).symm
  simp only [ensure_eq_ok_iff, exists_and_left, exists_const] at h
  obtain ⟨hremainder, h⟩ := h
  refine ⟨canonical, hcanonical, hcanonicalAllocation, hremainder, ?_⟩
  split at h
  · rename_i hpool
    simp only [bind_eq_ok_iff, pure_eq_ok_iff] at h
    obtain ⟨shares, hshares, -, -, -, -, rfl⟩ := h
    exact ⟨rfl, rfl, .inl ⟨hpool, shares, rfl, servedMap_of_foldlM hcanonicalAllocation hpool hshares⟩⟩
  · rename_i hpool
    rw [pure_eq_ok_iff] at h
    subst h
    have hnonneg := bps_nonneg hcanonicalAllocation
    have htotal := total_typedTracks hcanonicalAllocation
    exact ⟨rfl, rfl, .inr ⟨by omega, rfl⟩⟩

/-- The fold of what is served. -/
theorem effectiveSplit_served {served : DerivedServed} {canonical : List AllocationEntry} (h : Allocation canonical)
    (hremainder : 0 < BASIS_POINTS - (typedGamma canonical).total)
    (hmap : (0 < (typedTracks canonical).total ∧
        ∃ shares, served.trackSharesBps = some shares ∧ ServedMap canonical shares) ∨
      ((typedTracks canonical).total = 0 ∧ served.trackSharesBps = none)) :
    effectiveSplit (burnShareOf canonical) served.trackSharesBps (typedGamma canonical) =
      .ok (typedSplit canonical) := by
  refine effectiveSplit_typed h hremainder ?_
  rcases hmap with ⟨-, shares, hserved, hshares⟩ | ⟨hzero, hserved⟩
  · have hforce : mapInForce (some shares) = shares := by
      cases shares with
      | nil => exact absurd rfl hshares.nonempty
      | cons kv shares => rfl
    rw [hserved, hforce]
    exact hshares.exact
  · -- Nothing is left for the tracks, whatever the map says.
    have hnonneg := bps_nonneg h
    have htotal := total_typedTracks h
    intro track htrack
    simp only [PAYABLE_TRACKS, List.mem_cons, List.not_mem_nil, or_false] at htrack
    rcases htrack with rfl | rfl
    · have : (typedTracks canonical).amount "memory" = 0 := by omega
      rw [hzero, this, zero_mul, zero_mul]
    · have : (typedTracks canonical).amount "generator" = 0 := by omega
      rw [hzero, this, zero_mul, zero_mul]

/-- While no map is served the burn is the typed one all the same. -/
theorem effectiveSplit_memoryOnly (h : Allocation entries) (hremainder : 0 < BASIS_POINTS - (typedGamma entries).total)
    {trackSharesBps : Option (Dict String ℤ)} (hcompiled : mapInForce trackSharesBps = COMPILED_TRACK_SPLIT) :
    ∃ split, effectiveSplit (burnShareOf entries) trackSharesBps (typedGamma entries) = .ok split ∧
      split.amount "burn" = typedBurn entries := by
  refine ⟨_, effectiveSplit_eq (burnShareOf_mem h hremainder) _ _, ?_⟩
  have hbasis : (BASIS_POINTS : ℚ) ≠ 0 := by norm_num [BASIS_POINTS]
  have hmemory : COMPILED_TRACK_SPLIT.amount "memory" = BASIS_POINTS := by decide
  have hgenerator : COMPILED_TRACK_SPLIT.amount "generator" = 0 := by decide
  rw [amount_splitOf_burn (keys_typedGamma_nodup entries), miner_eq h hremainder, hcompiled, hmemory, hgenerator,
    Int.cast_zero, mul_zero, add_zero, div_mul_cancel₀ _ hbasis]
  exact burn_eq h

end Served

/-! ## The round trip -/

theorem roundHalfEven_intCast (n : ℤ) : roundHalfEven n = n := by
  simp [roundHalfEven]

/-- A whole number of basis points is read back as it is. -/
theorem entryOfSplit_whole {label : String} {bps : ℤ} (hbps : 0 ≤ bps) : entryOfSplit (label, (bps : ℚ)) =
    if label = "burn" then some ⟨KIND_BURN, none, bps⟩
    else if "gamma:".toList.isPrefixOf label.toList then
      some ⟨KIND_GAMMA, some (String.ofList (label.toList.drop 6)), bps⟩
    else some ⟨KIND_TRACK, some label, bps⟩ := by
  have hclose : ¬ (ROUND_TRIP_TOLERANCE_BPS < |(bps : ℚ) - bps| ∨ bps < 0) := by
    rw [sub_self, abs_zero]
    rintro (h | h)
    · exact absurd h (by norm_num [ROUND_TRIP_TOLERANCE_BPS])
    · omega
  simp only [entryOfSplit, roundHalfEven_intCast, if_neg hclose]

theorem entryOfSplit_gamma {bucket : String} {bps : ℤ} (hbps : 0 ≤ bps) :
    entryOfSplit ("gamma:" ++ bucket, (bps : ℚ)) = some ⟨KIND_GAMMA, some bucket, bps⟩ := by
  have hburn : "gamma:" ++ bucket ≠ "burn" := gamma_label_ne (by decide)
  have hlist : ("gamma:" ++ bucket).toList = "gamma:".toList ++ bucket.toList := String.toList_append
  have hprefix : "gamma:".toList.isPrefixOf ("gamma:" ++ bucket).toList = true := by
    rw [hlist, List.isPrefixOf_iff_prefix]
    exact List.prefix_append _ _
  have hdrop : ("gamma:" ++ bucket).toList.drop 6 = bucket.toList := by
    rw [hlist]
    rfl
  rw [entryOfSplit_whole hbps, if_neg hburn, if_pos hprefix, hdrop, String.ofList_toList]

/-- The entries that are read back from what was typed. -/
def readBack (entries : List AllocationEntry) : List AllocationEntry :=
  (sortOn (fun kv => toLex kv) (typedGamma entries)).map (fun kv => ⟨KIND_GAMMA, some kv.1, kv.2⟩) ++
    [⟨KIND_TRACK, some "memory", (typedTracks entries).amount "memory"⟩,
      ⟨KIND_TRACK, some "generator", (typedTracks entries).amount "generator"⟩, ⟨KIND_BURN, none, typedBurn entries⟩]

theorem mapM_some {α β : Type} {f : α → Option β} {g : α → β} : ∀ {l : List α}, (∀ a ∈ l, f a = some (g a)) →
    l.mapM f = some (l.map g)
  | [], _ => rfl
  | a :: l, h => by
    have hrest := mapM_some fun x hx => h x (List.mem_cons_of_mem _ hx)
    rw [List.mapM_cons, h a List.mem_cons_self, hrest]
    rfl

theorem mapM_entryOfSplit {entries : List AllocationEntry} (h : Allocation entries) :
    (typedSplit entries).mapM entryOfSplit = some (readBack entries) := by
  obtain ⟨hburn, hmemory, hgenerator⟩ := bps_nonneg h
  have hgamma : (gammaSplit (typedGamma entries)).mapM entryOfSplit =
      some ((sortOn (fun kv => toLex kv) (typedGamma entries)).map fun kv => ⟨KIND_GAMMA, some kv.1, kv.2⟩) := by
    rw [gammaSplit, List.mapM_map]
    refine mapM_some ?_
    intro kv hkv
    have hmem := (mem_typedGamma_iff h).1 (mem_sortOn.1 hkv)
    exact entryOfSplit_gamma (h.each _ hmem).bps.1
  have htracks : [("memory", ((typedTracks entries).amount "memory" : ℚ)),
      ("generator", ((typedTracks entries).amount "generator" : ℚ)), ("burn", (typedBurn entries : ℚ))].mapM
      entryOfSplit = some [⟨KIND_TRACK, some "memory", (typedTracks entries).amount "memory"⟩,
        ⟨KIND_TRACK, some "generator", (typedTracks entries).amount "generator"⟩,
        ⟨KIND_BURN, none, typedBurn entries⟩] := by
    simp only [List.mapM_cons, List.mapM_nil, entryOfSplit_whole hmemory, entryOfSplit_whole hgenerator,
      entryOfSplit_whole hburn]
    rfl
  rw [typedSplit, splitOf, List.mapM_append, hgamma, htracks]
  rfl

/-- An entry that is left out: a track without a payout. -/
def unpaid (e : AllocationEntry) : Bool := decide (e.kind = KIND_TRACK ∧ e.key ∉ PAYABLE_TRACKS.map some)

section ReadBack

variable {entries : List AllocationEntry}

theorem mem_readBack {e : AllocationEntry} (h : Allocation entries) :
    e ∈ readBack entries ↔ e ∈ entries ∧ unpaid e = false := by
  have hmemory := @mem_of_payable entries h "memory" (by decide)
  have hgenerator := @mem_of_payable entries h "generator" (by decide)
  have hburn := mem_of_burn h
  constructor
  · intro he
    rcases List.mem_append.1 he with he | he
    · obtain ⟨kv, hkv, rfl⟩ := List.mem_map.1 he
      exact ⟨(mem_typedGamma_iff h).1 (mem_sortOn.1 hkv), rfl⟩
    · simp only [List.mem_cons, List.not_mem_nil, or_false] at he
      rcases he with rfl | rfl | rfl
      · exact ⟨hmemory, rfl⟩
      · exact ⟨hgenerator, rfl⟩
      · exact ⟨hburn, rfl⟩
  · rintro ⟨he, hpaid⟩
    refine List.mem_append.2 ?_
    rcases (h.each e he).cases with hb | ⟨track, -, ht⟩ | ⟨bucket, -, hg⟩
    · right
      have hsame : e = ⟨KIND_BURN, none, typedBurn entries⟩ :=
        h.eq_of_identity he hburn (by rw [hb]; rfl)
      rw [hsame]
      simp
    · right
      have hkind : e.kind = KIND_TRACK := congrArg AllocationEntry.kind ht
      have hpayable : e.paidTrack := by
        by_contra hnot
        have hunpaid : unpaid e = true := decide_eq_true ⟨hkind, fun hkey => hnot ⟨hkind, hkey⟩⟩
        rw [hunpaid] at hpaid
        cases hpaid
      rcases (paidTrack_iff (h.each e he)).1 hpayable with heq | heq
      · have hsame := h.eq_of_identity he hmemory (by rw [heq]; rfl)
        rw [hsame]
        simp
      · have hsame := h.eq_of_identity he hgenerator (by rw [heq]; rfl)
        rw [hsame]
        simp
    · left
      have hmem : (⟨KIND_GAMMA, some bucket, e.bps⟩ : AllocationEntry) ∈ entries := by
        rw [← hg]
        exact he
      refine List.mem_map.2 ⟨(bucket, e.bps), mem_sortOn.2 ((mem_typedGamma_iff h).2 hmem), ?_⟩
      exact hg.symm

theorem readBack_perm (h : Allocation entries) : (readBack entries).Perm (entries.filter fun e => !unpaid e) := by
  refine (List.perm_ext_iff_of_nodup ?_ (List.filter_sublist.nodup (List.Nodup.of_map _ h.nodup))).2 ?_
  · refine List.Nodup.append ?_ ?_ ?_
    · have hnodup : (sortOn (fun kv => toLex kv) (typedGamma entries)).Nodup :=
        (sortOn_perm _ _).nodup_iff.2 (List.Nodup.of_map _ (keys_typedGamma_nodup entries))
      refine hnodup.map ?_
      rintro ⟨k, v⟩ ⟨k', v'⟩ hsame
      simp only [AllocationEntry.mk.injEq, Option.some.injEq, true_and] at hsame
      rw [hsame.1, hsame.2]
    · simp [KIND_TRACK, KIND_BURN]
    · intro e he he'
      obtain ⟨kv, -, rfl⟩ := List.mem_map.1 he
      simp [KIND_TRACK, KIND_BURN, KIND_GAMMA] at he'
  · intro e
    rw [mem_readBack h, List.mem_filter, Bool.not_eq_true']

/-- Entries without a payout can be left out. -/
theorem Allocation.filter (h : Allocation entries) : Allocation (entries.filter fun e => !unpaid e) where
  each := fun e he => h.each e (List.mem_of_mem_filter he)
  nodup := (List.filter_sublist.map _).nodup h.nodup
  burn := List.mem_map.2 ⟨_, List.mem_filter.2 ⟨mem_of_burn h, rfl⟩, rfl⟩
  tracks := by
    intro track htrack
    refine List.mem_map.2 ⟨_, List.mem_filter.2 ⟨mem_of_payable h htrack, ?_⟩, rfl⟩
    simpa [unpaid] using htrack
  total := by
    have hkeep : ∀ {l : List AllocationEntry}, (∀ e ∈ l, EntryOk e) →
        ((l.filter fun e => !unpaid e).map (·.bps)).sum = (l.map (·.bps)).sum := by
      intro l hl
      induction l with
      | nil => rfl
      | cons e l ih =>
        have ih := ih fun x hx => hl x (List.mem_cons_of_mem _ hx)
        cases hunpaid : unpaid e with
        | false => rw [List.filter_cons_of_pos (by simp [hunpaid]), List.map_cons, List.sum_cons, ih, List.map_cons,
          List.sum_cons]
        | true =>
          have hnot : e.kind = KIND_TRACK ∧ e.key ∉ PAYABLE_TRACKS.map some := by simpa [unpaid] using hunpaid
          have hzero := (hl e List.mem_cons_self).bps_of_unpaid hnot.1 fun hp => hnot.2 hp.2
          rw [List.filter_cons_of_neg (by simp [hunpaid]), ih, List.map_cons, List.sum_cons, hzero, zero_add]
    rw [hkeep h.each, h.total]

theorem entriesFromSplit_typed (h : Allocation entries) (hsorted : sortOn order entries = entries) :
    entriesFromSplit (typedSplit entries) = some (entries.filter fun e => !unpaid e) := by
  have hperm := readBack_perm h
  have hallocation : Allocation (readBack entries) := h.filter.perm hperm.symm
  have hcanonical : sortOn order (readBack entries) = entries.filter fun e => !unpaid e := by
    rw [sortOn_eq_of_perm hallocation.eq_of_order hperm, ← filter_sortOn h.eq_of_order, hsorted]
  have haccepted := canonicalEntries_eq_ok_iff.2 ⟨hallocation, hcanonical⟩
  unfold entriesFromSplit
  rw [mapM_entryOfSplit h]
  show (canonicalEntries (readBack entries) none).toOption = _
  rw [haccepted]
  rfl

/-- Every destination is folded to what was typed for it. -/
theorem amount_typedSplit (h : Allocation entries) {e : AllocationEntry} (he : e ∈ entries) :
    (typedSplit entries).amount e.label = e.bps := by
  have hnodup := keys_splitOf_nodup (keys_typedGamma_nodup entries) ((typedTracks entries).amount "memory")
    ((typedTracks entries).amount "generator") (typedBurn entries)
  by_cases hunpaid : unpaid e = true
  · -- A track without a payout is no destination of the fold.
    have hnot : e.kind = KIND_TRACK ∧ e.key ∉ PAYABLE_TRACKS.map some := by simpa [unpaid] using hunpaid
    rw [(h.each e he).bps_of_unpaid hnot.1 fun hp => hnot.2 hp.2, Int.cast_zero]
    have hkey : e.key ∈ KNOWN_TRACKS.map some := by
      by_contra hne
      exact (h.each e he).track ⟨hnot.1, hne⟩
    obtain ⟨track, htrack, hkey⟩ := List.mem_map.1 hkey
    have hlabel : e.label = track := by
      have hb : KIND_TRACK ≠ KIND_BURN := by decide
      have hg : KIND_TRACK ≠ KIND_GAMMA := by decide
      simp [AllocationEntry.label, hnot.1, hb, hg, ← hkey]
    rw [hlabel]
    refine Dict.amount_of_not_mem ?_
    intro hmem
    have hunpayable : track ∉ PAYABLE_TRACKS := by
      intro hp
      exact hnot.2 (hkey ▸ List.mem_map.2 ⟨track, hp, rfl⟩)
    simp only [KNOWN_TRACKS, List.mem_cons, List.not_mem_nil, or_false] at htrack
    have hkeys : Dict.keys (typedSplit entries) = Dict.keys (gammaSplit (typedGamma entries)) ++
        ["memory", "generator", "burn"] := by
      simp [Dict.keys, typedSplit, splitOf]
    rw [hkeys] at hmem
    rcases List.mem_append.1 hmem with hmem | hmem
    · rcases htrack with rfl | rfl | rfl | rfl
      · exact not_mem_keys_gammaSplit (by decide) hmem
      · exact not_mem_keys_gammaSplit (by decide) hmem
      · exact not_mem_keys_gammaSplit (by decide) hmem
      · exact not_mem_keys_gammaSplit (by decide) hmem
    · rcases htrack with rfl | rfl | rfl | rfl
      · exact hunpayable (by decide)
      · exact absurd hmem (by decide)
      · exact absurd hmem (by decide)
      · exact hunpayable (by decide)
  · have hread := (mem_readBack h).2 ⟨he, by simpa using hunpaid⟩
    refine Dict.amount_of_mem hnodup ?_
    rcases List.mem_append.1 hread with hread | hread
    · obtain ⟨kv, hkv, rfl⟩ := List.mem_map.1 hread
      exact List.mem_append_left _ (mem_gammaSplit.2 ⟨kv.1, kv.2, mem_sortOn.1 hkv, rfl⟩)
    · refine List.mem_append_right _ ?_
      simp only [List.mem_cons, List.not_mem_nil, or_false] at hread
      rcases hread with rfl | rfl | rfl
      · exact List.mem_cons_self
      · exact List.mem_cons_of_mem _ List.mem_cons_self
      · exact List.mem_cons_of_mem _ (List.mem_cons_of_mem _ List.mem_cons_self)

theorem total_typedSplit (h : Allocation entries) : (typedSplit entries).total = 10000 := by
  have htotal := typed_total h
  rw [total_typedTracks h] at htotal
  have hcast : (typedBurn entries : ℚ) + (typedGamma entries).total +
      ((typedTracks entries).amount "memory" + (typedTracks entries).amount "generator") = 10000 := by
    exact_mod_cast htotal
  rw [typedSplit, total_splitOf]
  linarith

end ReadBack

/-- The served fields are exact: validators fold them to what was typed, destination by destination, the typed entries
are read back from the fold, a served map claims the whole pool, and without it the typed burn still burns. -/
theorem derived_fields_exact {entries : List AllocationEntry} {served : DerivedServed}
    (h : deriveServed entries = .ok served) :
    ∃ canonical split, canonicalEntries entries none = .ok canonical ∧
      effectiveSplit served.burnFraction served.trackSharesBps served.gammaBps = .ok split ∧
      (∀ e ∈ canonical, split.amount e.label = e.bps) ∧ split.total = 10000 ∧
      entriesFromSplit split = some (canonical.filter fun e => !unpaid e) ∧
      (∀ e ∈ canonical, unpaid e = true → e.bps = 0) ∧
      (∀ shares, served.trackSharesBps = some shares → shares.total = 10000) ∧
      (∀ e ∈ canonical, e.kind = KIND_TRACK → 0 < e.bps → ∃ shares, served.trackSharesBps = some shares) ∧
      ∀ memoryOnly ∈ [none, some COMPILED_TRACK_SPLIT], ∃ fallback,
        effectiveSplit served.burnFraction memoryOnly served.gammaBps = .ok fallback ∧
        ∀ e ∈ canonical, e.kind = KIND_BURN → fallback.amount "burn" = e.bps := by
  obtain ⟨canonical, hcanonical, hallocation, hremainder, hburn, hgamma, hmap⟩ := deriveServed_eq_ok h
  have hsorted : sortOn order canonical = canonical := by
    have hoften := (canonicalEntries_eq_ok_iff.1 hcanonical).2
    exact (eq_sortOn_of_perm hallocation.eq_of_order (List.Perm.refl _)
      (by rw [← hoften]; exact pairwise_sortOn _ _)).symm
  rw [hburn, hgamma]
  refine ⟨canonical, typedSplit canonical, hcanonical, effectiveSplit_served hallocation hremainder hmap,
    fun e he => amount_typedSplit hallocation he, total_typedSplit hallocation,
    entriesFromSplit_typed hallocation hsorted, ?_, ?_, ?_, ?_⟩
  · intro e he hunpaid
    have hnot : e.kind = KIND_TRACK ∧ e.key ∉ PAYABLE_TRACKS.map some := by simpa [unpaid] using hunpaid
    exact (hallocation.each e he).bps_of_unpaid hnot.1 fun hp => hnot.2 hp.2
  · intro shares hshares
    rcases hmap with ⟨-, shares', hserved, hmap⟩ | ⟨-, hserved⟩
    · obtain rfl := Option.some.inj (hshares.symm.trans hserved)
      exact hmap.whole
    · rw [hserved] at hshares
      cases hshares
  · intro e he hkind hpos
    rcases hmap with ⟨-, shares, hserved, -⟩ | ⟨hzero, -⟩
    · exact ⟨shares, hserved⟩
    · -- A typed track makes the pool positive.
      have hpaid : e.paidTrack := by
        by_contra hnot
        have := (hallocation.each e he).bps_of_unpaid hkind hnot
        omega
      have hnonneg := bps_nonneg hallocation
      have htotal := total_typedTracks hallocation
      rcases (paidTrack_iff (hallocation.each e he)).1 hpaid with heq | heq
      · have := @amount_typedTracks _ hallocation "memory" (by decide) _ (heq ▸ he)
        omega
      · have := @amount_typedTracks _ hallocation "generator" (by decide) _ (heq ▸ he)
        omega
  · intro memoryOnly hmemoryOnly
    have hcompiled : mapInForce memoryOnly = COMPILED_TRACK_SPLIT := by
      simp only [List.mem_cons, List.not_mem_nil, or_false] at hmemoryOnly
      rcases hmemoryOnly with rfl | rfl <;> rfl
    obtain ⟨fallback, hfallback, hamount⟩ := effectiveSplit_memoryOnly hallocation hremainder hcompiled
    refine ⟨fallback, hfallback, ?_⟩
    intro e he hkind
    have hkey : e.key = none := by
      by_contra hne
      exact (hallocation.each e he).burn ⟨hkind, hne⟩
    have hsame := hallocation.eq_of_identity he (mem_of_burn hallocation)
      (by simp only [AllocationEntry.identity, hkind, hkey])
    rw [hamount, hsame]

/-- An allocation with a bucket and a track that is not paid. -/
def sampleAllocation : List AllocationEntry :=
  [⟨KIND_TRACK, some "memory", 3000⟩, ⟨KIND_BURN, none, 5500⟩, ⟨KIND_GAMMA, some "gm", 500⟩,
    ⟨KIND_TRACK, some "generator", 1000⟩, ⟨KIND_TRACK, some "coding", 0⟩]

/-- The fields it is served as. -/
def sampleServed : DerivedServed :=
  ⟨11 / 19, 11 / 19, some [("memory", 7500), ("generator", 2500)], [("gm", 500)]⟩

theorem derived_fields_exact_sample : ∃ canonical split, canonicalEntries sampleAllocation none = .ok canonical ∧
    effectiveSplit (11 / 19) (some [("memory", 7500), ("generator", 2500)]) [("gm", 500)] = .ok split ∧
    (∀ e ∈ canonical, split.amount e.label = e.bps) ∧ split.total = 10000 ∧
    entriesFromSplit split = some (canonical.filter fun e => !unpaid e) := by
  have hserved : deriveServed sampleAllocation = .ok sampleServed := by decide +kernel
  obtain ⟨canonical, split, hcanonical, hsplit, hexact, htotal, hback, -⟩ := derived_fields_exact hserved
  exact ⟨canonical, split, hcanonical, hsplit, hexact, htotal, hback⟩

end Emission

end DittoSubnet.Platform
