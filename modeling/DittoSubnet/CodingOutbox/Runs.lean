import DittoSubnet.CodingOutbox.Recovery

/-!
# Runs of the outbox

Calls, sweeps, restarts and crashes in any order, with any of their file-system steps failing. Of a run is assumed
(`Event.Clean`) that clocks stay within bounds, that nonces and digests do not collide, that no sweep leaves the unlink
of a record unsynced and no install the shard that it makes, and that a commit which is tried again finds the transcript
that it installed stored for good. The store does not look after the last two: an install into a shard that is there
does not sync its parent, and a commit that is tried again syncs nothing.

After every such run the outbox can be opened again (`reopens`). What is stored fits in what is reserved
(`stored_within_limits`) when moreover no reservation is renamed into place and yet answered with an error
(`Event.Counts`), which the store does not count.
-/

namespace DittoSubnet.CodingOutbox

open Kit
open Coding (validSHA256)

section Runs

variable (codec : Codec) (config : Config) (horizon : Int)

/-! ## What is assumed of a run -/

/-- Clocks stay within bounds, calls are clean, and no sweep leaves the unlink of a record unsynced. -/
def Event.Clean (system : System) : Event → Prop
  | .call request now faults => now ≤ horizon ∧ ∀ store, system = .up store → store.Clean codec request faults
  | .sweep now faults => now ≤ horizon ∧ ∀ id, faults.unlink id ≠ .unsynced
  | .open now _ => second ≤ now ∧ now ≤ horizon
  | .close | .stop | .crash _ => True

/-- A reservation whose rename is not answered with success has not renamed anything. -/
def Event.Counts : Event → Prop
  | .call (.reserve _ _) _ faults => faults.persist = .done ∨ faults.persist = .failed
  | _ => True

/-- What an event may do. -/
def Event.scope (event : Event) : Scope where
  frees id := ∃ evidence now faults, event = .call (.release id evidence) now faults
  drops record := ∃ now faults, event = .sweep now faults ∧ record.retired config now
  reserves := ∃ binding limits now faults, event = .call (.reserve binding limits) now faults
  counts := True

/-- What a new process may find. -/
def System.Leaves (system : System) (files : Files) : Prop := files = system.files ∨ system.files.Crashed files

def System.Inv : System → Prop
  | .down files => files.Sound codec config horizon
  | .up store => store.Inv codec config horizon ∧ 0 ≤ config.maxTotalBytes

/-- What the records reserve fits. -/
def System.Fits : System → Prop
  | .down files => reservedIn files.records.files ≤ config.maxTotalBytes
  | .up store => store.Counted config

/-- What one scope allows, the other does. -/
structure Scope.Within (scope scope' : Scope) : Prop where
  frees : ∀ id, scope.frees id → scope'.frees id
  drops : ∀ record, scope.drops record → scope'.drops record
  reserves : scope.reserves → scope'.reserves

variable {codec config horizon}

/-! ## Moves of the files -/

theorem Files.Moves.mono {scope scope' : Scope} {files files' : Files}
    (hmoves : Files.Moves codec config horizon scope files files') (hscope : scope.Within scope') :
    Files.Moves codec config horizon scope' files files' := by
  induction hmoves with
  | refl => exact .refl
  | tail _ hmove ih =>
    refine ih.tail ?_
    cases hmove with
    | objects hrecords hkeeps hhoused => exact .objects hrecords hkeeps hhoused
    | grow synced hold hgrows hgood hfree =>
      exact .grow synced hold hgrows hgood fun hs => (hfree hs).imp_right (hscope.frees _)
    | reserve synced hnone hgood halone hcount hreserves =>
      exact .reserve synced hnone hgood halone hcount (hscope.reserves hreserves)
    | drop hrecord hdrop => exact .drop hrecord (hscope.drops _ hdrop)

theorem Files.Moves.sound {scope : Scope} {files files' : Files} (h : files.Sound codec config horizon)
    (hmoves : Files.Moves codec config horizon scope files files') : files'.Sound codec config horizon := by
  induction hmoves with
  | refl => exact h
  | tail _ hmove ih => exact hmove.sound ih

theorem still_within (scope : Scope) : Scope.still.Within scope :=
  ⟨fun _ hfree => hfree.elim, fun _ hdrop => hdrop.elim, fun hreserve => hreserve.elim⟩

/-- Moves that neither reserve nor delete keep what the records reserve. -/
theorem Files.Moves.reservedIn_eq {files files' : Files}
    (hmoves : Files.Moves codec config horizon .still files files') :
    reservedIn files'.records.files = reservedIn files.records.files := by
  induction hmoves with
  | refl => rfl
  | tail _ hmove ih =>
    rw [← ih]
    cases hmove with
    | objects hrecords hkeeps hhoused => rw [hrecords]
    | grow synced hold hgrows hgood hfree =>
      rw [files_putRecord, reservedIn, Dict.sumRows_set hold, hgrows.reservedBytes, sub_add_cancel]
      rfl
    | reserve synced hnone hgood halone hcount hreserves => exact hreserves.elim
    | drop hrecord hdrop => exact hdrop.elim

theorem Files.Sound.reservedBytes_pos {files : Files} (h : files.Sound codec config horizon) {id : String}
    {record : Record} (hr : files.records.get? id = some record) : 0 < record.reservedBytes :=
  (h.get? hr).sound.fit.known.2.2.2.2.2.2.1

/-- A crash leaves no more reserved. -/
theorem Files.Sound.reservedIn_crashed {files files' : Files} (h : files.Sound codec config horizon)
    (hcrash : files.Crashed files') : reservedIn files'.records.files ≤ reservedIn files.records.files := by
  apply Dict.sumRows_le_of_get? hcrash.records.nodup h.keys
  · intro id record hr
    have hversion : files.records.Version id (some record) := by
      rw [← hr]
      exact hcrash.records.version id
    obtain ⟨current, hcurrent, hgrows⟩ := h.grown id record hversion
    exact ⟨current, hcurrent, hgrows.reservedBytes.ge⟩
  · intro row hrow
    exact (h.reservedBytes_pos (Dict.get?_of_mem h.keys hrow)).le

theorem Store.Inv.reservedIn_files {store : Store} (h : store.Inv codec config horizon) :
    reservedIn store.records = reservedIn store.files.records.files :=
  Dict.sumRows_eq_of_get? _ h.keys h.files.keys h.memory

theorem System.Inv.files {system : System} (h : system.Inv codec config horizon) :
    system.files.Sound codec config horizon := by
  cases system with
  | down files => exact h
  | up store => exact h.1.files

theorem System.Inv.fits {system : System} (h : system.Inv codec config horizon) (hfits : system.Fits config) :
    reservedIn system.files.records.files ≤ config.maxTotalBytes := by
  cases system with
  | down files => exact hfits
  | up store =>
    show reservedIn store.files.records.files ≤ config.maxTotalBytes
    rw [← h.1.reservedIn_files, ← hfits.reserved]
    exact hfits.fits

/-! ## One event -/

/-- What an open store does in an event. -/
def Event.storeScope (config : Config) (event : Event) : Scope :=
  match event with
  | .call request _ faults => request.scope faults.persist
  | .sweep now _ => sweepScope config now
  | .close | .stop | .crash _ | .open _ _ => .still

theorem storeScope_within (event : Event) : (event.storeScope config).Within (event.scope config) := by
  cases event with
  | call request now faults =>
    refine ⟨?_, fun record hdrop => hdrop.elim, ?_⟩
    · rintro id ⟨evidence, rfl⟩
      exact ⟨evidence, now, faults, rfl⟩
    · rintro ⟨binding, limits, rfl⟩
      exact ⟨binding, limits, now, faults, rfl⟩
  | sweep now faults =>
    exact ⟨fun id hfree => hfree.elim, fun record hdrop => ⟨now, faults, rfl, hdrop⟩, fun hreserve => hreserve.elim⟩
  | _ => exact still_within _

theorem storeScope_counts {event : Event} (h : event.Counts) : (event.storeScope config).counts := by
  cases event with
  | call request now faults =>
    rintro ⟨binding, limits, rfl⟩
    exact h
  | _ => trivial

/-- What an event does to an open store, unless it ends the process. -/
theorem up_moves {store store' : Store} (h : store.Inv codec config horizon) (hmax : 0 ≤ config.maxTotalBytes)
    {event : Event} (hclean : event.Clean codec horizon (.up store))
    (hstep : System.step codec config (.up store) event = .up store') :
    Store.Moves codec config horizon (event.storeScope config) store store' := by
  cases event with
  | call request now faults =>
    cases hstep
    exact call_moves h hclean.1 (hclean.2 store rfl)
  | sweep now faults =>
    cases hstep
    exact Sweep_moves h hmax hclean.1 hclean.2
  | close =>
    cases hstep
    exact h.aside rfl rfl rfl rfl rfl rfl (fun h => h) h.writers
  | stop => cases hstep
  | crash files => cases hstep
  | «open» now faults =>
    cases hstep
    exact .refl

/-- An event that is no crash is done to the files by moves, and it keeps the invariant. -/
theorem step_spec {system : System} (h : system.Inv codec config horizon) {event : Event}
    (hclean : event.Clean codec horizon system) (hcrash : ∀ files, event ≠ .crash files) :
    Files.Moves codec config horizon (event.scope config) system.files (system.step codec config event).files ∧
      (system.step codec config event).Inv codec config horizon := by
  cases system with
  | down files =>
    cases event with
    | crash files' => exact absurd rfl (hcrash files')
    | «open» now faults =>
      obtain ⟨hmoves, hopened⟩ := Open_spec h hclean.1 hclean.2 faults
      have hmoves' := hmoves.mono (still_within (Event.scope config (.open now faults)))
      simp only [System.step]
      split
      · rename_i store heq
        rw [heq] at hmoves'
        obtain ⟨hinv, -, hmax⟩ := hopened store heq
        exact ⟨hmoves', hinv, hmax⟩
      · rename_i store e heq
        rw [heq] at hmoves'
        exact ⟨hmoves', hmoves'.sound h⟩
    | _ => exact ⟨.refl, h⟩
  | up store =>
    obtain ⟨hinv, hmax⟩ := h
    cases hstep : System.step codec config (.up store) event with
    | up store' =>
      have hmoves := up_moves hinv hmax hclean hstep
      exact ⟨(Store.Moves.files hinv hmoves).mono (storeScope_within event), Store.Moves.inv hinv hmoves, hmax⟩
    | down files' =>
      cases event with
      | stop =>
        cases hstep
        exact ⟨.refl, hinv.files⟩
      | crash files' => exact absurd rfl (hcrash files')
      | _ => cases hstep

theorem step_inv {system : System} (h : system.Inv codec config horizon) {event : Event}
    (hpossible : event.possible system) (hclean : event.Clean codec horizon system) :
    (system.step codec config event).Inv codec config horizon := by
  cases event with
  | crash files =>
    have hsound := h.files.crashed hpossible
    cases system <;> exact hsound
  | _ => exact (step_spec h hclean (by simp)).2

theorem step_fits {system : System} (h : system.Inv codec config horizon) (hfits : system.Fits config) {event : Event}
    (hpossible : event.possible system) (hclean : event.Clean codec horizon system) (hcounts : event.Counts) :
    (system.step codec config event).Fits config := by
  cases event with
  | crash files =>
    have hle := (h.files.reservedIn_crashed hpossible).trans (h.fits hfits)
    cases system <;> exact hle
  | stop =>
    have hle := h.fits hfits
    cases system <;> exact hle
  | «open» now faults =>
    cases system with
    | up store => exact hfits
    | down files =>
      obtain ⟨hmoves, hopened⟩ := Open_spec h hclean.1 hclean.2 faults
      simp only [System.step]
      split
      · rename_i store heq
        exact (hopened store heq).2.1
      · rename_i store e heq
        rw [heq] at hmoves
        show reservedIn store.files.records.files ≤ config.maxTotalBytes
        rw [hmoves.reservedIn_eq]
        exact hfits
  | _ =>
    cases system with
    | down files => exact hfits
    | up store => exact Store.Moves.counted h.1 (storeScope_counts hcounts) hfits (up_moves h.1 h.2 hclean rfl)

/-! ## Runs -/

/-- What holds at first and is kept by every event holds after a run. -/
theorem System.Runs.keeps {P : System → Event → Prop} {I : System → Prop}
    (hstep : ∀ system event, I system → event.possible system → P system event → I (system.step codec config event)) :
    ∀ {events : List Event} {system : System}, I system → system.Runs codec config P events →
      I (system.after codec config events) := by
  intro events
  induction events with
  | nil => exact fun h _ => h
  | cons event events ih =>
    intro system h hrun
    exact ih (hstep system event h hrun.1 hrun.2.1) hrun.2.2

theorem System.after_append (system : System) (events later : List Event) :
    system.after codec config (events ++ later) = (system.after codec config events).after codec config later :=
  List.foldl_append

theorem System.Runs_append {P : System → Event → Prop} (later : List Event) :
    ∀ {events : List Event} {system : System}, system.Runs codec config P (events ++ later) →
      system.Runs codec config P events ∧ (system.after codec config events).Runs codec config P later := by
  intro events
  induction events with
  | nil => exact fun hrun => ⟨trivial, hrun⟩
  | cons event events ih =>
    rintro system ⟨hpossible, hp, hrun⟩
    obtain ⟨hevents, hlater⟩ := ih hrun
    exact ⟨⟨hpossible, hp, hevents⟩, hlater⟩

theorem System.Runs.append {P : System → Event → Prop} {later : List Event} :
    ∀ {events : List Event} {system : System}, system.Runs codec config P events →
      (system.after codec config events).Runs codec config P later → system.Runs codec config P (events ++ later) := by
  intro events
  induction events with
  | nil => exact fun _ hlater => hlater
  | cons event events ih => exact fun hrun hlater => ⟨hrun.1, hrun.2.1, ih hrun.2.2 hlater⟩

theorem System.Runs.and {P : System → Event → Prop} {q : Event → Prop} :
    ∀ {events : List Event} {system : System}, system.Runs codec config P events → (∀ event ∈ events, q event) →
      system.Runs codec config (fun system event => P system event ∧ q event) events := by
  intro events
  induction events with
  | nil => exact fun hrun _ => hrun
  | cons event events ih =>
    rintro system ⟨hpossible, hp, hrun⟩ hq
    exact ⟨hpossible, ⟨hp, hq event (by simp)⟩, ih hrun fun event hevent => hq event (by simp [hevent])⟩

theorem System.Runs.mono {P Q : System → Event → Prop} (h : ∀ system event, P system event → Q system event) :
    ∀ {events : List Event} {system : System}, system.Runs codec config P events →
      system.Runs codec config Q events := by
  intro events
  induction events with
  | nil => exact fun hrun => hrun
  | cons event events ih => exact fun hrun => ⟨hrun.1, h _ _ hrun.2.1, ih hrun.2.2⟩

theorem empty_sound (codec : Codec) (config : Config) (horizon : Int) :
    Files.empty.Sound codec config horizon where
  keys := List.nodup_nil
  good := by
    rintro id record (h | h) <;> cases h
  grown := by
    rintro id record (h | h) <;> cases h
  alone := by
    rintro id id' record record' ⟨⟩
  count := Nat.zero_le _
  housed := ⟨by rintro digest object ⟨⟩, rfl⟩

theorem Runs_inv {events : List Event}
    (hrun : (System.down .empty).Runs codec config (Event.Clean codec horizon) events) :
    ((System.down .empty).after codec config events).Inv codec config horizon :=
  System.Runs.keeps (I := System.Inv codec config horizon) (fun _ _ h hpossible hclean => step_inv h hpossible hclean)
    (empty_sound codec config horizon) hrun

theorem Leaves_sound {system : System} (h : system.Inv codec config horizon) {files : Files}
    (hleaves : system.Leaves files) : files.Sound codec config horizon := by
  rcases hleaves with rfl | hcrash
  · exact h.files
  · exact h.files.crashed hcrash

/-- Whatever happened, the outbox is opened again when the reservations of what is left fit. The store then holds the
records of the disk, with those of attempts that cannot be continued expired. -/
theorem reopens {events : List Event} {files : Files} {now : Int} {faults : OpenFaults} (hvalid : config.Valid)
    (hrun : (System.down .empty).Runs codec config (Event.Clean codec horizon) events)
    (hleaves : ((System.down .empty).after codec config events).Leaves files) (hclean : faults.Clean)
    (hsecond : second ≤ now) (hnow : horizon ≤ now)
    (hlength : ∀ id record, files.records.get? id = some record → record.abandoned config now →
      codec.length ((record.expire now).stampedAt codec now) ≤ maximumRecordBytes)
    (hlimit : files.staging.length + files.objects.files.length ≤ physicalLimit config)
    (hfits : reservedIn files.records.files ≤ config.maxTotalBytes) :
    ∃ store, files.Open codec config now faults = (store, .ok ()) ∧
      ∀ id, Dict.get? store.records id =
        (files.records.get? id).map fun record => record.recovered codec config now := by
  have hsound := Leaves_sound (Runs_inv hrun) hleaves
  refine Open_succeeds hsound hvalid hclean hsecond hnow (fun id record hr => ?_) hfits hlimit
  unfold Record.recovered
  split
  · rename_i habandoned
    exact hlength id record hr habandoned
  · exact (hsound.get? hr).length

/-! ## Sample runs -/

/-- The start of 2026. -/
def sampleNow : Int := 1767225600 * second

def sampleBinding : Binding where
  purpose := .certification
  executionID := "certification-1"
  agentArtifactSHA256 := "aaaaaaaaaaaaaaaaaaaaaaaaaaaaaaaaaaaaaaaaaaaaaaaaaaaaaaaaaaaaaaaa"
  harnessInstanceID := "harness-1"
  authoritySHA256 := "bbbbbbbbbbbbbbbbbbbbbbbbbbbbbbbbbbbbbbbbbbbbbbbbbbbbbbbbbbbbbbbb"
  harnessAuthoritySHA256 := ""
  screenedImageSHA256 := ""
  ticketID := "33333333-3333-4333-8333-333333333331"
  caseID := "case-1"
  profileCapabilityID := "profile-1"
  deadline := sampleNow + hour

/-- The binding of a second attempt, whose deadline is later. -/
def laterBinding : Binding :=
  { sampleBinding with
    executionID := "certification-2"
    ticketID := "33333333-3333-4333-8333-333333333332"
    caseID := "case-2"
    deadline := sampleNow + 2 * hour }

/-- A transcript of one event, an empty object. -/
def sampleBody : Bytes := [123, 125, 10]

def sampleTranscript : TranscriptArtifact :=
  ⟨"sha256/ca3d163bab055381827226140568f3bef7eaac187cebd76878e0b63e9e442356",
    "ca3d163bab055381827226140568f3bef7eaac187cebd76878e0b63e9e442356", 3, 1⟩

/-- The documents of the sample runs have the digests and lengths of their JSON. -/
def sampleDigest : Document → String
  | .bindingID _ executionID _ _ _ =>
    if executionID = laterBinding.executionID then "d3d9a958b2bef457759dc445fbf9e7856d907159c9126cf301c13bbf125819f9"
    else "638e67cca1eea679ca54f12b469d24ccd4fae4fd921ee20fc906d8aef8ea86df"
  | .binding binding =>
    if binding = laterBinding then "24e34f153671a795bdb43bd9f51897757d0230c3303ceb7f50fce109fad91bc5"
    else "4134b848a5533e167dd07b73259e9efb11fcc37e935a2dcd2a83f0982c48eb32"
  | .record record =>
    if record.binding = laterBinding then "7a1fc3cf64f4935dde2e06f278706412d7d7da05f6df01dfd7b6e2d40edd6b69"
    else
      match record.state, record.transcript with
      | .reserved, _ => "ae46fbbf69865fa97c04f767a2ceb97cbf8f372830feadfb019f2e1f4982206e"
      | .collecting, none => "99050989756aed722baa73991f9e1b7385fdbed800233b479e4526a0afc23cac"
      | .collecting, some _ => "3cf8c4e43935d500df87b66628777e8b5d704896adc515b478a4587d5833da56"
      | .terminalWithoutPatch, _ => "7761be05683522903aa51ccf0e2a9f2677eb14c56f9d6a57ea232e61a870739a"
      | _, _ => "ba672046152f7b25fae0700c091df8d90763a11c3a48421da3afbdb4ba627835"
  | .outcome _ => "d0c29adbea33ffa6b865410ee9a79b0f98a63e0d802a71646be66e51bdc4a03b"
  | .paths _ => "e3b0c44298fc1c149afbf4c8996fb92427ae41e4649b934ca495991b7852b855"

theorem sampleDigest_valid (document : Document) : validSHA256 (sampleDigest document) = true := by
  cases document with
  | bindingID => simp only [sampleDigest]; split <;> decide
  | binding => simp only [sampleDigest]; split <;> decide
  | record =>
    simp only [sampleDigest]
    split
    · decide
    · split <;> decide
  | outcome => simp only [sampleDigest]; decide
  | paths => simp only [sampleDigest]; decide

def sampleLength (record : Record) : Nat :=
  match record.state, record.transcript with
  | .reserved, _ => 1170
  | .collecting, none => 1283
  | .collecting, some _ => 1376
  | .terminalWithoutPatch, _ => 2162
  | _, _ => 1402

theorem sampleLength_within (record : Record) : 0 < sampleLength record ∧ sampleLength record ≤ maximumRecordBytes := by
  unfold sampleLength
  split <;> decide

def sampleCodec : Codec where
  sha256 body :=
    if body = sampleBody then sampleTranscript.sha256
    else "e3b0c44298fc1c149afbf4c8996fb92427ae41e4649b934ca495991b7852b855"
  digest := sampleDigest
  sha256_valid body := by
    split <;> decide
  digest_valid := sampleDigest_valid
  length := sampleLength
  length_pos record := (sampleLength_within record).1
  patch _ _ _ _ _ _ := []
  documentOk _ _ := false
  authoringRequest _ := none
  terminalRequest _ := none
  authoringAcknowledgement _ := none
  terminalAcknowledgement _ := none

theorem sampleCodec_length (record : Record) : sampleCodec.length record ≤ maximumRecordBytes :=
  (sampleLength_within record).2

def sampleConfig : Config := ⟨2 ^ 30, 64, minute, minute, minute, minute⟩

/-- `DefaultLimits`. -/
def sampleLimits : Limits :=
  ⟨512 * 2 ^ 20, 2 ^ 30, 32 * 2 ^ 20, 32 * 2 ^ 20, 50000, 256, 32 * 2 ^ 10, 256 * 2 ^ 10, 100, 64 * 2 ^ 20,
    128 * 2 ^ 20⟩

def sampleFaults : Faults :=
  ⟨true, ⟨"00000000000000000000000000000000", by decide⟩, ⟨"00000000000000000000000000000001", by decide⟩, none, true,
    ⟨.done, .done⟩, .done, []⟩

def sampleRecord : Record :=
  (newRecord sampleCodec sampleBinding sampleLimits sampleNow).stampedAt sampleCodec sampleNow

def laterRecord : Record :=
  (newRecord sampleCodec laterBinding sampleLimits sampleNow).stampedAt sampleCodec sampleNow

/-- The first record when its transcript is committed. -/
def transcribedRecord : Record :=
  ((sampleRecord.collect "" "").transcribed sampleTranscript).stampedAt sampleCodec sampleNow

def sampleBegin : Request := .beginTranscript sampleRecord.id
def sampleWrite : Request := .write 0 sampleBody
def sampleCommit : Request := .commit 0 ⟨sampleTranscript.sha256, 3, 1⟩

/-- The outbox is opened and two attempts are reserved in it. -/
def reservedEvents : List Event :=
  [.open sampleNow ⟨fun _ => true, fun _ => .done, true⟩,
    .call (.reserve sampleBinding sampleLimits) sampleNow sampleFaults,
    .call (.reserve laterBinding sampleLimits) sampleNow sampleFaults]

def writtenEvents : List Event :=
  reservedEvents ++ [.call sampleBegin sampleNow sampleFaults, .call sampleWrite sampleNow sampleFaults]

/-- The transcript of the first attempt is written and committed. -/
def sampleEvents : List Event := writtenEvents ++ [.call sampleCommit sampleNow sampleFaults]

def reservedStore : Store where
  files := ⟨⟨[(sampleRecord.id, sampleRecord), (laterRecord.id, laterRecord)], []⟩, .empty, .empty, []⟩
  records := [(sampleRecord.id, sampleRecord), (laterRecord.id, laterRecord)]
  reserved := sampleRecord.reservedBytes + laterRecord.reservedBytes
  orphanBytes := 0
  physicalKnown := true
  lastNow := sampleNow
  closed := false
  writers := []

def writtenStore : Store :=
  ((reservedStore.call sampleCodec sampleConfig sampleBegin sampleNow sampleFaults).1.call sampleCodec sampleConfig
    sampleWrite sampleNow sampleFaults).1

def sampleStore : Store := (writtenStore.call sampleCodec sampleConfig sampleCommit sampleNow sampleFaults).1

/-- What a crash leaves of the sample run. -/
def sampleFiles : Files where
  records := ⟨[(transcribedRecord.id, transcribedRecord), (laterRecord.id, laterRecord)], []⟩
  shards := ⟨[(shardOf sampleTranscript.sha256, ())], []⟩
  objects := ⟨[(sampleTranscript.sha256, ⟨sampleBody, sampleNow⟩)], []⟩
  staging := []

theorem after_reservedEvents :
    (System.down .empty).after sampleCodec sampleConfig reservedEvents = .up reservedStore := by
  decide +kernel

theorem after_writtenEvents :
    (System.down .empty).after sampleCodec sampleConfig writtenEvents = .up writtenStore := by
  unfold writtenEvents
  rw [System.after_append, after_reservedEvents]
  rfl

theorem after_sampleEvents : (System.down .empty).after sampleCodec sampleConfig sampleEvents = .up sampleStore := by
  unfold sampleEvents
  rw [System.after_append, after_writtenEvents]
  rfl

theorem writtenStore_writers : ∀ writer ∈ writtenStore.writers, writer.installed = false := by
  decide +kernel

theorem sampleStore_files : sampleStore.files = sampleFiles := by
  decide +kernel

theorem sampleEvents_runs : (System.down .empty).Runs sampleCodec sampleConfig
    (fun system event => event.Clean sampleCodec sampleNow system ∧ event.Counts) sampleEvents := by
  have hshard : sampleFaults.install.shard ≠ .unsynced := by decide
  have hbegin : ∀ store, (System.down .empty).after sampleCodec sampleConfig reservedEvents = .up store →
      store.Clean sampleCodec sampleBegin sampleFaults := by
    intro store hstore
    refine ⟨hshard, fun writer hwriter => ?_⟩
    obtain rfl := System.up.inj (after_reservedEvents.symm.trans hstore)
    cases hwriter
  have hcommit : ∀ store, (System.down .empty).after sampleCodec sampleConfig writtenEvents = .up store →
      store.Clean sampleCodec sampleCommit sampleFaults := by
    intro store hstore
    refine ⟨hshard, fun writer hwriter hinstalled => ?_⟩
    obtain rfl := System.up.inj (after_writtenEvents.symm.trans hstore)
    cases (writtenStore_writers writer (List.mem_of_getElem? hwriter)).symm.trans hinstalled
  exact ⟨trivial, ⟨⟨by decide, le_rfl⟩, trivial⟩, trivial, ⟨⟨le_rfl, fun _ _ => ⟨hshard, trivial⟩⟩, .inl rfl⟩, trivial,
    ⟨⟨le_rfl, fun _ _ => ⟨hshard, trivial⟩⟩, .inl rfl⟩, trivial, ⟨⟨le_rfl, hbegin⟩, trivial⟩, trivial,
    ⟨⟨le_rfl, fun _ _ => ⟨hshard, trivial⟩⟩, trivial⟩, trivial, ⟨⟨le_rfl, hcommit⟩, trivial⟩, trivial⟩

theorem sampleFiles_housed : sampleFiles.Housed := by
  refine ⟨fun digest object hobject => ?_, rfl⟩
  obtain ⟨rfl, -⟩ : sampleTranscript.sha256 = digest ∧ _ = object := by
    simpa [sampleFiles, Directory.get?, Dict.get?] using hobject
  decide

theorem sampleFiles_left : ((System.down .empty).after sampleCodec sampleConfig sampleEvents).Leaves sampleFiles := by
  right
  rw [after_sampleEvents]
  show sampleStore.files.Crashed sampleFiles
  rw [sampleStore_files]
  exact sampleFiles_housed.crashed ⟨rfl, by decide, fun id => .inl rfl⟩ ⟨rfl, by decide, fun shard => .inl rfl⟩
    ⟨rfl, by decide, fun digest => .inl rfl⟩

/-- The machine crashes after the commit, and the outbox is opened again when the deadline of the first attempt has
passed. -/
theorem reopens_sample :
    ∃ store, sampleFiles.Open sampleCodec sampleConfig (sampleNow + 90 * minute) ⟨fun _ => true, fun _ => .done, true⟩ =
        (store, .ok ()) ∧
      ∀ id, Dict.get? store.records id =
        (sampleFiles.records.get? id).map fun record =>
          record.recovered sampleCodec sampleConfig (sampleNow + 90 * minute) :=
  reopens (by decide) (sampleEvents_runs.mono fun _ _ h => h.1) sampleFiles_left ⟨fun _ => rfl, fun _ => rfl, rfl⟩
    (by decide) (by decide) (fun _ _ _ _ => sampleCodec_length _) (by decide) (by decide +kernel)

/-! ## What is stored -/

/-- The bytes of a stored object. -/
def Files.size (files : Files) (digest : String) : Nat :=
  (files.objects.get? digest).elim 0 fun object => object.body.length

/-- The bytes of a record file and of the objects that it refers to. -/
def Files.storedBytes (codec : Codec) (files : Files) (record : Record) : Nat :=
  codec.length record + (record.references.map files.size).sum

theorem Files.Holds.size_eq {files : Files} {digest : String} {size : Nat} {p : Bytes → Prop}
    (h : files.Holds codec digest fun body => body.length = size ∧ p body) : files.size digest = size := by
  obtain ⟨object, hobject, -, hlength, -⟩ := h.get?
  unfold Files.size
  rw [hobject]
  exact hlength

theorem Files.Good.publication_size {files : Files} {id : String} {record : Record}
    (h : files.Good codec horizon id record) (stage : PublicationStage) :
    ((publicationReferences (publicationForStage record stage)).map files.size).sum ≤
      maximumPublicationRequestBytes + maximumPublicationAckBytes := by
  cases hp : publicationForStage record stage with
  | none => exact Nat.zero_le _
  | some p =>
    obtain ⟨hrequest, hack⟩ := h.supported.publication stage p hp
    obtain ⟨-, -, -, -, -, -, -, hshape, hackShape⟩ := h.sound.fit.publicationShape hp
    have hrequestSize : files.size p.request.sha256 ≤ maximumPublicationRequestBytes := by
      rw [hrequest.size_eq]
      exact hshape.2.2.2
    cases ha : p.acknowledgement with
    | none => simp [publicationReferences, ha]; omega
    | some artifact =>
      have hackSize : files.size artifact.sha256 ≤ maximumPublicationAckBytes := by
        unfold validAcknowledgementShape at hackShape
        rw [ha] at hackShape
        rw [(hack artifact ha).size_eq]
        exact hackShape.1.2.2.2
      simp [publicationReferences, ha]
      omega

/-- Certifications publish nothing. -/
theorem Record.Fit.unpublished {record : Record} {id : String} (h : record.Fit codec id)
    (hpurpose : record.binding.purpose = .certification) (stage : PublicationStage) :
    publicationForStage record stage = none := by
  cases hp : publicationForStage record stage with
  | none => rfl
  | some publication =>
    obtain ⟨hauthoring, hterminal⟩ := (h.published (h.sealed_of_publication hp)).certification hpurpose
    cases stage with
    | authoringFreeze => cases hauthoring.symm.trans hp
    | terminalResult => cases hterminal.symm.trans hp

/-- A record and its objects take no more than the record reserves. -/
theorem Files.Good.storedBytes_le {files : Files} {id : String} {record : Record}
    (h : files.Good codec horizon id record) : (files.storedBytes codec record : Int) ≤ record.reservedBytes := by
  have hfit := h.sound.fit
  have hlimits := hfit.limits.1
  have htranscript : ((((record.transcript.map TranscriptArtifact.sha256).toList.map files.size).sum : Nat) : Int) ≤
      record.limits.maxTranscriptBytes := by
    cases ht : record.transcript with
    | none =>
      simp
      omega
    | some transcript =>
      have hsize := ((h.supported.transcript transcript ht).imp
        (q := fun body => body.length = transcript.sizeBytes ∧ True) fun _ hp => ⟨hp, trivial⟩).size_eq
      simpa [hsize] using (hfit.transcript transcript ht).2.2
  have hfrozen : ((((record.frozen.map (·.artifact.frozenPatchSHA256)).toList.map files.size).sum : Nat) : Int) ≤
      record.limits.maxPatchBytes := by
    cases hf : record.frozen with
    | none =>
      simp
      omega
    | some frozen =>
      have hsize := ((h.supported.frozen frozen hf).imp
        (q := fun body => body.length = frozen.artifact.sizeBytes ∧ True) fun _ hp => ⟨hp, trivial⟩).size_eq
      simpa [hsize] using (hfit.frozen frozen hf).2.2.2.1
  have hauthoring := h.publication_size .authoringFreeze
  have hterminal := h.publication_size .terminalResult
  have hlength := h.length
  have hreserved := hfit.known.2.2.2.2.2.1
  have hstored : files.storedBytes codec record = codec.length record +
      (((record.transcript.map TranscriptArtifact.sha256).toList.map files.size).sum +
        ((record.frozen.map (·.artifact.frozenPatchSHA256)).toList.map files.size).sum +
        ((publicationReferences (publicationForStage record .authoringFreeze)).map files.size).sum +
        ((publicationReferences (publicationForStage record .terminalResult)).map files.size).sum) := by
    unfold Files.storedBytes Record.references
    simp only [List.map_append, List.sum_append]
    rfl
  rw [hstored, hreserved]
  cases hpurpose : record.binding.purpose with
  | shadowAttempt =>
    simp only [reservationForPurpose, reservationForLimits, recordReserveBytes, publicationReserveBytes,
      maximumRecordBytes, maximumPublicationRequestBytes, maximumPublicationAckBytes] at *
    omega
  | certification =>
    rw [hfit.unpublished hpurpose, hfit.unpublished hpurpose]
    simp only [reservationForPurpose, reservationForLimits, recordReserveBytes, maximumRecordBytes,
      publicationReferences, List.map_nil, List.sum_nil] at *
    omega

theorem Runs_fits (hvalid : config.Valid) {events : List Event}
    (hrun : (System.down .empty).Runs codec config
      (fun system event => event.Clean codec horizon system ∧ event.Counts) events) :
    ((System.down .empty).after codec config events).Inv codec config horizon ∧
      ((System.down .empty).after codec config events).Fits config := by
  refine System.Runs.keeps (I := fun system => system.Inv codec config horizon ∧ system.Fits config) ?_
    ⟨empty_sound codec config horizon, hvalid.1.le⟩ hrun
  intro system event h hpossible hclean
  exact ⟨step_inv h.1 hpossible hclean.1, step_fits h.1 h.2 hpossible hclean.1 hclean.2⟩

/-- What the records and their objects take never exceeds the size of the root, and there is one record at most of each
execution, whatever happened. -/
theorem stored_within_limits {events : List Event} {files : Files} (hvalid : config.Valid)
    (hrun : (System.down .empty).Runs codec config
      (fun system event => event.Clean codec horizon system ∧ event.Counts) events)
    (hleaves : ((System.down .empty).after codec config events).Leaves files) :
    Dict.sumRows (fun _ record => (files.storedBytes codec record : Int)) files.records.files ≤ config.maxTotalBytes ∧
      files.records.files.length ≤ config.maxAttempts ∧
      ∀ left ∈ files.records.files, ∀ right ∈ files.records.files, left.2.SameExecution right.2 → left = right := by
  obtain ⟨hinv, hfits⟩ := Runs_fits hvalid hrun
  have hsound := Leaves_sound hinv hleaves
  have hget : ∀ row ∈ files.records.files, files.records.get? row.1 = some row.2 :=
    fun row hrow => Dict.get?_of_mem hsound.keys hrow
  refine ⟨?_, hsound.count, fun left hleft right hright hsame => ?_⟩
  · calc Dict.sumRows (fun _ record => (files.storedBytes codec record : Int)) files.records.files
        ≤ reservedIn files.records.files :=
          Dict.sumRows_le_sumRows fun row hrow => (hsound.get? (hget row hrow)).storedBytes_le
      _ ≤ config.maxTotalBytes := by
          rcases hleaves with rfl | hcrash
          · exact hinv.fits hfits
          · exact (hinv.files.reservedIn_crashed hcrash).trans (hinv.fits hfits)
  · have hid := hsound.alone left.1 right.1 left.2 right.2 (hget left hleft) (hget right hright) hsame
    have hrecord := hget left hleft
    rw [hid, hget right hright] at hrecord
    exact Prod.ext hid (Option.some.inj hrecord).symm

theorem stored_within_limits_sample :
    Dict.sumRows (fun _ record => (sampleFiles.storedBytes sampleCodec record : Int)) sampleFiles.records.files ≤
        sampleConfig.maxTotalBytes ∧
      sampleFiles.records.files.length ≤ sampleConfig.maxAttempts ∧
      ∀ left ∈ sampleFiles.records.files, ∀ right ∈ sampleFiles.records.files,
        left.2.SameExecution right.2 → left = right :=
  stored_within_limits (by decide) sampleEvents_runs sampleFiles_left

end Runs

end DittoSubnet.CodingOutbox
