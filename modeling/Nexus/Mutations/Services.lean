/-
The services behind the replay ledger: surface commands, Links, Lectern
commands and consumption commands. No two share a scope, so each has its own
part of the ledger.

Each is exactly-once, whatever else happens to its rows. What the ledger does
not promise is the first answer: a replay is answered from the memo as the
rows are now. The surface of a source has to be visible still, and a
consumption command reads the Lectern, the next item and the progress anew.
-/
import Nexus.Consumption.Commands
import Nexus.Graph.UserRelations
import Nexus.Mutations.ExactlyOnce
import Nexus.Surfaces.Commands

namespace Nexus.Mutations
open ExceptFacts Consumption Graph Surfaces

/-! ## Surfaces -/

section Surfaces

variable {B : Type} [NoteBody B] [DecidableEq B]

/-- What `execute_surface_command` checks before it looks for a memo. -/
def surfaceGuard (call : SurfaceCall B) : Except Abort Unit := do
  assertRefVisible call.env.toGraphView call.source
  if !resourceCanOwnOrderedAdjacency call.source then .error (invalidRequest "Resource cannot own a surface")
  else .ok ()

theorem run_surface_eq_ok {coll : Collation} {sha : Sha256} {call : SurfaceCall B} {s : SurfaceState B}
    {r : SurfaceState B × SurfaceOut} : call.run coll sha s = .ok r ↔
      surfaceGuard call = .ok () ∧
        memoized sha (surfaceKey call.viewerId call.source call.request.clientMutationId) call.request.requestBytes
          (fun _ response => .ok response) (applySurfaceRequest coll call.env call.viewerId call.source call.request)
          (s.rows, s.mutations) = .ok ((r.1.rows, r.1.mutations), r.2) := by
  simp only [SurfaceCall.run, executeSurfaceCommand, surfaceGuard, bind_eq_ok, check_eq_ok, map_eq_ok]
  constructor
  · rintro ⟨u, hvisible, hadjacency, m, hrun, rfl⟩
    exact ⟨⟨u, hvisible, hadjacency, trivial⟩, hrun⟩
  · rintro ⟨⟨u, hvisible, hadjacency, -⟩, hrun⟩
    exact ⟨u, hvisible, hadjacency, _, hrun, rfl⟩

/-- `execute_surface_command` -/
def surfaceService (coll : Collation) (sha : Sha256) :
    LedgerService sha (SurfaceCall B) (SurfaceRows B) SurfaceOut SurfaceOut where
  key call := surfaceKey call.viewerId call.source call.request.clientMutationId
  requestBytes call := call.request.requestBytes
  answer call _ response := do
    surfaceGuard call
    .ok response
  fresh call rows := do
    surfaceGuard call
    applySurfaceRequest coll call.env call.viewerId call.source call.request rows
  run call s := (call.run coll sha ⟨s.1, s.2⟩).map fun r => ((r.1.rows, r.1.mutations), r.2)
  run_ok call s r := by
    rw [map_eq_ok]
    refine Iff.trans ?_ (guarded_memoized_eq_ok (σ := SurfaceRows B))
    constructor
    · rintro ⟨m, hrun, rfl⟩
      exact run_surface_eq_ok.1 hrun
    · rintro h
      exact ⟨(⟨r.1.1, r.1.2⟩, r.2), run_surface_eq_ok.2 h, rfl⟩

end Surfaces

/-! ## Links -/

structure LinkCall where
  viewerId : Uuid
  env : LinkEnv
  request : CreateLinkRequest

/-- `create_link` -/
def linkService (sha : Sha256) : LedgerService sha LinkCall Edges CreateLinkOut CreateLinkOut where
  key call := linkKey call.viewerId call.request
  requestBytes call := call.request.requestBytes
  answer _ _ response := .ok response
  fresh call edges := applyCreateLink call.env call.viewerId call.request edges
  run call s := (createLink sha call.env call.viewerId call.request ⟨s.1, s.2⟩).map fun r =>
    ((r.1.edges, r.1.mutations), r.2)
  run_ok call s r := by
    simp only [createLink, map_eq_ok]
    constructor
    · rintro ⟨_, ⟨m, hrun, rfl⟩, rfl⟩
      exact hrun
    · exact fun hrun => ⟨_, ⟨r, hrun, rfl⟩, rfl⟩

/-! ## Consumption -/

section Consumption

variable (R F L : Type) [Fraction F] [SqlReal R F] [ReaderLocator L F] (sha : Sha256)

/-- `run_lectern_command` -/
def lecternService : LedgerService sha (CommandCall LecternCommand) (ConsumptionStore R F L) LecternOutcome
    (LecternResult F) where
  key call := ⟨call.viewerId, lecternScope, call.clientMutationId⟩
  requestBytes call := call.requestBytes
  answer call store outcome := .ok ⟨outcome, getLectern call.env call.viewerId store⟩
  fresh call store := do
    let (lectern, outcome) ← store.lectern.applyLecternCommand call.env.toMediaView call.viewerId call.command
    let store := { store with lectern }
    .ok (store, outcome, ⟨outcome, getLectern call.env call.viewerId store⟩)
  run call s := runLecternCommand sha call s
  run_ok _ _ _ := Iff.rfl

/-- `run_consumption_command` -/
def consumptionService : LedgerService sha (CommandCall (ConsumptionCommand F)) (ConsumptionStore R F L)
    ConsumptionEffect (ConsumptionResult F L) where
  key call := ⟨call.viewerId, consumptionScope, call.clientMutationId⟩
  requestBytes call := call.requestBytes
  answer call store memo := buildConsumptionResult call.env call.viewerId call.command store memo
  fresh call store := do
    let (store, effect) ← applyConsumptionCommand call.env call.viewerId store call.command
    let result ← buildConsumptionResult call.env call.viewerId call.command store effect
    .ok (store, effect, result)
  run call s := runConsumptionCommand sha call s
  run_ok _ _ _ := Iff.rfl

end Consumption

/-- **Client mutations are exactly-once**, in any run of any of the services:
applied at most once for each memo, repeated without a write, refused for
another request, and none the worse for a call that failed. -/
theorem client_mutations_exactly_once (coll : Collation) (sha : Sha256) (B R F L : Type) [NoteBody B] [DecidableEq B]
    [Fraction F] [SqlReal R F] [ReaderLocator L F] :
    (surfaceService (B := B) coll sha).ExactlyOnce ∧ (linkService sha).ExactlyOnce ∧
      (lecternService R F L sha).ExactlyOnce ∧ (consumptionService R F L sha).ExactlyOnce :=
  ⟨(surfaceService coll sha).exactlyOnce, (linkService sha).exactlyOnce, (lecternService R F L sha).exactlyOnce,
    (consumptionService R F L sha).exactlyOnce⟩

/-! ### An answer that changes -/

/-- Media 1 and 2, two documents anyone may read, whose rows are 11 and 12. -/
def sampleEnv : ConsumptionEnv where
  now := 0
  visible _ := true
  canRead _ := true
  tearingDown _ := false
  kind m := if m = 1 ∨ m = 2 then .some .epub else .none
  newItemId m := m + 10
  readable _ := true
  durationSeconds _ := .none
  externalPlaybackUrl _ := .none
  canonicalSourceUrl _ := .none
  newCompletionId m := m + 20
  sealCompletion _ := "ncc1".toList
  unsealCompletion _ := .none

def sampleFinish : CommandCall (ConsumptionCommand Permille) where
  viewerId := 1
  clientMutationId := "00000000-0000-0000-0000-0000000000c1".toList
  requestBytes := ascii ("\x7b\"clientMutationId\":\"00000000-0000-0000-0000-0000000000c1\",\"itemId\":\"00000000-0000" ++
    "-0000-0000-00000000000b\",\"kind\":\"FinishLecternItem\",\"mediaId\":\"00000000-0000-0000-0000-000000000001\"," ++
    "\"nextCapability\":\"Readable\"\x7d")
  env := sampleEnv
  command := .finishLecternItem 1 11 .readable

def sampleReset : CommandCall (ConsumptionCommand Permille) where
  viewerId := 1
  clientMutationId := "00000000-0000-0000-0000-0000000000c2".toList
  requestBytes := ascii ("\x7b\"clientMutationId\":\"00000000-0000-0000-0000-0000000000c2\",\"kind\":\"ResetProgress\"" ++
    ",\"mediaId\":\"00000000-0000-0000-0000-000000000002\"\x7d")
  env := sampleEnv
  command := .resetProgress 2

/-- SHA-256, on the two sample requests. -/
def sampleSha : Sha256 where
  hexdigest bytes :=
    if bytes = sampleFinish.requestBytes then
      "db93fafc14441ce7b93fd61b60144a93dc9d00a259d1a9b8a2fe87ce5ca6951b".toList
    else if bytes = sampleReset.requestBytes then
      "500dcd695da6d879cfd6679ecc0b0988cc495f0b1ef8982e240408a740211c44".toList
    else []

abbrev SampleStore := ConsumptionStore Permille Permille PlainLocator × Ledger ConsumptionEffect

/-- Both media on the Lectern of viewer 1. -/
def bothListed : SampleStore where
  fst.lectern.items := ⟨[⟨11, 1, 1, 0, 0, .manual⟩, ⟨12, 1, 2, 1, 0, .manual⟩], by decide⟩
  fst.lectern.unique := by decide
  fst.media := .empty
  snd := .empty

abbrev sampleService := consumptionService Permille Permille PlainLocator sampleSha

/-- The outcome of a call, if it is accepted. -/
def sampleOutcome (call : CommandCall (ConsumptionCommand Permille)) (s : SampleStore) : Option ConsumptionOutcome :=
  ((sampleService.run call s).map fun r => r.2.outcome).toOption

/-- Both commands once applied, and then the second item taken off the Lectern. -/
def sampleApplied : SampleStore := sampleService.after (sampleService.after bothListed (.call sampleFinish)) (.call sampleReset)

def secondRemoved : SampleStore :=
  sampleService.after sampleApplied (.elsewhere (fun _ => false) fun store =>
    { store with lectern := (store.lectern.removeItemIfPresentInTxn 1 12).1 })

/-- The digests of the samples, of bytes that are quick to compare. -/
def shortSha : Sha256 where
  hexdigest bytes :=
    if bytes = [1] then
      "db93fafc14441ce7b93fd61b60144a93dc9d00a259d1a9b8a2fe87ce5ca6951b".toList
    else
      "500dcd695da6d879cfd6679ecc0b0988cc495f0b1ef8982e240408a740211c44".toList

theorem run_short {call : CommandCall (ConsumptionCommand Permille)} (bytes : Bytes)
    (h : sampleSha.hexdigest call.requestBytes = shortSha.hexdigest bytes) (s : SampleStore) :
    sampleService.run call s =
      (consumptionService Permille Permille PlainLocator shortSha).run { call with requestBytes := bytes } s := by
  show runConsumptionCommand sampleSha call s = runConsumptionCommand shortSha _ s
  rw [runConsumptionCommand, runConsumptionCommand]
  exact memoized_congr h

theorem hexdigest_sampleFinish : sampleSha.hexdigest sampleFinish.requestBytes = shortSha.hexdigest [1] := by
  rw [sampleSha, shortSha]
  dsimp only
  rw [if_pos rfl, if_pos rfl]

theorem hexdigest_sampleReset : sampleSha.hexdigest sampleReset.requestBytes = shortSha.hexdigest [2] := by
  have hne : sampleReset.requestBytes ≠ sampleFinish.requestBytes := by
    simp only [sampleReset, sampleFinish, ascii_append]
    rw [ascii_ofList, ascii_ofList, ascii_ofList, ascii_ofList, ascii_ofList]
    decide +kernel
  rw [sampleSha, shortSha]
  dsimp only
  rw [if_neg hne, if_pos rfl, if_neg (by decide)]

/-- A command sent again names no next item where it named one, and another is
refused once its media is no longer visible. -/
theorem repeat_answers_differently :
    sampleOutcome sampleFinish bothListed = .some (.removed 11 (.some 12)) ∧
      sampleOutcome sampleFinish secondRemoved = .some (.removed 11 .none) ∧
      sampleOutcome sampleReset bothListed = .some .stateOnly ∧
      sampleOutcome { sampleReset with env := { sampleEnv with visible := fun _ => false } } sampleApplied = .none := by
  have hfinish := run_short [1] hexdigest_sampleFinish
  have hreset := run_short [2] hexdigest_sampleReset
  have hhidden : ∀ s, sampleService.run { sampleReset with env := { sampleEnv with visible := fun _ => false } } s = _ :=
    run_short [2] (by dsimp only; exact hexdigest_sampleReset)
  simp only [secondRemoved, sampleApplied, sampleOutcome, LedgerService.after, hfinish, hreset, hhidden]
  decide +kernel

end Nexus.Mutations
