/-
The reader profile between a page, the server and the user's other devices
(`lib/reader/readerProfileSync.ts`, `lib/reader/useReaderProfile.ts`, `services/reader.py`).

The page shows what it knows of the server under the changes the server has not confirmed
yet (`desiredReaderProfile`). A save is given up by its clock and not on the wire, so that
the server may still commit it after the page has sent the next one. Two guards keep old
news out: a settlement counts for the attempt under way only, and a profile read in the
background only if no change was asked for meanwhile. With them the profile the page
takes for confirmed never goes back (`acknowledged_mono`), and a change the user asked for
is shown until it was saved, and after that until someone saves another (`newest_kept`).

The profile arrives parsed. One reading of the clock stands for those of a turn, and a
line height is a rational number.
-/
import Nexus.Lib.Run
import Mathlib.Data.List.Induction
import Mathlib.Data.Rat.Floor

namespace Nexus.Reader

open Transition

/-! ## Profiles -/

inductive ReaderTheme
  | light
  | dark
  deriving DecidableEq

inductive ReaderFontFamily
  | serif
  | sans
  deriving DecidableEq

inductive ReaderFocusMode
  | off
  | distractionFree
  | paragraph
  | sentence
  deriving DecidableEq

inductive ReaderHyphenation
  | auto
  | off
  deriving DecidableEq

inductive ReaderProfileField
  | theme
  | fontFamily
  | fontSizePx
  | lineHeight
  | columnWidthCh
  | focusMode
  | hyphenation
  deriving DecidableEq

/-- What the schema lets a field hold. -/
abbrev ReaderProfileField.Value : ReaderProfileField → Type
  | .theme => ReaderTheme
  | .fontFamily => ReaderFontFamily
  | .fontSizePx => {px : Int // 12 ≤ px ∧ px ≤ 28}
  | .lineHeight => {ratio : ℚ // 6 / 5 ≤ ratio ∧ ratio ≤ 11 / 5}
  | .columnWidthCh => {ch : Int // 40 ≤ ch ∧ ch ≤ 120}
  | .focusMode => ReaderFocusMode
  | .hyphenation => ReaderHyphenation

instance : ∀ field : ReaderProfileField, DecidableEq field.Value
  | .theme => inferInstanceAs (DecidableEq ReaderTheme)
  | .fontFamily => inferInstanceAs (DecidableEq ReaderFontFamily)
  | .fontSizePx => inferInstanceAs (DecidableEq {px : Int // 12 ≤ px ∧ px ≤ 28})
  | .lineHeight => inferInstanceAs (DecidableEq {ratio : ℚ // 6 / 5 ≤ ratio ∧ ratio ≤ 11 / 5})
  | .columnWidthCh => inferInstanceAs (DecidableEq {ch : Int // 40 ≤ ch ∧ ch ≤ 120})
  | .focusMode => inferInstanceAs (DecidableEq ReaderFocusMode)
  | .hyphenation => inferInstanceAs (DecidableEq ReaderHyphenation)

abbrev ReaderProfile := (field : ReaderProfileField) → field.Value

abbrev ReaderProfilePatch := (field : ReaderProfileField) → Option field.Value

def profileFields : List ReaderProfileField :=
  [.theme, .fontFamily, .fontSizePx, .lineHeight, .columnWidthCh, .focusMode, .hyphenation]

/-- The spread `{ ...patch, ...newer }`. -/
def ReaderProfilePatch.merge (patch newer : ReaderProfilePatch) : ReaderProfilePatch :=
  fun field => (newer field).or (patch field)

/-- The spread `{ ...profile, ...patch }`. -/
def ReaderProfilePatch.patched (patch : ReaderProfilePatch) (profile : ReaderProfile) : ReaderProfile :=
  fun field => (patch field).getD (profile field)

def patchChangesProfile (profile : ReaderProfile) (patch : ReaderProfilePatch) : Bool :=
  profileFields.any fun field => (patch field).any fun value => profile field ≠ value

/-! ## The server -/

def readerProfileDefaults : ReaderProfile
  | .theme => ReaderTheme.light
  | .fontFamily => ReaderFontFamily.serif
  | .fontSizePx => ⟨16, by decide⟩
  | .lineHeight => ⟨3 / 2, by decide +kernel⟩
  | .columnWidthCh => ⟨65, by decide⟩
  | .focusMode => ReaderFocusMode.off
  | .hyphenation => ReaderHyphenation.auto

def getReaderProfile (row : Option ReaderProfile) : ReaderProfile := row.getD readerProfileDefaults

/-- The row after a `PATCH`, which is also its answer. -/
def patchReaderProfile (row : Option ReaderProfile) (patch : ReaderProfilePatch) : ReaderProfile :=
  patch.patched (row.getD readerProfileDefaults)

/-! ## The reducer -/

inductive ReaderProfileRetryableFailure
  | transientApi
  | transport
  | attemptDeadlineExceeded

/-- What `classifyReaderProfileSaveError` makes of what a request throws. -/
inductive ReaderProfileSaveFailure
  | retryable (failure : ReaderProfileRetryableFailure)
  | forbidden

inductive ReaderProfileSchedule
  | immediate
  | range (idleAt deadlineAt : Int)

structure ReaderProfileWork where
  patch : ReaderProfilePatch
  schedule : ReaderProfileSchedule

inductive ReaderProfileLocal
  | clean
  | deferred (work : ReaderProfileWork)
  | saving (attemptId : Nat) (sentPatch : ReaderProfilePatch) (queued : Option ReaderProfileWork) (startedAt expiresAt : Int)
  | saveFailed (patch : ReaderProfilePatch) (failure : ReaderProfileRetryableFailure)
  | forbidden

/-- Where queued work is left once the attempt before it was saved. -/
def ReaderProfileLocal.ofQueued : Option ReaderProfileWork → ReaderProfileLocal
  | .some work => .deferred work
  | .none => .clean

/-- The spread `{ ...sentPatch, ...queued?.patch }`. -/
def ReaderProfilePatch.withQueued (sentPatch : ReaderProfilePatch) : Option ReaderProfileWork → ReaderProfilePatch
  | .some work => sentPatch.merge work.patch
  | .none => sentPatch

structure ReaderProfileSyncState where
  acknowledged : ReaderProfile
  localWork : ReaderProfileLocal

def initialReaderProfileSyncState (profile : ReaderProfile) : ReaderProfileSyncState := ⟨profile, .clean⟩

def desiredReaderProfile (state : ReaderProfileSyncState) : ReaderProfile :=
  match state.localWork with
  | .clean | .forbidden => state.acknowledged
  | .deferred work => work.patch.patched state.acknowledged
  | .saving _ sentPatch queued _ _ => (sentPatch.withQueued queued).patched state.acknowledged
  | .saveFailed patch _ => patch.patched state.acknowledged

def sendableReaderProfilePatch : ReaderProfileLocal → Option ReaderProfilePatch
  | .clean | .saving .. | .forbidden => .none
  | .deferred work => .some work.patch
  | .saveFailed patch _ => .some patch

def readerProfileIdleMs : Int := 400

def readerProfileMaxWaitMs : Int := 5000

def readerProfileAttemptTimeoutMs : Int := 35000

/-- `DISCRETE_FIELDS`, which are sent without waiting. -/
def discreteFields : List ReaderProfileField := [.theme, .fontFamily, .focusMode, .hyphenation]

def readerProfileWorkDueAt (work : ReaderProfileWork) : Int :=
  match work.schedule with
  | .immediate => 0
  | .range idleAt deadlineAt => min idleAt deadlineAt

def isDiscretePatch (patch : ReaderProfilePatch) : Bool :=
  discreteFields.any fun field => (patch field).isSome

def scheduleForNewBatch (patch : ReaderProfilePatch) (now : Int) : ReaderProfileSchedule :=
  if isDiscretePatch patch then .immediate else .range (now + readerProfileIdleMs) (now + readerProfileMaxWaitMs)

def mergeWork (existing : ReaderProfileWork) (patch : ReaderProfilePatch) (now : Int) : ReaderProfileWork where
  patch := existing.patch.merge patch
  schedule := match existing.schedule with
    | .immediate => .immediate
    | .range _ deadlineAt => if isDiscretePatch patch then .immediate else .range (now + readerProfileIdleMs) deadlineAt

/-- Whether an intent is taken up: controls are disabled once saving is forbidden, and what
would change nothing asserts nothing. -/
def ReaderProfileSyncState.asserts (state : ReaderProfileSyncState) (patch : ReaderProfilePatch) : Bool :=
  match state.localWork with
  | .forbidden => false
  | _ => patchChangesProfile (desiredReaderProfile state) patch

inductive ReaderProfileSyncEvent
  | intent (patch : ReaderProfilePatch) (now : Int)
  | saveStarted (attemptId : Nat) (now : Int)
  | saveSucceeded (attemptId : Nat) (profile : ReaderProfile)
  | saveFailed (attemptId : Nat) (failure : ReaderProfileSaveFailure)
  | revalidated (profile : ReaderProfile)

/-- `reduceReaderProfileSync`; nothing where it throws. -/
def reduceReaderProfileSync (state : ReaderProfileSyncState) :
    ReaderProfileSyncEvent → Option ReaderProfileSyncState
  | .intent patch now =>
    if state.asserts patch then
      match state.localWork with
      | .clean => .some { state with localWork := .deferred ⟨patch, scheduleForNewBatch patch now⟩ }
      | .deferred work => .some { state with localWork := .deferred (mergeWork work patch now) }
      | .saving attemptId sentPatch queued startedAt expiresAt =>
        let work := match queued with
          | .some work => mergeWork work patch now
          | .none => ⟨patch, scheduleForNewBatch patch now⟩
        .some { state with localWork := .saving attemptId sentPatch (.some work) startedAt expiresAt }
      | .saveFailed failed _ =>
        .some { state with localWork := .deferred ⟨failed.merge patch, scheduleForNewBatch patch now⟩ }
      | .forbidden => .some state
    else .some state
  | .saveStarted attemptId now =>
    (sendableReaderProfilePatch state.localWork).map fun patch =>
      { state with localWork := .saving attemptId patch .none now (now + readerProfileAttemptTimeoutMs) }
  | .saveSucceeded attemptId profile => match state.localWork with
    | .saving id _ queued _ _ =>
      if id = attemptId then .some ⟨profile, .ofQueued queued⟩
      else .some state
    | _ => .some state
  | .saveFailed attemptId failure => match state.localWork with
    | .saving id sentPatch queued _ _ =>
      if id = attemptId then match failure with
        | .forbidden => .some { state with localWork := .forbidden }
        | .retryable failure =>
          .some { state with localWork := .saveFailed (sentPatch.withQueued queued) failure }
      else .some state
    | _ => .some state
  | .revalidated profile => match state.localWork with
    | .clean => .some ⟨profile, .clean⟩
    | _ => .some state

/-! ## The page, the wire and the server -/

/-- The attempt under way, and what it sent. -/
def ReaderProfileLocal.sent : ReaderProfileLocal → Option (Nat × ReaderProfilePatch)
  | .saving attemptId sentPatch _ _ _ => .some (attemptId, sentPatch)
  | _ => .none

/-- A save the server committed, for an attempt of the page or for another device. -/
structure Commit where
  attemptId : Option Nat
  patch : ReaderProfilePatch

/-- The answer to an attempt, when the server had committed so many saves. -/
structure Answer where
  attemptId : Nat
  profile : ReaderProfile
  version : Nat

/-- A read in the background, and the generation of intents it was begun in. -/
structure Revalidation where
  generation : Nat
  answer : Option (ReaderProfile × Nat)

structure Page where
  state : ReaderProfileSyncState
  attemptSeq : Nat
  intentGeneration : Nat
  revalidation : Option Revalidation
  /-- saves on the wire, and answers to some -/
  requests : List (Nat × ReaderProfilePatch)
  answers : List Answer
  row : Option ReaderProfile
  /-- what the server held when the page began, and every save since -/
  start : ReaderProfile
  commits : List Commit
  /-- how many of them the acknowledged profile tells of -/
  seen : Nat
  /-- the newest value asked for, field by field -/
  newest : ReaderProfilePatch

def Page.begin (row : Option ReaderProfile) : Page where
  state := initialReaderProfileSyncState (getReaderProfile row)
  attemptSeq := 0
  intentGeneration := 0
  revalidation := .none
  requests := []
  answers := []
  row := row
  start := getReaderProfile row
  commits := []
  seen := 0
  newest := fun _ => .none

def Page.send (page : Page) (now : Int) : Option Page :=
  match sendableReaderProfilePatch page.state.localWork with
  | .none => .some page
  | .some patch => (reduceReaderProfileSync page.state (.saveStarted (page.attemptSeq + 1) now)).map fun state =>
    { page with
      state := state
      attemptSeq := page.attemptSeq + 1
      requests := page.requests ++ [(page.attemptSeq + 1, patch)] }

def Page.intend (page : Page) (patch : ReaderProfilePatch) (now : Int) : Option Page :=
  (reduceReaderProfileSync page.state (.intent patch now)).bind fun state =>
    let next := { page with
      state := state
      intentGeneration := page.intentGeneration + 1
      newest := if page.state.asserts patch then page.newest.merge patch else page.newest }
    match state.localWork with
    | .deferred work => if readerProfileWorkDueAt work ≤ now then next.send now else .some next
    | _ => .some next

def Page.checkAttemptExpiry (page : Page) (now : Int) : Option Page :=
  match page.state.localWork with
  | .saving attemptId _ _ _ expiresAt =>
    if now < expiresAt then .some page
    else (reduceReaderProfileSync page.state (.saveFailed attemptId (.retryable .attemptDeadlineExceeded))).map
      fun state => { page with state := state }
  | _ => .some page

/-- The answer to an attempt arrives. -/
def Page.saveSucceeded (page : Page) (answer : Answer) : Option Page :=
  (reduceReaderProfileSync page.state (.saveSucceeded answer.attemptId answer.profile)).map fun state =>
    { page with
      state := state
      seen := if page.state.localWork.sent.any (·.1 = answer.attemptId) then answer.version else page.seen }

/-- The request of an attempt throws, and it is the one under way. -/
def Page.saveRejected (page : Page) (attemptId : Nat) (failure : ReaderProfileSaveFailure) : Option Page :=
  (reduceReaderProfileSync page.state (.saveFailed attemptId failure)).map fun state => { page with state := state }

def Page.revalidate (page : Page) : Option Page :=
  match page.revalidation, page.state.localWork with
  | .none, .clean => .some { page with revalidation := .some ⟨page.intentGeneration, .none⟩ }
  | _, _ => .some page

/-- What was read in the background arrives. -/
def Page.revalidated (page : Page) : Option Page :=
  match page.revalidation with
  | .some ⟨generation, .some (profile, version)⟩ => match page.state.localWork with
    | .clean =>
      if generation = page.intentGeneration then
        (reduceReaderProfileSync page.state (.revalidated profile)).map fun state =>
          { page with state := state, revalidation := .none, seen := version }
      else .some { page with revalidation := .none }
    | _ => .some { page with revalidation := .none }
  | _ => .none

def Page.commit (page : Page) (attemptId : Option Nat) (patch : ReaderProfilePatch) : Page :=
  { page with
    row := .some (patchReaderProfile page.row patch)
    commits := page.commits ++ [⟨attemptId, patch⟩] }

inductive Happening
  | intend (patch : ReaderProfilePatch) (now : Int)
  /-- a timer, a retry, or the page is hidden -/
  | send (now : Int)
  | checkAttemptExpiry (now : Int)
  /-- the server commits a save from the wire -/
  | patch (index : Nat)
  | answered (index : Nat)
  /-- a defect or a lost login decides nothing -/
  | rejected (attemptId : Nat) (failure : ReaderProfileSaveFailure)
  | otherDevice (patch : ReaderProfilePatch)
  | revalidate
  /-- the server answers a read -/
  | get
  | revalidated
  | revalidationFailed

def Page.next (page : Page) : Happening → Option Page
  | .intend patch now => page.intend patch now
  | .send now => page.send now
  | .checkAttemptExpiry now => page.checkAttemptExpiry now
  | .patch index => page.requests[index]?.map fun (attemptId, patch) =>
    { page.commit (.some attemptId) patch with
      requests := page.requests.eraseIdx index
      answers := page.answers ++ [⟨attemptId, patchReaderProfile page.row patch, page.commits.length + 1⟩] }
  | .answered index => page.answers[index]?.bind fun answer =>
    { page with answers := page.answers.eraseIdx index }.saveSucceeded answer
  | .rejected attemptId failure => page.saveRejected attemptId failure
  | .otherDevice patch => .some (page.commit .none patch)
  | .revalidate => page.revalidate
  | .get => match page.revalidation with
    | .some ⟨generation, .none⟩ =>
      .some { page with revalidation := .some ⟨generation, .some (getReaderProfile page.row, page.commits.length)⟩ }
    | _ => .none
  | .revalidated => page.revalidated
  | .revalidationFailed => .some { page with revalidation := .none }

def syncing : System Page Happening := .ofFun (fun page => ∃ row, page = .begin row) Page.next

/-! ## What holds -/

/-- What the page has to be told of still, and the attempt that tells it. -/
def ReaderProfileLocal.unsaved : ReaderProfileLocal → ReaderProfilePatch
  | .clean | .forbidden => fun _ => .none
  | .deferred work => work.patch
  | .saving _ sentPatch queued _ _ => sentPatch.withQueued queued
  | .saveFailed patch _ => patch

/-- The profile after some saves. -/
def profileAfter (start : ReaderProfile) (commits : List Commit) : ReaderProfile :=
  commits.foldl (fun profile commit => commit.patch.patched profile) start

/-- A save of this page put the value of a field. -/
def Saves (field : ReaderProfileField) (value : field.Value) (commit : Commit) : Prop :=
  commit.attemptId.isSome ∧ commit.patch field = .some value

/-- A profile is the server's after so many of its saves. -/
def Page.Knows (page : Page) (profile : ReaderProfile) (version : Nat) : Prop :=
  version ≤ page.commits.length ∧ profile = profileAfter page.start (page.commits.take version)

/-- The value of a field is unsaved, or the saves seen tell of it. -/
def Page.Keeps (page : Page) (l : ReaderProfileLocal) (seen : Nat) (field : ReaderProfileField) (value : field.Value) : Prop :=
  l.unsaved field = .some value ∨ ∃ commit ∈ page.commits.take seen, Saves field value commit

/-- What is on the wire for the attempt under way carries its patch, and its answer tells of
more than was seen; a read of this generation was begun in this clean state, and tells of no
less. -/
structure Page.Ok (page : Page) : Prop where
  row : getReaderProfile page.row = profileAfter page.start page.commits
  acknowledged : page.Knows page.state.acknowledged page.seen
  requests : ∀ r ∈ page.requests, r.1 ≤ page.attemptSeq ∧ ∀ sent, page.state.localWork.sent = .some (r.1, sent) → sent = r.2
  answers : ∀ a ∈ page.answers, a.attemptId ≤ page.attemptSeq ∧ page.Knows a.profile a.version ∧
    ∀ sent, page.state.localWork.sent = .some (a.attemptId, sent) →
      page.seen < a.version ∧ ⟨.some a.attemptId, sent⟩ ∈ page.commits.take a.version
  revalidation : ∀ r ∈ page.revalidation, r.generation ≤ page.intentGeneration ∧
    (r.generation = page.intentGeneration → page.state.localWork = .clean) ∧
    ∀ x ∈ r.answer, page.Knows x.1 x.2 ∧ (r.generation = page.intentGeneration → page.seen ≤ x.2)
  newest : ∀ field value, page.state.localWork.unsaved field = .some value → page.newest field = .some value
  kept : page.state.localWork ≠ .forbidden → ∀ field value, page.newest field = .some value →
    page.Keeps page.state.localWork page.seen field value

section Reducer

variable {state state' : ReaderProfileSyncState} {patch : ReaderProfilePatch} {attemptId : Nat}

/-- What is desired is what was acknowledged, under what is unsaved. -/
theorem desired_eq (state : ReaderProfileSyncState) (field : ReaderProfileField) :
    desiredReaderProfile state field = (state.localWork.unsaved field).getD (state.acknowledged field) := by
  obtain ⟨acknowledged, localWork⟩ := state
  cases localWork <;> rfl

theorem sendable_spec {l : ReaderProfileLocal} (h : sendableReaderProfilePatch l = .some patch) :
    l.unsaved = patch ∧ l ≠ .clean ∧ l ≠ .forbidden := by
  cases l with
  | deferred work => exact ⟨Option.some.inj h, by simp, by simp⟩
  | saveFailed failed failure => exact ⟨Option.some.inj h, by simp, by simp⟩
  | _ => simp [sendableReaderProfilePatch] at h

theorem intent_spec {now : Int} (h : reduceReaderProfileSync state (.intent patch now) = .some state') :
    state'.acknowledged = state.acknowledged ∧ state'.localWork.sent = state.localWork.sent ∧
    state'.localWork.unsaved =
      (if state.asserts patch then state.localWork.unsaved.merge patch else state.localWork.unsaved) ∧
    (state'.localWork ≠ .forbidden → state.localWork ≠ .forbidden) := by
  simp only [reduceReaderProfileSync] at h
  split at h
  next hasserts =>
    rw [if_pos hasserts]
    obtain ⟨acknowledged, localWork⟩ := state
    cases localWork with
    | forbidden => simp [ReaderProfileSyncState.asserts] at hasserts
    | clean =>
      cases h
      exact ⟨rfl, rfl, by funext field; simp [ReaderProfileLocal.unsaved, ReaderProfilePatch.merge], by simp⟩
    | saving id sentPatch queued startedAt expiresAt =>
      cases h
      refine ⟨rfl, rfl, ?_, by simp⟩
      funext field
      cases queued with
      | none => rfl
      | some work =>
        simp [ReaderProfileLocal.unsaved, ReaderProfilePatch.withQueued, ReaderProfilePatch.merge, mergeWork, Option.or_assoc]
    | _ =>
      cases h
      exact ⟨rfl, rfl, rfl, by simp⟩
  next hasserts =>
    cases h
    exact ⟨rfl, rfl, (if_neg hasserts).symm, id⟩

theorem saveSucceeded_spec {profile : ReaderProfile}
    (h : reduceReaderProfileSync state (.saveSucceeded attemptId profile) = .some state') :
    (∃ sentPatch queued startedAt expiresAt, state.localWork = .saving attemptId sentPatch queued startedAt expiresAt ∧
      state' = ⟨profile, .ofQueued queued⟩) ∨
    state.localWork.sent.any (·.1 = attemptId) = false ∧ state' = state := by
  obtain ⟨acknowledged, localWork⟩ := state
  cases localWork with
  | saving id sentPatch queued startedAt expiresAt =>
    simp only [reduceReaderProfileSync] at h
    split at h
    next hid => exact .inl ⟨sentPatch, queued, startedAt, expiresAt, by rw [hid], (Option.some.inj h).symm⟩
    next hid => exact .inr ⟨by simp [ReaderProfileLocal.sent, hid], (Option.some.inj h).symm⟩
  | _ => exact .inr ⟨rfl, (Option.some.inj h).symm⟩

theorem saveFailed_spec {failure : ReaderProfileSaveFailure}
    (h : reduceReaderProfileSync state (.saveFailed attemptId failure) = .some state') :
    state' = state ∨ state'.acknowledged = state.acknowledged ∧ state.localWork ≠ .clean ∧
      state.localWork ≠ .forbidden ∧ state'.localWork.sent = .none ∧
      (state'.localWork = .forbidden ∨ state'.localWork.unsaved = state.localWork.unsaved) := by
  obtain ⟨acknowledged, localWork⟩ := state
  cases localWork with
  | saving id sentPatch queued startedAt expiresAt =>
    simp only [reduceReaderProfileSync] at h
    split at h
    · cases failure with
      | forbidden =>
        cases h
        exact .inr ⟨rfl, by simp, by simp, rfl, .inl rfl⟩
      | retryable failure =>
        cases h
        exact .inr ⟨rfl, by simp, by simp, rfl, .inr rfl⟩
    · exact .inl (Option.some.inj h).symm
  | _ => exact .inl (Option.some.inj h).symm

theorem ofQueued_sent (queued : Option ReaderProfileWork) : (ReaderProfileLocal.ofQueued queued).sent = .none := by
  cases queued <;> rfl

theorem merge_mono {older newer : ReaderProfilePatch} {field : ReaderProfileField} {value : field.Value}
    (h : older field = .some value → newer field = .some value) (heq : older.merge patch field = .some value) :
    newer.merge patch field = .some value := by
  rcases Option.or_eq_some_iff.1 heq with heq | ⟨hnone, heq⟩
  · exact Option.or_eq_some_iff.2 (.inl heq)
  · exact Option.or_eq_some_iff.2 (.inr ⟨hnone, h heq⟩)

end Reducer

/-! ## Saves -/

section Commits

variable {start : ReaderProfile} {commits : List Commit} {commit : Commit} {version : Nat}

theorem profileAfter_concat (start : ReaderProfile) (commits : List Commit) (commit : Commit) :
    profileAfter start (commits ++ [commit]) = commit.patch.patched (profileAfter start commits) := by
  simp [profileAfter]

/-- A later save changes nothing of what earlier ones made. -/
theorem take_concat (h : version ≤ commits.length) : (commits ++ [commit]).take version = commits.take version :=
  List.take_append_of_le_length h

/-- A value that was put stands until the field is put again. -/
theorem profileAfter_of_saves {field : ReaderProfileField} {value : field.Value} {before after : List Commit}
    (h : commit.patch field = .some value) (hafter : ∀ later ∈ after, later.patch field = .none) :
    profileAfter start (before ++ commit :: after) field = value := by
  induction after using List.reverseRec with
  | nil => rw [profileAfter_concat, ReaderProfilePatch.patched, h, Option.getD_some]
  | append_singleton after later ih =>
    rw [← List.cons_append, ← List.append_assoc, profileAfter_concat, ReaderProfilePatch.patched,
      hafter later (by simp), Option.getD_none]
    exact ih fun c hc => hafter c (List.mem_append_left _ hc)

end Commits

/-! ## Every step keeps it -/

section Steps

variable {page page' : Page} {state : ReaderProfileSyncState} {patch : ReaderProfilePatch} {now : Int}

theorem Page.Ok.begin (row : Option ReaderProfile) : (Page.begin row).Ok := by
  refine ⟨rfl, ⟨Nat.le_refl _, rfl⟩, ?_, ?_, ?_, ?_, ?_⟩ <;>
    simp [Page.begin, initialReaderProfileSyncState, ReaderProfileLocal.unsaved]

/-- An attempt is over, or a read adopted: nothing that counts is on the wire, and no less is
seen. What is not unsaved any more is seen. -/
theorem Page.Ok.settle (h : page.Ok) {seen : Nat} {revalidation : Option Revalidation} {answers : List Answer}
    (hsent : state.localWork.sent = .none) (hknows : page.Knows state.acknowledged seen) (hseen : page.seen ≤ seen)
    (hanswers : ∀ a ∈ answers, a ∈ page.answers)
    (hread : ∀ r ∈ revalidation, r ∈ page.revalidation ∧ page.state.localWork ≠ .clean)
    (hnewest : ∀ field value, state.localWork.unsaved field = .some value → page.state.localWork.unsaved field = .some value)
    (hkept : state.localWork ≠ .forbidden → page.state.localWork ≠ .forbidden ∧
      ∀ field value, page.state.localWork.unsaved field = .some value → page.Keeps state.localWork seen field value) :
    { page with state := state, seen := seen, revalidation := revalidation, answers := answers }.Ok where
  row := h.row
  acknowledged := hknows
  requests r hr := ⟨(h.requests r hr).1, fun sent heq => by simp [hsent] at heq⟩
  answers a ha := by
    obtain ⟨hid, hprofile, -⟩ := h.answers a (hanswers a ha)
    exact ⟨hid, hprofile, fun sent heq => by simp [hsent] at heq⟩
  revalidation r hr := by
    obtain ⟨hmem, hclean⟩ := hread r hr
    obtain ⟨hle, hgen, hanswer⟩ := h.revalidation r hmem
    have hold : r.generation ≠ page.intentGeneration := fun heq => hclean (hgen heq)
    exact ⟨hle, fun heq => absurd heq hold, fun x hx => ⟨(hanswer x hx).1, fun heq => absurd heq hold⟩⟩
  newest field value heq := h.newest field value (hnewest field value heq)
  kept hnot field value heq := by
    obtain ⟨hallowed, hkept⟩ := hkept hnot
    rcases h.kept hallowed field value heq with hunsaved | ⟨commit, hmem, hsaves⟩
    · exact hkept field value hunsaved
    · exact .inr ⟨commit, List.take_subset_take_left _ hseen hmem, hsaves⟩

theorem Page.Ok.saveFailed (h : page.Ok) {attemptId : Nat} {failure : ReaderProfileSaveFailure}
    (heq : (reduceReaderProfileSync page.state (.saveFailed attemptId failure)).map
      (fun state => { page with state := state }) = .some page') : page'.Ok ∧ page.seen ≤ page'.seen := by
  obtain ⟨state, hstate, rfl⟩ := Option.map_eq_some_iff.1 heq
  refine ⟨?_, Nat.le_refl _⟩
  rcases saveFailed_spec hstate with rfl | ⟨hack, hclean, hallowed, hsent, hunsaved⟩
  · exact h
  · refine h.settle hsent (hack ▸ h.acknowledged) (Nat.le_refl _) (fun _ ha => ha) (fun r hr => ⟨hr, hclean⟩)
      (fun field value heq => ?_) fun hnot => ⟨hallowed, fun field value heq => ?_⟩
    · rcases hunsaved with hforbidden | hunsaved
      · simp [hforbidden, ReaderProfileLocal.unsaved] at heq
      · rwa [← hunsaved]
    · rcases hunsaved with hforbidden | hunsaved
      · exact absurd hforbidden hnot
      · exact .inl (by rwa [hunsaved])

theorem Page.Ok.send (h : page.Ok) (heq : page.send now = .some page') : page'.Ok ∧ page.seen ≤ page'.seen := by
  unfold Page.send at heq
  split at heq
  · cases heq
    exact ⟨h, Nat.le_refl _⟩
  next patch hsendable =>
    obtain ⟨hunsaved, hclean, hallowed⟩ := sendable_spec hsendable
    simp only [reduceReaderProfileSync, hsendable, Option.map_some, Option.some.injEq] at heq
    subst heq
    have hnew {id : Nat} (hid : id ≤ page.attemptSeq) (sent : ReaderProfilePatch) :
        Option.some (page.attemptSeq + 1, patch) ≠ .some (id, sent) := by
      simp only [ne_eq, Option.some.injEq, Prod.mk.injEq]
      omega
    refine ⟨⟨h.row, h.acknowledged, fun r hr => ?_, fun a ha => ?_, fun r hr => ?_, fun field value heq => ?_,
      fun _ field value heq => ?_⟩, Nat.le_refl _⟩
    · rcases List.mem_append.1 hr with hr | hr
      · -- the attempts on the wire have smaller numbers
        have hid := (h.requests r hr).1
        exact ⟨Nat.le_succ_of_le hid, fun sent hsent => absurd hsent (hnew hid sent)⟩
      · rw [List.mem_singleton.1 hr]
        exact ⟨Nat.le_refl _, fun sent hsent => (Prod.mk.inj (Option.some.inj hsent)).2.symm⟩
    · obtain ⟨hid, hknows, -⟩ := h.answers a ha
      exact ⟨Nat.le_succ_of_le hid, hknows, fun sent hsent => absurd hsent (hnew hid sent)⟩
    · obtain ⟨hle, hgen, hread⟩ := h.revalidation r hr
      exact ⟨hle, fun heq => absurd (hgen heq) hclean, hread⟩
    · exact h.newest field value (hunsaved ▸ heq)
    · have hkept := h.kept hallowed field value heq
      rwa [Page.Keeps, hunsaved] at hkept

theorem Page.Ok.intend (h : page.Ok) (heq : page.intend patch now = .some page') :
    page'.Ok ∧ page.seen ≤ page'.seen := by
  unfold Page.intend at heq
  obtain ⟨state, hstate, heq⟩ := Option.bind_eq_some_iff.1 heq
  obtain ⟨hack, hsent, hunsaved, hforbidden⟩ := intent_spec hstate
  have hok : { page with
      state := state
      intentGeneration := page.intentGeneration + 1
      newest := if page.state.asserts patch then page.newest.merge patch else page.newest }.Ok := by
    refine ⟨h.row, hack ▸ h.acknowledged, fun r hr => ⟨(h.requests r hr).1, hsent ▸ (h.requests r hr).2⟩,
      fun a ha => ?_, fun r hr => ?_, fun field value heq => ?_, fun hnot field value heq => ?_⟩
    · obtain ⟨hid, hknows, hsaved⟩ := h.answers a ha
      exact ⟨hid, hknows, hsent ▸ hsaved⟩
    · -- a read under way is of an earlier generation from now on
      obtain ⟨hle, -, hread⟩ := h.revalidation r hr
      have hold : r.generation ≠ page.intentGeneration + 1 := by omega
      exact ⟨Nat.le_succ_of_le hle, fun heq => absurd heq hold, fun x hx => ⟨(hread x hx).1, fun heq => absurd heq hold⟩⟩
    · dsimp only at heq ⊢
      rw [hunsaved] at heq
      split
      next hasserts =>
        rw [if_pos hasserts] at heq
        exact merge_mono (h.newest field value) heq
      next hasserts =>
        rw [if_neg hasserts] at heq
        exact h.newest field value heq
    · have hkept := h.kept (hforbidden hnot) field value
      dsimp only at heq ⊢
      rw [Page.Keeps, hunsaved]
      split
      next hasserts =>
        rw [if_pos hasserts] at heq
        rcases Option.or_eq_some_iff.1 heq with heq | ⟨hnone, heq⟩
        · exact .inl (Option.or_eq_some_iff.2 (.inl heq))
        · exact (hkept heq).imp_left fun hunsaved => Option.or_eq_some_iff.2 (.inr ⟨hnone, hunsaved⟩)
      next hasserts =>
        rw [if_neg hasserts] at heq
        exact hkept heq
  dsimp only at heq
  split at heq
  · split at heq
    · exact hok.send heq
    · cases heq
      exact ⟨hok, Nat.le_refl _⟩
  · cases heq
    exact ⟨hok, Nat.le_refl _⟩

/-- An answer to the attempt under way tells of its save and of all that was seen. -/
theorem Page.Ok.saveSucceeded (h : page.Ok) {answer : Answer} {answers : List Answer} (hmem : answer ∈ page.answers)
    (hanswers : ∀ a ∈ answers, a ∈ page.answers) (heq : { page with answers := answers }.saveSucceeded answer = .some page') :
    page'.Ok ∧ page.seen ≤ page'.seen := by
  obtain ⟨state, hstate, rfl⟩ := Option.map_eq_some_iff.1 heq
  rcases saveSucceeded_spec hstate with ⟨sentPatch, queued, startedAt, expiresAt, hlocal, rfl⟩ | ⟨hother, rfl⟩
  · dsimp only at hlocal
    have hsent : page.state.localWork.sent = .some (answer.attemptId, sentPatch) := by rw [hlocal]; rfl
    obtain ⟨-, hknows, hsaved⟩ := h.answers answer hmem
    obtain ⟨hseen, hcommit⟩ := hsaved sentPatch hsent
    simp only [hsent, Option.any_some, decide_true, if_true]
    refine ⟨h.settle (ofQueued_sent queued) hknows hseen.le hanswers (fun r hr => ⟨hr, by simp [hlocal]⟩)
      (fun field value heq => ?_) fun _ => ⟨by simp [hlocal], fun field value heq => ?_⟩, hseen.le⟩
    · rw [hlocal]
      cases queued with
      | none => simp [ReaderProfileLocal.ofQueued, ReaderProfileLocal.unsaved] at heq
      | some work => exact Option.or_eq_some_iff.2 (.inl heq)
    · rw [hlocal] at heq
      cases queued with
      | none => exact .inr ⟨_, hcommit, rfl, heq⟩
      | some work =>
        rcases Option.or_eq_some_iff.1 heq with hqueued | ⟨-, hvalue⟩
        · exact .inl hqueued
        · exact .inr ⟨_, hcommit, rfl, hvalue⟩
  · dsimp only at hother ⊢
    rw [hother]
    exact ⟨{ h with answers := fun a ha => h.answers a (hanswers a ha) }, Nat.le_refl _⟩

theorem Page.Ok.dropped (h : page.Ok) : { page with revalidation := .none }.Ok :=
  { h with revalidation := by simp }

theorem Page.Ok.revalidated (h : page.Ok) (heq : page.revalidated = .some page') :
    page'.Ok ∧ page.seen ≤ page'.seen := by
  unfold Page.revalidated at heq
  split at heq
  next generation profile version hread =>
    split at heq
    next hclean =>
      split at heq
      next hgen =>
        obtain ⟨-, -, hanswer⟩ := h.revalidation _ hread
        obtain ⟨hknows, hseen⟩ := hanswer (profile, version) rfl
        simp only [reduceReaderProfileSync, hclean, Option.map_some, Option.some.injEq] at heq
        subst heq
        refine ⟨h.settle rfl hknows (hseen hgen) (fun _ ha => ha) (by simp) ?_ fun _ => ?_, hseen hgen⟩ <;>
          simp [hclean, ReaderProfileLocal.unsaved]
      · cases heq
        exact ⟨h.dropped, Nat.le_refl _⟩
    · cases heq
      exact ⟨h.dropped, Nat.le_refl _⟩
  · cases heq

/-- What is known stays known. -/
theorem Page.Knows.commit {profile : ReaderProfile} {version : Nat} (h : page.Knows profile version)
    (attemptId : Option Nat) (patch : ReaderProfilePatch) : (page.commit attemptId patch).Knows profile version :=
  ⟨h.1.trans (by simp [Page.commit]), h.2.trans (congrArg _ (take_concat h.1).symm)⟩

theorem Page.Ok.commit (h : page.Ok) (attemptId : Option Nat) (patch : ReaderProfilePatch) :
    (page.commit attemptId patch).Ok where
  row := by
    show patch.patched (page.row.getD readerProfileDefaults) = profileAfter page.start (page.commits ++ [⟨attemptId, patch⟩])
    rw [profileAfter_concat, ← h.row]
    rfl
  acknowledged := h.acknowledged.commit attemptId patch
  requests := h.requests
  answers a ha := by
    obtain ⟨hid, hknows, hsaved⟩ := h.answers a ha
    refine ⟨hid, hknows.commit attemptId patch, fun sent hsent => ?_⟩
    obtain ⟨hseen, hcommit⟩ := hsaved sent hsent
    exact ⟨hseen, (take_concat hknows.1).symm ▸ hcommit⟩
  revalidation r hr := by
    obtain ⟨hgen, hclean, hread⟩ := h.revalidation r hr
    exact ⟨hgen, hclean, fun x hx => ⟨(hread x hx).1.commit attemptId patch, (hread x hx).2⟩⟩
  newest := h.newest
  kept hnot field value heq := by
    have hkept := h.kept hnot field value heq
    rwa [Page.Keeps, ← take_concat h.acknowledged.1] at hkept

/-- The server commits a save from the wire and answers it. -/
theorem Page.Ok.committed (h : page.Ok) {index attemptId : Nat} (hrequest : page.requests[index]? = .some (attemptId, patch)) :
    { page.commit (.some attemptId) patch with
      requests := page.requests.eraseIdx index
      answers := page.answers ++ [Answer.mk attemptId (patchReaderProfile page.row patch) (page.commits.length + 1)] }.Ok := by
  have hcommit := h.commit (.some attemptId) patch
  obtain ⟨hid, hpatch⟩ := h.requests _ (List.mem_of_getElem? hrequest)
  refine { hcommit with requests := fun r hr => h.requests r (List.mem_of_mem_eraseIdx hr), answers := fun a ha => ?_ }
  rcases List.mem_append.1 ha with ha | ha
  · exact hcommit.answers a ha
  · rw [List.mem_singleton.1 ha]
    have hall : (page.commit (.some attemptId) patch).commits.take (page.commits.length + 1) =
        (page.commit (.some attemptId) patch).commits := List.take_of_length_le (by simp [Page.commit])
    refine ⟨hid, ⟨by simp [Page.commit], ?_⟩, fun sent hsent => ⟨Nat.lt_succ_of_le h.acknowledged.1, ?_⟩⟩
    · exact hcommit.row.trans (congrArg _ hall.symm)
    · rw [hall, hpatch sent hsent]
      simp [Page.commit]

/-- The step lemma. -/
theorem Page.Ok.step (h : page.Ok) {happening : Happening} (heq : page.next happening = .some page') :
    page'.Ok ∧ page.seen ≤ page'.seen := by
  cases happening with
  | intend patch now => exact h.intend heq
  | send now => exact h.send heq
  | checkAttemptExpiry now =>
    simp only [Page.next, Page.checkAttemptExpiry] at heq
    split at heq
    · split at heq
      · cases heq
        exact ⟨h, Nat.le_refl _⟩
      · exact h.saveFailed heq
    · cases heq
      exact ⟨h, Nat.le_refl _⟩
  | patch index =>
    obtain ⟨⟨attemptId, patch⟩, hrequest, rfl⟩ := Option.map_eq_some_iff.1 heq
    exact ⟨h.committed hrequest, Nat.le_refl _⟩
  | answered index =>
    obtain ⟨answer, hanswer, heq⟩ := Option.bind_eq_some_iff.1 heq
    exact h.saveSucceeded (List.mem_of_getElem? hanswer) (fun a ha => List.mem_of_mem_eraseIdx ha) heq
  | rejected attemptId failure => exact h.saveFailed heq
  | otherDevice patch =>
    cases heq
    exact ⟨h.commit .none patch, Nat.le_refl _⟩
  | revalidate =>
    simp only [Page.next, Page.revalidate] at heq
    split at heq
    next hnone hclean =>
      cases heq
      refine ⟨{ h with revalidation := fun r hr => ?_ }, Nat.le_refl _⟩
      cases hr
      exact ⟨Nat.le_refl _, fun _ => hclean, by simp⟩
    · cases heq
      exact ⟨h, Nat.le_refl _⟩
  | get =>
    simp only [Page.next] at heq
    split at heq
    next generation hread =>
      cases heq
      obtain ⟨hgen, hclean, -⟩ := h.revalidation _ hread
      refine ⟨{ h with revalidation := fun r hr => ?_ }, Nat.le_refl _⟩
      cases hr
      refine ⟨hgen, hclean, fun x hx => ?_⟩
      cases hx
      exact ⟨⟨Nat.le_refl _, by rw [List.take_length, ← h.row]⟩, fun _ => h.acknowledged.1⟩
    · cases heq
  | revalidated => exact h.revalidated heq
  | revalidationFailed =>
    cases heq
    exact ⟨h.dropped, Nat.le_refl _⟩

theorem ok_of_reachable (h : syncing.Reachable page) : page.Ok :=
  h.invariant (fun _ ⟨row, heq⟩ => heq ▸ .begin row) fun _ _ _ hstep hok => (hok.step hstep).1

end Steps

/-! ## What the page shows -/

section Results

variable {page : Page}

/-- A field on its own. -/
def ReaderProfilePatch.only (field : ReaderProfileField) (value : field.Value) : ReaderProfilePatch :=
  fun f => if h : f = field then .some (h ▸ value) else .none

/-- The first save is given up and comes late, behind one of another device. -/
def lateRun : List Happening :=
  [.intend (.only .theme ReaderTheme.dark) 0, .checkAttemptExpiry 35000, .intend (.only .fontSizePx ⟨20, by decide⟩) 35100,
    .send 35500, .patch 1, .otherDevice (.only .theme ReaderTheme.light), .patch 0, .answered 1, .answered 0, .revalidate,
    .get, .revalidated]

def latePage : Page := last (.begin .none) (replay Page.next (.begin .none) lateRun)

theorem reachable_latePage : syncing.Reachable latePage := System.reachable_replay lateRun ⟨.none, rfl⟩

/-- **What the page takes for confirmed never goes back.** All along a run it is the server's
profile after some of its saves, and after no fewer of them than before. -/
theorem acknowledged_mono (h : syncing.Reachable page) {run : List (Happening × Page)} (hrun : syncing.Run page run) :
    ∀ x ∈ run, page.seen ≤ x.2.seen ∧
      x.2.state.acknowledged = profileAfter x.2.start (x.2.commits.take x.2.seen) := by
  have hok := hrun.invariant (I := fun p => p.Ok ∧ page.seen ≤ p.seen)
    (fun _ _ _ hstep hp => ⟨(hp.1.step hstep).1, Nat.le_trans hp.2 (hp.1.step hstep).2⟩)
    ⟨ok_of_reachable h, Nat.le_refl _⟩
  exact fun x hx => ⟨(hok x hx).2, (hok x hx).1.acknowledged.2⟩

theorem acknowledged_mono_late : (replay Page.next (.begin .none) lateRun).length = lateRun.length ∧ latePage.seen = 3 ∧
    ∀ x ∈ replay Page.next (.begin .none) lateRun, (Page.begin .none).seen ≤ x.2.seen ∧
      x.2.state.acknowledged = profileAfter x.2.start (x.2.commits.take x.2.seen) :=
  ⟨by decide +kernel, by decide +kernel, acknowledged_mono (.init ⟨.none, rfl⟩) System.run_replay⟩

/-- **No change the user asked for is lost.** Unless saving is forbidden, the newest value
asked for is shown while it is unsaved; after that the profile seen tells of a save of it by
this page, and it is shown unless a later save put the field again. -/
theorem newest_kept (h : syncing.Reachable page) (hallowed : page.state.localWork ≠ .forbidden)
    {field : ReaderProfileField} {value : field.Value} (hnewest : page.newest field = .some value) :
    (page.state.localWork.unsaved field = .some value ∧ desiredReaderProfile page.state field = value) ∨
    (page.state.localWork.unsaved field = .none ∧ ∃ before commit after,
      page.commits.take page.seen = before ++ commit :: after ∧ Saves field value commit ∧
      (desiredReaderProfile page.state field = value ∨ ∃ later ∈ after, (later.patch field).isSome)) := by
  have hok := ok_of_reachable h
  cases hunsaved : page.state.localWork.unsaved field with
  | some unsaved =>
    have heq : unsaved = value := Option.some.inj ((hok.newest field unsaved hunsaved).symm.trans hnewest)
    exact .inl ⟨by rw [heq], by rw [desired_eq, hunsaved, Option.getD_some, heq]⟩
  | none =>
    rcases hok.kept hallowed field value hnewest with hsome | ⟨commit, hmem, hsaves⟩
    · simp [hunsaved] at hsome
    · obtain ⟨before, after, hsplit⟩ := List.append_of_mem hmem
      refine .inr ⟨rfl, before, commit, after, hsplit, hsaves, ?_⟩
      rw [desired_eq, hunsaved, Option.getD_none, hok.acknowledged.2, hsplit]
      by_cases hlater : ∃ later ∈ after, (later.patch field).isSome
      · exact .inr hlater
      · exact .inl (profileAfter_of_saves hsaves.2 fun later hmem =>
          Option.not_isSome_iff_eq_none.1 fun hsome => hlater ⟨later, hmem, hsome⟩)

theorem newest_kept_late : latePage.newest .theme = .some ReaderTheme.dark ∧
    ((latePage.state.localWork.unsaved .theme = .some ReaderTheme.dark ∧
        desiredReaderProfile latePage.state .theme = ReaderTheme.dark) ∨
      (latePage.state.localWork.unsaved .theme = .none ∧ ∃ before commit after,
        latePage.commits.take latePage.seen = before ++ commit :: after ∧ Saves .theme ReaderTheme.dark commit ∧
        (desiredReaderProfile latePage.state .theme = ReaderTheme.dark ∨ ∃ later ∈ after, (later.patch .theme).isSome))) :=
  have hclean : latePage.state.localWork = .clean := rfl
  ⟨rfl, newest_kept reachable_latePage (by simp [hclean]) rfl⟩

end Results

end Nexus.Reader
