/-
Dossiers over whole runs: the engine's transactions tell the story of `Story.Step`, in
any order and with any claims of the workers.

So a build never has two terminal children, a head never has two builds under way, and
what has ended stays as it is until its head is deleted, whatever attempts are still
at work on it (`ended_unchanged`).
-/
import Nexus.Dossiers.Story
import Nexus.Lib.ExceptFacts
import Nexus.Lib.Run

namespace Nexus.Dossiers
open ExceptFacts Relational Jobs Streams

variable {D S P : Type}

namespace DossierDb

/-! ## The story of a database -/

def story (db : DossierDb D S P) : Story S := ⟨db.heads.rows, db.builds.rows, db.ending, db.buildRows⟩

section Reads

variable {db db' : DossierDb D S P} {id headId : Uuid} {body : EventBody S}

theorem length_ending (db : DossierDb D S P) (id : Uuid) : (db.ending id).length =
    (db.revisions.rows.filter fun r => r.buildId == id).length + (db.failures.rows.filter fun f => f.buildId == id).length +
      (db.cancellations.rows.filter fun c => c.buildId == id).length := by
  simp [ending, Nat.add_assoc]

theorem existingTerminalChild_none (h : db.existingTerminalChild id = .ok .none) : db.ending id = [] := by
  unfold existingTerminalChild at h
  rw [← List.length_eq_zero_iff, length_ending]
  dsimp only at h
  split at h
  · cases h
  split at h
  · cases h
  split at h
  · cases h
  split at h
  · cases h
  omega

theorem activeBuild_iff : db.activeBuild id = true ↔ db.ending id = [] := by
  simp [activeBuild, ending, List.filter_eq_nil_iff, and_assoc]

theorem exists_of_lockHeadIdForBuild (h : db.lockHeadIdForBuild id = .some headId) :
    ∃ b ∈ db.builds.rows, b.id = id ∧ b.artifactId = headId := by
  obtain ⟨b, hb, hhead⟩ := Option.bind_eq_some_iff.1 h
  obtain ⟨hd, hhd, rfl⟩ := Option.map_eq_some_iff.1 hhead
  exact ⟨b, (Table.find?_eq_some.1 hb).1, (Table.find?_eq_some.1 hb).2, (Table.find?_eq_some.1 hhd).2.symm⟩

theorem findHeadId_none {subject : Subject} {audience : Audience} (h : db.findHeadId subject audience = .none) :
    ∀ hd ∈ db.heads.rows, ¬(hd.subject = subject ∧ hd.audience = audience) := by
  simpa [findHeadId] using h

theorem buildTicket_none {key : Text} (h : db.buildTicketForIdempotency headId key = .none) :
    ∀ b ∈ db.builds.rows, b.artifactId = headId → b.idempotencyKey ≠ key := by
  simpa [buildTicketForIdempotency] using h

theorem orDefect_eq_ok {α : Type} {x : Option α} {a : α} : orDefect x = .ok a ↔ x = .some a := by
  cases x <;> simp [orDefect]

end Reads

section Writes

variable {db db' : DossierDb D S P} {id headId : Uuid} {body : EventBody S}

theorem appendBuildEvent_spec (h : db.appendBuildEvent id body = .ok db') :
    (∃ b ∈ db.builds.rows, b.id = id) ∧ db'.story = db.story.tell id body := by
  unfold appendBuildEvent at h
  split at h
  next => cases h
  next b hb =>
    cases h
    refine ⟨⟨b, Table.find?_eq_some.1 hb⟩, ?_⟩
    have hrows : (fun id' => buildRows { db with events := db.events ++ [⟨id, nextSeq (db.buildRows id), body.event⟩] } id') =
        Function.update db.buildRows id (db.buildRows id ++ [⟨nextSeq (db.buildRows id), body.event⟩]) := by
      funext id'
      by_cases heq : id' = id
      · subst heq
        simp [buildRows, List.filter_append]
      · rw [Function.update_of_ne heq]
        simp [buildRows, List.filter_append, Ne.symm heq]
    unfold story Story.tell
    simp only [← hrows]
    rfl

/-- A new terminal child of a build that has none. -/
theorem ending_update {db' : DossierDb D S P} (hself : db'.ending id = [body])
    (hother : ∀ id' ≠ id, db'.ending id' = db.ending id') : db'.ending = Function.update db.ending id [body] := by
  funext id'
  by_cases heq : id' = id
  · rw [heq, Function.update_self, hself]
  · rw [Function.update_of_ne heq, hother id' heq]

/-- A terminal child is inserted, and its event appended. -/
theorem appendTerminal_spec {child : DossierDb D S P} (h : child.appendBuildEvent id body = .ok db') (hheads : child.heads = db.heads)
    (hbuilds : child.builds = db.builds) (hevents : child.events = db.events) (hself : child.ending id = [body])
    (hother : ∀ id' ≠ id, child.ending id' = db.ending id') :
    (∃ b ∈ db.builds.rows, b.id = id) ∧ db'.story = db.story.finish id body := by
  obtain ⟨hbuild, hstory⟩ := appendBuildEvent_spec h
  refine ⟨hbuilds ▸ hbuild, hstory.trans ?_⟩
  have hrows : child.buildRows = db.buildRows := by
    unfold buildRows
    rw [hevents]
  simp only [story, Story.tell, Story.finish, ending_update hself hother, hheads, hbuilds, hrows]

theorem ending_nil (h : db.ending id = []) : (db.revisions.rows.filter fun r => r.buildId == id) = [] ∧
    (db.failures.rows.filter fun f => f.buildId == id) = [] ∧ (db.cancellations.rows.filter fun c => c.buildId == id) = [] := by
  simpa only [ending, List.append_eq_nil_iff, List.map_eq_nil_iff, and_assoc] using h

theorem insertFailure_spec {facts : FailureFacts S} (h : db.insertFailure id facts = .ok db') (hnil : db.ending id = []) :
    (∃ b ∈ db.builds.rows, b.id = id) ∧ db'.story = db.story.finish id (.failed facts) := by
  obtain ⟨failures, hfailures, happend⟩ := bind_eq_ok.1 h
  obtain ⟨-, hrows⟩ := Table.insert?_eq_some.1 (orDefect_eq_ok.1 hfailures)
  exact appendTerminal_spec happend rfl rfl rfl (by simp [ending, hrows, ending_nil hnil])
    fun id' hne => by simp [ending, hrows, Ne.symm hne]

theorem insertCancellation_spec {actor : Option Uuid} (h : db.insertCancellation id actor = .ok db') (hnil : db.ending id = []) :
    (∃ b ∈ db.builds.rows, b.id = id) ∧ db'.story = db.story.finish id (.cancelled actor) := by
  obtain ⟨cancellations, hcancellations, happend⟩ := bind_eq_ok.1 h
  obtain ⟨-, hrows⟩ := Table.insert?_eq_some.1 (orDefect_eq_ok.1 hcancellations)
  exact appendTerminal_spec happend rfl rfl rfl (by simp [ending, hrows, ending_nil hnil])
    fun id' hne => by simp [ending, hrows, Ne.symm hne]

theorem insertRevision_spec {revision : Revision D} (h : db.insertRevision revision = .ok db') (hnil : db.ending revision.buildId = []) :
    (∃ b ∈ db.builds.rows, b.id = revision.buildId) ∧ db'.story = db.story.finish revision.buildId (.succeeded revision.id) := by
  obtain ⟨revisions, hrevisions, happend⟩ := bind_eq_ok.1 h
  obtain ⟨-, hrows⟩ := Table.insert?_eq_some.1 (orDefect_eq_ok.1 hrevisions)
  exact appendTerminal_spec happend rfl rfl rfl (by simp [ending, hrows, ending_nil hnil])
    fun id' hne => by simp [ending, hrows, Ne.symm hne]

theorem insertHead_spec {subject : Subject} {audience : Audience} (h : db.insertHead headId subject audience = .ok db')
    (hkey : db.findHeadId subject audience = .none) (new : Uuid → Prop) : Story.Step new db.story db'.story := by
  obtain ⟨heads, hheads, hdb⟩ := bind_eq_ok.1 h
  cases hdb
  obtain ⟨hfresh, hrows⟩ := Table.insert?_eq_some.1 (orDefect_eq_ok.1 hheads)
  have hstory : story { db with heads := heads } = { db.story with heads := ⟨headId, subject, audience, .none⟩ :: db.story.heads } := by
    unfold story
    rw [hrows]
    rfl
  rw [hstory]
  exact .head _ (Table.find?_eq_none.1 hfresh) (findHeadId_none hkey) rfl

/-- A pointer that is cleared goes with its row. -/
theorem filter_cleared (headIds : List Uuid) (heads : List Head) :
    ((heads.map fun h => if headIds.contains h.id then { h with currentRevisionId := .none } else h).filter fun h => !headIds.contains h.id) =
      heads.filter fun h => !headIds.contains h.id := by
  induction heads with
  | nil => rfl
  | cons h heads ih =>
    by_cases hc : h.id ∈ headIds
    · simpa [hc] using ih
    · simpa [hc] using ih

theorem filter_gone {ρ : Type} (gone : Uuid → Bool) (key : ρ → Uuid) (rows : List ρ) (id : Uuid) :
    ((rows.filter fun r => !gone (key r)).filter fun r => key r == id) = if gone id then [] else rows.filter fun r => key r == id := by
  rw [List.filter_filter]
  split
  next hgone =>
    refine List.filter_eq_nil_iff.2 fun r _ => ?_
    by_cases hid : key r = id <;> simp [hid, hgone]
  next hgone =>
    refine List.filter_congr fun r _ => ?_
    by_cases hid : key r = id <;> simp [hid, hgone]

theorem contains_gone (db : DossierDb D S P) (headIds : List Uuid) (id : Uuid) :
    ((db.builds.rows.filter fun b => headIds.contains b.artifactId).map Build.id).contains id = db.story.gone headIds.contains id := by
  rw [Bool.eq_iff_iff, Story.gone_eq_true]
  simp only [List.contains_eq_mem, decide_eq_true_eq, List.mem_map, List.mem_filter]
  exact ⟨fun ⟨b, ⟨hb, hp⟩, hid⟩ => ⟨b, hb, hid, hp⟩, fun ⟨b, hb, hid, hp⟩ => ⟨b, ⟨hb, hp⟩, hid⟩⟩

theorem deleteHeads_spec (db : DossierDb D S P) (headIds : List Uuid) : (db.deleteHeads headIds).story = db.story.remove headIds.contains := by
  have hgone := db.contains_gone headIds
  refine Story.ext (filter_cleared headIds db.heads.rows) ?_ (funext fun id => ?_) (funext fun id => ?_)
  · refine List.filter_congr fun b hb => ?_
    refine congrArg not ?_
    dsimp only
    rw [hgone, Bool.eq_iff_iff, Story.gone_eq_true]
    constructor
    · rintro ⟨b', hb', hid, hp⟩
      rwa [← Table.eq_of_key hb' hb hid]
    · exact fun hp => ⟨b, hb, rfl, hp⟩
  · show ending (db.deleteHeads headIds) id = if db.story.gone headIds.contains id then [] else db.ending id
    simp only [ending, deleteHeads, Table.deleteWhere, hgone, filter_gone]
    split <;> rfl
  · show buildRows (db.deleteHeads headIds) id = if db.story.gone headIds.contains id then [] else db.buildRows id
    simp only [buildRows, deleteHeads, hgone, filter_gone]
    split <;> rfl

/-- The rows of a build, where the rows of some builds are rewritten. -/
theorem filter_map_key {ρ : Type} (key : ρ → Uuid) (f : ρ → ρ) (hf : ∀ r, key (f r) = key r) (rows : List ρ) (id : Uuid) :
    ((rows.map f).filter fun r => key r == id) = (rows.filter fun r => key r == id).map f := by
  rw [List.filter_map]
  simp [Function.comp_def, hf]

/-- An update of other columns. -/
theorem map_filter_updateWhere {ρ κ β : Type} {key : ρ → κ} (t : Table ρ key) (p : ρ → Bool) (f : ρ → ρ) (hf : ∀ r, key (f r) = key r)
    (k : ρ → Uuid) (g : ρ → β) (h : ∀ r, k (f r) = k r ∧ g (f r) = g r) {id : Uuid} :
    ((t.updateWhere p f hf).rows.filter fun r => k r == id).map g = (t.rows.filter fun r => k r == id).map g := by
  have hkeep (r : ρ) : k (if p r then f r else r) = k r ∧ g (if p r then f r else r) = g r := by
    split
    · exact h r
    · exact ⟨rfl, rfl⟩
  rw [Table.updateWhere, filter_map_key k _ fun r => (hkeep r).1, List.map_map]
  exact List.map_congr_left fun r _ => (hkeep r).2

theorem ending_redactUser (db : DossierDb D S P) (ownerOf : Uuid → Option Uuid) (userId id : Uuid) :
    (db.redactUser ownerOf userId).ending id = if (db.cancelledBy userId).contains id then (db.ending id).map withoutActor else db.ending id := by
  have hrevisions : ((db.redactUser ownerOf userId).revisions.rows.filter fun r => r.buildId == id).map (fun r => (.succeeded r.id : EventBody S)) =
      (db.revisions.rows.filter fun r => r.buildId == id).map fun r => .succeeded r.id := by
    refine Eq.trans (map_filter_updateWhere _ _ _ (by intro _; rfl) Revision.buildId _ fun r => ?_)
      (map_filter_updateWhere _ _ _ (by intro _; rfl) Revision.buildId _ fun r => ?_)
    · exact ⟨rfl, rfl⟩
    · exact ⟨rfl, rfl⟩
  have hcancellations : ((db.redactUser ownerOf userId).cancellations.rows.filter fun c => c.buildId == id).map
      (fun c => (.cancelled c.actorUserId : EventBody S)) = if (db.cancelledBy userId).contains id then
        ((db.cancellations.rows.filter fun c => c.buildId == id).map fun c => (.cancelled c.actorUserId : EventBody S)).map withoutActor
      else (db.cancellations.rows.filter fun c => c.buildId == id).map fun c => .cancelled c.actorUserId := by
    simp only [redactUser, Table.updateWhere]
    rw [filter_map_key Cancellation.buildId _ fun c => by split <;> rfl, List.map_map]
    split
    next hnamed =>
      rw [List.map_map]
      refine List.map_congr_left fun c hc => ?_
      obtain ⟨c', hc', hid⟩ := List.mem_map.1 (List.contains_iff_mem.1 hnamed)
      obtain ⟨hmem', hactor⟩ := List.mem_filter.1 hc'
      obtain ⟨hmem, hkey⟩ := List.mem_filter.1 hc
      obtain rfl := Table.eq_of_key hmem' hmem (hid.trans (eq_of_beq hkey).symm)
      simp [eq_of_beq hactor, withoutActor]
    next hnamed =>
      refine List.map_congr_left fun c hc => ?_
      obtain ⟨hmem, hkey⟩ := List.mem_filter.1 hc
      have hactor : c.actorUserId ≠ .some userId := by
        refine fun hactor => hnamed (List.contains_iff_mem.2 ?_)
        exact List.mem_map.2 ⟨c, List.mem_filter.2 ⟨hmem, beq_iff_eq.2 hactor⟩, eq_of_beq hkey⟩
      simp [hactor]
  unfold ending
  rw [hrevisions, hcancellations]
  split
  · simp [redactUser, withoutActor, Function.comp_def]
  · rfl

theorem redactUser_spec (db : DossierDb D S P) (ownerOf : Uuid → Option Uuid) (userId : Uuid) :
    ∃ f : Build → Build, (∀ b, (f b).id = b.id ∧ (f b).artifactId = b.artifactId ∧ (f b).idempotencyKey = b.idempotencyKey) ∧
      (db.redactUser ownerOf userId).story = db.story.redact f (db.cancelledBy userId).contains := by
  refine ⟨fun b => if b.requesterUserId == .some userId then { b with requesterUserId := .none } else b, fun b => ?_, ?_⟩
  · dsimp only
    split <;> exact ⟨rfl, rfl, rfl⟩
  refine Story.ext rfl rfl (funext fun id => db.ending_redactUser ownerOf userId id) (funext fun id => ?_)
  show ((db.events.map fun e => if (db.cancelledBy userId).contains e.buildId then
      { e with row := { e.row with event := (withoutActor e.row.event.payload).event } } else e).filter fun e => e.buildId == id).map BuildEvent.row =
    if (db.cancelledBy userId).contains id then (db.buildRows id).map Story.unnamed else db.buildRows id
  rw [filter_map_key BuildEvent.buildId _ fun e => by split <;> rfl, List.map_map]
  unfold buildRows
  split
  next hnamed =>
    rw [List.map_map]
    refine List.map_congr_left fun e he => ?_
    simp [eq_of_beq (List.mem_filter.1 he).2, List.contains_iff_mem.1 hnamed, Story.unnamed]
  next hnamed =>
    refine List.map_congr_left fun e he => ?_
    rw [List.contains_iff_mem] at hnamed
    simp [eq_of_beq (List.mem_filter.1 he).2, hnamed]

end Writes

/-! ## The story of a command -/

/-- The commands and cleanups, and the statements of the queue. -/
inductive Command (D S P : Type)
  | bootstrap (fresh : Fresh) (subject : Subject) (audience : Audience) (requester : Uuid) (key : Text) (instruction : Option Text)
  | regenerate (access : Access) (fresh : Fresh) (artifactId requester : Uuid) (key : Text) (instruction : Option Text)
  | learn (fresh : Fresh) (idea : Subject) (requester : Uuid) (requestKey : Text)
  | progress (now : Instant) (ctx : JobExecutionContext) (buildId : Uuid) (visible : Bool) (phase message : Text) (idempotentOnce : Bool)
  | success (now : Instant) (ctx : JobExecutionContext) (inputsCurrent : Bool) (revision : Revision D)
  | failure (now : Instant) (ctx : Option JobExecutionContext) (inputRecheck : Option Bool) (buildId : Uuid) (facts : FailureFacts S)
  | cancel (access : Access) (buildId actor : Uuid)
  | makeCurrent (access : Access) (revisionId actor : Uuid)
  | subjectDeleted (subject : Subject)
  | subjectAudienceRemoved (subject : Subject) (audience : Audience)
  | audienceVisibilityChanged (access : Access) (audience : Audience)
  | userDeleted (ownsLibraries : Bool) (ownerOf : Uuid → Option Uuid) (userId : Uuid)
  | queue (now : Instant) (op : QueueOp P)

/-- The id a command gives to a build. -/
def Command.handsOut : Command D S P → Uuid → Prop
  | .bootstrap fresh .., id | .regenerate _ fresh .., id | .learn fresh .., id => id = fresh.buildId
  | _, _ => False

variable (dispatchPayload : Uuid → P)

def Command.run [Payload P] [DecidableEq P] (db : DossierDb D S P) : Command D S P → Except DossierError (DossierDb D S P)
  | .bootstrap fresh subject audience requester key instruction =>
    (db.bootstrapResourceDossier dispatchPayload fresh subject audience requester key instruction).map Prod.snd
  | .regenerate access fresh artifactId requester key instruction =>
    (db.regenerateArtifact dispatchPayload access fresh artifactId requester key instruction).map Prod.snd
  | .learn fresh idea requester requestKey => (db.finalizeLearn dispatchPayload fresh idea requester requestKey).map Prod.snd
  | .progress now ctx buildId visible phase message idempotentOnce =>
    (db.appendGuardedStreamEvent now ctx buildId visible phase message idempotentOnce).map Prod.snd
  | .success now ctx inputsCurrent revision => db.successTerminal now ctx inputsCurrent revision
  | .failure now ctx inputRecheck buildId facts => db.terminalFailure now ctx inputRecheck buildId facts
  | .cancel access buildId actor => db.cancelBuild access buildId actor
  | .makeCurrent access revisionId actor => db.makeCurrent access revisionId actor
  | .subjectDeleted subject => .ok (db.onSubjectDeleted subject)
  | .subjectAudienceRemoved subject audience => .ok (db.onSubjectAudienceRemoved subject audience)
  | .audienceVisibilityChanged access audience => .ok (db.onAudienceVisibilityChanged access audience)
  | .userDeleted ownsLibraries ownerOf userId => db.onUserDeleted ownsLibraries ownerOf userId
  | .queue now op => .ok { db with jobs := (op.run now db.jobs).2 }

section Commands

variable {dispatchPayload} {db db' : DossierDb D S P} {new : Uuid → Prop} {fresh : Fresh} {key : Text} {instruction : Option Text}
  {access : Access}

/-- The story goes on. -/
abbrev Tells (new : Uuid → Prop) (db db' : DossierDb D S P) : Prop := Relation.ReflTransGen (Story.Step new) db.story db'.story

theorem ending_ne_nil_of_hasActiveBuild {headId : Uuid} (h : db.hasActiveBuild headId = false) :
    ∀ b ∈ db.builds.rows, b.artifactId = headId → db.ending b.id ≠ [] := by
  intro b hb ha hnil
  refine Bool.eq_false_iff.1 h (List.any_eq_true.2 ⟨b, hb, ?_⟩)
  rw [Bool.and_eq_true, beq_iff_eq]
  exact ⟨ha, activeBuild_iff.2 hnil⟩

theorem ensureBuildLocked_tells {artifactId requester : Uuid} {ticket : BuildTicket}
    (h : db.ensureBuildLocked dispatchPayload fresh artifactId requester instruction key = .ok (ticket, db'))
    (hhead : ∃ hd ∈ db.heads.rows, hd.id = artifactId) : Tells (· = fresh.buildId) db db' := by
  unfold ensureBuildLocked at h
  split at h
  next =>
    cases h
    exact .refl
  next hkey =>
    obtain ⟨hactive, h⟩ := check_eq_ok.1 h
    obtain ⟨builds, hbuilds, h⟩ := bind_eq_ok.1 h
    obtain ⟨db₁, hdb₁, h⟩ := bind_eq_ok.1 h
    obtain ⟨⟨row, inserted, jobs⟩, -, h⟩ := bind_eq_ok.1 h
    cases h
    obtain ⟨hid, hrows⟩ := Table.insert?_eq_some.1 (orDefect_eq_ok.1 hbuilds)
    obtain ⟨-, hstory⟩ := appendBuildEvent_spec hdb₁
    have hinsert : story { db with builds := builds } = { db.story with builds :=
        ⟨fresh.buildId, artifactId, .some requester, instruction, key, fresh.now⟩ :: db.story.builds } := Story.ext rfl hrows rfl rfl
    have htold : story { db₁ with jobs := jobs } = Story.tell { db.story with builds :=
        ⟨fresh.buildId, artifactId, .some requester, instruction, key, fresh.now⟩ :: db.story.builds } fresh.buildId
          (.started fresh.buildId artifactId) := by
      rw [← hinsert]
      exact hstory
    refine .single ?_
    rw [htold]
    exact .build ⟨fresh.buildId, artifactId, .some requester, instruction, key, fresh.now⟩ rfl hhead (Table.find?_eq_none.1 hid)
      (buildTicket_none hkey) (ending_ne_nil_of_hasActiveBuild (Bool.eq_false_iff.2 hactive))

theorem mem_insertHead {headId : Uuid} {subject : Subject} {audience : Audience} (h : db.insertHead headId subject audience = .ok db') :
    ∃ hd ∈ db'.heads.rows, hd.id = headId := by
  obtain ⟨heads, hheads, hdb⟩ := bind_eq_ok.1 h
  cases hdb
  refine ⟨⟨headId, subject, audience, .none⟩, ?_, rfl⟩
  rw [(Table.insert?_eq_some.1 (orDefect_eq_ok.1 hheads)).2]
  exact List.mem_cons_self

theorem bootstrap_tells {subject : Subject} {audience : Audience} {requester : Uuid} {ticket : BuildTicket}
    (h : db.bootstrapResourceDossier dispatchPayload fresh subject audience requester key instruction = .ok (ticket, db')) :
    Tells (· = fresh.buildId) db db' := by
  obtain ⟨instruction', -, h⟩ := bind_eq_ok.1 h
  split at h
  next =>
    split at h
    next => cases h
    next =>
      cases h
      exact .refl
  next hnone =>
    obtain ⟨db₁, hdb₁, h⟩ := bind_eq_ok.1 h
    exact (ensureBuildLocked_tells h (mem_insertHead hdb₁)).head (insertHead_spec hdb₁ hnone _)

theorem regenerate_tells {artifactId requester : Uuid} {ticket : BuildTicket}
    (h : db.regenerateArtifact dispatchPayload access fresh artifactId requester key instruction = .ok (ticket, db')) :
    Tells (· = fresh.buildId) db db' := by
  obtain ⟨instruction', -, h⟩ := bind_eq_ok.1 h
  split at h
  next => cases h
  next hd hfind =>
    obtain ⟨-, h⟩ := check_eq_ok.1 h
    obtain ⟨-, h⟩ := check_eq_ok.1 h
    exact ensureBuildLocked_tells h ⟨hd, Table.find?_eq_some.1 hfind⟩

theorem learn_tells {idea : Subject} {requester : Uuid} {out : LearnSuccess}
    (h : db.finalizeLearn dispatchPayload fresh idea requester key = .ok (out, db')) : Tells (· = fresh.buildId) db db' := by
  obtain ⟨⟨artifactId, db₁⟩, hhead, h⟩ := bind_eq_ok.1 h
  have hfirst : Tells (· = fresh.buildId) db db₁ := by
    unfold ensureHeadLocked at hhead
    split at hhead
    next =>
      cases hhead
      exact .refl
    next hnone =>
      obtain ⟨db₂, hdb₂, hhead⟩ := bind_eq_ok.1 hhead
      cases hhead
      exact .single (insertHead_spec hdb₂ hnone _)
  dsimp only at h
  split at h
  next => cases h
  next hd hfind =>
    split at h
    next =>
      cases h
      exact hfirst
    next =>
      obtain ⟨⟨ticket, db₂⟩, hensure, h⟩ := bind_eq_ok.1 h
      cases h
      exact hfirst.trans (ensureBuildLocked_tells hensure ⟨hd, Table.find?_eq_some.1 hfind⟩)

theorem progress_tells {now : Instant} {ctx : JobExecutionContext} {buildId : Uuid} {visible : Bool} {phase message : Text}
    {idempotentOnce : Bool} {out : StreamEventWriteResult}
    (h : db.appendGuardedStreamEvent now ctx buildId visible phase message idempotentOnce = .ok (out, db')) : Tells new db db' := by
  unfold appendGuardedStreamEvent at h
  split at h
  next =>
    cases h
    exact .refl
  next =>
    obtain ⟨child, hchild, h⟩ := bind_eq_ok.1 h
    split at h
    next =>
      cases h
      exact .refl
    next hguard =>
      have hnone : child = .none := by
        cases child with
        | none => rfl
        | some child => exact absurd rfl hguard
      rw [hnone] at hchild
      have hnil := existingTerminalChild_none hchild
      split at h
      next =>
        cases h
        exact .refl
      split at h
      next =>
        cases h
        exact .refl
      next =>
        obtain ⟨db₁, hdb₁, h⟩ := bind_eq_ok.1 h
        cases h
        obtain ⟨⟨b, hb, rfl⟩, hstory⟩ := appendBuildEvent_spec hdb₁
        refine .single ?_
        rw [hstory]
        exact .progress b hb hnil phase message

theorem insertFailure_tells {buildId : Uuid} {facts : FailureFacts S} (h : db.insertFailure buildId facts = .ok db')
    (hnil : db.ending buildId = []) : Tells new db db' := by
  obtain ⟨⟨b, hb, rfl⟩, hstory⟩ := insertFailure_spec h hnil
  refine .single ?_
  rw [hstory]
  exact .finish b hb hnil _

theorem insertCancellation_step {buildId : Uuid} {actor : Option Uuid} (h : db.insertCancellation buildId actor = .ok db')
    (hnil : db.ending buildId = []) : Story.Step new db.story db'.story := by
  obtain ⟨⟨b, hb, rfl⟩, hstory⟩ := insertCancellation_spec h hnil
  rw [hstory]
  exact .finish b hb hnil _

theorem success_tells {now : Instant} {ctx : JobExecutionContext} {inputsCurrent : Bool} {revision : Revision D}
    (h : db.successTerminal now ctx inputsCurrent revision = .ok db') : Tells new db db' := by
  unfold successTerminal at h
  split at h
  next =>
    cases h
    exact .refl
  next headId hlock =>
    obtain ⟨child, hchild, h⟩ := bind_eq_ok.1 h
    split at h
    next =>
      cases h
      exact .refl
    next hguard =>
      rw [Option.not_isSome_iff_eq_none.1 hguard] at hchild
      have hnil := existingTerminalChild_none hchild
      split at h
      next =>
        cases h
        exact .refl
      split at h
      next => exact insertFailure_tells h hnil
      next =>
        obtain ⟨db₁, hdb₁, h⟩ := bind_eq_ok.1 h
        cases h
        obtain ⟨b, hb, hid, hhead⟩ := exists_of_lockHeadIdForBuild hlock
        obtain ⟨-, hfinish⟩ := insertRevision_spec hdb₁ hnil
        rw [← hid] at hnil hfinish
        have hpoint : story { db₁ with heads := db₁.heads.updateWhere (fun h => h.id == headId) fun h =>
            { h with currentRevisionId := .some revision.id } } = db₁.story.point b.artifactId revision.id := by
          rw [hhead]
          rfl
        have hfirst : Story.Step new db.story db₁.story := by
          rw [hfinish]
          exact .finish b hb hnil _
        refine .tail (.single hfirst) ?_
        rw [hpoint]
        refine .point b ?_ revision.id ?_
        · rw [hfinish]
          exact hb
        · rw [hfinish]
          exact Story.finish_ending_self

theorem failure_tells {now : Instant} {ctx : Option JobExecutionContext} {inputRecheck : Option Bool} {buildId : Uuid}
    {facts : FailureFacts S} (h : db.terminalFailure now ctx inputRecheck buildId facts = .ok db') : Tells new db db' := by
  unfold terminalFailure at h
  split at h
  next =>
    cases h
    exact .refl
  next =>
    obtain ⟨child, hchild, h⟩ := bind_eq_ok.1 h
    split at h
    next =>
      cases h
      exact .refl
    next hguard =>
      rw [Option.not_isSome_iff_eq_none.1 hguard] at hchild
      split at h
      next =>
        cases h
        exact .refl
      next => exact insertFailure_tells h (existingTerminalChild_none hchild)

theorem cancel_tells {buildId actor : Uuid} (h : db.cancelBuild access buildId actor = .ok db') : Tells new db db' := by
  unfold cancelBuild at h
  split at h
  next => cases h
  next =>
    split at h
    next => cases h
    next =>
      obtain ⟨-, h⟩ := check_eq_ok.1 h
      obtain ⟨-, h⟩ := check_eq_ok.1 h
      obtain ⟨child, hchild, h⟩ := bind_eq_ok.1 h
      split at h
      next =>
        cases h
        exact .refl
      next => cases h
      next => exact .single (insertCancellation_step h (existingTerminalChild_none hchild))

theorem succeeded_mem_ending {revision : Revision D} (h : revision ∈ db.revisions.rows) :
    .succeeded revision.id ∈ db.ending revision.buildId := by
  refine List.mem_append_left _ (List.mem_append_left _ (List.mem_map.2 ⟨revision, ?_, rfl⟩))
  exact List.mem_filter.2 ⟨h, beq_self_eq_true _⟩

theorem makeCurrent_tells (hok : db.story.Ok) {revisionId actor : Uuid} (h : db.makeCurrent access revisionId actor = .ok db') :
    Tells new db db' := by
  unfold makeCurrent at h
  split at h
  next => cases h
  next hd hfind =>
    obtain ⟨-, h⟩ := check_eq_ok.1 h
    obtain ⟨-, h⟩ := check_eq_ok.1 h
    obtain ⟨revision, hrevision, hfind⟩ := Option.bind_eq_some_iff.1 hfind
    obtain ⟨b, hb, hhead⟩ := Option.bind_eq_some_iff.1 hfind
    obtain ⟨hmem, rfl⟩ := Table.find?_eq_some.1 hrevision
    obtain ⟨hb, hid⟩ := Table.find?_eq_some.1 hb
    obtain ⟨-, hhead⟩ := Table.find?_eq_some.1 hhead
    have hended : db.ending b.id = [.succeeded revision.id] := by
      have hmem := succeeded_mem_ending hmem
      rw [← hid] at hmem
      have hone := hok.oneEnding b hb
      change (db.ending b.id).length ≤ 1 at hone
      cases he : db.ending b.id with
      | nil => rw [he] at hmem; cases hmem
      | cons body rest =>
        rw [he] at hmem hone
        obtain rfl : rest = [] := List.length_eq_zero_iff.1 (by simpa using hone)
        rw [List.mem_singleton.1 hmem]
    cases h
    refine .single ?_
    have hpoint : story { db with heads := db.heads.updateWhere (fun h => h.id == hd.id) fun h =>
        { h with currentRevisionId := .some revision.id } } = db.story.point b.artifactId revision.id := by
      rw [← hhead]
      rfl
    rw [hpoint]
    exact .point b hb _ hended

theorem deleteHeadsWhere_tells (p : Head → Bool) : Tells new db (db.deleteHeadsWhere p) := by
  refine .single ?_
  rw [deleteHeadsWhere, deleteHeads_spec]
  exact .remove _

theorem cancelAll_tells {ids : List Uuid} (hnodup : ids.Nodup) (hnil : ∀ id ∈ ids, db.ending id = [])
    (h : ids.foldlM cancelForTeardown db = .ok db') : Tells new db db' := by
  induction ids generalizing db with
  | nil =>
    cases h
    exact .refl
  | cons id ids ih =>
    obtain ⟨hid, hrest⟩ := List.nodup_cons.1 hnodup
    obtain ⟨hhere, hbehind⟩ := List.forall_mem_cons.1 hnil
    rw [List.foldlM_cons] at h
    obtain ⟨db₁, hdb₁, h⟩ := bind_eq_ok.1 h
    obtain ⟨db₂, hdb₂, hjobs⟩ := bind_eq_ok.1 hdb₁
    cases hjobs
    have hstory := (insertCancellation_spec hdb₂ hhere).2
    have hstep : Story.Step new db.story db₂.story := insertCancellation_step hdb₂ hhere
    have hending (id' : Uuid) (hid' : id' ∈ ids) : db₂.ending id' = [] := by
      have hne : id' ≠ id := fun heq => hid (heq ▸ hid')
      have hsame : db₂.ending id' = db.ending id' := (congrFun (congrArg Story.ending hstory) id').trans (Story.finish_ending_ne hne)
      rw [hsame, hbehind id' hid']
    have htail : Tells new { db₂ with jobs := db₂.jobs.revokeJobsByDedupeKeys "dossier_build" [dispatchKey id] } db' := ih hrest hending h
    exact .head hstep htail

theorem activeBuildIds_nodup (db : DossierDb D S P) (headId userId : Uuid) : (db.activeBuildIds headId userId).Nodup :=
  db.builds.nodup.sublist (List.filter_sublist.map Build.id)

theorem ending_of_mem_activeBuildIds {headId userId id : Uuid} (h : id ∈ db.activeBuildIds headId userId) : db.ending id = [] := by
  obtain ⟨b, hb, rfl⟩ := List.mem_map.1 h
  have hactive := (List.mem_filter.1 hb).2
  rw [Bool.and_eq_true] at hactive
  exact activeBuild_iff.1 hactive.2

theorem cancelShared_tells {heads : List Uuid} {userId : Uuid}
    (h : heads.foldlM (fun db headId => (db.activeBuildIds headId userId).foldlM cancelForTeardown db) db = .ok db') : Tells new db db' := by
  induction heads generalizing db with
  | nil =>
    cases h
    exact .refl
  | cons headId heads ih =>
    rw [List.foldlM_cons] at h
    obtain ⟨db₁, hdb₁, h⟩ := bind_eq_ok.1 h
    exact (cancelAll_tells (db.activeBuildIds_nodup headId userId) (fun id hid => ending_of_mem_activeBuildIds hid) hdb₁).trans (ih h)

theorem userDeleted_tells {ownsLibraries : Bool} {ownerOf : Uuid → Option Uuid} {userId : Uuid}
    (h : db.onUserDeleted ownsLibraries ownerOf userId = .ok db') : Tells new db db' := by
  obtain ⟨-, h⟩ := check_eq_ok.1 h
  obtain ⟨db₁, hdb₁, h⟩ := bind_eq_ok.1 h
  cases h
  obtain ⟨f, hf, hstory⟩ := db₁.redactUser_spec ownerOf userId
  have hlast : Story.Step new db₁.story (db₁.redactUser ownerOf userId).story := by
    rw [hstory]
    exact .redact f hf _
  exact ((deleteHeadsWhere_tells _).trans (cancelShared_tells hdb₁)).tail hlast

variable [Payload P] [DecidableEq P] {c : Command D S P}

/-- **A command tells a story.** -/
theorem Command.tells (hok : db.story.Ok) (h : c.run dispatchPayload db = .ok db') : Tells c.handsOut db db' := by
  cases c with
  | bootstrap fresh subject audience requester key instruction =>
    obtain ⟨⟨ticket, db₁⟩, hrun, rfl⟩ := map_eq_ok.1 h
    exact bootstrap_tells hrun
  | regenerate access fresh artifactId requester key instruction =>
    obtain ⟨⟨ticket, db₁⟩, hrun, rfl⟩ := map_eq_ok.1 h
    exact regenerate_tells hrun
  | learn fresh idea requester requestKey =>
    obtain ⟨⟨out, db₁⟩, hrun, rfl⟩ := map_eq_ok.1 h
    exact learn_tells hrun
  | progress now ctx buildId visible phase message idempotentOnce =>
    obtain ⟨⟨out, db₁⟩, hrun, rfl⟩ := map_eq_ok.1 h
    exact progress_tells hrun
  | success now ctx inputsCurrent revision => exact success_tells h
  | failure now ctx inputRecheck buildId facts => exact failure_tells h
  | cancel access buildId actor => exact cancel_tells h
  | makeCurrent access revisionId actor => exact makeCurrent_tells hok h
  | subjectDeleted subject =>
    cases h
    exact deleteHeadsWhere_tells _
  | subjectAudienceRemoved subject audience =>
    cases h
    exact deleteHeadsWhere_tells _
  | audienceVisibilityChanged access audience =>
    cases h
    cases audience with
    | library libraryId => exact .refl
    | user userId => exact deleteHeadsWhere_tells _
  | userDeleted ownsLibraries ownerOf userId => exact userDeleted_tells h
  | queue now op =>
    cases h
    exact .refl

end Commands

end DossierDb

/-! ## Runs -/

open Transition

variable (dispatchPayload : Uuid → P)

/-- A command that raises writes nothing. -/
def DossierDb.next [Payload P] [DecidableEq P] (db : DossierDb D S P) (c : DossierDb.Command D S P) : Option (DossierDb D S P) :=
  match c.run dispatchPayload db with
  | .ok db' => .some db'
  | .error _ => .some db

def DossierDb.Empty (db : DossierDb D S P) : Prop :=
  db.heads.rows = [] ∧ db.builds.rows = [] ∧ db.revisions.rows = [] ∧ db.failures.rows = [] ∧ db.cancellations.rows = [] ∧ db.events = []

def dossiers [Payload P] [DecidableEq P] : System (DossierDb D S P) (DossierDb.Command D S P) := .ofFun DossierDb.Empty (DossierDb.next dispatchPayload)

section Runs

variable {dispatchPayload} {db db' : DossierDb D S P} {c : DossierDb.Command D S P}

theorem DossierDb.Empty.ok (h : db.Empty) : db.story.Ok := by
  obtain ⟨hheads, hbuilds, hrevisions, hfailures, hcancellations, hevents⟩ := h
  have hhead (hd : Head) (hm : hd ∈ db.story.heads) : False := by
    rw [show db.story.heads = [] from hheads] at hm
    cases hm
  have hbuild (b : Build) (hb : b ∈ db.story.builds) : False := by
    rw [show db.story.builds = [] from hbuilds] at hb
    cases hb
  exact { headKeys := fun hd hm => (hhead hd hm).elim
          headIds := fun hd hm => (hhead hd hm).elim
          buildHeads := fun b hb => (hbuild b hb).elim
          buildIds := fun b hb => (hbuild b hb).elim
          keys := fun b hb => (hbuild b hb).elim
          oneActive := fun b hb => (hbuild b hb).elim
          oneEnding := fun b hb => (hbuild b hb).elim
          logs := fun b hb => (hbuild b hb).elim
          known := fun id _ => by simp [DossierDb.story, DossierDb.ending, DossierDb.buildRows, hrevisions, hfailures, hcancellations, hevents]
          current := fun hd hm => (hhead hd hm).elim }

variable [Payload P] [DecidableEq P]

theorem next_tells (hok : db.story.Ok) (h : db.next dispatchPayload c = .some db') : DossierDb.Tells c.handsOut db db' := by
  unfold DossierDb.next at h
  split at h
  next hrun =>
    cases h
    exact DossierDb.Command.tells hok hrun
  next =>
    cases h
    exact .refl

theorem ok_of_reachable (h : (dossiers dispatchPayload).Reachable db) : db.story.Ok :=
  h.invariant (I := fun db => db.story.Ok) (fun _ hinit => DossierDb.Empty.ok hinit) fun _ _ _ hstep hok => hok.steps (next_tells hok hstep)

/-- **In every state reached a build has one terminal child at most and its log tells of
it alone; a head has one build under way at most, and its current revision is one of its own.** -/
theorem dossier_in_order (h : (dossiers dispatchPayload).Reachable db) :
    (∀ b ∈ db.builds.rows, (db.ending b.id).length ≤ 1 ∧
      ∃ progresses, db.buildRows b.id = logRows (bodies b progresses (db.ending b.id))) ∧
    (∀ b ∈ db.builds.rows, ∀ b' ∈ db.builds.rows, b.artifactId = b'.artifactId →
      db.activeBuild b.id = true → db.activeBuild b'.id = true → b = b') ∧
    (∀ hd ∈ db.heads.rows, ∀ hd' ∈ db.heads.rows, hd.subject = hd'.subject → hd.audience = hd'.audience → hd = hd') ∧
    ∀ hd ∈ db.heads.rows, ∀ r, hd.currentRevisionId = .some r →
      ∃ b ∈ db.builds.rows, b.artifactId = hd.id ∧ db.ending b.id = [.succeeded r] := by
  have hok := ok_of_reachable h
  refine ⟨fun b hb => ⟨hok.oneEnding b hb, hok.logs b hb⟩, fun b hb b' hb' ha hactive hactive' => ?_, fun hd hm hd' hm' hs ha => ?_, hok.current⟩
  · exact hok.oneActive b hb b' hb' ha (DossierDb.activeBuild_iff.1 hactive) (DossierDb.activeBuild_iff.1 hactive')
  · exact hok.headIds hd hm hd' hm' (hok.headKeys hd hm hd' hm' hs ha)

/-! A shared Dossier: the first build succeeds, the second one is cancelled while its
worker is still at it. -/

def anyone : Access := ⟨fun _ _ => true, fun _ _ => true⟩

def buildPayload (id : Uuid) : FlatObject := [("build_id", toString id)]

def cancelledOnce : List (DossierDb.Command Unit Unit FlatObject) :=
  [.bootstrap ⟨1, 10, 20, 0⟩ ⟨"media".toList, 5⟩ (.library 9) 7 "a".toList (.some " Briefly ".toList),
    .queue 0 (.claimNext "w" 60 .none []),
    .progress 1 ⟨20, "w", 1⟩ 10 true "synthesis".toList "Generating dossier".toList true,
    .success 2 ⟨20, "w", 1⟩ true ⟨100, 10, (), 7, .some 7⟩,
    .queue 2 (.complete 20 "w" .none),
    .regenerate anyone ⟨2, 11, 21, 3⟩ 1 7 "b".toList .none,
    .queue 3 (.claimNext "w" 60 .none []),
    .cancel anyone 11 7]

def noDossiers : DossierDb Unit Unit FlatObject := ⟨.empty, .empty, .empty, .empty, .empty, [], .empty⟩

def afterCancel : DossierDb Unit Unit FlatObject :=
  last noDossiers (replay (DossierDb.next buildPayload) noDossiers cancelledOnce)

theorem reachable_afterCancel : (dossiers (D := Unit) (S := Unit) buildPayload).Reachable afterCancel :=
  System.reachable_replay cancelledOnce ⟨rfl, rfl, rfl, rfl, rfl, rfl⟩

theorem dossier_in_order_afterCancel : afterCancel.ending 10 = [.succeeded 100] ∧ afterCancel.ending 11 = [.cancelled (.some 7)] ∧
    ∀ b ∈ afterCancel.builds.rows, (afterCancel.ending b.id).length ≤ 1 ∧
      ∃ progresses, afterCancel.buildRows b.id = logRows (bodies b progresses (afterCancel.ending b.id)) :=
  ⟨by decide +kernel, by decide +kernel, (dossier_in_order reachable_afterCancel).1⟩

end Runs

end Nexus.Dossiers
