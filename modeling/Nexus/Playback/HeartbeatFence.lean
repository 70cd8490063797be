/-
Native heartbeats and the natural-end fence, against a server that follows the
listening fence: at most one heartbeat of a session is in flight, sequence
numbers of a generation count from zero, and a capture is delivered once, with
no heartbeat of the session in flight or ambiguous and with the fence of the
state the session last accepted, so that its settlement is superseded by any
later reset.

This holds in every run in which no recovery reads another reset epoch while a
capture waits (`naturalEnd_marks_reset` is the run that does) and a heartbeat
that was cancelled resumes before the session's next one.
-/
import Nexus.Playback.ActivityQueue
import Nexus.Consumption.ListeningFence

namespace Nexus.Playback
open Coroutine Consumption Transition ExceptFacts

variable {R F L : Type}

/-! ## The recorder and the server -/

/-- What a heartbeat asks the server to write. -/
def HeartbeatRequest.write (q : HeartbeatRequest F) : ListeningWrite F where
  positionMs := q.sample.positionMs.toNat
  durationMs := q.sample.durationMs.map Int.toNat
  episodePlaybackRate := q.episodeRate
  expectedWriteRevision := q.expectedWriteRevision
  expectedResetEpoch := q.expectedResetEpoch

/-- The terminal listening of the receipt a capture becomes. -/
def NaturalEndCapture.terminalListening (c : NaturalEndCapture F) : ListeningWrite F where
  positionMs := c.positionMs.toNat
  durationMs := c.durationMs.map Int.toNat
  episodePlaybackRate := c.episodePlaybackRate
  expectedWriteRevision := c.writeRevision
  expectedResetEpoch := c.resetEpoch

/-- The recorder of one device, the server's rows of each media, and what the
server answered the PUTs and the reads that are under way. -/
structure FencedPlayer (R F L : Type) where
  player : RecorderState F
  server : Uuid → MediaRows R F L
  /-- The state of an accepted PUT, or its refusal. -/
  puts : Nat → Option (Option (ListeningStateOut F))
  reads : Nat → Option (ListeningStateOut F)

inductive FencedEvent (F L : Type)
  | turn (now : Reading) (ev : RecorderEvent F)
  /-- A PUT reaches the server. -/
  | put (job : Nat) (env : RequestEnv)
  /-- A recovery's GET reaches the server. -/
  | read (job : Nat)
  /-- A request of another device, or of this one's web view. -/
  | elsewhere (mediaId : Uuid) (e : ClientRequest F L)

namespace FencedPlayer

section Server

variable [Fraction F] [SqlReal R F] [ReaderLocator L F] [DecidableEq L] [DecidableEq F]
variable (kind : Uuid → MediaKind) (s : FencedPlayer R F L)

def setRows (mediaId : Uuid) (rows : MediaRows R F L) : FencedPlayer R F L :=
  { s with server := fun m => if m = mediaId then rows else s.server m }

/-- A state handed to the recorder is one the server had by now. -/
def knows (mediaId : Uuid) (writeRevision resetEpoch : Nat) : Bool :=
  resetEpoch < (s.server mediaId).base.resetEpoch ||
    resetEpoch == (s.server mediaId).base.resetEpoch && writeRevision ≤ (s.server mediaId).base.writeRevision

/-- The turn's answers and states are the server's. -/
def follows : RecorderEvent F → Bool
  | .install mediaId _ writeRevision resetEpoch => s.knows mediaId writeRevision resetEpoch
  | .adoptListeningState state =>
    s.player.recorder.session.all fun c => s.knows c.mediaId state.writeRevision state.resetEpoch
  | .heartbeatAnswered job (.response status body) =>
    if status = 200 then
      match s.player.recorder.heartbeats.runs job, s.puts job with
      | .some request, .some (.some state) => body == .some ⟨state, request.generation, request.sequence⟩
      | _, _ => false
    else if status = 409 then s.puts job == .some .none
    else true
  | .recoverAnswered job (.response status body) =>
    if status = 200 then (s.reads job).isSome && body == s.reads job else true
  | _ => true

def answerPut (mediaId : Uuid) (e : ClientRequest F L) : Option (ListeningStateOut F) :=
  match e.outcome (kind mediaId) (s.server mediaId) with
  | .ok (.listening row) => .some (toListeningStateOut (.some row))
  | _ => .none

def next : FencedEvent F L → Option (FencedPlayer R F L)
  | .turn now ev =>
    if s.follows ev then (s.player.next (now, ev)).map fun player => { s with player } else .none
  | .put job env =>
    match s.player.recorder.heartbeats.find job, s.puts job with
    | .some c, .none =>
      let e : ClientRequest F L := ⟨0, env, .recordHeartbeat c.point.write⟩
      let answer := s.answerPut kind c.point.mediaId e
      let s := s.setRows c.point.mediaId (e.after (kind c.point.mediaId) (s.server c.point.mediaId))
      .some { s with puts := fun j => if j = job then .some answer else s.puts j }
    | _, _ => .none
  | .read job =>
    (s.player.recorder.recoveries.runs job).map fun point =>
      { s with reads := fun j =>
          if j = job then .some (toListeningStateOut (s.server point.mediaId).listening) else s.reads j }
  | .elsewhere mediaId e => .some (s.setRows mediaId (e.after (kind mediaId) (s.server mediaId)))

end Server

end FencedPlayer

/-- A new recorder against any rows. -/
def fencedSystem (R F L : Type) [Fraction F] [SqlReal R F] [ReaderLocator L F] [DecidableEq L] [DecidableEq F]
    (kind : Uuid → MediaKind) : System (FencedPlayer R F L) (FencedEvent F L) :=
  .ofFun (fun s => s.player = ⟨.initial, .none⟩ ∧ s.puts = (fun _ => .none) ∧ s.reads = fun _ => .none)
    (FencedPlayer.next kind)

/-- No heartbeat of the session was in flight or ambiguous. -/
def Delivery.Ready (d : Delivery F) : Prop :=
  (∀ j q, d.heartbeats.runs j = .some q → q.token ≠ d.token) ∧ d.token ∉ d.ambiguous

/-- The capture's fence is older than any reset after the state last accepted:
its settlement is superseded and leaves the rows as they are. -/
def Delivery.OlderThanResets (R L : Type) [Fraction F] [SqlReal R F] [ReaderLocator L F] [DecidableEq L] (d : Delivery F) : Prop :=
  ∀ (kind : MediaKind) (rows : MediaRows R F L), d.acceptedEpoch < rows.base.resetEpoch →
    d.capture.resetEpoch < rows.base.resetEpoch ∧
    ∀ (e : ClientRequest F L) (origin : NaturalEndOrigin) (revision : Option Nat),
      e.request = .settleNaturalEnd origin d.capture.terminalListening revision →
      e.after kind rows = rows ∧ ∀ o, e.outcome kind rows = .ok o → o = .superseded ∨ o = .targetGone

namespace Recorder

variable (s : Recorder F)

/-- The sequence numbers of the heartbeats sent in a generation. -/
def sentIn (generation : Uuid) : List Nat :=
  (s.sent.filter fun q => q.generation = generation).map HeartbeatRequest.sequence

structure HeartbeatFence (R L : Type) [Fraction F] [SqlReal R F] [ReaderLocator L F] [DecidableEq L] : Prop where
  single : ∀ j k p q, s.heartbeats.runs j = .some p → s.heartbeats.runs k = .some q → p.token = q.token → j = k
  sequences : ∀ generation, ∃ n, s.sentIn generation = List.range n
  once : (s.captured.map Delivery.id).Nodup
  ready : ∀ d ∈ s.captured, d.Ready
  older : ∀ d ∈ s.captured, d.OlderThanResets R L

/-- A read leaves the session's reset epoch while a capture waits, and a
heartbeat that was cancelled resumes while none of its session runs. -/
def FencedInTime : RecorderEvent F → Prop
  | .recoverAnswered job (.response status body) =>
    status = 200 → ∀ point ∈ s.recoveries.runs job, ∀ state ∈ body, ∀ c ∈ s.session,
      c.token = point.token → s.captureWaits c.token = true → state.resetEpoch = c.resetEpoch
  | .heartbeatCancelled job => ∀ request ∈ s.heartbeats.stopped job,
      s.heartbeats.isActive (s.heartbeatJobs.lookup request.token) = false
  | _ => True

instance (s : Recorder F) (ev : RecorderEvent F) : Decidable (s.FencedInTime ev) := by
  cases ev <;> unfold FencedInTime <;> first | infer_instance | (rename_i answer; cases answer <;> infer_instance)

end Recorder

/-- The condition on a step of the composed system. -/
def FencedStep (s : FencedPlayer R F L) : FencedEvent F L → Prop
  | .turn _ ev => s.player.recorder.FencedInTime ev
  | _ => True

instance (s : FencedPlayer R F L) (ev : FencedEvent F L) : Decidable (FencedStep s ev) := by
  cases ev <;> unfold FencedStep <;> infer_instance

/-! ## What a turn keeps -/

namespace Recorder

structure FenceKept (s : Recorder F) : Prop where
  jobs : ∀ j q, s.heartbeats.runs j = .some q → s.heartbeatJobs.lookup q.token = .some j
  sentDrawn : ∀ q ∈ s.sent, q.generation < s.randomUuid
  drawn : ∀ c ∈ s.session, c.generation < s.randomUuid
  counted : ∀ c ∈ s.session, s.sentIn c.generation = List.range c.sequence
  sequences : ∀ generation, ∃ n, s.sentIn generation = List.range n
  epoch : ∀ c ∈ s.session, c.resetEpoch = s.acceptedEpoch
  pending : ∀ p ∈ s.naturalEndCapture, p.2 < s.randomUuid ∧ p.2 ∉ s.captured.map Delivery.id
  deliveredDrawn : ∀ d ∈ s.captured, d.id < s.randomUuid
  once : (s.captured.map Delivery.id).Nodup
  ready : ∀ d ∈ s.captured, d.Ready
  fence : ∀ d ∈ s.captured, d.capture.resetEpoch = d.acceptedEpoch

/-- No heartbeat was sent or delivered; the session keeps its generation or
draws one, and its epoch is that of the state last accepted. -/
structure Quiet (s t : Recorder F) : Prop where
  heartbeats : t.heartbeats = s.heartbeats
  heartbeatJobs : t.heartbeatJobs = s.heartbeatJobs
  sent : t.sent = s.sent
  captured : t.captured = s.captured
  capture : ∀ p ∈ t.naturalEndCapture, p ∈ s.naturalEndCapture
  generation : ∀ c ∈ t.session, (∃ c' ∈ s.session, c.generation = c'.generation ∧ c.sequence = c'.sequence) ∨
    s.randomUuid ≤ c.generation ∧ c.generation < t.randomUuid ∧ c.sequence = 0
  epoch : ∀ c ∈ t.session, c.resetEpoch = t.acceptedEpoch ∨
    t.acceptedEpoch = s.acceptedEpoch ∧ ∃ c' ∈ s.session, c.resetEpoch = c'.resetEpoch
  randomUuid : s.randomUuid ≤ t.randomUuid

theorem sentIn_undrawn {s : Recorder F} (hs : s.FenceKept) {g : Uuid} (h : s.randomUuid ≤ g) : s.sentIn g = [] := by
  have hnone : s.sent.filter (fun q => decide (q.generation = g)) = [] := by
    rw [List.filter_eq_nil_iff]
    intro q hq hg
    have hlt := hs.sentDrawn q hq
    exact absurd (of_decide_eq_true hg ▸ hlt) (Nat.not_lt.2 h)
  rw [sentIn, hnone, List.map_nil]

theorem FenceKept.quiet {s t : Recorder F} (hs : s.FenceKept) (h : Quiet s t) : t.FenceKept := by
  obtain ⟨h1, h2, h3, h4, h6, h7, h5, h8⟩ := h
  have hsent : ∀ g, t.sentIn g = s.sentIn g := fun g => by rw [sentIn, sentIn, h3]
  refine ⟨?_, ?_, ?_, ?_, ?_, ?_, ?_, ?_, ?_, ?_, ?_⟩
  · rw [h1, h2]; exact hs.jobs
  · rw [h3]; exact fun q hq => lt_of_lt_of_le (hs.sentDrawn q hq) h8
  · intro c hc
    rcases h7 c hc with ⟨c', hc', hg, -⟩ | ⟨-, hlt, -⟩
    · exact hg ▸ lt_of_lt_of_le (hs.drawn c' hc') h8
    · exact hlt
  · intro c hc
    rw [hsent]
    rcases h7 c hc with ⟨c', hc', hg, hq⟩ | ⟨hle, -, hq⟩
    · rw [hg, hq]
      exact hs.counted c' hc'
    · rw [hq, sentIn_undrawn hs hle]
      rfl
  · exact fun g => by rw [hsent]; exact hs.sequences g
  · intro c hc
    rcases h5 c hc with he | ⟨ha, c', hc', he⟩
    · exact he
    · rw [he, ha]
      exact hs.epoch c' hc'
  · intro p hp
    rw [h4]
    exact ⟨lt_of_lt_of_le (hs.pending p (h6 p hp)).1 h8, (hs.pending p (h6 p hp)).2⟩
  · rw [h4]; exact fun d hd => lt_of_lt_of_le (hs.deliveredDrawn d hd) h8
  · rw [h4]; exact hs.once
  · rw [h4]; exact hs.ready
  · rw [h4]; exact hs.fence

theorem Quiet.frame {s t : Recorder F} (h1 : t.heartbeats = s.heartbeats) (h2 : t.heartbeatJobs = s.heartbeatJobs)
    (h3 : t.sent = s.sent) (h4 : t.captured = s.captured) (h5 : t.naturalEndCapture = s.naturalEndCapture)
    (h6 : t.session = s.session) (h7 : t.acceptedEpoch = s.acceptedEpoch) (h8 : s.randomUuid ≤ t.randomUuid) : Quiet s t :=
  ⟨h1, h2, h3, h4, h5 ▸ fun _ h => h, h6 ▸ fun c hc => .inl ⟨c, hc, rfl, rfl⟩,
    h6 ▸ fun c hc => .inr ⟨h7, c, hc, rfl⟩, h8⟩

theorem Quiet.mapSession (s : Recorder F) (f : RecordingSession F → RecordingSession F)
    (hf : ∀ c, (f c).generation = c.generation ∧ (f c).sequence = c.sequence ∧ (f c).resetEpoch = c.resetEpoch) :
    Quiet s { s with session := s.session.map f } := by
  refine ⟨rfl, rfl, rfl, rfl, fun _ h => h, ?_, ?_, le_rfl⟩
  · intro c hc
    obtain ⟨c', hc', rfl⟩ := Option.map_eq_some_iff.1 hc
    exact .inl ⟨c', hc', (hf c').1, (hf c').2.1⟩
  · intro c hc
    obtain ⟨c', hc', rfl⟩ := Option.map_eq_some_iff.1 hc
    exact .inr ⟨rfl, c', hc', (hf c').2.2⟩

/-! ## The parts -/

theorem lookup_filter {l : List (Uuid × Nat)} {p : Uuid → Bool} {k : Uuid} (hk : p k = true) :
    (l.filter fun e => p e.1).lookup k = l.lookup k := by
  induction l with
  | nil => rfl
  | cons e l ih =>
    by_cases he : k = e.1
    · subst he
      rw [List.filter_cons_of_pos (p := fun e : Uuid × Nat => p e.1) hk]
      rw [List.lookup_cons, List.lookup_cons, beq_self_eq_true]
    · have hne : (k == e.1) = false := by simpa using he
      by_cases hp : p e.1 = true
      · rw [List.filter_cons_of_pos (p := fun e : Uuid × Nat => p e.1) hp, List.lookup_cons, List.lookup_cons, hne]
        exact ih
      · rw [List.filter_cons_of_neg (p := fun e : Uuid × Nat => p e.1) hp, ih, List.lookup_cons, hne]

theorem fenced_openActivity {s : Recorder F} (hs : s.FenceKept) (now : Reading) (current : RecordingSession F) :
    (s.openActivity now current).FenceKept := by
  unfold openActivity
  split
  · exact hs
  · exact hs.quiet (.frame rfl rfl rfl rfl rfl rfl rfl le_rfl)

theorem fenced_sendActivityIfReady {s : Recorder F} (hs : s.FenceKept) : s.sendActivityIfReady.FenceKept := by
  unfold sendActivityIfReady
  split
  · exact hs
  · split
    · exact hs
    · exact hs.quiet (.frame rfl rfl rfl rfl rfl rfl rfl le_rfl)

theorem fenced_restartActivityRetries {s : Recorder F} (hs : s.FenceKept) : s.restartActivityRetries.FenceKept := by
  refine fenced_sendActivityIfReady ?_
  exact hs.quiet (.frame rfl rfl rfl rfl rfl rfl rfl le_rfl)

theorem fenced_cancel {s : Recorder F} (hs : s.FenceKept) (token : Option Uuid) :
    ({ s with
      heartbeats := s.heartbeats.cancel (token.bind fun t => s.heartbeatJobs.lookup t)
      heartbeatJobs := s.heartbeatJobs.filter fun e => token ≠ .some e.1 } : Recorder F).FenceKept := by
  refine ⟨?_, hs.sentDrawn, hs.drawn, hs.counted, hs.sequences, hs.epoch, hs.pending, hs.deliveredDrawn, hs.once,
    hs.ready, hs.fence⟩
  intro j q hj
  dsimp only at hj ⊢
  have hr := s.heartbeats.runs_of_cancel hj
  have hl := hs.jobs j q hr
  have hne : token ≠ .some q.token := by
    rintro rfl
    rw [Scope.runs_cancel, Option.bind_some, if_pos hl] at hj
    cases hj
  rw [lookup_filter (p := fun k => decide (token ≠ .some k)) (by simpa using hne)]
  exact hl

theorem fenced_finishDrain {s : Recorder F} (hs : s.FenceKept) : s.finishDrain.FenceKept := by
  unfold finishDrain
  split
  · refine (fenced_cancel hs (s.session.map RecordingSession.token)).quiet ?_
    refine ⟨rfl, rfl, rfl, rfl, fun _ h => h, ?_, ?_, Nat.le_succ _⟩
    · intro c hc
      obtain ⟨c', hc', rfl⟩ := Option.map_eq_some_iff.1 hc
      exact .inr ⟨le_rfl, Nat.lt_succ_self _, rfl⟩
    · intro c hc
      obtain ⟨c', hc', rfl⟩ := Option.map_eq_some_iff.1 hc
      exact .inr ⟨rfl, c', hc', rfl⟩
  · exact hs

theorem mem_of_sessionOf {s : Recorder F} {token : Uuid} {c : RecordingSession F} (h : s.sessionOf token = .some c) :
    c ∈ s.session ∧ c.token = token := by
  obtain ⟨hc, ht⟩ := Option.filter_eq_some_iff.1 h
  exact ⟨hc, of_decide_eq_true ht⟩

theorem fenced_completeNaturalEndCaptureIfReady {s : Recorder F} (hs : s.FenceKept) :
    s.completeNaturalEndCaptureIfReady.FenceKept := by
  unfold completeNaturalEndCaptureIfReady
  split
  · exact hs
  · rename_i pending hpending
    split
    · refine hs.quiet ⟨rfl, rfl, rfl, rfl, fun _ h => (by cases h), ?_, ?_, le_rfl⟩
      · exact fun c hc => .inl ⟨c, hc, rfl, rfl⟩
      · exact fun c hc => .inr ⟨rfl, c, hc, rfl⟩
    · rename_i current hcurrent
      obtain ⟨hmem, -⟩ := mem_of_sessionOf hcurrent
      split
      · exact hs
      · rename_i hopen
        simp only [outcomeOpen, Bool.or_eq_true, not_or, Bool.not_eq_true, List.contains_iff_mem] at hopen
        obtain ⟨⟨hjob, -⟩, hambiguous⟩ := hopen
        split
        · exact hs
        · obtain ⟨hlt, hnew⟩ := hs.pending pending hpending
          refine ⟨hs.jobs, hs.sentDrawn, hs.drawn, hs.counted, hs.sequences, hs.epoch, fun _ h => (by cases h), ?_, ?_, ?_, ?_⟩
          · intro d hd
            rcases List.mem_append.1 hd with hd | hd
            · exact hs.deliveredDrawn d hd
            · rw [List.mem_singleton.1 hd]
              exact hlt
          · dsimp only
            rw [List.map_append, List.map_singleton]
            exact List.nodup_append.2 ⟨hs.once, List.nodup_singleton _, by
              intro a ha b hb hab
              have hab : a = pending.2 := hab.trans (List.mem_singleton.1 hb)
              subst hab
              exact hnew ha⟩
          · intro d hd
            rcases List.mem_append.1 hd with hd | hd
            · exact hs.ready d hd
            · rw [List.mem_singleton.1 hd]
              refine ⟨fun j q hj htok => ?_, fun hin => ?_⟩
              · have hl := hs.jobs j q hj
                rw [htok] at hl
                have hact := (s.heartbeats.isActive_eq_true).2 ⟨j, q, hl, hj⟩
                rw [hjob] at hact
                cases hact
              · exact hambiguous hin
          · intro d hd
            rcases List.mem_append.1 hd with hd | hd
            · exact hs.fence d hd
            · rw [List.mem_singleton.1 hd]
              exact hs.epoch current hmem

theorem fenced_completeDrainIfReady {s : Recorder F} (hs : s.FenceKept) : s.completeDrainIfReady.FenceKept := by
  unfold completeDrainIfReady
  split
  · split
    · exact hs
    · exact fenced_finishDrain hs
  · exact hs

theorem fenced_suspendPersistence {s : Recorder F} (hs : s.FenceKept) (kind : RecoveryKind) :
    (s.suspendPersistence kind).FenceKept := by
  have h : (completeNaturalEndCaptureIfReady { s with
      recoveries := s.recoveries.cancel s.recoveryJob, recoveryJob := .none, recoveryKind := .some kind }).FenceKept := by
    refine fenced_completeNaturalEndCaptureIfReady ?_
    exact hs.quiet (.frame rfl rfl rfl rfl rfl rfl rfl le_rfl)
  unfold suspendPersistence
  dsimp only
  split
  · exact fenced_finishDrain h
  · exact h

theorem fenced_enqueueActivity {s : Recorder F} (hs : s.FenceKept) (epoch : ActivityEpoch) (durationMs : Int)
    (finish : RecorderPlaybackSample) : (s.enqueueActivity epoch durationMs finish).FenceKept := by
  unfold enqueueActivity
  dsimp only
  split
  · refine fenced_suspendPersistence ?_ _
    exact hs.quiet (.frame rfl rfl rfl rfl rfl rfl rfl (Nat.le_succ _))
  · refine fenced_sendActivityIfReady ?_
    exact hs.quiet (.frame rfl rfl rfl rfl rfl rfl rfl (Nat.le_succ _))

theorem fenced_closeActivity {s : Recorder F} (hs : s.FenceKept) (now : Reading) (reopen : Bool) :
    (s.closeActivity now reopen).FenceKept := by
  have hclosed : ({ s with activityEpoch := .none } : Recorder F).FenceKept :=
    hs.quiet (.frame rfl rfl rfl rfl rfl rfl rfl le_rfl)
  have hqueued : ∀ (c : Prop) [Decidable c] (epoch : ActivityEpoch) (elapsedMs : Int) (playback : _),
      (if c then ({ s with activityEpoch := .none } : Recorder F).enqueueActivity epoch elapsedMs playback
        else ({ s with activityEpoch := .none } : Recorder F)).FenceKept := by
    intro c _ epoch elapsedMs playback
    split
    · exact fenced_enqueueActivity hclosed _ _ _
    · exact hclosed
  unfold closeActivity
  split
  · exact hs
  · dsimp only
    split
    · split
      · exact fenced_openActivity (hqueued _ _ _ _) _ _
      · exact hqueued _ _ _ _
    · exact hqueued _ _ _ _

theorem fenced_markHeartbeatDirty {s : Recorder F} (hs : s.FenceKept) (now : Reading) :
    (s.markHeartbeatDirty now).FenceKept :=
  hs.quiet (.mapSession s _ fun _ => ⟨rfl, rfl, rfl⟩)

theorem fenced_setPlaying {s : Recorder F} (hs : s.FenceKept) (playing : Bool) : (s.setPlaying playing).FenceKept :=
  hs.quiet (.mapSession s _ fun _ => ⟨rfl, rfl, rfl⟩)

theorem fenced_stopCadence {s : Recorder F} (hs : s.FenceKept) : s.stopCadence.FenceKept :=
  hs.quiet (.frame rfl rfl rfl rfl rfl rfl rfl le_rfl)

theorem fenced_startCadence {s : Recorder F} (hs : s.FenceKept) : s.startCadence.FenceKept := by
  unfold startCadence
  split
  · exact hs
  · exact hs.quiet (.frame rfl rfl rfl rfl rfl rfl rfl le_rfl)

theorem fenced_beginRecovery {s : Recorder F} (hs : s.FenceKept) (token : Uuid) : (s.beginRecovery token).FenceKept := by
  unfold beginRecovery
  split
  · exact hs
  · split
    · exact hs
    · exact hs.quiet (.frame rfl rfl rfl rfl rfl rfl rfl le_rfl)

theorem fenced_retryPersistence {s : Recorder F} (hs : s.FenceKept) : s.retryPersistence.FenceKept := by
  unfold retryPersistence
  split
  · exact hs
  · split
    · exact hs
    · exact hs.quiet (.frame rfl rfl rfl rfl rfl rfl rfl le_rfl)

theorem fenced_sendHeartbeatIfReady {s : Recorder F} (hs : s.FenceKept) : s.sendHeartbeatIfReady.FenceKept := by
  unfold sendHeartbeatIfReady
  split
  · exact hs
  · rename_i current hcurrent
    have hmem : current ∈ s.session := hcurrent
    split
    · exact hs
    · rename_i dirty hdirty
      split
      · exact hs
      · rename_i hready
        simp only [Bool.or_eq_true, not_or, Bool.not_eq_true] at hready
        obtain ⟨⟨hjob, -⟩, -⟩ := hready
        have hother : ∀ j q, s.heartbeats.runs j = .some q → q.token ≠ current.token := by
          intro j q hj htok
          have hl := hs.jobs j q hj
          rw [htok] at hl
          rw [(s.heartbeats.isActive_eq_true).2 ⟨j, q, hl, hj⟩] at hjob
          cases hjob
        dsimp only
        -- the generation's numbers so far, and one more
        have hsent : ∀ (q : HeartbeatRequest F) (g : Uuid), ((s.sent ++ [q]).filter fun q => decide (q.generation = g)).map
            HeartbeatRequest.sequence = s.sentIn g ++ (if q.generation = g then [q.sequence] else []) := by
          intro q g
          rw [List.filter_append, List.map_append]
          by_cases hg : q.generation = g
          · simp [sentIn, hg]
          · simp [sentIn, hg]
        have hcount := hs.counted current hmem
        refine ⟨?_, ?_, ?_, ?_, ?_, ?_, hs.pending, hs.deliveredDrawn, hs.once, hs.ready, hs.fence⟩
        · intro j q hj
          dsimp only at hj ⊢
          rw [Scope.runs_launch] at hj
          split at hj
          · rename_i hj'
            cases hj
            rw [hj']
            simp
          · have hne := hother j q hj
            have hbeq : (q.token == current.token) = false := by simpa using hne
            rw [List.lookup_cons, hbeq]
            dsimp only
            rw [lookup_filter (p := fun k => decide (k ≠ current.token)) (by simpa using hne)]
            exact hs.jobs j q hj
        · intro q hq
          rcases List.mem_append.1 hq with hq | hq
          · exact hs.sentDrawn q hq
          · rw [List.mem_singleton.1 hq]
            exact hs.drawn current hmem
        · intro c hc
          cases hc
          exact hs.drawn current hmem
        · intro c hc
          cases hc
          unfold sentIn
          rw [hsent, if_pos rfl, hcount]
          dsimp only
          rw [List.range_succ]
        · intro g
          unfold sentIn
          rw [hsent]
          split
          · rename_i hg
            dsimp only at hg ⊢
            subst hg
            exact ⟨current.sequence + 1, by rw [hcount, List.range_succ]⟩
          · rw [List.append_nil]
            exact hs.sequences g
        · intro c hc
          cases hc
          exact hs.epoch current hmem

theorem fenced_dirty_send {s : Recorder F} (hs : s.FenceKept) (now : Reading) :
    (s.markHeartbeatDirty now).sendHeartbeatIfReady.FenceKept :=
  fenced_sendHeartbeatIfReady (fenced_markHeartbeatDirty hs now)

theorem fenced_completions {s : Recorder F} (hs : s.FenceKept) :
    s.completeNaturalEndCaptureIfReady.completeDrainIfReady.FenceKept :=
  fenced_completeDrainIfReady (fenced_completeNaturalEndCaptureIfReady hs)

/-! ## Answers -/

theorem fenced_resumed {s : Recorder F} (hs : s.FenceKept) (job : Nat) (token : Uuid)
    (hjob : ∀ j q, s.heartbeats.runs j = .some q → q.token = token → j = job) :
    ({ s with
      heartbeats := s.heartbeats.finish job
      heartbeatJobs := s.heartbeatJobs.filter fun e => e.1 ≠ token } : Recorder F).FenceKept := by
  refine ⟨?_, hs.sentDrawn, hs.drawn, hs.counted, hs.sequences, hs.epoch, hs.pending, hs.deliveredDrawn, hs.once,
    hs.ready, hs.fence⟩
  intro j q hj
  dsimp only at hj ⊢
  rw [Scope.runs_finish] at hj
  split at hj
  · cases hj
  · rename_i hne
    have htok : q.token ≠ token := fun h => hne (hjob j q hj h)
    rw [lookup_filter (p := fun k => decide (k ≠ token)) (by simpa using htok)]
    exact hs.jobs j q hj

theorem fenced_handleHeartbeatResponse {s : Recorder F} (hs : s.FenceKept) {request : HeartbeatRequest F} {status : Nat}
    {body : Option (DecodedHeartbeatResult F)} {t : Recorder F} (h : s.handleHeartbeatResponse request status body = .ok t) :
    t.FenceKept := by
  unfold handleHeartbeatResponse at h
  split at h
  · split at h
    · cases h
    · rename_i result
      split at h
      · split at h
        · cases h
          exact hs
        · rename_i current hcurrent
          cases h
          refine fenced_sendHeartbeatIfReady (hs.quiet ⟨rfl, rfl, rfl, rfl, fun _ h => h, ?_, ?_, le_rfl⟩)
          · intro c hc
            cases hc
            exact .inl ⟨current, hcurrent, rfl, rfl⟩
          · intro c hc
            cases hc
            exact .inl rfl
      · cases h
  · split at h
    · cases h
      refine fenced_suspendPersistence ?_ _
      exact hs.quiet (.frame rfl rfl rfl rfl rfl rfl rfl le_rfl)
    · split at h
      · cases h
        exact fenced_beginRecovery hs _
      · cases h

theorem fenced_heartbeatAnswered {s : Recorder F} (hs : s.FenceKept) {job : Nat} {request : HeartbeatRequest F}
    (hr : s.heartbeats.runs job = .some request) {answer : Answer (DecodedHeartbeatResult F)} {t : Recorder F}
    (h : s.heartbeatAnswered job request answer = .ok t) : t.FenceKept := by
  have hresumed := fenced_resumed hs job request.token fun j q hj htok => by
    have hl := hs.jobs j q hj
    rw [htok, hs.jobs job request hr] at hl
    exact (Option.some.inj hl).symm
  unfold heartbeatAnswered at h
  dsimp only at h
  split at h
  · obtain ⟨u, hu, h⟩ := bind_eq_ok.1 h
    cases h
    refine fenced_completions ?_
    split at hu
    · exact fenced_handleHeartbeatResponse hresumed hu
    · cases hu
      exact fenced_beginRecovery hresumed _
  · cases h
    refine fenced_completions (fenced_sendHeartbeatIfReady ?_)
    exact hresumed.quiet (.frame rfl rfl rfl rfl rfl rfl rfl le_rfl)

theorem fenced_recoverExhausted {s : Recorder F} (hs : s.FenceKept) (point : RecoverPoint) :
    (s.recoverExhausted point).FenceKept := by
  have hfinish : ∀ t : Recorder F, t.FenceKept →
      (if point.fromSuspended then { t with recoveryJob := .none } else t : Recorder F).FenceKept := by
    intro t ht
    split
    · exact ht.quiet (.frame rfl rfl rfl rfl rfl rfl rfl le_rfl)
    · exact ht
  refine hfinish _ ?_
  split
  · refine fenced_suspendPersistence ?_ _
    split
    · exact hs.quiet (.frame rfl rfl rfl rfl rfl rfl rfl le_rfl)
    · exact hs
  · exact hs

theorem fenced_recoverContinue {s : Recorder F} (hs : s.FenceKept) (job : Nat) (point : RecoverPoint) :
    (s.recoverContinue job point).FenceKept := by
  unfold recoverContinue
  split
  · exact hs.quiet (.frame rfl rfl rfl rfl rfl rfl rfl le_rfl)
  · exact (fenced_recoverExhausted hs point).quiet (.frame rfl rfl rfl rfl rfl rfl rfl le_rfl)

theorem fenced_installRecovered {s : Recorder F} (hs : s.FenceKept) (now : Reading) {active : RecordingSession F}
    (hactive : active ∈ s.session) {server : ListeningStateOut F}
    (hg : s.captureWaits active.token = true → server.resetEpoch = active.resetEpoch) :
    (s.installRecovered now active server).FenceKept := by
  unfold installRecovered
  dsimp only
  split
  · rename_i hne
    have hwaits : s.captureWaits active.token = false := by
      rw [Bool.eq_false_iff]
      exact fun h => hne (hg h)
    rw [hwaits]
    refine (fenced_closeActivity hs now false).quiet ⟨rfl, rfl, rfl, rfl, fun _ h => h, ?_, ?_, le_rfl⟩
    · intro c hc
      obtain ⟨c', hc', rfl⟩ := Option.map_eq_some_iff.1 hc
      exact .inl ⟨c', hc', rfl, rfl⟩
    · intro c hc
      obtain ⟨c', hc', rfl⟩ := Option.map_eq_some_iff.1 hc
      exact .inl rfl
  · rename_i heq
    have heq : server.resetEpoch = active.resetEpoch := not_not.1 heq
    refine hs.quiet ⟨rfl, rfl, rfl, rfl, fun _ h => h, ?_, ?_, le_rfl⟩
    · intro c hc
      obtain ⟨c', hc', rfl⟩ := Option.map_eq_some_iff.1 hc
      exact .inl ⟨c', hc', rfl, rfl⟩
    · intro c hc
      obtain ⟨c', hc', rfl⟩ := Option.map_eq_some_iff.1 hc
      left
      show server.resetEpoch = if s.captureWaits active.token = true then s.acceptedEpoch else server.resetEpoch
      split
      · rw [heq]
        exact hs.epoch active hactive
      · rfl

theorem fenced_recovered {s : Recorder F} (hs : s.FenceKept) (now : Reading) (token : Uuid) {active : RecordingSession F}
    (hactive : active ∈ s.session) {server : ListeningStateOut F}
    (hg : s.captureWaits active.token = true → server.resetEpoch = active.resetEpoch) :
    (s.recovered now token active server).FenceKept := by
  let s₁ : Recorder F := { s with heartbeatOutcomeAmbiguous := s.heartbeatOutcomeAmbiguous.filter fun t => t ≠ token }
  have h₁ : s₁.FenceKept := hs.quiet (.frame rfl rfl rfl rfl rfl rfl rfl le_rfl)
  have h₂ := fenced_installRecovered h₁ now hactive hg
  refine fenced_completions (fenced_sendHeartbeatIfReady (fenced_restartActivityRetries ?_))
  refine h₂.quiet ⟨rfl, rfl, rfl, rfl, fun _ h => h, ?_, ?_, Nat.le_succ _⟩
  · intro c hc
    obtain ⟨c', hc', rfl⟩ := Option.map_eq_some_iff.1 hc
    exact .inr ⟨le_rfl, Nat.lt_succ_self _, rfl⟩
  · intro c hc
    obtain ⟨c', hc', rfl⟩ := Option.map_eq_some_iff.1 hc
    exact .inr ⟨rfl, c', hc', rfl⟩

theorem fenced_recoverAnswered {s : Recorder F} (hs : s.FenceKept) {now : Reading} {job : Nat} {point : RecoverPoint}
    {answer : Answer (ListeningStateOut F)} (hr : s.recoveries.runs job = .some point)
    (hg : s.FencedInTime (.recoverAnswered job answer)) {t : Recorder F}
    (h : s.recoverAnswered now job point answer = .ok t) : t.FenceKept := by
  have hfinish : ∀ u : Recorder F, u.FenceKept → ({ u with recoveries := u.recoveries.finish job } : Recorder F).FenceKept :=
    fun u hu => hu.quiet (.frame rfl rfl rfl rfl rfl rfl rfl le_rfl)
  unfold recoverAnswered at h
  split at h
  · cases h
    exact fenced_recoverContinue hs job point
  · rename_i status body
    split at h
    · rename_i hstatus
      split at h
      · cases h
      · rename_i server
        split at h
        · cases h
          exact hfinish s hs
        · rename_i active hactive
          obtain ⟨hmem, htok⟩ := mem_of_sessionOf hactive
          cases h
          exact hfinish _ (fenced_recovered hs now point.token hmem
            fun hw => hg hstatus point hr server rfl active hmem htok hw)
    · split at h
      · cases h
        refine hfinish _ (fenced_suspendPersistence ?_ _)
        exact hs.quiet (.frame rfl rfl rfl rfl rfl rfl rfl le_rfl)
      · split at h
        · cases h
          exact fenced_recoverContinue hs job point
        · cases h

theorem fenced_retryActivity {s : Recorder F} (hs : s.FenceKept) (frozen : ActivityBody) : (s.retryActivity frozen).FenceKept := by
  unfold retryActivity
  dsimp only
  split
  · exact hs.quiet (.frame rfl rfl rfl rfl rfl rfl rfl le_rfl)
  · refine fenced_suspendPersistence ?_ _
    exact hs.quiet (.frame rfl rfl rfl rfl rfl rfl rfl le_rfl)

theorem fenced_activityAnswered {s : Recorder F} (hs : s.FenceKept) {job : Nat} {frozen : ActivityBody} {answer : Answer Unit}
    {t : Recorder F} (h : s.activityAnswered job frozen answer = .ok t) : t.FenceKept := by
  have hresumed : ({ s with activities := s.activities.finish job, activityJob := .none } : Recorder F).FenceKept :=
    hs.quiet (.frame rfl rfl rfl rfl rfl rfl rfl le_rfl)
  unfold activityAnswered at h
  obtain ⟨u, hu, h⟩ := bind_eq_ok.1 h
  cases h
  refine fenced_sendActivityIfReady ?_
  unfold handleActivityResponse at hu
  split at hu
  · cases hu
    exact fenced_retryActivity hresumed frozen
  · split at hu
    · split at hu
      · cases hu
      · cases hu
        exact hresumed.quiet (.frame rfl rfl rfl rfl rfl rfl rfl le_rfl)
    · split at hu
      · cases hu
        exact fenced_suspendPersistence hresumed _
      · split at hu
        · cases hu
          exact fenced_retryActivity hresumed frozen
        · cases hu

/-! ## The calls -/

theorem fenced_stopCurrent {s : Recorder F} (hs : s.FenceKept) (now : Reading) : (s.stopCurrent now).FenceKept := by
  have h := fenced_stopCadence (fenced_setPlaying (fenced_closeActivity hs now false) false)
  unfold stopCurrent
  split
  · exact hs
  · dsimp only
    split
    · exact h
    · exact fenced_dirty_send h now

theorem fenced_install {s : Recorder F} (hs : s.FenceKept) (now : Reading) (mediaId : Uuid) (rate : Option F)
    (writeRevision resetEpoch : Nat) : (s.install now mediaId rate writeRevision resetEpoch).FenceKept := by
  refine (fenced_stopCurrent hs now).quiet ⟨rfl, rfl, rfl, rfl, fun _ h => h, ?_, ?_, Nat.le_add_right _ _⟩
  · intro c hc
    cases hc
    exact .inr ⟨Nat.le_succ _, Nat.lt_succ_self _, rfl⟩
  · intro c hc
    cases hc
    exact .inl rfl

theorem fenced_dismiss {s : Recorder F} (hs : s.FenceKept) (now : Reading) : (s.dismiss now).FenceKept :=
  (fenced_stopCurrent hs now).quiet
    ⟨rfl, rfl, rfl, rfl, fun _ h => h, fun _ h => (by cases h), fun _ h => (by cases h), le_rfl⟩

theorem fenced_onPlayingChanged {s : Recorder F} (hs : s.FenceKept) (now : Reading) (playing : Bool) :
    (s.onPlayingChanged now playing).FenceKept := by
  unfold onPlayingChanged
  split
  · exact hs
  · split
    · exact fenced_setPlaying hs false
    · split
      · exact hs
      · split
        · exact fenced_startCadence (fenced_openActivity (fenced_setPlaying hs true) now _)
        · exact fenced_stopCadence (fenced_dirty_send (fenced_closeActivity (fenced_setPlaying hs false) now false) now)

theorem fenced_beforeManualDiscontinuity {s : Recorder F} (hs : s.FenceKept) (now : Reading) :
    (s.beforeManualDiscontinuity now).FenceKept := by
  unfold beforeManualDiscontinuity
  split
  · exact hs
  · split
    · exact hs
    · exact fenced_dirty_send (fenced_closeActivity hs now false) now

theorem fenced_afterManualDiscontinuity {s : Recorder F} (hs : s.FenceKept) (now : Reading) :
    (s.afterManualDiscontinuity now).FenceKept := by
  unfold afterManualDiscontinuity
  split
  · exact hs
  · split
    · exact fenced_openActivity hs now _
    · exact hs

theorem fenced_flush {s : Recorder F} (hs : s.FenceKept) (now : Reading) : (s.flush now).FenceKept := by
  unfold flush
  split
  · exact hs
  · split
    · exact hs
    · exact fenced_dirty_send (fenced_closeActivity hs now _) now

theorem fenced_awaitCapture {s : Recorder F} (hs : s.FenceKept) (token : Uuid) (sample : RecorderPlaybackSample) :
    ({ s with
      session := s.session.map fun c => { c with dirty := .none }
      naturalEndSample := .some sample
      naturalEndCapture := .some (token, s.randomUuid)
      randomUuid := s.randomUuid + 1 } : Recorder F).FenceKept := by
  have h : ({ s with session := s.session.map fun c => { c with dirty := .none } } : Recorder F).FenceKept :=
    hs.quiet (.mapSession s _ fun _ => ⟨rfl, rfl, rfl⟩)
  refine ⟨h.jobs, fun q hq => Nat.lt_succ_of_lt (h.sentDrawn q hq), fun c hc => Nat.lt_succ_of_lt (h.drawn c hc),
    h.counted, h.sequences, h.epoch, ?_, fun d hd => Nat.lt_succ_of_lt (h.deliveredDrawn d hd), h.once, h.ready, h.fence⟩
  intro p hp
  cases hp
  refine ⟨Nat.lt_succ_self _, fun hmem => ?_⟩
  obtain ⟨d, hd, hid⟩ := List.mem_map.1 hmem
  have hlt := hs.deliveredDrawn d hd
  dsimp only at hid
  omega

theorem fenced_captureNaturalEnd {s : Recorder F} (hs : s.FenceKept) {now : Reading} {t : Recorder F}
    (h : s.captureNaturalEnd now = .ok t) : t.FenceKept := by
  unfold captureNaturalEnd at h
  split at h
  · cases h
    exact hs
  · rename_i current hcurrent
    split at h
    · cases h
    · cases h
      refine fenced_completeNaturalEndCaptureIfReady ?_
      have hclosed := fenced_closeActivity hs now false
      have hdrained : ({ s.closeActivity now false with
          session := (s.closeActivity now false).session.map fun c => { c with playing := false, drained := true } } :
          Recorder F).FenceKept := hclosed.quiet (.mapSession _ _ fun _ => ⟨rfl, rfl, rfl⟩)
      have hawait := fenced_awaitCapture (fenced_stopCadence hdrained) current.token now.playback.bounded
      dsimp only
      split
      · exact fenced_retryPersistence hawait
      · exact hawait

theorem fenced_drain {s : Recorder F} (hs : s.FenceKept) {now : Reading} {t : Recorder F} (h : s.drain now = .ok t) :
    t.FenceKept := by
  unfold drain at h
  split at h
  · cases h
    exact hs
  · split at h
    · cases h
    · cases h
      refine fenced_completeDrainIfReady ?_
      have hclosed := fenced_closeActivity hs now false
      have hdrained : ({ s.closeActivity now false with
          session := (s.closeActivity now false).session.map fun c => { c with playing := false, drained := true } } :
          Recorder F).FenceKept := hclosed.quiet (.mapSession _ _ fun _ => ⟨rfl, rfl, rfl⟩)
      have hdirty := fenced_markHeartbeatDirty (fenced_stopCadence hdrained) now
      have hcallback : ∀ u : Recorder F, u.FenceKept → ({ u with drainCallback := true } : Recorder F).FenceKept :=
        fun u hu => hu.quiet (.frame rfl rfl rfl rfl rfl rfl rfl le_rfl)
      exact (fenced_sendHeartbeatIfReady (hcallback _ hdirty)).quiet (.frame rfl rfl rfl rfl rfl rfl rfl le_rfl)

theorem fenced_adoptListeningState {s : Recorder F} (hs : s.FenceKept) (now : Reading) (state : ListeningStateOut F) :
    (s.adoptListeningState now state).FenceKept := by
  unfold adoptListeningState
  split
  · exact hs
  · refine fenced_stopCadence ((fenced_closeActivity hs now false).quiet
      ⟨rfl, rfl, rfl, rfl, fun _ h => h, ?_, ?_, Nat.le_succ _⟩)
    · intro c hc
      obtain ⟨c', hc', rfl⟩ := Option.map_eq_some_iff.1 hc
      exact .inr ⟨le_rfl, Nat.lt_succ_self _, rfl⟩
    · intro c hc
      obtain ⟨c', hc', rfl⟩ := Option.map_eq_some_iff.1 hc
      exact .inl rfl

theorem runs_foldl_cancel {α : Type} {l : List (Uuid × Nat)} {scope : Scope α} {j : Nat} {p : α}
    (h : (l.foldl (fun h e => h.cancel (.some e.2)) scope).runs j = .some p) :
    scope.runs j = .some p ∧ ∀ e ∈ l, e.2 ≠ j := by
  induction l generalizing scope with
  | nil => exact ⟨h, by simp⟩
  | cons e l ih =>
    obtain ⟨hr, hl⟩ := ih h
    refine ⟨scope.runs_of_cancel hr, ?_⟩
    intro e' he'
    rcases List.mem_cons.1 he' with rfl | he'
    · rintro rfl
      rw [Scope.runs_cancel, if_pos rfl] at hr
      cases hr
    · exact hl e' he'

theorem mem_of_lookup {l : List (Uuid × Nat)} {k : Uuid} {v : Nat} (h : l.lookup k = .some v) : (k, v) ∈ l := by
  induction l with
  | nil => cases h
  | cons e l ih =>
    rw [List.lookup_cons] at h
    split at h
    · rename_i hk
      cases h
      rw [beq_iff_eq.1 hk]
      exact List.mem_cons_self
    · exact List.mem_cons_of_mem _ (ih h)

theorem fenced_discardPending {s : Recorder F} (hs : s.FenceKept) : s.discardPending.FenceKept := by
  refine ⟨?_, hs.sentDrawn, fun _ h => (by cases h), fun _ h => (by cases h), hs.sequences, fun _ h => (by cases h),
    fun _ h => (by cases h), hs.deliveredDrawn, hs.once, hs.ready, hs.fence⟩
  intro j q hj
  obtain ⟨hr, hnone⟩ := runs_foldl_cancel hj
  exact absurd rfl (hnone _ (mem_of_lookup (hs.jobs j q hr)))

theorem fenced_cadenceTick {s : Recorder F} (hs : s.FenceKept) (now : Reading) (job : Nat) (point : CadencePoint) :
    (s.cadenceTick now job point).FenceKept := by
  have hcheckpoint : ∀ b : Bool, (if b then s.closeActivity now true else s : Recorder F).FenceKept := by
    intro b
    cases b
    · exact hs
    · exact fenced_closeActivity hs now true
  have hsync : ∀ (t : Recorder F) (b : Bool), t.FenceKept →
      (if b then (t.markHeartbeatDirty now).sendHeartbeatIfReady else t : Recorder F).FenceKept := by
    intro t b ht
    cases b
    · exact ht
    · exact fenced_dirty_send ht now
  have hmoved : ∀ (t : Recorder F) (c : Scope CadencePoint), t.FenceKept → ({ t with cadences := c } : Recorder F).FenceKept :=
    fun t c ht => ht.quiet (.frame rfl rfl rfl rfl rfl rfl rfl le_rfl)
  unfold cadenceTick
  split
  · exact hmoved s _ hs
  · split
    · exact hmoved _ _ (hsync _ _ (hcheckpoint _))
    · exact hmoved s _ hs

/-! ## One turn -/

theorem fenced_turn {s t : Recorder F} {now : Reading} {ev : RecorderEvent F} (hs : s.FenceKept)
    (hg : s.FencedInTime ev) (h : s.turn now ev = .some (.ok t)) : t.FenceKept := by
  cases ev with
  | install mediaId rate writeRevision resetEpoch => cases h; exact fenced_install hs now _ _ _ _
  | updateEpisodeRate rate => cases h; exact hs.quiet (.mapSession s _ fun _ => ⟨rfl, rfl, rfl⟩)
  | onPlayingChanged playing => cases h; exact fenced_onPlayingChanged hs now playing
  | beforeManualDiscontinuity => cases h; exact fenced_beforeManualDiscontinuity hs now
  | afterManualDiscontinuity => cases h; exact fenced_afterManualDiscontinuity hs now
  | flush => cases h; exact fenced_flush hs now
  | captureNaturalEnd => exact fenced_captureNaturalEnd hs (Option.some.inj h)
  | drain => exact fenced_drain hs (Option.some.inj h)
  | adoptListeningState state => cases h; exact fenced_adoptListeningState hs now state
  | retryPersistence => cases h; exact fenced_retryPersistence hs
  | networkValidated =>
    cases h
    unfold networkValidated
    split
    · exact fenced_retryPersistence hs
    · exact hs
  | discardPending => cases h; exact fenced_discardPending hs
  | dismiss => cases h; exact fenced_dismiss hs now
  | cadenceTick job =>
    obtain ⟨point, -, h⟩ := Option.map_eq_some_iff.1 h
    cases h
    exact fenced_cadenceTick hs now job point
  | drainDeadline job =>
    obtain ⟨point, -, h⟩ := Option.map_eq_some_iff.1 h
    cases h
    exact (fenced_finishDrain hs).quiet (.frame rfl rfl rfl rfl rfl rfl rfl le_rfl)
  | heartbeatAnswered job answer =>
    obtain ⟨request, hr, h⟩ := Option.map_eq_some_iff.1 h
    exact fenced_heartbeatAnswered hs hr h
  | recoverDelayed job =>
    simp only [turn] at h
    split at h
    · split at h
      · cases h
      · cases h
        unfold recoverDelayed
        split
        · exact hs.quiet (.frame rfl rfl rfl rfl rfl rfl rfl le_rfl)
        · exact hs.quiet (.frame rfl rfl rfl rfl rfl rfl rfl le_rfl)
    · cases h
  | recoverAnswered job answer =>
    simp only [turn] at h
    split at h
    · rename_i point hr
      split at h
      · exact fenced_recoverAnswered hs hr hg (Option.some.inj h)
      · cases h
    · cases h
  | activityAnswered job answer =>
    simp only [turn] at h
    split at h
    · exact fenced_activityAnswered hs (Option.some.inj h)
    · cases h
  | activityRetried job =>
    simp only [turn] at h
    split at h
    · cases h
      refine fenced_sendActivityIfReady ?_
      exact hs.quiet (.frame rfl rfl rfl rfl rfl rfl rfl le_rfl)
    · cases h
  | heartbeatCancelled job =>
    obtain ⟨u, hu, h⟩ := Option.map_eq_some_iff.1 h
    cases h
    obtain ⟨request, hstopped, rfl⟩ := Option.map_eq_some_iff.1 hu
    refine fenced_resumed hs job request.token fun j q hj htok => ?_
    have hidle := hg request hstopped
    rw [← htok, hs.jobs j q hj, (s.heartbeats.isActive_eq_true).2 ⟨j, q, rfl, hj⟩] at hidle
    cases hidle
  | activityCancelled job =>
    obtain ⟨u, hu, h⟩ := Option.map_eq_some_iff.1 h
    cases h
    obtain ⟨point, -, hu⟩ := Option.map_eq_some_iff.1 hu
    cases point <;> (obtain rfl := hu; exact hs.quiet (.frame rfl rfl rfl rfl rfl rfl rfl le_rfl))
  | cadenceCancelled job | drainDeadlineCancelled job | recoverCancelled job =>
    obtain ⟨u, hu, h⟩ := Option.map_eq_some_iff.1 h
    cases h
    obtain ⟨point, -, rfl⟩ := Option.map_eq_some_iff.1 hu
    exact hs.quiet (.frame rfl rfl rfl rfl rfl rfl rfl le_rfl)

theorem fenced_initial : (Recorder.initial : Recorder F).FenceKept :=
  ⟨fun j q h => (by cases h), fun _ h => (by cases h), fun _ h => (by cases h), fun _ h => (by cases h), fun _ => ⟨0, rfl⟩,
    fun _ h => (by cases h), fun _ h => (by cases h), fun _ h => (by cases h), List.nodup_nil, fun _ h => (by cases h),
    fun _ h => (by cases h)⟩

end Recorder

/-! ## What a capture's settlement does -/

theorem recordHeartbeatInTxn_stale {current : Option (ListeningRow F)} {now : Instant} {w : ListeningWrite F}
    (h : w.expectedResetEpoch < resetEpoch current) : recordHeartbeatInTxn current now w = .none := by
  cases current with
  | none => simp [resetEpoch] at h
  | some row =>
    have hne : w.expectedResetEpoch ≠ row.resetEpoch := by
      simp only [resetEpoch, Option.map_some, Option.getD_some] at h
      omega
    unfold recordHeartbeatInTxn
    dsimp only
    rw [if_pos (.inr hne)]

section Settlement

variable [Fraction F] [SqlReal R F] [ReaderLocator L F] [DecidableEq L]

theorem settle_stale (kind : MediaKind) {rows : MediaRows R F L} {e : ClientRequest F L} {origin : NaturalEndOrigin}
    {w : ListeningWrite F} {revision : Option Nat} (hreq : e.request = .settleNaturalEnd origin w revision)
    (h : w.expectedResetEpoch < rows.base.resetEpoch) :
    e.after kind rows = rows ∧ ∀ o, e.outcome kind rows = .ok o → o = .superseded ∨ o = .targetGone := by
  have hstale : recordHeartbeatInTxn rows.listening e.env.now w = .none := recordHeartbeatInTxn_stale h
  unfold ClientRequest.after ClientRequest.outcome
  rw [hreq]
  simp only [applyRequest, settleNaturalEndOp, hstale]
  split_ifs
  · exact ⟨rfl, fun o ho => .inr (Except.ok.inj ho).symm⟩
  · exact ⟨rfl, fun o ho => by cases ho⟩
  · exact ⟨rfl, fun o ho => .inl (Except.ok.inj ho).symm⟩
  · exact ⟨rfl, fun o ho => .inl (Except.ok.inj ho).symm⟩

theorem Recorder.FenceKept.heartbeatFence {s : Recorder F} (hs : s.FenceKept) : s.HeartbeatFence R L := by
  refine ⟨?_, hs.sequences, hs.once, hs.ready, ?_⟩
  · intro j k p q hj hk htok
    have hl := hs.jobs j p hj
    rw [htok, hs.jobs k q hk] at hl
    exact (Option.some.inj hl).symm
  · intro d hd kind rows hlt
    rw [← hs.fence d hd] at hlt
    exact ⟨hlt, fun e origin revision hreq => settle_stale kind hreq hlt⟩

end Settlement

/-! ## Runs -/

section Runs

variable [Fraction F] [SqlReal R F] [ReaderLocator L F] [DecidableEq L] [DecidableEq F]

/-- **Heartbeats and captures keep the fence** in every run in which no recovery
reads another epoch while a capture waits and every cancelled heartbeat resumes
before the next of its session. -/
theorem heartbeats_fenced (kind : Uuid → MediaKind) {s : FencedPlayer R F L} {tr : List (FencedEvent F L × FencedPlayer R F L)}
    (hs : (fencedSystem R F L kind).init s) (hr : (fencedSystem R F L kind).Run s tr)
    (hg : Along (fun s e _ => FencedStep s e) s tr) : ∀ x ∈ tr, x.2.player.recorder.HeartbeatFence R L := by
  have hstep : ∀ s e t, (fencedSystem R F L kind).step s e t → s.player.recorder.FenceKept → FencedStep s e →
      t.player.recorder.FenceKept := by
    rintro s e t hst hk hg
    rw [fencedSystem, System.ofFun_step] at hst
    cases e with
    | turn now ev =>
      simp only [FencedPlayer.next] at hst
      split at hst
      · obtain ⟨player, hplayer, rfl⟩ := Option.map_eq_some_iff.1 hst
        unfold RecorderState.next at hplayer
        split at hplayer
        · cases hplayer
        · obtain ⟨res, hturn, rfl⟩ := Option.map_eq_some_iff.1 hplayer
          cases res with
          | ok u => exact Recorder.fenced_turn hk hg hturn
          | error f => exact hk
      · cases hst
    | put job env =>
      simp only [FencedPlayer.next] at hst
      split at hst
      · cases hst
        exact hk
      · cases hst
    | read job =>
      obtain ⟨point, -, rfl⟩ := Option.map_eq_some_iff.1 hst
      exact hk
    | elsewhere mediaId e =>
      cases hst
      exact hk
  have hinit : s.player.recorder.FenceKept := by
    rw [hs.1]
    exact Recorder.fenced_initial
  have hkept := System.Run.invariant_of_guarded (I := fun s => s.player.recorder.FenceKept) hstep hr hinit hg
  exact fun x hx => (hkept x hx).heartbeatFence

end Runs

/-- A player and the rows of a server that has none yet. -/
def newFencedPlayer : FencedPlayer Permille Permille PlainLocator :=
  ⟨⟨.initial, .none⟩, fun _ => .empty, fun _ => .none, fun _ => .none⟩

def episodes : Uuid → MediaKind := fun _ => .podcastEpisode

def fencedTurn (ms : Int) (ev : RecorderEvent Permille) : FencedEvent Permille PlainLocator := .turn ⟨ms, ms, ⟨ms, .none⟩⟩ ev

/-- An episode ends while its heartbeat, which the server accepted, is in flight. -/
def endInFlight : List (FencedEvent Permille PlainLocator) :=
  [fencedTurn 0 (.install 7 .none 0 0), fencedTurn 5 .flush, .put 0 plainEnv, fencedTurn 9 .captureNaturalEnd]

theorem heartbeats_fenced_endInFlight :
    let tr := replay (FencedPlayer.next episodes) newFencedPlayer
      (endInFlight ++ [fencedTurn 12 (.heartbeatAnswered 0 (.response 200 (.some ⟨⟨5, .none, .none, 1, 0⟩, 1, 0⟩)))])
    ((last newFencedPlayer tr).player.recorder.captured.map fun d => d.capture.writeRevision) = [1] ∧
      ∀ x ∈ tr, x.2.player.recorder.HeartbeatFence Permille PlainLocator :=
  ⟨by decide +kernel, heartbeats_fenced episodes ⟨rfl, rfl, rfl⟩ System.run_replay (by decide +kernel)⟩

/-- The heartbeat's answer is lost, the progress is reset on another device, and
the recovery reads the new epoch while the capture waits: it is delivered with
the fence of the reset, which its settlement then passes. -/
theorem naturalEnd_marks_reset : ¬ ∀ (s : FencedPlayer Permille Permille PlainLocator)
    (tr : List (FencedEvent Permille PlainLocator × FencedPlayer Permille Permille PlainLocator)),
    (fencedSystem Permille Permille PlainLocator episodes).init s → (fencedSystem Permille Permille PlainLocator episodes).Run s tr →
    ∀ x ∈ tr, x.2.player.recorder.HeartbeatFence Permille PlainLocator := by
  intro h
  let evs := endInFlight ++ [fencedTurn 12 (.heartbeatAnswered 0 .failure), .elsewhere 7 ⟨1, plainEnv, .resetProgress⟩,
    fencedTurn 1012 (.recoverDelayed 0), .read 0,
    fencedTurn 1015 (.recoverAnswered 0 (.response 200 (.some ⟨0, .none, .none, 2, 1⟩)))]
  have hkept := h newFencedPlayer (replay (FencedPlayer.next episodes) newFencedPlayer evs) ⟨rfl, rfl, rfl⟩ System.run_replay
  have hlast : ∀ x ∈ (replay (FencedPlayer.next episodes) newFencedPlayer evs).getLast?,
      (x.2.player.recorder.captured.map fun d => (d.acceptedEpoch, d.capture.resetEpoch)) = [(0, 1)] ∧
        (x.2.server 7).base.resetEpoch = 1 := by decide +kernel
  have hsome : ((replay (FencedPlayer.next episodes) newFencedPlayer evs).getLast?).isSome := by decide +kernel
  obtain ⟨x, hx⟩ := Option.isSome_iff_exists.1 hsome
  obtain ⟨hcaptured, hreset⟩ := hlast x hx
  obtain ⟨d, hd, hepochs⟩ := List.mem_map.1 (hcaptured ▸ List.mem_cons_self :
    (0, 1) ∈ x.2.player.recorder.captured.map fun d => (d.acceptedEpoch, d.capture.resetEpoch))
  have holder := (hkept x (List.mem_of_getLast? hx)).older d hd .podcastEpisode (x.2.server 7)
  obtain ⟨haccepted, hcapture⟩ := Prod.mk.inj hepochs
  have hlt := (holder (by rw [haccepted, hreset]; decide)).1
  rw [hcapture, hreset] at hlt
  exact lt_irrefl _ hlt

/-- The settlement finishes the media that was reset. -/
example :
    let evs := endInFlight ++ [fencedTurn 12 (.heartbeatAnswered 0 .failure), .elsewhere 7 ⟨1, plainEnv, .resetProgress⟩,
      fencedTurn 1012 (.recoverDelayed 0), .read 0,
      fencedTurn 1015 (.recoverAnswered 0 (.response 200 (.some ⟨0, .none, .none, 2, 1⟩)))]
    let rows := (last newFencedPlayer (replay (FencedPlayer.next episodes) newFencedPlayer evs)).server 7
    (ClientRequest.outcome .podcastEpisode rows ⟨0, plainEnv, .settleNaturalEnd .direct ⟨9, .none, .none, 2, 1⟩ .none⟩) =
      .ok .completedWithoutAdvance := by rfl

end Nexus.Playback
