/-
The native activity queue loses nothing and keeps its order in every run in
which no request that was cancelled resumes while a younger activity job runs:
a batch leaves the queue on the answer to its own POST, batches are first
posted in the order of the queue, one POST is in flight, and the queue is never
empty when a batch is removed.

The in-flight marker is one nullable job. A cancelled POST clears it when it
resumes (`activity_lost`), whoever's job it names by then.
-/
import Nexus.Playback.Recorder
import Nexus.Lib.Run
import Nexus.Lib.ExceptFacts

namespace Nexus.Playback
open Coroutine Consumption Transition ExceptFacts

variable {F : Type}

/-! ## Runs -/

/-- The recorder, and what a turn threw: the app is gone after that. -/
structure RecorderState (F : Type) where
  recorder : Recorder F
  failure : Option RecorderFailure

def RecorderState.next (s : RecorderState F) (e : Reading × RecorderEvent F) : Option (RecorderState F) :=
  if s.failure.isSome then .none
  else (s.recorder.turn e.1 e.2).map fun
    | .ok r => ⟨r, .none⟩
    | .error f => ⟨s.recorder, .some f⟩

/-- The recorder from its construction on. -/
def recorderSystem (F : Type) : System (RecorderState F) (Reading × RecorderEvent F) :=
  .ofFun (fun s => s = ⟨.initial, .none⟩) RecorderState.next

namespace Recorder

variable (s : Recorder F)

def queued : List Uuid := s.activityQueue.map FrozenActivity.id

/-- A POST of a batch of the current queue, cancelled or not, was not answered yet. -/
def Posting (job : Nat) : Prop :=
  ∃ c body, s.activities.find job = .some c ∧ c.point = .post body ∧ body.clientMutationId ∈ s.admitted

/-- What the queue owes its batches. -/
structure Lossless : Prop where
  removed : ∀ id ∈ s.admitted, id ∉ s.queued → id ∈ s.answered
  inOrder : s.firstPosted <+: s.admitted
  single : ∀ j k, s.Posting j → s.Posting k → j = k

end Recorder

def settles (status : Nat) : Prop := status = 204 ∨ status = 403 ∨ status = 404

/-- A batch leaves the queue on a settling answer to its own POST, or with the queue. -/
def RemovesAnswered (s : RecorderState F) (e : Reading × RecorderEvent F) (t : RecorderState F) : Prop :=
  ∀ id ∈ s.recorder.queued, id ∉ t.recorder.queued →
    e.2 = .discardPending ∨ ∃ job body status text, e.2 = .activityAnswered job (.response status text) ∧
      s.recorder.activities.runs job = .some (.post body) ∧ body.clientMutationId = id ∧ settles status

/-- A POST that was cancelled resumes while no activity job runs. -/
def CancelledInTime (s : RecorderState F) (e : Reading × RecorderEvent F) : Prop :=
  match e.2 with
  | .activityCancelled job => s.recorder.activities.stopped job = .some .retryDelay ∨
      s.recorder.activities.isActive s.recorder.activityJob = false
  | _ => True

instance (s : RecorderState F) (e : Reading × RecorderEvent F) : Decidable (CancelledInTime s e) := by
  unfold CancelledInTime
  split <;> infer_instance

/-! ## What a turn keeps -/

namespace Recorder

structure ActivityKept (s : Recorder F) : Prop where
  marked : ∀ j p, s.activities.runs j = .some p → s.activityJob = .some j
  fresh : ∀ id ∈ s.admitted, id < s.randomUuid
  nodup : s.admitted.Nodup
  queue : s.admitted = s.answered ++ s.queued
  posted : s.firstPosted = s.answered ∨
    ∃ a rest, s.activityQueue = a :: rest ∧ s.firstPosted = s.answered ++ [a.id]
  posting : ∀ j body, s.activities.runs j = .some (.post body) →
    ∃ a rest, s.activityQueue = a :: rest ∧ a.id = body.clientMutationId ∧ s.firstPosted = s.answered ++ [a.id]
  stopped : ∀ j body, s.activities.stopped j = .some (.post body) →
    body.clientMutationId < s.randomUuid ∧ body.clientMutationId ∉ s.admitted

/-- The turn added batches at most, and kept the invariant. -/
def Keeps (s t : Recorder F) : Prop :=
  s.ActivityKept → t.ActivityKept ∧ t.answered = s.answered ∧ s.admitted <+: t.admitted

theorem Keeps.trans {s t u : Recorder F} (h : Keeps s t) (h' : Keeps t u) : Keeps s u := by
  intro hs
  obtain ⟨ht, ha, hp⟩ := h hs
  obtain ⟨hu, ha', hp'⟩ := h' ht
  exact ⟨hu, ha'.trans ha, hp.trans hp'⟩

/-- Nothing of the queue was touched. -/
structure SameActivity (s t : Recorder F) : Prop where
  activities : t.activities = s.activities
  activityJob : t.activityJob = s.activityJob
  activityQueue : t.activityQueue = s.activityQueue
  admitted : t.admitted = s.admitted
  firstPosted : t.firstPosted = s.firstPosted
  answered : t.answered = s.answered
  randomUuid : s.randomUuid ≤ t.randomUuid

theorem SameActivity.rfl {s : Recorder F} : SameActivity s s := ⟨Eq.refl _, Eq.refl _, Eq.refl _, Eq.refl _, Eq.refl _, Eq.refl _, le_rfl⟩

theorem SameActivity.trans {s t u : Recorder F} (h : SameActivity s t) (h' : SameActivity t u) : SameActivity s u :=
  ⟨h'.1.trans h.1, h'.2.trans h.2, h'.3.trans h.3, h'.4.trans h.4, h'.5.trans h.5, h'.6.trans h.6, h.7.trans h'.7⟩

theorem SameActivity.keeps {s t : Recorder F} (h : SameActivity s t) : Keeps s t := by
  obtain ⟨h1, h2, h3, h4, h5, h6, h7⟩ := h
  intro hs
  refine ⟨⟨?_, ?_, ?_, ?_, ?_, ?_, ?_⟩, h6, h4 ▸ List.prefix_rfl⟩
  · rw [h1, h2]; exact hs.marked
  · rw [h4]; exact fun id hid => lt_of_lt_of_le (hs.fresh id hid) h7
  · rw [h4]; exact hs.nodup
  · unfold queued; rw [h3, h4, h6]; exact hs.queue
  · rw [h3, h5, h6]; exact hs.posted
  · rw [h1, h3, h5, h6]; exact hs.posting
  · rw [h1, h4]
    exact fun j body hj => ⟨lt_of_lt_of_le (hs.stopped j body hj).1 h7, (hs.stopped j body hj).2⟩

/-! ## The parts that leave the queue alone -/

theorem same_openActivity (s : Recorder F) (now : Reading) (current : RecordingSession F) :
    SameActivity s (s.openActivity now current) := by
  unfold openActivity
  split
  · exact .rfl
  · exact ⟨rfl, rfl, rfl, rfl, rfl, rfl, le_rfl⟩

theorem same_finishDrain (s : Recorder F) : SameActivity s s.finishDrain := by
  unfold finishDrain
  split
  · exact ⟨rfl, rfl, rfl, rfl, rfl, rfl, Nat.le_succ _⟩
  · exact .rfl

theorem same_completeNaturalEndCaptureIfReady (s : Recorder F) : SameActivity s s.completeNaturalEndCaptureIfReady := by
  unfold completeNaturalEndCaptureIfReady
  split
  · exact .rfl
  · split
    · exact ⟨rfl, rfl, rfl, rfl, rfl, rfl, le_rfl⟩
    · split
      · exact .rfl
      · split
        · exact .rfl
        · exact ⟨rfl, rfl, rfl, rfl, rfl, rfl, le_rfl⟩

theorem same_completeDrainIfReady (s : Recorder F) : SameActivity s s.completeDrainIfReady := by
  unfold completeDrainIfReady
  split
  · split
    · exact .rfl
    · exact same_finishDrain s
  · exact .rfl

theorem same_suspendPersistence (s : Recorder F) (kind : RecoveryKind) : SameActivity s (s.suspendPersistence kind) := by
  have h : SameActivity s { s with
      recoveries := s.recoveries.cancel s.recoveryJob, recoveryJob := .none, recoveryKind := .some kind } :=
    ⟨rfl, rfl, rfl, rfl, rfl, rfl, le_rfl⟩
  have h' := h.trans (same_completeNaturalEndCaptureIfReady _)
  unfold suspendPersistence
  dsimp only
  split
  · exact h'.trans (same_finishDrain _)
  · exact h'

theorem same_sendHeartbeatIfReady (s : Recorder F) : SameActivity s s.sendHeartbeatIfReady := by
  unfold sendHeartbeatIfReady
  split
  · exact .rfl
  · split
    · exact .rfl
    · split
      · exact .rfl
      · exact ⟨rfl, rfl, rfl, rfl, rfl, rfl, le_rfl⟩

theorem same_markHeartbeatDirty (s : Recorder F) (now : Reading) : SameActivity s (s.markHeartbeatDirty now) :=
  ⟨rfl, rfl, rfl, rfl, rfl, rfl, le_rfl⟩

theorem same_beginRecovery (s : Recorder F) (token : Uuid) : SameActivity s (s.beginRecovery token) := by
  unfold beginRecovery
  split
  · exact .rfl
  · split
    · exact .rfl
    · exact ⟨rfl, rfl, rfl, rfl, rfl, rfl, le_rfl⟩

theorem same_retryPersistence (s : Recorder F) : SameActivity s s.retryPersistence := by
  unfold retryPersistence
  split
  · exact .rfl
  · split
    · exact .rfl
    · exact ⟨rfl, rfl, rfl, rfl, rfl, rfl, le_rfl⟩

theorem same_startCadence (s : Recorder F) : SameActivity s s.startCadence := by
  unfold startCadence
  split
  · exact .rfl
  · exact ⟨rfl, rfl, rfl, rfl, rfl, rfl, le_rfl⟩

theorem same_stopCadence (s : Recorder F) : SameActivity s s.stopCadence := ⟨rfl, rfl, rfl, rfl, rfl, rfl, le_rfl⟩

theorem same_setPlaying (s : Recorder F) (playing : Bool) : SameActivity s (s.setPlaying playing) :=
  ⟨rfl, rfl, rfl, rfl, rfl, rfl, le_rfl⟩

theorem same_recoverExhausted (s : Recorder F) (point : RecoverPoint) : SameActivity s (s.recoverExhausted point) := by
  have finish : ∀ t : Recorder F, SameActivity s t →
      SameActivity s (if point.fromSuspended then { t with recoveryJob := .none } else t) := by
    intro t ht
    split
    · exact ht.trans ⟨rfl, rfl, rfl, rfl, rfl, rfl, le_rfl⟩
    · exact ht
  refine finish _ ?_
  split
  · refine SameActivity.trans ?_ (same_suspendPersistence _ _)
    split
    · exact ⟨rfl, rfl, rfl, rfl, rfl, rfl, le_rfl⟩
    · exact .rfl
  · exact .rfl

theorem same_recoverContinue (s : Recorder F) (job : Nat) (point : RecoverPoint) :
    SameActivity s (s.recoverContinue job point) := by
  unfold recoverContinue
  split
  · exact ⟨rfl, rfl, rfl, rfl, rfl, rfl, le_rfl⟩
  · exact (same_recoverExhausted s point).trans ⟨rfl, rfl, rfl, rfl, rfl, rfl, le_rfl⟩

theorem same_recoverDelayed (s : Recorder F) (job : Nat) (point : RecoverPoint) :
    SameActivity s (s.recoverDelayed job point) := by
  unfold recoverDelayed
  split
  · exact ⟨rfl, rfl, rfl, rfl, rfl, rfl, le_rfl⟩
  · exact ⟨rfl, rfl, rfl, rfl, rfl, rfl, le_rfl⟩

theorem same_drainDeadline (s : Recorder F) (job : Nat) : SameActivity s (s.drainDeadline job) :=
  (same_finishDrain s).trans ⟨rfl, rfl, rfl, rfl, rfl, rfl, le_rfl⟩

/-! ## The queue -/

theorem keeps_sendActivityIfReady (s : Recorder F) : Keeps s s.sendActivityIfReady := by
  intro hs
  unfold sendActivityIfReady
  split
  · exact ⟨hs, rfl, List.prefix_rfl⟩
  · rename_i a rest hq
    split
    · exact ⟨hs, rfl, List.prefix_rfl⟩
    · rename_i hready
      simp only [Bool.or_eq_true, not_or, Bool.not_eq_true] at hready
      have hidle : ∀ j p, s.activities.runs j ≠ .some p := by
        intro j p hj
        have hm := hs.marked j p hj
        have := (s.activities.isActive_eq_true).2 ⟨j, p, hm, hj⟩
        rw [hready.1] at this
        cases this
      have hnot : a.id ∉ s.answered := by
        have hn := hs.nodup
        rw [hs.queue, queued, hq] at hn
        exact fun hmem => List.disjoint_of_nodup_append hn hmem (by simp)
      have hfirst : (if a.id ∈ s.firstPosted then s.firstPosted else s.firstPosted ++ [a.id]) = s.answered ++ [a.id] := by
        rcases hs.posted with hp | ⟨b, rest', hb, hp⟩
        · rw [hp, if_neg hnot]
        · rw [hq] at hb
          obtain ⟨rfl, rfl⟩ := List.cons.inj hb
          rw [hp, if_pos (by simp)]
      refine ⟨⟨?_, hs.fresh, hs.nodup, hs.queue, ?_, ?_, ?_⟩, rfl, List.prefix_rfl⟩
      · intro j p hj
        rw [Scope.runs_launch] at hj
        split at hj
        next h => rw [h]
        next => exact absurd hj (hidle j p)
      · exact .inr ⟨a, rest, hq, hfirst⟩
      · intro j body hj
        dsimp only at hj ⊢
        rw [Scope.runs_launch] at hj
        split at hj
        · cases hj
          exact ⟨a, rest, hq, rfl, hfirst⟩
        · exact absurd hj (hidle j _)
      · intro j body hj
        rw [Scope.stopped_launch] at hj
        exact hs.stopped j body hj

theorem keeps_requeue (s : Recorder F) (f : FrozenActivity → FrozenActivity) (hf : ∀ a, (f a).id = a.id) :
    Keeps s { s with activityQueue := s.activityQueue.map f } := by
  intro hs
  have hqueued : (s.activityQueue.map f).map FrozenActivity.id = s.queued := by
    simp [queued, Function.comp_def, hf]
  refine ⟨⟨hs.marked, hs.fresh, hs.nodup, ?_, ?_, ?_, hs.stopped⟩, rfl, List.prefix_rfl⟩
  · show s.admitted = s.answered ++ (s.activityQueue.map f).map FrozenActivity.id
    rw [hqueued]
    exact hs.queue
  · rcases hs.posted with hp | ⟨a, rest, ha, hp⟩
    · exact .inl hp
    · refine .inr ⟨f a, rest.map f, ?_, by rw [hf]; exact hp⟩
      show s.activityQueue.map f = _
      rw [ha, List.map_cons]
  · intro j body hj
    obtain ⟨a, rest, ha, hid, hp⟩ := hs.posting j body hj
    refine ⟨f a, rest.map f, ?_, (hf a).trans hid, by rw [hf]; exact hp⟩
    show s.activityQueue.map f = _
    rw [ha, List.map_cons]

theorem keeps_restartActivityRetries (s : Recorder F) : Keeps s s.restartActivityRetries := by
  have h := keeps_requeue s (fun a => { a with retryAttempt := 0 }) fun _ => rfl
  exact h.trans (keeps_sendActivityIfReady _)

theorem keeps_enqueueActivity (s : Recorder F) (epoch : ActivityEpoch) (durationMs : Int)
    (finish : RecorderPlaybackSample) : Keeps s (s.enqueueActivity epoch durationMs finish) := by
  unfold enqueueActivity
  dsimp only
  have hdraw : SameActivity s { s with randomUuid := s.randomUuid + 1 } := ⟨rfl, rfl, rfl, rfl, rfl, rfl, Nat.le_succ _⟩
  split
  · exact (hdraw.trans (same_suspendPersistence _ _)).keeps
  · refine Keeps.trans ?_ (keeps_sendActivityIfReady _)
    intro hs
    have hnew : s.randomUuid ∉ s.admitted := fun h => absurd (hs.fresh _ h) (lt_irrefl _)
    refine ⟨⟨hs.marked, ?_, ?_, ?_, ?_, ?_, ?_⟩, rfl, List.prefix_append _ _⟩
    · intro id hid
      dsimp only at hid ⊢
      rcases List.mem_append.1 hid with hid | hid
      · exact Nat.lt_succ_of_lt (hs.fresh id hid)
      · rw [List.mem_singleton.1 hid]
        exact Nat.lt_succ_self _
    · exact List.nodup_append.2 ⟨hs.nodup, List.nodup_singleton _, by
        intro a ha b hb hab
        rw [List.mem_singleton.1 hb] at hab
        exact hnew (hab ▸ ha)⟩
    · have hqueue := hs.queue
      unfold queued at hqueue ⊢
      rw [List.map_append, ← List.append_assoc, ← hqueue]
      rfl
    · rcases hs.posted with hp | ⟨a, rest, ha, hp⟩
      · exact .inl hp
      · exact .inr ⟨a, _, by dsimp only; rw [ha, List.cons_append], hp⟩
    · intro j body hj
      obtain ⟨a, rest, ha, hid, hp⟩ := hs.posting j body hj
      exact ⟨a, _, by dsimp only; rw [ha, List.cons_append], hid, hp⟩
    · intro j body hj
      obtain ⟨hlt, hnot⟩ := hs.stopped j body hj
      refine ⟨Nat.lt_succ_of_lt hlt, ?_⟩
      simp only [List.mem_append, List.mem_singleton, not_or]
      exact ⟨hnot, Nat.ne_of_lt hlt⟩

theorem keeps_closeActivity (s : Recorder F) (now : Reading) (reopen : Bool) : Keeps s (s.closeActivity now reopen) := by
  have hclosed : SameActivity s { s with activityEpoch := .none } := ⟨rfl, rfl, rfl, rfl, rfl, rfl, le_rfl⟩
  have hqueued : ∀ (c : Prop) [Decidable c] (epoch : ActivityEpoch) (elapsedMs : Int) (playback : _),
      Keeps s (if c then ({ s with activityEpoch := .none } : Recorder F).enqueueActivity epoch elapsedMs playback
        else ({ s with activityEpoch := .none } : Recorder F)) := by
    intro c _ epoch elapsedMs playback
    split
    · exact hclosed.keeps.trans (keeps_enqueueActivity _ _ _ _)
    · exact hclosed.keeps
  unfold closeActivity
  split
  · exact SameActivity.rfl.keeps
  · dsimp only
    split
    · split
      · exact (hqueued _ _ _ _).trans (same_openActivity _ _ _).keeps
      · exact hqueued _ _ _ _
    · exact hqueued _ _ _ _

/-! ## The activity job's turns -/

def Idle (s : Recorder F) : Prop := ∀ j p, s.activities.runs j ≠ .some p

theorem kept_resumed {s : Recorder F} {job : Nat} {p : ActivityPoint} (hs : s.ActivityKept)
    (hr : s.activities.runs job = .some p) :
    ({ s with activities := s.activities.finish job, activityJob := .none } : Recorder F).ActivityKept ∧
    ({ s with activities := s.activities.finish job, activityJob := .none } : Recorder F).Idle := by
  have hidle : ∀ j q, (s.activities.finish job).runs j ≠ .some q := by
    intro j q hj
    rw [Scope.runs_finish] at hj
    split at hj
    · cases hj
    · rename_i hne
      have := (hs.marked job p hr).symm.trans (hs.marked j q hj)
      exact hne (Option.some.inj this).symm
  refine ⟨⟨?_, hs.fresh, hs.nodup, hs.queue, hs.posted, ?_, ?_⟩, hidle⟩
  · exact fun j q hj => absurd hj (hidle j q)
  · exact fun j body hj => absurd hj (hidle j _)
  · intro j body hj
    dsimp only at hj
    rw [Scope.stopped_finish] at hj
    split at hj
    · cases hj
    · exact hs.stopped j body hj

theorem id_setRetryAttempt (frozen : ActivityBody) (n : Nat) (a : FrozenActivity) :
    (if a.id = frozen.clientMutationId then { a with retryAttempt := n } else a).id = a.id := by
  split <;> rfl

theorem keeps_setRetryAttempt (s : Recorder F) (frozen : ActivityBody) (n : Nat) :
    Keeps s { s with activityQueue := setRetryAttempt s.activityQueue frozen n } :=
  keeps_requeue s _ (id_setRetryAttempt frozen n)

theorem keeps_launchRetry {s : Recorder F} (hidle : s.Idle) :
    Keeps s { s with activities := s.activities.launch .retryDelay, activityJob := .some s.activities.next } := by
  intro hs
  refine ⟨⟨?_, hs.fresh, hs.nodup, hs.queue, hs.posted, ?_, ?_⟩, rfl, List.prefix_rfl⟩
  · intro j p hj
    dsimp only at hj ⊢
    rw [Scope.runs_launch] at hj
    split at hj
    next h => rw [h]
    next => exact absurd hj (hidle j p)
  · intro j body hj
    dsimp only at hj
    rw [Scope.runs_launch] at hj
    split at hj
    · cases hj
    · exact absurd hj (hidle j _)
  · intro j body hj
    dsimp only at hj
    rw [Scope.stopped_launch] at hj
    exact hs.stopped j body hj

theorem keeps_retryActivity {s : Recorder F} (hidle : s.Idle) (frozen : ActivityBody) :
    Keeps s (s.retryActivity frozen) := by
  unfold retryActivity
  dsimp only
  split
  · exact Keeps.trans (keeps_setRetryAttempt s frozen _) (keeps_launchRetry (s := { s with
      activityQueue := setRetryAttempt s.activityQueue frozen _ }) hidle)
  · exact (keeps_setRetryAttempt s frozen 0).trans (same_suspendPersistence _ _).keeps

theorem keeps_activityRetried {s : Recorder F} {job : Nat} {p : ActivityPoint} (hr : s.activities.runs job = .some p) :
    Keeps s (s.activityRetried job) := by
  refine Keeps.trans (fun hs => ⟨(kept_resumed hs hr).1, rfl, List.prefix_rfl⟩) (keeps_sendActivityIfReady _)

/-- The answer settled the batch it was for, or no batch. -/
def SettlesOwn (s : Recorder F) (frozen : ActivityBody) (answer : Answer Unit) (t : Recorder F) : Prop :=
  s.admitted <+: t.admitted ∧ (t.answered = s.answered ∨ t.answered = s.answered ++ [frozen.clientMutationId] ∧
    ∃ status text, answer = .response status text ∧ settles status)

theorem activityAnswered_ok {s : Recorder F} {job : Nat} {frozen : ActivityBody} {answer : Answer Unit} {t : Recorder F}
    (hs : s.ActivityKept) (hr : s.activities.runs job = .some (.post frozen))
    (h : s.activityAnswered job frozen answer = .ok t) :
    t.ActivityKept ∧ s.SettlesOwn frozen answer t := by
  obtain ⟨hkept, hidle⟩ := kept_resumed hs hr
  obtain ⟨a, rest, hq, hid, hfirst⟩ := hs.posting job frozen hr
  have hretry := keeps_retryActivity hidle frozen hkept
  have hexpired := (same_suspendPersistence _ .authExpired).keeps hkept
  -- what the response leaves is followed by the next POST
  have hsend : ∀ u : Recorder F, u.ActivityKept → s.SettlesOwn frozen answer u →
      u.sendActivityIfReady = t → t.ActivityKept ∧ s.SettlesOwn frozen answer t := by
    intro u hu hown hut
    obtain ⟨hk, ha, hp⟩ := keeps_sendActivityIfReady u hu
    rw [hut] at hk ha hp
    exact ⟨hk, hown.1.trans hp, by rw [ha]; exact hown.2⟩
  unfold activityAnswered at h
  obtain ⟨u, hu, h⟩ := bind_eq_ok.1 h
  have hut : u.sendActivityIfReady = t := by cases h; rfl
  unfold handleActivityResponse at hu
  split at hu
  · cases hu
    exact hsend _ hretry.1 ⟨hretry.2.2, .inl hretry.2.1⟩ hut
  · rename_i status text
    split at hu
    · rename_i hstatus
      simp only [hq] at hu
      cases hu
      refine hsend _ ?_ ?_ hut
      · refine ⟨fun j p hj => absurd hj (hidle j p), hs.fresh, hs.nodup, ?_, .inl ?_,
          fun j body hj => absurd hj (hidle j _), hkept.stopped⟩
        · have hqueue := hs.queue
          rw [queued, hq, List.map_cons, hid] at hqueue
          show s.admitted = (s.answered ++ [frozen.clientMutationId]) ++ rest.map FrozenActivity.id
          rw [hqueue, List.append_assoc]
          rfl
        · show s.firstPosted = s.answered ++ [frozen.clientMutationId]
          rw [hfirst, hid]
      · exact ⟨List.prefix_rfl, .inr ⟨rfl, status, text, rfl, hstatus⟩⟩
    · split at hu
      · cases hu
        exact hsend _ hexpired.1 ⟨hexpired.2.2, .inl hexpired.2.1⟩ hut
      · split at hu
        · cases hu
          exact hsend _ hretry.1 ⟨hretry.2.2, .inl hretry.2.1⟩ hut
        · cases hu

theorem activityAnswered_error {s : Recorder F} {job : Nat} {frozen : ActivityBody} {answer : Answer Unit}
    {f : RecorderFailure} (hs : s.ActivityKept) (hr : s.activities.runs job = .some (.post frozen))
    (h : s.activityAnswered job frozen answer = .error f) : f ≠ .noSuchElement := by
  obtain ⟨a, rest, hq, -, -⟩ := hs.posting job frozen hr
  unfold activityAnswered at h
  rcases bind_eq_error.1 h with hu | ⟨u, -, hu⟩
  · unfold handleActivityResponse at hu
    simp only [hq] at hu
    split at hu
    · cases hu
    · split at hu
      · cases hu
      · split at hu
        · cases hu
        · split at hu
          · cases hu
          · cases hu
            exact fun h => by cases h
  · cases hu

/-! ## The other turns -/

theorem keeps_dirty_send (s : Recorder F) (now : Reading) : SameActivity s (s.markHeartbeatDirty now).sendHeartbeatIfReady :=
  (same_markHeartbeatDirty s now).trans (same_sendHeartbeatIfReady _)

theorem keeps_stopCurrent (s : Recorder F) (now : Reading) : Keeps s (s.stopCurrent now) := by
  have h := (keeps_closeActivity s now false).trans ((same_setPlaying _ false).trans (same_stopCadence _)).keeps
  unfold stopCurrent
  split
  · exact SameActivity.rfl.keeps
  · dsimp only
    split
    · exact h
    · exact h.trans (keeps_dirty_send _ now).keeps

theorem keeps_install (s : Recorder F) (now : Reading) (mediaId : Uuid) (rate : Option F) (writeRevision resetEpoch : Nat) :
    Keeps s (s.install now mediaId rate writeRevision resetEpoch) :=
  (keeps_stopCurrent s now).trans (SameActivity.keeps ⟨rfl, rfl, rfl, rfl, rfl, rfl, Nat.le_add_right _ _⟩)

theorem keeps_dismiss (s : Recorder F) (now : Reading) : Keeps s (s.dismiss now) :=
  (keeps_stopCurrent s now).trans (SameActivity.keeps ⟨rfl, rfl, rfl, rfl, rfl, rfl, le_rfl⟩)

theorem keeps_onPlayingChanged (s : Recorder F) (now : Reading) (playing : Bool) :
    Keeps s (s.onPlayingChanged now playing) := by
  unfold onPlayingChanged
  split
  · exact SameActivity.rfl.keeps
  · split
    · exact (same_setPlaying s false).keeps
    · split
      · exact SameActivity.rfl.keeps
      · split
        · exact ((same_setPlaying s true).trans ((same_openActivity _ _ _).trans (same_startCadence _))).keeps
        · refine (same_setPlaying s false).keeps.trans ((keeps_closeActivity _ now false).trans ?_)
          exact ((keeps_dirty_send _ now).trans (same_stopCadence _)).keeps

theorem keeps_beforeManualDiscontinuity (s : Recorder F) (now : Reading) : Keeps s (s.beforeManualDiscontinuity now) := by
  unfold beforeManualDiscontinuity
  split
  · exact SameActivity.rfl.keeps
  · split
    · exact SameActivity.rfl.keeps
    · exact (keeps_closeActivity s now false).trans (keeps_dirty_send _ now).keeps

theorem keeps_afterManualDiscontinuity (s : Recorder F) (now : Reading) : Keeps s (s.afterManualDiscontinuity now) := by
  unfold afterManualDiscontinuity
  split
  · exact SameActivity.rfl.keeps
  · split
    · exact (same_openActivity s now _).keeps
    · exact SameActivity.rfl.keeps

theorem keeps_flush (s : Recorder F) (now : Reading) : Keeps s (s.flush now) := by
  unfold flush
  split
  · exact SameActivity.rfl.keeps
  · split
    · exact SameActivity.rfl.keeps
    · exact (keeps_closeActivity s now _).trans (keeps_dirty_send _ now).keeps

theorem keeps_captureNaturalEnd {s : Recorder F} {now : Reading} {t : Recorder F} (h : s.captureNaturalEnd now = .ok t) :
    Keeps s t := by
  unfold captureNaturalEnd at h
  split at h
  · cases h
    exact SameActivity.rfl.keeps
  · split at h
    · cases h
    · cases h
      refine (keeps_closeActivity s now false).trans (SameActivity.keeps ?_)
      refine SameActivity.trans ?_ (same_completeNaturalEndCaptureIfReady _)
      dsimp only
      split
      · refine SameActivity.trans ?_ (same_retryPersistence _)
        exact ⟨rfl, rfl, rfl, rfl, rfl, rfl, Nat.le_succ _⟩
      · exact ⟨rfl, rfl, rfl, rfl, rfl, rfl, Nat.le_succ _⟩

theorem keeps_drain {s : Recorder F} {now : Reading} {t : Recorder F} (h : s.drain now = .ok t) : Keeps s t := by
  unfold drain at h
  split at h
  · cases h
    exact SameActivity.rfl.keeps
  · split at h
    · cases h
    · cases h
      refine (keeps_closeActivity s now false).trans (SameActivity.keeps ?_)
      refine SameActivity.trans ?_ (same_completeDrainIfReady _)
      refine SameActivity.trans (t := sendHeartbeatIfReady _) (SameActivity.trans ?_ (same_sendHeartbeatIfReady _))
        ⟨rfl, rfl, rfl, rfl, rfl, rfl, le_rfl⟩
      exact ⟨rfl, rfl, rfl, rfl, rfl, rfl, le_rfl⟩

theorem keeps_adoptListeningState (s : Recorder F) (now : Reading) (state : ListeningStateOut F) :
    Keeps s (s.adoptListeningState now state) := by
  unfold adoptListeningState
  split
  · exact SameActivity.rfl.keeps
  · exact (keeps_closeActivity s now false).trans (SameActivity.keeps ⟨rfl, rfl, rfl, rfl, rfl, rfl, Nat.le_succ _⟩)

theorem keeps_cadenceTick (s : Recorder F) (now : Reading) (job : Nat) (point : CadencePoint) :
    Keeps s (s.cadenceTick now job point) := by
  have hfinish : ∀ (t : Recorder F) (c : Scope CadencePoint), SameActivity t { t with cadences := c } :=
    fun _ _ => ⟨rfl, rfl, rfl, rfl, rfl, rfl, le_rfl⟩
  have hcheckpoint : ∀ b : Bool, Keeps s (if b then s.closeActivity now true else s) := by
    intro b
    cases b
    · exact SameActivity.rfl.keeps
    · exact keeps_closeActivity s now true
  have hsync : ∀ (t : Recorder F) (b : Bool), Keeps t (if b then (t.markHeartbeatDirty now).sendHeartbeatIfReady else t) := by
    intro t b
    cases b
    · exact SameActivity.rfl.keeps
    · exact (keeps_dirty_send t now).keeps
  unfold cadenceTick
  split
  · exact (hfinish s _).keeps
  · split
    · exact (hcheckpoint _).trans ((hsync _ _).trans (hfinish _ _).keeps)
    · exact (hfinish s _).keeps

theorem keeps_handleHeartbeatResponse {s : Recorder F} {request : HeartbeatRequest F} {status : Nat}
    {body : Option (DecodedHeartbeatResult F)} {t : Recorder F} (h : s.handleHeartbeatResponse request status body = .ok t) :
    SameActivity s t := by
  unfold handleHeartbeatResponse at h
  split at h
  · split at h
    · cases h
    · split at h
      · split at h
        · cases h
          exact .rfl
        · cases h
          refine SameActivity.trans ?_ (same_sendHeartbeatIfReady _)
          exact ⟨rfl, rfl, rfl, rfl, rfl, rfl, le_rfl⟩
      · cases h
  · split at h
    · cases h
      refine SameActivity.trans ?_ (same_suspendPersistence _ _)
      exact ⟨rfl, rfl, rfl, rfl, rfl, rfl, le_rfl⟩
    · split at h
      · cases h
        exact same_beginRecovery s _
      · cases h

theorem same_completions (s : Recorder F) :
    SameActivity s s.completeNaturalEndCaptureIfReady.completeDrainIfReady :=
  (same_completeNaturalEndCaptureIfReady s).trans (same_completeDrainIfReady _)

theorem keeps_heartbeatAnswered {s : Recorder F} {job : Nat} {request : HeartbeatRequest F}
    {answer : Answer (DecodedHeartbeatResult F)} {t : Recorder F} (h : s.heartbeatAnswered job request answer = .ok t) :
    SameActivity s t := by
  have hresumed : SameActivity s { s with
      heartbeats := s.heartbeats.finish job, heartbeatJobs := s.heartbeatJobs.filter fun e => e.1 ≠ request.token } :=
    ⟨rfl, rfl, rfl, rfl, rfl, rfl, le_rfl⟩
  unfold heartbeatAnswered at h
  dsimp only at h
  split at h
  · obtain ⟨u, hu, h⟩ := bind_eq_ok.1 h
    cases h
    refine hresumed.trans (SameActivity.trans ?_ (same_completions u))
    split at hu
    · exact keeps_handleHeartbeatResponse hu
    · cases hu
      exact same_beginRecovery _ _
  · cases h
    refine hresumed.trans (SameActivity.trans ?_ (same_completions _))
    refine SameActivity.trans ?_ (same_sendHeartbeatIfReady _)
    exact ⟨rfl, rfl, rfl, rfl, rfl, rfl, le_rfl⟩

theorem keeps_installRecovered (s : Recorder F) (now : Reading) (active : RecordingSession F) (server : ListeningStateOut F) :
    Keeps s (s.installRecovered now active server) := by
  unfold installRecovered
  dsimp only
  split
  · exact (keeps_closeActivity s now false).trans (SameActivity.keeps ⟨rfl, rfl, rfl, rfl, rfl, rfl, le_rfl⟩)
  · exact SameActivity.keeps ⟨rfl, rfl, rfl, rfl, rfl, rfl, le_rfl⟩

theorem keeps_recovered (s : Recorder F) (now : Reading) (token : Uuid) (active : RecordingSession F)
    (server : ListeningStateOut F) : Keeps s (s.recovered now token active server) := by
  unfold recovered
  refine Keeps.trans ?_ ((same_sendHeartbeatIfReady _).trans (same_completions _)).keeps
  refine Keeps.trans ?_ (keeps_restartActivityRetries _)
  refine Keeps.trans (t := installRecovered _ now active server) (Keeps.trans ?_ (keeps_installRecovered _ now active server))
    (SameActivity.keeps ⟨rfl, rfl, rfl, rfl, rfl, rfl, Nat.le_succ _⟩)
  exact SameActivity.keeps ⟨rfl, rfl, rfl, rfl, rfl, rfl, le_rfl⟩

theorem keeps_recoverAnswered {s : Recorder F} {now : Reading} {job : Nat} {point : RecoverPoint}
    {answer : Answer (ListeningStateOut F)} {t : Recorder F} (h : s.recoverAnswered now job point answer = .ok t) :
    Keeps s t := by
  have hfinish : ∀ u : Recorder F, Keeps s u → Keeps s { u with recoveries := u.recoveries.finish job } :=
    fun u hu => hu.trans (SameActivity.keeps ⟨rfl, rfl, rfl, rfl, rfl, rfl, le_rfl⟩)
  unfold recoverAnswered at h
  split at h
  · cases h
    exact (same_recoverContinue s job point).keeps
  · split at h
    · split at h
      · cases h
      · split at h
        · cases h
          exact hfinish s SameActivity.rfl.keeps
        · cases h
          exact hfinish _ (keeps_recovered s now _ _ _)
    · split at h
      · cases h
        refine hfinish _ (SameActivity.keeps (SameActivity.trans ?_ (same_suspendPersistence _ _)))
        exact ⟨rfl, rfl, rfl, rfl, rfl, rfl, le_rfl⟩
      · split at h
        · cases h
          exact (same_recoverContinue s job point).keeps
        · cases h

/-! ## Cancellation -/

theorem kept_discardPending {s : Recorder F} (hs : s.ActivityKept) : s.discardPending.ActivityKept := by
  refine ⟨?_, fun _ h => (by cases h), List.nodup_nil, rfl, .inl rfl, ?_, ?_⟩
  · intro j p hj
    have hj : (s.activities.cancel s.activityJob).runs j = .some p := hj
    have hr := s.activities.runs_of_cancel hj
    rw [Scope.runs_cancel, if_pos (hs.marked j p hr)] at hj
    cases hj
  · intro j body hj
    have hj : (s.activities.cancel s.activityJob).runs j = .some (.post body) := hj
    have hr := s.activities.runs_of_cancel hj
    rw [Scope.runs_cancel, if_pos (hs.marked j _ hr)] at hj
    cases hj
  · intro j body hj
    refine ⟨?_, fun h => by cases h⟩
    rcases s.activities.stopped_of_cancel hj with h | h
    · exact (hs.stopped j body h).1
    · obtain ⟨a, rest, hq, hid, -⟩ := hs.posting j body h
      refine hs.fresh _ ?_
      rw [hs.queue, queued, hq, ← hid]
      simp

theorem idle_of_inactive {s : Recorder F} (hs : s.ActivityKept) (h : s.activities.isActive s.activityJob = false) :
    s.Idle := by
  intro j p hj
  rw [(s.activities.isActive_eq_true).2 ⟨j, p, hs.marked j p hj, hj⟩] at h
  cases h

theorem keeps_activityCancelled {s t : Recorder F} {job : Nat}
    (hg : ∀ body, s.activities.stopped job = .some (.post body) → s.activities.isActive s.activityJob = false)
    (h : s.cancelledResumes (.activityCancelled job) = .some t) : Keeps s t := by
  intro hs
  have hruns : ∀ j p, (s.activities.finish job).runs j = .some p → s.activities.runs j = .some p := by
    intro j p hj
    rw [Scope.runs_finish] at hj
    split at hj
    · cases hj
    · exact hj
  have hstopped : ∀ j p, (s.activities.finish job).stopped j = .some p → s.activities.stopped j = .some p := by
    intro j p hj
    rw [Scope.stopped_finish] at hj
    split at hj
    · cases hj
    · exact hj
  obtain ⟨point, hpoint, h⟩ := Option.map_eq_some_iff.1 h
  cases point with
  | post body =>
    have hidle := idle_of_inactive hs (hg body hpoint)
    obtain rfl := h
    refine ⟨⟨fun j p hj => absurd (hruns j p hj) (hidle j p), hs.fresh, hs.nodup, hs.queue, hs.posted,
      fun j b hj => absurd (hruns j _ hj) (hidle j _), fun j b hj => hs.stopped j b (hstopped j _ hj)⟩, rfl, List.prefix_rfl⟩
  | retryDelay =>
    obtain rfl := h
    exact ⟨⟨fun j p hj => hs.marked j p (hruns j p hj), hs.fresh, hs.nodup, hs.queue, hs.posted,
      fun j b hj => hs.posting j b (hruns j _ hj), fun j b hj => hs.stopped j b (hstopped j _ hj)⟩, rfl, List.prefix_rfl⟩

/-! ## One turn -/

theorem captureNaturalEnd_error {s : Recorder F} {now : Reading} {f : RecorderFailure}
    (h : s.captureNaturalEnd now = .error f) : f ≠ .noSuchElement := by
  unfold captureNaturalEnd at h
  split at h
  · cases h
  · split at h
    · cases h
      exact fun h => by cases h
    · cases h

theorem drain_error {s : Recorder F} {now : Reading} {f : RecorderFailure} (h : s.drain now = .error f) :
    f ≠ .noSuchElement := by
  unfold drain at h
  split at h
  · cases h
  · split at h
    · cases h
      exact fun h => by cases h
    · cases h

theorem handleHeartbeatResponse_error {s : Recorder F} {request : HeartbeatRequest F} {status : Nat}
    {body : Option (DecodedHeartbeatResult F)} {f : RecorderFailure}
    (h : s.handleHeartbeatResponse request status body = .error f) : f ≠ .noSuchElement := by
  unfold handleHeartbeatResponse at h
  intro hf
  subst hf
  split at h
  · split at h
    · cases h
    · split at h
      · split at h <;> cases h
      · cases h
  · split at h
    · cases h
    · split at h <;> cases h

theorem heartbeatAnswered_error {s : Recorder F} {job : Nat} {request : HeartbeatRequest F}
    {answer : Answer (DecodedHeartbeatResult F)} {f : RecorderFailure}
    (h : s.heartbeatAnswered job request answer = .error f) : f ≠ .noSuchElement := by
  unfold heartbeatAnswered at h
  dsimp only at h
  split at h
  · rcases bind_eq_error.1 h with hu | ⟨u, -, hu⟩
    · split at hu
      · exact handleHeartbeatResponse_error hu
      · cases hu
    · cases hu
  · cases h

theorem recoverAnswered_error {s : Recorder F} {now : Reading} {job : Nat} {point : RecoverPoint}
    {answer : Answer (ListeningStateOut F)} {f : RecorderFailure}
    (h : s.recoverAnswered now job point answer = .error f) : f ≠ .noSuchElement := by
  unfold recoverAnswered at h
  intro hf
  subst hf
  split at h
  · cases h
  · split at h
    · split at h
      · cases h
      · split at h <;> cases h
    · split at h
      · cases h
      · split at h <;> cases h

/-- How a turn leaves the queue: it discards it, settles the batch whose POST was
answered, or adds batches at most. -/
inductive QueueTurn (s : Recorder F) : RecorderEvent F → Recorder F → Prop
  | discarded : QueueTurn s .discardPending s.discardPending
  | answered {job frozen answer t} : s.activities.runs job = .some (.post frozen) → s.SettlesOwn frozen answer t →
      QueueTurn s (.activityAnswered job answer) t
  | kept {ev t} : t.answered = s.answered → s.admitted <+: t.admitted → QueueTurn s ev t

theorem Keeps.turn {s t : Recorder F} (h : Keeps s t) (hs : s.ActivityKept) (ev : RecorderEvent F) :
    t.ActivityKept ∧ QueueTurn s ev t :=
  ⟨(h hs).1, .kept (h hs).2.1 (h hs).2.2⟩

theorem turn_ok {s t : Recorder F} {now : Reading} {ev : RecorderEvent F} (hs : s.ActivityKept)
    (hg : ∀ job, ev = .activityCancelled job → ∀ body, s.activities.stopped job = .some (.post body) →
      s.activities.isActive s.activityJob = false)
    (h : s.turn now ev = .some (.ok t)) : t.ActivityKept ∧ QueueTurn s ev t := by
  have frame : ∀ {u : Recorder F}, SameActivity s u → u = t → t.ActivityKept ∧ QueueTurn s ev t := by
    rintro u hu rfl
    exact hu.keeps.turn hs ev
  cases ev with
  | install mediaId rate writeRevision resetEpoch => cases h; exact (keeps_install s now mediaId rate writeRevision resetEpoch).turn hs _
  | updateEpisodeRate rate => cases h; exact frame (u := s.updateEpisodeRate rate) ⟨rfl, rfl, rfl, rfl, rfl, rfl, le_rfl⟩ rfl
  | onPlayingChanged playing => cases h; exact (keeps_onPlayingChanged s now playing).turn hs _
  | beforeManualDiscontinuity => cases h; exact (keeps_beforeManualDiscontinuity s now).turn hs _
  | afterManualDiscontinuity => cases h; exact (keeps_afterManualDiscontinuity s now).turn hs _
  | flush => cases h; exact (keeps_flush s now).turn hs _
  | captureNaturalEnd => exact (keeps_captureNaturalEnd (Option.some.inj h)).turn hs _
  | drain => exact (keeps_drain (Option.some.inj h)).turn hs _
  | adoptListeningState state => cases h; exact (keeps_adoptListeningState s now state).turn hs _
  | retryPersistence => cases h; exact frame (same_retryPersistence s) rfl
  | networkValidated =>
    cases h
    unfold networkValidated
    split
    · exact (same_retryPersistence s).keeps.turn hs _
    · exact SameActivity.rfl.keeps.turn hs _
  | discardPending => cases h; exact ⟨kept_discardPending hs, .discarded⟩
  | dismiss => cases h; exact (keeps_dismiss s now).turn hs _
  | cadenceTick job =>
    obtain ⟨point, -, h⟩ := Option.map_eq_some_iff.1 h
    cases h
    exact (keeps_cadenceTick s now job point).turn hs _
  | drainDeadline job =>
    obtain ⟨point, -, h⟩ := Option.map_eq_some_iff.1 h
    cases h
    exact frame (same_drainDeadline s job) rfl
  | heartbeatAnswered job answer =>
    obtain ⟨request, -, h⟩ := Option.map_eq_some_iff.1 h
    exact frame (keeps_heartbeatAnswered h) rfl
  | recoverDelayed job =>
    simp only [turn] at h
    split at h
    · split at h
      · cases h
      · cases h
        exact frame (same_recoverDelayed s job _) rfl
    · cases h
  | recoverAnswered job answer =>
    simp only [turn] at h
    split at h
    · split at h
      · exact (keeps_recoverAnswered (Option.some.inj h)).turn hs _
      · cases h
    · cases h
  | activityAnswered job answer =>
    simp only [turn] at h
    split at h
    · rename_i frozen hr
      obtain ⟨ht, hown⟩ := activityAnswered_ok hs hr (Option.some.inj h)
      exact ⟨ht, .answered hr hown⟩
    · cases h
  | activityRetried job =>
    simp only [turn] at h
    split at h
    · rename_i hr
      cases h
      exact (keeps_activityRetried hr).turn hs _
    · cases h
  | activityCancelled job =>
    obtain ⟨u, hu, h⟩ := Option.map_eq_some_iff.1 h
    cases h
    exact (keeps_activityCancelled (hg job rfl) hu).turn hs _
  | cadenceCancelled job | drainDeadlineCancelled job | heartbeatCancelled job | recoverCancelled job =>
    obtain ⟨u, hu, h⟩ := Option.map_eq_some_iff.1 h
    cases h
    obtain ⟨point, -, hu⟩ := Option.map_eq_some_iff.1 hu
    refine frame ?_ hu
    exact ⟨rfl, rfl, rfl, rfl, rfl, rfl, le_rfl⟩

theorem turn_error {s : Recorder F} {now : Reading} {ev : RecorderEvent F} {f : RecorderFailure} (hs : s.ActivityKept)
    (h : s.turn now ev = .some (.error f)) : f ≠ .noSuchElement := by
  cases ev with
  | captureNaturalEnd => exact captureNaturalEnd_error (Option.some.inj h)
  | drain => exact drain_error (Option.some.inj h)
  | heartbeatAnswered job answer =>
    obtain ⟨request, -, h⟩ := Option.map_eq_some_iff.1 h
    exact heartbeatAnswered_error h
  | recoverAnswered job answer =>
    simp only [turn] at h
    split at h
    · split at h
      · exact recoverAnswered_error (Option.some.inj h)
      · cases h
    · cases h
  | activityAnswered job answer =>
    simp only [turn] at h
    split at h
    · rename_i frozen hr
      exact activityAnswered_error hs hr (Option.some.inj h)
    · cases h
  | recoverDelayed job =>
    simp only [turn] at h
    split at h
    · split at h <;> cases h
    · cases h
  | activityRetried job =>
    simp only [turn] at h
    split at h <;> cases h
  | cadenceTick job | drainDeadline job | activityCancelled job | cadenceCancelled job | drainDeadlineCancelled job
  | heartbeatCancelled job | recoverCancelled job =>
    obtain ⟨u, -, h⟩ := Option.map_eq_some_iff.1 h
    cases h
  | install _ _ _ _ | updateEpisodeRate _ | onPlayingChanged _ | beforeManualDiscontinuity | afterManualDiscontinuity
  | flush | adoptListeningState _ | retryPersistence | networkValidated | discardPending | dismiss => cases h

/-! ## What the queue owes -/

theorem mem_queued {s : Recorder F} (hs : s.ActivityKept) {id : Uuid} :
    id ∈ s.queued ↔ id ∈ s.admitted ∧ id ∉ s.answered := by
  have hn := hs.nodup
  rw [hs.queue] at hn ⊢
  constructor
  · exact fun h => ⟨List.mem_append_right _ h, fun ha => List.disjoint_of_nodup_append hn ha h⟩
  · rintro ⟨h, ha⟩
    exact (List.mem_append.1 h).resolve_left ha

theorem ActivityKept.lossless {s : Recorder F} (hs : s.ActivityKept) : s.Lossless := by
  refine ⟨?_, ?_, ?_⟩
  · intro id hid hq
    by_contra ha
    exact hq ((mem_queued hs).2 ⟨hid, ha⟩)
  · rw [hs.queue]
    rcases hs.posted with hp | ⟨a, rest, hq, hp⟩
    · exact hp ▸ List.prefix_append _ _
    · rw [hp, queued, hq, List.map_cons]
      exact ⟨rest.map FrozenActivity.id, by simp⟩
  · have hmarked : ∀ j, s.Posting j → s.activityJob = .some j := by
      rintro j ⟨c, body, hfind, hpoint, hmem⟩
      rcases s.activities.find_eq_some hfind with h | h
      · exact hs.marked j _ h
      · rw [hpoint] at h
        exact absurd hmem (hs.stopped j body h).2
    exact fun j k hj hk => Option.some.inj ((hmarked j hj).symm.trans (hmarked k hk))

theorem QueueTurn.removes {s t : Recorder F} {ev : RecorderEvent F} (h : QueueTurn s ev t) (hs : s.ActivityKept)
    (ht : t.ActivityKept) {id : Uuid} (hid : id ∈ s.queued) (hgone : id ∉ t.queued) :
    ev = .discardPending ∨ ∃ job body status text, ev = .activityAnswered job (.response status text) ∧
      s.activities.runs job = .some (.post body) ∧ body.clientMutationId = id ∧ settles status := by
  obtain ⟨hadm, hnot⟩ := (mem_queued hs).1 hid
  have hgone : ∀ l, s.admitted <+: t.admitted → t.answered = l → id ∈ l := by
    intro l hp hl
    by_contra hx
    exact hgone ((mem_queued ht).2 ⟨hp.subset hadm, hl ▸ hx⟩)
  cases h with
  | discarded => exact .inl rfl
  | answered hr hown =>
    obtain ⟨hp, ha | ⟨ha, status, text, rfl, hstatus⟩⟩ := hown
    · exact absurd (hgone _ hp ha) hnot
    · have := (List.mem_append.1 (hgone _ hp ha)).resolve_left hnot
      exact .inr ⟨_, _, status, text, rfl, hr, (List.mem_singleton.1 this).symm, hstatus⟩
  | kept ha hp => exact absurd (hgone _ hp ha) hnot

end Recorder

/-! ## Runs -/

/-- The recorder's queue is in order and no turn removed from an empty one. -/
structure RecorderState.QueueKept (s : RecorderState F) : Prop where
  lossless : s.recorder.Lossless
  removable : s.failure ≠ .some .noSuchElement

/-- **The activity queue is lossless and in order**, in every run in which a
request that was cancelled resumes only while no activity job runs. -/
theorem activity_lossless {s : RecorderState F} {tr : List ((Reading × RecorderEvent F) × RecorderState F)}
    (hs : (recorderSystem F).init s) (hr : (recorderSystem F).Run s tr) (hg : Along (fun s e _ => CancelledInTime s e) s tr) :
    (∀ x ∈ tr, x.2.QueueKept) ∧ Along RemovesAnswered s tr := by
  let I : RecorderState F → Prop := fun s => s.recorder.ActivityKept ∧ s.failure ≠ .some .noSuchElement
  have hstep : ∀ s e t, (recorderSystem F).step s e t → I s → CancelledInTime s e → I t ∧ RemovesAnswered s e t := by
    rintro s ⟨now, ev⟩ t hst ⟨hk, hf⟩ hg
    rw [recorderSystem, System.ofFun_step, RecorderState.next] at hst
    split at hst
    · cases hst
    · obtain ⟨res, hturn, rfl⟩ := Option.map_eq_some_iff.1 hst
      cases res with
      | ok u =>
        have hintime : ∀ job, ev = .activityCancelled job → ∀ body, s.recorder.activities.stopped job = .some (.post body) →
            s.recorder.activities.isActive s.recorder.activityJob = false := by
          rintro job rfl body hbody
          refine hg.resolve_left fun h => ?_
          rw [h] at hbody
          cases hbody
        obtain ⟨hu, hq⟩ := Recorder.turn_ok hk hintime hturn
        exact ⟨⟨hu, fun h => by cases h⟩, fun id hid hgone => hq.removes hk hu hid hgone⟩
      | error f =>
        have hne := Recorder.turn_error hk hturn
        exact ⟨⟨hk, fun h => hne (Option.some.inj h)⟩, fun id hid hgone => absurd hid hgone⟩
  have hinit : I s := by
    obtain rfl : s = ⟨.initial, .none⟩ := hs
    exact ⟨⟨fun j p h => (by cases h), fun _ h => (by cases h), List.nodup_nil, rfl, .inl rfl,
      fun j b h => (by cases h), fun j b h => (by cases h)⟩, fun h => by cases h⟩
  have hkept := System.Run.invariant_of_guarded (fun s e t hst hI hG => (hstep s e t hst hI hG).1) hr hinit hg
  exact ⟨fun x hx => ⟨(hkept x hx).1.lossless, (hkept x hx).2⟩, System.Run.along_of_guarded hstep hr hinit hg⟩

/-- A turn `ms` after the recorder started. -/
def after (ms : Int) (ev : RecorderEvent Unit) : Reading × RecorderEvent Unit :=
  (⟨ms, ms, ⟨ms, .none⟩⟩, ev)

/-- One account's batch is in flight when the account is switched. -/
def switchedInFlight : List (Reading × RecorderEvent Unit) :=
  [after 0 (.install 7 .none 0 0), after 0 (.onPlayingChanged true), after 10 (.onPlayingChanged false), after 20 .discardPending]

def nextAccount : List (Reading × RecorderEvent Unit) :=
  [after 30 (.install 8 .none 0 0), after 30 (.onPlayingChanged true), after 40 .flush]

theorem activity_lossless_switched :
    let tr := replay RecorderState.next ⟨.initial, .none⟩
      (switchedInFlight ++ after 25 (.activityCancelled 0) :: nextAccount ++ [after 50 (.activityAnswered 1 (.response 204 .none))])
    ((last ⟨.initial, .none⟩ tr).recorder.answered = [5]) ∧ (∀ x ∈ tr, x.2.QueueKept) ∧ Along RemovesAnswered ⟨.initial, .none⟩ tr :=
  ⟨by decide +kernel, activity_lossless rfl System.run_replay (by decide +kernel)⟩

/-- The first account's POST resumes while the next account's runs: the second
POST of one batch answers for another, which leaves the queue unanswered. -/
theorem activity_lost : ¬ ∀ (s : RecorderState Unit) (tr : List ((Reading × RecorderEvent Unit) × RecorderState Unit)),
    (recorderSystem Unit).init s → (recorderSystem Unit).Run s tr → (∀ x ∈ tr, x.2.QueueKept) ∧ Along RemovesAnswered s tr := by
  intro h
  let answer (job : Nat) : Reading × RecorderEvent Unit := after 60 (.activityAnswered job (.response 204 .none))
  let evs := switchedInFlight ++ nextAccount ++ [after 45 (.activityCancelled 0), after 50 .flush, answer 1, answer 2]
  obtain ⟨hkept, -⟩ := h ⟨.initial, .none⟩ (replay RecorderState.next ⟨.initial, .none⟩ evs) rfl System.run_replay
  have hlost : ∀ x ∈ (replay RecorderState.next ⟨.initial, .none⟩ evs).getLast?, 6 ∈ x.2.recorder.admitted ∧
      6 ∉ x.2.recorder.queued ∧ 6 ∉ x.2.recorder.answered := by decide +kernel
  have hsome : ((replay RecorderState.next ⟨.initial, .none⟩ evs).getLast?).isSome := by decide +kernel
  obtain ⟨x, hx⟩ := Option.isSome_iff_exists.1 hsome
  obtain ⟨hadmitted, hqueued, hanswered⟩ := hlost x hx
  exact hanswered ((hkept x (List.mem_of_getLast? hx)).lossless.removed 6 hadmitted hqueued)

end Nexus.Playback
