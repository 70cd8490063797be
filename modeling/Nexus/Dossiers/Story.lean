/-
What a Dossier is: heads, their builds, how each build ended, and its log.

A build is told of by one `Started`, some `Progress` and then, if it has ended, the one
event of its terminal child, numbered on end from 1 (`Story.Ok.logs`). A step of the
engine is one of `Story.Step`. Each keeps all of this, and none changes how a build
ended or its log, but for the name of an actor (`Story.Step.keeps`).
-/
import Mathlib.Logic.Function.Basic
import Mathlib.Logic.Relation
import Nexus.Dossiers.Engine

namespace Nexus.Dossiers
open Streams

variable {S : Type}

/-! ## Stories -/

@[ext] structure Story (S : Type) where
  heads : List Head
  builds : List Build
  ending : Uuid → List (EventBody S)
  rows : Uuid → List (EventRow (EventBody S))

/-- The log of a build. -/
def bodies (b : Build) (progresses : List (Text × Text)) (ending : List (EventBody S)) : List (EventBody S) :=
  .started b.id b.artifactId :: (progresses.map fun p => .progress p.1 p.2) ++ ending

def logRows (log : List (EventBody S)) : List (EventRow (EventBody S)) := numberedFrom 1 (log.map EventBody.event)

structure Story.Ok (s : Story S) : Prop where
  headKeys : ∀ h ∈ s.heads, ∀ h' ∈ s.heads, h.subject = h'.subject → h.audience = h'.audience → h.id = h'.id
  headIds : ∀ h ∈ s.heads, ∀ h' ∈ s.heads, h.id = h'.id → h = h'
  buildHeads : ∀ b ∈ s.builds, ∃ h ∈ s.heads, h.id = b.artifactId
  buildIds : ∀ b ∈ s.builds, ∀ b' ∈ s.builds, b.id = b'.id → b = b'
  keys : ∀ b ∈ s.builds, ∀ b' ∈ s.builds, b.artifactId = b'.artifactId → b.idempotencyKey = b'.idempotencyKey → b = b'
  oneActive : ∀ b ∈ s.builds, ∀ b' ∈ s.builds, b.artifactId = b'.artifactId → s.ending b.id = [] → s.ending b'.id = [] → b = b'
  oneEnding : ∀ b ∈ s.builds, (s.ending b.id).length ≤ 1
  logs : ∀ b ∈ s.builds, ∃ progresses, s.rows b.id = logRows (bodies b progresses (s.ending b.id))
  known : ∀ id, (∀ b ∈ s.builds, b.id ≠ id) → s.ending id = [] ∧ s.rows id = []
  current : ∀ h ∈ s.heads, ∀ r, h.currentRevisionId = .some r → ∃ b ∈ s.builds, b.artifactId = h.id ∧ s.ending b.id = [.succeeded r]

namespace Story

variable (s : Story S)

def tell (id : Uuid) (body : EventBody S) : Story S :=
  { s with rows := Function.update s.rows id (s.rows id ++ [⟨nextSeq (s.rows id), body.event⟩]) }

def finish (id : Uuid) (body : EventBody S) : Story S := { s.tell id body with ending := Function.update s.ending id [body] }

def point (headId r : Uuid) : Story S :=
  { s with heads := s.heads.map fun h => if h.id == headId then { h with currentRevisionId := .some r } else h }

/-- The builds that go with some heads. -/
def gone (p : Uuid → Bool) (id : Uuid) : Bool := s.builds.any fun b => b.id == id && p b.artifactId

def remove (p : Uuid → Bool) : Story S where
  heads := s.heads.filter fun h => !p h.id
  builds := s.builds.filter fun b => !p b.artifactId
  ending id := if s.gone p id then [] else s.ending id
  rows id := if s.gone p id then [] else s.rows id

/-- A row without the name of an actor. -/
def unnamed (row : EventRow (EventBody S)) : EventRow (EventBody S) :=
  { row with event := (DossierDb.withoutActor row.event.payload).event }

/-- Names are taken out of some builds. -/
def redact (f : Build → Build) (named : Uuid → Bool) : Story S where
  heads := s.heads
  builds := s.builds.map f
  ending id := if named id then (s.ending id).map DossierDb.withoutActor else s.ending id
  rows id := if named id then (s.rows id).map unnamed else s.rows id

end Story

/-- What the engine does, where it hands out the ids `new` to builds. -/
inductive Story.Step (new : Uuid → Prop) : Story S → Story S → Prop
  | head {s} (h : Head) (hid : ∀ h' ∈ s.heads, h'.id ≠ h.id) (hkey : ∀ h' ∈ s.heads, ¬(h'.subject = h.subject ∧ h'.audience = h.audience))
      (hcurrent : h.currentRevisionId = .none) : Story.Step new s { s with heads := h :: s.heads }
  | build {s} (b : Build) (hnew : new b.id) (hhead : ∃ h ∈ s.heads, h.id = b.artifactId) (hid : ∀ b' ∈ s.builds, b'.id ≠ b.id)
      (hkey : ∀ b' ∈ s.builds, b'.artifactId = b.artifactId → b'.idempotencyKey ≠ b.idempotencyKey)
      (hactive : ∀ b' ∈ s.builds, b'.artifactId = b.artifactId → s.ending b'.id ≠ []) :
      Story.Step new s ({ s with builds := b :: s.builds }.tell b.id (.started b.id b.artifactId))
  | progress {s} (b : Build) (hb : b ∈ s.builds) (hactive : s.ending b.id = []) (phase message : Text) :
      Story.Step new s (s.tell b.id (.progress phase message))
  | finish {s} (b : Build) (hb : b ∈ s.builds) (hactive : s.ending b.id = []) (body : EventBody S) : Story.Step new s (s.finish b.id body)
  | point {s} (b : Build) (hb : b ∈ s.builds) (r : Uuid) (hended : s.ending b.id = [.succeeded r]) : Story.Step new s (s.point b.artifactId r)
  | remove {s} (p : Uuid → Bool) : Story.Step new s (s.remove p)
  | redact {s} (f : Build → Build) (hf : ∀ b, (f b).id = b.id ∧ (f b).artifactId = b.artifactId ∧ (f b).idempotencyKey = b.idempotencyKey)
      (named : Uuid → Bool) : Story.Step new s (s.redact f named)

/-! ## Logs -/

section Logs

variable {b : Build} {progresses : List (Text × Text)} {ending log : List (EventBody S)} {body : EventBody S}

theorem nextSeq_logRows (log : List (EventBody S)) : nextSeq (logRows log) = log.length + 1 := by
  rw [logRows, nextSeq_numberedFrom, List.length_map]

theorem logRows_append (log : List (EventBody S)) (body : EventBody S) :
    logRows log ++ [⟨nextSeq (logRows log), body.event⟩] = logRows (log ++ [body]) := by
  rw [nextSeq_logRows, logRows, logRows, List.map_append, numberedFrom_append, List.length_map, Nat.add_comm 1]
  rfl

theorem bodies_append (body : EventBody S) : bodies b progresses [] ++ [body] = bodies b progresses [body] := by
  simp [bodies]

theorem bodies_progress (phase message : Text) :
    bodies b progresses ([] : List (EventBody S)) ++ [.progress phase message] = bodies b (progresses ++ [(phase, message)]) [] := by
  simp [bodies]

theorem map_unnamed_logRows (log : List (EventBody S)) : (logRows log).map Story.unnamed = logRows (log.map DossierDb.withoutActor) := by
  have h (n : Nat) : (numberedFrom n (log.map EventBody.event)).map Story.unnamed =
      numberedFrom n ((log.map DossierDb.withoutActor).map EventBody.event) := by
    induction log generalizing n with
    | nil => rfl
    | cons body log ih => simp [numberedFrom, ih, Story.unnamed, EventBody.event]
  exact h 1

theorem bodies_withoutActor : (bodies b progresses ending).map DossierDb.withoutActor =
    bodies b progresses (ending.map DossierDb.withoutActor) := by
  simp [bodies, DossierDb.withoutActor, Function.comp_def]

@[simp] theorem withoutActor_withoutActor (body : EventBody S) :
    DossierDb.withoutActor (DossierDb.withoutActor body) = DossierDb.withoutActor body := by
  cases body <;> rfl

@[simp] theorem unnamed_unnamed (row : EventRow (EventBody S)) : Story.unnamed (Story.unnamed row) = Story.unnamed row := by
  simp [Story.unnamed, EventBody.event]

end Logs

/-! ## What every step keeps -/

namespace Story

variable {s t : Story S} {new : Uuid → Prop} {b : Build} {id r : Uuid} {body : EventBody S}

@[simp] theorem tell_rows_self : (s.tell id body).rows id = s.rows id ++ [⟨nextSeq (s.rows id), body.event⟩] := Function.update_self ..

theorem tell_rows_ne {id' : Uuid} (h : id' ≠ id) : (s.tell id body).rows id' = s.rows id' := Function.update_of_ne h ..

@[simp] theorem finish_ending_self : (s.finish id body).ending id = [body] := Function.update_self ..

theorem finish_ending_ne {id' : Uuid} (h : id' ≠ id) : (s.finish id body).ending id' = s.ending id' := Function.update_of_ne h ..

theorem gone_eq_true {p : Uuid → Bool} : s.gone p id = true ↔ ∃ b ∈ s.builds, b.id = id ∧ p b.artifactId = true := by
  simp [gone, List.any_eq_true]

theorem Ok.gone_of_mem (h : s.Ok) (hb : b ∈ s.builds) {p : Uuid → Bool} (hp : p b.artifactId = false) : s.gone p b.id = false := by
  refine Bool.eq_false_iff.2 fun hgone => ?_
  obtain ⟨b', hb', hid, hp'⟩ := gone_eq_true.1 hgone
  obtain rfl := h.buildIds b' hb' b hb hid
  exact absurd (hp'.symm.trans hp) (by decide)

theorem Ok.head (h : s.Ok) {hd : Head} (hid : ∀ h' ∈ s.heads, h'.id ≠ hd.id)
    (hkey : ∀ h' ∈ s.heads, ¬(h'.subject = hd.subject ∧ h'.audience = hd.audience)) (hcurrent : hd.currentRevisionId = .none) :
    Ok { s with heads := hd :: s.heads } := by
  refine { h with headKeys := ?_, headIds := ?_, buildHeads := ?_, current := ?_ }
  · intro h₁ hm₁ h₂ hm₂ hs ha
    rcases List.mem_cons.1 hm₁ with rfl | k₁ <;> rcases List.mem_cons.1 hm₂ with rfl | k₂
    · rfl
    · exact absurd ⟨hs.symm, ha.symm⟩ (hkey _ k₂)
    · exact absurd ⟨hs, ha⟩ (hkey _ k₁)
    · exact h.headKeys _ k₁ _ k₂ hs ha
  · intro h₁ hm₁ h₂ hm₂ heq
    rcases List.mem_cons.1 hm₁ with rfl | k₁ <;> rcases List.mem_cons.1 hm₂ with rfl | k₂
    · rfl
    · exact absurd heq.symm (hid _ k₂)
    · exact absurd heq (hid _ k₁)
    · exact h.headIds _ k₁ _ k₂ heq
  · intro b hb
    obtain ⟨h', hm, hid'⟩ := h.buildHeads b hb
    exact ⟨h', List.mem_cons_of_mem _ hm, hid'⟩
  · intro h' hm r hr
    rcases List.mem_cons.1 hm with rfl | hm
    · rw [hcurrent] at hr
      cases hr
    · exact h.current h' hm r hr

theorem Ok.build (h : s.Ok) (hhead : ∃ h ∈ s.heads, h.id = b.artifactId) (hid : ∀ b' ∈ s.builds, b'.id ≠ b.id)
    (hkey : ∀ b' ∈ s.builds, b'.artifactId = b.artifactId → b'.idempotencyKey ≠ b.idempotencyKey)
    (hactive : ∀ b' ∈ s.builds, b'.artifactId = b.artifactId → s.ending b'.id ≠ []) :
    Ok ({ s with builds := b :: s.builds }.tell b.id (.started b.id b.artifactId)) := by
  obtain ⟨hnone, hempty⟩ := h.known b.id hid
  refine { headKeys := h.headKeys, headIds := h.headIds, buildHeads := ?_, buildIds := ?_, keys := ?_, oneActive := ?_, oneEnding := ?_,
           logs := ?_, known := ?_, current := ?_ }
  · intro b' hb'
    rcases List.mem_cons.1 hb' with rfl | hb'
    · exact hhead
    · exact h.buildHeads b' hb'
  · intro b₁ hb₁ b₂ hb₂ heq
    rcases List.mem_cons.1 hb₁ with rfl | k₁ <;> rcases List.mem_cons.1 hb₂ with rfl | k₂
    · rfl
    · exact absurd heq.symm (hid _ k₂)
    · exact absurd heq (hid _ k₁)
    · exact h.buildIds _ k₁ _ k₂ heq
  · intro b₁ hb₁ b₂ hb₂ ha hk
    rcases List.mem_cons.1 hb₁ with rfl | k₁ <;> rcases List.mem_cons.1 hb₂ with rfl | k₂
    · rfl
    · exact absurd hk.symm (hkey _ k₂ ha.symm)
    · exact absurd hk (hkey _ k₁ ha)
    · exact h.keys _ k₁ _ k₂ ha hk
  · intro b₁ hb₁ b₂ hb₂ ha he₁ he₂
    rcases List.mem_cons.1 hb₁ with rfl | k₁ <;> rcases List.mem_cons.1 hb₂ with rfl | k₂
    · rfl
    · exact absurd he₂ (hactive _ k₂ ha.symm)
    · exact absurd he₁ (hactive _ k₁ ha)
    · exact h.oneActive _ k₁ _ k₂ ha he₁ he₂
  · intro b' hb'
    rcases List.mem_cons.1 hb' with rfl | hb'
    · show (s.ending b'.id).length ≤ 1
      rw [hnone]
      exact Nat.zero_le 1
    · exact h.oneEnding b' hb'
  · intro b' hb'
    rcases List.mem_cons.1 hb' with rfl | hb'
    · refine ⟨[], ?_⟩
      show (tell _ b'.id _).rows b'.id = logRows (bodies b' [] (s.ending b'.id))
      rw [tell_rows_self]
      show s.rows b'.id ++ [⟨nextSeq (s.rows b'.id), _⟩] = _
      rw [hempty, hnone]
      rfl
    · rw [tell_rows_ne (hid b' hb')]
      exact h.logs b' hb'
  · intro id hfresh
    have hne : id ≠ b.id := fun heq => hfresh b List.mem_cons_self heq.symm
    rw [tell_rows_ne hne]
    exact h.known id fun b' hb' => hfresh b' (List.mem_cons_of_mem _ hb')
  · intro h' hm r hr
    obtain ⟨b', hb', ha, he⟩ := h.current h' hm r hr
    exact ⟨b', List.mem_cons_of_mem _ hb', ha, he⟩

theorem Ok.progress (h : s.Ok) (hb : b ∈ s.builds) (hactive : s.ending b.id = []) (phase message : Text) :
    (s.tell b.id (.progress phase message)).Ok := by
  refine { h with logs := fun b' hb' => ?_, known := fun id hfresh => ?_ }
  · by_cases heq : b'.id = b.id
    · obtain rfl := h.buildIds b' hb' b hb heq
      obtain ⟨progresses, hrows⟩ := h.logs b' hb'
      refine ⟨progresses ++ [(phase, message)], ?_⟩
      rw [hactive] at hrows
      rw [tell_rows_self, hrows, logRows_append, bodies_progress]
      show _ = logRows (bodies b' _ (s.ending b'.id))
      rw [hactive]
    · rw [tell_rows_ne heq]
      exact h.logs b' hb'
  · rw [tell_rows_ne fun heq => hfresh b hb heq.symm]
    exact h.known id hfresh

theorem Ok.finish (h : s.Ok) (hb : b ∈ s.builds) (hactive : s.ending b.id = []) (body : EventBody S) : (s.finish b.id body).Ok := by
  have hending {b' : Build} (hended : s.ending b'.id ≠ []) : (s.finish b.id body).ending b'.id = s.ending b'.id :=
    finish_ending_ne fun heq => hended (by rw [heq, hactive])
  refine { h with oneActive := ?_, oneEnding := ?_, logs := ?_, known := ?_, current := ?_ }
  · intro b₁ hb₁ b₂ hb₂ ha he₁ he₂
    have hold {b' : Build} (he : (s.finish b.id body).ending b'.id = []) : s.ending b'.id = [] :=
      by_contra fun hne => hne (by rw [← hending hne, he])
    exact h.oneActive _ hb₁ _ hb₂ ha (hold he₁) (hold he₂)
  · intro b' hb'
    by_cases heq : b'.id = b.id
    · rw [heq, finish_ending_self]
      exact Nat.le_refl 1
    · rw [finish_ending_ne heq]
      exact h.oneEnding b' hb'
  · intro b' hb'
    by_cases heq : b'.id = b.id
    · obtain rfl := h.buildIds b' hb' b hb heq
      obtain ⟨progresses, hrows⟩ := h.logs b' hb'
      refine ⟨progresses, ?_⟩
      rw [hactive] at hrows
      show (s.tell b'.id body).rows b'.id = _
      rw [tell_rows_self, hrows, logRows_append, bodies_append, finish_ending_self]
    · rw [finish_ending_ne heq]
      show ∃ progresses, (s.tell b.id body).rows b'.id = _
      rw [tell_rows_ne heq]
      exact h.logs b' hb'
  · intro id hfresh
    have hne : id ≠ b.id := fun heq => hfresh b hb heq.symm
    rw [finish_ending_ne hne]
    show s.ending id = [] ∧ (s.tell b.id body).rows id = []
    rw [tell_rows_ne hne]
    exact h.known id hfresh
  · intro h' hm r hr
    obtain ⟨b', hb', ha, he⟩ := h.current h' hm r hr
    exact ⟨b', hb', ha, by rw [hending (by rw [he]; simp), he]⟩

theorem mem_point {headId : Uuid} {h : Head} (hm : h ∈ (s.point headId r).heads) : ∃ h₀ ∈ s.heads, h.id = h₀.id ∧
    h.subject = h₀.subject ∧ h.audience = h₀.audience ∧
      h = (if h₀.id == headId then { h₀ with currentRevisionId := .some r } else h₀) := by
  obtain ⟨h₀, hm₀, rfl⟩ := List.mem_map.1 hm
  refine ⟨h₀, hm₀, ?_⟩
  split <;> exact ⟨rfl, rfl, rfl, rfl⟩

theorem Ok.point (h : s.Ok) (hb : b ∈ s.builds) (hended : s.ending b.id = [.succeeded r]) : (s.point b.artifactId r).Ok := by
  refine { h with headKeys := ?_, headIds := ?_, buildHeads := ?_, current := ?_ }
  · intro h₁ hm₁ h₂ hm₂ hs ha
    obtain ⟨k₁, hk₁, hid₁, hs₁, ha₁, -⟩ := mem_point hm₁
    obtain ⟨k₂, hk₂, hid₂, hs₂, ha₂, -⟩ := mem_point hm₂
    rw [hid₁, hid₂]
    exact h.headKeys k₁ hk₁ k₂ hk₂ (by rw [← hs₁, ← hs₂, hs]) (by rw [← ha₁, ← ha₂, ha])
  · intro h₁ hm₁ h₂ hm₂ heq
    obtain ⟨k₁, hk₁, hid₁, -, -, heq₁⟩ := mem_point hm₁
    obtain ⟨k₂, hk₂, hid₂, -, -, heq₂⟩ := mem_point hm₂
    obtain rfl := h.headIds k₁ hk₁ k₂ hk₂ (by rw [← hid₁, ← hid₂, heq])
    rw [heq₁, heq₂]
  · intro b' hb'
    obtain ⟨h', hm, hid⟩ := h.buildHeads b' hb'
    refine ⟨_, List.mem_map_of_mem hm, ?_⟩
    split <;> exact hid
  · intro h' hm r' hr'
    obtain ⟨h₀, hm₀, hid, -, -, heq⟩ := mem_point hm
    split at heq
    next hpoint =>
      rw [heq] at hr'
      obtain rfl := Option.some.inj hr'
      exact ⟨b, hb, by rw [hid, eq_of_beq hpoint], hended⟩
    next =>
      rw [heq] at hr'
      obtain ⟨b', hb', ha, he⟩ := h.current h₀ hm₀ r' hr'
      exact ⟨b', hb', by rw [hid, ha], he⟩

theorem mem_remove_builds {p : Uuid → Bool} : b ∈ (s.remove p).builds ↔ b ∈ s.builds ∧ p b.artifactId = false := by
  simp [Story.remove, List.mem_filter]

theorem mem_remove_heads {p : Uuid → Bool} {h : Head} : h ∈ (s.remove p).heads ↔ h ∈ s.heads ∧ p h.id = false := by
  simp [Story.remove, List.mem_filter]

theorem Ok.remove_ending (h : s.Ok) {p : Uuid → Bool} (hb : b ∈ (s.remove p).builds) :
    (s.remove p).ending b.id = s.ending b.id ∧ (s.remove p).rows b.id = s.rows b.id := by
  obtain ⟨hb, hp⟩ := mem_remove_builds.1 hb
  have hgone := h.gone_of_mem hb hp
  constructor
  · show (if s.gone p b.id then [] else s.ending b.id) = _
    rw [hgone]
    rfl
  · show (if s.gone p b.id then [] else s.rows b.id) = _
    rw [hgone]
    rfl

theorem Ok.remove (h : s.Ok) (p : Uuid → Bool) : (s.remove p).Ok := by
  have hbuild {b : Build} (hb : b ∈ (s.remove p).builds) : b ∈ s.builds := (mem_remove_builds.1 hb).1
  have hhead {hd : Head} (hm : hd ∈ (s.remove p).heads) : hd ∈ s.heads := (mem_remove_heads.1 hm).1
  refine { headKeys := fun h₁ hm₁ h₂ hm₂ => h.headKeys h₁ (hhead hm₁) h₂ (hhead hm₂)
           headIds := fun h₁ hm₁ h₂ hm₂ => h.headIds h₁ (hhead hm₁) h₂ (hhead hm₂)
           buildHeads := fun b hb => ?_
           buildIds := fun b₁ hb₁ b₂ hb₂ => h.buildIds b₁ (hbuild hb₁) b₂ (hbuild hb₂)
           keys := fun b₁ hb₁ b₂ hb₂ => h.keys b₁ (hbuild hb₁) b₂ (hbuild hb₂)
           oneActive := fun b₁ hb₁ b₂ hb₂ ha he₁ he₂ => ?_
           oneEnding := fun b hb => ?_
           logs := fun b hb => ?_
           known := fun id hfresh => ?_
           current := fun h' hm r hr => ?_ }
  · obtain ⟨hb, hp⟩ := mem_remove_builds.1 hb
    obtain ⟨hd, hm, hid⟩ := h.buildHeads b hb
    exact ⟨hd, mem_remove_heads.2 ⟨hm, by rw [hid, hp]⟩, hid⟩
  · rw [(h.remove_ending hb₁).1] at he₁
    rw [(h.remove_ending hb₂).1] at he₂
    exact h.oneActive b₁ (hbuild hb₁) b₂ (hbuild hb₂) ha he₁ he₂
  · rw [(h.remove_ending hb).1]
    exact h.oneEnding b (hbuild hb)
  · rw [(h.remove_ending hb).1, (h.remove_ending hb).2]
    exact h.logs b (hbuild hb)
  · show (if s.gone p id then [] else s.ending id) = [] ∧ (if s.gone p id then [] else s.rows id) = []
    split
    next => exact ⟨rfl, rfl⟩
    next hgone =>
      refine h.known id fun b hb hid => ?_
      have hp : p b.artifactId = false := Bool.eq_false_iff.2 fun hp => hgone (gone_eq_true.2 ⟨b, hb, hid, hp⟩)
      exact hfresh b (mem_remove_builds.2 ⟨hb, hp⟩) hid
  · obtain ⟨hm, hp⟩ := mem_remove_heads.1 hm
    obtain ⟨b, hb, ha, he⟩ := h.current h' hm r hr
    have hb' : b ∈ (s.remove p).builds := mem_remove_builds.2 ⟨hb, by rw [ha, hp]⟩
    exact ⟨b, hb', ha, by rw [(h.remove_ending hb').1, he]⟩

theorem redact_ending (f : Build → Build) (named : Uuid → Bool) (id : Uuid) : (s.redact f named).ending id = s.ending id ∨
    (s.redact f named).ending id = (s.ending id).map DossierDb.withoutActor := by
  show (if named id then _ else _) = _ ∨ (if named id then _ else _) = _
  split
  · exact .inr rfl
  · exact .inl rfl

theorem redact_ending_nil (f : Build → Build) (named : Uuid → Bool) {id : Uuid} : (s.redact f named).ending id = [] ↔ s.ending id = [] := by
  rcases redact_ending (s := s) f named id with heq | heq <;> rw [heq]
  exact List.map_eq_nil_iff

theorem Ok.redact (h : s.Ok) {f : Build → Build}
    (hf : ∀ b, (f b).id = b.id ∧ (f b).artifactId = b.artifactId ∧ (f b).idempotencyKey = b.idempotencyKey) (named : Uuid → Bool) :
    (s.redact f named).Ok := by
  have hmem {b : Build} (hb : b ∈ (s.redact f named).builds) : ∃ b₀ ∈ s.builds, b = f b₀ := by
    obtain ⟨b₀, hb₀, rfl⟩ := List.mem_map.1 hb
    exact ⟨b₀, hb₀, rfl⟩
  refine { h with buildHeads := ?_, buildIds := ?_, keys := ?_, oneActive := ?_, oneEnding := ?_, logs := ?_, known := ?_, current := ?_ }
  · intro b hb
    obtain ⟨b₀, hb₀, rfl⟩ := hmem hb
    rw [(hf b₀).2.1]
    exact h.buildHeads b₀ hb₀
  · intro b₁ hb₁ b₂ hb₂ heq
    obtain ⟨c₁, hc₁, rfl⟩ := hmem hb₁
    obtain ⟨c₂, hc₂, rfl⟩ := hmem hb₂
    rw [(hf c₁).1, (hf c₂).1] at heq
    rw [h.buildIds c₁ hc₁ c₂ hc₂ heq]
  · intro b₁ hb₁ b₂ hb₂ ha hk
    obtain ⟨c₁, hc₁, rfl⟩ := hmem hb₁
    obtain ⟨c₂, hc₂, rfl⟩ := hmem hb₂
    rw [(hf c₁).2.1, (hf c₂).2.1] at ha
    rw [(hf c₁).2.2, (hf c₂).2.2] at hk
    rw [h.keys c₁ hc₁ c₂ hc₂ ha hk]
  · intro b₁ hb₁ b₂ hb₂ ha he₁ he₂
    obtain ⟨c₁, hc₁, rfl⟩ := hmem hb₁
    obtain ⟨c₂, hc₂, rfl⟩ := hmem hb₂
    rw [(hf c₁).2.1, (hf c₂).2.1] at ha
    rw [(hf c₁).1] at he₁
    rw [(hf c₂).1] at he₂
    rw [h.oneActive c₁ hc₁ c₂ hc₂ ha ((redact_ending_nil f named).1 he₁) ((redact_ending_nil f named).1 he₂)]
  · intro b hb
    obtain ⟨b₀, hb₀, rfl⟩ := hmem hb
    rw [(hf b₀).1]
    rcases redact_ending (s := s) f named b₀.id with heq | heq <;> rw [heq]
    · exact h.oneEnding b₀ hb₀
    · rw [List.length_map]
      exact h.oneEnding b₀ hb₀
  · intro b hb
    obtain ⟨b₀, hb₀, rfl⟩ := hmem hb
    obtain ⟨progresses, hrows⟩ := h.logs b₀ hb₀
    refine ⟨progresses, ?_⟩
    have hbodies (ending : List (EventBody S)) : bodies (f b₀) progresses ending = bodies b₀ progresses ending := by
      simp only [bodies, (hf b₀).1, (hf b₀).2.1]
    rw [hbodies, (hf b₀).1]
    show (if named b₀.id then _ else _) = logRows (bodies b₀ progresses (if named b₀.id then _ else _))
    split
    · rw [hrows, map_unnamed_logRows, bodies_withoutActor]
    · exact hrows
  · intro id hfresh
    obtain ⟨he, hr⟩ := h.known id fun b hb hid => hfresh (f b) (List.mem_map_of_mem hb) ((hf b).1.trans hid)
    show (if named id then _ else _) = _ ∧ (if named id then _ else _) = _
    simp [he, hr]
  · intro h' hm r hr
    obtain ⟨b, hb, ha, he⟩ := h.current h' hm r hr
    refine ⟨f b, List.mem_map_of_mem hb, (hf b).2.1.trans ha, ?_⟩
    rw [(hf b).1]
    rcases redact_ending (s := s) f named b.id with heq | heq <;> rw [heq, he]
    rfl

/-- **Every step keeps a Dossier in order.** -/
theorem Ok.step (h : s.Ok) (hstep : Step new s t) : t.Ok := by
  cases hstep with
  | head hd hid hkey hcurrent => exact h.head hid hkey hcurrent
  | build b hnew hhead hid hkey hactive => exact h.build hhead hid hkey hactive
  | progress b hb hactive phase message => exact h.progress hb hactive phase message
  | finish b hb hactive body => exact h.finish hb hactive body
  | point b hb r hended => exact h.point hb hended
  | remove p => exact h.remove p
  | redact f hf named => exact h.redact hf named

theorem Ok.steps (h : s.Ok) (hsteps : Relation.ReflTransGen (Step new) s t) : t.Ok := by
  induction hsteps with
  | refl => exact h
  | tail _ hstep ih => exact ih.step hstep

/-! ## What an ended build keeps -/

def Present (s : Story S) (id : Uuid) : Prop := ∃ b ∈ s.builds, b.id = id

/-- A build that is gone stays so, and one that has ended is gone or as it was, but for
the name of an actor. -/
structure Keeps (id : Uuid) (s t : Story S) : Prop where
  present : t.Present id → s.Present id
  ended : s.ending id ≠ [] → t.Present id → (t.ending id).map DossierDb.withoutActor = (s.ending id).map DossierDb.withoutActor ∧
    (t.rows id).map unnamed = (s.rows id).map unnamed

theorem Keeps.refl (id : Uuid) (s : Story S) : Keeps id s s := ⟨fun h => h, fun _ _ => ⟨rfl, rfl⟩⟩

theorem Keeps.trans {u : Story S} (h : Keeps id s t) (h' : Keeps id t u) : Keeps id s u where
  present hu := h.present (h'.present hu)
  ended hended hu := by
    obtain ⟨he, hr⟩ := h.ended hended (h'.present hu)
    have hended' : t.ending id ≠ [] := fun hnil => hended (by rw [hnil] at he; simpa using he.symm)
    obtain ⟨he', hr'⟩ := h'.ended hended' hu
    exact ⟨he'.trans he, hr'.trans hr⟩

/-- A step that leaves the builds and what has ended. -/
theorem Keeps.of_eq (hbuilds : ∀ b ∈ t.builds, ∃ b₀ ∈ s.builds, b₀.id = b.id)
    (h : s.ending id ≠ [] → t.ending id = s.ending id ∧ t.rows id = s.rows id) : Keeps id s t where
  present := fun ⟨b, hb, hid⟩ => by
    obtain ⟨b₀, hb₀, hid₀⟩ := hbuilds b hb
    exact ⟨b₀, hb₀, hid₀.trans hid⟩
  ended hended _ := by
    obtain ⟨he, hr⟩ := h hended
    rw [he, hr]
    exact ⟨rfl, rfl⟩

/-- **No step changes a build that has ended.** -/
theorem Step.keeps (hok : s.Ok) (hstep : Step new s t) (hnew : ¬ new id) : Keeps id s t := by
  cases hstep with
  | head hd hid hkey hcurrent => exact .of_eq (fun b hb => ⟨b, hb, rfl⟩) fun _ => ⟨rfl, rfl⟩
  | build b hb hhead hid hkey hactive =>
    have hne : id ≠ b.id := fun heq => hnew (heq ▸ hb)
    refine ⟨?_, fun _ _ => ?_⟩
    · rintro ⟨b', hb', rfl⟩
      rcases List.mem_cons.1 hb' with rfl | hb'
      · exact absurd rfl hne
      · exact ⟨b', hb', rfl⟩
    · rw [tell_rows_ne hne]
      exact ⟨rfl, rfl⟩
  | progress b hb hactive phase message =>
    refine .of_eq (fun b hb => ⟨b, hb, rfl⟩) fun hended => ⟨rfl, tell_rows_ne fun heq => hended ?_⟩
    rw [heq, hactive]
  | finish b hb hactive body =>
    refine .of_eq (fun b hb => ⟨b, hb, rfl⟩) fun hended => ?_
    have hne : id ≠ b.id := fun heq => hended (by rw [heq, hactive])
    exact ⟨finish_ending_ne hne, tell_rows_ne hne⟩
  | point b hb r hended => exact .of_eq (fun b hb => ⟨b, hb, rfl⟩) fun _ => ⟨rfl, rfl⟩
  | remove p =>
    refine ⟨fun ⟨b, hb, hid⟩ => ⟨b, (mem_remove_builds.1 hb).1, hid⟩, fun _ ⟨b, hb, hid⟩ => ?_⟩
    obtain ⟨he, hr⟩ := hok.remove_ending hb
    rw [← hid, he, hr]
    exact ⟨rfl, rfl⟩
  | redact f hf named =>
    refine ⟨fun ⟨b, hb, hid⟩ => ?_, fun _ _ => ?_⟩
    · obtain ⟨b₀, hb₀, rfl⟩ := List.mem_map.1 hb
      exact ⟨b₀, hb₀, (hf b₀).1.symm.trans hid⟩
    · show (if named id then (s.ending id).map DossierDb.withoutActor else s.ending id).map _ = _ ∧
        (if named id then (s.rows id).map unnamed else s.rows id).map _ = _
      split <;> simp [Function.comp_def]

end Story

end Nexus.Dossiers
