/-
`_read_head_snapshot`: what a reader is told of a head, and the replay of a command.

The builds are read newest first in one loop that keeps the first build under way and the
first that failed or was cancelled, unless a success came before it.
-/
import Nexus.Dossiers.Lifecycle

namespace Nexus.Dossiers
open ExceptFacts Relational Jobs Streams

variable {D S P : Type}

namespace DossierDb

/-! ## The read -/

/-- `DossierUnsuccessfulBuildView`, its outcome and what it says of it. -/
inductive Unsuccessful (S : Type)
  | failed (facts : FailureFacts S)
  | cancelled (actorUserId : Option Uuid)
  deriving DecidableEq

/-- `DossierHeadView`, with the loop's `newer_success_seen`. -/
structure HeadView (S : Type) where
  activeBuild : Option Build
  latestUnsuccessfulBuild : Option (Build × Unsuccessful S)
  revisionCount : Nat
  newerSuccessSeen : Bool

/-- One round of the loop. -/
def readBuild (db : DossierDb D S P) (view : HeadView S) (b : Build) : Except DossierError (HeadView S) :=
  let rev := (db.revisions.rows.filter fun r => r.buildId == b.id).length
  let fail := (db.failures.rows.filter fun f => f.buildId == b.id).length
  let canc := (db.cancellations.rows.filter fun c => c.buildId == b.id).length
  if 1 < rev + fail + canc then .error .defect
  else
    let view := { view with revisionCount := view.revisionCount + rev }
    if rev + fail + canc = 0 then
      .ok (if view.activeBuild.isNone then { view with activeBuild := .some b } else view)
    else if 0 < rev then .ok { view with newerSuccessSeen := true }
    else if view.latestUnsuccessfulBuild.isNone && !view.newerSuccessSeen then
      match db.failures.find? b.id, db.cancellations.find? b.id with
      | .some f, _ => .ok { view with latestUnsuccessfulBuild := .some (b, .failed f.facts) }
      | .none, .some c => .ok { view with latestUnsuccessfulBuild := .some (b, .cancelled c.actorUserId) }
      | .none, .none => .ok view
    else .ok view

/-- `ORDER BY b.created_at DESC, b.id DESC` -/
def newestFirst (builds : List Build) : List Build :=
  builds.insertionSort fun b b' => b'.createdAt < b.createdAt ∨ b'.createdAt = b.createdAt ∧ b'.id ≤ b.id

/-- The builds of a head as they are read. -/
def buildsOf (db : DossierDb D S P) (headId : Uuid) : List Build := newestFirst (db.builds.rows.filter fun b => b.artifactId == headId)

def readHeadSnapshot (db : DossierDb D S P) (headId : Uuid) : Except DossierError (HeadView S) :=
  (db.buildsOf headId).foldlM db.readBuild ⟨.none, .none, 0, false⟩

/-! ## What it tells -/

def unsuccessful (db : DossierDb D S P) (b : Build) : Option (Build × Unsuccessful S) := match db.ending b.id with
  | [.failed facts] => .some (b, .failed facts)
  | [.cancelled actor] => .some (b, .cancelled actor)
  | _ => .none

def succeeded (db : DossierDb D S P) (b : Build) : Bool := db.revisions.rows.any fun r => r.buildId == b.id

section Reading

variable {db : DossierDb D S P} {b : Build} {view : HeadView S}

theorem find?_of_filter {ρ : Type} {key : ρ → Uuid} {t : Table ρ key} {id : Uuid} {r : ρ} {rest : List ρ}
    (h : (t.rows.filter fun r => key r == id) = r :: rest) : t.find? id = .some r := by
  have hmem : r ∈ t.rows.filter fun r => key r == id := by rw [h]; exact List.mem_cons_self
  exact Table.find?_eq_some.2 ⟨(List.mem_filter.1 hmem).1, eq_of_beq (List.mem_filter.1 hmem).2⟩

theorem find?_none_of_filter {ρ : Type} {key : ρ → Uuid} {t : Table ρ key} {id : Uuid}
    (h : (t.rows.filter fun r => key r == id) = []) : t.find? id = .none :=
  Table.find?_eq_none.2 fun r hr heq => List.filter_eq_nil_iff.1 h r hr (beq_iff_eq.2 heq)

theorem any_of_filter {ρ : Type} (p : ρ → Bool) (rows : List ρ) : rows.any p = !(rows.filter p).isEmpty := by
  cases hany : rows.any p with
  | true =>
    obtain ⟨r, hr, hp⟩ := List.any_eq_true.1 hany
    have hmem : r ∈ rows.filter p := List.mem_filter.2 ⟨hr, hp⟩
    cases hf : rows.filter p with
    | nil => rw [hf] at hmem; cases hmem
    | cons x xs => rfl
  | false =>
    have hnil : rows.filter p = [] := List.filter_eq_nil_iff.2 fun r hr => by
      simpa using List.any_eq_false.1 hany r hr
    rw [hnil]
    rfl

/-- A build's round, by how it ended. -/
theorem readBuild_eq (hone : (db.ending b.id).length ≤ 1) (view : HeadView S) : db.readBuild view b = .ok
    { activeBuild := view.activeBuild.or (if db.activeBuild b.id then .some b else .none)
      latestUnsuccessfulBuild := view.latestUnsuccessfulBuild.or (if view.newerSuccessSeen then .none else db.unsuccessful b)
      revisionCount := view.revisionCount + if db.succeeded b then 1 else 0
      newerSuccessSeen := view.newerSuccessSeen || db.succeeded b } := by
  obtain ⟨active, latest, count, seen⟩ := view
  rw [length_ending] at hone
  unfold readBuild succeeded activeBuild unsuccessful ending
  simp only [any_of_filter]
  cases hr : db.revisions.rows.filter fun r => r.buildId == b.id with
  | cons r rs =>
    have hrest : rs = [] ∧ (db.failures.rows.filter fun f => f.buildId == b.id) = [] ∧
        (db.cancellations.rows.filter fun c => c.buildId == b.id) = [] := by
      rw [hr, List.length_cons] at hone
      refine ⟨List.length_eq_zero_iff.1 ?_, List.length_eq_zero_iff.1 ?_, List.length_eq_zero_iff.1 ?_⟩ <;> omega
    obtain ⟨rfl, hf, hc⟩ := hrest
    simp [hf, hc]
  | nil =>
    cases hf : db.failures.rows.filter fun f => f.buildId == b.id with
    | cons f fs =>
      have hrest : fs = [] ∧ (db.cancellations.rows.filter fun c => c.buildId == b.id) = [] := by
        rw [hf, List.length_cons] at hone
        refine ⟨List.length_eq_zero_iff.1 ?_, List.length_eq_zero_iff.1 ?_⟩ <;> omega
      obtain ⟨rfl, hc⟩ := hrest
      have hfind := find?_of_filter hf
      cases latest <;> cases seen <;> simp [hc, hfind]
    | nil =>
      cases hc : db.cancellations.rows.filter fun c => c.buildId == b.id with
      | cons c cs =>
        have hrest : cs = [] := by
          rw [hc, List.length_cons] at hone
          exact List.length_eq_zero_iff.1 (by omega)
        obtain rfl := hrest
        have hnone := find?_none_of_filter hf
        have hfind := find?_of_filter hc
        cases latest <;> cases seen <;> simp [hnone, hfind]
      | nil => cases active <;> cases latest <;> cases seen <;> simp

/-- A build is under way, has succeeded, or has failed or been cancelled. -/
theorem build_cases (hone : (db.ending b.id).length ≤ 1) :
    db.activeBuild b.id = true ∧ db.succeeded b = false ∧ db.unsuccessful b = .none ∨
    db.activeBuild b.id = false ∧ db.succeeded b = true ∧ db.unsuccessful b = .none ∨
    db.activeBuild b.id = false ∧ db.succeeded b = false ∧ ∃ outcome, db.unsuccessful b = .some (b, outcome) := by
  rw [length_ending] at hone
  unfold succeeded activeBuild unsuccessful ending
  simp only [any_of_filter]
  cases hr : db.revisions.rows.filter fun r => r.buildId == b.id with
  | cons r rs =>
    rw [hr, List.length_cons] at hone
    have hf : (db.failures.rows.filter fun f => f.buildId == b.id) = [] := List.length_eq_zero_iff.1 (by omega)
    have hc : (db.cancellations.rows.filter fun c => c.buildId == b.id) = [] := List.length_eq_zero_iff.1 (by omega)
    have hrest : rs = [] := List.length_eq_zero_iff.1 (by omega)
    simp [hf, hc, hrest]
  | nil =>
    cases hf : db.failures.rows.filter fun f => f.buildId == b.id with
    | cons f fs =>
      rw [hf, List.length_cons] at hone
      have hc : (db.cancellations.rows.filter fun c => c.buildId == b.id) = [] := List.length_eq_zero_iff.1 (by omega)
      have hrest : fs = [] := List.length_eq_zero_iff.1 (by omega)
      simp [hc, hrest]
    | nil =>
      cases hc : db.cancellations.rows.filter fun c => c.buildId == b.id with
      | cons c cs =>
        rw [hc, List.length_cons] at hone
        have hrest : cs = [] := List.length_eq_zero_iff.1 (by omega)
        simp [hrest]
      | nil => simp

/-- The loop over the builds that are left. -/
theorem readBuilds_eq {builds : List Build} (hone : ∀ b ∈ builds, (db.ending b.id).length ≤ 1) (view : HeadView S) :
    ∃ seen, builds.foldlM db.readBuild view = .ok
      { activeBuild := view.activeBuild.or (builds.find? fun b => db.activeBuild b.id)
        latestUnsuccessfulBuild := view.latestUnsuccessfulBuild.or
          (if view.newerSuccessSeen then .none else (builds.find? fun b => !db.activeBuild b.id).bind db.unsuccessful)
        revisionCount := view.revisionCount + builds.countP db.succeeded
        newerSuccessSeen := seen } := by
  induction builds generalizing view with
  | nil =>
    refine ⟨view.newerSuccessSeen, ?_⟩
    simp [pure, Except.pure]
  | cons b builds ih =>
    obtain ⟨hb, hbuilds⟩ := List.forall_mem_cons.1 hone
    rw [List.foldlM_cons, readBuild_eq hb]
    obtain ⟨seen, hrest⟩ := ih hbuilds _
    refine ⟨seen, hrest.trans ?_⟩
    obtain ⟨active, latest, count, seen'⟩ := view
    rcases build_cases hb with ⟨ha, hs, hu⟩ | ⟨ha, hs, hu⟩ | ⟨ha, hs, outcome, hu⟩
    · simp [ha, hs, hu]
    · cases latest <;> cases seen' <;> simp [ha, hs, hu, Nat.add_assoc, Nat.add_comm 1]
    · cases latest <;> cases seen' <;> simp [ha, hs, hu]

end Reading

end DossierDb

open DossierDb Transition

variable [Payload P] [DecidableEq P] {dispatchPayload : Uuid → P} {db : DossierDb D S P}

/-- **A head is read without an error in every state reached**: its one build under way,
the newest of its builds that have ended if that one failed or was cancelled, and how many
succeeded. -/
theorem readHeadSnapshot_reachable (h : (dossiers dispatchPayload).Reachable db) (headId : Uuid) :
    ∃ view, db.readHeadSnapshot headId = .ok view ∧
      view.activeBuild = ((db.buildsOf headId).find? fun b => db.activeBuild b.id) ∧
      (∀ b ∈ db.builds.rows, b.artifactId = headId → db.activeBuild b.id = true → view.activeBuild = .some b) ∧
      view.latestUnsuccessfulBuild = ((db.buildsOf headId).find? fun b => !db.activeBuild b.id).bind db.unsuccessful ∧
      view.revisionCount = (db.builds.rows.filter fun b => b.artifactId == headId).countP db.succeeded := by
  have hok := ok_of_reachable h
  have hperm : (db.buildsOf headId).Perm (db.builds.rows.filter fun b => b.artifactId == headId) := List.perm_insertionSort ..
  have hmem {b : Build} : b ∈ db.buildsOf headId ↔ b ∈ db.builds.rows ∧ b.artifactId = headId := by
    rw [hperm.mem_iff, List.mem_filter, beq_iff_eq]
  have hone : ∀ b ∈ db.buildsOf headId, (db.ending b.id).length ≤ 1 := fun b hb => hok.oneEnding b (hmem.1 hb).1
  obtain ⟨seen, hread⟩ := readBuilds_eq hone ⟨.none, .none, 0, false⟩
  refine ⟨_, hread, Option.none_or, fun b hb ha hactive => ?_, Option.none_or, ?_⟩
  · show Option.or .none ((db.buildsOf headId).find? fun b => db.activeBuild b.id) = _
    rw [Option.none_or]
    cases hfind : (db.buildsOf headId).find? fun b => db.activeBuild b.id with
    | none => exact absurd hactive (List.find?_eq_none.1 hfind b (hmem.2 ⟨hb, ha⟩))
    | some b' =>
      obtain ⟨hb', ha'⟩ := hmem.1 (List.mem_of_find?_eq_some hfind)
      have hactive' := List.find?_some hfind
      rw [hok.oneActive b' hb' b hb (ha'.trans ha.symm) (activeBuild_iff.1 hactive') (activeBuild_iff.1 hactive)]
  · show 0 + (db.buildsOf headId).countP db.succeeded = _
    rw [Nat.zero_add, hperm.countP_eq]

theorem readHeadSnapshot_afterCancel :
    (afterCancel.readHeadSnapshot 1).toOption.map (fun view => (view.activeBuild, view.revisionCount)) = .some (.none, 1) ∧
    ∃ view, afterCancel.readHeadSnapshot 1 = .ok view ∧
      view.activeBuild = ((afterCancel.buildsOf 1).find? fun b => afterCancel.activeBuild b.id) ∧
      (∀ b ∈ afterCancel.builds.rows, b.artifactId = 1 → afterCancel.activeBuild b.id = true → view.activeBuild = .some b) ∧
      view.latestUnsuccessfulBuild = ((afterCancel.buildsOf 1).find? fun b => !afterCancel.activeBuild b.id).bind afterCancel.unsuccessful ∧
      view.revisionCount = (afterCancel.builds.rows.filter fun b => b.artifactId == 1).countP afterCancel.succeeded :=
  ⟨by decide +kernel, readHeadSnapshot_reachable reachable_afterCancel 1⟩

end Nexus.Dossiers
