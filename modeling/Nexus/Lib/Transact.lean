/-
A transaction run by itself, from its first statement to its commit.

`Prog.run` lets the `n`-th statement read `x n` of what is kept elsewhere, and
`Storage.transact` is the whole transaction: a failure, a refused statement or a
refused commit leaves the tables as they were. `Gives` is a part that returned,
with one inversion rule for each kind of statement and for loops.
`Cluster.transact_run` says that a cluster where no row is locked can run the
transaction that way.
-/
import Nexus.Lib.RowLocks

namespace RowLocks
open Transition

variable {ρ σ η ω ε α β : Type}

def Prog.run (T : Storage σ ω) (x : Nat → η) : Prog ρ σ η ω ε α → Nat → σ → Except (Option ε) (α × Nat × σ)
  | done a, n, v => .ok (a, n, v)
  | fail e, _, _ => .error (.some e)
  | lock _ p, n, v => run T x p n v
  | exec w p, n, v =>
    if T.unique (T.after (w v (x n)) v) then run T x (p v (x n)) (n + 1) (T.after (w v (x n)) v) else .error .none

/-- What the transaction returns, or why it failed, and the tables then. -/
def Storage.transact (T : Storage σ ω) (x : Nat → η) (p : Prog ρ σ η ω ε α) (s : σ) : Except (Option ε) α × σ :=
  match p.run T x 0 s with
  | .ok (a, _, v) => if T.deferred v then (.ok a, v) else (.error .none, s)
  | .error e => (.error e, s)

/-- The part, started on the tables `v`, returns `a` and leaves `v'`. -/
def Gives (T : Storage σ ω) (x : Nat → η) (p : Prog ρ σ η ω ε α) (v : σ) (a : α) (v' : σ) : Prop :=
  ∃ n m, p.run T x n v = .ok (a, m, v')

variable {T : Storage σ ω} {x : Nat → η} {v v' : σ} {a b : α}

theorem Storage.transact_ok {p : Prog ρ σ η ω ε α} (h : T.transact x p v = (.ok a, v')) :
    Gives T x p v a v' ∧ T.deferred v' = true := by
  simp only [transact] at h
  split at h
  next b n u hrun =>
    split at h
    next hd =>
      simp only [Prod.mk.injEq, Except.ok.injEq] at h
      obtain ⟨rfl, rfl⟩ := h
      exact ⟨⟨0, n, hrun⟩, hd⟩
    next => simp at h
  next => simp at h

/-- **A transaction that does not commit changes nothing.** -/
theorem Storage.transact_error {p : Prog ρ σ η ω ε α} {e : Option ε} (h : T.transact x p v = (.error e, v')) : v' = v := by
  simp only [transact] at h
  split at h
  · split at h
    · simp at h
    · exact (Prod.mk.inj h).2.symm
  · exact (Prod.mk.inj h).2.symm

/-! ## One rule for each kind of statement -/

theorem Prog.run_bind {f : α → Prog ρ σ η ω ε β} : ∀ {p : Prog ρ σ η ω ε α} {n : Nat} {v : σ},
    (p >>= f).run T x n v = (p.run T x n v).bind fun r => (f r.1).run T x r.2.1 r.2.2
  | .done _, _, _ => rfl
  | .fail _, _, _ => rfl
  | .lock _ p, n, v => Prog.run_bind (p := p) (n := n) (v := v)
  | .exec w p, n, v => by
    change (if T.unique (T.after (w v (x n)) v) then (p v (x n) >>= f).run T x (n + 1) (T.after (w v (x n)) v)
      else .error .none) = (Prog.run T x (.exec w p) n v).bind _
    simp only [Prog.run]
    split
    · exact Prog.run_bind
    · rfl

theorem Gives.bind {p : Prog ρ σ η ω ε α} {f : α → Prog ρ σ η ω ε β} {b : β} (h : Gives T x (p >>= f) v b v') :
    ∃ a u, Gives T x p v a u ∧ Gives T x (f a) u b v' := by
  obtain ⟨n, m, h⟩ := h
  rw [Prog.run_bind] at h
  cases hp : p.run T x n v with
  | error e => simp [hp, Except.bind] at h
  | ok r =>
    rw [hp] at h
    exact ⟨r.1, r.2.2, ⟨n, r.2.1, hp⟩, ⟨r.2.1, m, h⟩⟩

theorem Gives.done (h : Gives T x (pure a : Prog ρ σ η ω ε α) v b v') : b = a ∧ v' = v := by
  obtain ⟨n, m, h⟩ := h
  have hout : (a, n, v) = (b, m, v') := Except.ok.inj h
  simp only [Prod.mk.injEq] at hout
  exact ⟨hout.1.symm, hout.2.2.symm⟩

theorem Gives.fail {e : ε} (h : Gives T x (.fail e : Prog ρ σ η ω ε α) v b v') : False := by
  obtain ⟨n, m, h⟩ := h
  cases h

theorem Gives.lockRow {r : ρ} {u : Unit} (h : Gives T x (.lockRow r : Prog ρ σ η ω ε Unit) v u v') : v' = v := by
  have hdone : Gives T x (pure () : Prog ρ σ η ω ε Unit) v u v' := h
  exact hdone.done.2

/-- A statement that writes and returns: what it read elsewhere, and that the
unique indexes bear what it left. -/
theorem Gives.returning {w : σ → η → List ω} {f : σ → η → α} (h : Gives T x (.returning w f : Prog ρ σ η ω ε α) v b v') :
    ∃ k, b = f v (x k) ∧ v' = T.after (w v (x k)) v ∧ T.unique v' = true := by
  obtain ⟨n, m, h⟩ := h
  simp only [Prog.returning, Prog.run] at h
  split at h
  next hu =>
    simp only [Except.ok.injEq, Prod.mk.injEq] at h
    obtain ⟨rfl, -, rfl⟩ := h
    exact ⟨n, rfl, rfl, hu⟩
  next => cases h

theorem Gives.query {f : σ → η → α} (h : Gives T x (.query f : Prog ρ σ η ω ε α) v b v') : ∃ k, b = f v (x k) ∧ v' = v := by
  obtain ⟨k, hb, hv, -⟩ := Gives.returning h
  exact ⟨k, hb, hv⟩

theorem Gives.write {w : σ → η → List ω} {u : Unit} (h : Gives T x (.write w : Prog ρ σ η ω ε Unit) v u v') :
    ∃ k, v' = T.after (w v (x k)) v ∧ T.unique v' = true := by
  obtain ⟨k, -, hv, hu⟩ := Gives.returning h
  exact ⟨k, hv, hu⟩

theorem Gives.ofExcept {y : Except ε α} (h : Gives T x (.ofExcept y : Prog ρ σ η ω ε α) v b v') : y = .ok b ∧ v' = v := by
  cases y with
  | ok a =>
    have hdone : Gives T x (pure a : Prog ρ σ η ω ε α) v b v' := h
    obtain ⟨rfl, rfl⟩ := hdone.done
    exact ⟨rfl, rfl⟩
  | error e => exact (Gives.fail h).elim

theorem Gives.quiet {P : α → Prop} : ∀ {p : Prog ρ σ η ω ε α} {v : σ}, Quiet P p → Gives T x p v b v' → v' = v ∧ P b
  | .done a, v, hp, h => by
    obtain ⟨rfl, rfl⟩ := Gives.done h
    exact ⟨rfl, hp⟩
  | .fail _, _, _, h => (Gives.fail h).elim
  | .lock _ p, _, hp, h => Gives.quiet (p := p) hp h
  | .exec w p, v, hp, h => by
    obtain ⟨n, m, h⟩ := h
    obtain ⟨hw, hp⟩ := hp v (x n)
    simp only [Prog.run, hw, Storage.after_nil] at h
    split at h
    · exact Gives.quiet hp ⟨_, _, h⟩
    · cases h

theorem Gives.forM {f : β → Prog ρ σ η ω ε Unit} {I : List β → σ → Prop} {l : List β} {u : Unit}
    (hstep : ∀ seen b rest v v', l = seen ++ b :: rest → I seen v → Gives T x (f b) v () v' → I (seen ++ [b]) v')
    (hv : I [] v) (h : Gives T x (l.forM f) v u v') : I l v' := by
  suffices hloop : ∀ (rest seen : List β) (v : σ), l = seen ++ rest → I seen v → Gives T x (rest.forM f) v u v' → I l v' from
    hloop l [] v rfl hv h
  intro rest
  induction rest with
  | nil =>
    intro seen v hl hseen h
    obtain ⟨-, rfl⟩ := Gives.done h
    rw [hl, List.append_nil]
    exact hseen
  | cons b rest ih =>
    intro seen v hl hseen h
    obtain ⟨_, w, hb, hrest⟩ := Gives.bind h
    exact ih (seen ++ [b]) w (by simp [hl]) (hstep seen b rest v w hl hseen hb) hrest

theorem Gives.mapM' {f : β → Prog ρ σ η ω ε α} {I : List β → List α → σ → Prop} {l : List β} {as : List α}
    (hstep : ∀ seen done b rest a v v', l = seen ++ b :: rest → I seen done v → Gives T x (f b) v a v' →
      I (seen ++ [b]) (done ++ [a]) v')
    (hv : I [] [] v) (h : Gives T x (l.mapM' f) v as v') : I l as v' := by
  suffices hloop : ∀ (rest seen : List β) (done as : List α) (v : σ), l = seen ++ rest → I seen done v →
      Gives T x (rest.mapM' f) v as v' → I l (done ++ as) v' from hloop l [] [] as v rfl hv h
  intro rest
  induction rest with
  | nil =>
    intro seen done as v hl hseen h
    obtain ⟨rfl, rfl⟩ := Gives.done h
    rw [hl, List.append_nil, List.append_nil]
    exact hseen
  | cons b rest ih =>
    intro seen done as v hl hseen h
    obtain ⟨a, w, hb, h⟩ := Gives.bind h
    obtain ⟨as', w', hrest, h⟩ := Gives.bind h
    obtain ⟨rfl, rfl⟩ := Gives.done h
    have hnext := ih (seen ++ [b]) (done ++ [a]) as' w (by simp [hl]) (hstep seen done b rest a v w hl hseen hb) hrest
    rwa [List.append_assoc] at hnext

/-- What a transaction returns does not matter to what it leaves. -/
theorem Storage.transact_unit {p : Prog ρ σ η ω ε α} (h : T.transact x p v = (.ok a, v')) :
    T.transact x (do let _ ← p) v = (.ok (), v') := by
  have hbind : (do let _ ← p : Prog ρ σ η ω ε Unit).run T x 0 v = (p.run T x 0 v).bind fun r => .ok ((), r.2.1, r.2.2) :=
    Prog.run_bind
  simp only [transact] at h ⊢
  rw [hbind]
  cases hp : p.run T x 0 v with
  | error e => simp [hp] at h
  | ok r =>
    rw [hp] at h
    dsimp only [Except.bind] at h ⊢
    split at h
    next hd =>
      rw [if_pos hd, (Prod.mk.inj h).2]
    next => simp at h

/-! ## In a cluster -/

namespace Cluster

variable [DecidableEq ρ] {κ : Type} {D : Discipline ρ σ ω} {program : κ → Prog ρ σ η ω ε Unit}

/-- No transaction but `t` holds a row. -/
def Free (S : Cluster ρ σ η ω ε) (t : Nat) : Prop := ∀ r, S.holder r = .none ∨ S.holder r = .some t

/-- The statements of a transaction, one after the other, to its end. -/
theorem run_statements {t : Nat} : ∀ {p : Prog ρ σ η ω ε Unit} {n m : Nat} {ws : List ω} {S : Cluster ρ σ η ω ε} {v' : σ},
    S.Free t → S.running t = .some ⟨ws, p⟩ → T.unique (T.after ws S.tables) = true →
    p.run T x n (T.after ws S.tables) = .ok ((), m, v') →
    ∃ tr ws', (system T D program).Run S tr ∧ (last S tr).running t = .some ⟨ws', .done ()⟩ ∧
      (last S tr).tables = S.tables ∧ T.after ws' S.tables = v' ∧ T.unique v' = true
  | .done (), n, m, ws, S, v', _, ht, hu, h => by
    obtain ⟨-, rfl⟩ := Gives.done ⟨n, m, h⟩
    exact ⟨[], ws, trivial, ht, rfl, rfl, hu⟩
  | .fail e, n, m, ws, S, v', _, _, _, h => by cases h
  | .lock r p, n, m, ws, S, v', hfree, ht, hu, h => by
    let S' : Cluster ρ σ η ω ε := { S with
      holder := Function.update S.holder r (.some t)
      running := Function.update S.running t (.some ⟨ws, p⟩) }
    have hstep : S.next T program (.lock t) = .some S' := by simp only [Cluster.next, ht, hfree r, if_true, S']
    have hfree' : S'.Free t := by
      intro q
      by_cases hq : q = r
      · exact .inr (by simp [S', hq])
      · simpa [S', hq] using hfree q
    obtain ⟨tr, ws', hrun, hlast, htables, hv⟩ := run_statements (p := p) (S := S') hfree' (by simp [S']) hu h
    exact ⟨(.lock t, S') :: tr, ws', ⟨hstep, hrun⟩, hlast, htables, hv⟩
  | .exec w p, n, m, ws, S, v', hfree, ht, hu, h => by
    simp only [Prog.run] at h
    split at h
    next hu' =>
      rw [← Storage.after_append] at h hu'
      let S' : Cluster ρ σ η ω ε := { S with
        running := Function.update S.running t
          (.some ⟨ws ++ w (T.after ws S.tables) (x n), p (T.after ws S.tables) (x n)⟩) }
      have hstep : S.next T program (.exec t (x n)) = .some S' := by
        simp only [Cluster.next, ht, hu, ← Storage.after_append, hu', Bool.and_self, if_true, S']
      obtain ⟨tr, ws', hrun, hlast, htables, hv⟩ := run_statements (S := S') hfree (by simp [S']) hu' h
      exact ⟨(.exec t (x n), S') :: tr, ws', ⟨hstep, hrun⟩, hlast, htables, hv⟩
    next => cases h

/-- **A cluster where no row is locked runs the transaction to what `transact`
says it leaves.** -/
theorem transact_run {S : Cluster ρ σ η ω ε} {c : κ} {t : Nat} {v' : σ} (hfree : S.Free t) (ht : S.running t = .none)
    (hu : T.unique S.tables = true) (h : T.transact x (program c) S.tables = (.ok (), v')) :
    ∃ tr, (system T D program).Run S tr ∧ (last S tr).tables = v' := by
  simp only [Storage.transact] at h
  split at h
  next m u hrun =>
    split at h
    next hd =>
      simp only [Prod.mk.injEq, true_and] at h
      subst h
      let S₁ : Cluster ρ σ η ω ε := { S with running := Function.update S.running t (.some ⟨[], program c⟩) }
      have hstart : S.next T program (.start t c) = .some S₁ := by simp only [Cluster.next, ht, S₁]
      have hrunning : S₁.running t = .some ⟨[], program c⟩ := by simp [S₁]
      have hstatements : ∃ tr ws', (system T D program).Run S₁ tr ∧ (last S₁ tr).running t = .some ⟨ws', .done ()⟩ ∧
          (last S₁ tr).tables = S₁.tables ∧ T.after ws' S₁.tables = u ∧ T.unique u = true :=
        run_statements hfree hrunning hu hrun
      obtain ⟨tr, ws', hrun', hlast, htables, rfl, hu'⟩ := hstatements
      have hcommit : (last S₁ tr).next T program (.commit t) =
          .some ((last S₁ tr).finish t (T.after ws' S.tables)) := by
        have htables : (last S₁ tr).tables = S.tables := htables
        simp only [Cluster.next, hlast, htables]
        have hc : T.unique (T.after ws' S.tables) && T.deferred (T.after ws' S.tables) := by simpa using ⟨hu', hd⟩
        rw [if_pos hc]
      refine ⟨(.start t c, S₁) :: (tr ++ [(.commit t, (last S₁ tr).finish t (T.after ws' S.tables))]), ?_, ?_⟩
      · exact ⟨hstart, Along.append.2 ⟨hrun', hcommit, trivial⟩⟩
      · change (last S₁ (tr ++ _)).tables = _
        rw [last_append]
        rfl
    next => simp at h
  next => simp at h

end Cluster

end RowLocks
