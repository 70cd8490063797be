/-
Transactions that run at READ COMMITTED and take row locks.

A transaction is a program of statements. A statement sees what is committed
when it runs, under the transaction's own writes; the writes of the others show
once they commit. A row lock is held by one transaction at a time and until its
transaction ends. Unique indexes cover rows not yet committed, so a statement
runs only where they hold; deferred constraints are checked at the commit.

A `Discipline` names the rows whose locks a write needs. `Wp` is a weakest
precondition that lets the others commit before every statement, so long as
they write under no lock the transaction holds: what it learns under its locks
it may keep (`Others`). `Alone` is what a transaction does by itself. `Cluster.Safe.next` is the step lemma, and
`reachable_inv` and `run_keeps` say what then holds in every reachable cluster
and between any two states of a run.
-/
import Nexus.Lib.Run
import Mathlib.Logic.Relation
import Mathlib.Logic.Function.Basic
import Mathlib.Data.Set.Insert

namespace RowLocks
open Transition

/-- What is left of a transaction. A statement reads the tables and whatever
else the database says (`η`), and writes. -/
inductive Prog (ρ σ η ω ε α : Type) : Type
  | done (a : α)
  | fail (e : ε)
  | lock (r : ρ) (rest : Prog ρ σ η ω ε α)
  | exec (writes : σ → η → List ω) (rest : σ → η → Prog ρ σ η ω ε α)

variable {ρ σ η ω ε α β κ : Type}

namespace Prog

def bind : Prog ρ σ η ω ε α → (α → Prog ρ σ η ω ε β) → Prog ρ σ η ω ε β
  | done a, f => f a
  | fail e, _ => fail e
  | lock r p, f => lock r (bind p f)
  | exec w p, f => exec w fun v x => bind (p v x) f

instance : Monad (Prog ρ σ η ω ε) where
  pure := done
  bind := bind

/-- `SELECT … FOR UPDATE` of one row. -/
def lockRow (r : ρ) : Prog ρ σ η ω ε Unit := lock r (done ())

def query (f : σ → η → α) : Prog ρ σ η ω ε α := exec (fun _ _ => []) fun v x => done (f v x)

def write (w : σ → η → List ω) : Prog ρ σ η ω ε Unit := exec w fun _ _ => done ()

/-- A statement that writes and returns what `f` reads. -/
def returning (w : σ → η → List ω) (f : σ → η → α) : Prog ρ σ η ω ε α := exec w fun v x => done (f v x)

def ofExcept : Except ε α → Prog ρ σ η ω ε α
  | .ok a => done a
  | .error e => fail e

end Prog

/-- How a write changes the tables, what the unique indexes ask of them and
what is checked at a commit. -/
structure Storage (σ ω : Type) where
  apply : ω → σ → σ
  unique : σ → Bool
  deferred : σ → Bool

/-- The tables under a list of writes. -/
def Storage.after (T : Storage σ ω) (ws : List ω) (s : σ) : σ := ws.foldl (fun s w => T.apply w s) s

@[simp] theorem Storage.after_nil {T : Storage σ ω} {s : σ} : T.after [] s = s := rfl

theorem Storage.after_append {T : Storage σ ω} {ws ws' : List ω} {s : σ} :
    T.after (ws ++ ws') s = T.after ws' (T.after ws s) := List.foldl_append

structure Tx (ρ σ η ω ε : Type) where
  writes : List ω
  rest : Prog ρ σ η ω ε Unit

/-- What is committed, who holds which row and the transactions under way. -/
structure Cluster (ρ σ η ω ε : Type) where
  tables : σ
  holder : ρ → Option Nat
  running : Nat → Option (Tx ρ σ η ω ε)

inductive Event (κ η : Type)
  | start (t : Nat) (c : κ)
  | lock (t : Nat)
  | exec (t : Nat) (x : η)
  | commit (t : Nat)
  | abort (t : Nat)

namespace Cluster

/-- Transaction `t` ends: its locks are free. -/
def finish (S : Cluster ρ σ η ω ε) (t : Nat) (tables : σ) : Cluster ρ σ η ω ε where
  tables := tables
  holder r := if S.holder r = .some t then .none else S.holder r
  running := Function.update S.running t .none

variable [DecidableEq ρ]

def next (T : Storage σ ω) (program : κ → Prog ρ σ η ω ε Unit) (S : Cluster ρ σ η ω ε) :
    Event κ η → Option (Cluster ρ σ η ω ε)
  | .start t c => match S.running t with
    | .none => .some { S with running := Function.update S.running t (.some ⟨[], program c⟩) }
    | .some _ => .none
  | .lock t => match S.running t with
    | .some ⟨ws, .lock r p⟩ =>
      -- the transaction waits while another one holds the row
      if S.holder r = .none ∨ S.holder r = .some t then
        .some { S with
          holder := Function.update S.holder r (.some t)
          running := Function.update S.running t (.some ⟨ws, p⟩) }
      else .none
    | _ => .none
  | .exec t x => match S.running t with
    | .some ⟨ws, .exec w p⟩ =>
      let v := T.after ws S.tables
      if T.unique v && T.unique (T.after (w v x) v) then
        .some { S with running := Function.update S.running t (.some ⟨ws ++ w v x, p v x⟩) }
      else .none
    | _ => .none
  | .commit t => match S.running t with
    | .some ⟨ws, .done ()⟩ =>
      let v := T.after ws S.tables
      if T.unique v && T.deferred v then .some (S.finish t v) else .none
    | _ => .none
  -- a refused request, a failed statement, a deadlock or a lost connection
  | .abort t => match S.running t with
    | .some _ => .some (S.finish t S.tables)
    | .none => .none

end Cluster

/-! ## Reasoning about one transaction among others -/

/-- The rows whose locks a write needs, what holds of committed tables, and
what no commit undoes. -/
structure Discipline (ρ σ ω : Type) where
  guard : ω → ρ → Prop
  inv : σ → Prop
  keeps : σ → σ → Prop

/-- What a transaction knows at a point: the rows it has locked, the committed
tables and its writes so far. -/
abbrev Assn (ρ σ ω : Type) := Set ρ → σ → List ω → Prop

section

variable (T : Storage σ ω) (D : Discipline ρ σ ω)

/-- A commit by a transaction that held no row of `H`. -/
def Elsewhere (H : Set ρ) (s s' : σ) : Prop :=
  D.inv s' ∧ D.keeps s s' ∧ ∃ ws, (∀ w ∈ ws, ∀ r, D.guard w r → r ∉ H) ∧ s' = T.after ws s

/-- Any commits by the others while the rows of `H` are locked. -/
def Others (H : Set ρ) : σ → σ → Prop := Relation.ReflTransGen (Elsewhere T D H)

/-- The weakest precondition of a transaction among others: they may commit
before each statement, every write is made under its locks, and `Q` holds of
what is returned. Partial: of a transaction that fails it asks nothing. -/
def Wp (Q : α → Assn ρ σ ω) : Prog ρ σ η ω ε α → Assn ρ σ ω
  | .done a, H, s, ws => ∀ s', Others T D H s s' → Q a H s' ws
  | .fail _, _, _, _ => True
  | .lock r p, H, s, ws => ∀ s', Others T D H s s' → Wp Q p (insert r H) s' ws
  | .exec w p, H, s, ws => ∀ s', Others T D H s s' → T.unique (T.after ws s') = true → ∀ x,
      (∀ u ∈ w (T.after ws s') x, ∀ r, D.guard u r → r ∈ H) ∧
        Wp Q (p (T.after ws s') x) H s' (ws ++ w (T.after ws s') x)

/-- What a transaction must know to commit. -/
def Commits (_ : Unit) : Assn ρ σ ω := fun _ s ws =>
  T.unique (T.after ws s) = true → T.deferred (T.after ws s) = true →
    D.inv (T.after ws s) ∧ D.keeps s (T.after ws s)

/-- Knowledge that the others leave alone and further locks do not spoil. -/
structure Stable (I : Assn ρ σ ω) : Prop where
  others : ∀ {H s s' ws}, Elsewhere T D H s s' → I H s ws → I H s' ws
  locks : ∀ {H s ws} r, I H s ws → I (insert r H) s ws

end

variable {T : Storage σ ω} {D : Discipline ρ σ ω} {Q : α → Assn ρ σ ω} {I J : Assn ρ σ ω}
  {H : Set ρ} {s s' : σ} {ws : List ω}

theorem Others.inv (h : Others T D H s s') (hs : D.inv s) : D.inv s' := by
  induction h with
  | refl => exact hs
  | tail _ h _ => exact h.1

theorem Stable.others_all (hI : Stable T D I) (h : Others T D H s s') (hs : I H s ws) : I H s' ws := by
  induction h with
  | refl => exact hs
  | tail _ h ih => exact hI.others h ih

theorem Stable.and (hI : Stable T D I) (hJ : Stable T D J) : Stable T D fun H s ws => I H s ws ∧ J H s ws where
  others h hs := ⟨hI.others h hs.1, hJ.others h hs.2⟩
  locks r hs := ⟨hI.locks r hs.1, hJ.locks r hs.2⟩

theorem Stable.writes {P : List ω → Prop} : Stable T D (fun _ _ ws => P ws) := ⟨fun _ h => h, fun _ h => h⟩

theorem Stable.inv : Stable T D fun _ s _ => D.inv s := ⟨fun h _ => h.1, fun _ h => h⟩

theorem Stable.held (r : ρ) : Stable T D fun H _ _ => r ∈ H := ⟨fun _ h => h, fun _ h => Set.mem_insert_of_mem _ h⟩

theorem Stable.all {J : β → Assn ρ σ ω} (hJ : ∀ b, Stable T D (J b)) (l : List β) :
    Stable T D fun H s ws => ∀ b ∈ l, J b H s ws :=
  ⟨fun ho h b hb => (hJ b).others ho (h b hb), fun r h b hb => (hJ b).locks r (h b hb)⟩

theorem Wp.others (h : Others T D H s s') : ∀ {p : Prog ρ σ η ω ε α}, Wp T D Q p H s ws → Wp T D Q p H s' ws
  | .done _, hp => fun t ht => hp t (h.trans ht)
  | .fail _, _ => trivial
  | .lock _ _, hp => fun t ht => hp t (h.trans ht)
  | .exec _ _, hp => fun t ht => hp t (h.trans ht)

/-- What a returned value satisfies may be read after more commits. -/
theorem Wp.mono {Q' : α → Assn ρ σ ω} (hQ : ∀ a H s ws, Q a H s ws → Q' a H s ws) :
    ∀ {p : Prog ρ σ η ω ε α} {H s ws}, Wp T D Q p H s ws → Wp T D Q' p H s ws
  | .done _, _, _, _, hp => fun t ht => hQ _ _ _ _ (hp t ht)
  | .fail _, _, _, _, _ => trivial
  | .lock _ _, _, _, _, hp => fun t ht => Wp.mono hQ (hp t ht)
  | .exec _ _, _, _, _, hp => fun t ht hu x => ⟨(hp t ht hu x).1, Wp.mono hQ (hp t ht hu x).2⟩

theorem Wp.bind {Q' : β → Assn ρ σ ω} {f : α → Prog ρ σ η ω ε β} :
    ∀ {p : Prog ρ σ η ω ε α} {H s ws}, Wp T D (fun a => Wp T D Q' (f a)) p H s ws → Wp T D Q' (p >>= f) H s ws
  | .done _, _, s, _, hp => hp s .refl
  | .fail _, _, _, _, _ => trivial
  | .lock _ _, _, _, _, hp => fun t ht => Wp.bind (hp t ht)
  | .exec _ _, _, _, _, hp => fun t ht hu x => ⟨(hp t ht hu x).1, Wp.bind (hp t ht hu x).2⟩

/-- Sequencing: what the first part leaves is what the second starts from. -/
theorem Wp.seq {R : α → Assn ρ σ ω} {Q' : β → Assn ρ σ ω} {p : Prog ρ σ η ω ε α} {f : α → Prog ρ σ η ω ε β}
    (hp : Wp T D R p H s ws) (hf : ∀ a H s ws, R a H s ws → Wp T D Q' (f a) H s ws) :
    Wp T D Q' (p >>= f) H s ws := Wp.bind (hp.mono hf)

/-- A stable fact holds of the value returned whenever it holds before. -/
theorem Wp.done (hI : Stable T D I) (hs : I H s ws) (hQ : ∀ s, I H s ws → Q a H s ws) :
    Wp T D Q (pure a : Prog ρ σ η ω ε α) H s ws := fun t ht => hQ t (hI.others_all ht hs)

theorem Wp.fail {e : ε} : Wp T D Q (.fail e : Prog ρ σ η ω ε α) H s ws := trivial

theorem Wp.lockRow {r : ρ} (hI : Stable T D I) (hs : I H s ws) :
    Wp T D (fun _ H s ws => I H s ws ∧ r ∈ H) (.lockRow r : Prog ρ σ η ω ε Unit) H s ws := by
  intro t ht u hu
  have ht : I (insert r H) t ws := hI.locks r (hI.others_all ht hs)
  exact ⟨hI.others_all hu ht, Set.mem_insert r H⟩

/-- One statement and what follows it, from a fact the others leave alone. -/
theorem Wp.exec {w : σ → η → List ω} {g : σ → η → β} {f : β → Prog ρ σ η ω ε α} (hI : Stable T D I) (hs : I H s ws)
    (h : ∀ s x, I H s ws → T.unique (T.after ws s) = true →
      (∀ u ∈ w (T.after ws s) x, ∀ r, D.guard u r → r ∈ H) ∧
        Wp T D Q (f (g (T.after ws s) x)) H s (ws ++ w (T.after ws s) x)) :
    Wp T D Q (.returning w g >>= f) H s ws :=
  fun t ht hu x => h t x (hI.others_all ht hs) hu

theorem Wp.query {g : σ → η → β} {f : β → Prog ρ σ η ω ε α} (hI : Stable T D I) (hs : I H s ws)
    (h : ∀ s x, I H s ws → T.unique (T.after ws s) = true → Wp T D Q (f (g (T.after ws s) x)) H s ws) :
    Wp T D Q (.query g >>= f) H s ws := by
  refine Wp.exec hI hs fun t x ht hu => ⟨by simp, ?_⟩
  rw [List.append_nil]
  exact h t x ht hu

theorem Wp.write {w : σ → η → List ω} {f : Unit → Prog ρ σ η ω ε α} (hI : Stable T D I) (hs : I H s ws)
    (h : ∀ s x, I H s ws → T.unique (T.after ws s) = true →
      (∀ u ∈ w (T.after ws s) x, ∀ r, D.guard u r → r ∈ H) ∧
        Wp T D Q (f ()) H s (ws ++ w (T.after ws s) x)) :
    Wp T D Q (.write w >>= f) H s ws := Wp.exec hI hs h

theorem Wp.forM {f : β → Prog ρ σ η ω ε Unit} (hI : Stable T D I) :
    ∀ {l : List β} {H s ws}, (∀ b ∈ l, ∀ H s ws, I H s ws → Wp T D (fun _ => I) (f b) H s ws) → I H s ws →
      Wp T D (fun _ => I) (l.forM f) H s ws
  | [], _, _, _, _, hs => Wp.done hI hs fun _ h => h
  | b :: l, H, s, ws, hf, hs => by
    refine Wp.seq (hf b (by simp) H s ws hs) fun _ H s ws hs => ?_
    have hrest : ∀ c ∈ l, ∀ H s ws, I H s ws → Wp T D (fun _ => I) (f c) H s ws :=
      fun c hc => hf c (List.mem_cons_of_mem b hc)
    exact Wp.forM hI hrest hs

theorem Wp.mapM' {f : β → Prog ρ σ η ω ε α} (hI : Stable T D I) :
    ∀ {l : List β} {H s ws}, (∀ b ∈ l, ∀ H s ws, I H s ws → Wp T D (fun _ => I) (f b) H s ws) → I H s ws →
      Wp T D (fun _ => I) (l.mapM' f) H s ws
  | [], _, _, _, _, hs => Wp.done hI hs fun _ h => h
  | b :: l, H, s, ws, hf, hs => by
    refine Wp.seq (hf b (by simp) H s ws hs) fun a H s ws hs => ?_
    have hrest : ∀ c ∈ l, ∀ H s ws, I H s ws → Wp T D (fun _ => I) (f c) H s ws :=
      fun c hc => hf c (List.mem_cons_of_mem b hc)
    exact Wp.seq (Wp.mapM' hI hrest hs) fun as H s ws hs => Wp.done hI hs fun _ h => h

theorem Wp.forM_each {f : β → Prog ρ σ η ω ε Unit} {J : β → Assn ρ σ ω} (hI : Stable T D I) (hJ : ∀ b, Stable T D (J b))
    (l : List β) (hf : ∀ b ∈ l, ∀ (seen : List β) H s ws, I H s ws → (∀ c ∈ seen, J c H s ws) →
      Wp T D (fun _ H s ws => I H s ws ∧ J b H s ws ∧ ∀ c ∈ seen, J c H s ws) (f b) H s ws) :
    ∀ {H s ws}, I H s ws → Wp T D (fun _ H s ws => I H s ws ∧ ∀ b ∈ l, J b H s ws) (l.forM f) H s ws := by
  suffices h : ∀ (rest seen : List β) {H s ws}, (∀ b ∈ rest, b ∈ l) → I H s ws → (∀ c ∈ seen, J c H s ws) →
      Wp T D (fun _ H s ws => I H s ws ∧ ∀ c ∈ rest ++ seen, J c H s ws) (rest.forM f) H s ws by
    intro H s ws hs
    have hl := h l [] (by simp) hs (by simp)
    rwa [List.append_nil] at hl
  intro rest
  induction rest with
  | nil =>
    intro seen H s ws _ hs hc
    exact Wp.done (hI.and (Stable.all hJ seen)) ⟨hs, hc⟩ fun _ h => h
  | cons b rest ih =>
    intro seen H s ws hl hs hc
    refine Wp.seq (hf b (hl b (by simp)) seen H s ws hs hc) fun _ H s ws hb => ?_
    have hnext := ih (b :: seen) (fun c hc => hl c (by simp [hc])) hb.1 (by simpa using hb.2)
    refine hnext.mono fun _ H s ws h => ⟨h.1, fun c hc => h.2 c ?_⟩
    simp only [List.cons_append, List.mem_cons, List.mem_append] at hc ⊢
    rcases hc with rfl | hc | hc <;> simp [*]

/-! ## Transactions that only read -/

/-- No statement writes, and what is returned satisfies `P`. -/
def Quiet (P : α → Prop) : Prog ρ σ η ω ε α → Prop
  | .done a => P a
  | .fail _ => True
  | .lock _ p => Quiet P p
  | .exec w p => ∀ v x, w v x = [] ∧ Quiet P (p v x)

theorem Quiet.mono {P P' : α → Prop} (h : ∀ a, P a → P' a) : ∀ {p : Prog ρ σ η ω ε α}, Quiet P p → Quiet P' p
  | .done a, hp => h a hp
  | .fail _, _ => trivial
  | .lock _ p, hp => Quiet.mono (p := p) h hp
  | .exec _ _, hp => fun v x => ⟨(hp v x).1, Quiet.mono h (hp v x).2⟩

theorem Quiet.bind {P : α → Prop} {P' : β → Prop} {f : α → Prog ρ σ η ω ε β} (hf : ∀ a, P a → Quiet P' (f a)) :
    ∀ {p : Prog ρ σ η ω ε α}, Quiet P p → Quiet P' (p >>= f)
  | .done a, hp => hf a hp
  | .fail _, _ => trivial
  | .lock _ p, hp => Quiet.bind (p := p) hf hp
  | .exec _ p, hp => fun v x => ⟨(hp v x).1, Quiet.bind (p := p v x) hf (hp v x).2⟩

theorem Quiet.query {P : β → Prop} {g : σ → η → β} (h : ∀ v x, P (g v x)) :
    Quiet P (.query g : Prog ρ σ η ω ε β) := fun v x => ⟨rfl, h v x⟩

theorem Quiet.lockRow {P : Unit → Prop} {r : ρ} (h : P ()) : Quiet P (.lockRow r : Prog ρ σ η ω ε Unit) := h

theorem Quiet.ofExcept {P : α → Prop} : ∀ {x : Except ε α}, (∀ a, x = .ok a → P a) → Quiet P (.ofExcept x : Prog ρ σ η ω ε α)
  | .ok a, h => h a rfl
  | .error _, _ => trivial

theorem Quiet.forM {f : β → Prog ρ σ η ω ε Unit} :
    ∀ {l : List β}, (∀ b ∈ l, Quiet (fun _ => True) (f b)) → Quiet (fun _ => True) (l.forM f)
  | [], _ => trivial
  | b :: _, hf => Quiet.bind (fun _ _ => Quiet.forM fun c hc => hf c (by simp [hc])) (hf b (by simp))

theorem Quiet.mapM' {P : α → Prop} {f : β → Prog ρ σ η ω ε α} :
    ∀ {l : List β}, (∀ b ∈ l, Quiet P (f b)) → Quiet (fun as => ∀ a ∈ as, P a) (l.mapM' f)
  | [], _ => by simp [List.mapM', Quiet, pure]
  | b :: l, hf => by
    refine Quiet.bind (fun a ha => ?_) (hf b (by simp))
    refine Quiet.bind (fun as has => ?_) (Quiet.mapM' (l := l) fun c hc => hf c (by simp [hc]))
    exact List.forall_mem_cons.2 ⟨ha, has⟩

theorem Wp.quiet {P : α → Prop} (hI : Stable T D I) :
    ∀ {p : Prog ρ σ η ω ε α} {H s ws}, Quiet P p → I H s ws → Wp T D (fun a H s ws => I H s ws ∧ P a) p H s ws
  | .done _, _, _, _, hp, hs => fun _ ht => ⟨hI.others_all ht hs, hp⟩
  | .fail _, _, _, _, _, _ => trivial
  | .lock r _, _, _, _, hp, hs => fun _ ht => Wp.quiet hI hp (hI.locks r (hI.others_all ht hs))
  | .exec w p, H, s, ws, hp, hs => by
    intro t ht _ x
    obtain ⟨hw, hp⟩ := hp (T.after ws t) x
    rw [hw, List.append_nil]
    exact ⟨by simp, Wp.quiet hI hp (hI.others_all ht hs)⟩

theorem Wp.quiet_bind {P : β → Prop} {p : Prog ρ σ η ω ε β} {f : β → Prog ρ σ η ω ε α} (hI : Stable T D I) (hp : Quiet P p)
    (hs : I H s ws) (hf : ∀ b H' s, H ⊆ H' → I H' s ws → P b → Wp T D Q (f b) H' s ws) :
    Wp T D Q (p >>= f) H s ws := by
  have hstable : Stable T D fun H' s ws' => H ⊆ H' ∧ ws' = ws ∧ I H' s ws' :=
    ⟨fun ho h => ⟨h.1, h.2.1, hI.others ho h.2.2⟩,
      fun r h => ⟨h.1.trans (Set.subset_insert _ _), h.2.1, hI.locks r h.2.2⟩⟩
  refine Wp.seq (Wp.quiet hstable hp ⟨subset_rfl, rfl, hs⟩) fun b H' s ws' h => ?_
  obtain ⟨⟨hH, rfl, hI'⟩, hb⟩ := h
  exact hf b H' s hH hI' hb

/-! ## A transaction by itself -/

/-- With no other under way, whatever else the database says: no statement is
refused, and `Q` holds of what is returned and of the tables then. -/
def Alone (T : Storage σ ω) (Q : α → σ → Prop) : Prog ρ σ η ω ε α → σ → Prop
  | .done a, v => Q a v
  | .fail _, _ => False
  | .lock _ p, v => Alone T Q p v
  | .exec w p, v => ∀ x, T.unique (T.after (w v x) v) = true ∧ Alone T Q (p v x) (T.after (w v x) v)

section

variable {P : α → σ → Prop} {R : β → σ → Prop} {v : σ}

theorem Alone.mono {P' : α → σ → Prop} (hP : ∀ a v, P a v → P' a v) :
    ∀ {p : Prog ρ σ η ω ε α} {v}, Alone T P p v → Alone T P' p v
  | .done a, v, h => hP a v h
  | .fail _, _, h => h
  | .lock _ p, _, h => Alone.mono (p := p) hP h
  | .exec _ _, _, h => fun x => ⟨(h x).1, Alone.mono hP (h x).2⟩

theorem Alone.bind {f : α → Prog ρ σ η ω ε β} (hf : ∀ a v, P a v → Alone T R (f a) v) :
    ∀ {p : Prog ρ σ η ω ε α} {v}, Alone T P p v → Alone T R (p >>= f) v
  | .done a, v, h => hf a v h
  | .fail _, _, h => h.elim
  | .lock _ p, _, h => Alone.bind (p := p) hf h
  | .exec _ _, _, h => fun x => ⟨(h x).1, Alone.bind hf (h x).2⟩

theorem Alone.query {g : σ → η → β} (hu : T.unique v = true) (h : ∀ x, R (g v x) v) :
    Alone T R (.query g : Prog ρ σ η ω ε β) v := fun x => ⟨hu, h x⟩

theorem Alone.forM {f : β → Prog ρ σ η ω ε Unit} {I : σ → Prop} :
    ∀ {l : List β} {v}, (∀ b ∈ l, ∀ v, I v → Alone T (fun _ => I) (f b) v) → I v → Alone T (fun _ => I) (l.forM f) v
  | [], _, _, hv => hv
  | b :: _, _, hf, hv => Alone.bind (fun _ _ hv => Alone.forM (fun c hc => hf c (by simp [hc])) hv) (hf b (by simp) _ hv)

end

/-! ## Soundness -/

/-- The rows transaction `t` holds. -/
def Cluster.held (S : Cluster ρ σ η ω ε) (t : Nat) : Set ρ := {r | S.holder r = .some t}

/-- Committed tables satisfy the invariant, and every transaction under way has
written under its locks and will commit well whatever the others do. -/
structure Cluster.Safe (T : Storage σ ω) (D : Discipline ρ σ ω) (S : Cluster ρ σ η ω ε) : Prop where
  inv : D.inv S.tables
  guarded : ∀ t tx, S.running t = .some tx → ∀ w ∈ tx.writes, ∀ r, D.guard w r → r ∈ S.held t
  wp : ∀ t tx, S.running t = .some tx → Wp T D (Commits T D) tx.rest (S.held t) S.tables tx.writes

namespace Cluster

theorem held_finish {S : Cluster ρ σ η ω ε} {t u : Nat} {tables : σ} (h : u ≠ t) :
    (S.finish t tables).held u = S.held u := by
  ext r
  simp only [held, finish, Set.mem_ofPred_eq]
  by_cases hr : S.holder r = .some t
  · simp [hr, Ne.symm h]
  · simp [hr]

theorem held_disjoint {S : Cluster ρ σ η ω ε} {t u : Nat} {r : ρ} (h : u ≠ t) (hr : r ∈ S.held t) : r ∉ S.held u := by
  intro hu
  exact h (Option.some.inj (hu.symm.trans hr))

/-- When a transaction ends, what the others knew they still know. -/
theorem Safe.finish {S : Cluster ρ σ η ω ε} {t : Nat} {tables : σ} (h : S.Safe T D) (hinv : D.inv tables)
    (hothers : ∀ u, u ≠ t → Others T D (S.held u) S.tables tables) : (S.finish t tables).Safe T D where
  inv := hinv
  guarded := by
    intro u tx hu
    obtain ⟨hne, hu⟩ : u ≠ t ∧ S.running u = .some tx := by
      by_cases hut : u = t
      · simp [Cluster.finish, hut] at hu
      · simpa [Cluster.finish, hut] using hu
    rw [held_finish hne]
    exact h.guarded u tx hu
  wp := by
    intro u tx hu
    obtain ⟨hne, hu⟩ : u ≠ t ∧ S.running u = .some tx := by
      by_cases hut : u = t
      · simp [Cluster.finish, hut] at hu
      · simpa [Cluster.finish, hut] using hu
    rw [held_finish hne]
    exact Wp.others (hothers u hne) (h.wp u tx hu)

/-- When one transaction moves on and no other's locks change, the others know
what they knew. -/
theorem Safe.update {S : Cluster ρ σ η ω ε} {t : Nat} {tx : Tx ρ σ η ω ε} {holder : ρ → Option Nat} (h : S.Safe T D)
    (hheld : ∀ u, u ≠ t → ∀ r, holder r = .some u ↔ S.holder r = .some u)
    (hguarded : ∀ w ∈ tx.writes, ∀ r, D.guard w r → holder r = .some t)
    (hwp : Wp T D (Commits T D) tx.rest {r | holder r = .some t} S.tables tx.writes) :
    ({ S with holder, running := Function.update S.running t (.some tx) } : Cluster ρ σ η ω ε).Safe T D where
  inv := h.inv
  guarded := by
    intro u ty hu
    by_cases hut : u = t
    · subst hut
      obtain rfl : tx = ty := by simpa using hu
      exact hguarded
    · have hu : S.running u = .some ty := by simpa [hut] using hu
      exact fun w hw r hr => (hheld u hut r).2 (h.guarded u ty hu w hw r hr)
  wp := by
    intro u ty hu
    by_cases hut : u = t
    · subst hut
      obtain rfl : tx = ty := by simpa using hu
      exact hwp
    · have hu : S.running u = .some ty := by simpa [hut] using hu
      have hset : ({ S with holder, running := Function.update S.running t (.some tx) } : Cluster ρ σ η ω ε).held u =
          S.held u := Set.ext fun r => hheld u hut r
      rw [hset]
      exact h.wp u ty hu

/-- Good tables and no transaction under way. -/
structure Idle (D : Discipline ρ σ ω) (S : Cluster ρ σ η ω ε) : Prop where
  inv : D.inv S.tables
  holder : ∀ r, S.holder r = .none
  running : ∀ t, S.running t = .none

theorem Idle.safe {S : Cluster ρ σ η ω ε} (h : Idle D S) : S.Safe T D where
  inv := h.inv
  guarded t tx ht := by simp [h.running t] at ht
  wp t tx ht := by simp [h.running t] at ht

variable [DecidableEq ρ] {program : κ → Prog ρ σ η ω ε Unit} {S S' : Cluster ρ σ η ω ε} {e : Event κ η}

/-- One step keeps `Safe`, and undoes nothing a commit may not undo. -/
theorem Safe.next (hrefl : ∀ s, D.keeps s s)
    (hprogram : ∀ c H s, D.inv s → Wp T D (Commits T D) (program c) H s [])
    (h : S.Safe T D) (hs : S.next T program e = .some S') : S'.Safe T D ∧ D.keeps S.tables S'.tables := by
  cases e with
  | start t c =>
    simp only [Cluster.next] at hs
    split at hs
    next =>
      obtain rfl := Option.some.inj hs
      exact ⟨h.update (fun _ _ _ => Iff.rfl) (by simp) (hprogram c _ _ h.inv), hrefl _⟩
    next => cases hs
  | lock t =>
    simp only [Cluster.next] at hs
    split at hs
    next ws r p htx =>
      split at hs
      next hfree =>
        obtain rfl := Option.some.inj hs
        have hwp := h.wp t _ htx S.tables .refl
        have hset : {q | Function.update S.holder r (.some t) q = .some t} = insert r (S.held t) := by
          ext q
          by_cases hq : q = r <;> simp [hq, held]
        refine ⟨h.update ?_ ?_ (hset ▸ hwp), hrefl _⟩
        · intro u hu q
          by_cases hq : q = r
          · subst hq
            rcases hfree with hfree | hfree <;> simp [hfree, Ne.symm hu]
          · simp [hq]
        · intro w hw q hq
          have hmem : q ∈ insert r (S.held t) := Set.mem_insert_of_mem _ (h.guarded t _ htx w hw q hq)
          rwa [← hset] at hmem
      next => cases hs
    next => cases hs
  | exec t x =>
    simp only [Cluster.next] at hs
    split at hs
    next ws w p htx =>
      split at hs
      next hu =>
        obtain rfl := Option.some.inj hs
        simp only [Bool.and_eq_true] at hu
        obtain ⟨hguard, hwp⟩ := h.wp t _ htx S.tables .refl hu.1 x
        refine ⟨h.update (fun _ _ _ => Iff.rfl) ?_ hwp, hrefl _⟩
        intro v hv r hr
        rcases List.mem_append.1 hv with hv | hv
        · exact h.guarded t _ htx v hv r hr
        · exact hguard v hv r hr
      next => cases hs
    next => cases hs
  | commit t =>
    simp only [Cluster.next] at hs
    split at hs
    next ws htx =>
      split at hs
      next hu =>
        obtain rfl := Option.some.inj hs
        simp only [Bool.and_eq_true] at hu
        have hcommits : Commits T D () (S.held t) S.tables ws := h.wp t _ htx S.tables .refl
        obtain ⟨hinv, hkeeps⟩ := hcommits hu.1 hu.2
        refine ⟨h.finish hinv fun u hut => .single ⟨hinv, hkeeps, ws, ?_, rfl⟩, hkeeps⟩
        exact fun w hw r hr => held_disjoint hut (h.guarded t _ htx w hw r hr)
      next => cases hs
    next => cases hs
  | abort t =>
    simp only [Cluster.next] at hs
    split at hs
    next =>
      obtain rfl := Option.some.inj hs
      exact ⟨h.finish h.inv fun _ _ => .refl, hrefl _⟩
    next => cases hs

/-- The clusters the programs run in, from idle ones. -/
def system (T : Storage σ ω) (D : Discipline ρ σ ω) (program : κ → Prog ρ σ η ω ε Unit) :
    System (Cluster ρ σ η ω ε) (Event κ η) := System.ofFun (Idle D) (Cluster.next T program)

theorem system_step : (system T D program).step S e S' ↔ S.next T program e = .some S' := Iff.rfl

section

variable (hrefl : ∀ s, D.keeps s s) (hprogram : ∀ c H s, D.inv s → Wp T D (Commits T D) (program c) H s [])
include hrefl hprogram

theorem reachable_safe (h : (system T D program).Reachable S) : S.Safe T D :=
  System.Reachable.invariant (fun _ hs => Idle.safe hs) (fun _ _ _ hs hI => (Safe.next hrefl hprogram hI (system_step.1 hs)).1) h

/-- **The invariant of committed tables holds in every reachable cluster.** -/
theorem reachable_inv (h : (system T D program).Reachable S) : D.inv S.tables :=
  (reachable_safe hrefl hprogram h).inv

/-- **Between two states of a run, nothing is undone that a commit keeps.** -/
theorem run_keeps (htrans : ∀ s t u, D.keeps s t → D.keeps t u → D.keeps s u)
    (h : (system T D program).Reachable S) {tr} (hr : (system T D program).Run S tr) :
    D.keeps S.tables (last S tr).tables := by
  induction tr generalizing S with
  | nil => exact hrefl _
  | cons x tr ih =>
    have hstep := Safe.next hrefl hprogram (reachable_safe hrefl hprogram h) (system_step.1 hr.1)
    exact htrans _ _ _ hstep.2 (ih (h.step hr.1) hr.2)

end

end Cluster

end RowLocks
