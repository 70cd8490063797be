/-
`ORDER BY` over nullable columns, and reading a sorted relation page by page.

A key reads a column of a row and has a direction. Nulls are the greatest
values of a column: last when it ascends, first when it descends. Rows compare
by the first key they differ on (`precedes_iff`). That is a strict order, total
on rows that no two keys tell apart only when they are one row, so there the
sorted relation is determined (`orderBy_filter`) and what follows one of its
rows is what the order puts after it (`filter_precedes`).
-/
import Mathlib.Data.List.Sort
import Mathlib.Order.WithBot

namespace Sql

inductive Direction
  | asc
  | desc
  deriving DecidableEq, Repr

/-- One term of an `ORDER BY`. -/
structure Key (ρ K : Type*) where
  value : ρ → Option K
  direction : Direction

variable {ρ K : Type*}

/-- A column's values with null as the greatest. -/
def nullsLast (v : Option K) : WithTop K := v

theorem nullsLast_injective : Function.Injective (nullsLast : Option K → WithTop K) := fun _ _ h => h

section Order

variable [LinearOrder K]

@[simp] theorem nullsLast_lt_some {a b : K} : nullsLast (.some a) < nullsLast (.some b) ↔ a < b :=
  WithTop.coe_lt_coe

/-- The key puts `a` strictly before `b`. -/
def Key.Before (key : Key ρ K) (a b : ρ) : Prop :=
  match key.direction with
  | .asc => nullsLast (key.value a) < nullsLast (key.value b)
  | .desc => nullsLast (key.value b) < nullsLast (key.value a)

instance (key : Key ρ K) (a b : ρ) : Decidable (key.Before a b) := by
  unfold Key.Before
  split <;> infer_instance

theorem Key.Before.irrefl (key : Key ρ K) (a : ρ) : ¬ key.Before a a := by
  unfold Key.Before
  split <;> exact lt_irrefl _

theorem Key.Before.trans {key : Key ρ K} {a b c : ρ} (hab : key.Before a b) (hbc : key.Before b c) :
    key.Before a c := by
  unfold Key.Before at *
  cases hd : key.direction with
  | asc => rw [hd] at hab hbc; exact lt_trans hab hbc
  | desc => rw [hd] at hab hbc; exact lt_trans hbc hab

theorem Key.before_total (key : Key ρ K) (a b : ρ) :
    key.Before a b ∨ key.value a = key.value b ∨ key.Before b a := by
  unfold Key.Before
  cases key.direction with
  | asc => exact (lt_trichotomy _ _).imp_right (Or.imp_left fun h => nullsLast_injective h)
  | desc =>
    rcases lt_trichotomy (nullsLast (key.value a)) (nullsLast (key.value b)) with h | h | h
    · exact .inr (.inr h)
    · exact .inr (.inl (nullsLast_injective h))
    · exact .inl h

/-- `a` comes strictly before `b`: the first key they differ on decides. -/
def Precedes : List (Key ρ K) → ρ → ρ → Prop
  | [], _, _ => False
  | key :: keys, a, b => key.Before a b ∨ key.value a = key.value b ∧ Precedes keys a b

instance : (keys : List (Key ρ K)) → (a b : ρ) → Decidable (Precedes keys a b)
  | [], _, _ => inferInstanceAs (Decidable False)
  | key :: keys, a, b =>
    have : Decidable (Precedes keys a b) := instDecidablePrecedes keys a b
    inferInstanceAs (Decidable (key.Before a b ∨ key.value a = key.value b ∧ Precedes keys a b))

theorem Precedes.irrefl (keys : List (Key ρ K)) (a : ρ) : ¬ Precedes keys a a := by
  induction keys with
  | nil => exact id
  | cons key keys ih =>
    rintro (h | ⟨-, h⟩)
    · exact Key.Before.irrefl key a h
    · exact ih h

theorem Precedes.trans {keys : List (Key ρ K)} {a b c : ρ} (hab : Precedes keys a b) (hbc : Precedes keys b c) :
    Precedes keys a c := by
  induction keys with
  | nil => exact hab
  | cons key keys ih =>
    rcases hab with hab | ⟨eab, hab⟩ <;> rcases hbc with hbc | ⟨ebc, hbc⟩
    · exact .inl (hab.trans hbc)
    · left
      unfold Key.Before at hab ⊢
      rwa [← ebc]
    · left
      unfold Key.Before at hbc ⊢
      rwa [eab]
    · exact .inr ⟨eab.trans ebc, ih hab hbc⟩

theorem Precedes.asymm {keys : List (Key ρ K)} {a b : ρ} (hab : Precedes keys a b) : ¬ Precedes keys b a :=
  fun hba => Precedes.irrefl keys a (hab.trans hba)

/-- Two rows are in order one way or the other, or no key tells them apart. -/
theorem precedes_total (keys : List (Key ρ K)) (a b : ρ) :
    Precedes keys a b ∨ (∀ key ∈ keys, key.value a = key.value b) ∨ Precedes keys b a := by
  induction keys with
  | nil => exact .inr (.inl fun _ h => absurd h List.not_mem_nil)
  | cons key keys ih =>
    rcases key.before_total a b with h | heq | h
    · exact .inl (.inl h)
    · rcases ih with h | hall | h
      · exact .inl (.inr ⟨heq, h⟩)
      · exact .inr (.inl (List.forall_mem_cons.2 ⟨heq, hall⟩))
      · exact .inr (.inr (.inr ⟨heq.symm, h⟩))
    · exact .inr (.inr (.inl h))

theorem Precedes.congr_left {keys : List (Key ρ K)} {a b c : ρ} (hab : ∀ key ∈ keys, key.value a = key.value b)
    (hbc : Precedes keys b c) : Precedes keys a c := by
  induction keys with
  | nil => exact hbc
  | cons key keys ih =>
    rw [List.forall_mem_cons] at hab
    rcases hbc with hbc | ⟨ebc, hbc⟩
    · left
      unfold Key.Before at hbc ⊢
      rwa [hab.1]
    · exact .inr ⟨hab.1.trans ebc, ih hab.2 hbc⟩

/-- The order, key by key: at some key `a` is before `b`, and the earlier keys are equal. -/
theorem precedes_iff (keys : List (Key ρ K)) (a b : ρ) :
    Precedes keys a b ↔
      ∃ earlier key later, keys = earlier ++ key :: later ∧ (∀ k ∈ earlier, k.value a = k.value b) ∧
        key.Before a b := by
  induction keys with
  | nil => simp [Precedes]
  | cons key keys ih =>
    constructor
    · rintro (h | ⟨heq, h⟩)
      · exact ⟨[], key, keys, rfl, by simp, h⟩
      · obtain ⟨earlier, k, later, rfl, hall, hk⟩ := ih.1 h
        exact ⟨key :: earlier, k, later, rfl, List.forall_mem_cons.2 ⟨heq, hall⟩, hk⟩
    · rintro ⟨earlier, k, later, heq, hall, hk⟩
      cases earlier with
      | nil =>
        cases heq
        exact .inl hk
      | cons first earlier =>
        cases heq
        rw [List.forall_mem_cons] at hall
        exact .inr ⟨hall.1, ih.2 ⟨earlier, k, later, rfl, hall.2, hk⟩⟩

/-! ## Sorted relations -/

/-- `ORDER BY keys`. Rows no key tells apart keep the order they came in,
which a statement does not promise. -/
def orderBy (keys : List (Key ρ K)) (rows : List ρ) : List ρ :=
  rows.insertionSort fun a b => ¬ Precedes keys b a

theorem perm_orderBy (keys : List (Key ρ K)) (rows : List ρ) : (orderBy keys rows).Perm rows :=
  List.perm_insertionSort _ rows

theorem pairwise_orderBy (keys : List (Key ρ K)) (rows : List ρ) :
    (orderBy keys rows).Pairwise fun a b => ¬ Precedes keys b a := by
  have : Std.Total fun a b : ρ => ¬ Precedes keys b a := ⟨fun a b => by
    by_cases h : Precedes keys b a
    · exact .inr h.asymm
    · exact .inl h⟩
  have : IsTrans ρ fun a b => ¬ Precedes keys b a := ⟨fun a b c hab hbc hca => by
    rcases precedes_total keys b c with h | hall | h
    · exact hab (h.trans hca)
    · exact hab (hca.congr_left hall)
    · exact hbc h⟩
  exact List.pairwise_insertionSort _ rows

/-- No two of the rows agree on every key. -/
def Distinguished (keys : List (Key ρ K)) (rows : List ρ) : Prop :=
  rows.Pairwise fun a b => ∃ key ∈ keys, key.value a ≠ key.value b

omit [LinearOrder K] in
theorem Distinguished.of_perm {keys : List (Key ρ K)} {rows rows' : List ρ} (h : Distinguished keys rows)
    (hp : rows'.Perm rows) : Distinguished keys rows' :=
  (hp.pairwise_iff fun ⟨key, hk, hne⟩ => ⟨key, hk, hne.symm⟩).2 h

/-- The sorted relation: each row strictly precedes the later ones. -/
theorem Distinguished.precedes_orderBy {keys : List (Key ρ K)} {rows : List ρ} (h : Distinguished keys rows) :
    (orderBy keys rows).Pairwise (Precedes keys) := by
  refine ((pairwise_orderBy keys rows).and (h.of_perm (perm_orderBy keys rows))).imp ?_
  rintro a b ⟨hle, key, hkey, hne⟩
  rcases precedes_total keys a b with hlt | hall | hlt
  · exact hlt
  · exact absurd (hall key hkey) hne
  · exact absurd hlt hle

theorem eq_of_precedes {keys : List (Key ρ K)} {l l' : List ρ} (hp : l.Perm l') (hl : l.Pairwise (Precedes keys))
    (hl' : l'.Pairwise (Precedes keys)) : l = l' :=
  hp.eq_of_pairwise (fun _ _ _ _ hab hba => absurd hba hab.asymm) hl hl'

theorem Distinguished.orderBy_filter {keys : List (Key ρ K)} {rows : List ρ} (h : Distinguished keys rows)
    (p : ρ → Bool) : orderBy keys (rows.filter p) = (orderBy keys rows).filter p := by
  have hfilter : Distinguished keys (rows.filter p) := List.Pairwise.filter p h
  refine eq_of_precedes ?_ hfilter.precedes_orderBy (h.precedes_orderBy.filter p)
  exact (perm_orderBy keys _).trans ((perm_orderBy keys rows).filter p).symm

/-- What comes after a row of a sorted relation is what the order puts there. -/
theorem filter_precedes {keys : List (Key ρ K)} {before after : List ρ} {row : ρ}
    (h : (before ++ row :: after).Pairwise (Precedes keys)) :
    (before ++ row :: after).filter (fun b => decide (Precedes keys row b)) = after := by
  obtain ⟨-, hafter, hbefore⟩ := List.pairwise_append.1 h
  rw [List.pairwise_cons] at hafter
  have hnone : before.filter (fun b => decide (Precedes keys row b)) = [] := by
    rw [List.filter_eq_nil_iff]
    intro b hb hlt
    exact (hbefore b hb row List.mem_cons_self).asymm (of_decide_eq_true hlt)
  have hall : after.filter (fun b => decide (Precedes keys row b)) = after := by
    rw [List.filter_eq_self]
    intro b hb
    exact decide_eq_true (hafter.1 b hb)
  rw [List.filter_append, List.filter_cons_of_neg (by simpa using Precedes.irrefl keys row), hnone, hall,
    List.nil_append]

end Order

/-! ## Pages -/

section Pages

variable {β : Type*}

/-- The page of a query fetched with `LIMIT limit + 1`, and where the next one
goes on when more was fetched than the page takes. -/
def pageOf (cursor : ρ → β) (limit : Nat) (rows : List ρ) : List ρ × Option β :=
  let fetched := rows.take (limit + 1)
  let page := fetched.take limit
  (page, if limit < fetched.length then page.getLast?.map cursor else .none)

/-- Fetches pages, each from the cursor the one before gave, to the one that
gives none. -/
def pages (fetch : Option β → Option (List ρ × Option β)) : Nat → Option β → Option (List (List ρ))
  | 0, _ => .none
  | fuel + 1, after =>
    match fetch after with
    | .none => .none
    | .some (page, .none) => .some [page]
    | .some (page, .some next) => (pages fetch fuel (.some next)).map (page :: ·)

theorem pageOf_eq (cursor : ρ → β) (limit : Nat) (rows : List ρ) :
    pageOf cursor limit rows =
      (rows.take limit, if limit < rows.length then (rows.take limit).getLast?.map cursor else .none) := by
  unfold pageOf
  simp only [List.take_take, List.length_take]
  have hmin : min limit (limit + 1) = limit := by omega
  have hlt : limit < min (limit + 1) rows.length ↔ limit < rows.length := by omega
  simp only [hmin, hlt]

/-- The last page takes all rows; any other ends in a row it goes on after. -/
theorem pageOf_cases (cursor : ρ → β) {limit : Nat} (hlimit : 1 ≤ limit) (rows : List ρ) :
    pageOf cursor limit rows = (rows, .none) ∨
      ∃ init row rest, rows = init ++ row :: rest ∧
        pageOf cursor limit rows = (init ++ [row], .some (cursor row)) := by
  rw [pageOf_eq]
  by_cases h : limit < rows.length
  · right
    have hne : rows.take limit ≠ [] := by
      intro he
      have := congrArg List.length he
      simp only [List.length_take, List.length_nil] at this
      omega
    refine ⟨(rows.take limit).dropLast, (rows.take limit).getLast hne, rows.drop limit, ?_, ?_⟩
    · rw [List.append_cons, List.dropLast_append_getLast hne, List.take_append_drop]
    · rw [List.dropLast_append_getLast hne, if_pos h, List.getLast?_eq_some_getLast hne]
      rfl
  · left
    rw [if_neg h, List.take_of_length_le (by omega)]

/-- Pages that each give the rows after the one their cursor was made from give
every row once and in order. -/
theorem pages_flatten {fetch : Option β → Option (List ρ × Option β)} {cursor : ρ → β} {limit : Nat}
    (hlimit : 1 ≤ limit) {sorted : List ρ} (hfirst : fetch .none = .some (pageOf cursor limit sorted))
    (hnext : ∀ before row after, sorted = before ++ row :: after →
      fetch (.some (cursor row)) = .some (pageOf cursor limit after))
    {fuel : Nat} (hfuel : sorted.length < fuel) :
    ∃ l, pages fetch fuel .none = .some l ∧ l.flatten = sorted := by
  -- The rows not yet read are a suffix of the sorted ones, and shrink.
  have hread : ∀ fuel before rest after, sorted = before ++ rest → fetch after = .some (pageOf cursor limit rest) →
      rest.length < fuel → ∃ l, pages fetch fuel after = .some l ∧ l.flatten = rest := by
    intro fuel
    induction fuel with
    | zero => intro _ _ _ _ _ hlen; omega
    | succ fuel ih =>
      intro before rest after hsorted hfetch hlen
      rcases pageOf_cases cursor hlimit rest with hpage | ⟨init, row, rest', rfl, hpage⟩
      · exact ⟨[rest], by simp [pages, hfetch, hpage], by simp⟩
      · have hsplit : sorted = (before ++ init) ++ row :: rest' := by rw [hsorted, List.append_assoc]
        have hlen' : rest'.length < fuel := by
          simp only [List.length_append, List.length_cons] at hlen
          omega
        obtain ⟨l, hl, hflat⟩ := ih (before ++ init ++ [row]) rest' _
          (by rw [hsplit, List.append_cons]) (hnext _ _ _ hsplit) hlen'
        exact ⟨(init ++ [row]) :: l, by simp [pages, hfetch, hpage, hl], by simp [hflat]⟩
  exact hread fuel [] sorted .none rfl hfirst hfuel

end Pages

end Sql
