/-
Tables with a primary key: rows with pairwise distinct keys, and the
statements that read and write them.

`insert?` refuses a row whose key is present (a unique violation),
`updateWhere` rewrites the rows a predicate selects and keeps their keys,
`deleteWhere` drops the selected rows. Each has its lemma about the rows it
leaves and about `sumBy`, the sum of a column over selected rows, and
`sum_groups` adds a column up group by group.
-/
import Mathlib.Data.List.Nodup
import Mathlib.Algebra.Order.BigOperators.Group.List
import Mathlib.Algebra.Order.Ring.Nat

namespace Relational

universe u v

/-- Rows of which no two share a key. -/
@[ext] structure Table (α : Type u) {κ : Type v} (key : α → κ) where
  rows : List α
  nodup : (rows.map key).Nodup

namespace Table

variable {α : Type u} {κ : Type v} {key : α → κ}

instance : Inhabited (Table α key) := ⟨⟨[], by simp⟩⟩

/-- The table with no rows. -/
def empty : Table α key := ⟨[], by simp⟩

@[simp] theorem rows_empty : (empty : Table α key).rows = [] := rfl

theorem eq_of_key {t : Table α key} {a b : α} (ha : a ∈ t.rows) (hb : b ∈ t.rows)
    (h : key a = key b) : a = b :=
  List.inj_on_of_nodup_map t.nodup ha hb h

theorem rows_nodup (t : Table α key) : t.rows.Nodup := t.nodup.of_map key

/-- A first element in an order. -/
def firstBy (le : α → α → Bool) : List α → Option α
  | [] => .none
  | a :: l => match firstBy le l with
    | .none => .some a
    | .some b => if le a b then .some a else .some b

/-- `SELECT … WHERE p ORDER BY le LIMIT 1`. -/
def first? (t : Table α key) (p : α → Bool) (le : α → α → Bool) : Option α := firstBy le (t.rows.filter p)

section Statements

variable [DecidableEq κ]

/-- `SELECT … WHERE key = k`. -/
def find? (t : Table α key) (k : κ) : Option α := t.rows.find? fun a => key a = k

/-- `INSERT`, which fails when the key is taken. -/
def insert? (t : Table α key) (a : α) : Option (Table α key) :=
  if h : key a ∈ t.rows.map key then .none
  else .some ⟨a :: t.rows, by rw [List.map_cons]; exact List.nodup_cons.2 ⟨h, t.nodup⟩⟩

/-- `UPDATE … SET f WHERE p`, for an `f` that leaves the key alone. -/
def updateWhere (t : Table α key) (p : α → Bool) (f : α → α)
    (hf : ∀ a, key (f a) = key a := by intro _; rfl) : Table α key :=
  ⟨t.rows.map fun a => if p a then f a else a, by
    have h : (key ∘ fun a => if p a then f a else a) = key := by
      funext a; simp only [Function.comp_apply]; split <;> simp [hf]
    rw [List.map_map, h]; exact t.nodup⟩

/-- `DELETE … WHERE p`. -/
def deleteWhere (t : Table α key) (p : α → Bool) : Table α key :=
  ⟨t.rows.filter fun a => !p a, t.nodup.sublist (List.filter_sublist.map key)⟩

/-- `SELECT COALESCE(SUM(w), 0) … WHERE p`. -/
def sumBy (t : Table α key) (p : α → Bool) (w : α → Nat) : Nat := ((t.rows.filter p).map w).sum

/-- The row under its key, whether there was one or not. -/
def put (t : Table α key) (a : α) : Table α key :=
  ⟨a :: t.rows.filter fun b => !decide (key b = key a), by
    rw [List.map_cons, List.nodup_cons]
    refine ⟨fun h => ?_, t.nodup.sublist (List.filter_sublist.map key)⟩
    obtain ⟨b, hb, hk⟩ := List.mem_map.1 h
    simpa [hk] using (List.mem_filter.1 hb).2⟩

/-! ## Lookups -/

theorem find?_eq_some {t : Table α key} {k : κ} {a : α} :
    t.find? k = .some a ↔ a ∈ t.rows ∧ key a = k := by
  constructor
  · intro h
    have hk := List.find?_some h
    exact ⟨List.mem_of_find?_eq_some h, by simpa using hk⟩
  · rintro ⟨ha, hk⟩
    cases hb : t.find? k with
    | none => simp only [find?, List.find?_eq_none, decide_eq_true_eq] at hb; exact absurd hk (hb a ha)
    | some b =>
      have hkb := List.find?_some hb
      simp only [decide_eq_true_eq] at hkb
      rw [eq_of_key ha (List.mem_of_find?_eq_some hb) (hk.trans hkb.symm)]

theorem find?_eq_none {t : Table α key} {k : κ} : t.find? k = .none ↔ ∀ a ∈ t.rows, key a ≠ k := by
  simp [find?, List.find?_eq_none]

theorem find?_of_mem {t : Table α key} {a : α} (h : a ∈ t.rows) : t.find? (key a) = .some a :=
  find?_eq_some.2 ⟨h, rfl⟩

theorem insert?_eq_some {t t' : Table α key} {a : α} :
    t.insert? a = .some t' ↔ t.find? (key a) = .none ∧ t'.rows = a :: t.rows := by
  unfold insert?
  split
  · rename_i h
    simp only [reduceCtorEq, find?_eq_none, false_iff, not_and]
    obtain ⟨b, hb, hk⟩ := List.mem_map.1 h
    exact fun hn => absurd hk (hn b hb)
  · rename_i h
    simp only [Option.some.injEq, find?_eq_none]
    constructor
    · rintro rfl
      exact ⟨fun b hb hk => h (List.mem_map.2 ⟨b, hb, hk⟩), rfl⟩
    · rintro ⟨-, hr⟩
      cases t'
      simp_all

theorem insert?_eq_none {t : Table α key} {a : α} :
    t.insert? a = .none ↔ ∃ b, t.find? (key a) = .some b := by
  unfold insert?
  split
  · rename_i h
    obtain ⟨b, hb, hk⟩ := List.mem_map.1 h
    exact ⟨fun _ => ⟨b, find?_eq_some.2 ⟨hb, hk⟩⟩, fun _ => rfl⟩
  · rename_i h
    simp only [reduceCtorEq, false_iff, not_exists]
    intro b hb
    obtain ⟨hm, hk⟩ := find?_eq_some.1 hb
    exact h (List.mem_map.2 ⟨b, hm, hk⟩)

theorem find?_insert? {t t' : Table α key} {a : α} (h : t.insert? a = .some t') (k : κ) :
    t'.find? k = if key a = k then .some a else t.find? k := by
  obtain ⟨-, hr⟩ := insert?_eq_some.1 h
  simp only [find?, hr, List.find?_cons]
  by_cases hk : key a = k <;> simp [hk]

theorem find?_put (t : Table α key) (a : α) (k : κ) :
    (t.put a).find? k = if key a = k then .some a else t.find? k := by
  by_cases hk : key a = k
  · simp [find?, put, hk]
  · simp only [find?, put, List.find?_cons, hk, decide_false, if_false, List.find?_filter]
    congr 1
    funext b
    by_cases hb : key b = k
    · simp [hb, Ne.symm hk]
    · simp [hb]

omit [DecidableEq κ] in
theorem mem_updateWhere {t : Table α key} {p : α → Bool} {f : α → α} {hf} {b : α} :
    b ∈ (t.updateWhere p f hf).rows ↔ ∃ a ∈ t.rows, (if p a then f a else a) = b := List.mem_map

omit [DecidableEq κ] in
theorem updateWhere_eq_self {t : Table α key} {p : α → Bool} {f : α → α} (hf)
    (h : ∀ a ∈ t.rows, p a = true → f a = a) : t.updateWhere p f hf = t := by
  refine Table.ext ((List.map_congr_left fun a ha => ?_).trans (List.map_id t.rows))
  cases hp : p a with
  | true => simp [h a ha hp]
  | false => simp

theorem find?_updateWhere {t : Table α key} {p : α → Bool} {f : α → α} {hf} (k : κ) :
    (t.updateWhere p f hf).find? k = (t.find? k).map fun a => if p a then f a else a := by
  have h : ∀ a, key (if p a then f a else a) = key a := fun a => by split <;> simp [hf]
  simp only [find?, updateWhere, List.find?_map]
  congr 1
  simp only [Function.comp_def, h]

omit [DecidableEq κ] in
theorem mem_deleteWhere {t : Table α key} {p : α → Bool} {a : α} :
    a ∈ (t.deleteWhere p).rows ↔ a ∈ t.rows ∧ p a = false := by
  simp [deleteWhere, List.mem_filter]

omit [DecidableEq κ] in
theorem deleteWhere_comm (t : Table α key) (p q : α → Bool) :
    (t.deleteWhere p).deleteWhere q = (t.deleteWhere q).deleteWhere p := by
  refine Table.ext ?_
  show List.filter _ (List.filter _ _) = List.filter _ (List.filter _ _)
  rw [List.filter_filter, List.filter_filter]
  exact List.filter_congr fun a _ => Bool.and_comm _ _

theorem firstBy_mem {le : α → α → Bool} {a : α} : ∀ {l : List α}, firstBy le l = .some a → a ∈ l
  | [], h => by cases h
  | b :: l, h => by
    unfold firstBy at h
    split at h
    · obtain rfl := Option.some.inj h
      exact List.mem_cons_self
    · rename_i c hc
      split at h
      · obtain rfl := Option.some.inj h
        exact List.mem_cons_self
      · obtain rfl := Option.some.inj h
        exact List.mem_cons_of_mem _ (firstBy_mem hc)

omit [DecidableEq κ] in
theorem first?_eq_some {t : Table α key} {p le} {a : α} (h : t.first? p le = .some a) :
    a ∈ t.rows ∧ p a = true := List.mem_filter.1 (firstBy_mem h)

/-! ## Sums -/

omit [DecidableEq κ] in
@[simp] theorem sumBy_empty (p : α → Bool) (w : α → Nat) : (empty : Table α key).sumBy p w = 0 := rfl

theorem sumBy_insert? {t t' : Table α key} {a : α} (h : t.insert? a = .some t') (p : α → Bool)
    (w : α → Nat) : t'.sumBy p w = (if p a then w a else 0) + t.sumBy p w := by
  obtain ⟨-, hr⟩ := insert?_eq_some.1 h
  simp only [sumBy, hr, List.filter_cons]
  split <;> simp

omit [DecidableEq κ] in
theorem sumBy_congr {t : Table α key} {p q : α → Bool} {w : α → Nat}
    (h : ∀ a ∈ t.rows, p a = q a) : t.sumBy p w = t.sumBy q w := by
  simp only [sumBy]; rw [List.filter_congr h]

omit [DecidableEq κ] in
theorem sumBy_congr_rows {t t' : Table α key} {p : α → Bool} {w : α → Nat}
    (h : ∀ a, p a = true → (a ∈ t.rows ↔ a ∈ t'.rows)) : t.sumBy p w = t'.sumBy p w := by
  have hperm : (t.rows.filter p).Perm (t'.rows.filter p) := by
    refine (List.perm_ext_iff_of_nodup (t.rows_nodup.filter p) (t'.rows_nodup.filter p)).2 fun a => ?_
    rw [List.mem_filter, List.mem_filter]
    exact and_congr_left (h a)
  exact (hperm.map w).sum_eq

omit [DecidableEq κ] in
theorem sumBy_mono {t : Table α key} {p q : α → Bool} {w : α → Nat}
    (h : ∀ a ∈ t.rows, p a = true → q a = true) : t.sumBy p w ≤ t.sumBy q w := by
  obtain ⟨rows, hnd⟩ := t
  simp only [sumBy] at h ⊢
  clear hnd
  induction rows with
  | nil => exact Nat.le_refl _
  | cons a l ih =>
    have hl := ih fun b hb => h b (by simp [hb])
    simp only [List.filter_cons]
    cases hp : p a with
    | true => simp only [h a (by simp) hp, if_true, List.map_cons, List.sum_cons]; omega
    | false =>
      simp only [Bool.false_eq_true, if_false]
      split
      · simp only [List.map_cons, List.sum_cons]; omega
      · exact hl

omit [DecidableEq κ] in
theorem sumBy_deleteWhere (t : Table α key) (d p : α → Bool) (w : α → Nat) :
    (t.deleteWhere d).sumBy p w = t.sumBy (fun a => p a && !d a) w := by
  simp only [sumBy, deleteWhere, List.filter_filter]

omit [DecidableEq κ] in
theorem sumBy_deleteWhere_le {t : Table α key} {d p : α → Bool} {w : α → Nat} :
    (t.deleteWhere d).sumBy p w ≤ t.sumBy p w := by
  rw [sumBy_deleteWhere]
  refine sumBy_mono fun a _ hp => ?_
  simp only [Bool.and_eq_true] at hp
  exact hp.1

omit [DecidableEq κ] in
theorem sumBy_le_deleteWhere {t : Table α key} {d p q : α → Bool} {w : α → Nat}
    (h : ∀ a ∈ t.rows, p a = true → q a = true ∧ d a = false) : t.sumBy p w ≤ (t.deleteWhere d).sumBy q w := by
  rw [sumBy_deleteWhere]
  exact sumBy_mono fun a ha hp => by rw [(h a ha hp).1, (h a ha hp).2]; rfl

omit [DecidableEq κ] in
theorem sumBy_deleteWhere_add (t : Table α key) (d p : α → Bool) (w : α → Nat) :
    (t.deleteWhere d).sumBy p w + t.sumBy (fun a => p a && d a) w = t.sumBy p w := by
  simp only [sumBy, deleteWhere]
  induction t.rows with
  | nil => rfl
  | cons a l ih =>
    cases hd : d a <;> cases hp : p a <;>
      simp_all only [List.filter_cons, List.map_cons, List.sum_cons, Bool.not_false, Bool.not_true,
        Bool.and_true, Bool.and_false, Bool.false_eq_true, if_true, if_false] <;> omega

omit [DecidableEq κ] in
theorem sumBy_eq_zero {t : Table α key} {p : α → Bool} {w : α → Nat}
    (h : ∀ a ∈ t.rows, p a = true → w a = 0) : t.sumBy p w = 0 := by
  refine List.sum_eq_zero fun x hx => ?_
  obtain ⟨a, ha, rfl⟩ := List.mem_map.1 hx
  obtain ⟨ha, hp⟩ := List.mem_filter.1 ha
  exact h a ha hp

omit [DecidableEq κ] in
theorem le_sumBy {t : Table α key} {p : α → Bool} {w : α → Nat} {a : α} (ha : a ∈ t.rows) (hp : p a = true) :
    w a ≤ t.sumBy p w :=
  List.le_sum_of_mem (List.mem_map_of_mem (List.mem_filter.2 ⟨ha, hp⟩))

theorem sumBy_key {t : Table α key} {k : κ} {p : α → Bool} {w : α → Nat}
    (hp : ∀ a ∈ t.rows, p a = true → key a = k) :
    t.sumBy p w = match t.find? k with
      | .some a => if p a then w a else 0
      | .none => 0 := by
  cases h : t.find? k with
  | none => exact sumBy_eq_zero fun a ha hpa => absurd (hp a ha hpa) (find?_eq_none.1 h a ha)
  | some a =>
    obtain ⟨ha, hk⟩ := find?_eq_some.1 h
    have hrest : ∀ b ∈ t.rows, p b = true → b = a := fun b hb hpb =>
      eq_of_key hb ha ((hp b hb hpb).trans hk.symm)
    obtain ⟨l₁, l₂, hl⟩ := List.append_of_mem ha
    have hnd := t.rows_nodup
    rw [hl, List.nodup_append] at hnd
    have h₁ : l₁.filter p = [] := List.filter_eq_nil_iff.2 fun b hb hpb =>
      hnd.2.2 b hb a (by simp) (hrest b (by simp [hl, hb]) hpb)
    have h₂ : l₂.filter p = [] := List.filter_eq_nil_iff.2 fun b hb hpb => by
      have := hrest b (by simp [hl, hb]) hpb
      subst this
      exact (List.nodup_cons.1 hnd.2.1).1 hb
    simp only [sumBy, hl, List.filter_append, h₁, List.nil_append, List.filter_cons, h₂]
    split <;> simp

/-- Putting a row adds its share to a sum, and takes the replaced row's off. -/
theorem sumBy_put (t : Table α key) (a : α) (p : α → Bool) (w : α → Nat) :
    (t.put a).sumBy p w + (t.find? (key a)).elim 0 (fun b => if p b then w b else 0) =
      t.sumBy p w + if p a then w a else 0 := by
  have hold : t.sumBy (fun b => p b && decide (key b = key a)) w =
      (t.find? (key a)).elim 0 fun b => if p b then w b else 0 := by
    rw [sumBy_key (k := key a) fun b _ hb => by simpa using (Bool.and_eq_true_iff.1 hb).2]
    cases h : t.find? (key a) with
    | none => rfl
    | some b => simp [(find?_eq_some.1 h).2]
  have hdel := sumBy_deleteWhere_add t (fun b => decide (key b = key a)) p w
  have hput : (t.put a).sumBy p w = (if p a then w a else 0) + (t.deleteWhere fun b => decide (key b = key a)).sumBy p w := by
    simp only [sumBy, put, deleteWhere, List.filter_cons]
    split <;> simp
  omega

/-- Adding a column up group by group: when every row's value is the total of
the entries of its group, and entries outside every group count nothing, the
column's sum over the selected groups is the total of the entries in them. -/
theorem sum_groups {β : Type*} {t : Table α key} {l : List β} {g : β → κ} {w : β → Nat}
    {c : α → Nat} {q : κ → Bool}
    (hrow : ∀ a ∈ t.rows, c a = ((l.filter fun b => g b = key a).map w).sum)
    (hout : ∀ b ∈ l, t.find? (g b) = .none → w b = 0) :
    t.sumBy (fun a => q (key a)) c = ((l.filter fun b => q (g b)).map w).sum := by
  induction l generalizing c with
  | nil => exact sumBy_eq_zero fun a ha _ => by simpa using hrow a ha
  | cons b l ih =>
    have hsplit : ∀ a ∈ t.rows, c a =
        (if g b = key a then w b else 0) + ((l.filter fun b => g b = key a).map w).sum := by
      intro a ha
      rw [hrow a ha, List.filter_cons]
      by_cases hb : g b = key a <;> simp [hb]
    have hadd : t.sumBy (fun a => q (key a)) c =
        t.sumBy (fun a => q (key a)) (fun a => if g b = key a then w b else 0) +
          t.sumBy (fun a => q (key a)) (fun a => ((l.filter fun b => g b = key a).map w).sum) := by
      simp only [sumBy, ← List.sum_map_add]
      refine congrArg List.sum (List.map_congr_left fun a ha => ?_)
      exact hsplit a (List.mem_filter.1 ha).1
    have hone : t.sumBy (fun a => q (key a)) (fun a => if g b = key a then w b else 0) =
        if q (g b) then w b else 0 := by
      have hw : ∀ a ∈ t.rows, (if q (key a) then (if g b = key a then w b else 0) else 0) =
          if q (g b) ∧ key a = g b then w b else 0 := by
        intro a _
        by_cases hk : g b = key a
        · simp [hk]
        · simp [hk, Ne.symm hk]
      by_cases hq : q (g b) = true
      · have : t.sumBy (fun a => q (key a)) (fun a => if g b = key a then w b else 0) =
            t.sumBy (fun a => decide (key a = g b)) (fun _ => w b) := by
          simp only [sumBy]
          induction t.rows with
          | nil => rfl
          | cons a rows ih' =>
            simp only [List.filter_cons]
            by_cases hk : key a = g b
            · simp [hk, hq]; simpa using ih'
            · by_cases hqa : q (key a) = true
              · simp [hk, hqa, Ne.symm hk]; simpa using ih'
              · simp [hk, hqa]; simpa using ih'
        rw [this, sumBy_key (k := g b) (fun a _ h => by simpa using h), if_pos hq]
        cases hf : t.find? (g b) with
        | none => exact (hout b (by simp) hf).symm
        | some a => simp [(find?_eq_some.1 hf).2]
      · rw [if_neg hq]
        refine sumBy_eq_zero fun a _ hqa => ?_
        split
        · rename_i hk; rw [hk] at hq; exact absurd hqa hq
        · rfl
    rw [hadd, hone, ih (fun a _ => rfl) (fun b' hb' => hout b' (by simp [hb'])), List.filter_cons]
    by_cases hq : q (g b) = true <;> simp [hq]

end Statements

end Table

end Relational
