/-
Tables under `CHECK` constraints and unique indexes, whole or partial.

A `Schema` says which rows pass the checks and which two rows clash in an
index. A `Store` is a table that satisfies them, so a statement either leaves a
`Store` or fails; `insert?` and `update?` are the two that can fail.
-/
import Nexus.Lib.Table

namespace Relational

universe u v

/-- The key, the checks and the unique indexes of a table. Two rows clash when
some unique index holds both under one key. -/
structure Schema (α : Type u) (κ : Type v) where
  key : α → κ
  check : α → Bool
  clash : α → α → Bool

/-- A table whose rows pass the checks, of which no two clash. -/
@[ext] structure Store {α : Type u} {κ : Type v} (S : Schema α κ) extends Table α S.key where
  checked : ∀ a ∈ rows, S.check a = true
  unique : ∀ a ∈ rows, ∀ b ∈ rows, S.clash a b = true → a = b

namespace Store

variable {α : Type u} {κ : Type v} {S : Schema α κ}

/-- The store with no rows. -/
def empty : Store S := ⟨.empty, by simp, by simp⟩

@[simp] theorem rows_empty : (empty : Store S).rows = [] := rfl

/-- `a` clashes with no row whose key differs from its own. -/
def admits [DecidableEq κ] (S : Schema α κ) (rows : List α) (a : α) : Bool :=
  S.check a && rows.all fun b => S.key b == S.key a || !(S.clash a b || S.clash b a)

/-- `DELETE … WHERE p`. -/
def deleteWhere (s : Store S) (p : α → Bool) : Store S where
  toTable := s.toTable.deleteWhere p
  checked a ha := s.checked a (Table.mem_deleteWhere.1 ha).1
  unique a ha b hb := s.unique a (Table.mem_deleteWhere.1 ha).1 b (Table.mem_deleteWhere.1 hb).1

theorem rows_deleteWhere {s : Store S} {p : α → Bool} :
    (s.deleteWhere p).rows = s.rows.filter fun a => !p a := rfl

theorem mem_deleteWhere {s : Store S} {p : α → Bool} {a : α} :
    a ∈ (s.deleteWhere p).rows ↔ a ∈ s.rows ∧ p a = false := Table.mem_deleteWhere

theorem deleteWhere_eq_self {s : Store S} {p : α → Bool} (h : ∀ a ∈ s.rows, p a = false) : s.deleteWhere p = s := by
  refine Store.ext (List.filter_eq_self.mpr ?_)
  intro a ha
  rw [h a ha]
  rfl

section Statements

variable [DecidableEq κ]

theorem admits_eq_true {rows : List α} {a : α} :
    admits S rows a = true ↔ S.check a = true ∧
      ∀ b ∈ rows, S.key b ≠ S.key a → S.clash a b = false ∧ S.clash b a = false := by
  simp only [admits, Bool.and_eq_true, List.all_eq_true, Bool.or_eq_true, beq_iff_eq, Bool.not_eq_true',
    Bool.or_eq_false_iff]
  refine and_congr_right fun _ => forall₂_congr fun b _ => ?_
  by_cases hk : S.key b = S.key a
  · simp only [hk, true_or, ne_eq, not_true_eq_false, false_implies]
  · simp only [hk, false_or, ne_eq, not_false_eq_true, true_implies]

/-- `INSERT`, which fails on a check, a taken key or a unique index. -/
def insert? (s : Store S) (a : α) : Option (Store S) :=
  if h : admits S s.rows a = true ∧ S.key a ∉ s.rows.map S.key then
    .some {
      rows := a :: s.rows
      nodup := by rw [List.map_cons]; exact List.nodup_cons.2 ⟨h.2, s.nodup⟩
      checked := by
        intro b hb
        rcases List.mem_cons.1 hb with rfl | hb
        · exact (admits_eq_true.1 h.1).1
        · exact s.checked b hb
      unique := by
        have hnew : ∀ b ∈ s.rows, S.clash a b = false ∧ S.clash b a = false := fun b hb =>
          (admits_eq_true.1 h.1).2 b hb fun hk => h.2 (List.mem_map.2 ⟨b, hb, hk⟩)
        intro b hb c hc hclash
        rcases List.mem_cons.1 hb with hba | hbs <;> rcases List.mem_cons.1 hc with hca | hcs
        · rw [hba, hca]
        · rw [hba, (hnew c hcs).1] at hclash; cases hclash
        · rw [hca, (hnew b hbs).2] at hclash; cases hclash
        · exact s.unique b hbs c hcs hclash }
  else .none

theorem insert?_eq_some {s t : Store S} {a : α} :
    s.insert? a = .some t ↔
      (admits S s.rows a = true ∧ s.toTable.find? (S.key a) = .none) ∧ t.rows = a :: s.rows := by
  have hkey : S.key a ∉ s.rows.map S.key ↔ s.toTable.find? (S.key a) = .none := by
    rw [Table.find?_eq_none, List.mem_map]
    exact ⟨fun h b hb hk => h ⟨b, hb, hk⟩, fun h ⟨b, hb, hk⟩ => h b hb hk⟩
  unfold insert?
  split
  next h =>
    rw [Option.some.injEq]
    constructor
    · rintro rfl
      exact ⟨⟨h.1, hkey.1 h.2⟩, rfl⟩
    · intro ht
      exact Store.ext ht.2.symm
  next h =>
    rw [hkey] at h
    simp only [reduceCtorEq, h, false_and]

/-- An insert that meets the checks and clashes with nothing is made. -/
theorem exists_insert? {s : Store S} {a : α} (hcheck : S.check a = true) (hkey : ∀ b ∈ s.rows, S.key b ≠ S.key a)
    (hclash : ∀ b ∈ s.rows, S.clash a b = false ∧ S.clash b a = false) :
    ∃ t, s.insert? a = .some t ∧ t.rows = a :: s.rows := by
  have hadmits : admits S s.rows a = true := admits_eq_true.2 ⟨hcheck, fun b hb _ => hclash b hb⟩
  cases hinsert : s.insert? a with
  | some t => exact ⟨t, rfl, (insert?_eq_some.1 hinsert).2⟩
  | none =>
    unfold insert? at hinsert
    have hfresh : S.key a ∉ s.rows.map S.key := by
      intro hmem
      obtain ⟨b, hb, hk⟩ := List.mem_map.1 hmem
      exact hkey b hb hk
    rw [dif_pos ⟨hadmits, hfresh⟩] at hinsert
    cases hinsert

theorem mem_insert? {s t : Store S} {a b : α} (h : s.insert? a = .some t) : b ∈ t.rows ↔ b = a ∨ b ∈ s.rows := by
  rw [(insert?_eq_some.1 h).2, List.mem_cons]

/-- Deleting by its key what was just inserted restores the table. -/
theorem deleteWhere_insert? {s t : Store S} {a : α} (h : s.insert? a = .some t) :
    t.deleteWhere (fun b => S.key b == S.key a) = s := by
  obtain ⟨⟨-, hfresh⟩, hrows⟩ := insert?_eq_some.1 h
  refine Store.ext ?_
  rw [rows_deleteWhere, hrows, List.filter_cons_of_neg (by simp)]
  refine List.filter_eq_self.mpr ?_
  intro b hb
  have hne : S.key b ≠ S.key a := Table.find?_eq_none.1 hfresh b hb
  simpa using hne

/-- `UPDATE … SET f WHERE key = k`, for an `f` that leaves the key alone; it
fails on a check or a unique index. -/
def update? (s : Store S) (k : κ) (f : α → α) (hf : ∀ a, S.key (f a) = S.key a := by intro _; rfl) :
    Option (Store S) :=
  let rows := s.rows.map fun a => if S.key a = k then f a else a
  if h : ∀ a ∈ s.rows, S.key a = k → admits S rows (f a) = true then
    .some {
      toTable := s.toTable.updateWhere (fun a => decide (S.key a = k)) f hf
      checked := by
        intro b hb
        obtain ⟨a, ha, rfl⟩ := Table.mem_updateWhere.1 hb
        by_cases hk : S.key a = k
        · simpa only [hk, decide_true, if_true] using (admits_eq_true.1 (h a ha hk)).1
        · simpa only [hk, decide_false, Bool.false_eq_true, if_false] using s.checked a ha
      unique := by
        -- a changed row was checked against the rows as they are after the statement
        have hchanged : ∀ a ∈ s.rows, S.key a = k → ∀ c ∈ rows, S.clash (f a) c = true ∨ S.clash c (f a) = true →
            S.key c = k := by
          intro a ha hk c hc hclash
          by_cases hkc : S.key c = S.key (f a)
          · rw [hkc, hf, hk]
          · obtain ⟨h₁, h₂⟩ := (admits_eq_true.1 (h a ha hk)).2 c hc hkc
            rcases hclash with hclash | hclash
            · rw [h₁] at hclash; cases hclash
            · rw [h₂] at hclash; cases hclash
        have hrows : ∀ b, b ∈ (s.toTable.updateWhere (fun a => decide (S.key a = k)) f hf).rows → b ∈ rows := by
          intro b hb
          simpa only [rows, Table.updateWhere, decide_eq_true_eq] using hb
        intro b hb c hc hclash
        refine Table.eq_of_key hb hc ?_
        have hb' := hrows b hb
        have hc' := hrows c hc
        obtain ⟨a, ha, rfl⟩ := List.mem_map.1 hb'
        obtain ⟨d, hd, rfl⟩ := List.mem_map.1 hc'
        by_cases hka : S.key a = k
        · rw [if_pos hka] at hclash ⊢
          rw [hchanged a ha hka _ hc' (.inl hclash), hf, hka]
        · by_cases hkd : S.key d = k
          · rw [if_pos hkd] at hclash ⊢
            rw [hchanged d hd hkd _ hb' (.inr hclash), hf, hkd]
          · rw [if_neg hka, if_neg hkd] at hclash ⊢
            rw [s.unique a ha d hd hclash] }
  else .none

theorem rows_update? {s t : Store S} {k : κ} {f : α → α} {hf} (h : s.update? k f hf = .some t) :
    t.rows = s.rows.map fun a => if S.key a = k then f a else a := by
  unfold update? at h
  simp only at h
  split at h
  · obtain rfl := Option.some.inj h
    simp only [Table.updateWhere, decide_eq_true_eq]
  · cases h

end Statements

end Store

end Relational
