/-
`GROUP BY`: the rows of a relation, a list for each value of a key.

Only which rows have one key matters, not what the keys are (`groups_congr`),
so a key may be a number that another selection counts differently.
-/
import Mathlib.Algebra.BigOperators.Group.List.Basic
import Mathlib.Data.List.Nodup

namespace Sql

variable {α β κ κ' : Type*} [DecidableEq κ] [DecidableEq κ']

/-- The first row of each key. -/
def firsts (key : α → κ) : List α → List α
  | [] => []
  | a :: l => a :: (firsts key l).filter fun b => key b ≠ key a

/-- The groups of a relation, each with its first row. -/
def groups (key : α → κ) (l : List α) : List (α × List α) :=
  (firsts key l).map fun a => (a, l.filter fun b => key b = key a)

theorem mem_of_mem_firsts {key : α → κ} {a : α} : ∀ {l : List α}, a ∈ firsts key l → a ∈ l
  | b :: l, h => by
    rcases List.mem_cons.1 h with rfl | h
    · exact List.mem_cons_self
    · exact List.mem_cons_of_mem _ (mem_of_mem_firsts (List.mem_filter.1 h).1)

theorem exists_first (key : α → κ) {a : α} : ∀ {l : List α}, a ∈ l → ∃ b ∈ firsts key l, key b = key a
  | c :: l, h => by
    by_cases hc : key c = key a
    · exact ⟨c, List.mem_cons_self, hc⟩
    · have hmem : a ∈ l := (List.mem_cons.1 h).resolve_left fun heq => hc (by rw [heq])
      obtain ⟨b, hb, hkey⟩ := exists_first key hmem
      refine ⟨b, List.mem_cons_of_mem _ (List.mem_filter.2 ⟨hb, ?_⟩), hkey⟩
      rw [hkey]
      simpa using fun heq : key a = key c => hc heq.symm

theorem pairwise_firsts (key : α → κ) : ∀ l : List α, (firsts key l).Pairwise fun a b => key a ≠ key b
  | [] => List.Pairwise.nil
  | a :: l => by
    refine List.pairwise_cons.2 ⟨fun b hb => ?_, (pairwise_firsts key l).filter _⟩
    have hne := (List.mem_filter.1 hb).2
    simpa using fun heq : key a = key b => absurd heq.symm (by simpa using hne)

theorem mem_groups {key : α → κ} {l : List α} {g : α × List α} :
    g ∈ groups key l ↔ g.1 ∈ firsts key l ∧ g.2 = l.filter fun b => key b = key g.1 := by
  obtain ⟨a, rows⟩ := g
  simp only [groups, List.mem_map, Prod.mk.injEq]
  constructor
  · rintro ⟨b, hb, rfl, rfl⟩
    exact ⟨hb, rfl⟩
  · rintro ⟨ha, hrows⟩
    exact ⟨a, ha, rfl, hrows.symm⟩

theorem mem_group_iff {key : α → κ} {l : List α} {g : α × List α} (hg : g ∈ groups key l) {a : α} :
    a ∈ g.2 ↔ a ∈ l ∧ key a = key g.1 := by
  rw [(mem_groups.1 hg).2, List.mem_filter, decide_eq_true_eq]

theorem first_mem_group {key : α → κ} {l : List α} {g : α × List α} (hg : g ∈ groups key l) : g.1 ∈ g.2 :=
  (mem_group_iff hg).2 ⟨mem_of_mem_firsts (mem_groups.1 hg).1, rfl⟩

theorem head?_filter_of_mem_firsts {key : α → κ} {a : α} : ∀ {l : List α}, a ∈ firsts key l →
    (l.filter fun b => key b = key a).head? = .some a
  | b :: l, h => by
    rcases List.mem_cons.1 h with rfl | h
    · simp
    · obtain ⟨h, hne⟩ := List.mem_filter.1 h
      have hb : ¬ key b = key a := by simpa using fun heq : key b = key a => absurd heq.symm (by simpa using hne)
      rw [List.filter_cons_of_neg (by simpa using hb), head?_filter_of_mem_firsts h]

theorem head?_group {key : α → κ} {l : List α} {g : α × List α} (hg : g ∈ groups key l) : g.2.head? = .some g.1 := by
  rw [(mem_groups.1 hg).2]
  exact head?_filter_of_mem_firsts (mem_groups.1 hg).1

theorem exists_group (key : α → κ) {l : List α} {a : α} (ha : a ∈ l) : ∃ g ∈ groups key l, a ∈ g.2 := by
  obtain ⟨b, hb, hkey⟩ := exists_first key ha
  refine ⟨(b, l.filter fun c => key c = key b), mem_groups.2 ⟨hb, rfl⟩, List.mem_filter.2 ⟨ha, ?_⟩⟩
  simp [hkey]

theorem group_eq_of_key {key : α → κ} {l : List α} {g g' : α × List α} (hg : g ∈ groups key l) (hg' : g' ∈ groups key l)
    (h : key g.1 = key g'.1) : g = g' := by
  obtain ⟨hfirst, hrows⟩ := mem_groups.1 hg
  obtain ⟨hfirst', hrows'⟩ := mem_groups.1 hg'
  have hnd : ((firsts key l).map key).Nodup := List.pairwise_map.2 (pairwise_firsts key l)
  have heq : g.1 = g'.1 := List.inj_on_of_nodup_map hnd hfirst hfirst' h
  refine Prod.ext heq ?_
  rw [hrows, hrows', heq]

theorem pairwise_groups (key : α → κ) (l : List α) : (groups key l).Pairwise fun g g' => key g.1 ≠ key g'.1 :=
  List.pairwise_map.2 (pairwise_firsts key l)

theorem firsts_congr {key : α → κ} {key' : α → κ'} : ∀ {l : List α}, (∀ a ∈ l, ∀ b ∈ l, key a = key b ↔ key' a = key' b) →
    firsts key l = firsts key' l
  | [], _ => rfl
  | a :: l, h => by
    rw [firsts, firsts, firsts_congr fun b hb c hc => h b (List.mem_cons_of_mem _ hb) c (List.mem_cons_of_mem _ hc)]
    congr 1
    refine List.filter_congr fun b hb => ?_
    have hiff := h b (List.mem_cons_of_mem _ (mem_of_mem_firsts hb)) a List.mem_cons_self
    simp [hiff]

theorem groups_congr {key : α → κ} {key' : α → κ'} {l : List α} (h : ∀ a ∈ l, ∀ b ∈ l, key a = key b ↔ key' a = key' b) :
    groups key l = groups key' l := by
  rw [groups, groups, firsts_congr h]
  refine List.map_congr_left fun a ha => congrArg (Prod.mk a) (List.filter_congr fun b hb => ?_)
  simp [h b hb a (mem_of_mem_firsts ha)]

theorem firsts_map (f : β → α) (key : α → κ) : ∀ l : List β, firsts key (l.map f) = (firsts (key ∘ f) l).map f
  | [] => rfl
  | b :: l => by
    rw [List.map_cons, firsts, firsts, firsts_map f key l, List.map_cons, List.filter_map]
    rfl

theorem groups_map (f : β → α) (key : α → κ) (l : List β) :
    groups key (l.map f) = (groups (key ∘ f) l).map fun g => (f g.1, g.2.map f) := by
  rw [groups, groups, firsts_map, List.map_map, List.map_map]
  refine List.map_congr_left fun b _ => ?_
  simp only [Function.comp_apply, List.filter_map]
  rfl

/-! ## Sums -/

theorem sum_filter_keys {M : Type*} [AddCommMonoid M] (key : α → κ) (w : α → M) {ks : List κ} (hks : ks.Nodup) {l : List α}
    (hl : ∀ a ∈ l, key a ∈ ks) : (ks.map fun k => ((l.filter fun a => key a = k).map w).sum).sum = (l.map w).sum := by
  induction ks generalizing l with
  | nil =>
    have hnil : l = [] := List.eq_nil_iff_forall_not_mem.2 fun a ha => List.not_mem_nil (hl a ha)
    rw [hnil]
    rfl
  | cons k ks ih =>
    obtain ⟨hk, hks⟩ := List.nodup_cons.1 hks
    have hrest := ih hks (l := l.filter fun a => key a ≠ k) fun a ha => by
      obtain ⟨ha, hne⟩ := List.mem_filter.1 ha
      exact (List.mem_cons.1 (hl a ha)).resolve_left (by simpa using hne)
    have hsame : ∀ k' ∈ ks, ((l.filter fun a => key a ≠ k).filter fun a => key a = k') = l.filter fun a => key a = k' := by
      intro k' hk'
      rw [List.filter_filter]
      refine List.filter_congr fun a _ => ?_
      by_cases hak : key a = k'
      · simp only [hak, decide_true, Bool.true_and]
        exact decide_eq_true fun heq => hk (heq ▸ hk')
      · simp [hak]
    have hcongr : (ks.map fun k' => (((l.filter fun a => key a ≠ k).filter fun a => key a = k').map w).sum) =
        ks.map fun k' => ((l.filter fun a => key a = k').map w).sum :=
      List.map_congr_left fun k' hk' => by rw [hsame k' hk']
    rw [List.map_cons, List.sum_cons, ← hcongr, hrest, ← List.sum_append, ← List.map_append]
    have hperm := List.filter_append_perm (fun a => decide (key a = k)) l
    have hneg : (l.filter fun a => key a ≠ k) = l.filter fun a => !decide (key a = k) :=
      List.filter_congr fun a _ => by simp
    rw [hneg]
    exact (hperm.map w).sum_eq

theorem sum_groups {M : Type*} [AddCommMonoid M] (key : α → κ) (w : α → M) (l : List α) :
    ((groups key l).map fun g => (g.2.map w).sum).sum = (l.map w).sum := by
  have hks : ((firsts key l).map key).Nodup := List.pairwise_map.2 (pairwise_firsts key l)
  rw [← sum_filter_keys key w hks fun a ha => ?_]
  · rw [groups, List.map_map, List.map_map]
    rfl
  · obtain ⟨b, hb, heq⟩ := exists_first key ha
    exact heq ▸ List.mem_map_of_mem hb

end Sql
