/-
Gapless orders: positions `0 … n-1` without gap or duplicate.

`Gapless l` says the list is `0 … l.length - 1` in some order. Positions read
off a permutation of the keys are gapless (`Gapless.idxOf`), entries may be
appended at the length (`Gapless.append_range'`), and rows taken out of a gapless
order leave one exactly when they stood above all that stay (`Gapless.filter_iff`).
Moving a block of keys to any place among the others permutes them
(`Gapless.perm_moveBlock`).
-/
import Mathlib.Data.List.Nodup
import Mathlib.Data.List.Perm.Subperm

namespace Relational

universe u v

/-- The list holds each of `0 … l.length - 1` once. -/
def Gapless (l : List Nat) : Prop := l.Perm (List.range l.length)

namespace Gapless

variable {α : Type u} {κ : Type v} {l l' : List Nat}

instance : DecidablePred Gapless := fun l => inferInstanceAs (Decidable (l.Perm _))

@[simp] theorem nil : Gapless [] := List.Perm.refl _

theorem of_perm (h : Gapless l) (hp : l.Perm l') : Gapless l' := by
  have hlen : l.length = l'.length := hp.length_eq
  unfold Gapless
  rw [← hlen]
  exact hp.symm.trans h

theorem nodup (h : Gapless l) : l.Nodup := (List.Perm.nodup_iff h).2 List.nodup_range

theorem mem_iff (h : Gapless l) {i : Nat} : i ∈ l ↔ i < l.length := (List.Perm.mem_iff h).trans List.mem_range

theorem of_nodup (hnd : l.Nodup) (hlt : ∀ i ∈ l, i < l.length) : Gapless l :=
  (hnd.subperm fun i hi => List.mem_range.2 (hlt i hi)).perm_of_length_le (by simp)

theorem append_range' (h : Gapless l) (n : Nat) : Gapless (l ++ List.range' l.length n) := by
  refine of_nodup ?_ fun i hi => ?_
  · refine List.nodup_append.2 ⟨h.nodup, List.nodup_range', fun i hi j hj hij => ?_⟩
    have hlt : i < l.length := h.mem_iff.1 hi
    have hge := (List.mem_range'_1.1 hj).1
    omega
  · rw [List.length_append, List.length_range']
    rcases List.mem_append.1 hi with hi | hi
    · have := h.mem_iff.1 hi
      omega
    · exact (List.mem_range'_1.1 hi).2

theorem idxOf [DecidableEq κ] {rows : List α} {key : α → κ} {ids : List κ} (hp : ids.Perm (rows.map key))
    (hnd : ids.Nodup) : Gapless (rows.map fun a => ids.idxOf (key a)) := by
  have hself : ids.map ids.idxOf = List.range ids.length := by
    refine List.ext_getElem (by simp) fun i h₁ h₂ => ?_
    rw [List.getElem_map, List.getElem_range]
    exact hnd.idxOf_getElem i (by simpa using h₁)
  have hmap : (rows.map fun a => ids.idxOf (key a)) = (rows.map key).map ids.idxOf := by
    rw [List.map_map]; rfl
  have hd : Gapless (ids.map ids.idxOf) := by
    unfold Gapless
    rw [List.length_map, hself]
  rw [hmap]
  exact hd.of_perm (hp.map _)

/-- Rows taken out of a gapless order leave a gapless order exactly when each stood
above every row that stays. -/
theorem filter_iff {rows : List α} {pos : α → Nat} (h : Gapless (rows.map pos)) (keep : α → Bool) :
    Gapless ((rows.filter keep).map pos) ↔
      ∀ a ∈ rows, keep a = false → ∀ b ∈ rows, keep b = true → pos b < pos a := by
  have hsub : ((rows.filter keep).map pos).Sublist (rows.map pos) := List.filter_sublist.map pos
  constructor
  · intro hk a ha hka b hb hkb
    have hbk : pos b < ((rows.filter keep).map pos).length :=
      hk.mem_iff.1 (List.mem_map_of_mem (List.mem_filter.2 ⟨hb, hkb⟩))
    by_contra hle
    -- `a`'s position would be one of the kept ones, so `a` would be kept
    have hak : pos a ∈ (rows.filter keep).map pos := hk.mem_iff.2 (by omega)
    obtain ⟨c, hc, hca⟩ := List.mem_map.1 hak
    obtain ⟨hc, hkc⟩ := List.mem_filter.1 hc
    have hac : c = a := List.inj_on_of_nodup_map h.nodup hc ha hca
    rw [hac, hka] at hkc
    cases hkc
  · intro hlow
    refine of_nodup (h.nodup.sublist hsub) fun i hi => ?_
    obtain ⟨b, hb, rfl⟩ := List.mem_map.1 hi
    obtain ⟨hb, hkb⟩ := List.mem_filter.1 hb
    have hbl : pos b < (rows.map pos).length := h.mem_iff.1 (List.mem_map_of_mem hb)
    -- every position up to `b`'s is that of a kept row
    have hbelow : List.range (pos b + 1) ⊆ (rows.filter keep).map pos := by
      intro j hj
      have hjb : j < pos b + 1 := List.mem_range.1 hj
      obtain ⟨c, hc, rfl⟩ := List.mem_map.1 (h.mem_iff.2 (by omega : j < (rows.map pos).length))
      cases hkc : keep c with
      | true => exact List.mem_map_of_mem (List.mem_filter.2 ⟨hc, hkc⟩)
      | false =>
        have := hlow c hc hkc b hb hkb
        omega
    have hlen := (List.nodup_range.subperm hbelow).length_le
    rw [List.length_range] at hlen
    omega

theorem perm_moveBlock [DecidableEq κ] {ids old block : List κ} (hids : ids.Nodup) (hold : old.Nodup)
    (hblock : block.Nodup) (hsub : ∀ i ∈ block, i ∈ ids) (hin : ∀ i ∈ old, i ∈ ids)
    (hcov : ∀ i ∈ ids, i ∈ old ∨ i ∈ block) (k : Nat) :
    ((old.filter fun i => !block.contains i).take k ++ block ++
      (old.filter fun i => !block.contains i).drop k).Perm ids := by
  have hrest : ∀ i, i ∈ (old.filter fun i => !block.contains i) ↔ i ∈ old ∧ i ∉ block := by
    intro i; simp [List.mem_filter]
  generalize hr : (old.filter fun i => !block.contains i) = rest at hrest
  have hrnd : rest.Nodup := by rw [← hr]; exact hold.filter _
  have hmove : (rest.take k ++ block ++ rest.drop k).Perm (block ++ rest) := by
    have hswap : (rest.take k ++ block).Perm (block ++ rest.take k) := List.perm_append_comm
    have h := hswap.append_right (rest.drop k)
    rwa [List.append_assoc block, List.take_append_drop] at h
  refine hmove.trans ((List.perm_ext_iff_of_nodup ?_ hids).2 fun i => ?_)
  · exact List.nodup_append.2 ⟨hblock, hrnd, fun i hi j hj hij => ((hrest j).1 hj).2 (hij ▸ hi)⟩
  · rw [List.mem_append, hrest]
    constructor
    · intro h
      rcases h with h | h
      · exact hsub i h
      · exact hin i h.1
    · intro h
      by_cases hb : i ∈ block
      · exact .inl hb
      · exact .inr ⟨(hcov i h).resolve_right hb, hb⟩

end Gapless

end Relational
