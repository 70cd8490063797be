/-
The words of a text: its maximal runs of characters that are no separators, as
`re.finditer(r"\S+")` lists them.

`mem_words_of_isWord` finds every such run in the list, and `pairwise_words`
says the list has them in order and apart.
-/
import Mathlib.Data.List.TakeWhile
import Nexus.Lib.FindIter

namespace WordRuns
open FindIter

universe u

variable {α : Type u} (sep : α → Bool)

/-- `\S+` -/
def word : Pattern α Unit
  | [] => .none
  | c :: s => if sep c then .none else .some ((), (s.takeWhile fun c => !sep c).length)

def words (s : List α) : List (Match Unit) := finditer (word sep) 0 0 s

/-- `s[start:stop]` has no separator, and cannot be longer on either side. -/
def IsWord (s : List α) (start stop : Nat) : Prop :=
  ∃ pre w post, s = pre ++ (w ++ post) ∧ w ≠ [] ∧ (∀ c ∈ w, sep c = false) ∧ (∀ c ∈ pre.getLast?, sep c = true) ∧
    (∀ c ∈ post.head?, sep c = true) ∧ start = pre.length ∧ stop = pre.length + w.length

variable {sep} {s : List α}

theorem bounded_word (sep : α → Bool) : Bounded (word sep) := by
  intro c s b n h
  rw [word] at h
  split at h
  · cases h
  · obtain ⟨-, rfl⟩ := Prod.mk.inj (Option.some.inj h)
    exact (List.takeWhile_prefix _).length_le

/-- A run is what a match takes: nothing of it separates, and what follows does. -/
theorem word_eq_some {c : α} {t s : List α} (h : word sep (c :: (t ++ s)) = .some ((), t.length)) :
    (∀ x ∈ c :: t, sep x = false) ∧ ∀ x ∈ s.head?, sep x = true := by
  rw [word] at h
  split at h
  · cases h
  next hc =>
    obtain ⟨-, hlen⟩ := Prod.mk.inj (Option.some.inj h)
    have hrun : (t ++ s).takeWhile (fun c => !sep c) = t :=
      (List.prefix_of_prefix_length_le (List.takeWhile_prefix _) (List.prefix_append t s) (Nat.le_of_eq hlen)).eq_of_length hlen
    have hnone (x : α) (hx : x ∈ t) : sep x = false := by
      rw [← hrun] at hx
      simpa using List.mem_takeWhile_imp hx
    refine ⟨List.forall_mem_cons.2 ⟨by simpa using hc, hnone⟩, fun x hx => ?_⟩
    cases s with
    | nil => cases hx
    | cons d s =>
      obtain rfl := Option.some.inj hx
      rw [List.takeWhile_append_of_pos fun x hx => by simp [hnone x hx], List.takeWhile_cons] at hrun
      by_contra hd
      simp [hd] at hrun

theorem run_unique {a b a' b' : List α} (ha : ∀ c ∈ a, sep c = false) (hb : ∀ c ∈ b.head?, sep c = true)
    (ha' : ∀ c ∈ a', sep c = false) (hb' : ∀ c ∈ b'.head?, sep c = true) (h : a ++ b = a' ++ b') : a = a' := by
  rcases List.append_eq_append_iff.1 h with ⟨d, rfl, rfl⟩ | ⟨d, rfl, rfl⟩
  · cases d with
    | nil => rw [List.append_nil]
    | cons e d =>
      have hsep := hb e rfl
      rw [ha' e (by simp)] at hsep
      cases hsep
  · cases d with
    | nil => rw [List.append_nil]
    | cons e d =>
      have hsep := hb' e rfl
      rw [ha e (by simp)] at hsep
      cases hsep

/-! ## Positions of matches -/

/-- Matches lie in the text, in order and apart, and each is something. -/
theorem locate_spec {β : Type*} {p : Pattern α β} {ps : List (Piece α β)} (h : Scans p s ps) (pos : Nat) :
    (∀ m ∈ locate pos ps, pos ≤ m.start ∧ m.start < m.stop ∧ m.stop ≤ pos + s.length) ∧
      (locate pos ps).Pairwise fun m m' => m.stop ≤ m'.start := by
  induction h generalizing pos with
  | nil => exact ⟨nofun, .nil⟩
  | @outside c s ps _ _ ih =>
    obtain ⟨hin, hsorted⟩ := ih (pos + 1)
    refine ⟨fun m hm => ?_, hsorted⟩
    have hm := hin m hm
    rw [List.length_cons]
    omega
  | @hit c t s b ps _ _ ih =>
    obtain ⟨hin, hsorted⟩ := ih (pos + (c :: t).length)
    rw [locate]
    refine ⟨List.forall_mem_cons.2 ⟨?_, fun m hm => ?_⟩, List.pairwise_cons.2 ⟨fun m hm => (hin m hm).1, hsorted⟩⟩
    · simp only [List.length_cons, List.length_append]
      omega
    · have hm := hin m hm
      simp only [List.length_cons, List.length_append] at hm ⊢
      omega

theorem words_spec (sep : α → Bool) (s : List α) : (∀ m ∈ words sep s, m.start < m.stop ∧ m.stop ≤ s.length) ∧
    (words sep s).Pairwise fun m m' => m.stop ≤ m'.start := by
  have hscan := scans_scan (bounded_word sep) s
  obtain ⟨hin, hsorted⟩ := locate_spec hscan 0
  rw [words, hscan.finditer_eq]
  exact ⟨fun m hm => ⟨(hin m hm).2.1, (Nat.zero_add s.length ▸ (hin m hm).2.2)⟩, hsorted⟩

theorem words_eq_nil (h : ∀ c ∈ s, sep c = true) : words sep s = [] := by
  have hnone (pos : Nat) : finditer (word sep) pos 0 s = [] := by
    induction s generalizing pos with
    | nil => rfl
    | cons c s ih =>
      have hc : word sep (c :: s) = .none := by rw [word, if_pos (h c List.mem_cons_self)]
      rw [finditer, hc]
      exact ih (fun d hd => h d (List.mem_cons_of_mem _ hd)) (pos + 1)
  exact hnone 0

/-! ## Every word is matched -/

theorem mem_locate_of_isWord {ps : List (Piece α Unit)} (h : Scans (word sep) s ps) (pos : Nat) {start stop : Nat}
    (hword : IsWord sep s start stop) : ⟨(), pos + start, pos + stop⟩ ∈ locate pos ps := by
  obtain ⟨pre, w, post, heq, hne, hw, hpre, hpost, rfl, rfl⟩ := hword
  induction h generalizing pos pre with
  | nil =>
    have hnil : w = [] := by simp_all
    exact absurd hnil hne
  | @outside c s ps hmatch _ ih =>
    have hc : sep c = true := by
      rw [word] at hmatch
      by_contra hc
      simp [hc] at hmatch
    cases pre with
    | nil =>
      obtain ⟨d, w, rfl⟩ := List.exists_cons_of_ne_nil hne
      obtain ⟨rfl, -⟩ := List.cons.inj heq
      exact absurd (hc.symm.trans (hw c List.mem_cons_self)) (by decide)
    | cons d pre =>
      obtain ⟨rfl, rfl⟩ := List.cons.inj heq
      have hmem := ih (pos + 1) pre rfl fun x hx => hpre x (by
        cases pre with
        | nil => cases hx
        | cons e pre => rwa [List.getLast?_cons_cons])
      rw [locate]
      simpa [Nat.add_assoc, Nat.add_comm, Nat.add_left_comm] using hmem
  | @hit c t s b ps hmatch _ ih =>
    obtain ⟨hrun, hnext⟩ := word_eq_some hmatch
    rw [locate]
    cases pre with
    | nil =>
      have hself : c :: t = w := run_unique hrun hnext hw hpost heq
      rw [← hself]
      simp
    | cons d pre =>
      obtain ⟨rfl, htail⟩ := List.cons.inj heq
      -- what comes before the word ends in a separator, so it is no part of the match
      have hlast (h : ∀ x ∈ c :: pre, sep x = false) : False := by
        obtain ⟨x, hx⟩ := Option.isSome_iff_exists.1 (List.getLast?_isSome.2 (List.cons_ne_nil c pre))
        exact absurd ((hpre x hx).symm.trans (h x (List.mem_of_getLast? hx))) (by decide)
      rcases List.append_eq_append_iff.1 htail with ⟨d, rfl, rfl⟩ | ⟨d, rfl, -⟩
      · cases d with
        | nil =>
          rw [List.append_nil] at hlast
          exact (hlast hrun).elim
        | cons e d =>
          have hmem := ih (pos + (c :: t).length) (e :: d) rfl fun x hx => hpre x (by
            rw [← List.cons_append, List.getLast?_append, hx]
            rfl)
          refine List.mem_cons_of_mem _ ?_
          simpa [Nat.add_assoc, Nat.add_comm, Nat.add_left_comm] using hmem
      · exact (hlast fun x hx => hrun x (by
          rcases List.mem_cons.1 hx with rfl | hx
          · exact List.mem_cons_self
          · exact List.mem_cons_of_mem _ (List.mem_append_left _ hx))).elim

/-- **Every word of a text is a match.** -/
theorem mem_words_of_isWord {start stop : Nat} (h : IsWord sep s start stop) : ⟨(), start, stop⟩ ∈ words sep s := by
  have hscan := scans_scan (bounded_word sep) s
  have hmem := mem_locate_of_isWord hscan 0 h
  rw [words, hscan.finditer_eq]
  rwa [Nat.zero_add, Nat.zero_add] at hmem

end WordRuns
