/-
Scanning a text for the matches of a pattern, from the left and without
overlap, as `re.finditer` does.

A pattern says what it captures at the head of a text and how many characters
it takes after the first. `finditer` lists the matches with their positions;
`scan` cuts the text into its pieces; `Scans` is the judgment both follow, on
which facts about a scanned text are proved by induction.
-/
import Mathlib.Data.List.Basic

namespace FindIter

universe u v

variable {α : Type u} {β : Type v}

/-- A pattern at the head of a text. -/
abbrev Pattern (α : Type u) (β : Type v) := List α → Option (β × Nat)

/-- A character no match covers, or a match. -/
inductive Piece (α : Type u) (β : Type v)
  | outside (c : α)
  | hit (b : β) (text : List α)
  deriving DecidableEq, Repr

def Piece.text : Piece α β → List α
  | .outside c => [c]
  | .hit _ text => text

/-- `match.start()`, `match.end()` and what the match captured. -/
structure Match (β : Type v) where
  group : β
  start : Nat
  stop : Nat
  deriving DecidableEq, Repr

/-! ## Scanning -/

/-- The matches of a text that starts at `pos`, after `skip` characters of it. -/
def finditer (p : Pattern α β) : Nat → Nat → List α → List (Match β)
  | _, _, [] => []
  | pos, skip + 1, _ :: s => finditer p (pos + 1) skip s
  | pos, 0, c :: s =>
    match p (c :: s) with
    | .some (b, n) => ⟨b, pos, pos + 1 + n⟩ :: finditer p (pos + 1) n s
    | .none => finditer p (pos + 1) 0 s

/-- The pieces of a text, after `skip` characters of it. -/
def scan (p : Pattern α β) : Nat → List α → List (Piece α β)
  | _, [] => []
  | skip + 1, _ :: s => scan p skip s
  | 0, c :: s =>
    match p (c :: s) with
    | .some (b, n) => .hit b (c :: s.take n) :: scan p n s
    | .none => .outside c :: scan p 0 s

inductive Scans (p : Pattern α β) : List α → List (Piece α β) → Prop
  | nil : Scans p [] []
  | outside {c : α} {s : List α} {ps : List (Piece α β)} :
      p (c :: s) = .none → Scans p s ps → Scans p (c :: s) (.outside c :: ps)
  | hit {c : α} {t s : List α} {b : β} {ps : List (Piece α β)} :
      p (c :: (t ++ s)) = .some (b, t.length) → Scans p s ps → Scans p (c :: (t ++ s)) (.hit b (c :: t) :: ps)

/-- No match ends after its text does. -/
def Bounded (p : Pattern α β) : Prop := ∀ c s b n, p (c :: s) = .some (b, n) → n ≤ s.length

variable {p : Pattern α β}

theorem scan_skip (skip : Nat) (s : List α) : scan p skip s = scan p 0 (s.drop skip) := by
  induction s generalizing skip with
  | nil => simp [scan]
  | cons c s ih =>
    cases skip with
    | zero => rfl
    | succ skip => rw [scan, ih, List.drop_succ_cons]

theorem finditer_skip (pos skip : Nat) (s : List α) (h : skip ≤ s.length) :
    finditer p pos skip s = finditer p (pos + skip) 0 (s.drop skip) := by
  induction s generalizing pos skip with
  | nil =>
    obtain rfl : skip = 0 := by simpa using h
    rfl
  | cons c s ih =>
    cases skip with
    | zero => rfl
    | succ skip =>
      rw [finditer, ih (pos + 1) skip (by simpa using h), List.drop_succ_cons]
      congr 1
      omega

theorem scans_scan (hp : Bounded p) (s : List α) : Scans p s (scan p 0 s) := by
  induction hlen : s.length using Nat.strongRecOn generalizing s with
  | _ len ih =>
    cases s with
    | nil => exact .nil
    | cons c s =>
      rw [List.length_cons] at hlen
      rw [scan]
      cases hmatch : p (c :: s) with
      | none => exact .outside hmatch (ih s.length (by omega) s rfl)
      | some found =>
        obtain ⟨b, n⟩ := found
        have hn := hp c s b n hmatch
        have hrest := ih (s.drop n).length (by rw [List.length_drop]; omega) (s.drop n) rfl
        have hhit := Scans.hit (c := c) (t := s.take n) (b := b)
          (by rw [List.take_append_drop, List.length_take, Nat.min_eq_left hn]; exact hmatch) hrest
        rw [List.take_append_drop] at hhit
        simpa only [scan_skip n s] using hhit

theorem Scans.scan_eq {s : List α} {ps : List (Piece α β)} (h : Scans p s ps) : scan p 0 s = ps := by
  induction h with
  | nil => rfl
  | outside hmatch _ ih => rw [scan, hmatch, ih]
  | @hit c t s b ps hmatch _ ih =>
    rw [scan, hmatch]
    simp only [List.take_left]
    rw [scan_skip, List.drop_left, ih]

theorem Scans.flatMap_text {s : List α} {ps : List (Piece α β)} (h : Scans p s ps) : ps.flatMap Piece.text = s := by
  induction h with
  | nil => rfl
  | outside _ _ ih => rw [List.flatMap_cons, ih]; rfl
  | hit _ _ ih => rw [List.flatMap_cons, ih]; rfl

/-! ## Matches and the text between them -/

/-- What the matches captured. -/
def hits : List (Piece α β) → List β
  | [] => []
  | .outside _ :: ps => hits ps
  | .hit b _ :: ps => b :: hits ps

/-- The characters no match covers. -/
def outsides : List (Piece α β) → List α
  | [] => []
  | .outside c :: ps => c :: outsides ps
  | .hit _ _ :: ps => outsides ps

/-- The pieces as matches of a text that starts at `pos`. -/
def locate : Nat → List (Piece α β) → List (Match β)
  | _, [] => []
  | pos, .outside _ :: ps => locate (pos + 1) ps
  | pos, .hit b text :: ps => ⟨b, pos, pos + text.length⟩ :: locate (pos + text.length) ps

/-- `text[cursor:start]` and a replacement for every match in turn, then the
rest of the text. -/
def splice (f : β → List α) (text : List α) : Nat → List (Match β) → List α
  | cursor, [] => text.drop cursor
  | cursor, m :: ms => (text.take m.start).drop cursor ++ f m.group ++ splice f text m.stop ms

/-- The text before, between and after the matches. -/
def between (text : List α) : Nat → List (Match β) → List (List α)
  | cursor, [] => [text.drop cursor]
  | cursor, m :: ms => (text.take m.start).drop cursor :: between text m.stop ms

/-- The pieces with every match replaced. -/
def replaceHits (f : β → List α) : Piece α β → List α
  | .outside c => [c]
  | .hit b _ => f b

/-- The runs of characters no match covers, the first with `pre` before it. -/
def gaps : List α → List (Piece α β) → List (List α)
  | pre, [] => [pre]
  | pre, .outside c :: ps => gaps (pre ++ [c]) ps
  | pre, .hit _ _ :: ps => pre :: gaps [] ps

theorem Scans.finditer_eq {s : List α} {ps : List (Piece α β)} (h : Scans p s ps) (pos : Nat) :
    finditer p pos 0 s = locate pos ps := by
  induction h generalizing pos with
  | nil => rfl
  | outside hmatch _ ih => rw [finditer, hmatch, locate, ← ih]
  | @hit c t s b ps hmatch _ ih =>
    rw [finditer, hmatch, locate, ← ih]
    simp only [finditer_skip (pos + 1) t.length (t ++ s) (by simp), List.drop_left, List.length_cons]
    congr 2 <;> omega

theorem Scans.map_group {s : List α} {ps : List (Piece α β)} (h : Scans p s ps) (pos : Nat) :
    (finditer p pos 0 s).map Match.group = hits ps := by
  rw [h.finditer_eq]
  clear h
  induction ps generalizing pos with
  | nil => rfl
  | cons piece ps ih =>
    cases piece with
    | outside c => exact ih (pos + 1)
    | hit b text => exact congrArg (b :: ·) (ih (pos + text.length))

theorem splice_locate (f : β → List α) (ps : List (Piece α β)) (pre mid : List α) :
    splice f (pre ++ mid ++ ps.flatMap Piece.text) pre.length (locate (pre ++ mid).length ps) =
      mid ++ ps.flatMap (replaceHits f) := by
  induction ps generalizing pre mid with
  | nil => simp [splice, locate]
  | cons piece ps ih =>
    cases piece with
    | outside c =>
      have h := ih pre (mid ++ [c])
      simpa [locate, Piece.text, replaceHits, Nat.add_assoc] using h
    | hit b text =>
      have h := ih (pre ++ mid ++ text) []
      simp only [List.append_nil, List.length_append, List.nil_append] at h
      simp only [locate, splice, List.flatMap_cons, Piece.text, replaceHits, List.length_append, ← List.append_assoc] at h ⊢
      rw [h, List.append_assoc (pre ++ mid), ← List.length_append, List.take_left, List.drop_left]

theorem between_locate (ps : List (Piece α β)) (pre mid : List α) :
    between (pre ++ mid ++ ps.flatMap Piece.text) pre.length (locate (pre ++ mid).length ps) = gaps mid ps := by
  induction ps generalizing pre mid with
  | nil => simp [between, locate, gaps]
  | cons piece ps ih =>
    cases piece with
    | outside c =>
      have h := ih pre (mid ++ [c])
      simpa [locate, Piece.text, gaps, Nat.add_assoc] using h
    | hit b text =>
      have h := ih (pre ++ mid ++ text) []
      simp only [List.append_nil, List.length_append] at h
      simp only [locate, between, gaps, List.flatMap_cons, Piece.text, List.length_append, ← List.append_assoc] at h ⊢
      rw [h, List.append_assoc (pre ++ mid), ← List.length_append, List.take_left, List.drop_left]

theorem Scans.splice_eq {s : List α} {ps : List (Piece α β)} (h : Scans p s ps) (f : β → List α) :
    splice f s 0 (finditer p 0 0 s) = ps.flatMap (replaceHits f) := by
  have h' := splice_locate f ps [] []
  rwa [List.append_nil, List.nil_append, h.flatMap_text, List.nil_append, List.length_nil, ← h.finditer_eq] at h'

theorem Scans.between_eq {s : List α} {ps : List (Piece α β)} (h : Scans p s ps) :
    between s 0 (finditer p 0 0 s) = gaps [] ps := by
  have h' := between_locate ps [] []
  rwa [List.append_nil, List.nil_append, h.flatMap_text, List.length_nil, ← h.finditer_eq] at h'

/-! ## Cutting a text -/

/-- The pieces of the first `n` characters, when a match that is cut falls
apart into characters. -/
def takePieces : Nat → List (Piece α β) → List (Piece α β)
  | 0, _ => []
  | _ + 1, [] => []
  | n + 1, .outside c :: ps => .outside c :: takePieces n ps
  | n + 1, .hit b text :: ps =>
    if text.length ≤ n + 1 then .hit b text :: takePieces (n + 1 - text.length) ps
    else (text.take (n + 1)).map .outside

@[simp] theorem hits_map_outside (s : List α) : hits (s.map .outside : List (Piece α β)) = [] := by
  induction s with
  | nil => rfl
  | cons c s ih => exact ih

theorem hits_append (ps qs : List (Piece α β)) : hits (ps ++ qs) = hits ps ++ hits qs := by
  induction ps with
  | nil => rfl
  | cons piece ps ih => cases piece <;> simp [hits, ih]

theorem outsides_append (ps qs : List (Piece α β)) : outsides (ps ++ qs) = outsides ps ++ outsides qs := by
  induction ps with
  | nil => rfl
  | cons piece ps ih => cases piece <;> simp [outsides, ih]

theorem hits_takePieces_first (ps : List (Piece α β)) (n : Nat) : hits (takePieces n ps) <+: hits ps := by
  induction ps generalizing n with
  | nil => cases n <;> simp [takePieces, hits]
  | cons piece ps ih =>
    cases n with
    | zero => simp [takePieces, hits]
    | succ n =>
      cases piece with
      | outside c => exact ih n
      | hit b text =>
        rw [takePieces]
        split
        · exact List.cons_prefix_cons.2 ⟨rfl, ih _⟩
        · rw [hits_map_outside]
          exact List.nil_prefix

theorem exists_piece_of_outsides {ps : List (Piece α β)} {xs ys : List α} {c : α} (h : outsides ps = xs ++ c :: ys) :
    ∃ pre post, ps = pre ++ .outside c :: post ∧ outsides pre = xs ∧ outsides post = ys := by
  induction ps generalizing xs with
  | nil => simp [outsides] at h
  | cons piece ps ih =>
    cases piece with
    | hit b text =>
      obtain ⟨pre, post, rfl, hpre, hpost⟩ := ih h
      exact ⟨.hit b text :: pre, post, rfl, hpre, hpost⟩
    | outside d =>
      cases xs with
      | nil =>
        cases h
        exact ⟨[], ps, rfl, rfl, rfl⟩
      | cons x xs =>
        obtain ⟨hd, hrest⟩ := List.cons.inj h
        obtain ⟨pre, post, rfl, hpre, hpost⟩ := ih hrest
        exact ⟨.outside d :: pre, post, rfl, by rw [outsides, hpre, hd], hpost⟩

/-- The runs and the matches between them put together. -/
def weave (text : β → List α) : List (List α) → List β → List α
  | gap :: gaps, b :: bs => gap ++ (text b ++ weave text gaps bs)
  | gap :: _, [] => gap
  | [], _ => []

/-- A text is determined by its matches and the text between them. -/
theorem flatMap_text_eq_weave {text : β → List α} {ps : List (Piece α β)} (h : ∀ b t, .hit b t ∈ ps → t = text b)
    (pre : List α) : pre ++ ps.flatMap Piece.text = weave text (gaps pre ps) (hits ps) := by
  induction ps generalizing pre with
  | nil => simp [gaps, hits, weave]
  | cons piece ps ih =>
    have hps : ∀ b t, Piece.hit b t ∈ ps → t = text b := fun b t hmem => h b t (List.mem_cons_of_mem _ hmem)
    cases piece with
    | outside c => rw [gaps, hits, ← ih hps (pre ++ [c])]; simp [Piece.text]
    | hit b t =>
      rw [gaps, hits, weave, ← ih hps [], List.flatMap_cons, Piece.text, h b t List.mem_cons_self, List.nil_append]

/-- A text without a match is one on no suffix of which the pattern matches. -/
theorem Scans.hits_eq_nil {s : List α} {ps : List (Piece α β)} (h : Scans p s ps) :
    hits ps = [] ↔ ∀ pre c t, s = pre ++ c :: t → p (c :: t) = .none := by
  induction h with
  | nil => simp [hits]
  | @outside c s ps hmatch _ ih =>
    rw [hits, ih]
    constructor
    · intro hall pre d t heq
      cases pre with
      | nil =>
        cases heq
        exact hmatch
      | cons e pre => exact hall pre d t (List.cons.inj heq).2
    · intro hall pre d t heq
      exact hall (c :: pre) d t (by rw [heq, List.cons_append])
  | hit hmatch _ _ =>
    refine ⟨fun h => (by cases h), fun hall => ?_⟩
    rw [hall [] _ _ rfl] at hmatch
    cases hmatch

end FindIter
