/-
Keyset pages of a revisioned collection.

One plan of sort keys gives a listing's `ORDER BY`, the predicate of its pages
and the values its cursor carries. The predicate is an `OR` of prefix-equal
`AND`s, so a comparison with a null is unknown there and not true, where the
order places nulls. A plan is built so that it never matters: a key that can be
null comes after its missing-rank key. Then the predicate says what the order
does, and pages lose and repeat nothing (`keyset_lossless`).
-/
import Nexus.Lib.OrderBy
import Nexus.Lib.Sql

namespace Nexus.Collections

open Sql

/-! ## Plans -/

/-- How a key's value goes through the cursor. -/
inductive KeysetValueKind
  | int
  | dateTime
  | dateTimeOrNull
  | uuid
  | text
  | textOrNull
  deriving DecidableEq, Repr

structure KeysetValue (K : Type) where
  kind : KeysetValueKind
  value : Option K

/-- One key of a total keyset order: a projected column, its direction and how
the value goes through the cursor. -/
structure SortKey where
  column : String
  direction : Direction
  value : KeysetValueKind
  deriving DecidableEq, Repr

/-- A row of a listing's `facts`, by column. -/
abbrev Row (K : Type) := String → Option K

section Plan

variable {K : Type}

/-- What `order_by_sql` lists. -/
def orderKeys (plan : List SortKey) : List (Key (Row K) K) :=
  plan.map fun key => ⟨fun row => row key.column, key.direction⟩

def afterValues (plan : List SortKey) (row : Row K) : List (KeysetValue K) :=
  plan.map fun key => ⟨key.value, row key.column⟩

def expectedKinds (plan : List SortKey) : List KeysetValueKind := plan.map SortKey.value

/-- The check of `decode_signed_keyset_cursor` on the values of a cursor it minted. -/
def decodeAfter (expectedKinds : List KeysetValueKind) (after : List (KeysetValue K)) : Option (List (Option K)) :=
  if after.map KeysetValue.kind = expectedKinds then .some (after.map KeysetValue.value) else .none

/-- What `:ks_column` is bound to, by column. The zip is strict, and a dict
keeps the last value of a column; the clause reads no column beside the plan's. -/
def keysetParams (plan : List SortKey) (values : List (Option K)) : Option (Row K) :=
  if plan.length = values.length then
    .some fun column => (((plan.map SortKey.column).zip values).reverse.lookup column).join
  else .none

/-- The parameters a cursor gives a listing's query. -/
def cursorParams (plan : List SortKey) (after : List (KeysetValue K)) : Option (Row K) :=
  (decodeAfter (expectedKinds plan) after).bind (keysetParams plan)

variable [LinearOrder K]

/-- `row > bound` for an ascending key, `row < bound` for a descending one. -/
def strictlyPast (direction : Direction) (row bound : Option K) : Truth :=
  match direction with
  | .asc => lt bound row
  | .desc => lt row bound

def keysetClause (plan : List SortKey) (ks row : Row K) : Truth :=
  disjAll (plan.mapIdx fun index key =>
    conjAll (((plan.take index).map fun earlier => isNotDistinctFrom (row earlier.column) (ks earlier.column)) ++
      [strictlyPast key.direction (row key.column) (ks key.column)]))

/-! ## Listings -/

/-- A listing over its `facts`: `WHERE` the clause of the cursor holds,
`ORDER BY` the plan, `LIMIT limit + 1`, and the cursor of the last row when
more was fetched. -/
def listPage (plan : List SortKey) (facts : List (Row K)) (limit : Nat) (cursor : Option (List (KeysetValue K))) :
    Option (List (Row K) × Option (List (KeysetValue K))) :=
  let selected : Option (List (Row K)) := match cursor with
    | .none => .some facts
    | .some after => (cursorParams plan after).map fun ks => facts.filter fun row => isTrue (keysetClause plan ks row)
  selected.map fun rows => pageOf (afterValues plan) limit (orderBy (orderKeys plan) rows)

/-! ## The clause is the order -/

omit [LinearOrder K] in
theorem lookup_of_values (row : Row K) {l : List (String × Option K)} (h : ∀ p ∈ l, p.2 = row p.1) {column : String}
    (hc : column ∈ l.map Prod.fst) : l.lookup column = .some (row column) := by
  induction l with
  | nil => simp at hc
  | cons p l ih =>
    obtain ⟨c, v⟩ := p
    rw [List.forall_mem_cons] at h
    rw [List.lookup_cons]
    by_cases heq : column = c
    · subst heq
      have hv : v = row column := h.1
      simp [hv]
    · have hmem : column ∈ l.map Prod.fst := by simpa [heq] using hc
      rw [beq_false_of_ne heq]
      exact ih h.2 hmem

omit [LinearOrder K] in
theorem cursorParams_afterValues (plan : List SortKey) (bound : Row K) :
    ∃ ks, cursorParams plan (afterValues plan bound) = .some ks ∧ ∀ key ∈ plan, ks key.column = bound key.column := by
  have hkinds : (afterValues plan bound).map KeysetValue.kind = expectedKinds plan := by
    simp [afterValues, expectedKinds, Function.comp_def]
  have hvalues : (afterValues plan bound).map KeysetValue.value = plan.map fun key => bound key.column := by
    simp [afterValues, Function.comp_def]
  have hlength : plan.length = (plan.map fun key => bound key.column).length := by rw [List.length_map]
  have hparams : cursorParams plan (afterValues plan bound) = keysetParams plan (plan.map fun key => bound key.column) := by
    unfold cursorParams decodeAfter
    rw [if_pos hkinds, hvalues, Option.bind_some]
  refine ⟨_, hparams.trans (if_pos hlength), ?_⟩
  · intro key hkey
    rw [List.zip_map', lookup_of_values bound]
    · rfl
    · intro p hp
      rw [List.mem_reverse, List.mem_map] at hp
      obtain ⟨k, -, rfl⟩ := hp
      rfl
    · rw [List.map_reverse, List.mem_reverse, List.map_map]
      exact List.mem_map_of_mem hkey

/-- On the rows of `facts` a key is never null, or comes after a missing-rank
key: rows equal there have the key together or miss it together, as a rank that
projects `(column IS NULL)::int` sees to. -/
def NullsRanked (plan : List SortKey) (facts : Row K → Prop) : Prop :=
  ∀ earlier key later, plan = earlier ++ key :: later →
    (∀ row, facts row → row key.column ≠ .none) ∨
      ∃ rank ∈ earlier, ∀ a b, facts a → facts b → a rank.column = b rank.column →
        (a key.column = .none ↔ b key.column = .none)

/-- The plan's last key is unique on the rows. -/
def UniqueLast (plan : List SortKey) (rows : List (Row K)) : Prop :=
  ∃ init key, plan = init ++ [key] ∧ rows.Pairwise fun a b => a key.column ≠ b key.column

theorem isTrue_disjunct (earlier : List SortKey) (key : SortKey) (ks row : Row K) :
    isTrue (conjAll ((earlier.map fun k => isNotDistinctFrom (row k.column) (ks k.column)) ++
        [strictlyPast key.direction (row key.column) (ks key.column)])) = true ↔
      (∀ k ∈ earlier, row k.column = ks k.column) ∧
        isTrue (strictlyPast key.direction (row key.column) (ks key.column)) = true := by
  rw [isTrue_conjAll, List.all_append, Bool.and_eq_true, List.all_map]
  simp [List.all_eq_true]

theorem keysetClause_iff (plan : List SortKey) (ks row : Row K) :
    isTrue (keysetClause plan ks row) = true ↔
      ∃ earlier key later, plan = earlier ++ key :: later ∧ (∀ k ∈ earlier, row k.column = ks k.column) ∧
        isTrue (strictlyPast key.direction (row key.column) (ks key.column)) = true := by
  unfold keysetClause
  rw [isTrue_disjAll, List.any_eq_true]
  constructor
  · rintro ⟨t, ht, htrue⟩
    obtain ⟨i, hi, rfl⟩ := List.mem_mapIdx.1 ht
    refine ⟨plan.take i, plan[i], plan.drop (i + 1), ?_, (isTrue_disjunct _ _ _ _).1 htrue⟩
    rw [← List.drop_eq_getElem_cons, List.take_append_drop]
  · rintro ⟨earlier, key, later, rfl, h⟩
    refine ⟨_, List.mem_mapIdx.2 ⟨earlier.length, by simp, rfl⟩, ?_⟩
    simp only [List.take_left', List.getElem_append_right, le_refl, Nat.sub_self, List.getElem_cons_zero]
    exact (isTrue_disjunct _ _ _ _).2 h

theorem isTrue_strictlyPast {key : Key (Row K) K} {bound row : Row K}
    (hnull : key.value bound = .none ↔ key.value row = .none) :
    isTrue (strictlyPast key.direction (key.value row) (key.value bound)) = true ↔ key.Before bound row := by
  unfold strictlyPast Key.Before
  cases hb : key.value bound with
  | none =>
    rw [hnull.1 hb]
    cases key.direction <;> simp
  | some b =>
    cases hr : key.value row with
    | none => exact absurd (hnull.2 hr) (by rw [hb]; exact Option.some_ne_none b)
    | some r => cases key.direction <;> simp

omit [LinearOrder K] in
theorem NullsRanked.null_iff {plan : List SortKey} {facts : Row K → Prop} (h : NullsRanked plan facts)
    {bound row : Row K} (hbound : facts bound) (hrow : facts row) {earlier later : List SortKey} {key : SortKey}
    (hplan : plan = earlier ++ key :: later) (hall : ∀ k ∈ earlier, bound k.column = row k.column) :
    bound key.column = .none ↔ row key.column = .none := by
  rcases h earlier key later hplan with hnever | ⟨rank, hrank, hsame⟩
  · exact iff_of_false (hnever bound hbound) (hnever row hrow)
  · exact hsame bound row hbound hrow (hall rank hrank)

theorem NullsRanked.keysetClause_iff_precedes {plan : List SortKey} {facts : Row K → Prop} (h : NullsRanked plan facts)
    {bound row : Row K} (hbound : facts bound) (hrow : facts row) {ks : Row K}
    (hks : ∀ key ∈ plan, ks key.column = bound key.column) :
    isTrue (keysetClause plan ks row) = true ↔ Precedes (orderKeys plan) bound row := by
  rw [keysetClause_iff, precedes_iff]
  constructor
  · rintro ⟨earlier, key, later, rfl, hall, hkey⟩
    have hprefix : ∀ k ∈ earlier, bound k.column = row k.column := fun k hk => by
      rw [hall k hk, hks k (List.mem_append_left _ hk)]
    rw [hks key (by simp)] at hkey
    refine ⟨orderKeys earlier, ⟨fun r => r key.column, key.direction⟩, orderKeys later, by simp [orderKeys], ?_, ?_⟩
    · intro k hk
      obtain ⟨sortKey, hmem, rfl⟩ := List.mem_map.1 hk
      exact hprefix sortKey hmem
    · exact (isTrue_strictlyPast (h.null_iff hbound hrow rfl hprefix)).1 hkey
  · rintro ⟨earlier, key, later, hplan, hall, hkey⟩
    obtain ⟨earlier, rest, rfl, rfl, hrest⟩ := List.map_eq_append_iff.1 hplan
    obtain ⟨sortKey, later, rfl, rfl, rfl⟩ := List.map_eq_cons_iff.1 hrest
    have hprefix : ∀ k ∈ earlier, bound k.column = row k.column := fun k hk => hall _ (List.mem_map_of_mem hk)
    refine ⟨earlier, sortKey, later, rfl, ?_, ?_⟩
    · intro k hk
      rw [hks k (List.mem_append_left _ hk), hprefix k hk]
    · rw [hks sortKey (by simp)]
      exact (isTrue_strictlyPast (h.null_iff hbound hrow rfl hprefix)).2 hkey

omit [LinearOrder K] in
theorem UniqueLast.distinguished {plan : List SortKey} {rows : List (Row K)} (h : UniqueLast plan rows) :
    Distinguished (orderKeys plan) rows := by
  obtain ⟨init, key, rfl, hunique⟩ := h
  refine hunique.imp fun hne => ⟨⟨fun r => r key.column, key.direction⟩, ?_, hne⟩
  simp [orderKeys]

theorem listPage_next {plan : List SortKey} {facts : Row K → Prop} (hranked : NullsRanked plan facts)
    {rows : List (Row K)} (hfacts : ∀ row ∈ rows, facts row) (hunique : UniqueLast plan rows) (limit : Nat)
    {before after : List (Row K)} {row : Row K} (hsplit : orderBy (orderKeys plan) rows = before ++ row :: after) :
    listPage plan rows limit (.some (afterValues plan row)) = .some (pageOf (afterValues plan) limit after) := by
  obtain ⟨ks, hparams, hks⟩ := cursorParams_afterValues plan row
  have hrow : row ∈ rows := by
    rw [← (perm_orderBy (orderKeys plan) rows).mem_iff, hsplit]
    simp
  have hfilter : (rows.filter fun r => isTrue (keysetClause plan ks r)) =
      rows.filter fun r => decide (Precedes (orderKeys plan) row r) := by
    refine List.filter_congr fun r hr => ?_
    rw [Bool.eq_iff_iff, decide_eq_true_iff]
    exact hranked.keysetClause_iff_precedes (hfacts row hrow) (hfacts r hr) hks
  have hsorted := hunique.distinguished.precedes_orderBy
  unfold listPage
  simp only [hparams, Option.map_some, hfilter]
  rw [hunique.distinguished.orderBy_filter, hsplit, filter_precedes (hsplit ▸ hsorted)]

/-- **Keyset pagination is lossless.** On the rows of `facts`, where a plan's
nulls are ranked, the page predicate of a bound row is true of exactly the rows
the order puts strictly after it. So over any rows the last key tells apart,
fetching pages to exhaustion gives the sorted listing, each row once and in
order. -/
theorem keyset_lossless {plan : List SortKey} {facts : Row K → Prop} (hranked : NullsRanked plan facts) :
    (∀ bound row, facts bound → facts row →
      ∃ ks, cursorParams plan (afterValues plan bound) = .some ks ∧
        (isTrue (keysetClause plan ks row) = true ↔ Precedes (orderKeys plan) bound row)) ∧
    ∀ rows : List (Row K), (∀ row ∈ rows, facts row) → UniqueLast plan rows →
      ∀ limit fuel, 1 ≤ limit → rows.length < fuel →
        ∃ l, pages (listPage plan rows limit) fuel .none = .some l ∧ l.flatten = orderBy (orderKeys plan) rows ∧
          l.flatten.Perm rows ∧ l.flatten.Pairwise (Precedes (orderKeys plan)) := by
  constructor
  · intro bound row hbound hrow
    obtain ⟨ks, hparams, hks⟩ := cursorParams_afterValues plan bound
    exact ⟨ks, hparams, hranked.keysetClause_iff_precedes hbound hrow hks⟩
  · intro rows hfacts hunique limit fuel hlimit hfuel
    have hlength : (orderBy (orderKeys plan) rows).length < fuel := by
      rwa [(perm_orderBy (orderKeys plan) rows).length_eq]
    obtain ⟨l, hpages, hflat⟩ := pages_flatten hlimit rfl
      (fun before row after hsplit => listPage_next hranked hfacts hunique limit hsplit) hlength
    refine ⟨l, hpages, hflat, ?_, ?_⟩
    · rw [hflat]
      exact perm_orderBy _ rows
    · rw [hflat]
      exact hunique.distinguished.precedes_orderBy

end Plan

/-! ## The publication order -/

/-- Works by date, the newest first and the undated last. -/
def publicationPlan : List SortKey :=
  [⟨"date_missing", .asc, .int⟩, ⟨"date_key", .desc, .textOrNull⟩, ⟨"href", .asc, .text⟩]

/-- A work's row; texts are numbered in their order. -/
def work (date : Option Nat) (href : Nat) : Row Nat := fun column =>
  if column = "date_missing" then .some (if date.isNone then 1 else 0)
  else if column = "date_key" then date
  else if column = "href" then .some href
  else .none

theorem publicationPlan_nullsRanked : NullsRanked publicationPlan fun row => ∃ date href, row = work date href := by
  intro earlier key later hplan
  rcases earlier with _ | ⟨missing, _ | ⟨date, _ | ⟨href, rest⟩⟩⟩
  · cases hplan
    left
    rintro row ⟨date, href, rfl⟩
    simp [work]
  · cases hplan
    right
    refine ⟨_, List.mem_cons_self, ?_⟩
    rintro a b ⟨d, h, rfl⟩ ⟨d', h', rfl⟩
    cases d <;> cases d' <;> simp [work]
  · cases hplan
    left
    rintro row ⟨date, href, rfl⟩
    simp [work]
  · simp [publicationPlan] at hplan

def works : List (Row Nat) := [work (.some 3) 1, work .none 2, work (.some 5) 3, work .none 4, work (.some 3) 5]

theorem keyset_lossless_works :
    (∃ ks, cursorParams publicationPlan (afterValues publicationPlan (work (.some 3) 5)) = .some ks ∧
      (isTrue (keysetClause publicationPlan ks (work .none 2)) = true ↔
        Precedes (orderKeys publicationPlan) (work (.some 3) 5) (work .none 2))) ∧
    ∃ l, pages (listPage publicationPlan works 2) 6 .none = .some l ∧
      l.flatten = orderBy (orderKeys publicationPlan) works ∧ l.flatten.Perm works ∧
      l.flatten.Pairwise (Precedes (orderKeys publicationPlan)) :=
  ⟨(keyset_lossless publicationPlan_nullsRanked).1 _ _ ⟨_, _, rfl⟩ ⟨_, _, rfl⟩,
    (keyset_lossless publicationPlan_nullsRanked).2 works (by
      intro row hrow
      simp only [works, List.mem_cons, List.not_mem_nil, or_false] at hrow
      rcases hrow with rfl | rfl | rfl | rfl | rfl <;> exact ⟨_, _, rfl⟩)
      ⟨[_, _], _, rfl, by decide⟩ 2 6 (by decide) (by decide)⟩

-- Without the missing rank an undated bound loses the dated works.
example : isTrue (keysetClause (publicationPlan.drop 1) (work .none 2) (work (.some 3) 1)) = false ∧
    Precedes (orderKeys (publicationPlan.drop 1)) (work .none 2) (work (.some 3) 1) := by
  decide

end Nexus.Collections
