/-
The models of a clause set, written as lists of signed numbers.

A total list over `n` variables has, at each place from one to `n`, the
number of the place or its opposite; there are as many of them as there
are assignments of these variables (`mem_signedLists`). A list satisfies a
clause that has one of its entries among the literals, so satisfaction is
a matter of membership and no evaluation is needed to state it.

Two bridges lead back to evaluation, where the literals are in range: an
assignment satisfies a clause as its list does (`clauseHolds_iff_mem`), and
the clause of all opposite entries is failed by one list alone
(`clauseHolds_opposite`).
-/
import SatSession.Formula
import Mathlib.Data.List.Nodup

namespace SatSession

-- ======================================================== signed lists

/-- The entry of a variable in the list of an assignment. -/
def signed (a : Assignment) (i : Nat) : Int := if a i then i else -i

/-- An assignment of the variables from one to `n` as a list. -/
def signedList (a : Assignment) (n : Nat) : List Int :=
  (List.range' 1 n).map (signed a)

/-- A list with an entry for each variable from one to `n`, the number of
the variable or its opposite. -/
structure Total (n : Nat) (s : List Int) : Prop where
  length : s.length = n
  entry : ∀ i, i < n →
    s[i]? = some ((i : Int) + 1) ∨ s[i]? = some (-((i : Int) + 1))

/-- All total lists. -/
def signedLists : Nat → List (List Int)
  | 0 => [[]]
  | n + 1 => (signedLists n).flatMap fun s =>
      [s ++ [(n : Int) + 1], s ++ [-((n : Int) + 1)]]

/-- A list that has an entry of each clause. -/
def Satisfies (s : List Int) (clauses : List (List Int)) : Prop :=
  ∀ c ∈ clauses, ∃ l ∈ c, l ∈ s

instance (s : List Int) (clauses : List (List Int)) :
    Decidable (Satisfies s clauses) :=
  inferInstanceAs (Decidable (∀ c ∈ clauses, ∃ l ∈ c, l ∈ s))

/-- The total lists that satisfy all clauses. -/
def models (n : Nat) (clauses : List (List Int)) : List (List Int) :=
  (signedLists n).filter fun s => decide (Satisfies s clauses)

/-- The largest number of a variable in some clauses. -/
def largest (clauses : List (List Int)) : Nat :=
  (clauses.flatten.map Int.natAbs).foldr max 0

-- ============================================================ entries

variable {a b : Assignment} {n : Nat}

@[simp] theorem length_signedList : (signedList a n).length = n := by
  simp [signedList]

theorem signedList_succ :
    signedList a (n + 1) = signedList a n ++ [signed a (n + 1)] := by
  simp [signedList, List.range'_concat, Nat.add_comm]

/-- The lists of two assignments agree where the assignments do. -/
theorem signedList_congr :
    signedList a n = signedList b n
      ↔ ∀ i, 1 ≤ i → i ≤ n → a i = b i := by
  unfold signedList
  rw [List.map_inj_left]
  have hentry : ∀ i, 1 ≤ i → (signed a i = signed b i ↔ a i = b i) := by
    intro i hi
    unfold signed
    cases a i <;> cases b i <;> simp <;> omega
  constructor
  · intro h i h1 hn
    exact (hentry i h1).mp (h i (List.mem_range'_1.mpr (by omega)))
  · intro h i hi
    rw [List.mem_range'_1] at hi
    exact (hentry i hi.1).mpr (h i hi.1 (by omega))

/-- The literal in a place is about the variable of that place. -/
theorem getElem?_signedList {i : Nat} (hi : i < n) :
    (signedList a n)[i]? = some (signed a (i + 1)) := by
  unfold signedList
  rw [List.getElem?_map, List.getElem?_range' hi]
  simp [Nat.add_comm]

/-- A signed list is total. -/
theorem total_signedList (a : Assignment) (n : Nat) :
    Total n (signedList a n) := by
  refine ⟨length_signedList, fun i hi => ?_⟩
  rw [getElem?_signedList hi, signed]
  split
  · exact Or.inl rfl
  · exact Or.inr rfl

/-- Every total list is the list of an assignment. -/
theorem Total.exists_eq {s : List Int} (h : Total n s) :
    ∃ a, s = signedList a n := by
  refine ⟨fun i => decide (s[i - 1]? = some (i : Int)), ?_⟩
  refine List.ext_getElem? fun i => ?_
  rcases Nat.lt_or_ge i n with hi | hi
  · rw [getElem?_signedList hi]
    rcases h.entry i hi with hpos | hneg
    · simp [signed, hpos]
    · have hfalse : ¬ s[i + 1 - 1]? = some ((i + 1 : Nat) : Int) := by
        rw [Nat.add_sub_cancel, hneg]
        intro heq
        have hsame := Option.some.inj heq
        omega
      rw [hneg, signed, if_neg (by rw [decide_eq_true_iff]; exact hfalse)]
      rfl
  · rw [List.getElem?_eq_none (by rw [h.length]; exact hi),
      List.getElem?_eq_none (by rw [length_signedList]; exact hi)]

/-- There are no other total lists. -/
theorem total_iff {s : List Int} : Total n s ↔ ∃ a, s = signedList a n :=
  ⟨Total.exists_eq, fun ⟨a, ha⟩ => ha ▸ total_signedList a n⟩

-- ======================================================== the listing

/-- A total list is one over fewer variables with one entry more. -/
theorem mem_signedLists : ∀ {n : Nat} {s : List Int},
    s ∈ signedLists n ↔ Total n s := by
  intro n
  induction n with
  | zero =>
      intro s
      rw [total_iff]
      simp [signedLists, signedList]
  | succ n ih =>
      intro s
      rw [signedLists, List.mem_flatMap]
      constructor
      · intro hex
        obtain ⟨s', hs', hs⟩ := hex
        obtain ⟨a, rfl⟩ := (ih.mp hs').exists_eq
        -- the assignment that also decides the last variable
        have hlast : ∀ v : Bool, Total (n + 1)
            (signedList a n ++ [if v then (n : Int) + 1
              else -((n : Int) + 1)]) := by
          intro v
          refine total_iff.mpr
            ⟨fun i => if i = n + 1 then v else a i, ?_⟩
          have hbelow : signedList (fun i => if i = n + 1 then v else a i) n
              = signedList a n :=
            signedList_congr.mpr fun i _ hi => if_neg (by omega)
          rw [signedList_succ, hbelow, signed]
          simp
        rcases List.mem_cons.mp hs with rfl | hs
        · exact hlast true
        · rw [List.mem_singleton.mp hs]
          exact hlast false
      · intro h
        obtain ⟨a, rfl⟩ := h.exists_eq
        refine ⟨signedList a n, ih.mpr (total_signedList a n), ?_⟩
        rw [signedList_succ, signed]
        split <;> simp

/-- No signed list is listed twice. -/
theorem nodup_signedLists : ∀ n : Nat, (signedLists n).Nodup := by
  intro n
  induction n with
  | zero => simp [signedLists]
  | succ n ih =>
      rw [signedLists, List.nodup_flatMap]
      constructor
      · intro s _
        refine List.nodup_cons.mpr ⟨fun hmem => ?_, List.nodup_singleton _⟩
        have hlast := List.append_cancel_left (List.mem_singleton.mp hmem)
        have heq : (n : Int) + 1 = -((n : Int) + 1) :=
          List.singleton_inj.mp hlast
        omega
      · -- lists that differ before the last entry differ
        refine ih.imp fun {s s'} hss' => ?_
        intro t ht ht'
        have hinit : ∀ {u : List Int},
            t ∈ [u ++ [(n : Int) + 1], u ++ [-((n : Int) + 1)]] →
            t.dropLast = u := by
          intro u hu
          rcases List.mem_cons.mp hu with rfl | hu
          · exact List.dropLast_concat
          · rw [List.mem_singleton.mp hu]
            exact List.dropLast_concat
        exact hss' ((hinit ht).symm.trans (hinit ht'))

/-- The models are the total lists that satisfy the clauses. -/
theorem mem_models {clauses : List (List Int)} {s : List Int} :
    s ∈ models n clauses ↔ Total n s ∧ Satisfies s clauses := by
  simp [models, mem_signedLists]

/-- No model is listed twice. -/
theorem nodup_models (n : Nat) (clauses : List (List Int)) :
    (models n clauses).Nodup :=
  (nodup_signedLists n).filter _

-- ========================================================= evaluation

/-- A literal in range holds if it is an entry of the list. -/
theorem litHolds_iff_mem {l : Int} (hl : l ≠ 0) (hn : l.natAbs ≤ n) :
    litHolds a l = true ↔ l ∈ signedList a n := by
  have hmem : l ∈ signedList a n ↔ signed a l.natAbs = l := by
    unfold signedList
    rw [List.mem_map]
    constructor
    · intro hex
      obtain ⟨i, -, hi⟩ := hex
      have hli : l.natAbs = i := by
        rw [← hi, signed]
        split <;> simp
      rw [hli]
      exact hi
    · intro h
      exact ⟨l.natAbs, List.mem_range'_1.mpr (by omega), h⟩
  rw [hmem, litHolds, signed]
  by_cases hpos : 0 < l
  · rw [if_pos hpos]
    cases a l.natAbs with
    | true =>
        rw [if_pos rfl]
        exact iff_of_true rfl (by omega)
    | false =>
        rw [if_neg Bool.false_ne_true]
        exact iff_of_false Bool.false_ne_true (by omega)
  · rw [if_neg hpos]
    cases a l.natAbs with
    | true =>
        rw [if_pos rfl]
        exact iff_of_false Bool.false_ne_true (by omega)
    | false =>
        rw [if_neg Bool.false_ne_true]
        exact iff_of_true rfl (by omega)

/-- A clause depends on its own variables alone. -/
theorem clauseHolds_congr {clause : List Int}
    (h : ∀ l ∈ clause, a l.natAbs = b l.natAbs) :
    clauseHolds a clause = clauseHolds b clause := by
  have hlit : ∀ l ∈ clause, litHolds a l = litHolds b l := fun l hl => by
    unfold litHolds
    rw [h l hl]
  unfold clauseHolds
  rw [Bool.eq_iff_iff, List.any_eq_true, List.any_eq_true]
  refine exists_congr fun l => and_congr_right fun hl => ?_
  rw [hlit l hl]

/-- An assignment satisfies a clause in range as its list does. -/
theorem clauseHolds_iff_mem {clause : List Int}
    (h : ∀ l ∈ clause, l ≠ 0 ∧ l.natAbs ≤ n) :
    clauseHolds a clause = true ↔ ∃ l ∈ clause, l ∈ signedList a n := by
  unfold clauseHolds
  rw [List.any_eq_true]
  refine exists_congr fun l => and_congr_right fun hl => ?_
  exact litHolds_iff_mem (h l hl).1 (h l hl).2

/-- The clause of all opposite entries of a list is failed by that list
alone. -/
theorem clauseHolds_opposite :
    clauseHolds a ((signedList b n).map (- ·)) = true
      ↔ signedList a n ≠ signedList b n := by
  have hlit : ∀ i, 1 ≤ i →
      (litHolds a (-(signed b i)) = true ↔ a i ≠ b i) := by
    intro i hi
    unfold litHolds signed
    cases b i
    · simp
      omega
    · simp
  rw [ne_eq, signedList_congr]
  unfold clauseHolds signedList
  rw [List.any_eq_true]
  constructor
  · intro hpost hall
    obtain ⟨l, hl, hholds⟩ := hpost
    rw [List.map_map, List.mem_map] at hl
    obtain ⟨i, hi, rfl⟩ := hl
    rw [List.mem_range'_1] at hi
    exact (hlit i hi.1).mp hholds (hall i hi.1 (by omega))
  · intro h
    push Not at h
    obtain ⟨i, h1, hn, hne⟩ := h
    refine ⟨-(signed b i), ?_, (hlit i h1).mpr hne⟩
    rw [List.map_map]
    exact List.mem_map.mpr ⟨i, List.mem_range'_1.mpr (by omega), rfl⟩

/-- The entries of a total list are about variables in range. -/
theorem Total.inRange {s : List Int} (h : Total n s) {l : Int}
    (hl : l ∈ s) : l ≠ 0 ∧ l.natAbs ≤ n := by
  obtain ⟨a, rfl⟩ := h.exists_eq
  obtain ⟨i, hi, rfl⟩ := List.mem_map.mp hl
  rw [List.mem_range'_1] at hi
  unfold signed
  split <;> constructor <;> omega

/-- Of all total lists, one alone has no entry opposite to its own. -/
theorem exists_opposite_iff {s t : List Int} (hs : Total n s)
    (ht : Total n t) : (∃ l ∈ t.map (- ·), l ∈ s) ↔ s ≠ t := by
  obtain ⟨a, rfl⟩ := hs.exists_eq
  obtain ⟨b, rfl⟩ := ht.exists_eq
  rw [← clauseHolds_opposite, clauseHolds_iff_mem]
  intro l hl
  obtain ⟨m, hm, rfl⟩ := List.mem_map.mp hl
  have hm := (total_signedList b n).inRange hm
  constructor <;> omega

/-- More clauses are satisfied if both parts are. -/
theorem satisfies_append {s : List Int} {clauses more : List (List Int)} :
    Satisfies s (clauses ++ more)
      ↔ Satisfies s clauses ∧ Satisfies s more := by
  unfold Satisfies
  simp only [List.mem_append, or_imp, forall_and]

/-- Total lists are ruled out one by one. -/
theorem satisfies_opposites {s : List Int} (hs : Total n s)
    {found : List (List Int)} (hfound : ∀ t ∈ found, Total n t) :
    Satisfies s (found.map (·.map (- ·))) ↔ s ∉ found := by
  unfold Satisfies
  rw [List.forall_mem_map]
  constructor
  · intro h hmem
    exact (exists_opposite_iff hs (hfound s hmem)).mp (h s hmem) rfl
  · intro h t ht
    refine (exists_opposite_iff hs (hfound t ht)).mpr fun hst => h ?_
    rw [hst]
    exact ht

/-- The clause of all opposite entries takes one model away. -/
theorem models_append_opposite {s : List Int} (hs : Total n s)
    (clauses : List (List Int)) :
    models n (clauses ++ [s.map (- ·)]) = (models n clauses).erase s := by
  rw [(nodup_models n clauses).erase_eq_filter, models, models,
    List.filter_filter]
  refine List.filter_congr fun t ht => ?_
  have hopposite : Satisfies t [s.map (- ·)] ↔ t ≠ s := by
    rw [← exists_opposite_iff (mem_signedLists.mp ht) hs]
    exact List.forall_mem_singleton
  rw [Bool.eq_iff_iff, decide_eq_true_iff, Bool.and_eq_true,
    decide_eq_true_iff, bne_iff_ne, satisfies_append, hopposite, and_comm]

-- =========================================================== the range

theorem foldr_max_append (ms ns : List Nat) :
    (ms ++ ns).foldr max 0 = max (ms.foldr max 0) (ns.foldr max 0) := by
  induction ms with
  | nil => simp
  | cons m ms ih =>
      rw [List.cons_append, List.foldr_cons, List.foldr_cons, ih,
        Nat.max_assoc]

/-- Literals joined to a clause add their own variables. -/
theorem largest_join (clause more : List Int) :
    largest [clause ++ more] = max (largest [clause]) (largest [more]) := by
  simp only [largest, List.flatten_cons, List.flatten_nil, List.append_nil,
    List.map_append, foldr_max_append]

/-- The largest variable of the clauses is that of all their literals. -/
theorem largest_flatten (clauses : List (List Int)) :
    largest [clauses.flatten] = largest clauses := by
  simp [largest]

end SatSession
