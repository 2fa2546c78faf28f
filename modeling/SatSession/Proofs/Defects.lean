/-
What is wrong with a clause set, and what is wrong first.

A value that writes no clauses without zeros has a defect: it is no
sequence, or one of its items is none, or some item of an item is no whole
number or equals zero. Defects may stand side by side at any number of
places and even at one place, as for a double that equals zero. `Defect`
names them by where they are and what they are, and orders them as a
reader comes upon them: from the outside in, from the front to the back,
and the kind of a value before its size.

A check that fails objects to the first defect, whatever else is wrong
(`Clause.validate_first`, `Defect.first_of_clause`), and its fault names
the place (`Defect.fault_reported`).
-/
import SatSession.Proofs.ClauseData
import Mathlib.Data.Prod.Lex
import Mathlib.Order.Bounds.Defs
import Mathlib.Order.WithBot

namespace SatSession

-- ======================================================= clean values

namespace Value

/-- A value that writes a clause without a zero. -/
def IsCleanClause (v : Value) (clause : List Int) : Prop :=
  v.IsClause clause ∧ ∀ l ∈ clause, l ≠ 0

/-- A value that writes a set of clauses without a zero. -/
def IsCleanSet (v : Value) (clauses : List (List Int)) : Prop :=
  ∃ items, v.sequence? = some items
    ∧ List.Forall₂ IsCleanClause items.toList clauses

/-- The items of a sequence; anything else has none. -/
def itemList (v : Value) : List Value :=
  match v.sequence? with
  | Option.none => []
  | some items => items.toList

variable {v : Value} {items : Items}

/-- The items of a sequence are those that are checked. -/
theorem itemList_of_sequence (h : v.sequence? = some items) :
    v.itemList = items.toList := by
  unfold itemList
  rw [h]

/-- A clean set is a clause set. -/
theorem IsCleanSet.isClauseSet {clauses : List (List Int)}
    (h : v.IsCleanSet clauses) : v.IsClauseSet clauses := by
  obtain ⟨items, hseq, hclean⟩ := h
  exact ⟨items, hseq, hclean.imp fun _ _ hw => hw.1⟩

/-- Clauses that fit have no zeros. -/
theorem IsClauseSet.clean {clauses : List (List Int)}
    (h : v.IsClauseSet clauses) (hrange : InRange clauses) :
    v.IsCleanSet clauses := by
  obtain ⟨items, hseq, hwrites⟩ := h
  refine ⟨items, hseq, ?_⟩
  clear hseq
  generalize items.toList = values at hwrites
  induction hwrites with
  | nil => exact .nil
  | @cons w clause values clauses hw _ ih =>
      refine .cons ⟨hw, fun l hl => ?_⟩ (ih fun c hc => ?_)
      · exact (hrange clause List.mem_cons_self l hl).1
      · exact hrange c (List.mem_cons_of_mem clause hc)

/-- Each of the values writes one of the clauses. -/
theorem clean_of_mem {values : List Value} {clauses : List (List Int)}
    {w : Value} (h : List.Forall₂ IsCleanClause values clauses)
    (hw : w ∈ values) : ∃ c ∈ clauses, w.IsCleanClause c := by
  induction h with
  | nil => cases hw
  | cons hclean _ ih =>
      rcases List.mem_cons.mp hw with rfl | hw
      · exact ⟨_, List.mem_cons_self, hclean⟩
      · obtain ⟨c, hc, hwrites⟩ := ih hw
        exact ⟨c, List.mem_cons_of_mem _ hc, hwrites⟩

/-- Every clause of a clean set is clean. -/
theorem IsCleanSet.of_mem {clauses : List (List Int)} {w : Value}
    (h : v.IsCleanSet clauses) (hw : w ∈ v.itemList) :
    ∃ c ∈ clauses, w.IsCleanClause c := by
  obtain ⟨items, hseq, hclean⟩ := h
  rw [itemList_of_sequence hseq] at hw
  exact clean_of_mem hclean hw

end Value

-- ============================================================ defects

/-- What can be wrong with a clause. -/
inductive ClauseDefect where
  /-- It is no sequence. -/
  | shape
  /-- An item is no whole number. -/
  | kind (position : Nat)
  /-- An item equals zero. -/
  | zero (position : Nat)

/-- What can be wrong with a clause set. -/
inductive Defect where
  /-- It is no sequence. -/
  | shape
  /-- An item is wrong as a clause. -/
  | clause (index : Nat) (defect : ClauseDefect)

namespace ClauseDefect

/-- Where a defect comes: the whole before its items, an item before the
next one, and its kind before its size. -/
def rank : ClauseDefect → Nat
  | shape => 0
  | kind p => 2 * p + 1
  | zero p => 2 * p + 2

theorem rank_injective : Function.Injective rank := by
  intro d e h
  cases d <;> cases e <;> simp only [rank] at h <;> grind

noncomputable instance : LinearOrder ClauseDefect :=
  LinearOrder.lift' rank rank_injective

theorem le_iff {d e : ClauseDefect} : d ≤ e ↔ d.rank ≤ e.rank := Iff.rfl

/-- A clause has a defect, and `found` is the value that shows it. -/
def In (w found : Value) : ClauseDefect → Prop
  | shape => w.sequence? = none ∧ found = w
  | kind p => w.itemList[p]? = some found ∧ ∀ n, found ≠ .int n
  | zero p => w.itemList[p]? = some found ∧ found.eqInt 0 = .ok true

/-- The objection to a defect. -/
def fault (index : Value) (found : Value) : ClauseDefect → Fault
  | shape => .clauseShape index found.kind
  | kind p => .literalKind index p found.kind
  | zero p => .zeroLiteral index p

def errorClass : ClauseDefect → ErrorClass
  | shape => .shapeMismatch
  | kind _ => .typeMismatch
  | zero _ => .zeroLiteral

/-- The words for a defect of the clause with some index. -/
def message (index : Nat) (found : Value) : ClauseDefect → String
  | shape =>
      "clause " ++ toString index ++ ": sequence expected, got "
        ++ found.kind
  | kind p =>
      "clause " ++ toString index ++ ", literal " ++ toString p
        ++ ": integer expected, got " ++ found.kind
  | zero p =>
      "clause " ++ toString index ++ ", literal " ++ toString p
        ++ ": non-zero integer expected"

end ClauseDefect

namespace Defect

/-- Where a defect comes: the whole before its clauses, and a clause with
all its defects before the next one. -/
def rank : Defect → WithBot (ℕ ×ₗ ClauseDefect)
  | shape => ⊥
  | clause i d => (toLex (i, d) : ℕ ×ₗ ClauseDefect)

theorem rank_injective : Function.Injective rank := by
  intro d e h
  cases d with
  | shape =>
      cases e with
      | shape => rfl
      | clause j e => exact absurd h.symm (WithBot.coe_ne_bot)
  | clause i d =>
      cases e with
      | shape => exact absurd h (WithBot.coe_ne_bot)
      | clause j e =>
          cases toLex.injective (WithBot.coe_injective h)
          rfl

noncomputable instance : LinearOrder Defect :=
  LinearOrder.lift' rank rank_injective

/-- A set that is no sequence is the first thing that can be wrong. -/
theorem shape_le (d : Defect) : shape ≤ d :=
  (bot_le : ⊥ ≤ d.rank)

/-- Defects are ordered by their clauses, then by their places there. -/
theorem clause_le_clause {i j : Nat} {d e : ClauseDefect} :
    clause i d ≤ clause j e ↔ i < j ∨ i = j ∧ d ≤ e :=
  WithBot.coe_le_coe.trans Prod.Lex.toLex_le_toLex

/-- A clause set has a defect, and `found` is the value that shows it. -/
def In (v found : Value) : Defect → Prop
  | shape => v.sequence? = none ∧ found = v
  | clause i d => ∃ w, v.itemList[i]? = some w ∧ d.In w found

/-- The number of clauses in front of a defect. -/
def index : Defect → Nat
  | shape => 0
  | clause i _ => i

/-- The objection to a defect. -/
def fault (found : Value) : Defect → Fault
  | shape => .clauseSetShape found.kind
  | clause i d => d.fault (.int i) found

def errorClass : Defect → ErrorClass
  | shape => .shapeMismatch
  | clause _ d => d.errorClass

/-- The words for a defect. -/
def message (found : Value) : Defect → String
  | shape => "clause set: sequence expected, got " ++ found.kind
  | clause i d => d.message i found

end Defect

-- ============================================================ reports

/-- Every defect is one of the problem. -/
theorem Defect.fault_objection (d : Defect) (found : Value) :
    (d.fault found).Objection := by
  cases d with
  | shape => trivial
  | clause i d => cases d <;> trivial

/-- What is reported for a defect of a clause: its class and its words,
which name the index and the position. -/
theorem ClauseDefect.fault_reported {index : Nat}
    (h : index < Number.firstUnwritable) (found : Value)
    (d : ClauseDefect) :
    (d.fault (.int index) found).errorClass = d.errorClass
      ∧ (d.fault (.int index) found).message?
        = some (d.message index found) := by
  have hwritable : (Value.int index).isWritable = true := by
    simp only [Value.isWritable, Number.isWritable, Int.natAbs_natCast,
      decide_eq_true_eq]
    exact h
  have hself : (d.fault (.int index) found).reported
      = d.fault (.int index) found := by
    unfold Fault.reported
    cases d <;> simp only [fault, Fault.mentioned, List.all_cons,
      List.all_nil, hwritable, Bool.and_true, if_true]
  unfold Fault.errorClass Fault.message?
  rw [hself]
  cases d <;> exact ⟨rfl, rfl⟩

/-- What is reported for a defect, as long as the index of its clause can
be written out. -/
theorem Defect.fault_reported {d : Defect}
    (h : d.index < Number.firstUnwritable) (found : Value) :
    (d.fault found).errorClass = d.errorClass
      ∧ (d.fault found).message? = some (d.message found) := by
  cases d with
  | shape => exact ⟨rfl, rfl⟩
  | clause i d => exact d.fault_reported h found

-- =============================================================== first

/-- All that is wrong with a clause. -/
def Value.clauseDefects (w : Value) : Set ClauseDefect :=
  {d | ∃ found, d.In w found}

/-- All that is wrong with a clause set. -/
def Value.defects (v : Value) : Set Defect :=
  {d | ∃ found, d.In v found}

/-- What is wrong first, and the value that shows it. -/
structure Defect.First (v found : Value) (d : Defect) : Prop where
  shown : d.In v found
  least : IsLeast v.defects d

-- ===================================================== inside a clause

namespace ClauseDefect

variable {d : ClauseDefect} {w found x : Value} {items : Items}
  {clause : List Int} {rest : List Value}

/-- Behind literals that are clean, every defect stands behind them too. -/
theorem In.position (h : d.In w found) (hseq : w.sequence? = some items)
    (hitems : items.toList = clause.map Value.int ++ rest)
    (hclean : ∀ l ∈ clause, l ≠ 0) :
    ∃ p, (d = kind p ∨ d = zero p) ∧ clause.length ≤ p
      ∧ rest[p - clause.length]? = some found := by
  have hlist : w.itemList = clause.map Value.int ++ rest :=
    (Value.itemList_of_sequence hseq).trans hitems
  -- an item among the clean literals is a whole number other than zero
  have hbehind : ∀ p, w.itemList[p]? = some found →
      (∀ l : Int, l ≠ 0 → found ≠ .int l) →
        clause.length ≤ p ∧ rest[p - clause.length]? = some found := by
    intro p hp hno
    rw [hlist] at hp
    by_cases hlt : p < clause.length
    · rw [List.getElem?_append_left (by simpa using hlt),
        List.getElem?_map] at hp
      obtain ⟨l, hl, rfl⟩ := Option.map_eq_some_iff.mp hp
      exact absurd rfl (hno l (hclean l (List.mem_of_getElem? hl)))
    · rw [List.getElem?_append_right (by simpa using hlt),
        List.length_map] at hp
      exact ⟨Nat.le_of_not_lt hlt, hp⟩
  cases d with
  | shape =>
      rw [In, hseq] at h
      cases h.1
  | kind p =>
      exact ⟨p, Or.inl rfl, hbehind p h.1 fun l _ => h.2 l⟩
  | zero p =>
      refine ⟨p, Or.inr rfl, hbehind p h.1 ?_⟩
      rintro l hl rfl
      have hzero : (l == 0) = true := Except.ok.inj h.2
      exact hl (by simpa using hzero)

/-- A clean clause has no defect. -/
theorem not_in_clean (h : w.IsCleanClause clause) : ¬ d.In w found := by
  intro hd
  obtain ⟨⟨items, hseq, hitems⟩, hclean⟩ := h
  obtain ⟨p, -, -, hp⟩ := hd.position hseq
    (by rw [hitems, List.append_nil]) hclean
  simp at hp

/-- The value that stops a check is a first defect. -/
theorem isLeast_of_stop (hseq : w.sequence? = some items)
    (hitems : items.toList = clause.map Value.int ++ x :: rest)
    (hclean : ∀ l ∈ clause, l ≠ 0) (hd : d.In w x)
    (hplace : d = kind clause.length ∨ d = zero clause.length
      ∧ ∃ n, x = .int n) :
    IsLeast w.clauseDefects d := by
  refine ⟨⟨x, hd⟩, ?_⟩
  rintro e ⟨found, he⟩
  obtain ⟨p, hep, hle, hp⟩ := he.position hseq hitems hclean
  rw [le_iff]
  -- at the same place it is the same value, and the kind comes first
  have hsame : clause.length = p → found = x := by
    rintro rfl
    simpa using hp.symm
  rcases hplace with rfl | ⟨rfl, n, rfl⟩
  · rcases hep with rfl | rfl <;> simp only [rank] <;> omega
  · rcases hep with rfl | rfl
    · have hne : clause.length ≠ p := fun hat => he.2 n (hsame hat)
      simp only [rank]
      omega
    · simp only [rank]
      omega

end ClauseDefect

namespace Clause

/-- What is no clean clause does not pass the check. -/
theorem exists_validate_error {w : Value}
    (h : ∀ clause, ¬ w.IsCleanClause clause) (index : Value) :
    ∃ f, validate w index = .error f := by
  cases hcheck : validate w index with
  | ok clause => exact absurd (validate_iff.mp hcheck) (h clause)
  | error f => exact ⟨f, rfl⟩

/-- A value that is no literal is of another kind, or it is zero. -/
theorem literal_error {index v : Value} {position : Nat} {f : Fault}
    (h : literal index position v = .error f) :
    ((∀ n, v ≠ .int n) ∧ f = .literalKind index position v.kind)
      ∨ (v = .int 0 ∧ f = .zeroLiteral index position) := by
  unfold literal at h
  split at h
  next n =>
    split at h
    next hn =>
      cases h
      exact Or.inr ⟨by rw [hn], rfl⟩
    next => cases h
  next hother =>
    cases h
    exact Or.inl ⟨hother, rfl⟩

/-- Checking value after value stops at the first one that is no literal. -/
theorem foldlM_extend_error {index : Value} {f : Fault} :
    ∀ (items : List Value) (position : Nat) (before : List Int),
      items.foldlM (extend index) (position, before) = .error f →
        ∃ (clause : List Int) (v : Value) (rest : List Value),
          items = clause.map Value.int ++ v :: rest
            ∧ (∀ l ∈ clause, l ≠ 0)
            ∧ literal index (position + clause.length) v = .error f := by
  intro items
  induction items with
  | nil =>
      intro position before h
      cases h
  | cons v items ih =>
      intro position before h
      rw [List.foldlM_cons] at h
      cases hv : literal index position v with
      | error g =>
          simp only [extend, hv] at h
          cases h
          exact ⟨[], v, items, rfl, by simp, hv⟩
      | ok n =>
          simp only [extend, hv] at h
          obtain ⟨clause, x, rest, rfl, hclean, hx⟩ :=
            ih (position + 1) (n :: before) h
          obtain ⟨rfl, hn⟩ := literal_iff.mp hv
          refine ⟨n :: clause, x, rest, rfl, ?_, ?_⟩
          · intro l hl
            rcases List.mem_cons.mp hl with rfl | hl
            · exact hn
            · exact hclean l hl
          · rwa [List.length_cons, Nat.add_comm clause.length 1,
              ← Nat.add_assoc]

/-- A check that fails objects to what is wrong first. -/
theorem validate_first {w index : Value} {f : Fault}
    (h : validate w index = .error f) :
    ∃ (d : ClauseDefect) (found : Value), d.In w found
      ∧ IsLeast w.clauseDefects d ∧ f = d.fault index found := by
  unfold validate at h
  cases hseq : w.sequence? with
  | none =>
      simp only [hseq] at h
      cases h
      have hin : ClauseDefect.shape.In w w := ⟨hseq, rfl⟩
      refine ⟨.shape, w, hin, ⟨⟨w, hin⟩, ?_⟩, rfl⟩
      exact fun d _ => Nat.zero_le d.rank
  | some items =>
      simp only [hseq, Items.foldlM_eq] at h
      cases hrun : items.toList.foldlM (extend index) (0, []) with
      | ok checked =>
          rw [hrun] at h
          cases h
      | error g =>
          rw [hrun] at h
          cases h
          obtain ⟨clause, x, rest, hitems, hclean, hx⟩ :=
            foldlM_extend_error _ _ _ hrun
          rw [Nat.zero_add] at hx
          have hat : w.itemList[clause.length]? = some x := by
            rw [Value.itemList_of_sequence hseq, hitems,
              List.getElem?_append_right (by simp)]
            simp
          rcases literal_error hx with ⟨hkind, rfl⟩ | ⟨rfl, rfl⟩
          · have hin : (ClauseDefect.kind clause.length).In w x :=
              ⟨hat, hkind⟩
            exact ⟨_, x, hin, ClauseDefect.isLeast_of_stop hseq hitems
              hclean hin (Or.inl rfl), rfl⟩
          · have hin : (ClauseDefect.zero clause.length).In w (.int 0) :=
              ⟨hat, rfl⟩
            exact ⟨_, _, hin, ClauseDefect.isLeast_of_stop hseq hitems
              hclean hin (Or.inr ⟨rfl, 0, rfl⟩), rfl⟩

end Clause

-- ========================================================= in the set

namespace Defect

variable {v w found : Value} {items : Items} {good rest : List Value}
  {early : List (List Int)}

/-- Where the whole is no sequence, this is wrong first. -/
theorem first_shape (hseq : v.sequence? = none) : shape.First v v :=
  ⟨⟨hseq, rfl⟩, ⟨⟨v, hseq, rfl⟩, fun d _ => shape_le d⟩⟩

/-- Clean clauses have no defect. -/
theorem not_in_clean {d : Defect} (h : v.IsCleanSet early) :
    ¬ d.In v found := by
  intro hd
  cases d with
  | shape =>
      obtain ⟨items, hseq, -⟩ := h
      rw [In, hseq] at hd
      cases hd.1
  | clause i d =>
      obtain ⟨w, hw, hd⟩ := hd
      obtain ⟨c, -, hc⟩ := h.of_mem (List.mem_of_getElem? hw)
      exact ClauseDefect.not_in_clean hc hd

/-- Behind clean clauses, what is wrong first with the next one is wrong
first with the whole. -/
theorem first_of_clause {d : ClauseDefect} (hseq : v.sequence? = some items)
    (hitems : items.toList = good ++ w :: rest)
    (hgood : List.Forall₂ Value.IsCleanClause good early)
    (hin : d.In w found) (hd : IsLeast w.clauseDefects d) :
    (clause good.length d).First v found := by
  have hlist : v.itemList = good ++ w :: rest :=
    (Value.itemList_of_sequence hseq).trans hitems
  have hshown : (clause good.length d).In v found := by
    refine ⟨w, ?_, hin⟩
    rw [hlist, List.getElem?_append_right (Nat.le_refl _), Nat.sub_self]
    rfl
  refine ⟨hshown, ⟨found, hshown⟩, ?_⟩
  rintro e ⟨other, he⟩
  cases e with
  | shape =>
      rw [In, hseq] at he
      cases he.1
  | clause i e =>
      obtain ⟨w', hw', he⟩ := he
      rw [hlist] at hw'
      rw [clause_le_clause]
      by_cases hlt : i < good.length
      · -- the clauses in front are clean
        rw [List.getElem?_append_left hlt] at hw'
        obtain ⟨c, -, hclean⟩ :=
          Value.clean_of_mem hgood (List.mem_of_getElem? hw')
        exact absurd he (ClauseDefect.not_in_clean hclean)
      · rcases Nat.lt_or_eq_of_le (Nat.le_of_not_lt hlt) with hlt | rfl
        · exact Or.inl hlt
        · rw [List.getElem?_append_right (Nat.le_refl _),
            Nat.sub_self] at hw'
          cases hw'
          exact Or.inr ⟨rfl, hd.2 ⟨other, he⟩⟩

end Defect

namespace Value

/-- Values are clean clauses up to the first that is none. -/
theorem clean_or_stopped (values : List Value) :
    (∃ clauses, List.Forall₂ IsCleanClause values clauses)
      ∨ ∃ (good : List Value) (w : Value) (rest : List Value)
          (early : List (List Int)), values = good ++ w :: rest
        ∧ List.Forall₂ IsCleanClause good early
        ∧ ∀ clause, ¬ w.IsCleanClause clause := by
  induction values with
  | nil => exact Or.inl ⟨[], .nil⟩
  | cons v values ih =>
      by_cases hv : ∃ clause, v.IsCleanClause clause
      · obtain ⟨clause, hclause⟩ := hv
        rcases ih with ⟨clauses, hclauses⟩ | hstop
        · exact Or.inl ⟨clause :: clauses, .cons hclause hclauses⟩
        · obtain ⟨good, w, rest, early, rfl, hgood, hw⟩ := hstop
          exact Or.inr ⟨v :: good, w, rest, clause :: early, rfl,
            .cons hclause hgood, hw⟩
      · exact Or.inr ⟨[], v, values, [], rfl, .nil, not_exists.mp hv⟩

/-- A value without clean clauses is no sequence, or one of its items is
the first that is no clean clause. -/
theorem stopped_of_not_clean {v : Value}
    (h : ∀ clauses, ¬ v.IsCleanSet clauses) :
    v.sequence? = Option.none
      ∨ ∃ (items : Items) (good : List Value) (w : Value)
          (rest : List Value) (early : List (List Int)),
        v.sequence? = some items ∧ items.toList = good ++ w :: rest
          ∧ List.Forall₂ IsCleanClause good early
          ∧ ∀ clause, ¬ w.IsCleanClause clause := by
  cases hseq : v.sequence? with
  | none => exact Or.inl rfl
  | some items =>
      rcases clean_or_stopped items.toList with ⟨clauses, hclauses⟩ | hstop
      · exact absurd ⟨items, hseq, hclauses⟩ (h clauses)
      · obtain ⟨good, w, rest, early, hitems, hgood, hw⟩ := hstop
        exact Or.inr ⟨items, good, w, rest, early, rfl, hitems, hgood, hw⟩

end Value

end SatSession
