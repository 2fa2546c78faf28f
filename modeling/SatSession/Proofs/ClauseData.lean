/-
Which values are clause sets.

A value may write a clause as any sequence of whole numbers, and a clause
set as any sequence of clauses; `IsClause` and `IsClauseSet` say which
lists of literals it writes. Checking a clause succeeds for just the
values that write one without a zero, and answers what they write
(`validate_iff`); a clause is fit for an engine if its literals also fit
into a word (`InRange`).
-/
import SatSession.Clause
import SatSession.Proofs.Models
import SatSession.Word
import Mathlib.Data.List.Forall2

namespace SatSession

/-- A value that writes a clause. -/
def Value.IsClause (v : Value) (clause : List Int) : Prop :=
  ∃ items, v.sequence? = some items ∧ items.toList = clause.map Value.int

/-- A value that writes a set of clauses. -/
def Value.IsClauseSet (v : Value) (clauses : List (List Int)) : Prop :=
  ∃ items, v.sequence? = some items
    ∧ List.Forall₂ Value.IsClause items.toList clauses

/-- A fault that a problem may be turned down with: settings or clauses
that are not as they should be, or memory that is refused. -/
def Fault.Foreseen : Fault → Prop
  | settingKind .. | settingRange .. | clauseSetShape .. | clauseShape ..
  | literalKind .. | zeroLiteral .. | literalRange .. | outOfMemory .. =>
      True
  | _ => False

/-- A fault of the problem itself, whatever it is given to. -/
def Fault.Objection : Fault → Prop
  | settingKind .. | settingRange .. | clauseSetShape .. | clauseShape ..
  | literalKind .. | zeroLiteral .. => True
  | _ => False

/-- An objection to an argument is foreseen. -/
theorem Fault.Objection.foreseen {f : Fault} (h : f.Objection) :
    f.Foreseen := by
  cases f <;> trivial

/-- It is no lack of memory. -/
theorem Fault.Objection.ne_outOfMemory {f : Fault} (h : f.Objection)
    (use : MemoryUse) : f ≠ .outOfMemory use := by
  rintro rfl
  exact h

/-- A check that fails only with an objection. -/
def Objects {α : Type} (check : Except Fault α) : Prop :=
  ∀ f, check = .error f → f.Objection

theorem objects_ok {α : Type} (a : α) : Objects (.ok a) := by
  intro f h
  cases h

/-- One check behind another. -/
theorem Objects.bind {α β : Type} {check : Except Fault α}
    {rest : α → Except Fault β} (h : Objects check)
    (hrest : ∀ a, Objects (rest a)) : Objects (check >>= rest) := by
  cases check with
  | ok a => exact hrest a
  | error f =>
      intro g hg
      cases hg
      exact h f rfl

/-- Clauses of literals that fit into words. -/
def InRange (clauses : List (List Int)) : Prop :=
  ∀ c ∈ clauses, ∀ l ∈ c, l ≠ 0 ∧ (l.natAbs : Int) ≤ Word.literalMax

/-- A value that writes a set of clauses fit for an engine. -/
def Value.WellFormed (v : Value) : Prop :=
  ∃ clauses, v.IsClauseSet clauses ∧ InRange clauses

/-- In clauses that fit, no literal is larger than a word allows. -/
theorem largest_le {clauses : List (List Int)} (h : InRange clauses) :
    (largest clauses : Int) ≤ Word.literalMax := by
  have hall : ∀ m ∈ clauses.flatten.map Int.natAbs,
      (m : Int) ≤ Word.literalMax := by
    intro m hm
    obtain ⟨l, hl, rfl⟩ := List.mem_map.mp hm
    obtain ⟨c, hc, hl⟩ := List.mem_flatten.mp hl
    exact (h c hc l hl).2
  unfold largest
  generalize clauses.flatten.map Int.natAbs = ms at hall
  induction ms with
  | nil => decide
  | cons m ms ih =>
      have hm := hall m List.mem_cons_self
      have hms := ih fun k hk => hall k (List.mem_cons_of_mem _ hk)
      rw [List.foldr_cons]
      omega

-- ============================================================ writing

/-- Literals can be told from the values that they are handed in as. -/
theorem map_int_injective : Function.Injective (List.map Value.int) :=
  List.map_injective_iff.mpr fun m n h => by
    cases h
    rfl

/-- A value writes one clause only. -/
theorem Value.IsClause.unique {v : Value} {c c' : List Int}
    (h : v.IsClause c) (h' : v.IsClause c') : c = c' := by
  obtain ⟨items, hitems, hc⟩ := h
  obtain ⟨items', hitems', hc'⟩ := h'
  rw [hitems] at hitems'
  cases hitems'
  exact map_int_injective (hc.symm.trans hc')

/-- A value writes one set of clauses only. -/
theorem Value.IsClauseSet.unique {v : Value} {cs cs' : List (List Int)}
    (h : v.IsClauseSet cs) (h' : v.IsClauseSet cs') : cs = cs' := by
  obtain ⟨items, hitems, hcs⟩ := h
  obtain ⟨items', hitems', hcs'⟩ := h'
  rw [hitems] at hitems'
  cases hitems'
  have hunique : Relator.RightUnique Value.IsClause :=
    fun _ _ _ => Value.IsClause.unique
  exact List.right_unique_forall₂' hunique hcs hcs'

namespace Clause

-- ============================================================ checking

/-- Whole numbers other than zero are literals, and nothing else is. -/
theorem literal_iff {index v : Value} {position : Nat} {n : Int} :
    literal index position v = .ok n ↔ v = .int n ∧ n ≠ 0 := by
  constructor
  · intro h
    unfold literal at h
    split at h
    next m =>
      split at h
      next => cases h
      next hm =>
        cases h
        exact ⟨rfl, hm⟩
    next => cases h
  · intro hex
    obtain ⟨rfl, hn⟩ := hex
    exact if_neg hn

/-- Checking value after value succeeds for just the literals, and puts
each in front of the ones before it. -/
theorem foldlM_extend {index : Value} :
    ∀ (items : List Value) (position : Nat) (before : List Int)
      (checked : Nat × List Int),
      items.foldlM (extend index) (position, before) = .ok checked
        ↔ ∃ clause : List Int, items = clause.map Value.int
          ∧ (∀ l ∈ clause, l ≠ 0)
          ∧ checked = (position + clause.length,
              clause.reverse ++ before) := by
  intro items
  induction items with
  | nil =>
      intro position before checked
      constructor
      · intro h
        cases h
        exact ⟨[], rfl, by simp, rfl⟩
      · intro hex
        obtain ⟨clause, hclause, -, rfl⟩ := hex
        rw [List.map_eq_nil_iff.mp hclause.symm]
        rfl
  | cons v items ih =>
      -- the literals are collected in reverse, behind those from before
      intro position before checked
      rw [List.foldlM_cons]
      constructor
      · intro h
        cases hv : literal index position v with
        | error f =>
            simp only [extend, hv] at h
            cases h
        | ok n =>
            simp only [extend, hv] at h
            obtain ⟨clause, rfl, hnonzero, rfl⟩ :=
              (ih (position + 1) (n :: before) checked).mp h
            obtain ⟨rfl, hn⟩ := literal_iff.mp hv
            refine ⟨n :: clause, rfl, ?_, ?_⟩
            · intro l hl
              rcases List.mem_cons.mp hl with rfl | hl
              · exact hn
              · exact hnonzero l hl
            · simp only [List.length_cons, List.reverse_cons,
                List.append_assoc, List.singleton_append]
              congr 1
              omega
      · intro hex
        obtain ⟨clause, hclause, hnonzero, rfl⟩ := hex
        obtain ⟨n, rest, rfl, rfl, rfl⟩ :=
          List.map_eq_cons_iff.mp hclause.symm
        have hn : literal index position (.int n) = .ok n :=
          literal_iff.mpr ⟨rfl, hnonzero n List.mem_cons_self⟩
        simp only [extend, hn]
        refine (ih (position + 1) (n :: before) _).mpr
          ⟨rest, rfl, fun l hl => hnonzero l (List.mem_cons_of_mem _ hl),
            ?_⟩
        simp only [List.length_cons, List.reverse_cons,
          List.append_assoc, List.singleton_append]
        congr 1
        omega

/-- Checking a clause succeeds for just the values that write one without
a zero. -/
theorem validate_iff {v index : Value} {clause : List Int} :
    validate v index = .ok clause
      ↔ v.IsClause clause ∧ ∀ l ∈ clause, l ≠ 0 := by
  unfold validate Value.IsClause
  cases hseq : v.sequence? with
  | none => simp
  | some items =>
      simp only [Option.some.injEq, exists_eq_left', Items.foldlM_eq]
      constructor
      · intro h
        cases hrun : items.toList.foldlM (extend index) (0, []) with
        | error f =>
            rw [hrun] at h
            cases h
        | ok checked =>
            rw [hrun] at h
            obtain ⟨found, hitems, hnonzero, rfl⟩ :=
              (foldlM_extend _ 0 [] checked).mp hrun
            have hfound : found = clause := by
              simpa using Except.ok.inj h
            rw [← hfound]
            exact ⟨hitems, hnonzero⟩
      · intro hex
        obtain ⟨hitems, hnonzero⟩ := hex
        rw [(foldlM_extend items.toList 0 [] _).mpr
          ⟨clause, hitems, hnonzero, rfl⟩]
        show Except.ok (clause.reverse ++ []).reverse = _
        simp

/-- A literal is objected to by its kind or as a zero. -/
theorem literal_objects (index v : Value) (position : Nat) :
    Objects (literal index position v) := by
  intro f h
  unfold literal at h
  split at h
  · split at h
    · cases h
      trivial
    · cases h
  · cases h
    trivial

/-- A row of literals is objected to by the first that is wrong. -/
theorem foldlM_objects (index : Value) :
    ∀ (items : List Value) (checked : Nat × List Int),
      Objects (items.foldlM (extend index) checked) := by
  intro items
  induction items with
  | nil =>
      intro checked f h
      cases h
  | cons v items ih =>
      intro checked
      rw [List.foldlM_cons]
      refine Objects.bind ?_ fun checked => ih checked
      exact (literal_objects index v _).bind fun n => objects_ok _

/-- A check that fails is about the clause. -/
theorem validate_objects (v index : Value) :
    Objects (validate v index) := by
  unfold validate
  cases v.sequence? with
  | none =>
      intro f h
      cases h
      trivial
  | some items =>
      simp only [Items.foldlM_eq]
      exact (foldlM_objects index _ _).bind fun checked => objects_ok _

end Clause

end SatSession
