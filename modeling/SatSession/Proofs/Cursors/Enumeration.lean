/-
Enumeration is exact.

On a host that grants everything, a cursor over well-formed clauses goes
through models of these clauses, all total lists over the variables, and
through none twice. It ends after as many advances as there are models,
or sooner if the search gives up; and if it is not the search giving up
that ends it, the lists produced are the models, each of them once
(`enumerate_exact`). No advance fails.

The invariant is `Progress`: the engine's clauses are those of the problem
and one for each list found, which rules just that list out. An assignment
found next therefore is a new model, and where there is none, the lists
found are all.
-/
import SatSession.Proofs.Cursors.Advancing
import SatSession.Proofs.Sessions.Solving

namespace SatSession.Cursor

open TableEngine

variable {search : Search} {limit : Int} {n : Nat}
  {clauses found : List (List Int)} {base host : Host}
  {c : Cursor TableEngine}

-- ========================================================== the invariant

/-- Lists that are models of some clauses, no two of them the same. -/
structure Models (n : Nat) (clauses found : List (List Int)) : Prop where
  distinct : found.Nodup
  total : ∀ s ∈ found, Total n s
  satisfying : ∀ s ∈ found, Satisfies s clauses

/-- How far an enumeration has come: some models have been found and
ruled out. -/
structure Progress (search : Search) (limit : Int) (n : Nat)
    (clauses found : List (List Int)) (base : Host)
    (c : Cursor TableEngine) (host : Host) : Prop where
  running : Running search limit n (clauses ++ found.map (·.map (- ·)))
    base c host
  models : Models n clauses found

/-- An enumeration that has ended: if the last answer was that there is no
further solution then all models have been found, and if it was another
one then there was a limit. -/
structure Complete (limit : Int) (n : Nat)
    (clauses found : List (List Int)) (p : Placed (Cursor TableEngine)) :
    Prop where
  closed : p.object.closed = true
  exhausted : p.object.exhausted = true
  models : Models n clauses found
  last : ∃ earlier outcome, p.host.answers = earlier ++ [outcome]
    ∧ (outcome = .unsatisfiable →
        ∀ s, Total n s → Satisfies s clauses → s ∈ found)
    ∧ (outcome ≠ .unsatisfiable → 0 < limit)

-- =========================================================== one advance

/-- An assignment that satisfies what is left is a model that has not been
found. -/
theorem Models.snoc (h : Models n clauses found) {s : List Int}
    (hs : Total n s)
    (hsat : Satisfies s (clauses ++ found.map (·.map (- ·)))) :
    Models n clauses (found ++ [s]) := by
  obtain ⟨hclauses, hnew⟩ := satisfies_append.mp hsat
  have hnew := (satisfies_opposites hs h.total).mp hnew
  refine ⟨?_, ?_, ?_⟩
  · refine List.nodup_append.mpr ⟨h.distinct, by simp, ?_⟩
    intro t ht t' ht' heq
    rw [List.mem_singleton.mp ht'] at heq
    exact hnew (heq ▸ ht)
  · intro t ht
    rcases List.mem_append.mp ht with ht | ht
    · exact h.total t ht
    · rw [List.mem_singleton.mp ht]
      exact hs
  · intro t ht
    rcases List.mem_append.mp ht with ht | ht
    · exact h.satisfying t ht
    · rw [List.mem_singleton.mp ht]
      exact hclauses

/-- If nothing satisfies what is left, all models have been found. -/
theorem Models.all_found (h : Models n clauses found)
    (hnone : ∀ s, Total n s →
      ¬ Satisfies s (clauses ++ found.map (·.map (- ·))))
    {s : List Int} (hs : Total n s) (hsat : Satisfies s clauses) :
    s ∈ found := by
  by_contra hnew
  refine hnone s hs (satisfies_append.mpr ⟨hsat, ?_⟩)
  exact (satisfies_opposites hs h.total).mpr hnew

/-- One advance finds a further model, or ends the enumeration. -/
theorem Progress.next_ends
    (h : Progress search limit n clauses found base c host)
    (hg : base.Generous) (hsound : search.Sound)
    (hn : (n : Int) ≤ Word.literalMax) :
    Ends (fun r p =>
        (∃ s, r = some (s.map Value.int)
          ∧ Progress search limit n clauses (found ++ [s]) base p.object
              p.host)
        ∨ (r = none ∧ Complete limit n clauses found p))
      never (next ⟨c, host⟩) := by
  have hlive := h.running.live
  have hmeans := hlive.keeps.verdict_means
    (by rw [hlive.search]; exact hsound) (limitInForce limit (-1))
  rw [hlive.vars] at hmeans
  have hghost := hg.of_sameRules h.running.holding.rules
  refine (Cursor.next_ends h.running).imp ?_ ?_
  · intro r p hpost
    rcases hpost with ⟨literals, rfl, hproduced⟩ | ⟨rfl, hfinished⟩
    · obtain ⟨a, hverdict, rfl, hrunning⟩ := hproduced.found
      rw [hverdict] at hmeans
      refine Or.inl ⟨signedList a n, rfl, ?_,
        h.models.snoc (total_signedList a n) hmeans⟩
      rw [List.map_append, List.map_singleton, ← List.append_assoc]
      exact hrunning
    · obtain ⟨outcome, hrefused, hsaid, hanswers⟩ := hfinished.said
      refine Or.inr ⟨rfl, hfinished.closed, hfinished.exhausted, h.models,
        host.answers, outcome, hanswers, ?_, ?_⟩
      · intro hunsat s hs hsat
        rw [hunsat] at hsaid
        -- no total list satisfies the clauses and the blocking ones, so all
        -- models are among the found ones
        rw [Verdict.eq_unsat hsaid.symm] at hmeans
        exact h.models.all_found hmeans hs hsat
      · intro hother
        cases outcome with
        | satisfiable => exact absurd rfl hrefused
        | unsatisfiable => exact absurd rfl hother
        | unknown =>
            rw [Verdict.eq_unknown hsaid.symm] at hmeans
            exact limit_pos hmeans
  · intro f p hfailed
    exact hfailed.unfit hghost hn

-- ========================================================== many advances

/-- A number of advances finds as many further models, or fewer and ends
the enumeration. -/
theorem Progress.collect
    (hg : base.Generous) (hsound : search.Sound)
    (hn : (n : Int) ≤ Word.literalMax) :
    ∀ (k first : Nat) (found : List (List Int)) (c : Cursor TableEngine)
      (host : Host),
      Progress search limit n clauses found base c host →
      ∃ more p,
        Op.collect (fun _ => next) k first ⟨c, host⟩
          = .ok (more.map (fun s => some (s.map Value.int))
              ++ List.replicate (k - more.length) none) p
        ∧ more.length ≤ k
        ∧ ((more.length = k
            ∧ Progress search limit n clauses (found ++ more) base
                p.object p.host)
          ∨ (more.length < k
            ∧ Complete limit n clauses (found ++ more) p)) := by
  intro k
  induction k with
  | zero =>
      intro first found c host h
      exact ⟨[], ⟨c, host⟩, rfl, Nat.le_refl 0,
        Or.inl ⟨rfl, by rwa [List.append_nil]⟩⟩
  | succ k ih =>
      intro first found c host h
      obtain ⟨r, p, hnext, hcase⟩ := (h.next_ends hg hsound hn).exists_ok
      unfold Op.collect
      rw [bind_of_ok hnext]
      rcases hcase with ⟨s, rfl, hprogress⟩ | ⟨rfl, hcomplete⟩
      · obtain ⟨more, q, hcollect, hlength, hend⟩ :=
          ih (first + 1) (found ++ [s]) p.object p.host hprogress
        refine ⟨s :: more, q, ?_, ?_, ?_⟩
        · rw [bind_of_ok hcollect]
          simp
        · rw [List.length_cons]
          omega
        · rw [List.append_assoc, List.singleton_append] at hend
          rw [List.length_cons]
          rcases hend with ⟨hfull, hend⟩ | ⟨hshort, hend⟩
          · exact Or.inl ⟨by omega, hend⟩
          · exact Or.inr ⟨by omega, hend⟩
      · -- the cursor is closed, so the advances that are left do nothing
        have hrest : Op.collect (fun _ => next) k (first + 1) p
            = .ok ((List.range' (first + 1) k).map fun _ => none) p :=
          collect_eq (fun _ => none) k (first + 1)
            fun _ _ _ => next_closed hcomplete.closed
        refine ⟨[], p, ?_, Nat.zero_le _, Or.inr ⟨Nat.succ_pos k, ?_⟩⟩
        · rw [bind_of_ok hrest]
          simp [List.replicate_succ]
        · rw [List.append_nil]
          exact hcomplete

-- ========================================================== enumeration

/-- What `k` advances have found, the rest of them nothing, over some
clauses with `n` variables. -/
structure Enumerates (limit : Int) (n : Nat) (clauses : List (List Int))
    (k : Nat) (found : List (List Int)) (p : Placed (Cursor TableEngine)) :
    Prop where
  sound : Models n clauses found
  length : found.length ≤ k
  ended : found.length < k ↔ p.object.exhausted = true
  soon : (models n clauses).length < k → found.length < k
  exact : found.length < k →
    p.host.answers.getLast? = some .unsatisfiable →
    found.Perm (models n clauses)
  unlimited : found.length < k → limit = 0 →
    p.host.answers.getLast? = some .unsatisfiable

/-- Models that are different are no more than there are. -/
theorem Models.length_le (h : Models n clauses found) :
    found.length ≤ (models n clauses).length :=
  h.distinct.length_le_of_subset fun s hs =>
    mem_models.mpr ⟨h.total s hs, h.satisfying s hs⟩

/-- An enumeration that has ended after less than `k` advances. -/
theorem Complete.enumerates {k : Nat} {p : Placed (Cursor TableEngine)}
    (h : Complete limit n clauses found p) (hk : found.length < k) :
    Enumerates limit n clauses k found p := by
  obtain ⟨earlier, outcome, hanswers, hall, hother⟩ := h.last
  have hlast : p.host.answers.getLast? = some outcome := by
    rw [hanswers]
    exact List.getLast?_concat
  refine ⟨h.models, Nat.le_of_lt hk, iff_of_true hk h.exhausted,
    fun _ => hk, ?_, ?_⟩
  · intro _ hunsat
    rw [hlast] at hunsat
    refine (List.perm_ext_iff_of_nodup h.models.distinct
      (nodup_models n clauses)).mpr fun s => ?_
    rw [mem_models]
    constructor
    · intro hs
      exact ⟨h.models.total s hs, h.models.satisfying s hs⟩
    · intro hex
      obtain ⟨hs, hsat⟩ := hex
      exact hall (Option.some.inj hunsat) s hs hsat
  · intro _ hlimit
    rw [hlast]
    by_contra hne
    have hpos := hother fun heq => hne (by rw [heq])
    omega

/-- An enumeration that is going on after `k` advances. -/
theorem Progress.enumerates {k : Nat} {p : Placed (Cursor TableEngine)}
    (h : Progress search limit n clauses found base p.object p.host)
    (hk : found.length = k) : Enumerates limit n clauses k found p := by
  have hno : ¬ found.length < k := by omega
  refine ⟨h.models, Nat.le_of_eq hk, ?_, ?_, fun hlt => absurd hlt hno,
    fun hlt => absurd hlt hno⟩
  · rw [h.running.unfinished]
    simp [hno]
  · intro hlt
    have hle := h.models.length_le
    omega

/-- On a host that grants everything, with a sound search, a cursor over
well-formed clauses is started, and any number of its advances succeed.
They produce models, each at most once; they end after all models at the
latest, and where the last answer is that there is no further one, with
all of them. -/
theorem enumerate_exact (hg : host.Generous) (hsound : search.Sound)
    {v : Value} (hv : v.IsClauseSet clauses) (hrange : InRange clauses)
    {vars verbose propLimit : Int} (hvars : -1 ≤ vars)
    (hmax : vars ≤ Word.literalMax) (hverbose : 0 ≤ verbose)
    (hlimit : 0 ≤ propLimit) :
    ∃ c host₁,
      enumerate (TableEngine.create search) v (.int vars) (.int verbose)
          (.int propLimit) host
        = .ok c host₁
      ∧ ∀ k, ∃ found p,
          Op.collect (fun _ => next) k 1 ⟨c, host₁⟩
            = .ok (found.map (fun s => some (s.map Value.int))
                ++ List.replicate (k - found.length) none) p
          ∧ Enumerates propLimit (variablesOf vars clauses) clauses k
              found p := by
  have hbuild := config_build_eq hvars hverbose hlimit
  have hn : ((variablesOf vars clauses : Nat) : Int) ≤ Word.literalMax := by
    have hlargest := largest_le hrange
    unfold variablesOf
    omega
  have hstart := enumerate_ends hg.plain hg.takesBack search v (.int vars)
    (.int verbose) (.int propLimit)
  cases henum : enumerate (TableEngine.create search) v (.int vars)
      (.int verbose) (.int propLimit) host with
  | error f host₁ =>
      rw [henum] at hstart
      -- on a generous host a cursor fails only over an unfit problem
      exact absurd ⟨⟨_, hbuild⟩, clauses, hv, hrange⟩ (hstart.unfit hg)
  | ok c host₁ =>
      rw [henum] at hstart
      obtain ⟨config, cs, hconfig, hcs, hstarted⟩ := hstart
      obtain rfl := hv.unique hcs
      rw [hbuild] at hconfig
      cases hconfig
      refine ⟨c, host₁, rfl, fun k => ?_⟩
      have hprogress : Progress search propLimit (variablesOf vars clauses)
          clauses [] host c host₁ := by
        refine ⟨?_, List.nodup_nil, by simp, by simp⟩
        rw [List.map_nil, List.append_nil]
        exact hstarted.running
      obtain ⟨found, p, hcollect, -, hend⟩ :=
        Progress.collect hg hsound hn k 1 [] c host₁ hprogress
      rw [List.nil_append] at hend
      refine ⟨found, p, hcollect, ?_⟩
      rcases hend with ⟨hfull, hend⟩ | ⟨hshort, hend⟩
      · exact hend.enumerates hfull
      · exact hend.enumerates hshort

/-- One clause, and a variable that it does not name: seven advances find
the six models, each once, and then the end. -/
theorem enumerate_exact_unnamed_variable :
    ∃ (c : Cursor TableEngine) (host₁ : Host) (found : List (List Int))
      (p : Placed (Cursor TableEngine)),
      enumerate (TableEngine.create Learning.search)
          (.seq .list [.seq .tuple [.int 1, .int 2]]) (.int 3) (.int 1)
          (.int 0) .boundless
        = .ok c host₁
      ∧ Op.collect (fun _ => next) 7 1 ⟨c, host₁⟩
        = .ok (found.map (fun s => some (s.map Value.int)) ++ [none]) p
      ∧ found.length = 6
      ∧ found.Perm (models 3 [[1, 2]]) := by
  have hv : Value.IsClauseSet (.seq .list [.seq .tuple [.int 1, .int 2]])
      [[1, 2]] :=
    ⟨_, rfl, .cons ⟨_, rfl, rfl⟩ .nil⟩
  have hrange : InRange [[1, 2]] := by simp [InRange, Word.literalMax]
  obtain ⟨c, host₁, hstart, hcollect⟩ :=
    enumerate_exact Host.generous_boundless Learning.search_sound hv hrange
      (show -1 ≤ 3 by decide) (by decide) (show 0 ≤ 1 by decide)
      (Int.le_refl 0)
  obtain ⟨found, p, hfound, henumerates⟩ := hcollect 7
  have hvars : variablesOf 3 [[1, 2]] = 3 := by decide
  rw [hvars] at henumerates
  have hshort : found.length < 7 := henumerates.soon (by decide)
  have hall : found.Perm (models 3 [[1, 2]]) :=
    henumerates.exact hshort (henumerates.unlimited hshort rfl)
  have hsix : found.length = 6 := hall.length_eq.trans (by decide)
  rw [hsix] at hfound
  exact ⟨c, host₁, found, p, hstart, hfound, hsix, hall⟩

end SatSession.Cursor
