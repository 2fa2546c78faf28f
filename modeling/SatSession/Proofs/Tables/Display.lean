/-
The assignment on show, and what each call does to it.

The flag for an assignment and the value table live apart from the clauses,
so that an assignment shown could be one for clauses of long ago. `Display`
says that it is not. With `shown = some n`, the table shows an assignment
that was found when `n` variables were known, satisfies every closed clause
and is false beyond those variables; with `shown = none` the flag is down.

What makes a variable read false that came later is that the bytes beyond
the known variables are zero. A table that grows is filled up with zeros,
and only the bytes of known variables are ever written.

A literal and a reserved variable keep what is shown, a closed clause ends
it, and a search puts up what it found, or nothing. Calls that fail leave
it, with one more variable at most.
-/
import SatSession.Proofs.Tables.Verdicts
import SatSession.Proofs.Tables.Onward

namespace SatSession.TableEngine

variable {e : TableEngine} {host : Host} {h : Heap} {d : Draft}
  {shown : Option Nat} {a : Assignment} {n : Nat} {p : Placed TableEngine}

-- ========================================================== the display

/-- The table shows an assignment of the first `n` variables that satisfies
what is closed. -/
structure Exhibits (n : Nat) (a : Assignment) (d : Draft) (e : TableEngine)
    (h : Heap) : Prop where
  shows : Shows a e h
  known : n ≤ e.varCount
  beyond : ∀ i, n < i → a i = false
  satisfies : ∀ c ∈ d.closed, clauseHolds a c = true

/-- What an engine shows, found when `shown` many variables were known. -/
structure Display (shown : Option Nat) (d : Draft) (e : TableEngine)
    (h : Heap) : Prop where
  blank : ∀ i, e.varCount < i → i ≤ e.capacity →
    h.byte? e.values i = some 0
  flag : e.hasModel = shown.isSome
  exhibits : ∀ n ∈ shown, ∃ a, Exhibits n a d e h

/-- What is shown depends on the value table alone. -/
theorem Display.of_contents (hd : Display shown d e h) {h' : Heap}
    (hsame : h'.contents e.values = h.contents e.values) :
    Display shown d e h' := by
  refine ⟨fun i hi hcap => ?_, hd.flag, fun n hn => ?_⟩
  · rw [Heap.byte?, hsame]
    exact hd.blank i hi hcap
  · obtain ⟨a, ha⟩ := hd.exhibits n hn
    exact ⟨a, { ha with shows := ha.shows.of_contents hsame }⟩

/-- A fresh table of zeros shows nothing. -/
theorem fresh_display (search : Search) {values store : BlockId}
    (hzero : h.contents values
      = Array.replicate (valueBytes initialCapacity) 0) :
    Display none {} (fresh search values store) h := by
  refine ⟨fun i _ hcap => ?_, rfl, fun n hn => by cases hn⟩
  have hcap : i ≤ initialCapacity := hcap
  show (h.contents values)[i]? = some 0
  rw [hzero, Array.getElem?_replicate, if_pos (by rw [valueBytes]; omega)]

-- ============================================================= variables

/-- Beyond the variables known before, a grown table is zero. -/
theorem Ensured.blank (hs : Seated e host.heap) {m : Nat}
    (hp : Ensured m e host p)
    (hblank : ∀ i, e.varCount < i → i ≤ e.capacity →
      host.heap.byte? e.values i = some 0)
    {i : Nat} (hi : e.varCount < i) (hcap : i ≤ grown e.capacity m) :
    p.host.heap.byte? e.values i = some 0 := by
  have hsize : (host.heap.contents e.values).size = e.capacity + 1 :=
    hs.values_size
  have hnew : i < valueBytes (grown e.capacity m) := by
    rw [valueBytes]
    omega
  rw [Heap.byte?, hp.values]
  by_cases hold : i ≤ e.capacity
  · rw [Heap.getElem?_resize _ _ (by omega) hnew]
    exact hblank i hi hold
  · exact Heap.getElem?_resize_new _ _ (by omega) hnew

/-- The known variables keep their bytes when the table grows. -/
theorem Ensured.byte_known (hs : Seated e host.heap) {m : Nat}
    (hp : Ensured m e host p) {i : Nat} (hi : i ≤ e.varCount) :
    p.host.heap.byte? e.values i = host.heap.byte? e.values i := by
  have hsize : (host.heap.contents e.values).size = e.capacity + 1 :=
    hs.values_size
  have hvars := hs.vars_le
  have hgrown := capacity_le_grown e.capacity m
  have hnew : i < valueBytes (grown e.capacity m) := by
    rw [valueBytes]
    omega
  rw [Heap.byte?, hp.values, Heap.getElem?_resize _ _ (by omega) hnew]
  rfl

/-- An assignment that is false beyond the known variables is still shown
when more variables exist. -/
theorem Ensured.shows (hs : Seated e host.heap) {m : Nat}
    (hp : Ensured m e host p)
    (hblank : ∀ i, e.varCount < i → i ≤ e.capacity →
      host.heap.byte? e.values i = some 0)
    (ha : Shows a e host.heap) (hbeyond : ∀ i, e.varCount < i → a i = false) :
    Shows a p.object p.host.heap := by
  intro i h1 hi
  have hroom := Nat.le_trans hi hp.seated.vars_le
  rw [hp.object] at hroom ⊢
  show p.host.heap.byte? e.values i = _
  by_cases hold : i ≤ e.varCount
  · rw [hp.byte_known hs hold]
    exact ha i h1 hold
  · rw [hp.blank hs hblank (by omega) hroom, hbeyond i (by omega)]
    rfl

/-- Variables that are made to exist read as false. -/
theorem Display.ensured (hs : Seated e host.heap)
    (hd : Display shown d e host.heap) {m : Nat}
    (hp : Ensured m e host p) :
    Display shown d p.object p.host.heap := by
  refine ⟨fun i hi hcap => ?_, ?_, fun n hn => ?_⟩
  · rw [hp.object] at hi hcap ⊢
    have hi : max e.varCount m < i := hi
    exact hp.blank hs hd.blank (by omega) hcap
  · rw [hp.object]
    exact hd.flag
  · obtain ⟨a, ha⟩ := hd.exhibits n hn
    have hknown := ha.known
    refine ⟨a, hp.shows hs hd.blank ha.shows fun i hi => ?_, ?_, ha.beyond,
      ha.satisfies⟩
    · exact ha.beyond i (by omega)
    · rw [hp.object]
      exact Nat.le_trans hknown (Nat.le_max_left _ _)

-- =============================================================== clauses

/-- The store is no part of what is shown. -/
theorem Display.pushed (hd : Display shown d e host.heap) {m : Int}
    (hp : Pushed m e host p) :
    Display shown d p.object p.host.heap := by
  have hsame := hd.of_contents hp.values
  rw [hp.object]
  exact ⟨hsame.blank, hsame.flag, fun n hn =>
    (hsame.exhibits n hn).imp fun a ha =>
      ⟨ha.shows, ha.known, ha.beyond, ha.satisfies⟩⟩

/-- The open clause does not matter to what is shown. -/
theorem Display.congr {d' : Draft} (hclosed : d'.closed = d.closed)
    (hd : Display shown d e h) : Display shown d' e h :=
  ⟨hd.blank, hd.flag, fun n hn => (hd.exhibits n hn).imp fun a ha =>
    ⟨ha.shows, ha.known, ha.beyond, by rw [hclosed]; exact ha.satisfies⟩⟩

/-- A literal leaves the values of all known variables. -/
theorem Display.added (hs : Seated e host.heap)
    (hd : Display shown d e host.heap) {l : Int}
    (hp : Added l e host p) :
    Display shown (d.add l) p.object p.host.heap := by
  obtain ⟨q, hq, hpush⟩ := hp.steps
  exact Display.congr (d := d) rfl ((hd.ensured hs hq).pushed hpush)

/-- Nothing is written when a request is denied. -/
theorem Display.denied (hd : Display shown d e host.heap)
    {use : MemoryUse} {f : Fault} (hp : Denied use e host f p) :
    Display shown d p.object p.host.heap := by
  rw [hp.rest]
  exact hd

/-- A literal that is not taken may leave new variables, which read as
false. -/
theorem Display.notAdded (hs : Seated e host.heap)
    (hd : Display shown d e host.heap) {l : Int} {f : Fault}
    (hp : NotAdded l e host f p) :
    Display shown d p.object p.host.heap := by
  rcases hp with ⟨-, -, rfl⟩ | hdeny | ⟨q, hq, hdeny⟩
  · exact hd
  · exact hd.denied hdeny
  · exact (hd.ensured hs hq).denied hdeny

/-- A closed clause puts the flag down, and the bytes are left. -/
theorem Display.closed (hd : Display shown d e host.heap)
    {clause : List Int} (hp : Closed clause e host p) (d' : Draft) :
    Display none d' p.object p.host.heap := by
  obtain ⟨q, hq, rfl⟩ := hp
  exact ⟨(hd.pushed hq).blank, rfl, fun n hn => by cases hn⟩

-- ============================================================== searches

/-- The number of variables that an assignment is shown for after a
search. -/
def shownFor (outcome : Outcome) (n : Nat) : Option Nat :=
  if outcome = .satisfiable then some n else none

/-- An assignment found is cut off behind the known variables: the closed
clauses do not speak about the others. -/
theorem Keeps.satisfies_cut (hk : Keeps d e h)
    (ha : ∀ c ∈ d.closed, clauseHolds a c = true) :
    ∀ c ∈ d.closed,
      clauseHolds (fun i => a i && decide (i ≤ e.varCount)) c = true := by
  intro c hc
  rw [← ha c hc]
  refine clauseHolds_congr fun l hl => ?_
  have hvar := (hk.admitted c (List.mem_append_left _ hc) l hl).exists_var
  simp [hvar]

/-- A search shows what it has found, for all variables known then. -/
theorem Display.searched (hk : Keeps d e host.heap)
    (hsound : e.search.Sound) (hd : Display shown d e host.heap)
    {limit : Nat} {outcome : Outcome}
    (hp : Searched limit e host outcome p) :
    Display (shownFor outcome e.varCount) d p.object p.host.heap := by
  refine ⟨fun i hi hcap => ?_, ?_, fun n hn => ?_⟩
  · rw [hp.object] at hi hcap ⊢
    show p.host.heap.byte? e.values i = some 0
    rw [hp.rest i hi]
    exact hd.blank i hi hcap
  · rw [hp.object]
    unfold shownFor
    cases outcome <;> rfl
  · unfold shownFor at hn
    split at hn
    next hsat =>
      rw [hp.said] at hsat
      obtain ⟨a, hverdict⟩ := Verdict.eq_sat hsat
      obtain rfl := Option.mem_some.mp hn
      have hshows := hp.shows a hverdict
      have ha := hk.satisfiedBy_iff_holds.mp (hsound.satisfied hverdict)
      have hcount : p.object.varCount = e.varCount := by rw [hp.object]
      refine ⟨_, fun i h1 hi => ?_, Nat.le_of_eq hcount.symm, fun i hi => ?_,
        hk.satisfies_cut ha⟩
      · rw [hshows i h1 hi]
        simp [show i ≤ e.varCount by omega]
      · simp [show ¬ i ≤ e.varCount by omega]
    next => cases hn

end SatSession.TableEngine
