/-
A search that learns from its failures.

The search makes literals true one after the other: those that a clause
forces, because all its other literals are false, and where none is
forced a literal of its own choice. When a clause becomes false, it is
resolved with the clauses that forced its literals until a clause is left
with a single literal of the latest choice. That clause is kept, and it
forces the opposite of the literal as soon as the choices that it does
not speak about are taken back. From time to time all choices are taken
back, and of the clauses kept so far the less useful ones are given up.

What is forced without any choice is a fact, and its opposite is taken
out of the clauses before the first choice and whenever some are given
up. A clause that becomes false without any choice is empty when the
opposites of the facts are taken out of it, which ends the search.

All clauses are consequences of the question by their type, and an
assignment is tested before it is given, so nothing that the search does
in between has to be trusted (`search_sound`). It is given more steps
than it can ever need; what it would leave open is left to the exhaustive
search. Contradictions among parities, which it would be slow to find,
are looked for first.
-/
import SatSession.Search.Exhaustive
import SatSession.Search.Facts
import SatSession.Search.Front
import SatSession.Search.Parity

namespace SatSession.Learning

-- ========================================================== the state

/-- The state of the search. -/
structure State (q : Query) where
  front : Front
  clauses : Array (Consequence q) := #[]
  /-- By variables, the value that it had last. -/
  habits : Array Int
  /-- The length of the trail at each choice. -/
  choices : Array Nat := #[]
  /-- The length of the part of the trail whose effects are known. -/
  settled : Nat := 0
  /-- By variables, how much it had to do with late failures. -/
  scores : Array Nat
  /-- What the next failure adds to a score. -/
  weight : Nat := 0x100
  /-- How often the choices were taken back altogether. -/
  rounds : Nat := 0
  /-- The failures of this round. -/
  failures : Nat := 0
  /-- For the clauses that were learned, the number of different levels
  of their literals at the time: the fewer, the more useful. -/
  grades : Array Nat := #[]
  /-- The number of learned clauses from which on some are given up. -/
  allowance : Nat := 600
  /-- The variables that the clauses speak about. -/
  known : List Nat
  /-- A clause that was false when it was put in. -/
  clash : Option Nat := none

/-- What came of a search. -/
inductive Result (q : Query) where
  | found (a : Assignment)
  | refuted (c : Consequence q)
  | open_

namespace State

variable {q : Query}

/-- The number of choices made before a literal got its value. -/
def level (s : State q) (l : Int) : Nat := s.front.level l

/-- Makes a literal true. -/
def assume (s : State q) (l : Int) (reason : Option Nat) : State q :=
  let level := s.choices.size
  { s with front := s.front.assume level (litSlot l) reason }

-- ============================================================ clauses

/-- Puts a clause in, given its literals with those to be watched in
front. -/
def insert (s : State q) (clause : Consequence q) (body : List Int) :
    State q :=
  let c := s.clauses.size
  let s := { s with
    clauses := s.clauses.push clause
    front := s.front.enter (body.map litSlot).toArray }
  match body with
  | l :: m :: _ =>
      { s with front := (s.front.watch (litSlot l) c).watch (litSlot m) c }
  | [l] =>
      match s.front.standing (litSlot l) with
      | .true_ => s
      | .false_ => { s with clash := some c }
      | .open_ => s.assume l (some c)
  | [] => { s with clash := some c }

/-- Puts clauses in, before anything has been propagated. -/
def insertAll (s : State q) (clauses : List (Consequence q)) : State q :=
  clauses.foldl (fun s c => s.insert c c.literals) s

/-- A state without clauses for the variables below a bound. -/
def blank (bound : Nat) (known : List Nat) : State q where
  front := .blank bound
  habits := Array.replicate bound (-1)
  scores := Array.replicate bound 0
  known := known

/-- The state in front of the first choice. -/
def start (q : Query) : State q :=
  let clauses := Consequence.all q
  let bound := clauses.foldl
    (fun n c => c.literals.foldl (fun n l => max n l.natAbs) n) 0 + 1
  let seen : Array Bool := clauses.foldl
    (fun seen c => c.literals.foldl
      (fun seen l => seen.setIfInBounds l.natAbs true) seen)
    (Array.replicate bound false)
  let known := (List.range bound).filter fun v => seen[v]?.getD false
  (blank bound known).insertAll clauses

/-- Settles the next literal of the trail. The front is taken out first,
so that it is changed in place. -/
def propagate (s : State q) (l : Int) : Option Nat × State q :=
  let level := s.choices.size
  let front := s.front
  let s := { s with front := .blank 0, settled := s.settled + 1 }
  match front.propagate level l with
  | (failure, front) => (failure, { s with front := front })

-- ============================================================== facts

/-- What has been made true without any choice. -/
def facts (s : State q) : Facts q :=
  s.front.trail.foldl
    (fun facts l =>
      match s.front.reasons[l.natAbs]?.getD none with
      | none => facts
      | some r =>
          match s.clauses[r]? with
          | none => facts
          | some d => facts.add (d.strip facts))
    (.none s.front.levels.size)

/-- A clause as it is kept when the facts are known: without its false
literals, and not at all if another one is true. -/
def revised? (facts : Facts q) (c : Consequence q) :
    Option (Consequence q) :=
  let c := c.strip facts
  if c.literals.length ≠ 1 ∧ c.isSettled facts then none else some c

/-- Starts afresh without any choice, with all given clauses and some of
the learned ones, each with its grade. -/
def renew (s : State q) (learned : List (Consequence q × Nat)) : State q :=
  let facts := s.facts
  let given := (s.clauses.extract 0 (s.clauses.size - s.grades.size)).toList
  let kept := learned.filterMap fun (c, grade) =>
    (revised? facts c).map (·, grade)
  let fresh : State q :=
    { blank s.front.levels.size s.known with
      habits := s.habits
      scores := s.scores
      weight := s.weight
      rounds := s.rounds
      allowance := s.allowance
      grades := (kept.map (·.2)).toArray }
  fresh.insertAll (given.filterMap (revised? facts) ++ kept.map (·.1))

/-- Settles what follows without a choice, in at most a given number of
steps; answers a clause that has become false, if one has. -/
def settleAll : (steps : Nat) → State q → Option Nat × State q
  | 0, s => (none, s)
  | steps + 1, s =>
      match s.front.trail[s.settled]? with
      | none => (none, s)
      | some l =>
          match s.propagate l with
          | (none, s) => settleAll steps s
          | (some c, s) => (some c, s)

-- =========================================================== failures

/-- Resolves a clause that the trail makes false with the reasons of its
literals, the latest first, until a single literal of the latest choice
is left in it. Answers also the clauses resolved with. -/
def explain (s : State q) : (count : Nat) → Consequence q → List Nat →
    Consequence q × List Nat
  | 0, c, used => (c, used)
  | count + 1, c, used =>
      let l := s.front.trail[count]?.getD 0
      if !c.literals.contains (-l) then s.explain count c used
      else
        let here := s.choices.size
        if c.literals.countP (s.level · == here) ≤ 1 then (c, used)
        else match s.front.reasons[l.natAbs]?.getD none with
          | none => (c, used)
          | some r =>
              match s.clauses[r]? with
              | none => (c, used)
              | some d => s.explain count (c.resolve l d) (r :: used)

/-- Leaves literals out of a clause that the trail makes false, where
the other literals of their reasons are in it anyway. -/
def shorten (s : State q) (c : Consequence q) : Consequence q :=
  c.literals.foldl
    (fun c l =>
      match s.front.reasons[l.natAbs]?.getD none with
      | none => c
      | some r =>
          match s.clauses[r]? with
          | none => c
          | some d =>
              if d.literals.all fun m => m == -l || c.literals.contains m
              then c.resolve (-l) d else c)
    c

/-- Takes the last literals of the trail back until it has a given
length. -/
def takeBack (length : Nat) : (count : Nat) → State q → State q
  | 0, s => s
  | count + 1, s =>
      match s.front.trail.back? with
      | none => s
      | some l =>
          if s.front.trail.size ≤ length then s
          else
            let habit := if l < 0 then -1 else 1
            takeBack length count { s with
              front := s.front.retract (litSlot l)
              habits := s.habits.setIfInBounds l.natAbs habit }

/-- Takes all choices back except the first ones. -/
def keepChoices (s : State q) (count : Nat) : State q :=
  match s.choices[count]? with
  | none => s
  | some length =>
      let size := s.front.trail.size
      let s := takeBack length (size - length) s
      { s with choices := s.choices.shrink count, settled := length }

/-- Raises the scores of the variables of a clause. -/
def blame (s : State q) (literals : List Int) : State q :=
  let weight := s.weight
  { s with
    scores := literals.foldl
      (fun scores l => scores.modify l.natAbs (· + weight)) s.scores }

/-- Makes later failures count more. The scores are kept within bounds. -/
def age (s : State q) : State q :=
  let weight := s.weight + s.weight / 12
  if weight < 0x10000000000 then { s with weight := weight }
  else { s with
    weight := weight / 0x100000000
    scores := s.scores.map (· / 0x100000000) }

/-- Keeps an explained clause: the choices that it does not speak about
are taken back, and its literal of the latest choice is made false. -/
def learn (s : State q) (clause : Consequence q) : State q :=
  let here := s.choices.size
  let latest := clause.literals.filter (s.level · == here)
  let earlier := clause.literals.filter (s.level · != here)
  let back := earlier.foldl (fun n l => max n (s.level l)) 0
  -- the literals taken back last are watched
  let next := earlier.filter (s.level · == back)
  let rest := earlier.filter (s.level · != back)
  let c := s.clauses.size
  let grade := (clause.literals.map s.level).eraseDups.length
  let s := { s with grades := s.grades.push grade }
  let s := (s.keepChoices back).insert clause (latest ++ next ++ rest)
  match latest with
  | l :: _ =>
      if s.front.standing (litSlot l) = .open_ then s.assume l (some c)
      else s
  | [] => s

/-- Learns from a false clause: from now on it is blamed, and the clause
that explains it is kept. -/
def recover (s : State q) (learned : Consequence q) (used : List Nat) :
    State q :=
  let s := used.foldl
    (fun s c => s.blame ((s.clauses[c]?.map (·.literals)).getD [])) s
  let s := (s.blame learned.literals).age
  { s with failures := s.failures + 1 }.learn learned

-- ============================================================ choices

/-- The open variable with the highest score. -/
def choose (s : State q) : Option Nat :=
  (s.known.foldl (fun (best : Option (Nat × Nat)) v =>
      if s.front.standing (2 * v) ≠ .open_ then best
      else
        let score := s.scores[v]?.getD 0
        match best with
        | some (_, highest) =>
            if highest < score then some (v, score) else best
        | none => some (v, score))
    none).map (·.1)

/-- Makes a choice: the variable gets the value that it had last. -/
def venture (s : State q) (v : Nat) : State q :=
  let positive := s.habits[v]?.getD (-1) == 1
  let s := { s with choices := s.choices.push s.front.trail.size }
  s.assume (if positive then (v : Int) else -(v : Int)) none

/-- How long each round is, in units: 1, 1, 2, 1, 1, 2, 4 and so on. Each
stretch is the one before it twice, with one longer round behind. -/
def roundLength : (steps : Nat) → (round : Nat) → Nat
  | 0, _ => 1
  | steps + 1, round =>
      let half := Nat.pow 2 (Nat.log2 (round + 2) - 1)
      if round + 2 = 2 * half then half
      else roundLength steps (round + 1 - 2 * half)

/-- Gives up half of the learned clauses, the less useful ones. -/
def tidy (s : State q) : State q :=
  let given := s.clauses.size - s.grades.size
  let learned := (s.clauses.extract given s.clauses.size).toList.zip
    s.grades.toList
  let ranked := learned.mergeSort fun c d => decide (c.2 ≤ d.2)
  let allowance := s.allowance + 200
  { s with allowance := allowance }.renew (ranked.take (ranked.length / 2))

/-- Whether a round has had all its failures. -/
def isOver (s : State q) : Bool :=
  32 * roundLength 64 s.rounds ≤ s.failures

/-- Takes all choices back, for the next round. -/
def restart (s : State q) : State q :=
  let s := { s.keepChoices 0 with failures := 0, rounds := s.rounds + 1 }
  if s.grades.size < s.allowance then s else s.tidy

/-- The assignment that the values make. -/
def assignment (s : State q) : Assignment :=
  let front := s.front
  fun i => front.standing (2 * i) == .true_

end State

-- ========================================================== the search

variable {q : Query}

/-- What follows from a clause that is false without any choice. -/
def refute (s : State q) (c : Nat) : Result q :=
  match s.clauses[c]? with
  | none => .open_
  | some d => .refuted (d.strip s.facts)

/-- What follows from a false clause: the clause that explains it, and
the clauses that it comes from. -/
def reasoned? (s : State q) (c : Nat) :
    Option (Consequence q × List Nat) :=
  s.clauses[c]?.map fun clause =>
    let (learned, used) := s.explain s.front.trail.size clause [c]
    (s.shorten learned, used)

/-- Takes steps, at most a given number. -/
def run : (steps : Nat) → State q → Result q
  | 0, _ => .open_
  | steps + 1, s =>
      match s.front.trail[s.settled]? with
      | some l =>
          match s.propagate l with
          | (none, s) => run steps s
          | (some c, s) =>
              if s.choices.isEmpty then refute s c
              else match reasoned? s c with
                | none => .open_
                | some (learned, used) => run steps (s.recover learned used)
      | none =>
          if s.isOver then run steps s.restart
          else match s.choose with
            | none => .found s.assignment
            | some v => run steps (s.venture v)

/-- More steps than any search takes. -/
def enough : Nat := 0x4000000000000000

/-- Searches from the start. What follows without a choice is settled
first and taken out of the clauses. -/
def begin (q : Query) : Result q :=
  match (State.start q).settleAll enough with
  | (some c, s) => refute s c
  | (none, s) =>
      match s.clash with
      | some c => refute s c
      | none => run enough (s.renew [])

-- ========================================================== the answer

/-- The answer of the exhaustive search. -/
def exhaust (q : Query) : Verdict :=
  match Exhaustive.model? q with
  | some a => .sat a
  | none => .unsat

/-- What the search by cases comes to. -/
def caseAnswer (q : Query) : Verdict :=
  match begin q with
  | .found a => if Exhaustive.satisfies q a then .sat a else exhaust q
  | .refuted c => if c.literals.isEmpty then .unsat else exhaust q
  | .open_ => exhaust q

/-- The answer to a question that is not cut short. -/
def answer (q : Query) : Verdict :=
  if Parity.isContradictory q then .unsat else caseAnswer q

/-- Effort below which a search under a limit gives up at once. -/
def leastEffort : Nat := 1000

/-- The search as engines use it. A limit below the least effort lets it
answer only the question without any formula. -/
def search : Search := fun _ q =>
  if 0 < q.limit ∧ q.limit < leastEffort ∧ q.formulas ≠ [] then .unknown
  else answer q

-- =========================================================== soundness

theorem exhaust_sat {a : Assignment} (h : exhaust q = .sat a) :
    q.SatisfiedBy a := by
  unfold exhaust at h
  split at h
  · rename_i heq
    cases h
    exact Exhaustive.model_satisfies heq
  · cases h

theorem exhaust_unsat (h : exhaust q = .unsat) (a : Assignment) :
    ¬ q.SatisfiedBy a := by
  unfold exhaust at h
  split at h
  · cases h
  · rename_i heq
    exact Exhaustive.no_model heq a

theorem exhaust_ne_unknown : exhaust q ≠ .unknown := by
  unfold exhaust
  split <;> simp

theorem caseAnswer_sat {a : Assignment} (h : caseAnswer q = .sat a) :
    q.SatisfiedBy a := by
  unfold caseAnswer at h
  split at h
  · split at h
    · rename_i htest
      cases h
      exact Exhaustive.satisfies_iff.1 htest
    · exact exhaust_sat h
  · split at h
    · cases h
    · exact exhaust_sat h
  · exact exhaust_sat h

theorem caseAnswer_unsat (h : caseAnswer q = .unsat) (a : Assignment) :
    ¬ q.SatisfiedBy a := by
  unfold caseAnswer at h
  split at h
  · split at h
    · cases h
    · exact exhaust_unsat h a
  · split at h
    · rename_i c _ hempty
      exact c.not_satisfiedBy_of_empty (List.isEmpty_iff.1 hempty) a
    · exact exhaust_unsat h a
  · exact exhaust_unsat h a

theorem caseAnswer_ne_unknown : caseAnswer q ≠ .unknown := by
  unfold caseAnswer
  split
  · split
    · simp
    · exact exhaust_ne_unknown
  · split
    · simp
    · exact exhaust_ne_unknown
  · exact exhaust_ne_unknown

theorem answer_sat {a : Assignment} (h : answer q = .sat a) :
    q.SatisfiedBy a := by
  unfold answer at h
  split at h
  · cases h
  · exact caseAnswer_sat h

theorem answer_unsat (h : answer q = .unsat) (a : Assignment) :
    ¬ q.SatisfiedBy a := by
  unfold answer at h
  split at h
  · rename_i hparity
    exact Parity.not_satisfiedBy_of_isContradictory hparity a
  · exact caseAnswer_unsat h a

theorem answer_ne_unknown : answer q ≠ .unknown := by
  unfold answer
  split
  · simp
  · exact caseAnswer_ne_unknown

/-- The answers of the search can be trusted. -/
theorem search_sound : Search.Sound search where
  satisfied h := by
    unfold search at h
    split at h
    · cases h
    · exact answer_sat h
  denied h := by
    unfold search at h
    split at h
    · cases h
    · exact answer_unsat h
  limited h := by
    unfold search at h
    split at h
    · rename_i hlimit
      exact hlimit.1
    · exact absurd h answer_ne_unknown

end SatSession.Learning
