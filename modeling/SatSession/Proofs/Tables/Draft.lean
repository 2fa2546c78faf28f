/-
What an engine was told, and the three places where it keeps that.

A `Draft` is the plain account of the calls that brought clauses: the
clauses closed so far, and the literals of the clause that is open. The
engine has no such account. It has words in a store, a place where the open
clause begins, a count, and the formulas it asserted. `Keeps d e h` says
that all of these tell the draft `d`; it is kept by every call that
succeeds, with the draft that the call makes of it, and by every call that
fails, with the draft as it was.

# The calls, one by one

- `addLiteral_ends`: a literal makes its variable exist and then enters the
  store. The two growths can be denied apart, so a denied store leaves the
  variable behind; the draft does not show it.
- `terminateClause_ends`: the literals read back from the store are the
  open clause, whatever its length, and only after the zero is stored does
  anything else change.
- `create_ends`: a fresh engine keeps the empty draft, in two fresh blocks.
-/
import SatSession.Proofs.Tables.Seat

namespace SatSession

-- ============================================================ the draft

/-- The words of closed clauses: a zero behind each. -/
def closedWords (clauses : List (List Int)) : List Int :=
  clauses.flatMap (· ++ [0])

/-- What the calls that brought clauses amount to. -/
structure Draft where
  /-- The clauses closed so far. -/
  closed : List (List Int) := []
  /-- The literals of the open clause. -/
  opened : List Int := []

namespace Draft

/-- The draft with one more literal in the open clause. -/
def add (d : Draft) (l : Int) : Draft :=
  { d with opened := d.opened ++ [l] }

/-- The draft with the open clause closed. -/
def close (d : Draft) : Draft := { closed := d.closed ++ [d.opened] }

/-- All words of a draft. -/
def words (d : Draft) : List Int := closedWords d.closed ++ d.opened

/-- All clauses of a draft, the open one last. -/
def clauses (d : Draft) : List (List Int) := d.closed ++ [d.opened]

/-- A literal is a word behind the others. -/
theorem words_add (d : Draft) (l : Int) :
    (d.add l).words = d.words ++ [l] := by
  simp [words, add]

/-- A terminator is a zero behind the others. -/
theorem words_close (d : Draft) : d.close.words = d.words ++ [0] := by
  simp [words, close, closedWords]

end Draft

-- ======================================================== cutting words

/-- Words up to the first zero are a clause. -/
theorem cutClauses_append_zero (rest : List Int) :
    ∀ clause : List Int, (∀ l ∈ clause, l ≠ 0) →
      TableEngine.cutClauses (clause ++ 0 :: rest)
        = clause :: TableEngine.cutClauses rest := by
  intro clause
  induction clause with
  | nil =>
      intro _
      simp [TableEngine.cutClauses]
  | cons l clause ih =>
      intro h
      have hl : l ≠ 0 := h l List.mem_cons_self
      have hrest := ih fun m hm => h m (List.mem_cons_of_mem _ hm)
      rw [List.cons_append, TableEngine.cutClauses, if_neg hl, hrest]

/-- Cutting at the zeros gives the clauses back. -/
theorem cutClauses_closedWords :
    ∀ clauses : List (List Int), (∀ c ∈ clauses, ∀ l ∈ c, l ≠ 0) →
      TableEngine.cutClauses (closedWords clauses) = clauses := by
  intro clauses
  induction clauses with
  | nil => intro _; rfl
  | cons c clauses ih =>
      intro h
      have hrest := ih fun c' hc' => h c' (List.mem_cons_of_mem _ hc')
      have hwords : closedWords (c :: clauses)
          = c ++ 0 :: closedWords clauses := by
        simp [closedWords]
      rw [hwords, cutClauses_append_zero _ _ (h c List.mem_cons_self), hrest]

namespace TableEngine

variable {e : TableEngine} {host : Host} {h : Heap} {d : Draft}

-- ==================================================== keeping the draft

/-- A literal that fits into a word and whose variable exists. -/
structure Admitted (varCount : Nat) (l : Int) : Prop where
  nonzero : l ≠ 0
  exists_var : l.natAbs ≤ varCount
  fits : (l.natAbs : Int) ≤ Word.literalMax

/-- An engine keeps a draft in its store and in its formulas. -/
structure Keeps (d : Draft) (e : TableEngine) (h : Heap) : Prop where
  seated : Seated e h
  words : e.words h = d.words
  start : e.clauseStart = (closedWords d.closed).length
  count : e.clauseCount = d.closed.length
  asserted : e.asserted.toList = d.closed.map Formula.ofClause
  admitted : ∀ c ∈ d.clauses, ∀ l ∈ c, Admitted e.varCount l

/-- A literal stays admitted as more variables become known. -/
theorem Admitted.mono {m n : Nat} {l : Int} (hl : Admitted m l)
    (hmn : m ≤ n) : Admitted n l :=
  ⟨hl.1, Nat.le_trans hl.2 hmn, hl.3⟩

/-- The words before the open clause are those of the closed ones. -/
theorem Keeps.closed_words (hk : Keeps d e h) :
    wordsOf (h.contents e.store) 0 e.clauseStart = closedWords d.closed := by
  have hsplit := wordsOf_append (h.contents e.store)
    (Nat.zero_le e.clauseStart) hk.seated.start_le
  have hwords : wordsOf (h.contents e.store) 0 e.stored
      = closedWords d.closed ++ d.opened := hk.words
  rw [hwords] at hsplit
  refine List.append_inj_left hsplit ?_
  rw [length_wordsOf, Nat.sub_zero, hk.start]

/-- The words from there on are the literals of the open clause. -/
theorem Keeps.opened_words (hk : Keeps d e h) :
    wordsOf (h.contents e.store) e.clauseStart e.stored = d.opened := by
  have hsplit := wordsOf_append (h.contents e.store)
    (Nat.zero_le e.clauseStart) hk.seated.start_le
  have hwords : wordsOf (h.contents e.store) 0 e.stored
      = closedWords d.closed ++ d.opened := hk.words
  rw [hwords] at hsplit
  refine List.append_inj_right hsplit ?_
  rw [length_wordsOf, Nat.sub_zero, hk.start]

/-- The words in the store are those of the draft. -/
theorem Keeps.stored_eq (hk : Keeps d e h) : e.stored = d.words.length := by
  rw [← hk.words, TableEngine.words, length_wordsOf, Nat.sub_zero]

/-- The literals read back from the store are those of the open clause. -/
theorem Keeps.pending_eq (hk : Keeps d e host.heap) :
    storedWords e.clauseStart e.stored ⟨e, host⟩
      = .ok d.opened ⟨e, host⟩ := by
  have hroom : e.stored * Word.width ≤ host.heap.size e.store := by
    rw [hk.seated.store_size, storeBytes]
    exact Nat.mul_le_mul_right _ hk.seated.stored_le
  unfold storedWords
  rw [Op.read_bind_apply]
  refine (Op.onHost_ok (Host.onHeap_ok (readWords_eq hroom _))).trans ?_
  rw [hk.opened_words]

/-- The clauses read back from the store are the closed ones. -/
theorem Keeps.clauses_eq (hk : Keeps d e host.heap) :
    clauses ⟨e, host⟩ = .ok d.closed ⟨e, host⟩ := by
  have hroom : e.clauseStart * Word.width ≤ host.heap.size e.store := by
    rw [hk.seated.store_size, storeBytes]
    exact Nat.mul_le_mul_right _
      (Nat.le_trans hk.seated.start_le hk.seated.stored_le)
  have hread : storedWords 0 e.clauseStart ⟨e, host⟩
      = .ok (closedWords d.closed) ⟨e, host⟩ := by
    unfold storedWords
    rw [Op.read_bind_apply]
    refine (Op.onHost_ok (Host.onHeap_ok (readWords_eq hroom 0))).trans ?_
    rw [hk.closed_words]
  have hnonzero : ∀ c ∈ d.closed, ∀ l ∈ c, l ≠ 0 := fun c hc l hl =>
    (hk.admitted c (List.mem_append_left _ hc) l hl).nonzero
  unfold clauses
  rw [Op.read_bind_apply]
  simp only [hk.seated.live, Bool.not_true, Bool.false_eq_true, if_false]
  refine (bind_of_ok hread).trans ?_
  rw [cutClauses_closedWords _ hnonzero]
  rfl

/-- The closed clauses are what is written out. -/
theorem Keeps.writeProblem_eq (hk : Keeps d e host.heap) :
    writeProblem ⟨e, host⟩
      = .ok (Dimacs.write problemComment e.varCount d.closed) ⟨e, host⟩ := by
  unfold writeProblem
  rw [bind_of_ok hk.clauses_eq]
  rfl

/-- An engine keeps what its tables hold. -/
theorem Keeps.of_contents (hk : Keeps d e h) {h' : Heap}
    (hsame : ∀ b ∈ e.tables, h'.contents b = h.contents b) :
    Keeps d e h' :=
  { hk with
    seated := hk.seated.of_contents hsame
    words := by
      rw [TableEngine.words, hsame e.store (by simp [tables])]
      exact hk.words }

-- =========================================================== literals

/-- An existing variable changes nothing in the draft. -/
theorem Keeps.ensured (hk : Keeps d e host.heap) {n : Nat}
    {p : Placed TableEngine} (hp : Ensured n e host p) :
    Keeps d p.object p.host.heap where
  seated := hp.seated
  words := hp.words.trans hk.words
  start := by rw [hp.object]; exact hk.start
  count := by rw [hp.object]; exact hk.count
  asserted := by rw [hp.object]; exact hk.asserted
  admitted c hc l hl := by
    rw [hp.object]
    exact (hk.admitted c hc l hl).mono (Nat.le_max_left _ _)

/-- A stored literal is in the open clause. -/
theorem Keeps.pushed (hk : Keeps d e host.heap) {l : Int}
    (hl : Admitted e.varCount l) {p : Placed TableEngine}
    (hp : Pushed l e host p) : Keeps (d.add l) p.object p.host.heap where
  seated := hp.seated
  words := by rw [hp.words, hk.words, Draft.words_add]
  start := by rw [hp.object]; exact hk.start
  count := by rw [hp.object]; exact hk.count
  asserted := by rw [hp.object]; exact hk.asserted
  admitted c hc m hm := by
    rw [hp.object]
    show Admitted e.varCount m
    rcases List.mem_append.mp hc with hc | hc
    · exact hk.admitted c (List.mem_append_left _ hc) m hm
    · rw [List.mem_singleton.mp hc] at hm
      rcases List.mem_append.mp hm with hm | hm
      · exact hk.admitted d.opened (by simp [Draft.clauses]) m hm
      · rw [List.mem_singleton.mp hm]
        exact hl

/-- A literal was accepted: its variable exists, and it is stored. -/
structure Added (l : Int) (e : TableEngine) (host : Host)
    (p : Placed TableEngine) : Prop where
  fits : (l.natAbs : Int) ≤ Word.literalMax
  steps : ∃ q, Ensured l.natAbs e host q ∧ Pushed l q.object q.host p

/-- How a literal is not accepted: it is out of range, or one of the two
growths is denied, the second with the variable left behind. -/
def NotAdded (l : Int) (e : TableEngine) (host : Host) (f : Fault)
    (p : Placed TableEngine) : Prop :=
  (Word.literalMax < l.natAbs ∧ f = .literalRange (.int l) ∧ p = ⟨e, host⟩)
    ∨ Denied .valueTable e host f p
    ∨ ∃ q, Ensured l.natAbs e host q
        ∧ Denied .clauseStore q.object q.host f p

theorem checkLive_eq (hlive : e.live = true) :
    checkLive ⟨e, host⟩ = .ok () ⟨e, host⟩ := by
  unfold checkLive
  rw [Op.read_bind_apply]
  simp only [hlive, Bool.not_true, Bool.false_eq_true, if_false]
  rfl

theorem checkLive_reset (hdead : e.live = false) :
    checkLive ⟨e, host⟩ = .error .engineReset ⟨e, host⟩ := by
  unfold checkLive
  rw [Op.read_bind_apply]
  simp only [hdead, Bool.not_false, if_true]
  rfl

/-- A literal out of range is refused before anything is done. -/
theorem addLiteral_range (hlive : e.live = true) {l : Int}
    (hl : Word.literalMax < l.natAbs) :
    addLiteral (.int l) ⟨e, host⟩
      = .error (.literalRange (.int l)) ⟨e, host⟩ := by
  have hne : (l == 0) = false := by
    rw [beq_eq_false_iff_ne]
    intro h
    subst h
    simp [Word.literalMax] at hl
  unfold addLiteral
  rw [bind_of_ok (checkLive_eq hlive)]
  simp only [Value.eqInt_int, hne, settle_ok, pure_bind, Value.abs_int,
    Value.lt_int, decide_eq_true hl, Bool.false_eq_true, if_false, if_true]
  rfl

/-- A literal is accepted, or is not, in one of three ways. -/
theorem addLiteral_ends (hp : host.Plain) (hs : Seated e host.heap) {l : Int}
    (hl : l ≠ 0) :
    Ends (fun _ p => Added l e host p) (NotAdded l e host)
      (addLiteral (.int l) ⟨e, host⟩) := by
  by_cases hrange : Word.literalMax < l.natAbs
  · rw [addLiteral_range hs.live hrange]
    exact Or.inl ⟨hrange, rfl, rfl⟩
  · have hne : (l == 0) = false := beq_eq_false_iff_ne.mpr hl
    have hfits : (l.natAbs : Int) ≤ Word.literalMax := by omega
    unfold addLiteral
    rw [bind_of_ok (checkLive_eq hs.live)]
    simp only [Value.eqInt_int, hne, settle_ok, pure_bind, Value.abs_int,
      Value.lt_int, decide_eq_false hrange, Bool.false_eq_true, if_false]
    rw [ends_bind]
    refine (ensureVariable_ends hp hs _).imp ?_ ?_
    · intro _ q hq
      rw [Int.toNat_natCast] at hq
      have hpush := push_ends (hp.of_sameRules hq.within.rules) hq.seated
        (show -Word.literalMax ≤ l by omega) (by omega)
      refine hpush.imp ?_ ?_
      · intro _ p h
        exact ⟨hfits, q, hq, h⟩
      · intro f p h
        exact Or.inr (Or.inr ⟨q, hq, h⟩)
    · intro f p h
      exact Or.inr (Or.inl h)

/-- An accepted literal is in the open clause. -/
theorem Keeps.added (hk : Keeps d e host.heap) {l : Int} (hl : l ≠ 0)
    {p : Placed TableEngine} (hp : Added l e host p) :
    Keeps (d.add l) p.object p.host.heap := by
  obtain ⟨hfits, q, hq, hpush⟩ := hp
  refine (hk.ensured hq).pushed ⟨hl, ?_, hfits⟩ hpush
  rw [hq.object]
  exact Nat.le_max_right _ _

/-- A literal that is not accepted is not in the draft. -/
theorem Keeps.notAdded (hk : Keeps d e host.heap) {l : Int} {f : Fault}
    {p : Placed TableEngine} (hp : NotAdded l e host f p) :
    Keeps d p.object p.host.heap := by
  rcases hp with ⟨-, -, rfl⟩ | hdeny | ⟨q, hq, hdeny⟩
  · exact hk
  · rw [hdeny.rest]
    exact hk
  · have hkept := hk.ensured hq
    rw [hdeny.rest]
    exact hkept

-- ============================================================== closing

/-- An engine that has closed the clause of some literals. -/
def closedBy (e : TableEngine) (clause : List Int) : TableEngine :=
  { e with
    clauseStart := e.stored
    clauseCount := e.clauseCount + 1
    asserted := e.asserted.push (.ofClause clause)
    hasModel := false }

/-- The open clause was closed: a zero is stored behind it, and it is
asserted. -/
def Closed (clause : List Int) (e : TableEngine) (host : Host)
    (p : Placed TableEngine) : Prop :=
  ∃ q, Pushed 0 e host q ∧ p = ⟨q.object.closedBy clause, q.host⟩

/-- Closing a clause does that, with the clause that is open, or is denied
memory. -/
theorem terminateClause_ends (hp : host.Plain) (hk : Keeps d e host.heap) :
    Ends (fun _ p => Closed d.opened e host p) (Denied .clauseStore e host)
      (terminateClause ⟨e, host⟩) := by
  have hs := hk.seated
  unfold terminateClause
  rw [bind_of_ok (checkLive_eq hs.live), Op.read_bind_apply,
    bind_of_ok hk.pending_eq, ends_bind]
  refine (push_ends hp hs (by decide) (by decide)).imp ?_ fun _ _ h => h
  intro _ q hq
  exact ⟨q, hq, rfl⟩

/-- A closed clause is in the draft. -/
theorem Keeps.closed (hk : Keeps d e host.heap) {p : Placed TableEngine}
    (hp : Closed d.opened e host p) :
    Keeps d.close p.object p.host.heap := by
  obtain ⟨q, hq, rfl⟩ := hp
  have hseated := hq.seated
  have hwords : q.object.words q.host.heap = d.close.words := by
    rw [hq.words, hk.words, Draft.words_close]
  refine ⟨?_, hwords, ?_, ?_, ?_, ?_⟩
  · exact { hseated with start_le := Nat.le_refl _ }
  · show q.object.stored = _
    have hlength := congrArg List.length hwords
    rw [TableEngine.words, length_wordsOf, Nat.sub_zero] at hlength
    rw [hlength]
    simp [Draft.words, Draft.close]
  · show q.object.clauseCount + 1 = _
    rw [hq.object]
    show e.clauseCount + 1 = _
    rw [hk.count]
    simp [Draft.close]
  · show (q.object.asserted.push _).toList = _
    rw [hq.object]
    show (e.asserted.push _).toList = _
    rw [Array.toList_push, hk.asserted]
    simp [Draft.close]
  · intro c hc l hl
    show Admitted q.object.varCount l
    rw [hq.object]
    refine hk.admitted c ?_ l hl
    rcases List.mem_append.mp hc with hc | hc
    · exact hc
    · rw [List.mem_singleton.mp hc] at hl
      cases hl

-- ============================================================ reserving

/-- Reserving makes variables exist, or is denied memory. -/
theorem reserveVariables_ends (hp : host.Plain) (hs : Seated e host.heap)
    (n : Int) :
    Ends (fun _ p => Ensured n.toNat e host p) (Denied .valueTable e host)
      (reserveVariables (.int n) ⟨e, host⟩) := by
  unfold reserveVariables
  rw [bind_of_ok (checkLive_eq hs.live)]
  exact ensureVariable_ends hp hs n

-- ============================================================= creation

/-- A fresh engine in two blocks. -/
def fresh (search : Search) (values store : BlockId) : TableEngine where
  search := search
  values := values
  store := store
  capacity := initialCapacity
  wordCapacity := initialCapacity

/-- An engine was made: it keeps nothing yet, in two blocks of its own. -/
structure Made (search : Search) (host : Host) (e : TableEngine)
    (host' : Host) : Prop where
  object : ∃ values store, e = fresh search values store
  keeps : Keeps {} e host'.heap
  holding : Host.Holding e.tables host host'
  answers : host'.answers = host.answers
  zeros : host'.heap.contents e.values
    = Array.replicate (valueBytes initialCapacity) 0
  frees : host'.frees = host.frees

/-- No engine was made, and no memory is kept. -/
structure NotMade (host : Host) (f : Fault) (host' : Host) : Prop where
  fault : f = .outOfMemory .valueTable ∨ f = .outOfMemory .clauseStore
  holding : Host.Holding [] host host'
  denied : ¬ host.Generous

/-- A host that has been denied something is not generous. -/
theorem not_generous_of_denies {delta size : Int}
    (hdeny : host.denies delta size = true) : ¬ host.Generous := fun hg => by
  rw [hg.denies_eq] at hdeny
  cases hdeny

/-- No request is denied on a generous host. -/
theorem Denied.not_generous {use : MemoryUse} {f : Fault}
    {p : Placed TableEngine} (h : Denied use e host f p) :
    ¬ host.Generous := by
  obtain ⟨delta, size, hdeny⟩ := h.denied
  exact not_generous_of_denies hdeny

/-- In two fresh blocks of the initial sizes a fresh engine sits. -/
theorem fresh_keeps (search : Search) {values store : BlockId}
    (hapart : values ≠ store)
    (hvalues : h.size values = valueBytes initialCapacity)
    (hstore : h.size store = storeBytes initialCapacity) :
    Keeps {} (fresh search values store) h where
  seated := ⟨rfl, hapart, hvalues, hstore, Nat.succ_pos _, Nat.succ_pos _,
    Nat.zero_le _, Nat.le_refl _, Nat.zero_le _⟩
  words := rfl
  start := rfl
  count := rfl
  asserted := rfl
  admitted c hc l hl := by
    rw [List.mem_singleton.mp hc] at hl
    cases hl

/-- Making an engine does that, or is denied one of the two blocks. If
the host takes back what it is given, the other one is given back. -/
theorem create_ends (hp : host.Plain) (search : Search) :
    Ends (fun e host' => Made search host e host')
      (fun f host' => host.TakesBack → NotMade host f host')
      (create search host) := by
  have hvalues := Host.alloc_eq hp (valueBytes initialCapacity)
  unfold create
  simp only [size, ends_bind]
  split at hvalues
  next hdeny =>
    rw [hvalues]
    exact fun _ => ⟨Or.inl rfl, (Host.Holding.refl host).within
      (Host.within_asked [] hdeny), not_generous_of_denies hdeny⟩
  next hgrant =>
    rw [hvalues]
    have hhold := (Host.Holding.refl host).granted
      (Bool.eq_false_iff.mpr hgrant)
    have hp₁ := hp.of_sameRules hhold.rules
    have hzeros : (host.given (valueBytes initialCapacity)).heap.contents
        host.heap.blocks.size
        = Array.replicate (valueBytes initialCapacity) 0 := by
      rw [Host.given, Heap.contents_granted, if_pos rfl]
    have hsize : (host.given (valueBytes initialCapacity)).heap.size
        host.heap.blocks.size = valueBytes initialCapacity := by
      rw [Heap.size, hzeros, Array.size_replicate]
    have hquiet : (host.given (valueBytes initialCapacity)).answers
        = host.answers := rfl
    have hkept : (host.given (valueBytes initialCapacity)).frees
        = host.frees := rfl
    generalize host.given (valueBytes initialCapacity) = host₁
      at hhold hp₁ hzeros hsize hquiet hkept ⊢
    simp only [ends_ok, ends_bind]
    have hstore := Host.alloc_eq hp₁ (storeBytes initialCapacity)
    split at hstore
    next hdeny =>
      rw [hstore]
      simp only [ends_ok, ends_bind]
      -- the first table is given back, unless the host fails to take it
      by_cases ht : host.TakesBack
      · have hw := Host.within_asked [host.heap.blocks.size] hdeny
        have hfree := Host.free_eq (hp₁.of_sameRules hw.rules)
          ((ht.of_sameRules hhold.rules).of_sameRules hw.rules) hsize
        have hgone : Host.Holding [] host
            (host₁.asked.takenBack host.heap.blocks.size) :=
          (hhold.within hw).released []
        rw [hfree]
        refine fun _ => ⟨Or.inr rfl, hgone, fun hg => ?_⟩
        exact not_generous_of_denies hdeny (hg.of_sameRules hhold.rules)
      · cases Host.free host.heap.blocks.size
          (.int (valueBytes initialCapacity)) host₁.asked with
        | ok a host₂ => exact fun h => absurd h ht
        | error f host₂ => exact fun h => absurd h ht
    next hgrant =>
      have hboth := hhold.granted (Bool.eq_false_iff.mpr hgrant)
      have hlt : host.heap.blocks.size < host₁.heap.blocks.size :=
        hhold.exist _ (by simp)
      rw [hstore]
      refine ⟨⟨_, _, rfl⟩, fresh_keeps search (Nat.ne_of_lt hlt) ?_ ?_,
        hboth, hquiet, ?_, hkept⟩
      · rw [Host.given, Heap.size_granted, if_neg (Nat.ne_of_lt hlt)]
        exact hsize
      · rw [Host.given, Heap.size_granted, if_pos rfl]
      · show (host₁.given _).heap.contents host.heap.blocks.size = _
        rw [Host.given, Heap.contents_granted, if_neg (Nat.ne_of_lt hlt)]
        exact hzeros

end TableEngine

end SatSession
