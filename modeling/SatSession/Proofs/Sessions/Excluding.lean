/-
Ruling one assignment out, and no other.

Blocking reads the assignment into a buffer, which may be missing, too
short, too long and full of old bytes, and then makes a clause of what it
noted. While it adds the literals the store of the engine may grow. What
comes of that is exact (`rules_out_one`): either there is one clause more,
the one that fails the assignment alone, and the buffer holds the
polarities and otherwise what it held, or some request was denied, memory
has run out, and the clauses are what they were.

# The argument

The two loops touch different blocks. Noting works on the buffer alone,
where a byte is written once and the others stay (`ShownBelow`); adding
works on the tables alone, so the notes are the same when they are read.
All variables of the clause exist, so nothing but the store is ever asked
to grow, and each request of it that is granted doubles it: that is how
the requests can be counted (`Doubled`), and none of them was denied if
the call succeeds.

Afterwards the flag of the engine is down and stays so until the next
invocation, and there is a clause with a literal in it, so that at least
one variable is asked for (`Spent`).
-/
import SatSession.Proofs.Models
import SatSession.Proofs.Sessions.Decoding
import SatSession.Proofs.Tables.Tally

namespace SatSession

-- =========================================================== the memory

namespace Host

variable {host host' host'' : Host} {own : List BlockId} {f : Fault}

/-- Memory has run out: the last request was denied. -/
def RanOut (host : Host) (f : Fault) (host' : Host) : Prop :=
  ∃ use before delta size, f = .outOfMemory use ∧ SameRules host before
    ∧ before.denies delta size = true ∧ host' = before.asked

/-- Memory that runs out later has run out on the same host. -/
theorem RanOut.after (hrules : SameRules host host')
    (h : RanOut host' f host'') : RanOut host f host'' := by
  obtain ⟨use, before, delta, size, hfault, hbefore, hdeny, hasked⟩ := h
  exact ⟨use, before, delta, size, hfault, hrules.trans hbefore, hdeny,
    hasked⟩

/-- A request that is denied is where it runs out. -/
theorem ranOut_asked {delta size : Int} (use : MemoryUse)
    (hdeny : host.denies delta size = true) :
    RanOut host (.outOfMemory use) host.asked :=
  ⟨use, host, delta, size, rfl, .refl host, hdeny, rfl⟩

/-- A generous host never runs out. -/
theorem RanOut.not_generous (h : RanOut host f host') :
    ¬ host.Generous := by
  obtain ⟨use, before, delta, size, -, hrules, hdeny, -⟩ := h
  exact fun hg =>
    TableEngine.not_generous_of_denies hdeny (hg.of_sameRules hrules)

/-- A host on which whoever has the blocks `own` can go on with them. -/
structure Carries (own : List BlockId) (host host' : Host) : Prop where
  plain : host'.Plain
  takesBack : host'.TakesBack
  same : ∀ b ∈ own, host'.heap.contents b = host.heap.contents b

end Host

/-- The length of a buffer, zero if there is none. -/
def Heap.lengthOf (h : Heap) (scratch : Option BlockId) : Nat :=
  (scratch.map h.size).getD 0

namespace TableEngine

variable {e : TableEngine} {host : Host} {p q : Placed TableEngine}
  {d : Draft} {shown : Option Nat} {limit : Int} {own : List BlockId}

/-- An engine goes on wherever its tables are what they were. -/
theorem Abreast.carried {host' : Host}
    (h : Abreast own shown d limit ⟨e, host⟩)
    (hc : Host.Carries own host host') :
    Abreast own shown d limit ⟨e, host'⟩ := by
  have htables : e.tables = own := h.tables
  exact { h with
    plain := hc.plain
    takesBack := hc.takesBack
    keeps := h.keeps.of_contents fun b hb => hc.same b (htables ▸ hb)
    display := h.display.of_contents
      (hc.same e.values (htables ▸ List.mem_cons_self)) }

-- ======================================================== the store

/-- The store has been doubled once for each request. -/
def Doubled (e : TableEngine) (host : Host) (p : Placed TableEngine) :
    Prop :=
  ∃ k, p.object.wordCapacity = 2 ^ k * e.wordCapacity
    ∧ p.host.requests = host.requests + k

theorem Doubled.refl (e : TableEngine) (host : Host) :
    Doubled e host ⟨e, host⟩ := ⟨0, by simp, rfl⟩

theorem Doubled.trans (h : Doubled e host p)
    (h' : Doubled p.object p.host q) : Doubled e host q := by
  obtain ⟨k, hcapacity, hrequests⟩ := h
  obtain ⟨m, hcapacity', hrequests'⟩ := h'
  refine ⟨k + m, ?_, by omega⟩
  rw [hcapacity', hcapacity, Nat.pow_add, ← Nat.mul_assoc,
    Nat.mul_comm (2 ^ m)]

/-- A word doubles the store when it is full, and for one request. -/
theorem push_doubles (hp : host.Plain) (hs : Seated e host.heap)
    (n : Int) :
    Ends (fun _ p => Doubled e host p) (fun f p => host.RanOut f p.host)
      (push (.int n) ⟨e, host⟩) := by
  rw [push_eq hp hs]
  split
  next hfull =>
    split
    next hdeny => exact Host.ranOut_asked _ hdeny
    next =>
      refine ⟨1, ?_, rfl⟩
      show e.roomFor = _
      rw [roomFor, if_pos hfull, Nat.pow_one]
  next hroom =>
    refine ⟨0, ?_, rfl⟩
    show e.roomFor = _
    rw [roomFor, if_neg hroom, Nat.pow_zero, Nat.one_mul]

/-- A literal about a known variable is stored, and that is all. -/
theorem addLiteral_known (hp : host.Plain) (hs : Seated e host.heap)
    {l : Int} (hl : l ≠ 0) (hknown : l.natAbs ≤ e.varCount)
    (hfits : (l.natAbs : Int) ≤ Word.literalMax) :
    addLiteral (.int l) ⟨e, host⟩ = push (.int l) ⟨e, host⟩ := by
  have hne : (l == 0) = false := beq_eq_false_iff_ne.mpr hl
  have hvars := hs.vars_le
  have hsame : e.ensured l.natAbs = e := by
    unfold ensured
    rw [grown_eq_self (by omega), Nat.max_eq_left hknown]
  have hensure : ensureVariable (.int l.natAbs) ⟨e, host⟩
      = .ok () ⟨e, host⟩ := by
    rw [ensureVariable_eq hp hs, if_neg (by omega), Int.toNat_natCast,
      hsame]
  unfold addLiteral
  rw [bind_of_ok (checkLive_eq hs.live)]
  simp only [Value.eqInt_int, hne, settle_ok, pure_bind, Value.abs_int,
    Value.lt_int, decide_eq_false (Int.not_lt.mpr hfits),
    Bool.false_eq_true, if_false]
  rw [bind_of_ok hensure]

/-- The terminator is a word like any other. -/
theorem terminateClause_doubles (hp : host.Plain)
    (hk : Keeps d e host.heap) :
    Ends (fun _ p => Doubled e host p) (fun f p => host.RanOut f p.host)
      (terminateClause ⟨e, host⟩) := by
  unfold terminateClause
  rw [bind_of_ok (checkLive_eq hk.seated.live), Op.read_bind_apply,
    bind_of_ok hk.pending_eq, ends_bind]
  exact (push_doubles hp hk.seated 0).imp (fun _ _ h => h) fun _ _ h => h

end TableEngine

namespace Session

open TableEngine

variable {s : Session TableEngine} {host : Host} {a : Assignment}
  {clauses : List (List Int)} {n : Nat} {buffer : BlockId}
  {scratch : Option BlockId} {own : List BlockId}
  {p q : Placed (Session TableEngine)}

-- ========================================================== the buffer

/-- A buffer with a byte for each variable has been found; what it held it
still holds. -/
structure Furnished (n : Nat) (s : Session TableEngine) (host : Host)
    (scratch : Option BlockId) (buffer : BlockId)
    (p : Placed (Session TableEngine)) : Prop where
  object : p.object = s
  handed : ∀ b ∈ scratch, buffer = b
  taken : scratch = none → buffer = host.heap.blocks.size
  size : p.host.heap.size buffer = max (host.heap.lengthOf scratch) (n + 1)
  bytes : ∀ i, i < host.heap.lengthOf scratch →
    p.host.heap.byte? buffer i = host.heap.byte? buffer i
  others : ∀ b, b ≠ buffer →
    p.host.heap.contents b = host.heap.contents b
  rules : Host.SameRules host p.host
  requests : p.host.requests
    = host.requests + if n < host.heap.lengthOf scratch then 0 else 1

/-- A buffer that is no table if it is handed in is none if it is
found. -/
theorem Furnished.apart (h : Furnished n s host scratch buffer p)
    (hs : Seated s.engine host.heap)
    (hscratch : ∀ b ∈ scratch, b ∉ s.engine.tables) :
    buffer ∉ s.engine.tables := by
  cases scratch with
  | some b =>
      rw [h.handed b rfl]
      exact hscratch b rfl
  | none =>
      rw [h.taken rfl]
      exact fun hmem => Nat.lt_irrefl _ (hs.tables_handed _ hmem)

/-- What is in the tables is in them still. -/
theorem Furnished.same (h : Furnished n s host scratch buffer p)
    (hapart : buffer ∉ s.engine.tables) :
    ∀ b ∈ s.engine.tables,
      p.host.heap.contents b = host.heap.contents b := fun b hb =>
  h.others b fun hbuffer => hapart (hbuffer ▸ hb)

/-- A furnished buffer has a byte for every variable. -/
theorem Furnished.long (h : Furnished n s host scratch buffer p) :
    n < p.host.heap.size buffer :=
  Nat.lt_of_lt_of_le (Nat.lt_succ_self n)
    ((Nat.le_max_right ..).trans_eq h.size.symm)

/-- A buffer is found, whatever is handed in, or it is not long enough and
there is no memory for it. -/
theorem scratchFor_furnishes (hp : host.Plain)
    (hhanded : ∀ b ∈ scratch, b < host.heap.blocks.size) :
    Ends (Furnished n s host scratch)
      (fun f p => host.heap.lengthOf scratch ≤ n ∧ host.RanOut f p.host)
      (scratchFor scratch (.int (n + 1)) ⟨s, host⟩) := by
  rw [scratchFor_eq hp]
  cases scratch with
  | none =>
      dsimp only
      split
      next hdeny => exact ⟨Nat.zero_le n, Host.ranOut_asked _ hdeny⟩
      next =>
        refine ⟨rfl, by simp, fun _ => rfl, ?_, ?_, ?_,
          ⟨rfl, rfl, rfl, rfl, rfl⟩, rfl⟩
        · show (host.heap.granted (n + 1)).size _ = _
          rw [Heap.size_granted, if_pos rfl]
          exact (Nat.max_eq_right (Nat.zero_le _)).symm
        · exact fun i hi => absurd hi (Nat.not_lt_zero i)
        · intro b hb
          show (host.heap.granted (n + 1)).contents b = _
          rw [Heap.contents_granted, if_neg hb]
  | some b =>
      have hb : b < host.heap.blocks.size := hhanded b rfl
      have hlength : host.heap.lengthOf (some b) = host.heap.size b := rfl
      have hsame : ∀ c ∈ some b, b = c := fun c hc => Option.mem_some.mp hc
      dsimp only
      split
      next hlong =>
        -- a buffer that is long enough is not asked about
        refine ⟨rfl, hsame, by simp, ?_, fun _ _ => rfl, fun _ _ => rfl,
          .refl host, ?_⟩
        · rw [hlength]
          exact (Nat.max_eq_left hlong).symm
        · rw [hlength, if_pos hlong]
          rfl
      next hshort =>
        split
        next hdeny =>
          exact ⟨Nat.not_lt.mp hshort, Host.ranOut_asked _ hdeny⟩
        next =>
          refine ⟨rfl, hsame, by simp, ?_, ?_, ?_,
            ⟨rfl, rfl, rfl, rfl, rfl⟩, ?_⟩
          · show (host.heap.resized b (n + 1)).size b = _
            rw [Heap.size_resized, if_pos ⟨rfl, hb⟩, hlength]
            exact (Nat.max_eq_right (by omega)).symm
          · intro i hi
            -- the bytes in front survive the growth
            have hold : i < (host.heap.contents b).size := hi
            show ((host.heap.resized b (n + 1)).contents b)[i]? = _
            rw [Heap.contents_resized, if_pos ⟨rfl, hb⟩,
              Heap.getElem?_resize _ _ hold (by omega)]
            rfl
          · intro c hc
            show (host.heap.resized b (n + 1)).contents c = _
            rw [Heap.contents_resized, if_neg fun hcb => hc hcb.1]
          · rw [hlength, if_neg hshort]
            rfl

-- ========================================================== the clause

/-- The opposite of one more entry takes a word of the store. -/
theorem addOpposite_doubles (hplain : host.Plain)
    (hapart : buffer ∉ s.engine.tables)
    (hnotes : ∀ i, 1 ≤ i → i ≤ s.engine.varCount →
      host.heap.byte? buffer i = some (if a i then 1 else 0))
    (hfits : (s.engine.varCount : Int) ≤ Word.literalMax) {i : Nat}
    (h1 : 1 ≤ i) (hi : i ≤ s.engine.varCount)
    (hp : Opposed a clauses s host i p) :
    Ends (fun _ q => Doubled p.object.engine p.host
        ⟨q.object.engine, q.host⟩)
      (fun f q => p.host.RanOut f q.host) (addOpposite buffer i p) := by
  obtain ⟨s', host'⟩ := p
  have hon := hp.onward
  have hvars : s'.engine.varCount = s.engine.varCount := hp.vars
  have hnote : host'.heap.byte? buffer i = some (if a i then 1 else 0) := by
    rw [Heap.byte?, hon.within.others buffer hapart]
    exact hnotes i h1 hi
  unfold addOpposite
  rw [get_bind_apply]
  simp only [hnote]
  generalize hl : (if (if a i then (1 : UInt8) else 0) ≠ 0 then -(i : Int)
    else i) = l
  have hmagnitude : l.natAbs = i := by
    rw [← hl]
    split <;> simp
  have hknown : l.natAbs ≤ s'.engine.varCount := by omega
  have hplain' := hplain.of_sameRules hon.within.rules
  have hs := hp.keeps.seated
  rw [onEngine, Op.ends_within]
  show Ends _ _ (TableEngine.addLiteral (.int l) ⟨s'.engine, host'⟩)
  rw [addLiteral_known hplain' hs (by omega) hknown (by omega)]
  exact push_doubles hplain' hs l

/-- The clause of all opposite entries takes words of the store. -/
theorem addOpposites_double (hplain : host.Plain)
    (hk : Keeps { closed := clauses } s.engine host.heap)
    (hapart : buffer ∉ s.engine.tables)
    (hnotes : ∀ i, 1 ≤ i → i ≤ s.engine.varCount →
      host.heap.byte? buffer i = some (if a i then 1 else 0))
    (hfits : (s.engine.varCount : Int) ≤ Word.literalMax) :
    Ends (fun _ q => Doubled s.engine host ⟨q.object.engine, q.host⟩)
      (fun f q => host.RanOut f q.host)
      ((do
        Op.each (addOpposite buffer) s.engine.varCount 1
        onEngine Engine.terminateClause : Op (Session TableEngine) Unit)
        ⟨s, host⟩) := by
  have hstart : Opposed a clauses s host 1 ⟨s, host⟩ :=
    ⟨rfl, by simpa [signedList] using hk, .refl .., rfl⟩
  rw [ends_bind]
  refine (ends_each (fun i p => Opposed a clauses s host i p
      ∧ Doubled s.engine host ⟨p.object.engine, p.host⟩)
    s.engine.varCount 1 ⟨s, host⟩ ⟨hstart, .refl ..⟩ ?_).imp ?_
    fun _ _ h => h
  · rintro i p h1 hlt ⟨hp, hdoubled⟩
    refine ((addOpposite_ends hplain hapart hnotes h1 (by omega) hp).and
      (addOpposite_doubles hplain hapart hnotes hfits h1 (by omega)
        hp)).imp ?_ ?_
    · rintro _ q ⟨hq, hmore⟩
      exact ⟨hq, hdoubled.trans hmore⟩
    · rintro f q ⟨-, hout⟩
      exact hout.after hp.onward.within.rules
  · rintro _ p ⟨hp, hdoubled⟩
    have hrules := hp.onward.within.rules
    rw [onEngine, Op.ends_within]
    refine (terminateClause_doubles (hplain.of_sameRules hrules)
      hp.keeps).imp ?_ ?_
    · intro _ q hq
      exact hdoubled.trans hq
    · intro f q hout
      exact hout.after hrules

-- ============================================================ blocking

/-- The entries of a list are noted in a buffer, one byte for each from the
second on; the buffer has become longer if it was too short, and its other
bytes are what they were. -/
structure Inscribed (list : List Int) (host : Host)
    (scratch : Option BlockId) (buffer : BlockId) (host' : Host) :
    Prop where
  handed : ∀ b ∈ scratch, buffer = b
  taken : scratch = none → buffer = host.heap.blocks.size
  size : host'.heap.size buffer
    = max (host.heap.lengthOf scratch) (list.length + 1)
  notes : ∀ i l, list[i]? = some l →
    host'.heap.byte? buffer (i + 1) = some (if 0 < l then 1 else 0)
  rest : ∀ i, i = 0 ∨ list.length < i → i < host.heap.lengthOf scratch →
    host'.heap.byte? buffer i = host.heap.byte? buffer i

/-- Every request was granted: there was one for the buffer, if it was not
long enough, and one each time that the store was doubled. -/
def Granted (scratch : Option BlockId) (p q : Placed (Session TableEngine)) :
    Prop :=
  ∃ k, q.object.engine.wordCapacity = 2 ^ k * p.object.engine.wordCapacity
    ∧ q.host.requests = p.host.requests
      + (if p.object.engine.varCount < p.host.heap.lengthOf scratch
        then 0 else 1) + k

/-- The assignment has been ruled out, through a buffer. -/
structure Excluded (a : Assignment) (clauses : List (List Int))
    (s : Session TableEngine) (host : Host) (scratch : Option BlockId)
    (buffer : BlockId) (q : Placed (Session TableEngine)) : Prop where
  keeps : Keeps { closed := clauses
      ++ [(signedList a s.engine.varCount).map (- ·)] }
    q.object.engine q.host.heap
  vars : q.object.engine.varCount = s.engine.varCount
  buffer : Inscribed (signedList a s.engine.varCount) host scratch buffer
    q.host
  granted : Granted scratch ⟨s, host⟩ q

/-- What has been noted stays while the tables are worked on. -/
theorem Noted.inscribed {host₁ host₂ host₃ : Host}
    (hfurnished : Furnished n s host scratch buffer ⟨s, host₁⟩)
    (hnoted : Noted a buffer s host₁ (1 + n) ⟨s, host₂⟩)
    (hsame : host₃.heap.contents buffer = host₂.heap.contents buffer) :
    Inscribed (signedList a n) host scratch buffer host₃ := by
  have hshown := hnoted.shown
  have hbyte : ∀ i, host₃.heap.byte? buffer i = host₂.heap.byte? buffer i :=
    fun i => by rw [Heap.byte?, hsame, Heap.byte?]
  refine ⟨hfurnished.handed, hfurnished.taken, ?_, ?_, ?_⟩
  · rw [length_signedList, Heap.size, hsame]
    exact hshown.size.trans hfurnished.size
  · intro i l hl
    have hi : i < n := by
      have hlt := (List.getElem?_eq_some_iff.mp hl).1
      rwa [length_signedList] at hlt
    rw [getElem?_signedList hi] at hl
    obtain rfl := Option.some.inj hl
    rw [hbyte]
    refine (hshown.bytes (i + 1) (by omega) (by omega)).trans ?_
    unfold signed
    cases a (i + 1) with
    | true => simp
    | false =>
        have hneg : ¬ (0 : Int) < -((i + 1 : Nat) : Int) := by omega
        simp only [Bool.false_eq_true, if_false, if_neg hneg]
  · intro i hi hold
    rw [length_signedList] at hi
    rw [hbyte]
    exact (hshown.rest i (by omega)).trans (hfurnished.bytes i hold)

/-- The assignment shown is ruled out exactly, or memory runs out. -/
theorem block_exact (hplain : host.Plain) (h : Showing a s host)
    (hk : Keeps { closed := clauses } s.engine host.heap)
    (hfits : (s.engine.varCount : Int) ≤ Word.literalMax)
    (hscratch : ∀ b ∈ scratch, b < host.heap.blocks.size
      ∧ b ∉ s.engine.tables) :
    Ends (Excluded a clauses s host scratch)
      (fun f q => host.RanOut f q.host) (block scratch ⟨s, host⟩) := by
  rw [block_of_ready h.intact h.last, ends_bind]
  refine (scratchFor_furnishes hplain fun b hb =>
    (hscratch b hb).1).imp ?_ fun _ _ hf => hf.2
  intro buffer p hfurnished
  obtain ⟨s₁, host₁⟩ := p
  obtain rfl : s₁ = s := hfurnished.object
  have hapart := hfurnished.apart hk.seated fun b hb => (hscratch b hb).2
  have hsame := hfurnished.same hapart
  rw [ends_bind]
  refine (notePolarities_ends (h.of_contents hsame) hapart
    hfurnished.long).imp_ok ?_
  intro _ p hnoted
  obtain ⟨s₂, host₂⟩ := p
  obtain rfl : s₂ = s₁ := hnoted.object
  have hrules := hfurnished.rules.trans hnoted.within.rules
  have hplain₂ := hplain.of_sameRules hrules
  have hkeeps₂ := (hk.of_contents hsame).of_contents
    fun b hb => hnoted.within.others b fun hmem =>
      hapart (by rwa [List.mem_singleton.mp hmem] at hb)
  have hnotes : ∀ i, 1 ≤ i → i ≤ s₂.engine.varCount →
      host₂.heap.byte? buffer i = some (if a i then 1 else 0) :=
    fun i h1 hi => hnoted.shown.bytes i h1 (by omega)
  have hclause := (addOpposites_ends hplain₂ hkeeps₂ hapart hnotes).and
    (addOpposites_double hplain₂ hkeeps₂ hapart hnotes hfits)
  rw [ends_bind] at hclause ⊢
  refine hclause.imp ?_ fun f q hq => hq.2.after hrules
  intro _ p hp
  rw [ends_bind]
  refine hp.imp ?_ fun f q hq => hq.2.after hrules
  rintro _ q ⟨⟨-, hkeeps, hon, hvars⟩, k, hcapacity, hrequests⟩
  refine ⟨hkeeps, hvars, hnoted.inscribed hfurnished
    (hon.within.others buffer hapart), k, hcapacity, ?_⟩
  have hbefore : host₂.requests = host₁.requests := by
    rw [show host₂ = _ from hnoted.rest]
  rw [hrequests, hbefore, hfurnished.requests]

-- ========================================================== afterwards

/-- A session that has variables and clauses and shows nothing, or that is
no more. -/
def Spent (own : List BlockId) (p : Placed (Session TableEngine)) : Prop :=
  p.object.destroyed = true
    ∨ p.object.destroyed = false ∧ ∃ d limit,
      (∃ c ∈ d.closed, c ≠ [])
        ∧ Abreast own none d limit ⟨p.object.engine, p.host⟩

/-- Neither decoding nor blocking is possible: both violate a precondition,
if blocking is not denied memory for its buffer before. -/
structure Declines (p : Placed (Session TableEngine)) : Prop where
  decode : ∃ f, decode p = .error f p
    ∧ f.errorClass = .preconditionViolation
  block : ∀ scratch, (∀ b ∈ scratch, b < p.host.heap.blocks.size) →
    Ends (fun _ _ => False)
      (fun f q => f.errorClass = .preconditionViolation
        ∨ p.host.heap.lengthOf scratch ≤ p.object.engine.varCount
          ∧ p.host.RanOut f q.host)
      (block scratch p)

/-- A session spent stays so, whatever is called but an invocation. -/
theorem Spent.turn (h : Spent own p) {call : SessionCall}
    (hproper : call.Proper own) (hinvoke : ∀ budget, call ≠ .invoke budget) :
    Spent own (Turn.take SessionCall.perform call p).after := by
  obtain ⟨s, host⟩ := p
  rcases h with hdestroyed | ⟨hintact, d, limit, ⟨c, hc, hliteral⟩, habreast⟩
  · rcases Turn.take_of_ends (perform_gone hdestroyed call) with
      ⟨-, hafter⟩ | ⟨f, -, hafter⟩
    · exact Or.inl hafter
    · exact Or.inl hafter
  by_cases hdestroy : call = .destroy
  · subst hdestroy
    have hrun : SessionCall.destroy.perform
        (⟨s, host⟩ : Placed (Session TableEngine))
        = .ok () ⟨s.gone, s.hostAfter host⟩ :=
      destroy_eq habreast.plain habreast.takesBack habreast.keeps.seated
        hintact
    rw [Turn.take_of_ok hrun]
    exact Or.inl rfl
  · have hserves : ∀ {d' : Draft} {limit' : Int} {q},
        c ∈ d'.closed → Serving own none d' limit' s q → Spent own q := by
      intro d' limit' q hmem hq
      refine Or.inr ⟨?_, d', limit', ⟨c, hmem, hliteral⟩, hq.abreast⟩
      rw [hq.object]
      exact hintact
    rcases Turn.take_of_ends
      (perform_ends habreast hintact hproper hinvoke hdestroy) with
      ⟨-, hafter⟩ | ⟨f, -, d', limit', hclosed, hafter⟩
    · split at hafter
      next =>
        obtain ⟨d', limit', clause, hclosed, hafter⟩ := hafter
        exact hserves (by simp [hclosed, hc]) hafter
      next =>
        obtain ⟨d', limit', hclosed, hafter⟩ := hafter
        exact hserves (hclosed ▸ hc) hafter
    · exact hserves (hclosed ▸ hc) hafter

/-- What is spent stays so over any calls without an invocation. -/
theorem Spent.turns (calls : List SessionCall)
    (hcalls : ∀ call ∈ calls, call.Proper own
      ∧ ∀ budget, call ≠ .invoke budget) :
    ∀ {p : Placed (Session TableEngine)}, Spent own p →
      Spent own (afterTurns SessionCall.perform calls p) := by
  induction calls with
  | nil => exact fun h => h
  | cons call calls ih =>
      intro p h
      obtain ⟨hproper, hinvoke⟩ := hcalls call List.mem_cons_self
      exact ih (fun c hc => hcalls c (List.mem_cons_of_mem _ hc))
        (h.turn hproper hinvoke)

/-- It stays so on any host that leaves its tables alone. -/
theorem Spent.carried {host' : Host} (h : Spent own p)
    (hc : Host.Carries own p.host host') : Spent own ⟨p.object, host'⟩ := by
  rcases h with hdestroyed | ⟨hintact, d, limit, hliteral, habreast⟩
  · exact Or.inl hdestroyed
  · exact Or.inr ⟨hintact, d, limit, hliteral, habreast.carried hc⟩

/-- Without an assignment the first polarity cannot be noted. -/
theorem block_unshown (hplain : host.Plain) (hintact : s.destroyed = false)
    (hlast : s.last = some .satisfiable) (hflag : s.engine.hasModel = false)
    (hvars : s.engine.varCount ≠ 0)
    (hhanded : ∀ b ∈ scratch, b < host.heap.blocks.size) :
    Ends (fun _ _ => False)
      (fun f q => f.errorClass = .preconditionViolation
        ∨ host.heap.lengthOf scratch ≤ s.engine.varCount
          ∧ host.RanOut f q.host)
      (block scratch ⟨s, host⟩) := by
  rw [block_of_ready hintact hlast, ends_bind]
  refine (scratchFor_furnishes hplain hhanded).imp ?_ fun _ _ => Or.inr
  intro buffer p hfurnished
  obtain ⟨s₁, host₁⟩ := p
  obtain rfl : s₁ = s := hfurnished.object
  have hnote : notePolarity buffer 1 ⟨s₁, host₁⟩
      = .error .noModel ⟨s₁, host₁⟩ :=
    bind_of_error (polarity_unshown hflag 1)
  obtain ⟨n, hn⟩ := Nat.exists_eq_succ_of_ne_zero hvars
  have hnotes : Op.each (notePolarity buffer) s₁.engine.varCount 1
      ⟨s₁, host₁⟩ = .error .noModel ⟨s₁, host₁⟩ := by
    rw [hn]
    exact bind_of_error hnote
  rw [bind_of_error hnotes]
  exact Or.inl rfl

/-- What is spent is neither decoded nor blocked. -/
theorem Spent.declines (h : Spent own p) : Declines p := by
  obtain ⟨s, host⟩ := p
  by_cases hready : s.destroyed = false ∧ s.last = some .satisfiable
  · obtain ⟨hintact, hlast⟩ := hready
    rcases h with hdestroyed | ⟨-, d, limit, ⟨c, hc, hliteral⟩, habreast⟩
    · rw [hintact] at hdestroyed
      cases hdestroyed
    have hvars : s.engine.varCount ≠ 0 := by
      obtain ⟨l, hl⟩ := List.exists_mem_of_ne_nil c hliteral
      have hadmitted := habreast.keeps.admitted c
        (List.mem_append_left _ hc) l hl
      have hnonzero := hadmitted.nonzero
      have hvar : l.natAbs ≤ s.engine.varCount := hadmitted.exists_var
      omega
    refine ⟨⟨.noModel, ?_, rfl⟩, fun _ => block_unshown habreast.plain
      hintact hlast habreast.display.flag hvars⟩
    rw [decode_unshown habreast hintact hlast, if_neg hvars]
  · have hnot : s.destroyed = true ∨ s.last ≠ some .satisfiable := by
      rwa [not_and_or, Bool.not_eq_false] at hready
    refine ⟨decode_refused hnot, fun scratch _ => ?_⟩
    obtain ⟨f, hrefused, hclass⟩ := @block_refused s host hnot scratch
    rw [hrefused]
    exact Or.inl hclass

-- ================================================================= runs

/-- One assignment has been ruled out, by a clause that it alone fails, and
until the next invocation nothing is decoded or blocked. -/
structure RuledOut (own : List BlockId) (list : List Int)
    (old : List (List Int)) (p : Placed (Session TableEngine))
    (scratch : Option BlockId) (buffer : BlockId)
    (q : Placed (Session TableEngine)) : Prop where
  clauses : closedClauses q = .ok (old ++ [list.map (- ·)])
    ⟨q.object.engine, q.host⟩
  model : list ∈ models p.object.engine.varCount old
  models : models p.object.engine.varCount (old ++ [list.map (- ·)])
    = (models p.object.engine.varCount old).erase list
  vars : q.object.engine.varCount = p.object.engine.varCount
  buffer : Inscribed list p.host scratch buffer q.host
  granted : Granted scratch p q
  later : p.object.engine.varCount ≠ 0 → ∀ calls : List SessionCall,
    (∀ call ∈ calls, call.Proper own ∧ ∀ budget, call ≠ .invoke budget) →
    let r := afterTurns SessionCall.perform calls q
    Declines r
      ∧ ∀ host, Host.Carries own r.host host → Declines ⟨r.object, host⟩

/-- After any calls of a session: what still holds is ruled out and nothing
else, whatever buffer is handed in, or memory runs out and the clauses are
what they were. -/
theorem rules_out_one (hp : host.Plain) (ht : host.TakesBack)
    {search : Search} (hsound : search.Sound) {config : Config} {v : Value}
    {host' : Host}
    (hmade : create (TableEngine.create search) config v host
      = .ok s host')
    (calls : List SessionCall)
    (hproper : ∀ call ∈ calls, call.Proper s.engine.tables) :
    let done := turns SessionCall.perform calls ⟨s, host'⟩
    let p := afterTurns SessionCall.perform calls ⟨s, host'⟩
    StillHolds done → .destroy ∉ calls →
    (readout ⟨p.object.engine, p.host⟩).pending = .ok [] →
    (p.object.engine.varCount : Int) ≤ Word.literalMax →
    ∀ host₁, Host.Carries s.engine.tables p.host host₁ →
    ∀ scratch : Option BlockId,
      (∀ b ∈ scratch, b < host₁.heap.blocks.size ∧ b ∉ s.engine.tables) →
      let start : Placed (Session TableEngine) := ⟨p.object, host₁⟩
      ∃ list old, decode start = .ok (list.map Value.int) start
        ∧ closedClauses start = .ok old ⟨p.object.engine, host₁⟩
        ∧ Ends (RuledOut s.engine.tables list old start scratch)
          (fun f q => host₁.RanOut f q.host
            ∧ closedClauses q = .ok old ⟨q.object.engine, q.host⟩)
          (block scratch start) := by
  intro done p hstill hlasting hpending hfits host₁ hcarries scratch
    hscratch start
  have hend : Told s.engine.tables done p :=
    told_of_created hp ht hsound hmade calls hproper
  cases hend with
  | gone hdestroyed hended =>
      rw [show done.map Turn.call = calls from map_call_turns ..] at hended
      exact absurd hended hlasting
  | live shown d limit hbefore hintact haccords _ =>
      obtain ⟨n, rfl⟩ :=
        Option.isSome_iff_exists.mp (haccords.flag.mpr hstill)
      have hlast := haccords.word.mpr hstill.lastFound
      have habreast := hbefore.carried hcarries
      obtain ⟨a, hshowing, hsat⟩ :=
        showing_satisfies habreast hintact hlast
      -- what is pending can be read off the store, so nothing is open
      have hopened : d.opened = [] :=
        Except.ok.inj (hbefore.keeps.reads.2.symm.trans hpending)
      have hkeeps : Keeps { closed := d.closed } p.object.engine
          host₁.heap := by
        rw [← hopened]
        exact habreast.keeps
      have htables : p.object.engine.tables = s.engine.tables :=
        habreast.tables
      have hexact := block_exact habreast.plain hshowing hkeeps hfits
        (htables ▸ hscratch)
      have hserving := block_serving (p := start) ⟨rfl, habreast⟩
        fun b hb => (hscratch b hb).2
      have htotal := total_signedList a p.object.engine.varCount
      refine ⟨signedList a p.object.engine.varCount, d.closed,
        decode_eq hshowing, habreast.keeps.clauses_eq, ?_⟩
      -- one account of the block gives the exact clause, the other one that
      -- the session serves on
      refine (hexact.and hserving).imp ?_ ?_
      · rintro buffer q ⟨hexcluded, -, clause, hserves⟩
        have hclosed : d.closed ++ [clause] = _ :=
          (EStateM.Result.ok.inj (hserves.abreast.keeps.clauses_eq.symm.trans
            hexcluded.keeps.clauses_eq)).1
        have hclause := List.singleton_inj.mp
          (List.append_cancel_left hclosed)
        refine ⟨hexcluded.keeps.clauses_eq, mem_models.mpr ⟨htotal, hsat⟩,
          models_append_opposite htotal d.closed, hexcluded.vars,
          hexcluded.buffer, hexcluded.granted, ?_⟩
        intro hvars later hlater r
        -- the new clause is not empty, so it has taken the assignment away
        have hspent : Spent s.engine.tables q := by
          refine Or.inr ⟨?_, _, limit, ⟨clause, by simp, ?_⟩,
            hserves.abreast⟩
          · rw [hserves.object]
            exact hintact
          · rw [hclause]
            intro hempty
            have hlength := congrArg List.length hempty
            rw [List.length_map, length_signedList] at hlength
            exact hvars hlength
        have hr : Spent s.engine.tables r := hspent.turns later hlater
        exact ⟨hr.declines, fun _ hthere => (hr.carried hthere).declines⟩
      · rintro f q ⟨hout, opened, hserves⟩
        exact ⟨hout, hserves.abreast.keeps.clauses_eq⟩

/-- A clause of one literal, and a buffer that is one byte too short: it
grows, holds the polarity, and no model is left. -/
theorem rules_out_one_short_buffer :
    Ends
      (fun s host' =>
        let p := afterTurns SessionCall.perform [.invoke (-1)] ⟨s, host'⟩
        let start : Placed (Session TableEngine) :=
          ⟨p.object, p.host.given 1⟩
        Ends
          (fun buffer q => buffer = 2 ∧ q.host.heap.size 2 = 2
            ∧ q.host.heap.byte? 2 1 = some 1
            ∧ closedClauses q = .ok [[1], [-1]] ⟨q.object.engine, q.host⟩
            ∧ models 1 [[1], [-1]] = [] ∧ Declines q)
          never (block (some 2) start))
      never
      (create (TableEngine.create Learning.search) {}
        (.seq .list [.seq .tuple [.int 1]]) .boundless) := by
  have hg := Host.generous_boundless
  generalize hmade : create (TableEngine.create Learning.search) {}
    (.seq .list [.seq .tuple [.int 1]]) .boundless = made
  have hrun : Ends
      (fun s host' =>
        let p := afterTurns SessionCall.perform [.invoke (-1)] ⟨s, host'⟩
        let start : Placed (Session TableEngine) :=
          ⟨p.object, p.host.given 1⟩
        s.engine.tables = [0, 1]
          ∧ Ends (fun outcome _ => outcome = .satisfiable)
              (fun _ _ => False) (invoke (.int (-1)) ⟨s, host'⟩)
          ∧ (readout ⟨p.object.engine, p.host⟩).pending.toOption = some []
          ∧ p.object.engine.varCount = 1
          ∧ p.host.heap.blocks.size = 2
          ∧ (p.host.given 1).heap.size 2 = 1
          ∧ Ends (fun closed _ => closed = [[1]]) (fun _ _ => False)
              (closedClauses start)
          ∧ Ends (fun _ _ => True) (fun _ _ => False)
              (block (some 2) start))
      (fun _ _ => False) made := by
    rw [← hmade]
    decide +kernel
  cases made with
  | error f host' => exact hrun
  | ok s host' =>
      obtain ⟨htables, hinvoke, hpending, hone, htwo, hshort, hold,
        hblocks⟩ := hrun
      have htold := told_of_created hg.plain hg.takesBack
        Learning.search_sound hmade [.invoke (-1)]
        (by simp [SessionCall.Proper])
      have hstill : StillHolds
          (turns SessionCall.perform [.invoke (-1)] ⟨s, host'⟩) :=
        ⟨_, [], [], rfl, finds_take hinvoke, by simp⟩
      have hrules := rules_out_one hg.plain hg.takesBack
        Learning.search_sound hmade [.invoke (-1)]
        (by simp [SessionCall.Proper]) hstill (by simp)
      rw [ends_ok]
      generalize afterTurns SessionCall.perform [.invoke (-1)] ⟨s, host'⟩
        = p at htold hrules hpending hone htwo hshort hold hblocks ⊢
      have hthree : (p.host.given 1).heap.blocks.size = 3 := by
        rw [Host.given, Heap.handed_granted, htwo]
      obtain ⟨hplain, htakes⟩ : p.host.Plain ∧ p.host.TakesBack := by
        cases htold with
        | live _ _ _ habreast _ _ _ =>
            exact ⟨habreast.plain, habreast.takesBack⟩
        | gone _ hended =>
            rw [map_call_turns] at hended
            simp at hended
      have hcarries : Host.Carries s.engine.tables p.host
          (p.host.given 1) := by
        refine ⟨⟨hplain.1, hplain.2, hplain.3⟩, htakes, fun b hb => ?_⟩
        have hne : b ≠ p.host.heap.blocks.size := by
          rw [htwo]
          rintro rfl
          simp [htables] at hb
        show (p.host.heap.granted 1).contents b = _
        rw [Heap.contents_granted, if_neg hne]
      have hnothing : (readout ⟨p.object.engine, p.host⟩).pending
          = .ok [] := by
        cases hread : (readout ⟨p.object.engine, p.host⟩).pending with
        | error f =>
            rw [hread] at hpending
            cases hpending
        | ok words =>
            rw [hread] at hpending
            rw [Option.some.inj hpending]
      obtain ⟨list, old, -, hclosed, hends⟩ := hrules hnothing
        (by rw [hone]; decide) (p.host.given 1) hcarries (some 2) (by
          intro b hb
          obtain rfl := Option.mem_some.mp hb
          exact ⟨by rw [hthree]; decide, by simp [htables]⟩)
      rw [hclosed] at hold
      obtain rfl : old = [[1]] := hold
      refine (hends.and hblocks).imp ?_ fun _ _ h => h.2
      rintro buffer q ⟨hout, -⟩
      obtain rfl : list = [1] := by
        have hmodel := hout.model
        have hmodels : models 1 [[1]] = [[1]] := by decide
        rw [show p.object.engine.varCount = 1 from hone, hmodels] at hmodel
        exact List.mem_singleton.mp hmodel
      obtain rfl : buffer = 2 := hout.buffer.handed 2 rfl
      have hsize := hout.buffer.size
      rw [show (p.host.given 1).heap.lengthOf (some 2) = 1 from hshort]
        at hsize
      exact ⟨rfl, hsize, hout.buffer.notes 0 1 rfl, hout.clauses, by decide,
        (hout.later (by simp [hone]) [] (by simp)).1⟩

end Session

end SatSession
