/-
Ruling the assignment shown out.

A session that shows an assignment blocks it by the clause of all opposite
entries (`block_ends`). The polarities go through a buffer: they are noted
there first, and the literals are made of the notes, so that what the
engine shows may change on the way. The buffer is handed in or taken; the
clause then either is there, or some request was denied on the way.

Of the blocks of memory `Host.Holding` keeps the account. What it shows of
a failure is that a buffer taken before it is not given back: `lost` in
`NotBlocked` is the list of blocks that nobody knows of any more, and it
has one block just if a buffer was taken.
-/
import SatSession.Proofs.Sessions.Asking

namespace SatSession.Session

open TableEngine

variable {s : Session TableEngine} {host base : Host} {a : Assignment}
  {clauses : List (List Int)} {n : Nat} {buffer : BlockId}
  {scratch : Option BlockId}

-- ========================================================== the buffer

/-- A buffer with a byte for each variable, apart from the tables. -/
structure Buffered (n : Nat) (s : Session TableEngine) (base host : Host)
    (scratch : Option BlockId) (buffer : BlockId)
    (p : Placed (Session TableEngine)) : Prop where
  object : p.object = s
  kept : ∀ b ∈ scratch, buffer = b
  size : p.host.heap.size buffer = n + 1
  apart : buffer ∉ s.engine.tables
  same : ∀ b ∈ s.engine.tables,
    p.host.heap.contents b = host.heap.contents b
  rules : Host.SameRules host p.host
  answers : p.host.answers = host.answers
  holding : Host.Holding (s.engine.tables ++ [buffer]) base p.host
  handed : p.host.heap.blocks.size
    = host.heap.blocks.size + if scratch = none then 1 else 0

/-- No buffer was taken. -/
structure NotBuffered (s : Session TableEngine) (host : Host)
    (scratch : Option BlockId) (_ : Fault)
    (p : Placed (Session TableEngine)) : Prop where
  rest : p = ⟨s, host.asked⟩
  denied : ∃ delta size, host.denies delta size = true

/-- A buffer that is not handed in is taken, and one that is too short is
made longer; either fails only if the host denies it. -/
theorem scratchFor_eq (hp : host.Plain) (scratch : Option BlockId)
    (n : Nat) :
    scratchFor scratch (.int (n + 1)) ⟨s, host⟩
      = match scratch with
        | none =>
            if host.denies ((n + 1 : Nat) : Int) (n + 1 : Nat) then
              .error (.outOfMemory .blockingBuffer) ⟨s, host.asked⟩
            else .ok host.heap.blocks.size ⟨s, host.given (n + 1)⟩
        | some b =>
            if n < host.heap.size b then .ok b ⟨s, host⟩
            else if host.denies ((n + 1 : Nat) - host.heap.size b)
                (n + 1 : Nat) then
              .error (.outOfMemory .blockingBuffer) ⟨s, host.asked⟩
            else .ok b ⟨s, { host.asked with
              heap := host.heap.resized b (n + 1) }⟩ := by
  cases scratch with
  | none =>
      have hask := Host.alloc_eq hp (n + 1)
      unfold scratchFor
      dsimp only
      split at hask
      next hdeny =>
        rw [if_pos hdeny]
        exact (bind_of_ok (Op.onHost_ok hask)).trans rfl
      next hgrant =>
        rw [if_neg hgrant]
        exact (bind_of_ok (Op.onHost_ok hask)).trans rfl
  | some b =>
      have hask := Host.realloc_eq hp
        (rfl : host.heap.size b = host.heap.size b) (n + 1)
      unfold scratchFor
      dsimp only
      rw [get_bind_apply]
      by_cases hroom : n < host.heap.size b
      · have hlong : decide ((host.heap.size b : Int) < n + 1) = false :=
          decide_eq_false (by omega)
        simp only [Value.lt_int, hlong, settle_ok, pure_bind,
          Bool.false_eq_true, if_false, if_pos hroom]
        rfl
      · have hshort : decide ((host.heap.size b : Int) < n + 1) = true :=
          decide_eq_true (by omega)
        simp only [Value.lt_int, hshort, settle_ok, pure_bind, if_true,
          if_neg hroom]
        split at hask
        next hdeny =>
          rw [if_pos hdeny]
          exact (bind_of_ok (Op.onHost_ok hask)).trans rfl
        next hgrant =>
          rw [if_neg hgrant]
          exact (bind_of_ok (Op.onHost_ok hask)).trans rfl

/-- A buffer of the right size is used as it is; one that is not handed in
is taken, unless that is denied. -/
theorem scratchFor_ends (hp : host.Plain)
    (hholding : Host.Holding (s.engine.tables ++ scratch.toList) base host)
    (hsize : ∀ b ∈ scratch, host.heap.size b = n + 1) :
    Ends (Buffered n s base host scratch) (NotBuffered s host scratch)
      (scratchFor scratch (.int (n + 1)) ⟨s, host⟩) := by
  rw [scratchFor_eq hp]
  cases scratch with
  | some b =>
      have hb : host.heap.size b = n + 1 := hsize b rfl
      have hapart : b ∉ s.engine.tables := fun hmem =>
        (List.nodup_append.mp hholding.apart).2.2 b hmem b (by simp) rfl
      dsimp only
      rw [if_pos (by omega)]
      refine ⟨rfl, ?_, hb, hapart, fun _ _ => rfl, .refl host, rfl,
        hholding, rfl⟩
      intro c hc
      exact Option.mem_some.mp hc
  | none =>
      dsimp only
      split
      next hdeny => exact ⟨rfl, _, _, hdeny⟩
      next hgrant =>
        have hown : ∀ b ∈ s.engine.tables, b ≠ host.heap.blocks.size :=
          fun b hb => Nat.ne_of_lt (hholding.exist b (by simp [hb]))
        refine ⟨rfl, by simp, ?_, fun hmem => hown _ hmem rfl, ?_,
          ⟨rfl, rfl, rfl, rfl, rfl⟩, rfl, ?_, Heap.handed_granted ..⟩
        · show (host.heap.granted (n + 1)).size _ = _
          rw [Heap.size_granted, if_pos rfl]
        · intro b hb
          show (host.heap.granted (n + 1)).contents b = _
          rw [Heap.contents_granted, if_neg (hown b hb)]
        · have hgranted := hholding.granted (Bool.eq_false_iff.mpr hgrant)
          simpa using hgranted

-- ============================================================= notes

/-- The polarities below a number have been noted in the buffer. -/
structure Noted (a : Assignment) (buffer : BlockId)
    (s : Session TableEngine) (host : Host) (i : Nat)
    (p : Placed (Session TableEngine)) : Prop where
  object : p.object = s
  rest : p.host = { host with heap := p.host.heap }
  shown : ShownBelow a buffer host i p.host.heap

/-- Noting polarities stays within the scratch block. -/
theorem Noted.within {i : Nat} {p : Placed (Session TableEngine)}
    (h : Noted a buffer s host i p) : Host.Within [buffer] host p.host := by
  rw [h.rest]
  exact h.shown.within

/-- The session shows its assignment as long as its tables are what they
were. -/
theorem Showing.of_contents (h : Showing a s host) {host' : Host}
    (hsame : ∀ b ∈ s.engine.tables,
      host'.heap.contents b = host.heap.contents b) : Showing a s host' :=
  { h with
    shows := h.shows.of_contents
      (hsame s.engine.values (by simp [tables])) }

/-- Noting the polarity of one more variable. -/
theorem notePolarity_ends (h : Showing a s host)
    (hapart : buffer ∉ s.engine.tables)
    (hlong : s.engine.varCount < host.heap.size buffer) {i : Nat}
    (h1 : 1 ≤ i) (hi : i ≤ s.engine.varCount)
    {p : Placed (Session TableEngine)} (hp : Noted a buffer s host i p) :
    Ends (fun _ p => Noted a buffer s host (i + 1) p) never
      (notePolarity buffer i p) := by
  obtain ⟨s', host'⟩ := p
  obtain rfl : s' = s := hp.object
  have hshown := hp.shown
  have hshowing : Showing a s' host' := h.of_contents fun b hb =>
    hp.within.others b fun hmem =>
      hapart (by rwa [List.mem_singleton.mp hmem] at hb)
  have hroom : i < host'.heap.size buffer := by
    rw [hshown.size]
    omega
  have hpositive : decide ((0 : Int) < if a i then 1 else -1) = a i := by
    cases a i <;> rfl
  have hpoke : Op.onHost (Host.onHeap
      (Heap.poke buffer i (if a i then 1 else 0))) ⟨s', host'⟩
      = .ok () ⟨s', { host' with
          heap := host'.heap.poked buffer i (if a i then 1 else 0) }⟩ :=
    Op.onHost_ok (Host.onHeap_ok (Heap.poke_eq _ hroom))
  unfold notePolarity
  rw [bind_of_ok (polarity_eq hshowing h1 hi), Value.lt_int, settle_ok,
    pure_bind, hpositive, hpoke]
  have hrest : host' = { host with heap := host'.heap } := hp.rest
  refine ⟨rfl, ?_, hshown.poked h1 hroom⟩
  exact congrArg (fun h : Host =>
    { h with heap := host'.heap.poked buffer i (if a i then 1 else 0) })
    hrest

/-- Noting all polarities. -/
theorem notePolarities_ends (h : Showing a s host)
    (hapart : buffer ∉ s.engine.tables)
    (hlong : s.engine.varCount < host.heap.size buffer) :
    Ends (fun _ p => Noted a buffer s host (1 + s.engine.varCount) p) never
      (Op.each (notePolarity buffer) s.engine.varCount 1 ⟨s, host⟩) := by
  refine ends_each (Noted a buffer s host) s.engine.varCount 1 ⟨s, host⟩
    ⟨rfl, rfl, shownBelow_one ..⟩ ?_
  intro i p h1 hlt hp
  exact notePolarity_ends h hapart hlong h1 (by omega) hp

-- ========================================================== the clause

/-- The opposite entries below a number are in the open clause. -/
structure Opposed (a : Assignment) (clauses : List (List Int))
    (s : Session TableEngine) (host : Host) (i : Nat)
    (p : Placed (Session TableEngine)) : Prop where
  object : p.object = { s with engine := p.object.engine }
  keeps : Keeps
    { closed := clauses, opened := (signedList a (i - 1)).map (- ·) }
    p.object.engine p.host.heap
  onward : Onward s.engine host ⟨p.object.engine, p.host⟩
  vars : p.object.engine.varCount = s.engine.varCount

/-- The clause has been given up, on a generous host only because the
engine has too many variables. -/
structure Unopposed (s : Session TableEngine) (host : Host) (f : Fault)
    (p : Placed (Session TableEngine)) : Prop where
  object : p.object = { s with engine := p.object.engine }
  spoiled : Spoiled ((s.engine.varCount : Int) ≤ Word.literalMax) s.engine
    host f ⟨p.object.engine, p.host⟩

/-- Adding the opposite of one more entry. -/
theorem addOpposite_ends (hplain : host.Plain)
    (hapart : buffer ∉ s.engine.tables)
    (hnotes : ∀ i, 1 ≤ i → i ≤ s.engine.varCount →
      host.heap.byte? buffer i = some (if a i then 1 else 0))
    {i : Nat} (h1 : 1 ≤ i) (hi : i ≤ s.engine.varCount)
    {p : Placed (Session TableEngine)} (hp : Opposed a clauses s host i p) :
    Ends (fun _ p => Opposed a clauses s host (i + 1) p) (Unopposed s host)
      (addOpposite buffer i p) := by
  obtain ⟨s', host'⟩ := p
  have hon := hp.onward
  have hnote : host'.heap.byte? buffer i = some (if a i then 1 else 0) := by
    rw [Heap.byte?, hon.within.others buffer hapart]
    exact hnotes i h1 hi
  have hliteral : (if (if a i then (1 : UInt8) else 0) ≠ 0 then -(i : Int)
      else i) = -(signed a i) := by
    unfold signed
    cases a i <;> simp
  have hmagnitude : (-(signed a i)).natAbs = i := by
    unfold signed
    cases a i <;> simp
  have hnonzero : -(signed a i) ≠ 0 := by omega
  unfold addOpposite
  rw [get_bind_apply]
  simp only [hnote, hliteral]
  rw [onEngine, Op.ends_within]
  refine (addLiteral_ends (hplain.of_sameRules hon.within.rules)
    hp.keeps.seated hnonzero).imp ?_ ?_
  · intro _ q hq
    have hkeeps := hp.keeps.added hnonzero hq
    have hentry : signedList a i
        = signedList a (i - 1) ++ [signed a i] := by
      obtain ⟨k, rfl⟩ := Nat.exists_eq_add_of_le' h1
      exact signedList_succ
    refine ⟨?_, ?_, hon.trans hq.onward, ?_⟩
    · rw [hp.object]
    · rw [Nat.add_sub_cancel, hentry, List.map_append]
      exact hkeeps
    · show q.object.varCount = _
      rw [hq.varCount, hp.vars, hmagnitude]
      exact Nat.max_eq_left hi
  · intro f q hq
    refine ⟨by rw [hp.object], ?_⟩
    refine (hq.spoiled hp.keeps fun hfits => ?_).after hon.toMoved id
    rw [hmagnitude]
    omega

/-- Adding all opposite entries and closing the clause. -/
theorem addOpposites_ends (hplain : host.Plain)
    (hk : Keeps { closed := clauses } s.engine host.heap)
    (hapart : buffer ∉ s.engine.tables)
    (hnotes : ∀ i, 1 ≤ i → i ≤ s.engine.varCount →
      host.heap.byte? buffer i = some (if a i then 1 else 0)) :
    Ends (fun _ p => p.object = { s with engine := p.object.engine }
          ∧ Keeps { closed := clauses
              ++ [(signedList a s.engine.varCount).map (- ·)] }
            p.object.engine p.host.heap
          ∧ Onward s.engine host ⟨p.object.engine, p.host⟩
          ∧ p.object.engine.varCount = s.engine.varCount)
      (Unopposed s host)
      ((do
        Op.each (addOpposite buffer) s.engine.varCount 1
        onEngine Engine.terminateClause : Op (Session TableEngine) Unit)
        ⟨s, host⟩) := by
  have hstart : Opposed a clauses s host 1 ⟨s, host⟩ :=
    ⟨rfl, by simpa [signedList] using hk, .refl .., rfl⟩
  rw [ends_bind]
  refine (ends_each (Opposed a clauses s host) s.engine.varCount 1 ⟨s, host⟩
    hstart fun i p h1 hlt hp =>
      addOpposite_ends hplain hapart hnotes h1 (by omega) hp).imp ?_
    fun _ _ h => h
  intro _ p hp
  obtain ⟨s', host'⟩ := p
  have hon := hp.onward
  rw [onEngine, Op.ends_within]
  refine (terminateClause_ends (hplain.of_sameRules hon.within.rules)
    hp.keeps).imp ?_ ?_
  · intro _ q hq
    have hkeeps := hp.keeps.closed hq
    rw [Nat.add_sub_cancel_left] at hkeeps
    refine ⟨by rw [hp.object], hkeeps, hon.trans hq.onward, ?_⟩
    show q.object.varCount = _
    rw [hq.varCount, hp.vars]
  · intro f q hq
    refine ⟨by rw [hp.object], ?_⟩
    exact (hq.spoiled hp.keeps.seated _).after hon.toMoved id

-- ============================================================ blocking

/-- A session at work: its engine keeps some clauses over `n` variables,
on a host that takes back what it is given. -/
structure Live (search : Search) (limit : Int) (n : Nat)
    (clauses : List (List Int)) (s : Session TableEngine) (host : Host) :
    Prop where
  plain : host.Plain
  takesBack : host.TakesBack
  keeps : Keeps { closed := clauses } s.engine host.heap
  search : s.engine.search = search
  settings : ∃ verbosity, Settings s.engine verbosity limit
  vars : s.engine.varCount = n
  fitted : Fitted s.engine
  intact : s.destroyed = false

/-- The assignment has been ruled out. -/
structure Blocked (search : Search) (limit : Int) (n : Nat)
    (a : Assignment) (clauses : List (List Int)) (s : Session TableEngine)
    (base host : Host) (buffer : BlockId)
    (p : Placed (Session TableEngine)) : Prop where
  live : Live search limit n (clauses ++ [(signedList a n).map (- ·)])
    p.object p.host
  tables : p.object.engine.tables = s.engine.tables
  size : p.host.heap.size buffer = n + 1
  holding : Host.Holding (s.engine.tables ++ [buffer]) base p.host
  answers : p.host.answers = host.answers

/-- Blocks of a buffer's size that were taken and that nobody knows of. -/
structure Lost (n : Nat) (host host' : Host) (lost : List BlockId) :
    Prop where
  few : lost.length ≤ 1
  sizes : ∀ b ∈ lost, host'.heap.size b = n + 1
  handed : host'.heap.blocks.size = host.heap.blocks.size + lost.length

/-- The assignment has not been ruled out, and a buffer may be lost. -/
structure NotBlocked (n : Nat) (s : Session TableEngine)
    (base host : Host) (scratch : Option BlockId) (_ : Fault)
    (p : Placed (Session TableEngine)) : Prop where
  object : p.object = { s with engine := p.object.engine }
  seated : Seated p.object.engine p.host.heap
  tables : p.object.engine.tables = s.engine.tables
  rules : Host.SameRules host p.host
  answers : p.host.answers = host.answers
  unfit : host.Generous → ¬ (n : Int) ≤ Word.literalMax
  lost : ∃ lost, Lost n host p.host lost
    ∧ Host.Holding (s.engine.tables ++ scratch.toList ++ lost) base p.host

/-- What is lost if the clause is given up once there is a buffer: the
buffer, if it was not handed in. -/
theorem Buffered.lost {p : Placed (Session TableEngine)} {host' : Host}
    (h : Buffered n s base host scratch buffer p)
    (hw : Host.Within (s.engine.tables ++ [buffer]) p.host host')
    (hsize : host'.heap.size buffer = p.host.heap.size buffer) :
    ∃ lost, Lost n host host' lost
      ∧ Host.Holding (s.engine.tables ++ scratch.toList ++ lost) base
        host' := by
  have hholding := h.holding.within hw
  have hhanded := h.handed
  rw [← hw.handed] at hhanded
  cases scratch with
  | none =>
      refine ⟨[buffer], ⟨Nat.le_refl 1, ?_, hhanded⟩, by simpa using hholding⟩
      intro b hb
      rw [List.mem_singleton.mp hb, hsize]
      exact h.size
  | some b =>
      have hb : buffer = b := h.kept b rfl
      refine ⟨[], ⟨Nat.zero_le 1, by simp, hhanded⟩, ?_⟩
      rw [List.append_nil, ← hb]
      exact hholding

/-- Noting polarities and then working on the tables is work on both. -/
theorem Noted.account {i : Nat} {p : Placed (Session TableEngine)}
    {host' : Host} (h : Noted a buffer s host i p)
    (hapart : buffer ∉ s.engine.tables)
    (hw : Host.Within s.engine.tables p.host host') :
    Host.Within (s.engine.tables ++ [buffer]) host host'
      ∧ host'.heap.size buffer = host.heap.size buffer := by
  have hnotes := h.within.widen s.engine.tables []
    (fun b hb hmem => hapart (by rwa [List.mem_singleton.mp hmem] at hb))
    (by simp)
  have htables := hw.widen [] [buffer] (by simp) (by simpa using hapart)
  rw [List.append_nil] at hnotes
  rw [List.nil_append] at htables
  exact ⟨hnotes.trans htables, (hw.size_eq hapart).trans h.shown.size⟩

/-- Without a buffer nothing is lost. -/
theorem NotBuffered.notBlocked {f : Fault}
    {p : Placed (Session TableEngine)} (hs : Seated s.engine host.heap)
    (hholding : Host.Holding (s.engine.tables ++ scratch.toList) base host)
    (h : NotBuffered s host scratch f p) :
    NotBlocked n s base host scratch f p := by
  obtain ⟨delta, size, hdeny⟩ := h.denied
  rw [h.rest]
  refine ⟨rfl, hs, rfl, ⟨rfl, rfl, rfl, rfl, rfl⟩, rfl,
    fun hg => absurd hg (not_generous_of_denies hdeny), [],
    ⟨Nat.zero_le 1, by simp, rfl⟩, ?_⟩
  rw [List.append_nil]
  exact hholding.within (Host.within_asked _ hdeny)

/-- With a buffer, what is lost is the buffer or nothing. -/
theorem Unopposed.notBlocked {i : Nat} {f : Fault}
    {p q r : Placed (Session TableEngine)}
    (hvars : s.engine.varCount = n)
    (hbuffered : Buffered n s base host scratch buffer q)
    (hnoted : Noted a buffer s q.host i r)
    (h : Unopposed s r.host f p) :
    NotBlocked n s base host scratch f p := by
  have hmoved := h.spoiled.moved
  obtain ⟨hw, hkept⟩ := hnoted.account hbuffered.apart hmoved.within
  have hnotes := hbuffered.rules.trans hnoted.within.rules
  refine ⟨h.object, h.spoiled.seated, hmoved.tables,
    hbuffered.rules.trans hw.rules, hw.answers.trans hbuffered.answers,
    ?_, hbuffered.lost hw hkept⟩
  intro hg
  have hunfit := h.spoiled.unfit (hg.of_sameRules hnotes)
  rwa [hvars] at hunfit

/-- The assignment shown is ruled out, or it is not and a buffer may be
lost. -/
theorem block_ends {search : Search} {limit : Int}
    (hlive : Live search limit n clauses s host) (h : Showing a s host)
    (hholding : Host.Holding (s.engine.tables ++ scratch.toList) base host)
    (hsize : ∀ b ∈ scratch, host.heap.size b = n + 1) :
    Ends (Blocked search limit n a clauses s base host)
      (NotBlocked n s base host scratch) (block scratch ⟨s, host⟩) := by
  obtain rfl := hlive.vars
  rw [block_of_ready h.intact h.last, ends_bind]
  refine (scratchFor_ends hlive.plain hholding hsize).imp ?_ ?_
  · intro buffer p hbuffered
    obtain ⟨s₁, host₁⟩ := p
    obtain rfl : s₁ = s := hbuffered.object
    have hplain₁ := hlive.plain.of_sameRules hbuffered.rules
    rw [ends_bind]
    have hlong : s₁.engine.varCount < host₁.heap.size buffer :=
      Nat.lt_of_lt_of_eq (Nat.lt_succ_self _) hbuffered.size.symm
    -- first all polarities are noted, then all literals are read back
    refine (notePolarities_ends (h.of_contents hbuffered.same)
      hbuffered.apart hlong).imp_ok ?_
    intro _ p hnoted
    obtain ⟨s₂, host₂⟩ := p
    obtain rfl : s₂ = s₁ := hnoted.object
    have hplain₂ := hplain₁.of_sameRules hnoted.within.rules
    have hkeeps₂ := (hlive.keeps.of_contents hbuffered.same).of_contents
      fun b hb => hnoted.within.others b fun hmem =>
        hbuffered.apart (by rwa [List.mem_singleton.mp hmem] at hb)
    have hclause := addOpposites_ends hplain₂ hkeeps₂ hbuffered.apart
      fun i h1 hi => hnoted.shown.bytes i h1 (by omega)
    rw [ends_bind] at hclause ⊢
    refine hclause.imp ?_ ?_
    · intro _ p hp
      rw [ends_bind]
      refine hp.imp ?_ ?_
      · intro _ p hpost
        obtain ⟨hobject, hkeeps, hon, hvars⟩ := hpost
        obtain ⟨hw, hkept⟩ := hnoted.account hbuffered.apart hon.within
        have hrules := hbuffered.rules.trans hw.rules
        obtain ⟨verbosity, hset⟩ := hlive.settings
        refine ⟨⟨hlive.plain.of_sameRules hrules,
            hlive.takesBack.of_sameRules hrules, hkeeps,
            hon.search.trans hlive.search, ⟨verbosity, hon.settings hset⟩,
            hvars, hon.fitted hlive.fitted, ?_⟩,
          hon.tables, hkept.trans hbuffered.size,
          hbuffered.holding.within hw, hw.answers.trans hbuffered.answers⟩
        rw [hobject]
        exact hlive.intact
      · intro f p hp
        exact hp.notBlocked rfl hbuffered hnoted
    · intro f p hp
      exact hp.notBlocked rfl hbuffered hnoted
  · intro f p hp
    exact hp.notBlocked hlive.keeps.seated hholding

end SatSession.Session
