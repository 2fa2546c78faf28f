/-
What an owner of blocks leaves alone.

`Host.Within own` relates a host to what it is after an operation that
works on the blocks `own` alone: every other block has the contents that
it had, no block was handed out or taken back, and the books changed by as
much as the owned blocks did. The relation composes, and an operation on
few blocks is one on more.

It also says that nothing was given back, and of the log that no answer
of a session was added, so that whoever counts the one or the other need
not look into the engine.

`Host.Holding own base` is the account of an owner over its whole life:
since `base` it has taken the blocks `own`, the books are up by what they
hold, and everything that was there before is as it was. Blocks join the
account when they are granted and leave it when they are given back; a
block that nobody gives back stays in it.
-/
import SatSession.Proofs.Memory.Course

namespace SatSession

-- ============================================================ the books

/-- The bytes of some blocks. -/
def Heap.held (h : Heap) : List BlockId → Int
  | [] => 0
  | b :: own => h.size b + h.held own

@[simp] theorem Heap.held_nil (h : Heap) : h.held [] = 0 := rfl

@[simp] theorem Heap.held_cons (h : Heap) (b : BlockId) (own : List BlockId) :
    h.held (b :: own) = h.size b + h.held own := rfl

/-- What is held in two lots adds up. -/
theorem Heap.held_append (h : Heap) (own more : List BlockId) :
    h.held (own ++ more) = h.held own + h.held more := by
  induction own with
  | nil => simp
  | cons b own ih =>
      rw [List.cons_append, held_cons, ih, held_cons, Int.add_assoc]

/-- Blocks that kept their sizes hold what they held. -/
theorem Heap.held_congr {h h' : Heap} {own : List BlockId}
    (hsize : ∀ b ∈ own, h'.size b = h.size b) :
    h'.held own = h.held own := by
  induction own with
  | nil => rfl
  | cons b own ih =>
      have hrest := ih fun b' hb' => hsize b' (List.mem_cons_of_mem b hb')
      rw [held_cons, held_cons, hsize b List.mem_cons_self, hrest]

/-- What a session answered, if a log entry tells that. -/
def LogEntry.answer? : LogEntry → Option Outcome
  | .invocation _ outcome => some outcome
  | _ => none

namespace Host

/-- All that sessions on a host have answered, the last answer last. -/
def answers (host : Host) : List Outcome :=
  host.log.toList.filterMap LogEntry.answer?

-- ============================================================ the rules

/-- Hosts that decide requests by the same rules. -/
structure SameRules (host host' : Host) : Prop where
  plan : host'.plan = host.plan
  limit : host'.heap.limit = host.heap.limit
  oddLimit : host'.heap.oddLimit = host.heap.oddLimit
  supply : host'.heap.supply = host.heap.supply
  countKind : host'.heap.inUseKind = host.heap.inUseKind

variable {host host' host'' : Host}

theorem SameRules.refl (host : Host) : SameRules host host :=
  ⟨rfl, rfl, rfl, rfl, rfl⟩

/-- Rules that never change are the same throughout. -/
theorem SameRules.trans (h : SameRules host host')
    (h' : SameRules host' host'') : SameRules host host'' :=
  ⟨h'.1.trans h.1, h'.2.trans h.2, h'.3.trans h.3, h'.4.trans h.4,
    h'.5.trans h.5⟩

/-- A plain host is one under the same rules. -/
theorem Plain.of_sameRules (hp : host.Plain) (h : SameRules host host') :
    host'.Plain :=
  ⟨by rw [h.plan]; exact hp.1, by rw [h.oddLimit]; exact hp.2,
    by rw [h.countKind]; exact hp.3⟩

/-- So is one that takes back. -/
theorem TakesBack.of_sameRules (ht : host.TakesBack)
    (h : SameRules host host') : host'.TakesBack := fun k => by
  rw [h.plan]
  exact ht k

/-- So is a generous one. -/
theorem Generous.of_sameRules (hg : host.Generous) (h : SameRules host host') :
    host'.Generous :=
  ⟨hg.plain.of_sameRules h, hg.takesBack.of_sameRules h,
    fun k => by rw [h.plan]; exact hg.unplanned k,
    by rw [h.limit]; exact hg.unlimited, by rw [h.supply]; exact hg.supplied⟩

-- ============================================================ the frame

/-- Only the blocks `own` were worked on. -/
structure Within (own : List BlockId) (host host' : Host) : Prop where
  rules : SameRules host host'
  handed : host'.heap.blocks.size = host.heap.blocks.size
  others : ∀ b, b ∉ own → host'.heap.contents b = host.heap.contents b
  books : host'.heap.inUse - host'.heap.held own
    = host.heap.inUse - host.heap.held own
  live : host'.heap.live = host.heap.live
  frees : host'.frees = host.frees
  answers : host'.answers = host.answers
  leads : Leads host host'

variable {own : List BlockId}

theorem Within.refl (own : List BlockId) (host : Host) :
    Within own host host :=
  ⟨.refl host, rfl, fun _ _ => rfl, rfl, rfl, rfl, rfl, .refl host⟩

/-- What stays within the same blocks twice stays within them. -/
theorem Within.trans (h : Within own host host')
    (h' : Within own host' host'') : Within own host host'' where
  rules := h.rules.trans h'.rules
  handed := h'.handed.trans h.handed
  others b hb := (h'.others b hb).trans (h.others b hb)
  books := h'.books.trans h.books
  live := h'.live.trans h.live
  frees := h'.frees.trans h.frees
  answers := h'.answers.trans h.answers
  leads := h.leads.trans h'.leads

/-- Blocks of others keep their size. -/
theorem Within.size_eq (h : Within own host host') {b : BlockId}
    (hb : b ∉ own) : host'.heap.size b = host.heap.size b := by
  unfold Heap.size
  rw [h.others b hb]

/-- Work on some blocks is work on more. -/
theorem Within.widen (h : Within own host host') (left right : List BlockId)
    (hleft : ∀ b ∈ left, b ∉ own) (hright : ∀ b ∈ right, b ∉ own) :
    Within (left ++ own ++ right) host host' where
  rules := h.rules
  handed := h.handed
  others b hb := h.others b fun hown => hb (by simp [hown])
  books := by
    have hl : host'.heap.held left = host.heap.held left :=
      Heap.held_congr fun b hb => h.size_eq (hleft b hb)
    have hr : host'.heap.held right = host.heap.held right :=
      Heap.held_congr fun b hb => h.size_eq (hright b hb)
    have hbooks := h.books
    simp only [Heap.held_append, hl, hr]
    omega
  live := h.live
  frees := h.frees
  answers := h.answers
  leads := h.leads

/-- Work on some blocks is work on them and others. -/
theorem Within.append (h : Within own host host') {more : List BlockId}
    (hapart : (own ++ more).Nodup) : Within (own ++ more) host host' := by
  have hmore : ∀ b ∈ more, b ∉ own := fun b hb hown =>
    (List.nodup_append.mp hapart).2.2 b hown b hb rfl
  simpa using h.widen [] more (by simp) hmore

-- ========================================================== single steps

/-- A denied request touches no block at all. -/
theorem within_asked (own : List BlockId) {delta size : Int}
    (hdeny : host.denies delta size = true) :
    Within own host host.asked :=
  ⟨⟨rfl, rfl, rfl, rfl, rfl⟩, rfl, fun _ _ => rfl, rfl, rfl, rfl, rfl,
    (Leads.refl host).step (.denied hdeny)⟩

/-- A granted change of size. -/
theorem within_resized {b : BlockId} (hb : b < host.heap.blocks.size)
    {n : Nat} (hgrant : host.denies (n - host.heap.size b) n = false) :
    Within [b] host
      { host.asked with heap := host.heap.resized b n } where
  rules := ⟨rfl, rfl, rfl, rfl, rfl⟩
  handed := Heap.handed_resized ..
  others c hc := by
    rw [Heap.contents_resized, if_neg fun h => hc (by simp [h.1])]
  books := by
    have hsize : (host.heap.resized b n).size b = n := by
      rw [Heap.size_resized, if_pos ⟨rfl, hb⟩]
    have hinUse : (host.heap.resized b n).inUse
        = host.heap.inUse + (n - host.heap.size b) := rfl
    simp only [Heap.held_cons, Heap.held_nil, hsize, hinUse]
    omega
  live := rfl
  frees := rfl
  answers := rfl
  leads := (Leads.refl host).step (.resized hgrant)

/-- A byte written. -/
theorem within_poked (b : BlockId) (i : Nat) (byte : UInt8) :
    Within [b] host { host with heap := host.heap.poked b i byte } where
  rules := ⟨rfl, rfl, rfl, rfl, rfl⟩
  handed := Heap.handed_poked ..
  others c hc := by
    rw [Heap.contents_poked, if_neg fun h => hc (by simp [h.1])]
  books := by
    have hinUse : (host.heap.poked b i byte).inUse = host.heap.inUse := rfl
    simp only [Heap.held_cons, Heap.held_nil, Heap.size_poked, hinUse]
  live := rfl
  frees := rfl
  answers := rfl
  leads := (Leads.refl host).aside ⟨rfl, rfl, rfl, rfl⟩

/-- An entry of the log that is no answer of a session. -/
theorem within_note {e : LogEntry} (own : List BlockId) (host : Host)
    (he : e.answer? = none) :
    Within own host { host with log := host.log.push e } :=
  ⟨⟨rfl, rfl, rfl, rfl, rfl⟩, rfl, fun _ _ => rfl, rfl, rfl, rfl, by
    simp [Host.answers, he], (Leads.refl host).aside ⟨rfl, rfl, rfl, rfl⟩⟩

/-- What is written to the console. -/
theorem within_print (own : List BlockId) (host : Host) (console : String) :
    Within own host { host with console := console } :=
  ⟨⟨rfl, rfl, rfl, rfl, rfl⟩, rfl, fun _ _ => rfl, rfl, rfl, rfl, rfl,
    (Leads.refl host).aside ⟨rfl, rfl, rfl, rfl⟩⟩

-- =========================================================== ownership

/-- Since `base`, the blocks `own` were taken, and nothing else is
different but what they hold. -/
structure Holding (own : List BlockId) (base host : Host) : Prop where
  rules : SameRules base host
  handed : base.heap.blocks.size ≤ host.heap.blocks.size
  taken : ∀ b ∈ own, base.heap.blocks.size ≤ b
  exist : ∀ b ∈ own, b < host.heap.blocks.size
  apart : own.Nodup
  others : ∀ b, b < base.heap.blocks.size →
    host.heap.contents b = base.heap.contents b
  books : host.heap.inUse = base.heap.inUse + host.heap.held own
  live : host.heap.live = base.heap.live + own.length
  leads : Leads base host

variable {base : Host}

/-- Nothing is held at first. -/
theorem Holding.refl (host : Host) : Holding [] host host where
  rules := .refl host
  handed := Nat.le_refl _
  taken := by simp
  exist := by simp
  apart := List.nodup_nil
  others _ _ := rfl
  books := by simp
  live := by simp
  leads := .refl host

/-- What is owned since a time at which nothing was owned is owned since
the time before. -/
theorem Holding.trans (h : Holding [] base host)
    (h' : Holding own host host') : Holding own base host' where
  rules := h.rules.trans h'.rules
  handed := Nat.le_trans h.handed h'.handed
  taken b hb := Nat.le_trans h.handed (h'.taken b hb)
  exist := h'.exist
  apart := h'.apart
  others b hb := by
    rw [h'.others b (Nat.lt_of_lt_of_le hb h.handed)]
    exact h.others b hb
  books := by
    have hbooks := h.books
    rw [Heap.held_nil, Int.add_zero] at hbooks
    rw [h'.books, hbooks]
  live := by
    have hlive := h.live
    rw [List.length_nil] at hlive
    rw [h'.live, hlive]
    simp
  leads := h.leads.trans h'.leads

/-- Work on owned blocks changes nothing but what they hold. -/
theorem Holding.within (h : Holding own base host)
    (hw : Within own host host') : Holding own base host' where
  rules := h.rules.trans hw.rules
  handed := by rw [hw.handed]; exact h.handed
  taken := h.taken
  exist b hb := by rw [hw.handed]; exact h.exist b hb
  apart := h.apart
  others b hb := by
    rw [hw.others b fun hown => Nat.not_le_of_lt hb (h.taken b hown)]
    exact h.others b hb
  books := by
    have hbooks := hw.books
    have hbase := h.books
    omega
  live := hw.live.trans h.live
  leads := h.leads.trans hw.leads

/-- The log is no part of the account. -/
theorem Holding.logged (h : Holding own base host)
    (log : Array LogEntry) :
    Holding own base { host with log := log } :=
  { h with
    rules := h.rules.trans ⟨rfl, rfl, rfl, rfl, rfl⟩
    leads := h.leads.aside ⟨rfl, rfl, rfl, rfl⟩ }

/-- A block that is granted is owned. -/
theorem Holding.granted (h : Holding own base host) {n : Nat}
    (hgrant : host.denies n n = false) :
    Holding (own ++ [host.heap.blocks.size]) base (host.given n) where
  rules := h.rules.trans ⟨rfl, rfl, rfl, rfl, rfl⟩
  handed := by
    rw [given, Heap.handed_granted]
    exact Nat.le_succ_of_le h.handed
  taken b hb := by
    rcases List.mem_append.mp hb with hb | hb
    · exact h.taken b hb
    · rw [List.mem_singleton.mp hb]
      exact h.handed
  exist b hb := by
    rw [given, Heap.handed_granted]
    rcases List.mem_append.mp hb with hb | hb
    · exact Nat.lt_succ_of_lt (h.exist b hb)
    · rw [List.mem_singleton.mp hb]
      exact Nat.lt_succ_self _
  apart := by
    refine List.nodup_append.mpr ⟨h.apart, by simp, ?_⟩
    intro b hb c hc hbc
    rw [List.mem_singleton.mp hc] at hbc
    exact Nat.ne_of_lt (h.exist b hb) hbc
  others b hb := by
    -- the new block has a number that was not handed out before
    have hne : b ≠ host.heap.blocks.size :=
      Nat.ne_of_lt (Nat.lt_of_lt_of_le hb h.handed)
    rw [given, Heap.contents_granted, if_neg hne]
    exact h.others b hb
  books := by
    have hown : (host.heap.granted n).held own = host.heap.held own :=
      Heap.held_congr fun b hb => by
        rw [Heap.size_granted, if_neg (Nat.ne_of_lt (h.exist b hb))]
    have hnew : (host.heap.granted n).size host.heap.blocks.size = n := by
      rw [Heap.size_granted, if_pos rfl]
    have hinUse : (host.heap.granted n).inUse = host.heap.inUse + n := rfl
    have hbase := h.books
    simp only [given, Heap.held_append, Heap.held_cons, Heap.held_nil, hown,
      hnew, hinUse]
    omega
  live := by
    have hlive : (host.heap.granted n).live = host.heap.live + 1 := rfl
    have hbase := h.live
    simp only [given, hlive, List.length_append, List.length_singleton]
    omega
  leads := h.leads.step (.given hgrant)

/-- A block that is given back is not owned any more. -/
theorem Holding.released (left : List BlockId) {right : List BlockId}
    {b : BlockId} (h : Holding (left ++ b :: right) base host) :
    Holding (left ++ right) base (host.takenBack b) where
  rules := h.rules.trans ⟨rfl, rfl, rfl, rfl, rfl⟩
  handed := by
    rw [takenBack, Heap.handed_released]
    exact h.handed
  taken c hc := h.taken c (by
    rw [List.mem_append] at hc
    simp only [List.mem_append, List.mem_cons]
    rcases hc with hc | hc
    · exact Or.inl hc
    · exact Or.inr (Or.inr hc))
  exist c hc := by
    rw [takenBack, Heap.handed_released]
    refine h.exist c ?_
    rw [List.mem_append] at hc
    simp only [List.mem_append, List.mem_cons]
    rcases hc with hc | hc
    · exact Or.inl hc
    · exact Or.inr (Or.inr hc)
  apart := (List.perm_middle.nodup_iff.mp h.apart).of_cons
  others c hc := by
    -- what is given back was taken since, so it is no block of others
    have hb : base.heap.blocks.size ≤ b := h.taken b (by simp)
    have hne : c ≠ b := Nat.ne_of_lt (Nat.lt_of_lt_of_le hc hb)
    rw [takenBack, Heap.contents_released, if_neg fun hcb => hne hcb.1]
    exact h.others c hc
  books := by
    have hnot : ∀ c ∈ left ++ right, c ≠ b := fun c hc hcb =>
      (List.nodup_cons.mp (List.perm_middle.nodup_iff.mp h.apart)).1
        (hcb ▸ hc)
    have hrest : (host.heap.released b).held (left ++ right)
        = host.heap.held (left ++ right) :=
      Heap.held_congr fun c hc => by
        rw [Heap.size_released, if_neg (hnot c hc)]
    have hinUse : (host.heap.released b).inUse
        = host.heap.inUse - host.heap.size b := rfl
    have hbase := h.books
    simp only [Heap.held_append, Heap.held_cons] at hbase hrest
    simp only [takenBack, Heap.held_append, hrest, hinUse]
    omega
  live := by
    have hlive : (host.heap.released b).live = host.heap.live - 1 := rfl
    have hbase := h.live
    simp only [List.length_append, List.length_cons] at hbase
    simp only [takenBack, hlive, List.length_append]
    omega
  leads := h.leads.step (.takenBack b)

end Host

end SatSession
