/-
What refusals do to a whole run.

An errand is a call of `solve`, or the making of a cursor and some advances
of it. It is run on a fresh host that grants everything and on one that
refuses requests, and every reply is written down with the host as it stood
then (`Errand.run`). The two lists of replies are the same up to the call
in which the first refusal falls, and this call runs out of memory
(`Parting`). Under a cap on the bytes in use, such a call comes if and only
if the cap is below the peak of the run that is granted everything
(`Errand.parts_at_refusal`).

After the first refusal the runs have nothing more to do with each other,
and nothing is claimed.
-/
import SatSession.Proofs.Refusals.Sessions

namespace SatSession

open Ruled TableEngine

variable {α : Type} {r : Rules} {host after : Host}

-- ============================================================== replies

/-- What a call returns. -/
inductive Returned where
  | answer (a : Answer)
  | cursor
  | next (solution : Option Solution)

/-- The reply to a call, and the host as it stood then. -/
structure Reply where
  outcome : Except Fault Returned
  after : Host

namespace Reply

/-- The same reply on a host that is held to rules. -/
def under (r : Rules) (reply : Reply) : Reply :=
  { reply with after := Ruled.under r reply.after }

/-- The reply that there is no memory. -/
def OutOfMemory (reply : Reply) : Prop :=
  ∃ use, reply.outcome = .error (.outOfMemory use)

/-- The reply to a call that has ended. -/
def of {S : Type} (tell : α → Returned) (stand : S → Host) :
    EStateM.Result Fault S α → Reply
  | .ok a s => ⟨.ok (tell a), stand s⟩
  | .error f s => ⟨.error f, stand s⟩

end Reply

/-- The replies to some advances of a cursor, also behind a fault. -/
def Cursor.advances :
    (count : Nat) → Placed (Cursor TableEngine) → List Reply
  | 0, _ => []
  | count + 1, p =>
      .of .next Placed.host (Cursor.next p)
        :: advances count (endOf (Cursor.next p))

/-- What is asked for: an answer, or a cursor and some advances of it. -/
inductive Errand where
  | solving
  | enumerating (advances : Nat)

/-- The replies to an errand. -/
def Errand.run (search : Search) (v vars verbose propLimit : Value) :
    Errand → Host → List Reply
  | .solving, host =>
      [.of .answer id (SatSession.solve (TableEngine.create search) v vars
        verbose propLimit host)]
  | .enumerating count, host =>
      let made := enumerate (TableEngine.create search) v vars verbose
        propLimit host
      .of (fun _ => .cursor) id made :: match made with
        | .ok c host => Cursor.advances count ⟨c, host⟩
        | .error _ _ => []

/-- The peak at the end of a run. -/
def peakAfter (host : Host) (replies : List Reply) : Int :=
  (replies.foldl (fun _ reply => reply.after) host).heap.peak

/-- The request of some number has been made before the last reply. -/
def Made (k : Nat) (replies : List Reply) : Prop :=
  0 < k ∧ ∃ reply ∈ replies, k ≤ reply.after.requests

-- ============================================================== partings

/-- The replies of a run that is granted everything, and those of a run
held to rules. -/
inductive Parting (r : Rules) : Host → List Reply → List Reply → Prop where
  | done (host : Host) : Parting r host [] []
  | along {host : Host} {reply : Reply} {free ruled : List Reply}
      (hstep : Further host reply.after) (hsober : ¬ reply.OutOfMemory)
      (hquiet : Quiet r host reply.after)
      (hrest : Parting r reply.after free ruled) :
      Parting r host (reply :: free) (reply.under r :: ruled)
  | hit {host : Host} {reply reply' : Reply} {free ruled : List Reply}
      (hfault : reply'.OutOfMemory)
      (hhit : Hit r host reply'.after reply.after) :
      Parting r host (reply :: free) (reply' :: ruled)

/-- One call more in front. -/
theorem Parting.of_follows {S : Type} [Ruled S] {s : S}
    {x y : EStateM.Result Fault S α} (tell : α → Returned)
    (stand : S → Host) {free ruled : List Reply}
    (hfurther : ∀ s', Further s s' → Further (stand s) (stand s'))
    (hquiet : ∀ s', Quiet r s s' → Quiet r (stand s) (stand s'))
    (hhit : ∀ q s', Hit r s q s' → Hit r (stand s) (stand q) (stand s'))
    (hunder : ∀ s', stand (under r s') = under r (stand s'))
    (h : Sober s x ∧ Follows (Starved True) r s x y)
    (hrest : y = endUnder r x →
      Parting r (stand (endOf x)) free ruled) :
    Parting r (stand s) (.of tell stand x :: free)
      (.of tell stand y :: ruled) := by
  obtain ⟨hsober, hfollows⟩ := h
  have hafter : ∀ x : EStateM.Result Fault S α,
      (Reply.of tell stand x).after = stand (endOf x) := fun x => by
    cases x <;> rfl
  rcases hfollows with ⟨rfl, hq⟩ | ⟨hstarved, hh⟩
  · have hreply : Reply.of tell stand (endUnder r x)
        = (Reply.of tell stand x).under r := by
      cases x with
      | ok a s' => exact congrArg (Reply.mk (.ok (tell a))) (hunder s')
      | error f s' => exact congrArg (Reply.mk (.error f)) (hunder s')
    rw [hreply]
    refine .along ?_ ?_ ?_ ?_
    · rw [hafter]
      exact hfurther _ hsober.further
    · intro hout
      obtain ⟨use, hout⟩ := hout
      cases x with
      | ok a s' => cases hout
      | error f s' => exact hsober.2 use (Except.error.inj hout)
    · rw [hafter]
      exact hquiet _ hq
    · rw [hafter]
      exact hrest rfl
  · obtain ⟨-, use, q, rfl⟩ := hstarved.exists_eq
    refine .hit ⟨use, rfl⟩ ?_
    rw [hafter, hafter]
    exact hhit _ _ hh

namespace Cursor

variable {search : Search} {limit : Int} {n : Nat} {base : Host}

/-- The advances of a cursor in use, by the number of advances. -/
theorem advances_parting (count : Nat) :
    ∀ p : Placed (Cursor TableEngine), p.host.Generous →
      InUse search limit n base p.object (under r p.host) →
      Parting r p.host (advances count p) (advances count (under r p)) := by
  induction count with
  | zero => exact fun p _ _ => .done p.host
  | succ count ih =>
      intro p hs huse
      have hfollows := next_inStep huse hs
      refine Parting.of_follows .next Placed.host
        (fun _ h => ⟨h.1, h.2, h.3⟩) (fun _ h => ⟨h.1, h.2⟩)
        (fun _ _ h => h) (fun _ => rfl) hfollows ?_
      intro hsame
      have hnext := huse.next
      rw [show (⟨p.object, under r p.host⟩ : Placed (Cursor TableEngine))
        = under r p from rfl, hsame, endOf_endUnder] at hnext
      rw [hsame, endOf_endUnder]
      exact ih _ hfollows.1.further.lavish hnext

end Cursor

/-- The replies to an errand stand to those of the run held to rules. -/
theorem Errand.parting (errand : Errand) (search : Search)
    (v vars verbose propLimit : Value) (hs : host.Generous) :
    Parting r host (errand.run search v vars verbose propLimit host)
      (errand.run search v vars verbose propLimit (under r host)) := by
  cases errand with
  | solving =>
      exact Parting.of_follows .answer id (fun _ h => h)
        (fun _ h => h) (fun _ _ h => h) (fun _ => rfl)
        (solve_inStep search v vars verbose propLimit host hs)
        fun _ => .done _
  | enumerating count =>
      have hstep : InStep True r (enumerate (TableEngine.create search) v
          vars verbose propLimit) host :=
        Cursor.enumerate_inStep search v vars verbose propLimit host
      have hfollows := hstep hs
      refine Parting.of_follows _ id (fun _ h => h)
        (fun _ h => h) (fun _ _ h => h) (fun _ => rfl) hfollows ?_
      intro hsame
      rw [hsame]
      have hstarted := Cursor.enumerate_ends (hs.plain_under r)
        (hs.takesBack_under r) search v vars verbose propLimit
      rw [hsame] at hstarted
      cases hrun : enumerate (TableEngine.create search) v vars verbose
          propLimit host with
      | error f host' => exact .done _
      | ok c host' =>
          rw [hrun] at hstarted hfollows
          obtain ⟨config, cs, -, -, hstarted⟩ := hstarted
          exact Cursor.advances_parting count ⟨c, host'⟩
            hfollows.1.further.lavish (Or.inr ⟨cs, hstarted.running⟩)

-- ================================================================= laws

variable {free ruled : List Reply} {k : Nat}

/-- The replies of a run that is granted everything. -/
inductive Climbs : Host → List Reply → Prop where
  | done (host : Host) : Climbs host []
  | step {host : Host} {reply : Reply} {rest : List Reply}
      (hstep : Further host reply.after) (hsober : ¬ reply.OutOfMemory)
      (hrest : Climbs reply.after rest) : Climbs host (reply :: rest)

/-- Rules that refuse nothing. -/
def Rules.open : Rules := ⟨fun _ => false, none⟩

/-- Rules that refuse nothing are never hit. -/
theorem not_hit_open {s q s' : Host} : ¬ Hit .open s q s' := by
  intro h
  rcases h with ⟨k, -, -, hk⟩ | ⟨L, hL, -⟩
  · cases hk
  · cases hL

/-- A run that is held to no rules climbs from one reply to the next. -/
theorem Parting.climbs (h : Parting .open host free ruled) :
    Climbs host free := by
  induction h with
  | done host => exact .done host
  | along hstep hsober _ _ ih => exact .step hstep hsober ih
  | hit _ hhit => exact absurd hhit not_hit_open

/-- The peak at the end is the highest one. -/
theorem Climbs.peak_le (h : Climbs host free) :
    host.heap.peak ≤ peakAfter host free := by
  induction h with
  | done host => exact Int.le_refl _
  | step hstep _ _ ih => exact Int.le_trans hstep.peak ih

/-- No reply of a run without refusals is a lack of memory. -/
theorem Climbs.sober (h : Climbs host free) :
    ∀ reply ∈ free, ¬ reply.OutOfMemory := by
  induction h with
  | done host => simp
  | step _ hsober _ ih =>
      intro reply hmem
      rcases List.mem_cons.mp hmem with rfl | hmem
      · exact hsober
      · exact ih reply hmem

/-- If no request that is made is refused by its number, and there is no
cap, all replies are the same. -/
theorem Parting.same_of_unplanned (h : Parting r host free ruled)
    (hlimit : r.limit = none)
    (hnone : ∀ k, host.requests < k →
      (∃ reply ∈ ruled, k ≤ reply.after.requests) → r.refuses k = false) :
    ruled = free.map (Reply.under r) := by
  induction h with
  | done host => rfl
  | along hstep _ _ _ ih =>
      rw [List.map_cons, ← ih]
      intro k hk hmade
      obtain ⟨reply', hmem, hle⟩ := hmade
      refine hnone k (Nat.lt_of_le_of_lt hstep.requests hk)
        ⟨reply', List.mem_cons_of_mem _ hmem, hle⟩
  | hit _ hhit =>
      rcases hhit with ⟨k, hlt, hle, hk⟩ | ⟨L, hL, -⟩
      · rw [hnone k hlt ⟨_, List.mem_cons_self, hle⟩] at hk
        cases hk
      · rw [hlimit] at hL
        cases hL

/-- If there is only a cap, and it is not below the peak, all replies are
the same. -/
theorem Parting.same_of_below (h : Parting r host free ruled)
    (hplan : ∀ k, r.refuses k = false) (hclimbs : Climbs host free)
    {L : Int} (hlimit : r.limit = some L)
    (hpeak : peakAfter host free ≤ L) :
    ruled = free.map (Reply.under r) := by
  induction h with
  | done host => rfl
  | along _ _ _ _ ih =>
      cases hclimbs with
      | step _ _ hrest => rw [List.map_cons, ← ih hrest hpeak]
  | hit _ hhit =>
      cases hclimbs with
      | step _ _ hrest =>
          rcases hhit with ⟨k, -, -, hk⟩ | ⟨L', hL', hlt⟩
          · rw [hplan k] at hk
            cases hk
          · obtain rfl := Option.some.inj (hlimit.symm.trans hL')
            exact absurd (Int.lt_of_lt_of_le hlt hrest.peak_le)
              (Int.not_lt.mpr hpeak)

/-- A cap below the peak is met. -/
theorem Parting.outOfMemory_of_lt (h : Parting r host free ruled)
    {L : Int} (hlimit : r.limit = some L) (hbase : host.heap.peak ≤ L)
    (hpeak : L < peakAfter host free) :
    ∃ reply ∈ ruled, reply.OutOfMemory := by
  induction h with
  | done host => exact absurd hbase (Int.not_le.mpr hpeak)
  | along _ _ hquiet _ ih =>
      obtain ⟨reply, hmem, hout⟩ := ih (hquiet.capped L hlimit hbase) hpeak
      exact ⟨reply, List.mem_cons_of_mem _ hmem, hout⟩
  | hit hfault _ => exact ⟨_, List.mem_cons_self, hfault⟩

/-- The first refusal falls in the call that runs out of memory, and all
replies before it are those of the run that is granted everything. -/
def PartsAt (r : Rules) (k : Nat) (free ruled : List Reply) : Prop :=
  ∃ earlier reply later, ruled = earlier ++ reply :: later
    ∧ ¬ Made k earlier ∧ k ≤ reply.after.requests
    ∧ reply.OutOfMemory ∧ earlier <+: free.map (Reply.under r)

/-- Of several refused requests the first one decides where the runs
part. -/
theorem Parting.partsAt (h : Parting r host free ruled)
    (hlimit : r.limit = none) (hk : host.requests < k)
    (hmade : Made k ruled) (hrefused : r.refuses k = true)
    (hfirst : ∀ j, j < k → host.requests < j → r.refuses j = false) :
    PartsAt r k free ruled := by
  induction h with
  | done host =>
      obtain ⟨-, reply, hmem, -⟩ := hmade
      cases hmem
  | @along host reply free ruled hstep hsober hquiet hrest ih =>
      -- a reply without a refusal was made before the request in question
      have hlater : reply.after.requests < k := by
        by_contra hle
        have hnot := hquiet.unplanned k hk (by
          show k ≤ reply.after.requests
          omega)
        rw [hrefused] at hnot
        cases hnot
      obtain ⟨hpos, reply', hmem, hle⟩ := hmade
      have hmem' : reply' ∈ ruled := by
        rcases List.mem_cons.mp hmem with rfl | hmem
        · have hle : k ≤ reply.after.requests := hle
          omega
        · exact hmem
      obtain ⟨earlier, hit, later, hruled, hnot, hbefore, hout, hprefix⟩ :=
        ih hlater ⟨hpos, reply', hmem', hle⟩ fun j hj hlt =>
          hfirst j hj (Nat.lt_of_le_of_lt hstep.requests hlt)
      refine ⟨reply.under r :: earlier, hit, later, by rw [hruled]; rfl, ?_,
        hbefore, hout, ?_⟩
      · intro hearly
        obtain ⟨-, reply'', hmem'', hle''⟩ := hearly
        rcases List.mem_cons.mp hmem'' with rfl | hmem''
        · have hle'' : k ≤ reply.after.requests := hle''
          omega
        · exact hnot ⟨hpos, reply'', hmem'', hle''⟩
      · rw [List.map_cons]
        exact List.cons_prefix_cons.mpr ⟨rfl, hprefix⟩
  | @hit host reply reply' free ruled hfault hhit =>
      refine ⟨[], reply', ruled, rfl, ?_, ?_, hfault, List.nil_prefix⟩
      · intro hearly
        obtain ⟨-, reply'', hmem, -⟩ := hearly
        cases hmem
      · rcases hhit with ⟨j, hlt, hle, hj⟩ | ⟨L, hL, -⟩
        · have hle : j ≤ reply'.after.requests := hle
          by_contra hbefore
          rw [hfirst j (by omega) hlt] at hj
          cases hj
        · rw [hlimit] at hL
          cases hL

-- =========================================================== the theorem

/-- Refusals change nothing but by running out of memory. -/
theorem Errand.parts_at_refusal (errand : Errand) (search : Search)
    (v vars verbose propLimit : Value) :
    let run := errand.run search v vars verbose propLimit
    let free := run .boundless
    (∀ refuses : Nat → Bool,
      let r : Rules := ⟨refuses, none⟩
      let ruled := run (under r .boundless)
      ((∀ k, Made k ruled → refuses k = false) →
          ruled = free.map (Reply.under r))
        ∧ ∀ k, Made k ruled → refuses k = true →
          (∀ j, j < k → 0 < j → refuses j = false) →
          PartsAt r k free ruled)
    ∧ ∀ L : Int, 0 ≤ L →
      let r : Rules := ⟨fun _ => false, some L⟩
      let ruled := run (under r .boundless)
      ((∃ reply ∈ ruled, reply.OutOfMemory)
          ↔ L < peakAfter .boundless free)
        ∧ (peakAfter .boundless free ≤ L →
          ruled = free.map (Reply.under r)) := by
  intro run free
  have hs := Host.generous_boundless
  have hparting : ∀ r,
      Parting r .boundless free (run (under r .boundless)) := fun r =>
    errand.parting search v vars verbose propLimit hs
  have hclimbs : Climbs .boundless free := by
    have hopen := hparting .open
    exact hopen.climbs
  constructor
  · intro refuses r ruled
    constructor
    · intro hnone
      exact (hparting r).same_of_unplanned rfl fun k hk hmade =>
        hnone k ⟨hk, hmade⟩
    · intro k hmade hrefused hfirst
      exact (hparting r).partsAt rfl hmade.1 hmade hrefused hfirst
  · intro L hL r ruled
    have hsame : peakAfter .boundless free ≤ L →
        ruled = free.map (Reply.under r) :=
      (hparting r).same_of_below (fun _ => rfl) hclimbs rfl
    refine ⟨⟨fun hout => ?_, (hparting r).outOfMemory_of_lt rfl hL⟩, hsame⟩
    -- with the cap at the peak or above, the replies are those of the free
    -- run, and none of them is a lack of memory
    by_contra hle
    obtain ⟨reply, hmem, hout⟩ := hout
    rw [hsame (by omega)] at hmem
    obtain ⟨reply', hmem', rfl⟩ := List.mem_map.mp hmem
    exact hclimbs.sober reply' hmem' hout

/-- One variable, one clause, one advance. -/
def oneAdvance : Host → List Reply :=
  (Errand.enumerating 1).run (fun _ _ => .sat fun _ => true)
    (.seq .list [.seq .list [.int 1]]) (.int (-1)) (.int 0) (.int 0)

/-- The third request is the one for the buffer: without it the advance
fails, and a cap of `82` bytes is one byte too low for it. -/
theorem Errand.parts_at_refusal_buffer :
    PartsAt ⟨fun k => k == 3, none⟩ 3 (oneAdvance .boundless)
        (oneAdvance (under ⟨fun k => k == 3, none⟩ .boundless))
      ∧ ∃ reply ∈ oneAdvance (under ⟨fun _ => false, some 82⟩ .boundless),
          reply.OutOfMemory := by
  have hmade : Made 3
      (oneAdvance (under ⟨fun k => k == 3, none⟩ .boundless)) := by
    refine ⟨by decide, ?_⟩
    decide +kernel
  have hfirst : ∀ j, j < 3 → 0 < j → (j == 3) = false := by decide
  have hpeak : 82 < peakAfter .boundless (oneAdvance .boundless) := by
    decide +kernel
  have hparts := (Errand.enumerating 1).parts_at_refusal
    (fun _ _ => .sat fun _ => true) (.seq .list [.seq .list [.int 1]])
    (.int (-1)) (.int 0) (.int 0)
  obtain ⟨hplan, hcap⟩ := hparts
  constructor
  · exact (hplan fun k => k == 3).2 3 hmade rfl hfirst
  · exact (hcap 82 (by decide)).1.mpr hpeak

end SatSession
