/-
A program that is granted all it asks for, and the same program held to
rules.

Rules refuse requests for memory, some by their number and some because
of a cap on the bytes in use. From one state a program is run twice: once
with everything granted, and once held to the rules. `InStep` says how the
second run stands to the first:

- either nothing was refused, and the two runs are the same up to the
  rules that they are held to; or
- something was refused, and the second run has ended out of memory.

It says besides that the first run asks for more and more, never for less,
and that it does not end out of memory. In the first case no request of the
run is refused by its number and the peak of the run is not above the cap,
so that the unrefused run alone tells where the other one parts from it.

Programs that ask for nothing are in step without the second case; the
proposition `may` says whether it can occur, so that there is one rule for
each way in which programs are put together. The answers of a request
itself are told apart by `Asks`: there it is a certain answer, not a fault,
that stands for the refusal, and the program around it ends the run
(`Asks.demand`).
-/
import SatSession.Proofs.Memory.Request

namespace SatSession

-- ================================================================ rules

/-- What requests for memory are held to. -/
structure Rules where
  /-- Which requests are refused by their numbers. -/
  refuses : Nat → Bool
  /-- The most bytes that may be in use. -/
  limit : Option Int

/-- States in which memory is asked for. -/
class Ruled (S : Type) where
  /-- The same state, held to rules. -/
  under : Rules → S → S
  /-- The number of requests made so far. -/
  requests : S → Nat
  /-- The most bytes that were in use. -/
  peak : S → Int
  /-- Whatever is asked for is granted. -/
  Lavish : S → Prop

/-- A memory that grants everything. -/
structure Heap.Lavish (heap : Heap) : Prop where
  unlimited : heap.limit = none
  whole_limit : heap.oddLimit = .none
  supplied : heap.supply = none
  whole_count : heap.inUseKind = .whole

/-- A memory counts no requests. -/
instance : Ruled Heap where
  under r heap := { heap with limit := r.limit }
  requests _ := 0
  peak := Heap.peak
  Lavish := Heap.Lavish

instance : Ruled Host where
  under r host := { host with
    heap := Ruled.under r host.heap
    plan := { host.plan with refuses := r.refuses } }
  requests := Host.requests
  peak host := host.heap.peak
  Lavish := Host.Generous

instance {σ : Type} : Ruled (Placed σ) where
  under r p := { p with host := Ruled.under r p.host }
  requests p := p.host.requests
  peak p := p.host.heap.peak
  Lavish p := p.host.Generous

open Ruled

variable {S α β : Type} [Ruled S] {r : Rules} {s s' s'' q : S}

-- =========================================================== along a run

/-- More has been asked for, and all of it was granted. -/
structure Further (s s' : S) : Prop where
  lavish : Lavish s'
  requests : requests s ≤ requests s'
  peak : peak s ≤ peak s'

/-- The rules refuse nothing on the way from one state to a later one. -/
structure Quiet (r : Rules) (s s' : S) : Prop where
  unplanned : ∀ k, requests s < k → k ≤ requests s' → r.refuses k = false
  capped : ∀ L, r.limit = some L → peak s ≤ L → peak s' ≤ L

/-- The rules have refused something since `s`: one of the requests made
up to `q`, or the bytes that `s'` shows at its peak. -/
def Hit (r : Rules) (s q s' : S) : Prop :=
  (∃ k, requests s < k ∧ k ≤ requests q ∧ r.refuses k = true)
    ∨ ∃ L, r.limit = some L ∧ L < peak s'

theorem Further.refl (h : Lavish s) : Further s s :=
  ⟨h, Nat.le_refl _, Int.le_refl _⟩

/-- More and again more is more. -/
theorem Further.trans (h : Further s s') (h' : Further s' s'') :
    Further s s'' :=
  ⟨h'.lavish, Nat.le_trans h.requests h'.requests,
    Int.le_trans h.peak h'.peak⟩

/-- Where nothing is asked for, nothing is refused. -/
theorem Quiet.still (hrequests : requests s' = requests s)
    (hpeak : peak s' = peak s) : Quiet r s s' :=
  ⟨fun k hlt hle => by omega, fun L _ hle => by omega⟩

/-- Two quiet parts make a quiet whole: each request falls into one of the
two. -/
theorem Quiet.trans (h : Quiet r s s') (h' : Quiet r s' s'') :
    Quiet r s s'' where
  unplanned k hlt hle := by
    by_cases hk : k ≤ requests s'
    · exact h.unplanned k hlt hk
    · exact h'.unplanned k (by omega) hle
  capped L hL hle := h'.capped L hL (h.capped L hL hle)

/-- What has been refused stays refused, seen from an earlier state and at
a later one. -/
theorem Hit.widen {t q' t' : S} (h : Hit r s q s')
    (hfrom : requests t ≤ requests s) (hq : requests q ≤ requests q')
    (hpeak : peak s' ≤ peak t') : Hit r t q' t' := by
  rcases h with ⟨k, hlt, hle, hk⟩ | ⟨L, hL, hlt⟩
  · exact Or.inl ⟨k, by omega, by omega, hk⟩
  · exact Or.inr ⟨L, hL, by omega⟩

-- ============================================================= two ends

/-- The state in which a run ends. -/
def endOf : EStateM.Result Fault S α → S
  | .ok _ s | .error _ s => s

/-- The end of a run, held to rules. -/
def endUnder (r : Rules) :
    EStateM.Result Fault S α → EStateM.Result Fault S α
  | .ok a s => .ok a (under r s)
  | .error f s => .error f (under r s)

/-- Rules that are put on an end stand on its state. -/
theorem endOf_endUnder (r : Rules) (x : EStateM.Result Fault S α) :
    endOf (endUnder r x) = under r (endOf x) := by
  cases x <;> rfl

/-- How the end `y` of a run held to rules stands to the end `x` of the
one that was granted everything. -/
def Follows (lost : EStateM.Result Fault S α → Prop) (r : Rules) (s : S)
    (x y : EStateM.Result Fault S α) : Prop :=
  (y = endUnder r x ∧ Quiet r s (endOf x))
    ∨ (lost y ∧ Hit r s (endOf y) (endOf x))

/-- A run that is granted everything does not end out of memory. -/
def Sober (s : S) : EStateM.Result Fault S α → Prop :=
  Ends (fun _ s' => Further s s')
    (fun f s' => Further s s' ∧ ∀ use, f ≠ .outOfMemory use)

/-- A sober run has only asked for more. -/
theorem Sober.further {x : EStateM.Result Fault S α} (h : Sober s x) :
    Further s (endOf x) := by
  cases x with
  | ok a s' => exact h
  | error f s' => exact h.1

/-- What was asked for in front of a sober run counts with it. -/
theorem Sober.after {x : EStateM.Result Fault S α} (h : Sober s' x)
    (hstep : Further s s') : Sober s x :=
  h.imp (fun _ _ h => hstep.trans h) fun _ _ h => ⟨hstep.trans h.1, h.2⟩

/-- The end of a run that was refused something, if that `may` occur. -/
def Starved (may : Prop) : EStateM.Result Fault S α → Prop
  | .error (.outOfMemory _) _ => may
  | _ => False

/-- The answer by which a request is refused. -/
def Refused (no : α) : EStateM.Result Fault S α → Prop
  | .ok a _ => a = no
  | .error _ _ => False

/-- A program held to rules is in step with itself. -/
def InStep (may : Prop) (r : Rules) (op : EStateM Fault S α) (s : S) :
    Prop :=
  Lavish s →
    Sober s (op s) ∧ Follows (Starved may) r s (op s) (op (under r s))

/-- A request held to rules is in step with itself, or it is refused. -/
def Asks (no : α) (r : Rules) (op : EStateM Fault S α) (s : S) : Prop :=
  Lavish s → Ends (fun a _ => a ≠ no) (fun _ _ => True) (op s)
    ∧ Sober s (op s) ∧ Follows (Refused no) r s (op s) (op (under r s))

-- ============================================================== by parts

variable {may : Prop} {x : EStateM Fault S α} {f : α → EStateM Fault S β}

omit [Ruled S] in
/-- What may run out of memory for one reason may do so for a wider one. -/
theorem Starved.mono {may' : Prop} (h : may → may')
    {y : EStateM.Result Fault S α} (hy : Starved may y) :
    Starved may' y := by
  cases y with
  | ok a q => exact hy.elim
  | error e q => cases e <;> first | exact h hy | exact hy.elim

omit [Ruled S] in
/-- What is starved has run out of memory. -/
theorem Starved.exists_eq {y : EStateM.Result Fault S α}
    (hy : Starved may y) :
    may ∧ ∃ use q, y = .error (.outOfMemory use) q := by
  cases y with
  | ok a q => exact hy.elim
  | error e q =>
      cases e <;> first | exact ⟨hy, _, q, rfl⟩ | exact hy.elim

/-- A program that cannot run out of memory is in step where it could. -/
theorem InStep.mono {may' : Prop} (h : may → may')
    (hx : InStep may r x s) : InStep may' r x s := fun hs =>
  ⟨(hx hs).1, (hx hs).2.imp_right fun hlost =>
    ⟨hlost.1.mono h, hlost.2⟩⟩

/-- What follows behind a part that was refused nothing follows the
whole. -/
theorem follows_after {lost : EStateM.Result Fault S α → Prop}
    {x y : EStateM.Result Fault S α} (hstep : Further s s')
    (hquiet : Quiet r s s') (h : Sober s' x ∧ Follows lost r s' x y) :
    Sober s x ∧ Follows lost r s x y := by
  obtain ⟨hsober, hfollows⟩ := h
  refine ⟨hsober.after hstep, ?_⟩
  rcases hfollows with ⟨hsame, hquiet'⟩ | ⟨hlost, hhit⟩
  · exact Or.inl ⟨hsame, hquiet.trans hquiet'⟩
  · exact Or.inr ⟨hlost, hhit.widen hstep.requests (Nat.le_refl _)
      (Int.le_refl _)⟩

/-- One part after the other, if a loss of the first is a loss of both. -/
theorem follows_bind {lost : EStateM.Result Fault S α → Prop}
    {lost' : EStateM.Result Fault S β → Prop}
    (hsober : Sober s (x s)) (hx : Follows lost r s (x s) (x (under r s)))
    (hlost : lost (x (under r s)) → lost' ((x >>= f) (under r s))
      ∧ requests (endOf (x (under r s)))
        ≤ requests (endOf ((x >>= f) (under r s))))
    (hf : ∀ a s', x s = .ok a s' → Lavish s' →
      Sober s' (f a s')
        ∧ Follows lost' r s' (f a s') (f a (under r s'))) :
    Sober s ((x >>= f) s)
      ∧ Follows lost' r s ((x >>= f) s) ((x >>= f) (under r s)) := by
  cases hrun : x s with
  | ok a s' =>
      rw [hrun] at hsober hx
      have hstep : Further s s' := hsober
      have hnext := hf a s' hrun hstep.lavish
      rw [bind_of_ok hrun]
      rcases hx with ⟨hsame, hquiet⟩ | ⟨hloss, hhit⟩
      · rw [bind_of_ok hsame]
        exact follows_after hstep hquiet hnext
      · obtain ⟨hloss', hle⟩ := hlost hloss
        refine ⟨hnext.1.after hstep, Or.inr ⟨hloss', ?_⟩⟩
        exact hhit.widen (Nat.le_refl _) hle hnext.1.further.peak
  | error e s' =>
      rw [hrun] at hsober hx
      rw [bind_of_error hrun]
      refine ⟨hsober, ?_⟩
      rcases hx with ⟨hsame, hquiet⟩ | ⟨hloss, hhit⟩
      · rw [bind_of_error hsame]
        exact Or.inl ⟨rfl, hquiet⟩
      · obtain ⟨hloss', hle⟩ := hlost hloss
        exact Or.inr ⟨hloss', hhit.widen (Nat.le_refl _) hle
          (Int.le_refl _)⟩

/-- One part after the other. -/
theorem InStep.bind (hx : InStep may r x s)
    (hf : ∀ a s', x s = .ok a s' → InStep may r (f a) s') :
    InStep may r (x >>= f) s := by
  intro hs
  obtain ⟨hsober, hfollows⟩ := hx hs
  refine follows_bind hsober hfollows ?_ hf
  intro hstarved
  obtain ⟨hmay, use, q, hrun⟩ := hstarved.exists_eq
  rw [bind_of_error hrun, hrun]
  exact ⟨hmay, Nat.le_refl _⟩

/-- A request, and a program that runs out of memory if it is refused. -/
theorem Asks.demand {no : α} (hx : Asks no r x s)
    (hno : ∀ q, x (under r s) = .ok no q →
      Ends (fun _ _ => False)
        (fun e q' => (∃ use, e = .outOfMemory use)
          ∧ requests q ≤ requests q') (f no q))
    (hf : ∀ a s', x s = .ok a s' → a ≠ no → InStep True r (f a) s') :
    InStep True r (x >>= f) s := by
  intro hs
  obtain ⟨hgranted, hsober, hfollows⟩ := hx hs
  have hnext : ∀ a s', x s = .ok a s' → InStep True r (f a) s' :=
    fun a s' hrun => hf a s' hrun (by rw [hrun] at hgranted; exact hgranted)
  refine follows_bind hsober hfollows ?_ hnext
  intro hrefused
  cases hrun : x (under r s) with
  | error e q =>
      rw [hrun] at hrefused
      exact hrefused.elim
  | ok a q =>
      rw [hrun] at hrefused
      obtain rfl : a = no := hrefused
      have hends := hno q hrun
      rw [bind_of_ok hrun]
      revert hends
      cases f a q with
      | ok b q' => exact fun h => h.elim
      | error e q' =>
          intro h
          obtain ⟨⟨use, rfl⟩, hle⟩ := h
          exact ⟨trivial, hle⟩

/-- What two programs do alike in both runs. -/
theorem InStep.congr {y : EStateM Fault S α} (h : InStep may r y s)
    (hrun : x s = y s) (hruled : x (under r s) = y (under r s)) :
    InStep may r x s := by
  intro hs
  rw [hrun, hruled]
  exact h hs

/-- An answer that rules have no part in. -/
theorem InStep.of_ok {a : α} (hrun : x s = .ok a s')
    (hruled : x (under r s) = .ok a (under r s'))
    (hlavish : Lavish s → Lavish s')
    (hrequests : requests s' = requests s) (hpeak : peak s' = peak s) :
    InStep may r x s := by
  intro hs
  rw [hrun, hruled]
  exact ⟨⟨hlavish hs, Nat.le_of_eq hrequests.symm,
    Int.le_of_eq hpeak.symm⟩, Or.inl ⟨rfl, .still hrequests hpeak⟩⟩

/-- A fault that rules have no part in. -/
theorem InStep.of_error {e : Fault} (hrun : x s = .error e s')
    (hruled : x (under r s) = .error e (under r s'))
    (hsober : ∀ use, e ≠ .outOfMemory use) (hlavish : Lavish s → Lavish s')
    (hrequests : requests s' = requests s) (hpeak : peak s' = peak s) :
    InStep may r x s := by
  intro hs
  rw [hrun, hruled]
  exact ⟨⟨⟨hlavish hs, Nat.le_of_eq hrequests.symm,
    Int.le_of_eq hpeak.symm⟩, hsober⟩, Or.inl ⟨rfl, .still hrequests hpeak⟩⟩

theorem InStep.pure (a : α) : InStep may r (pure a) s :=
  .of_ok rfl rfl id rfl rfl

/-- A fault that is no lack of memory is the same in both runs. -/
theorem InStep.throw {e : Fault} (h : ∀ use, e ≠ .outOfMemory use) :
    InStep may r (throw e : EStateM Fault S α) s :=
  .of_error rfl rfl h id rfl rfl

/-- A fault that goes on behind a part. -/
theorem inStep_then_throw (γ : Type) (hx : InStep may r x s) {e : Fault}
    (h : ∀ use, e ≠ .outOfMemory use) :
    InStep may r (x >>= fun _ => (throw e : EStateM Fault S γ)) s :=
  hx.bind fun _ _ _ => .throw h

/-- Both runs decide alike, and only the branch that is taken has to be in
step. -/
theorem InStep.ite {c : Prop} [Decidable c] {x y : EStateM Fault S α}
    (hx : c → InStep may r x s) (hy : ¬ c → InStep may r y s) :
    InStep may r (if c then x else y) s := by
  by_cases hc : c
  · rw [if_pos hc]
    exact hx hc
  · rw [if_neg hc]
    exact hy hc

/-- A part that is made only on a condition, with the rest behind it. -/
theorem InStep.when {c : Prop} [Decidable c] {x : EStateM Fault S PUnit}
    {k : PUnit → EStateM Fault S β} (hx : c → InStep may r x s)
    (hk : ∀ s', InStep may r (k ⟨⟩) s') :
    InStep may r (if c then x >>= k else k ⟨⟩) s :=
  .ite (fun hc => (hx hc).bind fun _ s' _ => hk s') fun _ => hk s

/-- A program that reads what rules leave alone. -/
theorem InStep.get_bind {f : S → EStateM Fault S β}
    (hsame : f (under r s) = f s) (h : InStep may r (f s) s) :
    InStep may r (get >>= f) s := by
  intro hs
  show Sober s (f s s)
    ∧ Follows _ r s (f s s) (f (under r s) (under r s))
  rw [hsame]
  exact h hs

/-- A change of what rules leave alone. -/
theorem InStep.modify {g : S → S} (hsame : g (under r s) = under r (g s))
    (hlavish : Lavish s → Lavish (g s))
    (hrequests : requests (g s) = requests s)
    (hpeak : peak (g s) = peak s) :
    InStep may r (modify g : EStateM Fault S PUnit) s :=
  .of_ok rfl (congrArg (EStateM.Result.ok PUnit.unit) hsame) hlavish
    hrequests hpeak

/-- Numbers without a result are no lack of memory. -/
theorem ofNumber_sober (e : NumberFault) (use : MemoryUse) :
    Fault.ofNumber e ≠ .outOfMemory use := by
  cases e <;> simp [Fault.ofNumber]

/-- A question about numbers. -/
theorem InStep.settle_bind {v : Except NumberFault α}
    (h : ∀ a, v = .ok a → InStep may r (f a) s) :
    InStep may r (settle v >>= f) s := by
  cases v with
  | ok a => exact h a rfl
  | error e => exact .throw (ofNumber_sober e)

theorem InStep.settle {v : Except NumberFault α} :
    InStep may r (SatSession.settle v) s := by
  cases v with
  | ok a => exact .pure a
  | error e => exact .throw (ofNumber_sober e)

-- ================================================================ loops

/-- A counted loop is in step if each round is, whatever was done before
it. -/
theorem InStep.each {f : Nat → EStateM Fault S Unit}
    (hf : ∀ i s, InStep may r (f i) s) :
    ∀ (count first : Nat) (s : S), InStep may r (Op.each f count first) s
  | 0, _, _ => .pure ()
  | count + 1, first, s =>
      (hf first s).bind fun _ s' _ => each hf count (first + 1) s'

theorem InStep.collect {f : Nat → EStateM Fault S α}
    (hf : ∀ i s, InStep may r (f i) s) :
    ∀ (count first : Nat) (s : S),
      InStep may r (Op.collect f count first) s
  | 0, _, _ => .pure []
  | count + 1, first, s =>
      (hf first s).bind fun a s' _ =>
        (collect hf count (first + 1) s').bind fun rest _ _ =>
          .pure (a :: rest)

theorem InStep.forM {f : α → EStateM Fault S PUnit}
    (hf : ∀ a s, InStep may r (f a) s) :
    ∀ (l : List α) (s : S), InStep may r (l.forM f) s
  | [], _ => .pure PUnit.unit
  | a :: rest, s => (hf a s).bind fun _ s' _ => forM hf rest s'

/-- So is a loop that hands a result from round to round. -/
theorem InStep.foldlM {f : β → α → EStateM Fault S β}
    (hf : ∀ b a s, InStep may r (f b a) s) :
    ∀ (l : List α) (b : β) (s : S), InStep may r (l.foldlM f b) s
  | [], b, _ => .pure b
  | a :: rest, b, s => by
      rw [List.foldlM_cons]
      exact (hf b a s).bind fun b' s' _ => foldlM hf rest b' s'

-- ============================================================== objects

section

variable {T : Type} [Ruled T] {t : T}

/-- The end of a run as it is seen from outside. -/
def lifted (g : α → S → β) (emb : S → T) :
    EStateM.Result Fault S α → EStateM.Result Fault T β
  | .ok a s => .ok (g a s) (emb s)
  | .error f s => .error f (emb s)

/-- Two runs seen from outside stand to each other as they do inside. -/
theorem follows_lift {lost : EStateM.Result Fault S α → Prop}
    {lost' : EStateM.Result Fault T β → Prop} {g : α → S → β}
    (emb emb' : S → T) {x y : EStateM.Result Fault S α}
    (hanswer : ∀ a s', g a (under r s') = g a s')
    (hunder : ∀ s', emb' (under r s') = under r (emb s'))
    (hfurther : ∀ s', Further s s' → Further t (emb s'))
    (hquiet : ∀ s', Quiet r s s' → Quiet r t (emb s'))
    (hhit : ∀ q s', Hit r s q s' → Hit r t (emb' q) (emb s'))
    (hlost : lost y → lost' (lifted g emb' y))
    (h : Sober s x ∧ Follows lost r s x y) :
    Sober t (lifted g emb x)
      ∧ Follows lost' r t (lifted g emb x) (lifted g emb' y) := by
  obtain ⟨hsober, hfollows⟩ := h
  have hend : ∀ (emb : S → T) (x : EStateM.Result Fault S α),
      endOf (lifted g emb x) = emb (endOf x) := fun emb x => by
    cases x <;> rfl
  constructor
  · cases x with
    | ok a s' => exact hfurther s' hsober
    | error f s' => exact ⟨hfurther s' hsober.1, hsober.2⟩
  · rcases hfollows with ⟨rfl, hq⟩ | ⟨hloss, hh⟩
    · refine Or.inl ⟨?_, ?_⟩
      · cases x with
        | ok a s' =>
            show EStateM.Result.ok (g a (under r s')) (emb' (under r s'))
              = _
            rw [hanswer, hunder]
            rfl
        | error f s' =>
            show EStateM.Result.error f (emb' (under r s')) = _
            rw [hunder]
            rfl
      · rw [hend]
        exact hquiet _ hq
    · refine Or.inr ⟨hlost hloss, ?_⟩
      rw [hend, hend]
      exact hhit _ _ hh

end

omit [Ruled S] in
/-- A run that was starved is starved, seen from outside. -/
theorem Starved.lifted {T : Type} {g : α → S → β} {emb : S → T}
    {y : EStateM.Result Fault S α} (h : Starved may y) :
    Starved may (lifted g emb y) := by
  obtain ⟨hmay, use, q, rfl⟩ := h.exists_eq
  exact hmay

omit [Ruled S] in
/-- A request that was refused is refused, seen from outside. -/
theorem Refused.lifted {T : Type} {emb : S → T} {no : α}
    {y : EStateM.Result Fault S α} (h : Refused no y) :
    Refused no (lifted (fun a _ => a) emb y) := by
  cases y with
  | ok a q => exact h
  | error f q => exact h

namespace Op

variable {σ τ : Type} {p : Placed σ}

/-- What is in step on the host is in step on an object that lives
there. -/
theorem follows_onHost {op : HostOp α}
    {lost : EStateM.Result Fault Host α → Prop}
    {lost' : EStateM.Result Fault (Placed σ) α → Prop}
    (hlost : ∀ y, lost y
      → lost' (lifted (fun a _ => a) (Placed.mk p.object) y))
    (h : Sober p.host (op p.host)
      ∧ Follows lost r p.host (op p.host) (op (under r p.host))) :
    Sober p (onHost op p)
      ∧ Follows lost' r p (onHost op p) (onHost op (under r p)) := by
  have hrun : ∀ host, onHost op ⟨p.object, host⟩
      = lifted (fun a _ => a) (Placed.mk p.object) (op host) :=
    fun host => by
      simp only [onHost]
      cases op host <;> rfl
  show Sober p (onHost op ⟨p.object, p.host⟩)
    ∧ Follows lost' r p (onHost op ⟨p.object, p.host⟩)
      (onHost op ⟨p.object, under r p.host⟩)
  rw [hrun, hrun]
  exact follows_lift _ _ (fun _ _ => rfl) (fun _ => rfl)
    (fun _ h => ⟨h.lavish, h.requests, h.peak⟩)
    (fun _ h => ⟨h.unplanned, h.capped⟩) (fun _ _ h => h) (hlost _) h

end Op

theorem InStep.onHost {σ : Type} {op : HostOp α} {p : Placed σ}
    (h : InStep may r op p.host) : InStep may r (Op.onHost op) p :=
  fun hs => Op.follows_onHost (fun _ hy => hy.lifted) (h hs)

theorem Asks.onHost {σ : Type} {op : HostOp α} {p : Placed σ} {no : α}
    (h : Asks no r op p.host) : Asks no r (Op.onHost op) p := by
  intro hs
  obtain ⟨hgranted, hfollows⟩ := h hs
  exact ⟨Op.ends_onHost.mpr hgranted,
    Op.follows_onHost (fun _ hy => hy.lifted) hfollows⟩

/-- An operation that looks at its object. -/
theorem InStep.read_bind {σ : Type} {f : σ → Op σ β} {p : Placed σ}
    (h : InStep may r (f p.object) p) : InStep may r (Op.read >>= f) p :=
  h.congr rfl rfl

theorem InStep.update {σ : Type} {g : σ → σ} {p : Placed σ} :
    InStep may r (Op.update g) p := .of_ok rfl rfl id rfl rfl

/-- An operation that changes its object. -/
theorem InStep.update_bind {σ : Type} {g : σ → σ} {f : Unit → Op σ β}
    {p : Placed σ} (h : InStep may r (f ()) ⟨g p.object, p.host⟩) :
    InStep may r (Op.update g >>= f) p := by
  refine InStep.update.bind fun _ p' hrun => ?_
  have hp' : (⟨g p.object, p.host⟩ : Placed σ) = p' :=
    (EStateM.Result.ok.inj hrun).2
  exact hp' ▸ h

/-- An operation on an inner object. -/
theorem InStep.within {σ τ : Type} {get : τ → σ} {put : σ → τ → τ}
    {op : Op σ α} {p : Placed τ}
    (h : InStep may r op ⟨get p.object, p.host⟩) :
    InStep may r (Op.within get put op) p := by
  intro hs
  have hrun : ∀ host, Op.within get put op ⟨p.object, host⟩
      = lifted (fun a _ => a) (fun q => ⟨put q.object p.object, q.host⟩)
        (op ⟨get p.object, host⟩) := fun host => by
    simp only [Op.within]
    cases op ⟨get p.object, host⟩ <;> rfl
  show Sober p (Op.within get put op ⟨p.object, p.host⟩)
    ∧ Follows _ r p (Op.within get put op ⟨p.object, p.host⟩)
      (Op.within get put op ⟨p.object, under r p.host⟩)
  rw [hrun, hrun]
  exact follows_lift _ _ (fun _ _ => rfl) (fun _ => rfl)
    (fun _ h => ⟨h.lavish, h.requests, h.peak⟩)
    (fun _ h => ⟨h.unplanned, h.capped⟩) (fun _ _ h => h)
    (fun hy => hy.lifted) (h hs)

/-- An operation on an object of which the host keeps nothing. -/
theorem InStep.on {σ : Type} {object : σ} {op : Op σ α} {host : Host}
    (h : InStep may r op ⟨object, host⟩) :
    InStep may r (Op.on object op) host := by
  intro hs
  have hrun : ∀ host, Op.on object op host
      = lifted (fun a p => (a, p.object)) Placed.host (op ⟨object, host⟩) :=
    fun host => by
      simp only [Op.on]
      cases op ⟨object, host⟩ <;> rfl
  rw [hrun, hrun]
  exact follows_lift _ _ (fun _ _ => rfl) (fun _ => rfl)
    (fun _ h => ⟨h.lavish, h.requests, h.peak⟩)
    (fun _ h => ⟨h.unplanned, h.capped⟩) (fun _ _ h => h)
    (fun hy => hy.lifted) (h hs)

/-- The memory of a generous host grants everything. -/
theorem Host.Generous.lavish {host : Host} (h : host.Generous) :
    host.heap.Lavish :=
  ⟨h.unlimited, h.plain.whole_limit, h.supplied, h.plain.whole_count⟩

/-- A generous host stays one with another memory that grants
everything. -/
theorem Host.Generous.withHeap {host : Host} (h : host.Generous)
    {heap : Heap} (hheap : heap.Lavish) :
    Host.Generous { host with heap := heap } :=
  ⟨⟨h.plain.unwatched, hheap.whole_limit, hheap.whole_count⟩, h.takesBack,
    h.unplanned, hheap.unlimited, hheap.supplied⟩

/-- What is in step on a memory is in step on the host around it. A host
that has counted requests before is the same in this. -/
theorem Host.follows_onHeap {op : HeapOp α} {host : Host}
    (hhost : host.Generous)
    {lost : EStateM.Result Fault Heap α → Prop}
    {lost' : EStateM.Result Fault Host α → Prop}
    (hlost : ∀ (emb : Heap → Host) y, lost y
      → lost' (lifted (fun a _ => a) emb y))
    (h : Sober host.heap (op host.heap)
      ∧ Follows lost r host.heap (op host.heap) (op (under r host.heap))) :
    Sober host (onHeap op host)
      ∧ Follows lost' r host (onHeap op host)
        (onHeap op (under r host)) := by
  have hrun : ∀ host : Host, onHeap op host
      = lifted (fun a _ => a) (fun heap => { host with heap := heap })
        (op host.heap) := fun host => by
    simp only [onHeap]
    cases op host.heap <;> rfl
  rw [hrun, hrun]
  refine follows_lift _ _ (fun _ _ => rfl) (fun _ => rfl) ?_ ?_ ?_
    (hlost _ _) h
  · exact fun _ h => ⟨hhost.withHeap h.lavish, Nat.le_refl _, h.peak⟩
  · exact fun _ h => ⟨fun k hlt hle => absurd hle (Nat.not_le_of_lt hlt),
      h.capped⟩
  · intro q heap hhit
    rcases hhit with ⟨k, hlt, hle, -⟩ | hcap
    · exact absurd hle (Nat.not_le_of_lt hlt)
    · exact Or.inr hcap

/-- What asks nothing of the plan is in step on a host if it is on the
memory. -/
theorem InStep.onHeap {op : HeapOp α} {host : Host}
    (h : InStep may r op host.heap) :
    InStep may r (Host.onHeap op) host := fun hs =>
  Host.follows_onHeap hs (fun _ _ hy => hy.lifted) (h hs.lavish)

-- ============================================================= releases

namespace Op

variable {σ : Type} {p : Placed σ}

/-- Nothing is released behind an answer. -/
theorem orRelease_of_ok {op : Op σ α} {release : Op σ Unit} {a : α}
    {q : Placed σ} (h : op p = .ok a q) :
    orRelease op release p = .ok a q := by
  simp only [orRelease, h]

/-- What is released after a fault is released before it goes on. -/
theorem orRelease_of_error {op : Op σ α} {release : Op σ Unit} {f : Fault}
    {q : Placed σ} (h : op p = .error f q) :
    orRelease op release p = (release >>= fun _ => throw f) q := by
  show _ = EStateM.bind _ _ _
  unfold EStateM.bind
  simp only [orRelease, h]
  cases release q <;> rfl

/-- The last part comes behind an answer. -/
theorem thenAlways_of_ok {op last : Op σ Unit} {q : Placed σ}
    (h : op p = .ok () q) : thenAlways op last p = last q := by
  simp only [thenAlways, h]

/-- The last part comes behind a fault too, which is then thrown on. -/
theorem thenAlways_of_error {op last : Op σ Unit} {f : Fault}
    {q : Placed σ} (h : op p = .error f q) :
    thenAlways op last p = (last >>= fun _ => throw f) q := by
  show _ = EStateM.bind _ _ _
  unfold EStateM.bind
  simp only [thenAlways, h]
  cases last q <;> rfl

end Op

/-- A part with a release behind its faults, if the release of a run that
was refused something succeeds. -/
theorem InStep.orRelease {σ : Type} {p : Placed σ} {op : Op σ α}
    {release : Op σ Unit} (hop : InStep may r op p)
    (hrelease : ∀ p, InStep may r release p)
    (hback : may → Ends (fun _ _ => True)
      (fun _ q => Ends (fun _ q' => requests q ≤ requests q') never
        (release q)) (op (under r p))) :
    InStep may r (Op.orRelease op release) p := by
  intro hs
  obtain ⟨hsober, hfollows⟩ := hop hs
  -- how a run goes on that was refused something
  have hlost : ∀ {x : EStateM.Result Fault (Placed σ) α},
      Sober p x → peak (endOf (op p)) ≤ peak (endOf x) →
      Starved may (op (under r p)) →
      Hit r p (endOf (op (under r p))) (endOf (op p)) →
      Follows (Starved may) r p x
        (Op.orRelease op release (under r p)) := by
    intro x hx hpeak hstarved hhit
    obtain ⟨hmay, use, q, hrun⟩ := hstarved.exists_eq
    have hends := hback hmay
    rw [hrun] at hends hhit
    obtain ⟨_, q', hq', hle⟩ := hends.exists_ok
    rw [Op.orRelease_of_error hrun, bind_of_ok hq']
    exact Or.inr ⟨hmay, hhit.widen (Nat.le_refl _) hle hpeak⟩
  cases hrun : op p with
  | ok a q =>
      rw [hrun] at hsober hfollows hlost
      rw [Op.orRelease_of_ok hrun]
      refine ⟨hsober, ?_⟩
      rcases hfollows with ⟨hsame, hquiet⟩ | ⟨hstarved, hhit⟩
      · rw [Op.orRelease_of_ok hsame]
        exact Or.inl ⟨rfl, hquiet⟩
      · exact hlost hsober (Int.le_refl _) hstarved hhit
  | error f q =>
      rw [hrun] at hsober hfollows hlost
      obtain ⟨hstep, hf⟩ := hsober
      have hrest := inStep_then_throw α (hrelease q) hf hstep.lavish
      rw [Op.orRelease_of_error hrun]
      rcases hfollows with ⟨hsame, hquiet⟩ | ⟨hstarved, hhit⟩
      · rw [Op.orRelease_of_error hsame]
        exact follows_after hstep hquiet hrest
      · exact ⟨hrest.1.after hstep, hlost (hrest.1.after hstep)
          hrest.1.further.peak hstarved hhit⟩

/-- Two parts of which the second is made whatever becomes of the first. -/
theorem InStep.thenAlways {σ : Type} {p : Placed σ} {op last : Op σ Unit}
    (hop : InStep False r op p) (hlast : ∀ p, InStep False r last p) :
    InStep False r (Op.thenAlways op last) p := by
  intro hs
  obtain ⟨hsober, hfollows⟩ := hop hs
  rcases hfollows with ⟨hsame, hquiet⟩ | ⟨hstarved, -⟩
  · cases hrun : op p with
    | ok a q =>
        rw [hrun] at hsober hsame hquiet
        have hstep : Further p q := hsober
        rw [Op.thenAlways_of_ok hrun, Op.thenAlways_of_ok hsame]
        exact follows_after hstep hquiet (hlast q hstep.lavish)
    | error f q =>
        rw [hrun] at hsober hsame hquiet
        obtain ⟨hstep, hf⟩ := hsober
        have hrest := inStep_then_throw Unit (hlast q) hf hstep.lavish
        rw [Op.thenAlways_of_error hrun, Op.thenAlways_of_error hsame]
        exact follows_after hstep hquiet hrest
  · exact hstarved.exists_eq.1.elim

end SatSession
