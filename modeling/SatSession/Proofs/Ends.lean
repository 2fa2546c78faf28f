/-
How a run ends.

Everything here runs in one kind of computation: it ends with an answer or
with a fault, and either way leaves a state behind. `Ends Q R` says of such
an end that an answer and its state satisfy `Q`, and that a fault and its
state satisfy `R`. A program that may not fail has `R` false; a program
of which nothing is known after a fault has `R` true.

# Two ways of use

- Rewriting: the `ends_…` equivalences push `Ends` through the parts of a
  program down to its primitives, one equivalence for each way in which
  programs are put together.
- Calling: a part with a statement of its own is not opened; its `Ends`
  goes through `Ends.imp`, which asks what follows from its `Q` and `R`.

Loops have one rule each, over an invariant that may speak about the index
or about what has been gone through.
-/
import SatSession.Solve

namespace SatSession

variable {ε σ α β : Type}

/-- An end with an answer satisfies `Q`, an end with a fault `R`. -/
def Ends (Q : α → σ → Prop) (R : ε → σ → Prop) :
    EStateM.Result ε σ α → Prop
  | .ok a s => Q a s
  | .error e s => R e s

instance {Q : α → σ → Prop} {R : ε → σ → Prop}
    [∀ a s, Decidable (Q a s)] [∀ e s, Decidable (R e s)]
    (r : EStateM.Result ε σ α) : Decidable (Ends Q R r) :=
  match r with
  | .ok a s => inferInstanceAs (Decidable (Q a s))
  | .error e s => inferInstanceAs (Decidable (R e s))

/-- A promise that no fault keeps. -/
def never (_ : ε) (_ : σ) : Prop := False

theorem ends_true (r : EStateM.Result ε σ α) :
    Ends (fun _ _ => True) (fun _ _ => True) r := by
  cases r <;> trivial

-- ============================================================ running

/-- A part that is known to answer hands its answer on. -/
theorem bind_of_ok {x : EStateM ε σ α} {f : α → EStateM ε σ β} {a : α}
    {s s' : σ} (h : x s = .ok a s') : (x >>= f) s = f a s' := by
  show EStateM.bind x f s = _
  unfold EStateM.bind
  rw [h]

/-- A part that is known to fail is where the whole fails. -/
theorem bind_of_error {x : EStateM ε σ α} {f : α → EStateM ε σ β} {e : ε}
    {s s' : σ} (h : x s = .error e s') : (x >>= f) s = .error e s' := by
  show EStateM.bind x f s = _
  unfold EStateM.bind
  rw [h]

@[simp] theorem get_bind_apply {f : σ → EStateM ε σ α} {s : σ} :
    ((get : EStateM ε σ σ) >>= f) s = f s s := rfl

@[simp] theorem modify_bind_apply {g : σ → σ} {f : PUnit → EStateM ε σ α}
    {s : σ} : ((modify g : EStateM ε σ PUnit) >>= f) s = f ⟨⟩ (g s) := rfl

@[simp] theorem pure_apply {a : α} {s : σ} :
    (pure a : EStateM ε σ α) s = .ok a s := rfl

@[simp] theorem throw_apply {e : ε} {s : σ} :
    (throw e : EStateM ε σ α) s = .error e s := rfl

namespace Op

variable {object : σ} {host host' : Host}

@[simp] theorem read_bind_apply {f : σ → Op σ α} {p : Placed σ} :
    (read >>= f) p = f p.object p := rfl

@[simp] theorem update_bind_apply {g : σ → σ} {f : Unit → Op σ α}
    {p : Placed σ} :
    (update g >>= f) p = f () ⟨g p.object, p.host⟩ := rfl

/-- What the host answers, an operation on it answers. -/
theorem onHost_ok {op : HostOp α} {a : α} (h : op host = .ok a host') :
    onHost op ⟨object, host⟩ = .ok a ⟨object, host'⟩ := by
  simp only [onHost, h]

end Op

/-- What the memory answers, an operation on it answers. -/
theorem Host.onHeap_ok {op : HeapOp α} {a : α} {host : Host} {heap : Heap}
    (h : op host.heap = .ok a heap) :
    Host.onHeap op host = .ok a { host with heap := heap } := by
  simp only [Host.onHeap, h]

-- ============================================================ calling

theorem Ends.imp {Q Q' : α → σ → Prop} {R R' : ε → σ → Prop}
    {r : EStateM.Result ε σ α} (h : Ends Q R r)
    (hQ : ∀ a s, Q a s → Q' a s) (hR : ∀ e s, R e s → R' e s) :
    Ends Q' R' r := by
  cases r with
  | ok a s => exact hQ a s h
  | error e s => exact hR e s h

/-- Two things that are known of one end. -/
theorem Ends.and {Q Q' : α → σ → Prop} {R R' : ε → σ → Prop}
    {r : EStateM.Result ε σ α} (h : Ends Q R r) (h' : Ends Q' R' r) :
    Ends (fun a s => Q a s ∧ Q' a s) (fun e s => R e s ∧ R' e s) r := by
  cases r with
  | ok a s => exact ⟨h, h'⟩
  | error e s => exact ⟨h, h'⟩

/-- More is promised of an answer, and nothing of a fault. -/
theorem Ends.imp_answer {Q Q' : α → σ → Prop} {r : EStateM.Result ε σ α}
    (h : Ends Q (fun _ _ => True) r) (hQ : ∀ a s, Q a s → Q' a s) :
    Ends Q' (fun _ _ => True) r :=
  h.imp hQ fun _ _ _ => trivial

/-- What never fails meets any promise about faults. -/
theorem Ends.imp_ok {Q Q' : α → σ → Prop} {R : ε → σ → Prop}
    {r : EStateM.Result ε σ α} (h : Ends Q never r)
    (hQ : ∀ a s, Q a s → Q' a s) : Ends Q' R r :=
  h.imp hQ fun _ _ hf => hf.elim

/-- What never fails has an answer. -/
theorem Ends.exists_ok {Q : α → σ → Prop} {r : EStateM.Result ε σ α}
    (h : Ends Q (never : ε → σ → Prop) r) : ∃ a s, r = .ok a s ∧ Q a s := by
  cases r with
  | ok a s => exact ⟨a, s, rfl, h⟩
  | error e s => exact h.elim

-- ================================================== parts of programs

@[simp] theorem ends_ok {Q : α → σ → Prop} {R : ε → σ → Prop} {a : α}
    {s : σ} : Ends Q R (.ok a s) ↔ Q a s := Iff.rfl

@[simp] theorem ends_error {Q : α → σ → Prop} {R : ε → σ → Prop} {e : ε}
    {s : σ} : Ends Q R (.error e s) ↔ R e s := Iff.rfl

@[simp] theorem ends_pure {Q : α → σ → Prop} {R : ε → σ → Prop} {a : α}
    {s : σ} : Ends Q R ((pure a : EStateM ε σ α) s) ↔ Q a s := Iff.rfl

@[simp] theorem ends_throw {Q : α → σ → Prop} {R : ε → σ → Prop} {e : ε}
    {s : σ} : Ends Q R ((throw e : EStateM ε σ α) s) ↔ R e s := Iff.rfl

@[simp] theorem ends_get {Q : σ → σ → Prop} {R : ε → σ → Prop} {s : σ} :
    Ends Q R ((get : EStateM ε σ σ) s) ↔ Q s s := Iff.rfl

@[simp] theorem ends_modify {Q : Unit → σ → Prop} {R : ε → σ → Prop}
    {f : σ → σ} {s : σ} :
    Ends Q R ((modify f : EStateM ε σ Unit) s) ↔ Q () (f s) := Iff.rfl

/-- One part after the other: the second starts where the first ends. -/
@[simp] theorem ends_bind {Q : β → σ → Prop} {R : ε → σ → Prop}
    {x : EStateM ε σ α} {f : α → EStateM ε σ β} {s : σ} :
    Ends Q R ((x >>= f) s) ↔ Ends (fun a s => Ends Q R (f a s)) R (x s) := by
  show Ends Q R (EStateM.bind x f s) ↔ _
  unfold EStateM.bind
  cases x s <;> rfl

@[simp] theorem ends_ite {Q : α → σ → Prop} {R : ε → σ → Prop} {c : Prop}
    [Decidable c] {x y : EStateM ε σ α} {s : σ} :
    Ends Q R ((if c then x else y) s)
      ↔ if c then Ends Q R (x s) else Ends Q R (y s) := by
  split <;> rfl

@[simp] theorem Host.ends_onHeap {Q : α → Host → Prop}
    {R : Fault → Host → Prop} {op : HeapOp α} {host : Host} :
    Ends Q R (Host.onHeap op host)
      ↔ Ends (fun a heap => Q a { host with heap := heap })
          (fun f heap => R f { host with heap := heap }) (op host.heap) := by
  simp only [Host.onHeap]
  cases op host.heap <;> rfl

/-- A whole number is noted without an objection. -/
theorem Host.noteCreated_int (clauses : Nat) (n : Int) :
    Host.noteCreated clauses (.int n)
      = Host.note (.sessionCreated clauses (.int n)) := by
  funext host
  rw [Host.noteCreated, get_bind_apply, host.reader.objection_int]

/-- A session is noted, or the reader of the log objects and nothing has
happened. -/
theorem Host.ends_noteCreated {Q : Unit → Host → Prop}
    {R : Fault → Host → Prop} {clauses : Nat} {v : Value} {host : Host}
    (hnote : Ends Q R (Host.note (.sessionCreated clauses v) host))
    (hobjects : ∀ f, host.reader.objection? v = some f → R f host) :
    Ends Q R (Host.noteCreated clauses v host) := by
  rw [Host.noteCreated, get_bind_apply]
  cases hobjection : host.reader.objection? v with
  | none => exact hnote
  | some f => exact hobjects f hobjection

/-- A result of calculating with numbers is handed on. -/
theorem ends_settle {Q : α → σ → Prop} {v : Except NumberFault α} {s : σ}
    (h : ∀ a, v = .ok a → Q a s) :
    Ends Q (fun _ _ => True) (settle v s) := by
  cases v with
  | ok a => exact h a rfl
  | error e => trivial

/-- A part that is made only on a condition, with the rest behind it. -/
theorem ends_when {Q : α → σ → Prop} {R : ε → σ → Prop} {c : Prop}
    [Decidable c] {x : EStateM ε σ PUnit} {k : PUnit → EStateM ε σ α}
    {s : σ} :
    Ends Q R ((if c then x >>= k else k ⟨⟩) s)
      ↔ Ends (fun _ s => Ends Q R (k ⟨⟩ s)) R
          ((if c then x else pure ⟨⟩) s) := by
  split
  next => exact ends_bind
  next => exact Iff.rfl

namespace Op

variable {τ : Type} {Q : α → Placed σ → Prop} {R : Fault → Placed σ → Prop}
  {p : Placed σ}

@[simp] theorem ends_read {Q : σ → Placed σ → Prop} :
    Ends Q R (read p) ↔ Q p.object p := Iff.rfl

@[simp] theorem ends_update {Q : Unit → Placed σ → Prop} {f : σ → σ} :
    Ends Q R (update f p) ↔ Q () ⟨f p.object, p.host⟩ := Iff.rfl

@[simp] theorem ends_onHost {op : HostOp α} :
    Ends Q R (onHost op p)
      ↔ Ends (fun a host => Q a ⟨p.object, host⟩)
          (fun f host => R f ⟨p.object, host⟩) (op p.host) := by
  obtain ⟨object, host⟩ := p
  simp only [onHost]
  cases op host <;> rfl

@[simp] theorem ends_within {Q : α → Placed τ → Prop}
    {R : Fault → Placed τ → Prop} {get : τ → σ} {put : σ → τ → τ}
    {op : Op σ α} {p : Placed τ} :
    Ends Q R (within get put op p)
      ↔ Ends (fun a q => Q a ⟨put q.object p.object, q.host⟩)
          (fun f q => R f ⟨put q.object p.object, q.host⟩)
          (op ⟨get p.object, p.host⟩) := by
  obtain ⟨outer, host⟩ := p
  simp only [within]
  cases op ⟨get outer, host⟩ <;> rfl

@[simp] theorem ends_on {object : σ} {op : Op σ α}
    {Q : α × σ → Host → Prop} {R : Fault → Host → Prop} {host : Host} :
    Ends Q R (on object op host)
      ↔ Ends (fun a q => Q (a, q.object) q.host) (fun f q => R f q.host)
          (op ⟨object, host⟩) := by
  unfold on
  cases op ⟨object, host⟩ <;> rfl

/-- A release runs only after a fault, whose place its own fault takes. -/
@[simp] theorem ends_orRelease {op : Op σ α} {release : Op σ Unit} :
    Ends Q R (orRelease op release p)
      ↔ Ends Q (fun f q => Ends (fun _ q => R f q) R (release q)) (op p) := by
  unfold orRelease
  cases op p with
  | ok a q => rfl
  | error f q =>
      simp only [ends_error]
      cases release q <;> rfl

/-- The last part runs after an answer and after a fault. -/
@[simp] theorem ends_thenAlways {op last : Op σ Unit}
    {Q : Unit → Placed σ → Prop} :
    Ends Q R (thenAlways op last p)
      ↔ Ends (fun _ q => Ends Q R (last q))
          (fun f q => Ends (fun _ q => R f q) R (last q)) (op p) := by
  unfold thenAlways
  cases op p with
  | ok a q => rfl
  | error f q =>
      simp only [ends_error]
      cases last q <;> rfl

end Op

/-- An operation on a cursor's session ends as it does on the session. -/
theorem Cursor.ends_onSession {E : Type} {op : Op (Session E) α}
    {c : Cursor E} {host : Host} {Q : α → Placed (Cursor E) → Prop}
    {R : Fault → Placed (Cursor E) → Prop} :
    Ends Q R (onSession op ⟨c, host⟩)
      ↔ Ends (fun a q => Q a ⟨{ c with session := q.object }, q.host⟩)
          (fun f q => R f ⟨{ c with session := q.object }, q.host⟩)
          (op ⟨c.session, host⟩) :=
  Op.ends_within

-- ============================================================== loops

/-- A loop over counted numbers keeps what each turn hands to the next. -/
theorem ends_each {R : ε → σ → Prop} {f : Nat → EStateM ε σ Unit}
    (I : Nat → σ → Prop) :
    ∀ (count first : Nat) (s : σ), I first s →
      (∀ i s, first ≤ i → i < first + count → I i s →
        Ends (fun _ s => I (i + 1) s) R (f i s)) →
      Ends (fun _ s => I (first + count) s) R (Op.each f count first s) := by
  intro count
  induction count with
  | zero => intro first s h _; exact h
  | succ count ih =>
      intro first s h step
      simp only [Op.each, ends_bind]
      refine (step first s (Nat.le_refl _) (by omega) h).imp ?_ fun _ _ h => h
      intro _ s h
      refine (ih (first + 1) s h fun i s hi hlt => ?_).imp ?_ fun _ _ h => h
      · exact step i s (by omega) (by omega)
      · intro _ s h
        rwa [show first + (count + 1) = first + 1 + count by omega]

/-- A loop that collects answers, each known and made without a change:
the answers of all turns in order. -/
theorem collect_eq {f : Nat → EStateM ε σ α} (answer : Nat → α) {s : σ} :
    ∀ (count first : Nat),
      (∀ i, first ≤ i → i < first + count → f i s = .ok (answer i) s) →
      Op.collect f count first s
        = .ok ((List.range' first count).map answer) s := by
  intro count
  induction count with
  | zero => intro first _; rfl
  | succ count ih =>
      intro first h
      have hfirst := h first (Nat.le_refl _) (by omega)
      have hrest := ih (first + 1) fun i hi hlt => h i (by omega) (by omega)
      unfold Op.collect
      rw [bind_of_ok hfirst, bind_of_ok hrest, List.range'_succ,
        List.map_cons]
      rfl

/-- A loop over a list keeps what speaks about the part gone through. -/
theorem ends_forM {R : ε → σ → Prop} {f : α → EStateM ε σ PUnit}
    (I : List α → σ → Prop) :
    ∀ (rest done : List α) (s : σ), I done s →
      (∀ done a s, a ∈ rest → I done s →
        Ends (fun _ s => I (done ++ [a]) s) R (f a s)) →
      Ends (fun _ s => I (done ++ rest) s) R
        ((rest.forM f : EStateM ε σ PUnit) s) := by
  intro rest
  induction rest with
  | nil => intro done s h _; simpa using h
  | cons a rest ih =>
      intro done s h step
      show Ends _ R ((f a >>= fun _ => rest.forM f : EStateM ε σ PUnit) s)
      rw [ends_bind]
      refine (step done a s List.mem_cons_self h).imp ?_ fun _ _ h => h
      intro _ s h
      refine (ih (done ++ [a]) s h fun done b s hb => ?_).imp ?_
        fun _ _ h => h
      · exact step done b s (List.mem_cons_of_mem a hb)
      · intro _ s h
        simpa using h

/-- A fold over a list keeps what speaks about the part gone through and
the value so far. -/
theorem ends_foldlM {R : ε → σ → Prop} {f : β → α → EStateM ε σ β}
    (I : List α → β → σ → Prop) :
    ∀ (rest done : List α) (b : β) (s : σ), I done b s →
      (∀ done a b s, a ∈ rest → I done b s →
        Ends (fun b s => I (done ++ [a]) b s) R (f b a s)) →
      Ends (fun b s => I (done ++ rest) b s) R (rest.foldlM f b s) := by
  intro rest
  induction rest with
  | nil => intro done b s h _; simpa using h
  | cons a rest ih =>
      intro done b s h step
      simp only [List.foldlM_cons, ends_bind]
      refine (step done a b s List.mem_cons_self h).imp ?_ fun _ _ h => h
      intro b s h
      refine (ih (done ++ [a]) b s h fun done c b s hc => ?_).imp ?_
        fun _ _ h => h
      · exact step done c b s (List.mem_cons_of_mem a hc)
      · intro b s h
        simpa using h

end SatSession
