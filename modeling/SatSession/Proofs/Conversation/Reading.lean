/-
Two looks at one assignment.

A session reads an assignment twice, once for the solution that it hands
out and once more for the clause that rules the solution out, and takes the
engine at its word each time (`Reading`). What the record of the engine
shows of the first is what `decode` made the solution of
(`Session.decode_reads`); what it shows of the second is what `block` made
the clause of (`Session.block_reads`), although the polarities go through
a buffer in between, since nobody else can write there.

If the two readings agree, then so do solution and clause: the clause says
of each variable, in order, the opposite of what the solution says
(`Reading.negates`).
-/
import SatSession.Proofs.Conversation.Confined
import SatSession.Proofs.Conversation.Loading
import SatSession.Proofs.Numbers.Signs

namespace SatSession

variable {E α : Type} {own : E → BlockId → Prop}

-- ============================================================= readings

/-- A value that says of a variable whether it is true. -/
def Value.Polar (v : Value) : Prop :=
  v.eqInt 1 = .ok true ∨ v.eqInt (-1) = .ok true

/-- Whether a value is above zero. -/
def Value.isAbove (v : Value) : Bool :=
  match (Value.int 0).lt v with
  | .ok above => above
  | .error _ => false

/-- What an engine says of its number of variables, and then of the
variables, one by one. -/
structure Reading where
  count : Value
  values : List Value

namespace Reading

/-- The questions for the values of the variables from a given one on. -/
def askedFrom : Nat → List Value → List Exchange
  | _, [] => []
  | i, v :: rest =>
      ⟨.valueOf (.int i), .value v⟩ :: askedFrom (i + 1) rest

/-- All questions of a reading. -/
def asked (r : Reading) : List Exchange :=
  ⟨.variableCount, .value r.count⟩ :: askedFrom 1 r.values

/-- A reading asks for all variables up to the number of variables. -/
def Full (r : Reading) : Prop :=
  ∃ bound n, r.count.add (.int 1) = .ok bound ∧ bound.whole? = some n
    ∧ r.values.length = (n - 1).toNat

/-- The literals that values stand for, from a given variable on: each
value times its variable. -/
def Spelt : Nat → List Value → Solution → Prop
  | _, [], [] => True
  | i, v :: values, l :: literals =>
      v.Polar ∧ v.mul (.int i) = .ok l ∧ Spelt (i + 1) values literals
  | _, _, _ => False

/-- The opposite literals, from a given variable on. -/
def oppositesFrom : Nat → List Value → List Int
  | _, [] => []
  | i, v :: rest =>
      (if v.isAbove then -(i : Int) else i) :: oppositesFrom (i + 1) rest

/-- The clause that rules a reading out. -/
def opposites (r : Reading) : List Int := oppositesFrom 1 r.values

/-- The calls that hand this clause over. -/
def blocking (r : Reading) : List Exchange :=
  (clauseCalls r.opposites).map fun call => ⟨call, .done⟩

/-- What is said of literals that are handed over. -/
def adding (literals : List Int) : List Exchange :=
  literals.map fun l => ⟨.addLiteral (.int l), .done⟩

/-- A clause is its literals and its end. -/
theorem blocking_eq (r : Reading) :
    r.blocking = adding r.opposites ++ [⟨.terminateClause, .done⟩] := by
  unfold blocking clauseCalls adding
  rw [List.map_append, List.map_map]
  rfl

/-- A value that can be told to be one or minus one. -/
def Signed (v : Value) : Prop :=
  v.Polar ∧ ∃ above, (Value.int 0).lt v = .ok above

-- =========================================================== agreement

/-- What a solution and a clause say of the variables, one by one in
order: the literal of the solution is the value times the variable, the
literal of the clause has the opposite sign. As numbers the two are
opposite, unless the product was rounded, which takes a double or a decimal
and a variable beyond all that could be counted. -/
structure RulesOut (r : Reading) (s : Solution) : Prop where
  solution : s.length = r.values.length
  clause : r.opposites.length = r.values.length
  literal : ∀ j v w l, r.values[j]? = some v → s[j]? = some w →
    r.opposites[j]? = some l →
    v.mul (.int (j + 1 : Nat)) = .ok w
      ∧ (v.eqInt 1 = .ok true ∧ l = -((j + 1 : Nat) : Int)
        ∨ v.eqInt (-1) = .ok true ∧ l = (j + 1 : Nat))
      ∧ ((v.isRounded = true → j + 1 ≤ 2 ^ 53) →
        w.eqInt (-l) = .ok true)

variable {v w : Value} {i : Nat}

/-- The opposite literal of a variable, by what its value says. -/
theorem Signed.opposite (h : Signed v) (i : Nat) :
    v.eqInt 1 = .ok true ∧ oppositesFrom i [v] = [-(i : Int)]
      ∨ v.eqInt (-1) = .ok true ∧ oppositesFrom i [v] = [(i : Int)] := by
  obtain ⟨hpolar, above, habove⟩ := h
  have hisAbove : v.isAbove = above := by
    simp only [Value.isAbove, habove]
  rcases hpolar with hone | hone
  · have hsign := Value.zero_lt_of_eqInt hone habove
    refine Or.inl ⟨hone, ?_⟩
    simp [oppositesFrom, hisAbove, hsign]
  · have hsign := Value.zero_lt_of_eqInt hone habove
    refine Or.inr ⟨hone, ?_⟩
    simp [oppositesFrom, hisAbove, hsign]

/-- The literal of a variable and its opposite, as numbers. -/
theorem Signed.negated (h : Signed v) (hi : 0 < i)
    (hmul : v.mul (.int i) = .ok w) {l : Int}
    (hl : v.eqInt 1 = .ok true ∧ l = -(i : Int)
      ∨ v.eqInt (-1) = .ok true ∧ l = i)
    (hround : v.isRounded = true → i ≤ 2 ^ 53) :
    w.eqInt (-l) = .ok true := by
  obtain ⟨-, above, habove⟩ := h
  have hproduct : ∀ s : Int, s = 1 ∨ s = -1 → v.eqInt s = .ok true →
      w.eqInt (s * i) = .ok true := by
    intro s hs hv
    obtain ⟨w', hw', heq⟩ := Value.mul_eqInt hs hv habove hi hround
    rw [hmul] at hw'
    rw [Except.ok.inj hw']
    exact heq
  rcases hl with ⟨hone, rfl⟩ | ⟨hone, rfl⟩
  · have heq := hproduct 1 (Or.inl rfl) hone
    rwa [one_mul, ← neg_neg (i : Int)] at heq
  · have heq := hproduct (-1) (Or.inr rfl) hone
    rwa [neg_one_mul] at heq

theorem oppositesFrom_cons (i : Nat) (v : Value) (rest : List Value) :
    oppositesFrom i (v :: rest)
      = oppositesFrom i [v] ++ oppositesFrom (i + 1) rest := rfl

/-- There is one opposite for each value. -/
theorem length_oppositesFrom (i : Nat) (values : List Value) :
    (oppositesFrom i values).length = values.length := by
  induction values generalizing i with
  | nil => rfl
  | cons v rest ih => simp [oppositesFrom, ih]

/-- There is one literal for each value. -/
theorem Spelt.length_eq {values : List Value} {s : Solution}
    (h : Spelt i values s) : s.length = values.length := by
  induction values generalizing i s with
  | nil =>
      cases s with
      | nil => rfl
      | cons l s => cases h
  | cons v values ih =>
      cases s with
      | nil => cases h
      | cons l s =>
          obtain ⟨-, -, hrest⟩ := h
          simp [ih hrest]

/-- The literal of each variable and its opposite. -/
theorem Spelt.rules {values : List Value} {s : Solution} (hi : 0 < i)
    (h : Spelt i values s) (hsigned : ∀ v ∈ values, Signed v) :
    ∀ j v w l, values[j]? = some v → s[j]? = some w →
      (oppositesFrom i values)[j]? = some l →
      v.mul (.int (i + j : Nat)) = .ok w
        ∧ (v.eqInt 1 = .ok true ∧ l = -((i + j : Nat) : Int)
          ∨ v.eqInt (-1) = .ok true ∧ l = (i + j : Nat))
        ∧ ((v.isRounded = true → i + j ≤ 2 ^ 53) →
          w.eqInt (-l) = .ok true) := by
  induction values generalizing i s with
  | nil => intro j v w l hv; cases hv
  | cons v values ih =>
      cases s with
      | nil => cases h
      | cons w s =>
          obtain ⟨-, hmul, hrest⟩ := h
          have hv := hsigned v List.mem_cons_self
          intro j v' w' l hv' hw' hl
          rw [oppositesFrom_cons] at hl
          cases j with
          | zero =>
              cases hv'
              cases hw'
              have hsign : v.eqInt 1 = .ok true ∧ l = -(i : Int)
                  ∨ v.eqInt (-1) = .ok true ∧ l = i := by
                rcases hv.opposite i with ⟨hone, heq⟩ | ⟨hone, heq⟩
                · rw [heq] at hl
                  exact Or.inl ⟨hone, (Option.some.inj hl).symm⟩
                · rw [heq] at hl
                  exact Or.inr ⟨hone, (Option.some.inj hl).symm⟩
              exact ⟨hmul, hsign, hv.negated hi hmul hsign⟩
          | succ j =>
              have hlater := ih (Nat.succ_pos i) hrest
                (fun v hv => hsigned v (List.mem_cons_of_mem _ hv))
                j v' w' l hv' hw' hl
              rwa [Nat.succ_add_eq_add_succ] at hlater

/-- A solution and a clause that come from one reading. -/
theorem rulesOut {r : Reading} {s : Solution} (h : Spelt 1 r.values s)
    (hsigned : ∀ v ∈ r.values, Signed v) : r.RulesOut s where
  solution := h.length_eq
  clause := length_oppositesFrom 1 r.values
  literal j v w l := by
    have hrules := h.rules Nat.one_pos hsigned j v w l
    rwa [Nat.add_comm 1 j] at hrules

/-- Equal questions get equal answers. -/
def Consistent (told : List Exchange) : Prop :=
  ∀ e ∈ told, ∀ e' ∈ told, e.call = e'.call → ∀ v v',
    e.response = .value v → e'.response = .value v' → v = v'

/-- Values that were asked for twice without a contradiction are the
same. -/
theorem eq_of_askedFrom {values values' : List Value} {told : List Exchange}
    (h : Consistent told) (hlength : values.length = values'.length)
    (hin : ∀ e ∈ askedFrom i values, e ∈ told)
    (hin' : ∀ e ∈ askedFrom i values', e ∈ told) : values = values' := by
  induction values generalizing i values' with
  | nil =>
      rw [List.length_nil] at hlength
      exact (List.eq_nil_of_length_eq_zero hlength.symm).symm
  | cons v rest ih =>
      cases values' with
      | nil => cases hlength
      | cons v' rest' =>
          have hv : v = v' :=
            h _ (hin _ List.mem_cons_self) _ (hin' _ List.mem_cons_self)
              rfl v v' rfl rfl
          have hrest := ih (Nat.succ.inj hlength)
            (fun e he => hin e (List.mem_cons_of_mem _ he))
            (fun e he => hin' e (List.mem_cons_of_mem _ he))
          rw [hv, hrest]

/-- Two full readings of an engine that does not change its answers are
one. -/
theorem eq_of_consistent {r r' : Reading} (hr : r.Full) (hr' : r'.Full)
    (h : Consistent (r.asked ++ r'.asked)) : r = r' := by
  have hcount : r.count = r'.count :=
    h ⟨.variableCount, .value r.count⟩ (by simp [asked])
      ⟨.variableCount, .value r'.count⟩ (by simp [asked]) rfl _ _ rfl rfl
  have hlength : r.values.length = r'.values.length := by
    obtain ⟨bound, n, hbound, hn, hlength⟩ := hr
    obtain ⟨bound', n', hbound', hn', hlength'⟩ := hr'
    rw [hcount, hbound', Except.ok.injEq] at hbound
    rw [← hbound, hn', Option.some.injEq] at hn
    rw [hlength, hlength', hn]
  have hin : ∀ e ∈ askedFrom 1 r.values, e ∈ r.asked ++ r'.asked :=
    fun e he => List.mem_append_left _ (List.mem_cons_of_mem _ he)
  have hin' : ∀ e ∈ askedFrom 1 r'.values, e ∈ r.asked ++ r'.asked :=
    fun e he => List.mem_append_right _ (List.mem_cons_of_mem _ he)
  have hvalues := eq_of_askedFrom h hlength hin hin'
  cases r
  cases r'
  simp only at hcount hvalues
  rw [hcount, hvalues]

end Reading

-- ============================================================== sessions

namespace Session

open Recorded Reading

/-- What has been said to the engine of a session. -/
def said (p : Placed (Session (Recorded E))) : List Exchange :=
  p.object.engine.record

/-- The engine of a session has been told so much more and has kept to its
own blocks. Whether the session is destroyed is as it was. -/
structure Heard (own : E → BlockId → Prop) (told : List Exchange)
    (p q : Placed (Session (Recorded E))) : Prop where
  said : said q = said p ++ told
  confined : Confined (owned own) ⟨p.object.engine, p.host⟩
    ⟨q.object.engine, q.host⟩
  destroyed : q.object.destroyed = p.object.destroyed

variable {told more : List Exchange} {p q r : Placed (Session (Recorded E))}

theorem Heard.refl (p : Placed (Session (Recorded E))) :
    Heard own [] p p :=
  ⟨(List.append_nil _).symm, refl_of _ _, rfl⟩

/-- What is said in two parts is said one after the other. -/
theorem Heard.trans (h : Heard own told p q) (h' : Heard own more q r) :
    Heard own (told ++ more) p r where
  said := by rw [h'.said, h.said, List.append_assoc]
  confined := trans_of _ h.confined h'.confined
  destroyed := h'.destroyed.trans h.destroyed

/-- One call of the engine of a session. -/
theorem onEngine_ends {call : Call} {response : α → Response}
    {op : Op E α} (h : Moves (Confined own) op)
    (p : Placed (Session (Recorded E))) :
    Ends (fun a q => Heard own [⟨call, response a⟩] p q)
      (fun f q => Heard own [⟨call, .failed f⟩] p q)
      (onEngine (hear call response op) p) := by
  rw [onEngine, Op.ends_within, ends_hear]
  refine (h _).imp ?_ ?_
  · exact fun a q hq => ⟨rfl, ⟨hq.handed, hq.others, hq.owned⟩, rfl⟩
  · exact fun f q hq => ⟨rfl, ⟨hq.handed, hq.others, hq.owned⟩, rfl⟩

/-- One call that does not fail. -/
theorem onEngine_heard {call : Call} {response : α → Response}
    {op : Op E α} (h : Moves (Confined own) op)
    (p : Placed (Session (Recorded E))) :
    Ends (fun a q => Heard own [⟨call, response a⟩] p q) (fun _ _ => True)
      (onEngine (hear call response op) p) :=
  (onEngine_ends h p).imp (fun _ _ hq => hq) fun _ _ _ => trivial

variable [Engine E]

/-- One search. One that fails has not answered with the code of a
solution. -/
theorem invoke_heard (h : Modest own) (budget : Value)
    {p : Placed (Session (Recorded E))}
    (halive : p.object.destroyed = false) :
    Ends (fun outcome q => ∃ code, Outcome.ofCode code = .ok outcome
        ∧ Heard own [⟨.solve budget, .value code⟩] p q)
      (fun _ q => ∃ response, response ≠ .value (.int 10)
        ∧ said q = said p ++ [⟨.solve budget, response⟩])
      (invoke budget p) := by
  unfold invoke
  rw [Op.read_bind_apply]
  simp only [halive, Bool.false_eq_true, if_false]
  rw [ends_bind]
  refine (onEngine_ends (h.solve budget) p).imp ?_ ?_
  · intro code q hq
    rw [Op.update_bind_apply]
    cases hcode : Outcome.ofCode code with
    | error f =>
        refine ⟨.value code, ?_, hq.said⟩
        rintro hten
        cases hten
        cases hcode
    | ok outcome =>
        refine ⟨code, hcode, hq.said, ?_, hq.destroyed⟩
        exact ⟨hq.confined.handed, hq.confined.others, hq.confined.owned⟩
  · exact fun f q hq => ⟨.failed f, by simp, hq.said⟩

/-- One question for the value of a variable. -/
theorem polarity_reads (h : Modest own) (i : Nat)
    (p : Placed (Session (Recorded E))) :
    Ends (fun v q => v.Polar ∧ Heard own (askedFrom i [v]) p q)
      (fun _ _ => True) (polarity i p) := by
  unfold polarity
  rw [ends_bind]
  refine (onEngine_heard (h.valueOf _) p).imp_answer ?_
  intro v q hq
  rw [ends_bind]
  refine ends_settle fun positive hpositive => ?_
  cases positive with
  | true => exact ⟨Or.inl hpositive, hq⟩
  | false =>
      simp only [Bool.false_eq_true, if_false, ends_bind]
      refine ends_settle fun negative hnegative => ?_
      cases negative with
      | true => exact ⟨Or.inr hnegative, hq⟩
      | false => trivial

-- ======================================================== the solution

/-- The literals of some variables are read one after the other. -/
theorem collect_reads (h : Modest own) :
    ∀ (count first : Nat) (p : Placed (Session (Recorded E))),
      Ends (fun literals q => ∃ values, values.length = count
          ∧ Spelt first values literals
          ∧ Heard own (askedFrom first values) p q)
        (fun _ _ => True) (Op.collect signedVariable count first p) := by
  intro count
  induction count with
  | zero => exact fun first p => ⟨[], rfl, trivial, .refl p⟩
  | succ count ih =>
      intro first p
      simp only [Op.collect, signedVariable, ends_bind]
      refine (polarity_reads h first p).imp_answer ?_
      rintro v q ⟨hpolar, hq⟩
      refine ends_settle fun l hl => ?_
      refine (ih (first + 1) q).imp_answer ?_
      rintro literals r ⟨values, hlength, hspelt, hr⟩
      refine ⟨v :: values, by simp [hlength], ⟨hpolar, hl, hspelt⟩, ?_⟩
      exact hq.trans hr

omit [Engine E] in
/-- What counts the variables below a bound is a whole number. -/
theorem variablesBelow_ends (bound : Value)
    (p : Placed (Session (Recorded E))) :
    Ends (fun count q => q = p
        ∧ ∃ n, bound.whole? = some n ∧ count = (n - 1).toNat)
      (fun _ _ => True) (variablesBelow bound p) := by
  unfold variablesBelow
  cases hwhole : bound.whole? with
  | none => trivial
  | some n => exact ⟨rfl, n, rfl, rfl⟩

omit [Engine E] in
/-- The guard lets through or not, and changes nothing. -/
theorem requireModel_ends (p : Placed (Session (Recorded E))) :
    Ends (fun _ q => q = p) (fun _ _ => True) (requireModel p) := by
  unfold requireModel
  rw [Op.read_bind_apply]
  split
  · trivial
  · simp only [ends_ite]
    split
    · trivial
    · rfl

/-- A solution is made of what the engine has said in one full reading. -/
theorem decode_reads (h : Modest own) (p : Placed (Session (Recorded E))) :
    Ends (fun s q => ∃ r : Reading, r.Full ∧ Spelt 1 r.values s
        ∧ Heard own r.asked p q)
      (fun _ _ => True) (decode p) := by
  unfold decode
  simp only [ends_bind]
  refine (requireModel_ends p).imp_answer ?_
  rintro _ _ rfl
  refine (onEngine_heard h.variableCount _).imp_answer ?_
  intro n q hq
  refine ends_settle fun bound hbound => ?_
  refine (variablesBelow_ends bound q).imp_answer ?_
  rintro count _ ⟨rfl, m, hm, rfl⟩
  refine (collect_reads h _ 1 _).imp_answer ?_
  rintro s r ⟨values, hlength, hspelt, hr⟩
  refine ⟨⟨n, values⟩, ⟨bound, m, hbound, hm, hlength⟩, hspelt, ?_⟩
  exact hq.trans hr

-- ========================================================== the buffer

omit [Engine E] in
/-- As `Heard`, with a buffer that holds some bytes behind it. -/
structure Buffering (own : E → BlockId → Prop) (b : BlockId)
    (bytes : List UInt8) (told : List Exchange)
    (p q : Placed (Session (Recorded E))) : Prop where
  said : said q = said p ++ told
  destroyed : q.object.destroyed = p.object.destroyed
  holds : Holds (owned own) b bytes q

variable {b : BlockId} {bytes bytes' : List UInt8}

omit [Engine E] in
/-- A part that leaves the buffer alone. -/
theorem Heard.buffering (h : Heard own told p q)
    (hp : Holds (owned own) b bytes p) : Buffering own b bytes told p q :=
  ⟨h.said, h.destroyed, hp.confined h.confined⟩

omit [Engine E] in
/-- One part after the other, with the bytes of the second. -/
theorem Buffering.trans (h : Buffering own b bytes told p q)
    (h' : Buffering own b bytes' more q r) :
    Buffering own b bytes' (told ++ more) p r where
  said := by rw [h'.said, h.said, List.append_assoc]
  destroyed := h'.destroyed.trans h.destroyed
  holds := h'.holds

/-- The byte for the polarity that a value says. -/
def mark (v : Value) : UInt8 := if v.isAbove then 1 else 0

/-- The polarity of one variable more is noted. -/
theorem notePolarity_notes (h : Modest own)
    (hp : Holds (owned own) b bytes p) :
    Ends (fun _ q => ∃ v, Signed v ∧ Buffering own b (bytes ++ [mark v])
          (askedFrom (bytes.length + 1) [v]) p q)
      (fun _ _ => True) (notePolarity b (bytes.length + 1) p) := by
  unfold notePolarity
  rw [ends_bind]
  refine (polarity_reads h _ p).imp_answer ?_
  rintro v q ⟨hpolar, hq⟩
  have hnoted := hq.buffering hp
  rw [ends_bind]
  refine ends_settle fun above habove => ?_
  have hmark : mark v = if above then 1 else 0 := by
    simp only [mark, Value.isAbove, habove]
  rw [← hmark]
  refine (hnoted.holds.poked (mark v)).imp ?_ fun _ _ _ => trivial
  rintro _ r ⟨hholds, hobject⟩
  refine ⟨v, ⟨hpolar, above, habove⟩, ?_, ?_, hholds⟩
  · rw [← hnoted.said, said, hobject]
    rfl
  · rw [hobject]
    exact hnoted.destroyed

/-- The polarities of some variables are noted one after the other. -/
theorem each_notes (h : Modest own) :
    ∀ (count : Nat) (bytes : List UInt8)
      (p : Placed (Session (Recorded E))), Holds (owned own) b bytes p →
      Ends (fun _ q => ∃ values, values.length = count
          ∧ (∀ v ∈ values, Signed v)
          ∧ Buffering own b (bytes ++ values.map mark)
              (askedFrom (bytes.length + 1) values) p q)
        (fun _ _ => True)
        (Op.each (notePolarity b) count (bytes.length + 1) p) := by
  intro count
  induction count with
  | zero =>
      intro bytes p hp
      refine ⟨[], rfl, by simp, ?_⟩
      rw [List.map_nil, List.append_nil]
      exact (Heard.refl p).buffering hp
  | succ count ih =>
      intro bytes p hp
      simp only [Op.each, ends_bind]
      refine (notePolarity_notes h hp).imp_answer ?_
      rintro _ q ⟨v, hsigned, hq⟩
      have hrest := ih _ q hq.holds
      rw [List.length_append, List.length_singleton] at hrest
      refine hrest.imp_answer ?_
      rintro _ r ⟨values, hlength, hall, hr⟩
      refine ⟨v :: values, by simp [hlength], ?_, ?_⟩
      · intro w hw
        rcases List.mem_cons.mp hw with rfl | hw
        · exact hsigned
        · exact hall w hw
      · rw [List.map_cons, List.append_cons]
        exact hq.trans hr

-- ========================================================== the clause

/-- The literal that is false in what was noted of a variable. -/
theorem addOpposite_adds (h : Modest own) {done : List UInt8}
    {v : Value} {rest : List Value}
    (hp : Holds (owned own) b (done ++ (v :: rest).map mark) p) :
    Ends (fun _ q => Heard own
        (adding (oppositesFrom (done.length + 1) [v])) p q)
      (fun _ _ => True) (addOpposite b (done.length + 1) p) := by
  have hbyte : p.host.heap.byte? b (done.length + 1) = some (mark v) := by
    rw [hp.bytes done.length (by simp)]
    simp
  have hliteral : (if mark v ≠ 0 then -((done.length + 1 : Nat) : Int)
      else ((done.length + 1 : Nat) : Int))
      = if v.isAbove then -((done.length + 1 : Nat) : Int)
        else ((done.length + 1 : Nat) : Int) := by
    unfold mark
    cases v.isAbove <;> rfl
  unfold addOpposite
  simp only [ends_bind, ends_get, hbyte, hliteral]
  exact onEngine_heard (h.addLiteral _) p

/-- The opposite literals of some variables are handed over one after the
other. -/
theorem each_adds (h : Modest own) :
    ∀ (values : List Value) (done : List UInt8)
      (p : Placed (Session (Recorded E))),
      Holds (owned own) b (done ++ values.map mark) p →
      Ends (fun _ q => Heard own
          (adding (oppositesFrom (done.length + 1) values)) p q)
        (fun _ _ => True)
        (Op.each (addOpposite b) values.length (done.length + 1) p) := by
  intro values
  induction values with
  | nil => exact fun done p _ => Heard.refl p
  | cons v rest ih =>
      intro done p hp
      simp only [List.length_cons, Op.each, ends_bind]
      refine (addOpposite_adds h hp).imp_answer ?_
      intro _ q hq
      have hholds := hp.confined hq.confined
      rw [List.map_cons, List.append_cons] at hholds
      have hrest := ih _ q hholds
      rw [List.length_append, List.length_singleton] at hrest
      exact hrest.imp_answer fun _ r hr => hq.trans hr

/-- The clause that rules an assignment out is made of what the engine has
said in one full reading. -/
theorem block_reads (h : Modest own) {scratch : Option BlockId}
    (hbounded : Bounded (owned own) ⟨p.object.engine, p.host⟩)
    (hscratch : ∀ b, scratch = some b → Holds (owned own) b [] p) :
    Ends (fun b q => ∃ r : Reading, r.Full ∧ (∀ v ∈ r.values, Signed v)
        ∧ Buffering own b [] (r.asked ++ r.blocking) p q)
      (fun _ _ => True) (block scratch p) := by
  unfold block
  simp only [ends_bind]
  refine (requireModel_ends p).imp_answer ?_
  rintro _ p rfl
  refine (onEngine_heard h.variableCount _).imp_answer ?_
  intro n q hq
  refine ends_settle fun bound hbound => ?_
  refine (scratchFor_holds (hbounded.confined hq.confined)
    (fun b hb => (hscratch b hb).confined hq.confined) bound).imp_answer ?_
  rintro b q' ⟨hholds, hobject⟩
  refine (variablesBelow_ends bound q').imp_answer ?_
  rintro count q₁ ⟨rfl, m, hm, rfl⟩
  refine (each_notes h _ [] q₁ hholds).imp_answer ?_
  rintro _ q₂ ⟨values, hlength, hsigned, hq₂⟩
  rw [← hlength]
  refine (each_adds h values [] q₂ hq₂.holds).imp_answer ?_
  intro _ q₃ hq₃
  refine (onEngine_heard h.terminateClause q₃).imp_answer ?_
  intro _ q₄ hq₄
  have hclause := (hq₃.trans hq₄).buffering hq₂.holds
  have hfirst : Buffering own b [] [⟨.variableCount, .value n⟩] p q₁ := by
    refine ⟨?_, ?_, hholds⟩
    · rw [← hq.said, said, hobject]
      rfl
    · rw [hobject]
      exact hq.destroyed
  have hall := (hfirst.trans hq₂).trans hclause
  refine ⟨⟨n, values⟩, ⟨bound, m, hbound, hm, hlength⟩, hsigned, ?_⟩
  refine ⟨?_, hall.destroyed, hall.holds.forget⟩
  rw [hall.said, blocking_eq]
  rfl

end Session

end SatSession
