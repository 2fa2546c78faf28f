/-
Sessions and cursors, in two memories.

A session differs from its counterpart in the engine alone, and a cursor
besides in the number of its buffer. What a session asks of its engine it
asks on both sides, so that each operation follows from those of the
engine, and a buffer that is taken on the way stands for the one that is
taken on the other side.
-/
import SatSession.Proofs.Sharing.Tables
import SatSession.Solve

namespace SatSession

open TableEngine

variable {places : Places} {α β : Type} {A : Places → α → β → Prop}

/-- Sessions over engines that are alike. -/
instance {E : Type} [Lodger E] : Lodger (Session E) where
  Like places s' s := ∃ engine, s' = { s with engine := engine }
    ∧ Lodger.Like places engine s.engine
  mono hle h := by
    obtain ⟨engine, heq, hengine⟩ := h
    exact ⟨engine, heq, Lodger.mono hle hengine⟩

/-- Buffers that stand for each other, or none on both sides. -/
theorem Stands.mono_option {here : Places} {b own : Option BlockId}
    (h : Option.Rel (Stands places) b own) (hle : places <+: here) :
    Option.Rel (Stands here) b own := by
  cases h with
  | none => exact .none
  | some h => exact .some (h.mono hle)

/-- Cursors over sessions that are alike, with buffers of their own. -/
instance {E : Type} [Lodger E] : Lodger (Cursor E) where
  Like places c' c := ∃ session scratch,
    c' = { c with session := session, scratch := scratch }
      ∧ Lodger.Like places session c.session
      ∧ Option.Rel (Stands places) scratch c.scratch
  mono hle h := by
    obtain ⟨session, scratch, heq, hsession, hscratch⟩ := h
    exact ⟨session, scratch, heq, Lodger.mono hle hsession,
      Stands.mono_option hscratch hle⟩

namespace Session

-- ============================================================ invocations

/-- Sessions that are alike have engines that are. -/
theorem onEngine_tuned {op : Op TableEngine α} {op' : Op TableEngine β}
    (h : Tuned A places op op') :
    Tuned A places (onEngine op) (onEngine op') := by
  refine h.within ?_ ?_
  · intro here x y _ hxy
    obtain ⟨engine, rfl, hengine⟩ := hxy
    exact hengine
  · intro here x y u v _ hxy huv
    obtain ⟨engine, rfl, -⟩ := hxy
    exact ⟨u, rfl, huv⟩

/-- A change that leaves the engine alone and does not look at it. -/
theorem update_tuned {g : Session TableEngine → Session TableEngine}
    (hg : ∀ (s : Session TableEngine) engine,
      g { s with engine := engine } = { g s with engine := engine }
        ∧ (g s).engine = s.engine) :
    Tuned Agree places (Op.update g) (Op.update g) := by
  refine .update fun here x y _ hxy => ?_
  obtain ⟨engine, rfl, hengine⟩ := hxy
  obtain ⟨heq, hsame⟩ := hg y engine
  exact ⟨engine, heq, hsame ▸ hengine⟩

/-- Both engines search the same problem, so the outcomes and what is noted
of them are the same. -/
theorem invoke_tuned (budget : Value) :
    Tuned Agree places
      (invoke budget : Op (Session TableEngine) Outcome)
      (invoke budget) := by
  unfold invoke
  refine .read_bind fun here x y _ hxy => ?_
  obtain ⟨engine, rfl, -⟩ := hxy
  refine .ite (fun _ => .throw _) fun _ => ?_
  refine (onEngine_tuned (solve_tuned budget)).then fun code => ?_
  refine .then (update_tuned fun _ _ => ⟨rfl, rfl⟩) fun _ => ?_
  cases Outcome.ofCode code with
  | error _ =>
      refine .then (update_tuned fun _ _ => ⟨rfl, rfl⟩) fun _ => ?_
      exact .throw _
  | ok outcome =>
      refine .then (update_tuned fun _ _ => ⟨rfl, rfl⟩) fun _ => ?_
      refine .read_bind fun here x y _ hxy => ?_
      obtain ⟨engine, rfl, -⟩ := hxy
      exact (Host.note_tuned _).onHost.then fun _ => .answer _

/-- The guard looks at nothing that depends on places. -/
theorem requireModel_tuned :
    Tuned Agree places (requireModel : Op (Session TableEngine) Unit)
      requireModel := by
  unfold requireModel
  refine .read_bind fun here x y _ hxy => ?_
  obtain ⟨engine, rfl, -⟩ := hxy
  refine .ite (fun _ => .throw _) fun _ => ?_
  exact .ite (fun _ => .throw _) fun _ => .answer ()

/-- Each side resets its own engine, once. -/
theorem destroy_tuned :
    Tuned Agree places (destroy : Op (Session TableEngine) Unit)
      destroy := by
  unfold destroy
  refine .read_bind fun here x y _ hxy => ?_
  obtain ⟨engine, rfl, -⟩ := hxy
  refine .ite (fun _ => .answer ()) fun _ => ?_
  refine .then (update_tuned fun _ _ => ⟨rfl, rfl⟩) fun _ => ?_
  refine (onEngine_tuned reset_tuned).then fun _ => ?_
  refine .read_bind fun here x y _ hxy => ?_
  obtain ⟨engine, rfl, -⟩ := hxy
  exact (Host.note_tuned _).onHost

-- ================================================================ opening

/-- The literals are handed over one by one to either engine. -/
theorem loadClause_tuned (literals : List Int) :
    Tuned Agree places (loadClause literals : Op TableEngine Unit)
      (loadClause literals) :=
  (Tuned.forM (fun l => addLiteral_tuned l) literals).then
    fun _ => terminateClause_tuned

/-- A clause is admitted or refused for itself, before the memory comes
into it. -/
theorem loadNext_tuned (count : Nat) (clause : Value) :
    Tuned Agree places (loadNext count clause : Op TableEngine Nat)
      (loadNext count clause) := by
  unfold loadNext
  cases Clause.validate clause (.int count) with
  | error f => exact .throw f
  | ok literals =>
      exact (loadClause_tuned literals).then fun _ => .answer _

/-- The loading stops at the same clause on both sides. -/
theorem loadClauses_tuned (v : Value) :
    Tuned Agree places (loadClauses v : Op TableEngine Nat)
      (loadClauses v) := by
  unfold loadClauses
  cases v.sequence? with
  | none => exact .throw _
  | some items =>
      simp only [Items.foldlM_eq]
      exact Tuned.foldlM loadNext_tuned _ 0

/-- What is printed is written from equal stores. -/
theorem load_tuned (config : Config) (v : Value) :
    Tuned Agree places (load config v : Op TableEngine Nat)
      (load config v) := by
  unfold load
  refine .then (TableEngine.update_tuned fun _ _ _ => ⟨rfl, rfl, rfl⟩)
    fun _ => ?_
  refine .when (fun _ => reserveVariables_tuned config.vars) ?_
  refine .when (fun _ =>
    TableEngine.update_tuned fun _ _ _ => ⟨rfl, rfl, rfl⟩) ?_
  refine (loadClauses_tuned v).then fun count => ?_
  refine .ite (fun _ => ?_) fun _ => .answer _
  refine writeProblem_tuned.then fun text => ?_
  exact (Host.print_tuned text).onHost.then fun _ => .answer _

/-- Both engines are reset, or both are counted. -/
theorem prepare_tuned (config : Config) (v : Value) :
    Tuned Agree places (prepare config v : Op TableEngine Unit)
      (prepare config v) := by
  unfold prepare
  refine ((load_tuned config v).orRelease reset_tuned).then fun count => ?_
  refine variableCount_tuned.bind fun _ _ m n hmn => ?_
  obtain ⟨n, rfl, rfl⟩ := hmn
  rw [Host.noteCreated_int]
  exact (Host.note_tuned _).onHost

/-- Sessions that are made of engines alike are alike. -/
theorem create_tuned (search : Search) (config : Config) (v : Value) :
    Tuned Lodger.Like places (create (TableEngine.create search) config v)
      (create (TableEngine.create search) config v) := by
  unfold create
  refine (TableEngine.create_tuned search).bind fun _ _ e e' he => ?_
  refine (Tuned.on he (prepare_tuned config v)).bind fun _ _ a b hab => ?_
  exact .pure fun _ hle => ⟨_, rfl, Lodger.mono hle hab.2⟩

-- ============================================================== solutions

/-- Both engines show the same value of a variable, or none. -/
theorem polarity_tuned (index : Nat) :
    Tuned Agree places
      (polarity index : Op (Session TableEngine) Value)
      (polarity index) := by
  unfold polarity
  refine (onEngine_tuned (valueOf_tuned _)).then fun v => ?_
  refine .settle_bind fun _ _ => .ite (fun _ => .answer v) fun _ => ?_
  refine .settle_bind fun _ _ => .ite (fun _ => .answer v) fun _ => ?_
  exact .throw _

theorem variablesBelow_tuned (bound : Value) :
    Tuned Agree places
      (variablesBelow bound : Op (Session TableEngine) Nat)
      (variablesBelow bound) := by
  unfold variablesBelow
  cases bound.whole? with
  | some n => exact .answer _
  | none => exact .throw _

/-- The same solution is read on both sides. -/
theorem decode_tuned :
    Tuned Agree places (decode : Op (Session TableEngine) Solution)
      decode := by
  unfold decode
  refine requireModel_tuned.then fun _ => ?_
  refine (onEngine_tuned variableCount_tuned).bind fun _ _ m n hmn => ?_
  obtain ⟨n, rfl, rfl⟩ := hmn
  refine .settle_bind fun bound _ => ?_
  refine (variablesBelow_tuned bound).then fun count => ?_
  refine Tuned.collect (fun index => ?_) count 1
  exact (polarity_tuned index).then fun _ => .settle _

variable {b own : BlockId}

/-- The buffers that are used on both sides stand for each other. -/
theorem scratchFor_tuned {scratch scratch' : Option BlockId}
    (h : Option.Rel (Stands places) scratch scratch') (n : Nat) :
    Tuned Stands places
      (scratchFor scratch (.int n) : Op (Session TableEngine) BlockId)
      (scratchFor scratch' (.int n)) := by
  unfold scratchFor
  cases h with
  | none =>
      refine (Host.alloc_tuned n).onHost.bind fun _ _ b own hb => ?_
      cases hb with
      | none => exact .throw _
      | some hb => exact .pure fun _ hle => hb.mono hle
  | some hb =>
      have hkeep : ∀ {here : Places}, places <+: here →
          Tuned Stands here (pure _ : Op (Session TableEngine) BlockId)
            (pure _) := fun hle =>
        .pure fun _ hmore => hb.mono (hle.trans hmore)
      refine .get_bind fun _ s t hle hst => ?_
      dsimp only
      rw [hst.placed.size_eq (hb.mono hle)]
      refine .settle_bind fun _ _ => .ite (fun _ => ?_) fun _ => hkeep hle
      exact Host.growth_tuned (hb.mono hle) _ n _ (hkeep hle)

/-- Each side notes the polarity in its own block. -/
theorem notePolarity_tuned (hb : Stands places b own) (index : Nat) :
    Tuned Agree places
      (notePolarity b index : Op (Session TableEngine) Unit)
      (notePolarity own index) := by
  unfold notePolarity
  refine (polarity_tuned index).then fun v => .settle_bind fun _ _ => ?_
  exact (Heap.poke_tuned hb index _).onHeap.onHost

/-- Each side reads the byte in its own block, where it is the same. -/
theorem addOpposite_tuned (hb : Stands places b own) (index : Nat) :
    Tuned Agree places
      (addOpposite b index : Op (Session TableEngine) Unit)
      (addOpposite own index) := by
  unfold addOpposite
  refine .get_bind fun _ s t hle hst => ?_
  rw [hst.placed.byte?_eq (hb.mono hle)]
  cases t.host.heap.byte? own index with
  | none => exact .throw _
  | some byte => exact onEngine_tuned (addLiteral_tuned _)

/-- Each side ends with its own scratch block, and these stand for each
other. -/
theorem block_tuned {scratch scratch' : Option BlockId}
    (h : Option.Rel (Stands places) scratch scratch') :
    Tuned Stands places
      (block scratch : Op (Session TableEngine) BlockId)
      (block scratch') := by
  unfold block
  refine requireModel_tuned.then fun _ => ?_
  refine (onEngine_tuned variableCount_tuned).bind fun _ hle m n hmn => ?_
  obtain ⟨n, rfl, rfl⟩ := hmn
  refine .settle_bind fun bytes hbytes => ?_
  obtain rfl : Value.int (n + 1 : Nat) = bytes := Except.ok.inj hbytes
  refine (scratchFor_tuned (Stands.mono_option h hle) _).bind
    fun _ _ b own hb => ?_
  refine (variablesBelow_tuned _).then fun count => ?_
  refine (Tuned.each (notePolarity_tuned hb) count 1).then fun _ => ?_
  refine (Tuned.each (addOpposite_tuned hb) count 1).then fun _ => ?_
  refine (onEngine_tuned terminateClause_tuned).then fun _ => ?_
  exact .pure fun _ hle => hb.mono hle

end Session

-- ================================================================ cursors

/-- Settings have nothing to do with memory. -/
theorem checkedConfig_tuned (vars verbose propLimit : Value) :
    Tuned Agree places (checkedConfig vars verbose propLimit)
      (checkedConfig vars verbose propLimit) := by
  unfold checkedConfig
  cases Config.build vars verbose propLimit with
  | ok config => exact .answer config
  | error f => exact .throw f

namespace Cursor

/-- Cursors over sessions alike are alike; neither has a scratch block
yet. -/
theorem enumerate_tuned (search : Search)
    (v vars verbose propLimit : Value) :
    Tuned Lodger.Like places
      (enumerate (TableEngine.create search) v vars verbose propLimit)
      (enumerate (TableEngine.create search) v vars verbose propLimit) := by
  unfold enumerate
  refine (checkedConfig_tuned _ _ _).then fun config => ?_
  refine (Session.create_tuned search config v).bind fun _ _ s t hst => ?_
  exact .pure fun _ hle =>
    ⟨s, none, rfl, Lodger.mono hle hst, .none⟩

/-- Cursors that are alike have sessions that are. -/
theorem onSession_tuned {op : Op (Session TableEngine) α}
    {op' : Op (Session TableEngine) β} (h : Tuned A places op op') :
    Tuned A places (onSession op) (onSession op') := by
  refine h.within ?_ ?_
  · intro here x y _ hxy
    obtain ⟨session, scratch, rfl, hsession, -⟩ := hxy
    exact hsession
  · intro here x y u v _ hxy huv
    obtain ⟨session, scratch, rfl, -, hscratch⟩ := hxy
    exact ⟨u, scratch, rfl, huv, hscratch⟩

/-- A change that leaves the session and the buffer alone and looks at
neither. -/
theorem update_tuned {g : Cursor TableEngine → Cursor TableEngine}
    (hg : ∀ (c : Cursor TableEngine) session scratch,
      g { c with session := session, scratch := scratch }
          = { g c with session := session, scratch := scratch }
        ∧ (g c).session = c.session ∧ (g c).scratch = c.scratch) :
    Tuned Agree places (Op.update g) (Op.update g) := by
  refine .update fun here x y _ hxy => ?_
  obtain ⟨session, scratch, rfl, hsession, hscratch⟩ := hxy
  obtain ⟨heq, hsame, hsame'⟩ := hg y session scratch
  exact ⟨session, scratch, heq, hsame ▸ hsession, hsame' ▸ hscratch⟩

/-- Each side gives its own block back, or has none. -/
theorem releaseScratch_tuned :
    Tuned Agree places (releaseScratch : Op (Cursor TableEngine) Unit)
      releaseScratch := by
  unfold releaseScratch
  refine .read_bind fun here x y _ hxy => ?_
  obtain ⟨session, scratch, rfl, -, hscratch⟩ := hxy
  dsimp only
  generalize y.scratch = own at hscratch ⊢
  cases hscratch with
  | none => exact .answer ()
  | some hb =>
      have hforget : Tuned Agree here
          (Op.update fun c : Cursor TableEngine =>
            { c with scratch := none })
          (Op.update fun c => { c with scratch := none }) := by
        refine .update fun _ x y _ hxy => ?_
        obtain ⟨session, scratch, rfl, hsession, -⟩ := hxy
        exact ⟨session, none, rfl, hsession, .none⟩
      refine hforget.then fun _ => .get_bind fun _ s t hle hst => ?_
      rw [hst.placed.size_eq (hb.mono hle)]
      exact (Host.free_tuned (hb.mono hle) _).onHost

/-- Both cursors are closed, whatever becomes of the scratch blocks. -/
theorem close_tuned :
    Tuned Agree places (close : Op (Cursor TableEngine) Unit) close := by
  unfold close
  refine .read_bind fun here x y _ hxy => ?_
  obtain ⟨session, scratch, rfl, -, -⟩ := hxy
  refine .ite (fun _ => .answer ()) fun _ => ?_
  refine .then (update_tuned fun _ _ _ => ⟨rfl, rfl, rfl⟩) fun _ => ?_
  exact releaseScratch_tuned.thenAlways
    (onSession_tuned Session.destroy_tuned)

/-- Outcome and solution are the same, and each cursor keeps its own
scratch block. -/
theorem advance_tuned :
    Tuned Agree places
      (advance : Op (Cursor TableEngine) (Outcome × Option Solution))
      advance := by
  unfold advance
  refine (onSession_tuned (Session.invoke_tuned _)).then fun outcome => ?_
  refine .ite (fun _ => ?_) fun _ => .answer _
  refine (onSession_tuned Session.decode_tuned).then fun solution => ?_
  refine .read_bind fun here x y _ hxy => ?_
  obtain ⟨session, scratch, rfl, -, hscratch⟩ := hxy
  refine (onSession_tuned (Session.block_tuned hscratch)).bind
    fun _ _ b own hb => ?_
  refine .then (.update fun _ x y hle hxy => ?_) fun _ => .answer _
  obtain ⟨session, scratch, rfl, hsession, -⟩ := hxy
  exact ⟨session, some b, rfl, hsession, .some (hb.mono hle)⟩

/-- Both cursors produce the same list, or are closed both. -/
theorem next_tuned :
    Tuned Agree places
      (next : Op (Cursor TableEngine) (Option Solution)) next := by
  unfold next
  refine .read_bind fun here x y _ hxy => ?_
  obtain ⟨session, scratch, rfl, -, -⟩ := hxy
  refine .ite (fun _ => .answer none) fun _ => ?_
  refine (advance_tuned.orRelease close_tuned).then fun found => ?_
  obtain ⟨outcome, solution⟩ := found
  cases solution with
  | some solution => exact .answer _
  | none =>
      refine .read_bind fun here x y _ hxy => ?_
      obtain ⟨session, scratch, rfl, -, -⟩ := hxy
      refine (Host.note_tuned _).onHost.then fun _ => ?_
      refine .then (update_tuned fun _ _ _ => ⟨rfl, rfl, rfl⟩) fun _ => ?_
      exact close_tuned.then fun _ => .answer none

end Cursor

end SatSession
