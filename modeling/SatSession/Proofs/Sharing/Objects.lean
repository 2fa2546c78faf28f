/-
Objects that share a memory, and what they ask their hosts.

The rules for operations on objects stand first: an operation on the host,
on an inner object, one with a release behind it. Then come the primitives.
A generous host grants whatever it is asked, so that an answer tells
nothing of how much else the memory holds, and a block that stands for
another one has its size: a request that misstates it fails on both sides.
-/
import SatSession.Proofs.Refusals.Requests
import SatSession.Proofs.Sharing.Lodging

namespace SatSession

open Lodging

variable {places : Places}

section

variable {σ τ α β : Type} [Lodger σ] [Lodger τ]
  {A : Places → α → β → Prop}

-- ======================================================== from outside

/-- Two runs seen from outside end alike as they do inside. -/
theorem Meet.lift {S T α' β' : Type} [Lodging S] [Lodging T] {s t : S}
    {s' t' : T} {A' : Places → α' → β' → Prop} {emb emb' : S → T}
    {wrap : α → S → α'} {wrap' : β → S → β'}
    {r : EStateM.Result Fault S α} {r' : EStateM.Result Fault S β}
    (hreach : ∀ more u v, Reached places more s t u v →
      Reached places more s' t' (emb u) (emb' v))
    (hanswer : ∀ more a b u v, A (places ++ more) a b →
      Alike (places ++ more) u v →
      A' (places ++ more) (wrap a u) (wrap' b v))
    (h : Meet A places s t r r') :
    Meet A' places s' t' (lifted wrap emb r) (lifted wrap' emb' r') := by
  rcases h.ends with ⟨a, b, u, v, more, rfl, rfl, hA, hreached⟩
    | ⟨f, u, v, more, rfl, rfl, hreached⟩
  · exact ⟨more, hanswer more a b u v hA hreached.alike,
      hreach more u v hreached⟩
  · exact ⟨rfl, more, hreach more u v hreached⟩

/-- An operation on the memory of a host. -/
theorem Tuned.onHeap {op : HeapOp α} {op' : HeapOp β}
    (h : Tuned A places op op') :
    Tuned A places (Host.onHeap op) (Host.onHeap op') := by
  intro here s t hle hst
  have hrun : ∀ {γ : Type} (op : HeapOp γ) (host : Host),
      Host.onHeap op host = lifted (fun a _ => a)
        (fun heap => { host with heap := heap }) (op host.heap) :=
    fun op host => by
      simp only [Host.onHeap]
      cases op host.heap <;> rfl
  have hheaps : Alike here s.heap t.heap :=
    ⟨hst.shared.lavish, hst.alone.lavish, hst.lodged, trivial⟩
  rw [hrun, hrun]
  refine Meet.lift ?_ (fun _ _ _ _ _ hA _ => hA) (h here _ _ hle hheaps)
  intro more u v hreached
  have halike := hreached.alike
  exact ⟨⟨hst.shared.withHeap halike.shared, hst.alone.withHeap halike.alone,
    halike.lodged, trivial⟩, hreached.beside⟩

/-- An operation on the host of an object. -/
theorem Tuned.onHost {op : HostOp α} {op' : HostOp β}
    (h : Tuned A places op op') :
    Tuned A places (Op.onHost op : Op σ α) (Op.onHost op' : Op σ β) := by
  intro here s t hle hst
  have hrun : ∀ {γ : Type} (op : HostOp γ) (p : Placed σ),
      Op.onHost op p = lifted (fun a _ => a) (Placed.mk p.object)
        (op p.host) := fun op p => by
    simp only [Op.onHost]
    cases op p.host <;> rfl
  have hhosts : Alike here s.host t.host :=
    ⟨hst.shared, hst.alone, hst.lodged, trivial⟩
  rw [hrun, hrun]
  refine Meet.lift ?_ (fun _ _ _ _ _ hA _ => hA) (h here _ _ hle hhosts)
  intro more u v hreached
  have halike := hreached.alike
  exact ⟨⟨halike.shared, halike.alone, halike.lodged,
    Lodger.mono (List.prefix_append ..) hst.like⟩, hreached.beside⟩

/-- An operation on an inner object. -/
theorem Tuned.within {get get' : τ → σ} {put put' : σ → τ → τ}
    {op : Op σ α} {op' : Op σ β} (h : Tuned A places op op')
    (hget : ∀ here x y, places <+: here → Lodger.Like here x y →
      Lodger.Like here (get x) (get' y))
    (hput : ∀ here x y u v, places <+: here → Lodger.Like here x y →
      Lodger.Like here u v → Lodger.Like here (put u x) (put' v y)) :
    Tuned A places (Op.within get put op) (Op.within get' put' op') := by
  intro here s t hle hst
  have hrun : ∀ {γ : Type} (get : τ → σ) (put : σ → τ → τ) (op : Op σ γ)
      (p : Placed τ), Op.within get put op p
        = lifted (fun a _ => a) (fun q => ⟨put q.object p.object, q.host⟩)
          (op ⟨get p.object, p.host⟩) := fun get put op p => by
    simp only [Op.within]
    cases op ⟨get p.object, p.host⟩ <;> rfl
  have hinner : Alike here (⟨get s.object, s.host⟩ : Placed σ)
      ⟨get' t.object, t.host⟩ :=
    ⟨hst.shared, hst.alone, hst.lodged, hget here _ _ hle hst.like⟩
  rw [hrun, hrun]
  refine Meet.lift ?_ (fun _ _ _ _ _ hA _ => hA) (h here _ _ hle hinner)
  intro more u v hreached
  have halike := hreached.alike
  have hmore : here <+: here ++ more := List.prefix_append ..
  exact ⟨⟨halike.shared, halike.alone, halike.lodged,
    hput _ _ _ _ _ (hle.trans hmore) (Lodger.mono hmore hst.like)
      halike.like⟩, hreached.beside⟩

/-- An operation on objects that are handed back with the answers. -/
theorem Tuned.on {x y : σ} {op : Op σ α} {op' : Op σ β}
    (hxy : Lodger.Like places x y) (h : Tuned A places op op') :
    Tuned (fun here a b => A here a.1 b.1 ∧ Lodger.Like here a.2 b.2) places
      (Op.on x op) (Op.on y op') := by
  intro here s t hle hst
  have hrun : ∀ {γ : Type} (x : σ) (op : Op σ γ) (host : Host),
      Op.on x op host = lifted (fun a p => (a, p.object)) Placed.host
        (op ⟨x, host⟩) := fun x op host => by
    simp only [Op.on]
    cases op ⟨x, host⟩ <;> rfl
  have hplaced : Alike here (⟨x, s⟩ : Placed σ) ⟨y, t⟩ :=
    ⟨hst.shared, hst.alone, hst.lodged, Lodger.mono hle hxy⟩
  rw [hrun, hrun]
  refine Meet.lift ?_ (fun _ _ _ _ _ hA hq => ⟨hA, hq.like⟩)
    (h here _ _ hle hplaced)
  intro more u v hreached
  have halike := hreached.alike
  exact ⟨⟨halike.shared, halike.alone, halike.lodged, trivial⟩,
    hreached.beside⟩

-- ============================================================= objects

/-- An operation that looks at its object. -/
theorem Tuned.read_bind {f g : σ → Op σ α}
    {A : Places → α → α → Prop}
    (h : ∀ here x y, places <+: here → Lodger.Like here x y →
      Tuned A here (f x) (g y)) :
    Tuned A places (Op.read >>= f) (Op.read >>= g) :=
  fun here s t hle hst => h here s.object t.object hle hst.like here s t
    (List.prefix_refl _) hst

/-- An operation that changes its object. -/
theorem Tuned.update {f g : σ → σ}
    (h : ∀ here x y, places <+: here → Lodger.Like here x y →
      Lodger.Like here (f x) (g y)) :
    Tuned Agree places (Op.update f) (Op.update g) := by
  intro here s t hle hst
  have hsame := Reached.refl hst
  refine ⟨[], rfl, ⟨hst.shared, hst.alone, ?_, ?_⟩, hsame.beside⟩
  · exact hsame.alike.lodged
  · rw [List.append_nil]
    exact h here _ _ hle hst.like

/-- An operation with a release behind its faults. -/
theorem Tuned.orRelease {op : Op σ α} {op' : Op σ β}
    {release release' : Op σ Unit} (hop : Tuned A places op op')
    (hrelease : Tuned Agree places release release') :
    Tuned A places (Op.orRelease op release) (Op.orRelease op' release') := by
  intro here s t hle hst
  rcases (hop here s t hle hst).ends
    with ⟨a, b, u, v, more, hrun, hrun', hA, hreached⟩
      | ⟨e, u, v, more, hrun, hrun', hreached⟩
  · rw [Op.orRelease_of_ok hrun, Op.orRelease_of_ok hrun']
    exact ⟨more, hA, hreached⟩
  · have hrest : Tuned A places
        (release >>= fun _ => MonadExcept.throw e)
        (release' >>= fun _ => MonadExcept.throw e) :=
      hrelease.then fun _ => .throw e
    rw [Op.orRelease_of_error hrun, Op.orRelease_of_error hrun']
    exact Meet.after hreached (hrest _ u v
      (hle.trans (List.prefix_append ..)) hreached.alike)

/-- Two operations of which the second is made whatever becomes of the
first. -/
theorem Tuned.thenAlways {op op' last last' : Op σ Unit}
    (hop : Tuned Agree places op op')
    (hlast : Tuned Agree places last last') :
    Tuned Agree places (Op.thenAlways op last) (Op.thenAlways op' last') := by
  intro here s t hle hst
  rcases (hop here s t hle hst).ends
    with ⟨a, b, u, v, more, hrun, hrun', -, hreached⟩
      | ⟨e, u, v, more, hrun, hrun', hreached⟩
  · rw [Op.thenAlways_of_ok hrun, Op.thenAlways_of_ok hrun']
    exact Meet.after hreached (hlast _ u v
      (hle.trans (List.prefix_append ..)) hreached.alike)
  · have hrest : Tuned Agree places
        (last >>= fun _ => MonadExcept.throw e : Op σ Unit)
        (last' >>= fun _ => MonadExcept.throw e) :=
      hlast.then fun _ => .throw e
    rw [Op.thenAlways_of_error hrun, Op.thenAlways_of_error hrun']
    exact Meet.after hreached (hrest _ u v
      (hle.trans (List.prefix_append ..)) hreached.alike)

end

-- ======================================================= what is asked for

/-- Two blocks that stand for each other have been changed in one way. -/
theorem Reached.changed {S : Type} [Lodging S] {s t s' t' : S}
    {f : Block → Block} {b own : BlockId} (hst : Alike places s t)
    (hb : Stands places b own) (hshared : (heap s).Changed f b (heap s'))
    (halone : (heap t).Changed f own (heap t'))
    (hinUse : (heap s').inUse - (heap s).inUse
      = (heap t').inUse - (heap t).inUse)
    (hlive : (heap s').live - (heap s).live
      = (heap t').live - (heap t).live)
    (hlavish : Lavish s' ∧ Lavish t' ∧ Like places s' t') :
    Reached places [] s t s' t' := by
  obtain ⟨hs', ht', hlike⟩ := hlavish
  refine ⟨?_, Heap.beside_changed hb hshared hinUse hlive⟩
  rw [List.append_nil]
  exact ⟨hs', ht', hst.lodged.changed hb hshared halone, hlike⟩

namespace Heap

/-- Writing a byte. -/
theorem poke_tuned {b own : BlockId} (hb : Stands places b own) (i : Nat)
    (byte : UInt8) :
    Tuned Agree places (poke b i byte) (poke own i byte) := by
  intro here s t hle hst
  have hb := hb.mono hle
  have hsize : s.size b = t.size own := hst.lodged.size_eq hb
  by_cases hi : i < s.size b
  · rw [poke_eq byte hi, poke_eq byte (hsize ▸ hi)]
    refine ⟨[], rfl, .changed hst hb (changed_poked s b i byte)
      (changed_poked t own i byte) ?_ ?_ ?_⟩
    · exact (Int.sub_self _).trans (Int.sub_self _).symm
    · exact (Int.sub_self _).trans (Int.sub_self _).symm
    · exact ⟨⟨hst.shared.1, hst.shared.2, hst.shared.3, hst.shared.4⟩,
        ⟨hst.alone.1, hst.alone.2, hst.alone.3, hst.alone.4⟩, trivial⟩
  · have hrun : poke b i byte s = .error .indexRange s := if_neg hi
    have hrun' : poke own i byte t = .error .indexRange t :=
      if_neg (hsize ▸ hi)
    rw [hrun, hrun']
    exact ⟨rfl, [], .refl hst⟩

end Heap

namespace Host

variable {host : Host} {b own : BlockId}

/-- A host that has granted something is as generous as before. -/
theorem Generous.granting (h : host.Generous) {heap : Heap}
    (hlimit : heap.limit = host.heap.limit)
    (hodd : heap.oddLimit = host.heap.oddLimit)
    (hsupply : heap.supply = host.heap.supply)
    (hkind : heap.inUseKind = host.heap.inUseKind) :
    ({ host.asked with heap := heap } : Host).Generous :=
  h.asked.withHeap ⟨hlimit.trans h.unlimited, hodd.trans h.plain.whole_limit,
    hsupply.trans h.supplied, hkind.trans h.plain.whole_count⟩

/-- Asking for a block: the two that are handed out stand for each
other. -/
theorem alloc_tuned (n : Nat) :
    Tuned (fun here => Option.Rel (Stands here)) places (alloc (.int n))
      (alloc (.int n)) := by
  intro here s t hle hst
  have hs : s.Generous := hst.shared
  have ht : t.Generous := hst.alone
  have hlodged : s.heap.Lodged here t.heap := hst.lodged
  rw [alloc_eq hs.plain, alloc_eq ht.plain, hs.denies_eq, ht.denies_eq]
  refine ⟨[s.heap.blocks.size], .some ?_, ⟨?_, ?_, hlodged.granted n,
    trivial⟩, Heap.beside_granted here s.heap t.heap n⟩
  · rw [hlodged.handed]
    exact stands_concat ..
  · exact hs.granting rfl rfl rfl rfl
  · exact ht.granting rfl rfl rfl rfl

/-- Asking for another size of a block. -/
theorem realloc_tuned (hb : Stands places b own) (old n : Nat) :
    Tuned Agree places (realloc b (.int old) (.int n))
      (realloc own (.int old) (.int n)) := by
  intro here s t hle hst
  have hs : s.Generous := hst.shared
  have ht : t.Generous := hst.alone
  have hb := hb.mono hle
  have hsize : s.heap.size b = t.heap.size own := hst.lodged.size_eq hb
  by_cases hold : s.heap.size b = old
  · rw [realloc_eq hs.plain hold, realloc_eq ht.plain (hsize ▸ hold),
      hs.denies_eq, ht.denies_eq]
    refine ⟨[], rfl, .changed hst hb (Heap.changed_resized s.heap b n)
      (Heap.changed_resized t.heap own n) ?_ ?_ ?_⟩
    · have hbooks : ∀ (h : Heap) (b : BlockId),
          (h.resized b n).inUse - h.inUse = n - h.size b := fun h b => by
        show h.inUse + (n - h.size b) - h.inUse = _
        omega
      refine (hbooks s.heap b).trans (Eq.trans ?_ (hbooks t.heap own).symm)
      rw [hsize]
    · exact (Int.sub_self _).trans (Int.sub_self _).symm
    · exact ⟨hs.granting rfl rfl rfl rfl, ht.granting rfl rfl rfl rfl,
        trivial⟩
  · rw [realloc_mismatch hs.plain hold,
      realloc_mismatch ht.plain (hsize ▸ hold), hs.unplanned, ht.unplanned,
      hsize]
    refine ⟨rfl, [], ⟨hs.asked, ht.asked, ?_, trivial⟩, .refl ..⟩
    rw [List.append_nil]
    exact hst.lodged

/-- A block that must be grown, or the operation runs out of memory. -/
theorem growth_tuned {σ α β : Type} [Lodger σ] {A : Places → α → β → Prop}
    (hb : Stands places b own) (old n : Nat) (use : MemoryUse)
    {k : Op σ α} {l : Op σ β} (hk : Tuned A places k l) :
    Tuned A places (do
        let granted ← Op.onHost (realloc b (.int old) (.int n))
        if !granted then throw (.outOfMemory use)
        k)
      (do
        let granted ← Op.onHost (realloc own (.int old) (.int n))
        if !granted then throw (.outOfMemory use)
        l) :=
  (realloc_tuned hb old n).onHost.then fun _ =>
    .ite (fun _ => .throw _) fun _ => hk

/-- Giving a block back. -/
theorem free_tuned (hb : Stands places b own) (size : Nat) :
    Tuned Agree places (free b (.int size)) (free own (.int size)) := by
  intro here s t hle hst
  have hs : s.Generous := hst.shared
  have ht : t.Generous := hst.alone
  have hb := hb.mono hle
  have hsize : s.heap.size b = t.heap.size own := hst.lodged.size_eq hb
  have hgenerous : ∀ {host : Host} {heap : Heap}, host.Generous →
      heap.Lavish →
      ({ host with frees := host.frees + 1, heap := heap } : Host).Generous :=
    fun h hheap => ⟨⟨h.plain.unwatched, hheap.whole_limit,
      hheap.whole_count⟩, h.takesBack, h.unplanned, hheap.unlimited,
      hheap.supplied⟩
  by_cases hstated : s.heap.size b = size
  · rw [free_eq hs.plain hs.takesBack hstated,
      free_eq ht.plain ht.takesBack (hsize ▸ hstated)]
    refine ⟨[], rfl, .changed hst hb (Heap.changed_released s.heap b)
      (Heap.changed_released t.heap own) ?_ ?_ ?_⟩
    · show s.heap.inUse - s.heap.size b - s.heap.inUse
        = t.heap.inUse - t.heap.size own - t.heap.inUse
      omega
    · show s.heap.live - 1 - s.heap.live = t.heap.live - 1 - t.heap.live
      omega
    · exact ⟨hgenerous hs ⟨hs.unlimited, hs.plain.whole_limit, hs.supplied,
        hs.plain.whole_count⟩, hgenerous ht ⟨ht.unlimited,
        ht.plain.whole_limit, ht.supplied, ht.plain.whole_count⟩, trivial⟩
  · rw [free_mismatch hs.plain hs.takesBack hstated,
      free_mismatch ht.plain ht.takesBack (hsize ▸ hstated), hsize]
    refine ⟨rfl, [], ⟨hgenerous hs hs.lavish, hgenerous ht ht.lavish, ?_,
      trivial⟩, .refl ..⟩
    rw [List.append_nil]
    exact hst.lodged

/-- What is only written to a channel. -/
theorem modify_tuned {g : Host → Host}
    (hg : ∀ host, host.Generous → (g host).Generous)
    (hheap : ∀ host, (g host).heap = host.heap) :
    Tuned Agree places (modify g : HostOp PUnit) (modify g) := by
  intro here s t hle hst
  refine ⟨[], rfl, ⟨hg s hst.shared, hg t hst.alone, ?_, trivial⟩, ?_⟩
  · show (g s).heap.Lodged (here ++ []) (g t).heap
    rw [List.append_nil, hheap, hheap]
    exact hst.lodged
  · show s.heap.Beside here [] (g s).heap t.heap (g t).heap
    rw [hheap, hheap]
    exact .refl ..

theorem note_tuned (e : LogEntry) : Tuned Agree places (note e) (note e) :=
  modify_tuned (fun _ h => ⟨⟨h.plain.1, h.plain.2, h.plain.3⟩, h.takesBack,
    h.unplanned, h.unlimited, h.supplied⟩) fun _ => rfl

theorem print_tuned (text : String) :
    Tuned Agree places (print text) (print text) :=
  modify_tuned (fun _ h => ⟨⟨h.plain.1, h.plain.2, h.plain.3⟩, h.takesBack,
    h.unplanned, h.unlimited, h.supplied⟩) fun _ => rfl

end Host

end SatSession
