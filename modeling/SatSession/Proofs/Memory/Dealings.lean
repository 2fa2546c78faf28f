/-
Dealings with a memory.

Whoever has a memory may ask it for blocks, ask for other sizes of blocks
and give blocks back, each with any whole numbers, write bytes into blocks
and assign the limit. What the host has left to give may be different each
time; nobody asks for that, but it is written down among the requests, so
that a run can say when it came about. A `Dealing` is one request as it
went, and a run is a list of them, each beginning where the one before it
ended. A request about a block that was never handed out goes nowhere, so a
run needs no condition on which blocks it names.

What a single request can do is said once (`Dealt`, `dealt_deal`): it is
granted and changes the memory in one of six ways, or the memory is as it
was. Everything about runs is shown from that, one dealing at a time
(`dealings_keep`).
-/
import SatSession.Proofs.Memory.Blocks
import SatSession.Proofs.Memory.Whole

namespace SatSession.Heap

-- ============================================================ requests

/-- What a memory may be asked, and `setSupply` for a host that from now on
can give other sizes than before. -/
inductive Request where
  | alloc (size : Int)
  | realloc (b : BlockId) (old new : Int)
  | free (b : BlockId) (size : Int)
  | write (b : BlockId) (i : Nat) (byte : UInt8)
  | setLimit (limit : Option Int)
  | setSupply (supply : Option Int)

/-- What a memory answers. -/
inductive Reply where
  | block (b : BlockId)
  | resized
  | refused
  | done

/-- The block that a request names. -/
def Request.block? : Request → Option BlockId
  | alloc _ | setLimit _ | setSupply _ => none
  | realloc b _ _ | free b _ | write b _ _ => some b

/-- An operation on a block that must have been handed out. -/
def onBlock {α : Type} (b : BlockId) (op : HeapOp α) : HeapOp α := fun h =>
  if b < h.blocks.size then op h else .error .indexRange h

/-- Makes a request. -/
def perform : Request → HeapOp Reply
  | .alloc size => do
      match ← allocValue (.int size) with
      | some b => return .block b
      | none => return .refused
  | .realloc b old new => onBlock b do
      return if ← reallocValue b (.int old) (.int new) then .resized
        else .refused
  | .free b size => onBlock b do
      freeValue b (.int size)
      return .done
  | .write b i byte => onBlock b do
      poke b i byte
      return .done
  | .setLimit limit => do
      setLimit ((limit.map Value.int).getD .none)
      return .done
  | .setSupply supply => do
      modify fun h => { h with supply := supply }
      return .done

-- ============================================================ dealings

/-- A request as it went. -/
structure Dealing where
  request : Request
  before : Heap
  reply : Except Fault Reply
  after : Heap

/-- Makes one request. -/
def deal (request : Request) (h : Heap) : Dealing :=
  match perform request h with
  | .ok reply h' => ⟨request, h, .ok reply, h'⟩
  | .error f h' => ⟨request, h, .error f, h'⟩

/-- The account of requests made one after the other. -/
def dealings : List Request → Heap → List Dealing
  | [], _ => []
  | request :: rest, h =>
      let d := deal request h
      d :: dealings rest d.after

/-- The memory after requests made one after the other. -/
def afterDealings : List Request → Heap → Heap
  | [], h => h
  | request :: rest, h => afterDealings rest (deal request h).after

/-- What every dealing hands to the next, the run hands to its end. -/
theorem dealings_keep (I : List Dealing → Heap → Prop)
    (requests : List Request)
    (step : ∀ done h request, request ∈ requests → I done h →
      I (done ++ [deal request h]) (deal request h).after) :
    ∀ (done : List Dealing) (h : Heap), I done h →
      I (done ++ dealings requests h) (afterDealings requests h) := by
  induction requests with
  | nil =>
      intro done h hI
      simpa [dealings, afterDealings] using hI
  | cons request rest ih =>
      intro done h hI
      have hfirst := step done h request List.mem_cons_self hI
      have hrest := ih
        (fun done h r hr => step done h r (List.mem_cons_of_mem _ hr))
        _ _ hfirst
      simpa [dealings, afterDealings] using hrest

/-- A fresh memory that hands out whole numbers of bytes. -/
def fresh (limit supply : Option Int) : Heap :=
  { limit := limit, supply := supply }

-- ============================================ what a request comes to

/-- A memory with another limit. -/
def limited (h : Heap) (limit : Option Int) : Heap :=
  { h with limit := limit, oddLimit := .none }

/-- A memory whose host can give other sizes. -/
def supplied (h : Heap) (supply : Option Int) : Heap :=
  { h with supply := supply }

/-- What becomes of a request: its answer and the memory behind it. -/
inductive Dealt (h : Heap) : Request → Except Fault Reply → Heap → Prop
  | unknown {request : Request} {b : BlockId}
      (hb : request.block? = some b) (hout : h.blocks.size ≤ b) :
      Dealt h request (.error .indexRange) h
  | notGranted {size : Int}
      (hwhy : size < 0 ∨ h.fits size = false
        ∨ h.affords size size = false) :
      Dealt h (.alloc size) (.ok .refused) h
  | granted {n : Nat} (hfits : h.fits n = true)
      (haffords : h.affords n n = true) :
      Dealt h (.alloc n) (.ok (.block h.blocks.size)) (h.granted n)
  | notResized {b : BlockId} {old new : Int}
      (hwhy : new < 0 ∨ h.size b = old
        ∧ (h.fits (new - h.size b) = false
          ∨ h.affords (new - h.size b) new = false)) :
      Dealt h (.realloc b old new) (.ok .refused) h
  | misstated {b : BlockId} {old new : Int} (hold : (h.size b : Int) ≠ old) :
      Dealt h (.realloc b old new)
        (.error (.blockSize .realloc (h.size b) (.int old))) h
  | resized {b : BlockId} {n : Nat} (hb : b < h.blocks.size)
      (hfits : h.fits (n - h.size b) = true)
      (haffords : h.affords (n - h.size b) n = true) :
      Dealt h (.realloc b (h.size b) n) (.ok .resized) (h.resized b n)
  | notReleased {b : BlockId} {size : Int} (hsize : (h.size b : Int) ≠ size) :
      Dealt h (.free b size)
        (.error (.blockSize .free (h.size b) (.int size))) h
  | released {b : BlockId} (hb : b < h.blocks.size) :
      Dealt h (.free b (h.size b)) (.ok .done) (h.released b)
  | beyond {b : BlockId} {i : Nat} {byte : UInt8} (hi : h.size b ≤ i) :
      Dealt h (.write b i byte) (.error .indexRange) h
  | written {b : BlockId} {i : Nat} {byte : UInt8} (hi : i < h.size b) :
      Dealt h (.write b i byte) (.ok .done) (h.poked b i byte)
  | limited (limit : Option Int) :
      Dealt h (.setLimit limit) (.ok .done) (h.limited limit)
  | supplied (supply : Option Int) :
      Dealt h (.setSupply supply) (.ok .done) (h.supplied supply)

variable {h : Heap}

/-- What is done with a request, by how it ends. -/
theorem dealt_of_perform (hw : h.Whole) (request : Request) :
    Ends (fun reply h' => Dealt h request (.ok reply) h')
      (fun f h' => Dealt h request (.error f) h') (perform request h) := by
  -- the reasons are gone through in the order in which a request looks at
  -- them: the sign, the stated size, the limit
  cases request with
  | alloc size =>
      simp only [perform, ends_bind, hw.allocValue_int, alloc]
      split
      next hwhy => exact .notGranted hwhy
      next hgrant =>
        simp only [not_or, Bool.not_eq_false, Int.not_lt] at hgrant
        obtain ⟨hsign, hfits, haffords⟩ := hgrant
        obtain ⟨n, rfl⟩ := Int.eq_ofNat_of_zero_le hsign
        exact .granted hfits haffords
  | realloc b old new =>
      simp only [perform, onBlock]
      split
      next hb =>
        simp only [ends_bind, hw.reallocValue_int, realloc]
        split
        next hsign => exact .notResized (Or.inl hsign)
        next hsign =>
        split
        next hold => exact .misstated hold
        next hold =>
        have hold : (h.size b : Int) = old := by omega
        subst hold
        split
        next hwhy => exact .notResized (Or.inr ⟨rfl, hwhy⟩)
        next hgrant =>
          simp only [not_or, Bool.not_eq_false] at hgrant
          obtain ⟨n, rfl⟩ := Int.eq_ofNat_of_zero_le (Int.not_lt.mp hsign)
          exact .resized hb hgrant.1 hgrant.2
      next hb => exact .unknown rfl (Nat.le_of_not_lt hb)
  | free b size =>
      simp only [perform, onBlock]
      split
      next hb =>
        simp only [ends_bind, hw.freeValue_int, free]
        split
        next hsize => exact .notReleased hsize
        next hsize =>
          have hsize : (h.size b : Int) = size := by omega
          subst hsize
          exact .released hb
      next hb => exact .unknown rfl (Nat.le_of_not_lt hb)
  | write b i byte =>
      simp only [perform, onBlock]
      split
      next hb =>
        simp only [ends_bind, poke]
        split
        next hi => exact .written hi
        next hi => exact .beyond (Nat.le_of_not_lt hi)
      next hb => exact .unknown rfl (Nat.le_of_not_lt hb)
  | setLimit limit =>
      cases limit with
      | none => exact .limited none
      | some limit => exact .limited (some limit)
  | setSupply supply => exact .supplied supply

/-- Every dealing went in one of these ways. -/
theorem dealt_deal (hw : h.Whole) (request : Request) :
    ∃ reply h', deal request h = ⟨request, h, reply, h'⟩
      ∧ Dealt h request reply h' := by
  have hends := dealt_of_perform hw request
  unfold deal
  cases hrun : perform request h with
  | ok reply h' =>
      rw [hrun] at hends
      exact ⟨_, _, rfl, hends⟩
  | error f h' =>
      rw [hrun] at hends
      exact ⟨_, _, rfl, hends⟩

-- ============================================== what every dealing keeps

variable {request : Request} {reply : Except Fault Reply} {h' : Heap}

/-- A memory goes on counting in whole numbers. -/
theorem Dealt.whole (hd : Dealt h request reply h') (hw : h.Whole) :
    h'.Whole := by
  cases hd with
  | limited limit => exact ⟨rfl, hw.count⟩
  | _ => exact ⟨hw.limit, hw.count⟩

theorem whole_fresh (limit supply : Option Int) :
    (fresh limit supply).Whole := ⟨rfl, rfl⟩

/-- A dealing without effect: refused or failed. -/
def Dealing.Idle (d : Dealing) : Prop :=
  d.reply = .ok .refused ∨ ∃ f, d.reply = .error f

/-- What is refused or fails leaves the memory as it was. -/
theorem Dealt.eq_of_idle (hd : Dealt h request reply h')
    (hidle : (⟨request, h, reply, h'⟩ : Dealing).Idle) : h' = h := by
  rcases hidle with hrefused | ⟨f, hfailed⟩
  · cases hd with
    | notGranted _ => rfl
    | notResized _ => rfl
    | _ => cases hrefused
  · cases hd with
    | unknown _ _ => rfl
    | misstated _ => rfl
    | notReleased _ => rfl
    | beyond _ => rfl
    | _ => cases hfailed

end SatSession.Heap
