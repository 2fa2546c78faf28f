/-
What no call of a live engine changes.

Whatever a call does, and even where it is denied memory, the engine stays
the one that it was: it asks the same search, sits in the same two blocks
and works on no others, with no more room in them than it needs (`Moved`),
and but for the calls that change them it has the settings that it was
given (`Onward`). Both are said of an
engine before and after, and compose, so that they hold of any number of
calls.
-/
import SatSession.Proofs.Tables.Room
import SatSession.Proofs.Tables.Searching

namespace SatSession.TableEngine

variable {e : TableEngine} {host : Host} {p q : Placed TableEngine}

/-- The same engine, in the same tables. -/
structure Moved (e : TableEngine) (host : Host) (p : Placed TableEngine) :
    Prop where
  search : p.object.search = e.search
  values : p.object.values = e.values
  store : p.object.store = e.store
  within : Host.Within e.tables host p.host
  fitted : Fitted e → Fitted p.object

/-- The same engine further on, with the same settings. -/
structure Onward (e : TableEngine) (host : Host) (p : Placed TableEngine) :
    Prop extends Moved e host p where
  verbosity : p.object.verbosity = e.verbosity
  limit : p.object.propagationLimit = e.propagationLimit

theorem Moved.tables (h : Moved e host p) : p.object.tables = e.tables := by
  rw [TableEngine.tables, h.values, h.store]
  rfl

theorem Moved.trans (h : Moved e host p) (h' : Moved p.object p.host q) :
    Moved e host q where
  search := h'.search.trans h.search
  values := h'.values.trans h.values
  store := h'.store.trans h.store
  within := h.within.trans (h.tables ▸ h'.within)
  fitted hf := h'.fitted (h.fitted hf)

/-- What is done on the host leaves the engine the same. -/
theorem Moved.onHost (h : Moved e host p) {host' : Host}
    (hw : Host.Within e.tables p.host host') :
    Moved e host ⟨p.object, host'⟩ :=
  ⟨h.search, h.values, h.store, h.within.trans hw, h.fitted⟩

/-- The settings are no part of the tables. -/
theorem moved_set (e : TableEngine) (host : Host) (v l : Value) :
    Moved e host ⟨{ e with verbosity := v, propagationLimit := l }, host⟩ :=
  ⟨rfl, rfl, rfl, .refl .., fun hf => ⟨hf.capacity, hf.wordCapacity⟩⟩

namespace Onward

theorem refl (e : TableEngine) (host : Host) : Onward e host ⟨e, host⟩ :=
  ⟨⟨rfl, rfl, rfl, .refl .., id⟩, rfl, rfl⟩

theorem trans (h : Onward e host p) (h' : Onward p.object p.host q) :
    Onward e host q where
  toMoved := h.toMoved.trans h'.toMoved
  verbosity := h'.verbosity.trans h.verbosity
  limit := h'.limit.trans h.limit

/-- The settings hold on the way. -/
theorem settings (h : Onward e host p) {verbosity limit : Int}
    (hset : Settings e verbosity limit) :
    Settings p.object verbosity limit :=
  ⟨h.verbosity.trans hset.verbosity, h.limit.trans hset.limit⟩

end Onward

-- ======================================================= call by call

/-- An engine goes on with room for a variable. -/
theorem Ensured.onward {n : Nat} (h : Ensured n e host p) :
    Onward e host p := by
  refine ⟨⟨?_, ?_, ?_, h.within, h.fitted⟩, ?_, ?_⟩ <;> rw [h.object] <;>
    rfl

/-- It goes on with a word in the store. -/
theorem Pushed.onward {n : Int} (h : Pushed n e host p) :
    Onward e host p := by
  refine ⟨⟨?_, ?_, ?_, h.within, h.fitted⟩, ?_, ?_⟩ <;> rw [h.object] <;>
    rfl

/-- A request that is denied leaves the engine where it is. -/
theorem Denied.onward {use : MemoryUse} {f : Fault}
    (h : Denied use e host f p) : Onward e host p := by
  obtain ⟨delta, size, hdeny⟩ := h.denied
  rw [h.rest]
  exact ⟨⟨rfl, rfl, rfl, Host.within_asked _ hdeny, id⟩, rfl, rfl⟩

/-- It goes on with a variable and a word. -/
theorem Added.onward {l : Int} (h : Added l e host p) :
    Onward e host p := by
  obtain ⟨q, hq, hp⟩ := h.steps
  exact hq.onward.trans hp.onward

/-- A literal that is not taken may leave its variable behind. -/
theorem NotAdded.onward {l : Int} {f : Fault}
    (h : NotAdded l e host f p) : Onward e host p := by
  rcases h with ⟨-, -, rfl⟩ | h | ⟨q, hq, h⟩
  · exact .refl e host
  · exact h.onward
  · exact hq.onward.trans h.onward

/-- It goes on with a terminator and a formula. -/
theorem Closed.onward {clause : List Int} (h : Closed clause e host p) :
    Onward e host p := by
  obtain ⟨q, hq, rfl⟩ := h
  have hon := hq.onward
  refine ⟨⟨hon.search, hon.values, hon.store, hon.within, fun hf => ?_⟩,
    hon.verbosity, hon.limit⟩
  have hfitted := hon.fitted hf
  exact ⟨hfitted.capacity, hfitted.wordCapacity⟩

/-- A search writes to the value table and to nothing else. -/
theorem Searched.onward {limit : Nat} {outcome : Outcome}
    (hs : Seated e host.heap) (h : Searched limit e host outcome p) :
    Onward e host p := by
  refine ⟨⟨?_, ?_, ?_, hs.within_values h.within, fun hf => ?_⟩, ?_, ?_⟩
    <;> rw [h.object]
  exact ⟨hf.capacity, hf.wordCapacity⟩

end SatSession.TableEngine
