import CachingResolver.Cache.Basic
import CachingResolver.Failure
import CachingResolver.Message.Basic

/-!
# The surroundings of a lookup

A lookup meets the world in two ways: it draws numbers for its choices, and it sends a query to a
server and waits for what comes back while time passes.  An `Environment` gives both as functions of
a state of the outside, so that a lookup is a function of the cache and that state.
-/

namespace CachingResolver

/-- The numbers that one step of a lookup may use for its choices. -/
structure Draw where
  server : Nat := 0
  address : Nat := 0
  id : UInt16 := 0
  deriving DecidableEq, Repr, Inhabited

/-- How an exchange with a server ended. -/
structure Arrival where
  outcome : Except Failure Message
  -- The seconds that passed on the clock.
  elapsed : Int64 := 0
  rttMs : UInt32 := 0

instance : Inhabited Arrival := ⟨{ outcome := .ok {} }⟩

/-- The outside of a lookup, over states of type `σ`. -/
structure Environment (σ : Type) where
  draw : σ → Draw × σ
  exchange : σ → Endpoint → Message → Arrival × σ

/-- The cache and the state of the outside. -/
structure World (σ : Type) where
  cache : Cache
  outside : σ

instance {σ : Type} [Inhabited σ] : Inhabited (World σ) := ⟨⟨default, default⟩⟩

/-- Choose one of some things by a drawn number. -/
def pick {α : Type} (number : Nat) (first : α) (rest : List α) : α :=
  (first :: rest).getD (number % (rest.length + 1)) first

theorem pick_mem {α : Type} (number : Nat) (first : α) (rest : List α) :
    pick number first rest ∈ first :: rest := by
  have h : number % (rest.length + 1) < (first :: rest).length := Nat.mod_lt _ (Nat.succ_pos _)
  rw [pick, List.getD_eq_getElem?_getD, List.getElem?_eq_getElem h]
  exact List.getElem_mem h

end CachingResolver
