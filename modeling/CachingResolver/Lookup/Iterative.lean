import CachingResolver.Lookup.Search

/-!
# Iterative lookups

An iterative lookup starts from the root servers in the cache and follows referrals until the
question is answered.  It takes step after step while questions are pending, within a budget of
steps, and then composes its answer from the cache.
-/

namespace CachingResolver

structure Iterative where
  port : UInt16 := 53
  maxSteps : Nat := 64
  deriving DecidableEq, Repr

namespace Iterative

variable {σ : Type}

/-- Settle the question that was on top of the stack. -/
def step (env : Environment σ) (port : UInt16) (current : Question) (s : Search) (w : World σ) :
    Except Failure Search × World σ :=
  let (draw, outside) := env.draw w.outside
  match Search.prepare draw port current s w.cache with
  | (.settled s, cache) => (.ok s, { cache, outside })
  | (.impossible failure, cache) => (.error failure, { cache, outside })
  | (.ask zone server query, cache) =>
    let (arrival, outside) := env.exchange outside server query
    let (s, cache) := Search.conclude current zone server arrival s cache
    (.ok s, { cache, outside })

/-- Take steps while questions are pending; `q` is the question of the lookup. -/
def run (env : Environment σ) (port : UInt16) (q : Question) :
    (budget : Nat) → Search → World σ → Except Failure Search × World σ
  | 0, s, w => (if s.pending.isEmpty then .ok s else .error (.stepLimit q.text), w)
  | budget + 1, s, w =>
    match s.pending.pop? with
    | none => (.ok s, w)
    | some (current, pending) =>
      match step env port current { s with pending } w with
      | (.ok s, w) => run env port q budget s w
      | (.error failure, w) => (.error failure, w)

def lookup (r : Iterative) (env : Environment σ) (q : Question) (w : World σ) :
    Except Failure Resolution × World σ :=
  match run env r.port q r.maxSteps (.start q) w with
  | (.error failure, w) => (.error failure, w)
  | (.ok s, w) =>
    let (result, cache) := w.cache.compose q s.exchanges s.lastServer
    (result, { w with cache })

end Iterative

end CachingResolver
