import CachingResolver.Lookup.Compose
import CachingResolver.Lookup.Resolver

/-!
# Answering questions

A question is answered from the cache if that decides it, and by the resolver else.  At most a given
number of questions are in progress at once; one that arrives beyond that is refused without a look
at the cache.  A number that is too large cannot be kept count of, and then nothing starts.
-/

namespace CachingResolver

/-- The most questions in progress that can be kept count of. -/
def Admission.maxLimit : Nat := 0x1fffffffffffffff

/-- How many questions may be and are in progress. -/
structure Admission where
  -- The most questions in progress at once.
  limit : Nat
  limit_le : limit ≤ Admission.maxLimit
  inProgress : Nat := 0
  inProgress_le : inProgress ≤ limit := by omega
  deriving DecidableEq, Repr

namespace Admission

/-- The admission of up to a number of questions, none of them in progress. -/
def ofLimit? (limit : Nat) : Option Admission :=
  if h : limit ≤ maxLimit then some { limit, limit_le := h } else none

/-- How many more questions would be admitted. -/
def available (a : Admission) : Nat :=
  a.limit - a.inProgress

/-- Admit a question, unless the limit is reached. -/
def admit? (a : Admission) : Option Admission :=
  if h : a.inProgress < a.limit then
    some { a with inProgress := a.inProgress + 1, inProgress_le := h }
  else none

/-- A question is no longer in progress. -/
def release (a : Admission) : Admission where
  limit := a.limit
  limit_le := a.limit_le
  inProgress := a.inProgress - 1
  inProgress_le := Nat.le_trans (Nat.sub_le _ _) a.inProgress_le

end Admission

/-- How far a question got before the resolver is engaged. -/
inductive Beginning where
  | finished (result : Except Failure Resolution)
  -- It is in progress and waits for the resolver.
  | waiting

/-- Take in a question: refuse it, answer it from the cache, or keep it in progress. -/
def Admission.begin (a : Admission) (q : Question) (c : Cache) : Beginning × Admission × Cache :=
  match a.admit? with
  | none => (.finished (.error .overloaded), a, c)
  | some admitted =>
    match c.answerFromCache q with
    | (.error failure, c) => (.finished (.error failure), admitted.release, c)
    | (.ok (some resolution), c) => (.finished (.ok resolution), admitted.release, c)
    | (.ok none, c) => (.waiting, admitted, c)

/-- Answer a question, from its arrival to its end. -/
def Resolver.answer {σ : Type} (r : Resolver) (env : Environment σ) (a : Admission) (q : Question)
    (w : World σ) : Except Failure Resolution × Admission × World σ :=
  match a.begin q w.cache with
  | (.finished result, a, cache) => (result, a, { w with cache })
  | (.waiting, a, cache) =>
    let (result, w) := r.lookup env q { w with cache }
    (result, a.release, w)

end CachingResolver
