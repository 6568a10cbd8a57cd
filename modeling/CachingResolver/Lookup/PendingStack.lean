import CachingResolver.ResourceRecord

/-!
# Pending questions

The questions that a lookup still has to settle, as a stack on which each question stands at most
once.
-/

namespace CachingResolver

/-- A stack of questions, the top first. -/
structure PendingStack where
  questions : List Question := []
  deriving DecidableEq, Repr, Inhabited

namespace PendingStack

def single (q : Question) : PendingStack where
  questions := [q]

def contains (s : PendingStack) (q : Question) : Bool :=
  s.questions.contains q

def size (s : PendingStack) : Nat :=
  s.questions.length

def isEmpty (s : PendingStack) : Bool :=
  s.questions.isEmpty

/-- Put a question on top; one that is pending stays where it is. -/
def push (s : PendingStack) (q : Question) : PendingStack :=
  if s.contains q then s else ⟨q :: s.questions⟩

/-- Put questions on top, one after the other. -/
def pushAll (s : PendingStack) (qs : List Question) : PendingStack :=
  qs.foldl push s

/-- The question on top and the stack below it. -/
def pop? (s : PendingStack) : Option (Question × PendingStack) :=
  match s.questions with
  | [] => none
  | q :: rest => some (q, ⟨rest⟩)

/-- Take a question off the stack, wherever it stands. -/
def remove (s : PendingStack) (q : Question) : PendingStack :=
  ⟨s.questions.filter (· != q)⟩

def count (s : PendingStack) (q : Question) : Nat :=
  s.questions.count q

end PendingStack

end CachingResolver
