import AsmTrace.Fault
import AsmTrace.Word

/-!
# The stack

A bounded stack of words. Its pointer counts down from the capacity as words are pushed.
-/

namespace AsmTrace

structure Stack where
  capacity : Nat
  /-- The words on the stack, the top one first. -/
  topFirst : List Word := []
  deriving DecidableEq, Repr

namespace Stack

def push (s : Stack) (v : Word) : Except Fault Stack :=
  if s.topFirst.length < s.capacity then .ok { s with topFirst := v :: s.topFirst }
  else .error (.stackOverflow s.capacity)

def pop (s : Stack) : Except Fault (Word × Stack) :=
  match s.topFirst with
  | [] => .error .stackUnderflow
  | v :: rest => .ok (v, { s with topFirst := rest })

def size (s : Stack) : Nat := s.topFirst.length

/-- The words on the stack, the bottom one first. -/
def values (s : Stack) : List Word := s.topFirst.reverse

/-- How many more words fit, or the largest signed word if there are more. -/
def pointer (s : Stack) : Word := BitVec.ofNat 32 (min (s.capacity - s.size) 0x7fffffff)

end Stack

end AsmTrace
