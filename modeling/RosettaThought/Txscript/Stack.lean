import RosettaThought.Txscript.Opcode

namespace RosettaThought.Txscript

structure Stack where
  stk : List Bytes
  verifyMinimalData : Bool
  deriving DecidableEq, Repr

def asBool (t : Bytes) : Bool :=
  match t.findIdx? (· ≠ 0) with
  | none => false
  | some i => !(i = t.length - 1 ∧ t[i]? = some 0x80)

namespace Stack

def depth (s : Stack) : Nat := s.stk.length

def pushByteArray (s : Stack) (so : Bytes) : Stack := { s with stk := s.stk ++ [so] }

def popByteArray (s : Stack) : Except ErrorCode (Bytes × Stack) :=
  match s.stk.getLast? with
  | none => .error .errInvalidStackOperation
  | some so => .ok (so, { s with stk := s.stk.dropLast })

def peekByteArray (s : Stack) (idx : Nat) : Except ErrorCode Bytes :=
  if h : idx < s.stk.length then .ok (s.stk.get ⟨s.stk.length - idx - 1, by omega⟩)
  else .error .errInvalidStackOperation

/-- `DropN(n)`: the top `n` items removed, all of them when there are fewer;
its error, for `n = 0` or too few items, is ignored by every caller. -/
def dropN (s : Stack) (n : Nat) : Stack := { s with stk := s.stk.take (s.depth - n) }

def popBool (s : Stack) : Except ErrorCode (Bool × Stack) :=
  (s.popByteArray).map fun (so, s) => (asBool so, s)

end Stack

/-- `getStack`: `array[len(array)-i-1] = Peek(i)` for every `i`. -/
def getStack (stack : Stack) : List Bytes :=
  (List.range stack.depth).foldl
    (fun array i => array.set (array.length - i - 1)
      ((stack.peekByteArray i).toOption.getD []))
    (List.replicate stack.depth [])

def setStack (stack : Stack) (data : List Bytes) : Stack :=
  data.foldl Stack.pushByteArray (stack.dropN stack.depth)

theorem Stack.foldl_pushByteArray (s : Stack) (data : List Bytes) :
    (data.foldl Stack.pushByteArray s).stk = s.stk ++ data := by
  induction data generalizing s with
  | nil => simp
  | cons d data ih => simp [ih, pushByteArray]

@[simp] theorem setStack_stk (stack : Stack) (data : List Bytes) : (setStack stack data).stk = data := by
  simp [setStack, Stack.foldl_pushByteArray, Stack.dropN, Stack.depth]

theorem Stack.peekByteArray_of_lt {s : Stack} {i : Nat} (h : i < s.stk.length) :
    s.peekByteArray i = .ok s.stk[s.stk.length - i - 1] := by
  simp [peekByteArray, h]

theorem List.set_replicate_append {α : Type} (a : α) (l : List α) {m : Nat} (h : m < l.length) :
    (List.replicate (m + 1) a ++ l.drop (m + 1)).set m l[m] = List.replicate m a ++ l.drop m := by
  rw [List.replicate_succ', List.append_assoc, List.singleton_append,
    List.set_append_right _ _ (by simp), List.length_replicate, Nat.sub_self, List.set_cons_zero,
    List.drop_eq_getElem_cons h]

theorem getStack_eq (stack : Stack) : getStack stack = stack.stk := by
  have key : ∀ k ≤ stack.stk.length, (List.range k).foldl
      (fun array i => array.set (array.length - i - 1) ((stack.peekByteArray i).toOption.getD []))
      (List.replicate stack.stk.length []) =
      List.replicate (stack.stk.length - k) [] ++ stack.stk.drop (stack.stk.length - k) := by
    intro k hk
    induction k with
    | zero => simp
    | succ k ih =>
      obtain ⟨m, hm⟩ : ∃ m, stack.stk.length - k = m + 1 := ⟨stack.stk.length - k - 1, by omega⟩
      rw [List.range_succ, List.foldl_append, ih (by omega), List.foldl_cons, List.foldl_nil,
        Stack.peekByteArray_of_lt (by omega)]
      simp only [List.length_append, List.length_replicate, List.length_drop, Except.toOption,
        Option.getD_some, hm, show stack.stk.length - (k + 1) = m by omega,
        show stack.stk.length - k - 1 = m by omega]
      rw [show m + 1 + (stack.stk.length - (m + 1)) - k - 1 = m by omega]
      exact List.set_replicate_append _ _ (by omega)
  simpa using key stack.stk.length le_rfl

/-- `getStack` and `setStack` are inverse: what `setStack` writes `getStack`
reads back, last item on top, and writing what `getStack` read into any stack
gives it the contents of the stack read. -/
theorem getStack_setStack :
    (∀ (stack : Stack) (data : List Bytes), getStack (setStack stack data) = data) ∧
      ∀ stack stack' : Stack, (setStack stack' (getStack stack)).stk = stack.stk :=
  ⟨fun _ _ => by rw [getStack_eq, setStack_stk], fun _ _ => by rw [setStack_stk, getStack_eq]⟩

end RosettaThought.Txscript
