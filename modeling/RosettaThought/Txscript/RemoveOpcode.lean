import RosettaThought.Txscript.SigValidate

namespace RosettaThought.Txscript

namespace ScriptTokenizer

def advanceAll (t : ScriptTokenizer) : List Token → List ScriptTokenizer
  | [] => []
  | tk :: toks => t.advance tk :: (t.advance tk).advanceAll toks

theorem run_fst_eq_advanceAll (t : ScriptTokenizer) (he : t.err = none) :
    t.run.1 = t.advanceAll (t.run.1.map token) := by
  induction t using run.induct with
  | case1 t t' h _ ih =>
    obtain ⟨tk, -, -, -, rfl⟩ := next_true h
    rw [run_of_next_true h, List.map_cons, advance_token, advanceAll]
    exact congrArg _ (ih he)
  | case2 t t' h => rw [run_of_next_false h]; rfl

end ScriptTokenizer

open ScriptTokenizer

section Remove

variable (script : Bytes) (P : Token → Prop) [DecidablePred P]

/-- The loop body of `removeOpcodeRaw` and `removeOpcodeByData`: a token the
test picks starts the copy with the bytes before it and is left out; any other
token is copied once the copy has started.  The offset is the end of the last
token read. -/
def removeStep (acc : Option Bytes × Nat) (t : ScriptTokenizer) : Option Bytes × Nat :=
  if P t.token then (acc.1.orElse fun _ => some (script.take acc.2), t.offset)
  else (acc.1.map (· ++ (script.drop acc.2).take (t.offset - acc.2)), t.offset)

variable {script P}

theorem foldl_removeStep {t : ScriptTokenizer} {toks : List Token} {tail : Bytes}
    (hs : t.script = script) (hr : t.rest = encodeAll toks ++ tail) (acc : Option Bytes) :
    ((t.advanceAll toks).foldl (removeStep script P) (acc, t.offset)).1 =
      (acc.orElse fun _ => if toks.any (P ·) then some (script.take t.offset) else none).map
        (· ++ encodeAll (toks.filter fun tk => ¬ P tk)) := by
  induction toks generalizing t acc with
  | nil => cases acc <;> simp [advanceAll]
  | cons tk toks ih =>
    have hd : script.drop t.offset = tk.bytes ++ (encodeAll toks ++ tail) := by
      rw [← hs]; simpa [rest] using hr
    have hr' : (t.advance tk).rest = encodeAll toks ++ tail := rest_advance (by rw [hr]; simp)
    have ht : script.take (t.advance tk).offset = script.take t.offset ++ tk.bytes := by
      rw [advance, List.take_add, hd, List.take_left]
    rw [advanceAll, List.foldl_cons, removeStep, advance_token]
    by_cases hp : P tk
    · rw [if_pos hp, ih (by simpa using hs) hr']
      cases acc <;> simp [hp]
    · rw [if_neg hp, advance, Nat.add_sub_cancel_left, hd, List.take_left]
      rw [← advance, ih (by simpa using hs) hr']
      cases acc <;> simp [hp, ht]

theorem foldl_removeStep_run :
    ((makeScriptTokenizer script).run.1.foldl (removeStep script P) (none, 0)).1.getD script =
      if ((makeScriptTokenizer script).run.1.map token).any (P ·) then
        encodeAll (((makeScriptTokenizer script).run.1.map token).filter fun tk => ¬ P tk)
      else script := by
  obtain ⟨hr, -⟩ := run_sound (makeScriptTokenizer script) rfl
  have h := @foldl_removeStep script P _ (makeScriptTokenizer script) _ _ rfl hr none
  rw [← run_fst_eq_advanceAll _ rfl, show (makeScriptTokenizer script).offset = 0 from rfl] at h
  rw [h]
  split <;> simp [makeScriptTokenizer]

end Remove

theorem removeOpcodeRaw_eq (script : Bytes) (opcode : UInt8) :
    removeOpcodeRaw script opcode =
      if ((makeScriptTokenizer script).run.1.map token).any (·.op = opcode) then
        encodeAll (((makeScriptTokenizer script).run.1.map token).filter (·.op ≠ opcode))
      else script := by
  by_cases h0 : script.length = 0
  · rw [removeOpcodeRaw, if_pos h0, List.length_eq_zero.mp h0,
      run_of_next_false (next_of_rest_nil (t := makeScriptTokenizer []) rfl)]
    rfl
  · rw [removeOpcodeRaw, if_neg h0]
    exact foldl_removeStep_run (P := fun tk => tk.op = opcode)

theorem removeOpcodeRaw_of_tokenizes {script : Bytes} {toks : List Token} (h : Tokenizes script toks)
    (opcode : UInt8) : removeOpcodeRaw script opcode = encodeAll (toks.filter (·.op ≠ opcode)) := by
  rw [removeOpcodeRaw_eq, h.run.1]
  split
  · rfl
  · rename_i hn
    rw [List.filter_eq_self.mpr (by simpa using hn), h.2]

/-- `removeOpcodeByData` on any script: with data to remove, the tokens `Next`
reads before it stops, without the canonical pushes whose data contains it;
the script unchanged when there is no such push or no data. -/
theorem removeOpcodeByData_eq (script dataToRemove : Bytes) :
    removeOpcodeByData script dataToRemove =
      if dataToRemove ≠ [] ∧ ((makeScriptTokenizer script).run.1.map token).any
          (fun tk => isCanonicalPush tk.op tk.data ∧ dataToRemove <:+: tk.data) then
        encodeAll (((makeScriptTokenizer script).run.1.map token).filter
          fun tk => ¬ (isCanonicalPush tk.op tk.data ∧ dataToRemove <:+: tk.data))
      else script := by
  by_cases h0 : script.length = 0 ∨ dataToRemove.length = 0
  · rw [removeOpcodeByData, if_pos h0]
    rcases h0 with h0 | h0
    · rw [List.length_eq_zero.mp h0, run_of_next_false (next_of_rest_nil (t := makeScriptTokenizer []) rfl)]
      simp
    · simp [List.length_eq_zero.mp h0]
  · rw [removeOpcodeByData, if_neg h0]
    refine (foldl_removeStep_run (P := fun tk =>
      isCanonicalPush tk.op tk.data = true ∧ dataToRemove <:+: tk.data)).trans ?_
    simp only [List.length_eq_zero, not_or] at h0
    simp [h0.2]

open Wire in
/-- `calcSignatureHash` signs the script without its `OP_CODESEPARATOR`s: two
scripts that parse to the same tokens once those are dropped have the same
signature hash, for every hash function, hash type, transaction and input. -/
theorem calcSignatureHash_codeSeparators (doubleHashB : Bytes → Bytes) {script script' : Bytes}
    {toks toks' : List Token} (h : Tokenizes script toks) (h' : Tokenizes script' toks')
    (heq : toks.filter (·.op ≠ opCodeSeparator) = toks'.filter (·.op ≠ opCodeSeparator))
    (hashType : UInt32) (tx : MsgTx) (idx : Nat) :
    calcSignatureHash doubleHashB script hashType tx idx =
      calcSignatureHash doubleHashB script' hashType tx idx := by
  simp only [calcSignatureHash, removeOpcodeRaw_of_tokenizes h, removeOpcodeRaw_of_tokenizes h', heq]

theorem calcSignatureHash_codeSeparators_one :
    Tokenizes [opCodeSeparator, op1] [⟨opCodeSeparator, []⟩, ⟨op1, []⟩] ∧
      Tokenizes [op1] [⟨op1, []⟩] ∧
      [(⟨opCodeSeparator, []⟩ : Token), ⟨op1, []⟩].filter (·.op ≠ opCodeSeparator) =
        [(⟨op1, []⟩ : Token)].filter (·.op ≠ opCodeSeparator) ∧
      calcSignatureHash id [opCodeSeparator, op1] sigHashAll oneInputTx 0 =
        calcSignatureHash id [op1] sigHashAll oneInputTx 0 :=
  have h : Tokenizes [opCodeSeparator, op1] [⟨opCodeSeparator, []⟩, ⟨op1, []⟩] := by
    unfold Tokenizes; decide
  have h' : Tokenizes [op1] [⟨op1, []⟩] := by unfold Tokenizes; decide
  have heq : [(⟨opCodeSeparator, []⟩ : Token), ⟨op1, []⟩].filter (·.op ≠ opCodeSeparator) =
      [(⟨op1, []⟩ : Token)].filter (·.op ≠ opCodeSeparator) := by decide
  ⟨h, h', heq, calcSignatureHash_codeSeparators id h h' heq _ _ _⟩

end RosettaThought.Txscript
