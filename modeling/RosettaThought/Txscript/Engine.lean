import RosettaThought.Txscript.Stack
import RosettaThought.Txscript.Standard
import RosettaThought.Wire.MsgTx

/-! The script engine: `NewEngine` and `Step`.  The opcode handlers of
`opcode.go` are not in the source; `opfunc` is a parameter that reads the
engine and returns the new stacks, conditional stack, operation count and last
code separator, the only fields a handler writes.  The signature and hash
caches and the input amount are read only by handlers and are left out. -/

namespace RosettaThought.Txscript

open Wire

def scriptBip16 : UInt32 := 0x1
def scriptVerifyCleanStack : UInt32 := 0x20
def scriptVerifyDERSignatures : UInt32 := 0x40
def scriptVerifyLowS : UInt32 := 0x80
def scriptVerifyMinimalData : UInt32 := 0x100
def scriptVerifySigPushOnly : UInt32 := 0x400
def scriptVerifyStrictEncoding : UInt32 := 0x800

def hasFlag (flags flag : UInt32) : Bool := flags &&& flag == flag

def opCondFalse : Int := 0
def opCondTrue : Int := 1
def opCondSkip : Int := 2

structure Engine where
  flags : UInt32
  tx : MsgTx
  txIdx : Int
  bip16 : Bool
  scripts : List Bytes
  scriptIdx : Nat
  opcodeIdx : Nat
  lastCodeSep : Nat
  tokenizer : ScriptTokenizer
  savedFirstStack : List Bytes
  dstack : Stack
  astack : Stack
  condStack : List Int
  numOps : Nat
  deriving DecidableEq

structure OpEffect where
  dstack : Stack
  astack : Stack
  condStack : List Int
  numOps : Nat
  lastCodeSep : Nat

/-- The result of `Step`: `(false, nil)` with the engine moved on, `(true,
nil)`, an error with the `done` flag returned beside it (the engine is then
undefined), or a panic. -/
inductive StepResult
  | next (vm : Engine)
  | finished (vm : Engine)
  | failed (done : Bool) (err : ErrorCode)
  | panic

def isOpcodeDisabled (opcode : UInt8) : Bool :=
  [opCat, opSubStr, opLeft, opRight, opInvert, opAnd, opOr, opXor, op2Mul, op2Div, opMul, opDiv,
    opMod, opLShift, opRShift].contains opcode

def isOpcodeAlwaysIllegal (opcode : UInt8) : Bool := opcode == opVerIf || opcode == opVerNotIf

def isOpcodeConditional (opcode : UInt8) : Bool := [opIf, opNotIf, opElse, opEndIf].contains opcode

def checkMinimalDataPush (opcodeVal : UInt8) (data : Bytes) : Except ErrorCode Unit :=
  let dataLen := data.length
  if dataLen = 0 ∧ opcodeVal ≠ op0 then .error .errMinimalData
  else if dataLen = 1 ∧ 1 ≤ data.headD 0 ∧ data.headD 0 ≤ 16 then
    if opcodeVal ≠ op1 + data.headD 0 - 1 then .error .errMinimalData else .ok ()
  else if dataLen = 1 ∧ data.headD 0 = 0x81 then
    if opcodeVal ≠ op1Negate then .error .errMinimalData else .ok ()
  else if dataLen ≤ 75 then
    if opcodeVal.toNat ≠ dataLen then .error .errMinimalData else .ok ()
  else if dataLen ≤ 255 then
    if opcodeVal ≠ opPushData1 then .error .errMinimalData else .ok ()
  else if dataLen ≤ 65535 then
    if opcodeVal ≠ opPushData2 then .error .errMinimalData else .ok ()
  else .ok ()

theorem ite_error_eq_ok {ε α : Type} {c : Prop} [Decidable c] {e : ε} {x : Except ε α} {v : α}
    (h : (if c then .error e else x) = .ok v) : ¬ c ∧ x = .ok v := by
  by_cases hc : c
  · rw [if_pos hc] at h; cases h
  · rw [if_neg hc] at h; exact ⟨hc, h⟩

namespace Engine

def isBranchExecuting (vm : Engine) : Bool :=
  match vm.condStack.getLast? with
  | none => true
  | some c => c == opCondTrue

def applyEffect (vm : Engine) (eff : OpEffect) : Engine :=
  { vm with dstack := eff.dstack, astack := eff.astack, condStack := eff.condStack,
            numOps := eff.numOps, lastCodeSep := eff.lastCodeSep }

def checkValidPC (vm : Engine) : Except ErrorCode Unit :=
  if vm.scriptIdx ≥ vm.scripts.length then .error .errInvalidProgramCounter else .ok ()

def checkErrorCondition (vm : Engine) (finalScript : Bool) : Except ErrorCode Engine :=
  if vm.scriptIdx < vm.scripts.length then .error .errScriptUnfinished
  else if finalScript ∧ hasFlag vm.flags scriptVerifyCleanStack ∧ vm.dstack.depth ≠ 1 then
    .error .errCleanStack
  else if vm.dstack.depth < 1 then .error .errEmptyStack
  else
    match vm.dstack.popBool with
    | .error e => .error e
    | .ok (v, dstack) => if !v then .error .errEvalFalse else .ok { vm with dstack }

/-- The `switch` at the end of a script in `Step`; `none` is the panic of
`savedFirstStack[len(savedFirstStack)-1]` on an empty slice. -/
def advanceScript (vm : Engine) : Option (Except ErrorCode Engine) :=
  if vm.scriptIdx = 0 ∧ vm.bip16 then
    some (.ok { vm with scriptIdx := vm.scriptIdx + 1, savedFirstStack := getStack vm.dstack })
  else if vm.scriptIdx = 1 ∧ vm.bip16 then
    match { vm with scriptIdx := vm.scriptIdx + 1 }.checkErrorCondition false with
    | .error e => some (.error e)
    | .ok vm =>
      match vm.savedFirstStack.getLast? with
      | none => none
      | some script =>
        match checkScriptParses script with
        | .error e => some (.error e)
        | .ok () => some (.ok { vm with scripts := vm.scripts ++ [script],
                                        dstack := setStack vm.dstack vm.savedFirstStack.dropLast })
  else some (.ok { vm with scriptIdx := vm.scriptIdx + 1 })

def enterScript (vm : Engine) : StepResult :=
  let vm := if vm.scripts[vm.scriptIdx]? = some [] then { vm with scriptIdx := vm.scriptIdx + 1 }
    else vm
  let vm := { vm with lastCodeSep := 0 }
  match vm.scripts[vm.scriptIdx]? with
  | none => .finished vm
  | some script => .next { vm with tokenizer := makeScriptTokenizer script }

def endScript (vm : Engine) : StepResult :=
  if vm.condStack ≠ [] then .failed false .errUnbalancedConditional else
  match { vm with astack := vm.astack.dropN vm.astack.depth, numOps := 0, opcodeIdx := 0 }.advanceScript
  with
  | none => .panic
  | some (.error e) => .failed false e
  | some (.ok vm) => vm.enterScript

section

variable (opfunc : UInt8 → Bytes → Engine → Except ErrorCode OpEffect)

def executeOpcode (vm : Engine) (op : UInt8) (data : Bytes) : Except ErrorCode Engine :=
  if isOpcodeDisabled op then .error .errDisabledOpcode
  else if isOpcodeAlwaysIllegal op then .error .errReservedOpcode
  else if data.length > maxScriptElementSize then .error .errElementTooBig
  else if !vm.isBranchExecuting && !isOpcodeConditional op then .ok vm
  else
    let minimal : Except ErrorCode Unit :=
      if vm.dstack.verifyMinimalData && vm.isBranchExecuting && op ≤ opPushData4 then
        checkMinimalDataPush op data
      else .ok ()
    match minimal with
    | .error e => .error e
    | .ok () => (opfunc op data vm).map vm.applyEffect

def step (vm : Engine) : StepResult :=
  match vm.checkValidPC with
  | .error e => .failed true e
  | .ok () =>
  match vm.tokenizer.next with
  | (false, t) =>
    match t.err with
    | some e => .failed false e
    | none => .failed true .errInvalidProgramCounter
  | (true, t) =>
  match { vm with tokenizer := t }.executeOpcode opfunc t.op t.data with
  | .error e => .failed true e
  | .ok vm =>
  if vm.dstack.depth + vm.astack.depth > maxStackSize then .failed false .errStackOverflow else
  let vm := { vm with opcodeIdx := vm.opcodeIdx + 1 }
  if !vm.tokenizer.done then .next vm else vm.endScript

end

section Lemmas

variable {opfunc : UInt8 → Bytes → Engine → Except ErrorCode OpEffect}

theorem executeOpcode_ok {vm vm' : Engine} {op : UInt8} {data : Bytes}
    (h : vm.executeOpcode opfunc op data = .ok vm') :
    vm' = vm ∨ ∃ eff, opfunc op data vm = .ok eff ∧ vm' = vm.applyEffect eff := by
  unfold executeOpcode at h
  obtain ⟨-, h⟩ := ite_error_eq_ok h
  obtain ⟨-, h⟩ := ite_error_eq_ok h
  obtain ⟨-, h⟩ := ite_error_eq_ok h
  by_cases hs : (!vm.isBranchExecuting && !isOpcodeConditional op) = true
  · rw [if_pos hs] at h; exact .inl (Except.ok.inj h).symm
  rw [if_neg hs] at h
  dsimp only at h
  split at h
  · cases h
  rcases hx : opfunc op data vm with e | eff <;> rw [hx] at h <;> cases h
  exact .inr ⟨eff, rfl, rfl⟩

theorem executeOpcode_frame {vm vm' : Engine} {op : UInt8} {data : Bytes}
    (h : vm.executeOpcode opfunc op data = .ok vm') :
    vm'.scripts = vm.scripts ∧ vm'.scriptIdx = vm.scriptIdx ∧ vm'.tokenizer = vm.tokenizer ∧
      vm'.bip16 = vm.bip16 ∧ vm'.savedFirstStack = vm.savedFirstStack := by
  rcases executeOpcode_ok h with rfl | ⟨_, -, rfl⟩ <;> exact ⟨rfl, rfl, rfl, rfl, rfl⟩

theorem executeOpcode_hash160 {vm : Engine} (hc : vm.condStack = []) :
    vm.executeOpcode opfunc opHash160 [] = (opfunc opHash160 [] vm).map vm.applyEffect := by
  have h1 : isOpcodeDisabled opHash160 = false := by decide
  have h2 : isOpcodeAlwaysIllegal opHash160 = false := by decide
  have h3 : ¬ opHash160 ≤ opPushData4 := by decide
  simp [executeOpcode, isBranchExecuting, hc, h1, h2, h3]

theorem checkErrorCondition_ok {vm vm' : Engine} {finalScript : Bool}
    (h : vm.checkErrorCondition finalScript = .ok vm') : ∃ dstack, vm' = { vm with dstack } := by
  unfold checkErrorCondition at h
  obtain ⟨-, h⟩ := ite_error_eq_ok h
  obtain ⟨-, h⟩ := ite_error_eq_ok h
  obtain ⟨-, h⟩ := ite_error_eq_ok h
  split at h
  · cases h
  · obtain ⟨-, h⟩ := ite_error_eq_ok h
    exact ⟨_, (Except.ok.inj h).symm⟩

theorem advanceScript_none {vm : Engine} (h : vm.advanceScript = none) :
    vm.scriptIdx = 1 ∧ vm.bip16 = true ∧ vm.savedFirstStack = [] := by
  unfold advanceScript at h
  split_ifs at h with h0 h1
  split at h
  · cases h
  · obtain ⟨d, rfl⟩ := checkErrorCondition_ok ‹_›
    split at h
    · exact ⟨h1.1, h1.2, List.getLast?_eq_none_iff.mp ‹_›⟩
    · split at h <;> cases h

theorem advanceScript_ok {vm vm' : Engine} (h : vm.advanceScript = some (.ok vm')) :
    (vm.scriptIdx = 0 ∧ vm.bip16 = true ∧
        vm' = { vm with scriptIdx := vm.scriptIdx + 1, savedFirstStack := vm.dstack.stk }) ∨
      (vm.scriptIdx = 1 ∧ vm.bip16 = true ∧ ∃ script dstack,
        vm.savedFirstStack.getLast? = some script ∧ checkScriptParses script = .ok () ∧
        dstack.stk = vm.savedFirstStack.dropLast ∧
        vm' = { vm with scriptIdx := vm.scriptIdx + 1, scripts := vm.scripts ++ [script], dstack }) ∨
      (¬ (vm.scriptIdx = 0 ∧ vm.bip16 = true) ∧ ¬ (vm.scriptIdx = 1 ∧ vm.bip16 = true) ∧
        vm' = { vm with scriptIdx := vm.scriptIdx + 1 }) := by
  unfold advanceScript at h
  split_ifs at h with h0 h1
  · cases h
    exact .inl ⟨h0.1, h0.2, by rw [getStack_eq]⟩
  · split at h
    · cases h
    · obtain ⟨d, rfl⟩ := checkErrorCondition_ok ‹_›
      split at h
      · cases h
      · split at h
        · cases h
        · cases h
          exact .inr (.inl ⟨h1.1, h1.2, _, _, ‹_›, ‹_›, setStack_stk _ _, rfl⟩)
  · cases h
    exact .inr (.inr ⟨h0, h1, rfl⟩)

theorem enterScript_next {vm vm' : Engine} (hlen : vm.scripts.length ≤ vm.scriptIdx + 1)
    (h : vm.enterScript = .next vm') :
    ∃ script, vm.scripts[vm.scriptIdx]? = some script ∧ script ≠ [] ∧
      vm' = { vm with lastCodeSep := 0, tokenizer := makeScriptTokenizer script } := by
  unfold enterScript at h
  by_cases he : vm.scripts[vm.scriptIdx]? = some []
  · simp only [he, if_true, List.getElem?_eq_none (by omega : vm.scripts.length ≤ vm.scriptIdx + 1),
      reduceCtorEq] at h
  · simp only [he, if_false] at h
    split at h
    · cases h
    · cases h
      exact ⟨_, ‹_›, fun hn => he (hn ▸ ‹_›), rfl⟩

theorem enterScript_frame {vm vm' : Engine}
    (h : vm.enterScript = .next vm' ∨ vm.enterScript = .finished vm') :
    vm'.scripts = vm.scripts ∧ vm'.dstack = vm.dstack := by
  unfold enterScript at h
  dsimp only at h
  split_ifs at h <;> split at h <;> rcases h with h | h <;> cases h <;> exact ⟨rfl, rfl⟩

theorem enterScript_ne_panic (vm : Engine) : vm.enterScript ≠ .panic := by
  unfold enterScript
  dsimp only
  split_ifs <;> split <;> simp

theorem endScript_of_not_failed {vm : Engine} {r : StepResult} (h : vm.endScript = r)
    (hr : ∀ d e, r ≠ .failed d e) :
    vm.condStack = [] ∧
      ((r = .panic ∧
          { vm with astack := vm.astack.dropN vm.astack.depth, numOps := 0,
                    opcodeIdx := 0 }.advanceScript = none) ∨
        ∃ vm',
          { vm with astack := vm.astack.dropN vm.astack.depth, numOps := 0,
                    opcodeIdx := 0 }.advanceScript = some (.ok vm') ∧ r = vm'.enterScript) := by
  unfold endScript at h
  split_ifs at h with hc
  · exact absurd h.symm (hr _ _)
  refine ⟨not_not.mp hc, ?_⟩
  split at h
  · exact .inl ⟨h.symm, ‹_›⟩
  · exact absurd h.symm (hr _ _)
  · exact .inr ⟨_, ‹_›, h.symm⟩

theorem step_of_not_failed {vm : Engine} {r : StepResult} (h : vm.step opfunc = r)
    (hr : ∀ d e, r ≠ .failed d e) :
    ∃ t vm1, vm.tokenizer.next = (true, t) ∧
      { vm with tokenizer := t }.executeOpcode opfunc t.op t.data = .ok vm1 ∧
      ((t.done = false ∧ r = .next { vm1 with opcodeIdx := vm1.opcodeIdx + 1 }) ∨
        (t.done = true ∧ r = { vm1 with opcodeIdx := vm1.opcodeIdx + 1 }.endScript)) := by
  unfold step at h
  split at h
  · exact absurd h.symm (hr _ _)
  split at h
  · split at h <;> exact absurd h.symm (hr _ _)
  next t hn =>
  split at h
  · exact absurd h.symm (hr _ _)
  next vm1 hex =>
  have ht := (executeOpcode_frame hex).2.2.1
  dsimp only at h
  split_ifs at h with hov hd
  · exact absurd h.symm (hr _ _)
  · exact ⟨t, vm1, hn, hex, .inl ⟨by simpa [ht] using hd, h.symm⟩⟩
  · exact ⟨t, vm1, hn, hex, .inr ⟨by simpa [ht] using hd, h.symm⟩⟩

end Lemmas

end Engine

def Engine.effect (vm : Engine) : OpEffect :=
  ⟨vm.dstack, vm.astack, vm.condStack, vm.numOps, vm.lastCodeSep⟩

/-- `opcodeHash160` (`opcode.go`, not in the source): the top item replaced
by its `Hash160`, which is a parameter here. -/
def opcodeHash160 (hash160 : Bytes → Bytes) (vm : Engine) : Except ErrorCode OpEffect :=
  match vm.dstack.popByteArray with
  | .error e => .error e
  | .ok (buf, dstack) => .ok { vm.effect with dstack := dstack.pushByteArray (hash160 buf) }

theorem opcodeHash160_of_empty (hash160 : Bytes → Bytes) {vm : Engine} (h : vm.dstack.stk = []) :
    opcodeHash160 hash160 vm = .error .errInvalidStackOperation := by
  simp [opcodeHash160, Stack.popByteArray, h]

def checkScriptSizeAndParses (scr : Bytes) : Except ErrorCode Unit :=
  if scr.length > maxScriptSize then .error .errScriptTooBig else checkScriptParses scr

def newEngine (scriptPubKey : Bytes) (tx : MsgTx) (txIdx : Int) (flags : UInt32) :
    Except ErrorCode Engine :=
  if txIdx < 0 ∨ tx.txIn.length ≤ txIdx then .error .errInvalidIndex else
  let scriptSig := (tx.txIn[txIdx.toNat]?.map TxIn.signatureScript).getD []
  if scriptSig.length = 0 ∧ scriptPubKey.length = 0 then .error .errEvalFalse else
  if hasFlag flags scriptVerifySigPushOnly ∧ !isPushOnlyScript scriptSig then
    .error .errNotPushOnly else
  let bip16 := hasFlag flags scriptBip16 && isScriptHashScript scriptPubKey
  if bip16 ∧ !hasFlag flags scriptVerifySigPushOnly ∧ !isPushOnlyScript scriptSig then
    .error .errNotPushOnly else
  let scripts := [scriptSig, scriptPubKey]
  match scripts.forM checkScriptSizeAndParses with
  | .error e => .error e
  | .ok () =>
  let scriptIdx := if scriptSig.length = 0 then 1 else 0
  let minimal := hasFlag flags scriptVerifyMinimalData
  .ok { flags, tx, txIdx, bip16, scripts, scriptIdx, opcodeIdx := 0, lastCodeSep := 0,
        tokenizer := makeScriptTokenizer (scripts.getD scriptIdx []), savedFirstStack := [],
        dstack := ⟨[], minimal⟩, astack := ⟨[], minimal⟩, condStack := [], numOps := 0 }

end RosettaThought.Txscript
