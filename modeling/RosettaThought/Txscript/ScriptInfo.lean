import RosettaThought.Txscript.ScriptBuilder

namespace RosettaThought.Txscript

open ScriptTokenizer

def sigOpcodes : List UInt8 := [opCheckSig, opCheckSigVerify, opCheckMultiSig, opCheckMultiSigVerify]

def sigOpCost (precise : Bool) (prevOp op : UInt8) : Nat :=
  if op = opCheckSig ∨ op = opCheckSigVerify then 1
  else if op = opCheckMultiSig ∨ op = opCheckMultiSigVerify then
    if precise ∧ prevOp ≥ op1 ∧ prevOp ≤ op16 then asSmallInt prevOp else maxPubKeysPerMultiSig
  else 0

def sigOpStep (precise : Bool) (acc : Nat × UInt8) (t : ScriptTokenizer) : Nat × UInt8 :=
  (acc.1 + sigOpCost precise acc.2 t.op, t.op)

/-- `countSigOpsV0`: the signature operations of the opcodes `Next` reads, up
to a parse error; the first opcode is read after `OP_INVALIDOPCODE`. -/
def countSigOpsV0 (script : Bytes) (precise : Bool) : Nat :=
  ((makeScriptTokenizer script).run.1.foldl (sigOpStep precise) (0, opInvalidOpcode)).1

def sigOpsAfter (precise : Bool) : UInt8 → List UInt8 → Nat
  | _, [] => 0
  | prevOp, op :: ops => sigOpCost precise prevOp op + sigOpsAfter precise op ops

theorem foldl_sigOpStep (precise : Bool) (ts : List ScriptTokenizer) (n : Nat) (prevOp : UInt8) :
    (ts.foldl (sigOpStep precise) (n, prevOp)).1 =
      n + sigOpsAfter precise prevOp (ts.map (·.op)) := by
  induction ts generalizing n prevOp with
  | nil => rfl
  | cons t ts ih => rw [List.foldl_cons, sigOpStep, ih, List.map_cons, sigOpsAfter, Nat.add_assoc]

theorem countSigOpsV0_eq (script : Bytes) (precise : Bool) :
    countSigOpsV0 script precise =
      sigOpsAfter precise opInvalidOpcode ((makeScriptTokenizer script).run.1.map (·.op)) := by
  rw [countSigOpsV0, foldl_sigOpStep, Nat.zero_add]

theorem countSigOpsV0_of_tokenizes {script : Bytes} {toks : List Token} (h : Tokenizes script toks)
    (precise : Bool) :
    countSigOpsV0 script precise = sigOpsAfter precise opInvalidOpcode (toks.map Token.op) := by
  rw [countSigOpsV0_eq, ← h.run.1, List.map_map]
  rfl

theorem sigOpCost_precise_le (prevOp op : UInt8) :
    sigOpCost true prevOp op ≤ sigOpCost false prevOp op := by
  unfold sigOpCost
  by_cases h : prevOp ≥ op1 ∧ prevOp ≤ op16
  · have := asSmallInt_le (show isSmallInt prevOp = true by simp [isSmallInt, h.1, h.2])
    simp only [h, and_self, if_true, Bool.false_eq_true, false_and, if_false]
    split_ifs <;> simp only [maxPubKeysPerMultiSig, le_refl]
    omega
  · simp only [h, and_false, if_false, Bool.false_eq_true, false_and, le_refl]

theorem sigOpsAfter_precise_le (prevOp : UInt8) (ops : List UInt8) :
    sigOpsAfter true prevOp ops ≤ sigOpsAfter false prevOp ops := by
  induction ops generalizing prevOp with
  | nil => exact le_rfl
  | cons op ops ih => exact Nat.add_le_add (sigOpCost_precise_le prevOp op) (ih op)

/-- Precise counting never counts more than the legacy count, on any script. -/
theorem countSigOpsV0_precise_le (script : Bytes) :
    countSigOpsV0 script true ≤ countSigOpsV0 script false := by
  rw [countSigOpsV0_eq, countSigOpsV0_eq]
  exact sigOpsAfter_precise_le _ _

theorem sigOpCost_of_not_mem {op : UInt8} (h : op ∉ sigOpcodes) (precise : Bool) (prevOp : UInt8) :
    sigOpCost precise prevOp op = 0 := by
  simp only [sigOpcodes, List.mem_cons, List.not_mem_nil, or_false, not_or] at h
  simp [sigOpCost, h]

theorem not_mem_sigOpcodes_of_isSmallInt {op : UInt8} (h : isSmallInt op = true) :
    op ∉ sigOpcodes := by
  rw [isSmallInt_iff] at h
  simp only [sigOpcodes, List.mem_cons, List.not_mem_nil, or_false, UInt8.eq_iff_toNat_eq,
    opCheckSig, opCheckSigVerify, opCheckMultiSig, opCheckMultiSigVerify, UInt8.toNat_lit]
  omega

theorem sigOpsAfter_append_of_not_mem {ops : List UInt8} (h : ∀ op ∈ ops, op ∉ sigOpcodes)
    (precise : Bool) (prevOp : UInt8) (rest : List UInt8) :
    sigOpsAfter precise prevOp (ops ++ rest) =
      sigOpsAfter precise ((prevOp :: ops).getLast (List.cons_ne_nil _ _)) rest := by
  induction ops generalizing prevOp with
  | nil => rfl
  | cons op ops ih =>
    simp only [List.mem_cons, forall_eq_or_imp] at h
    rw [List.cons_append, sigOpsAfter, sigOpCost_of_not_mem h.1, Nat.zero_add, ih h.2,
      List.getLast_cons_cons]

theorem sigOpCost_checkMultiSig (precise : Bool) {opN : UInt8} (hN : isSmallInt opN = true) :
    sigOpCost precise opN opCheckMultiSig =
      if precise ∧ asSmallInt opN ≠ 0 then asSmallInt opN else maxPubKeysPerMultiSig := by
  rw [isSmallInt_iff] at hN
  have hpos : (opN ≥ op1 ∧ opN ≤ op16) ↔ asSmallInt opN ≠ 0 := by
    simp only [asSmallInt, beq_iff_eq, UInt8.le_iff_toNat_le, UInt8.eq_iff_toNat_eq, op0, op1,
      op16, UInt8.toNat_lit, ge_iff_le]
    split <;> omega
  rw [sigOpCost, if_neg (by decide), if_pos (.inl rfl)]
  simp only [hpos]

theorem MultisigForm.tokenizes {script : Bytes} {opM opN : UInt8} {mid : List Token}
    (h : MultisigForm script opM mid opN) :
    Tokenizes script (⟨opM, []⟩ :: (mid ++ [⟨opN, []⟩, ⟨opCheckMultiSig, []⟩])) := by
  obtain ⟨hM, hN, -, hmid, rfl⟩ := h
  obtain ⟨hwfM, hbM⟩ := Token.plain (isSmallInt_opcodeLength hM)
  obtain ⟨hwfN, hbN⟩ := Token.plain (isSmallInt_opcodeLength hN)
  obtain ⟨hwfC, hbC⟩ := Token.plain (show opcodeLength opCheckMultiSig = 1 by decide)
  refine ⟨fun tk htk => ?_, by simp [hbM, hbN, hbC]⟩
  simp only [List.mem_cons, List.mem_append, List.not_mem_nil, or_false] at htk
  rcases htk with rfl | hm | rfl | rfl
  exacts [hwfM, (hmid tk hm).1, hwfN, hwfC]

theorem countSigOpsV0_of_multisigForm {script : Bytes} {opM opN : UInt8} {mid : List Token}
    (h : MultisigForm script opM mid opN) (hmid : ∀ tk ∈ mid, tk.op ∉ sigOpcodes)
    (precise : Bool) :
    countSigOpsV0 script precise =
      if precise ∧ mid ≠ [] then mid.length else maxPubKeysPerMultiSig := by
  have ht := h.tokenizes
  obtain ⟨hM, hN, hn, -⟩ := h
  have hops : ∀ op ∈ mid.map Token.op, op ∉ sigOpcodes := by simpa using hmid
  rw [countSigOpsV0_of_tokenizes ht, List.map_cons, List.map_append, sigOpsAfter,
    sigOpCost_of_not_mem (not_mem_sigOpcodes_of_isSmallInt hM), Nat.zero_add,
    sigOpsAfter_append_of_not_mem hops]
  simp only [List.map_cons, List.map_nil, sigOpsAfter,
    sigOpCost_of_not_mem (not_mem_sigOpcodes_of_isSmallInt hN), sigOpCost_checkMultiSig _ hN, hn,
    Nat.zero_add, Nat.add_zero, ne_eq, List.length_eq_zero]

/-- `expectedInputs`: the stack items a script of class `cls` takes, `-1` when
unknown; `none` is the panic of `script[0]` on an empty script. -/
def expectedInputs (script : Bytes) (cls : ScriptClass) : Option Int :=
  match cls with
  | .pubKeyTy => some 1
  | .pubKeyHashTy => some 2
  | .scriptHashTy => some 1
  | .multiSigTy => script[0]?.map fun op => asSmallInt op + 1
  | .nullDataTy | .nonStandardTy => some (-1)

theorem expectedInputs_typeOfScript_isSome (script : Bytes) :
    (expectedInputs script (typeOfScript script)).isSome := by
  cases h : typeOfScript script
  any_goals rfl
  obtain ⟨op, h0, -⟩ := isMultisigScript_head (matchesTemplate_typeOfScript h (by decide))
  simp [expectedInputs, h0]

theorem expectedInputs_of_multisigForm {script : Bytes} {opM opN : UInt8} {mid : List Token}
    (h : MultisigForm script opM mid opN) :
    expectedInputs script (typeOfScript script) = some ((asSmallInt opM : Int) + 1) := by
  rw [typeOfScript_of_matchesTemplate (c := .multiSigTy) (isMultisigScript_iff.mpr ⟨_, _, _, h⟩),
    expectedInputs, h.2.2.2.2, List.getElem?_cons_zero, Option.map_some']

structure ScriptInfo where
  pkScriptClass : ScriptClass
  numInputs : Nat
  expectedInputs : Int
  sigOps : Nat
  deriving DecidableEq, Repr

/-- `CalcScriptInfo`; `none` is a panic of `expectedInputs`.  The witness
argument is not read. -/
def calcScriptInfo (sigScript pkScript : Bytes) (bip16 segwit : Bool) :
    Option (Except ErrorCode ScriptInfo) :=
  let r := (makeScriptTokenizer sigScript).run
  let numInputs := r.1.length
  match r.2.err with
  | some err => some (.error err)
  | none =>
    match checkScriptParses pkScript with
    | .error err => some (.error err)
    | .ok () =>
      if !isPushOnlyScript sigScript then some (.error .errNotPushOnly) else
      let pkScriptClass := typeOfScript pkScript
      (expectedInputs pkScript pkScriptClass).bind fun expected =>
        if pkScriptClass = .scriptHashTy ∧ bip16 ∧ !segwit then
          let redeemScript := finalOpcodeData sigScript
          (expectedInputs redeemScript (typeOfScript redeemScript)).map fun rsInputs =>
            .ok ⟨pkScriptClass, numInputs, if rsInputs = -1 then -1 else expected + rsInputs,
              countSigOpsV0 redeemScript true⟩
        else some (.ok ⟨pkScriptClass, numInputs, expected, countSigOpsV0 pkScript true⟩)

theorem calcScriptInfo_of_pushOnly {sigScript pkScript : Bytes} {toks : List Token}
    (hs : Tokenizes sigScript toks) (hpush : ∀ tk ∈ toks, tk.op ≤ op16)
    (hpk : checkScriptParses pkScript = .ok ()) (bip16 segwit : Bool) :
    calcScriptInfo sigScript pkScript bip16 segwit =
      (expectedInputs pkScript (typeOfScript pkScript)).bind fun expected =>
        if typeOfScript pkScript = .scriptHashTy ∧ bip16 ∧ !segwit then
          (expectedInputs (finalOpcodeData sigScript) (typeOfScript (finalOpcodeData sigScript))).map
            fun rsInputs => .ok ⟨typeOfScript pkScript, toks.length,
              if rsInputs = -1 then -1 else expected + rsInputs,
              countSigOpsV0 (finalOpcodeData sigScript) true⟩
        else some (.ok ⟨typeOfScript pkScript, toks.length, expected, countSigOpsV0 pkScript true⟩) := by
  obtain ⟨hr, he⟩ := hs.run
  have hlen : (makeScriptTokenizer sigScript).run.1.length = toks.length := by
    rw [← hr, List.length_map]
  unfold calcScriptInfo
  dsimp only
  rw [he, hpk, isPushOnlyScript_iff.mpr ⟨toks, hs, hpush⟩, hlen]
  rfl

theorem calcScriptInfo_of_not_pushOnly {sigScript pkScript : Bytes}
    (h : ¬ (isPushOnlyScript sigScript = true ∧ checkScriptParses pkScript = .ok ()))
    (bip16 segwit : Bool) :
    ∃ err, calcScriptInfo sigScript pkScript bip16 segwit = some (.error err) := by
  unfold calcScriptInfo
  dsimp only
  rcases (makeScriptTokenizer sigScript).run.2.err with _ | err
  · rcases hc : checkScriptParses pkScript with err | ⟨⟩
    · exact ⟨err, rfl⟩
    · rw [Bool.eq_false_iff.mpr fun hpo => h ⟨hpo, hc⟩]
      exact ⟨_, rfl⟩
  · exact ⟨err, rfl⟩

/-- `CalcScriptInfo` never panics, and it fails exactly when the signature
script is not a parsing push-only script or the public key script does not
parse. -/
theorem calcScriptInfo_isSome_ok_iff (sigScript pkScript : Bytes) (bip16 segwit : Bool) :
    ∃ r, calcScriptInfo sigScript pkScript bip16 segwit = some r ∧
      ((∃ info, r = .ok info) ↔
        (∃ toks, Tokenizes sigScript toks ∧ ∀ tk ∈ toks, tk.op ≤ op16) ∧
          ∃ toks, Tokenizes pkScript toks) := by
  have hiff := and_congr (@isPushOnlyScript_iff sigScript) (@checkScriptParses_eq_ok pkScript)
  by_cases hp : isPushOnlyScript sigScript = true ∧ checkScriptParses pkScript = .ok ()
  · obtain ⟨toks, hs, hpush⟩ := isPushOnlyScript_iff.mp hp.1
    obtain ⟨e, he⟩ := Option.isSome_iff_exists.mp (expectedInputs_typeOfScript_isSome pkScript)
    obtain ⟨e', he'⟩ :=
      Option.isSome_iff_exists.mp (expectedInputs_typeOfScript_isSome (finalOpcodeData sigScript))
    rw [calcScriptInfo_of_pushOnly hs hpush hp.2, he, Option.some_bind, he', Option.map_some']
    split_ifs <;> exact ⟨_, rfl, iff_of_true ⟨_, rfl⟩ (hiff.mp hp)⟩
  · obtain ⟨err, he⟩ := calcScriptInfo_of_not_pushOnly hp bip16 segwit
    exact ⟨_, he, iff_of_false (by rintro ⟨_, ⟨⟩⟩) (hp ∘ hiff.mpr)⟩

def calcMultiSigStats (script : Bytes) : Except ErrorCode (Nat × Nat) :=
  let details := extractMultisigScriptDetails script false
  if !details.valid then .error .errNotMultisigScript
  else .ok (details.numPubKeys, details.requiredSigs)

theorem calcMultiSigStats_of_multisigForm {script : Bytes} {opM opN : UInt8} {mid : List Token}
    (h : MultisigForm script opM mid opN) :
    calcMultiSigStats script = .ok (mid.length, asSmallInt opM) := by
  simp [calcMultiSigStats, extractMultisigScriptDetails_of_form h]

/-- `IsMultisigSigScript`: a cheap test of the last byte, then whether the data
of the last opcode is a multisig script.  `[]` stands for Go's `nil`; a non-nil
empty push fails in `isMultisigScript` alike. -/
def isMultisigSigScript (script : Bytes) : Bool :=
  if script.length < 4 ∨ script.getLast? ≠ some opCheckMultiSig then false else
  let possibleRedeemScript := finalOpcodeData script
  if possibleRedeemScript = [] then false else isMultisigScript possibleRedeemScript

theorem Token.exists_bytes_eq (tk : Token) : ∃ pre, tk.bytes = tk.op :: (pre ++ tk.data) := by
  unfold Token.bytes
  split
  · exact ⟨_, rfl⟩
  · exact ⟨[], rfl⟩

theorem isMultisigSigScript_of_tokenizes {script : Bytes} {toks : List Token} {tk : Token}
    (h : Tokenizes script (toks ++ [tk])) (hm : isMultisigScript tk.data = true) :
    isMultisigSigScript script = true := by
  obtain ⟨opM, mid, opN, -, -, -, -, hd⟩ := multisigForm_of_isMultisigScript hm
  obtain ⟨pre, hb⟩ := tk.exists_bytes_eq
  have hs : script =
      (encodeAll toks ++ tk.op :: (pre ++ opM :: (encodeAll mid ++ [opN]))) ++ [opCheckMultiSig] := by
    simp [← h.2, hb, hd]
  have hguard : ¬ (script.length < 4 ∨ script.getLast? ≠ some opCheckMultiSig) := by
    rw [hs, List.getLast?_concat]
    simp only [List.length_append, List.length_cons, List.length_nil, ne_eq, not_true_eq_false,
      or_false]
    omega
  rw [isMultisigSigScript, if_neg hguard]
  dsimp only
  rw [finalOpcodeData_of_tokenizes h, if_neg (by rw [hd]; exact List.cons_ne_nil _ _), hm]

theorem exists_tokenizes_of_finalOpcodeData {script : Bytes} (h : finalOpcodeData script ≠ []) :
    ∃ toks tk, Tokenizes script (toks ++ [tk]) ∧ tk.data = finalOpcodeData script := by
  have h0 : script.length ≠ 0 := fun h0 => h (by simp [finalOpcodeData, h0])
  unfold finalOpcodeData at h ⊢
  dsimp only at h ⊢
  rw [if_neg h0] at h ⊢
  cases he : (makeScriptTokenizer script).run.2.err with
  | some err => rw [he] at h; exact absurd rfl h
  | none =>
    rw [he] at h
    cases hl : (makeScriptTokenizer script).run.1.getLast? with
    | none => rw [hl] at h; exact absurd rfl h
    | some x =>
      obtain ⟨ys, hys⟩ := List.getLast?_eq_some_iff.mp hl
      have ht := tokenizes_of_run he
      rw [hys, List.map_append, List.map_singleton] at ht
      exact ⟨_, _, ht, rfl⟩

theorem exists_tokenizes_of_isMultisigSigScript {script : Bytes} (h : isMultisigSigScript script = true) :
    ∃ toks tk, Tokenizes script (toks ++ [tk]) ∧ isMultisigScript tk.data = true := by
  rw [isMultisigSigScript] at h
  by_cases hg : script.length < 4 ∨ script.getLast? ≠ some opCheckMultiSig
  · rw [if_pos hg] at h; cases h
  rw [if_neg hg] at h
  dsimp only at h
  by_cases hn : finalOpcodeData script = []
  · rw [if_pos hn] at h; cases h
  rw [if_neg hn] at h
  obtain ⟨toks, tk, ht, hd⟩ := exists_tokenizes_of_finalOpcodeData hn
  exact ⟨toks, tk, ht, hd ▸ h⟩

theorem tokenizes_of_extractScriptHash {script hash : Bytes} (h : extractScriptHash script = some hash) :
    Tokenizes script [⟨opHash160, []⟩, ⟨opData20, hash⟩, ⟨opEqual, []⟩] := by
  unfold extractScriptHash at h
  split_ifs at h with hc
  cases h
  obtain ⟨hl, h0, h1, h22⟩ := hc
  match script, hl, h0, h1, h22 with
  | a :: b :: rest, hl, h0, h1, h22 =>
    simp only [List.getElem?_cons_zero, Option.some.injEq, List.getElem?_cons_succ,
      List.length_cons] at h0 h1 h22 hl
    subst h0 h1
    obtain ⟨x, hx⟩ : ∃ x, rest.drop 20 = [x] := List.length_eq_one.mp (by simp; omega)
    have hx' : x = opEqual := by
      have := congrArg (·[0]?) hx
      simpa [List.getElem?_drop, h22] using this.symm
    have hrest : rest = rest.take 20 ++ [opEqual] := by rw [← hx', ← hx, List.take_append_drop]
    refine ⟨?_, ?_⟩
    · simp only [List.mem_cons, List.mem_singleton, List.not_mem_nil, or_false]
      rintro tk (rfl | rfl | rfl)
      · decide
      · simp [Token.WF, show opcodeLength opData20 = 21 by decide]; omega
      · decide
    · conv_rhs => rw [hrest]
      simp [Token.bytes, show opcodeLength opData20 = 21 by decide,
        show opcodeLength opHash160 = 1 by decide, show opcodeLength opEqual = 1 by decide]

/-- A pay-to-script-hash spend of a multisig redeem script whose key slots
check no signature: `CalcScriptInfo` counts one input per push, expects the
required signatures plus the dummy item and the redeem script, and counts one
signature operation per key (`MaxPubKeysPerMultiSig` for zero keys), in
agreement with `CalcMultiSigStats`; `IsMultisigSigScript` recognizes the
spend. -/
theorem calcScriptInfo_p2shMultisig {sigScript pkScript redeem : Bytes} {toks : List Token}
    {op opM opN : UInt8} {mid : List Token}
    (hsig : Tokenizes sigScript (toks ++ [⟨op, redeem⟩]))
    (hpush : ∀ tk ∈ toks ++ [⟨op, redeem⟩], tk.op ≤ op16)
    (hpk : getScriptClass pkScript = .scriptHashTy)
    (hform : MultisigForm redeem opM mid opN) (hmid : ∀ tk ∈ mid, tk.op ∉ sigOpcodes) :
    calcMultiSigStats redeem = .ok (mid.length, asSmallInt opM) ∧
      calcScriptInfo sigScript pkScript true false =
        some (.ok ⟨.scriptHashTy, toks.length + 1, asSmallInt opM + 2,
          if mid = [] then maxPubKeysPerMultiSig else mid.length⟩) ∧
      isMultisigSigScript sigScript = true := by
  have hms : isMultisigScript redeem = true := isMultisigScript_iff.mpr ⟨_, _, _, hform⟩
  have hpk' : typeOfScript pkScript = .scriptHashTy := hpk
  obtain ⟨hash, hh⟩ := Option.isSome_iff_exists.mp
    (matchesTemplate_typeOfScript hpk' (by decide) : isScriptHashScript pkScript = true)
  have hparse : checkScriptParses pkScript = .ok () :=
    checkScriptParses_eq_ok.mpr ⟨_, tokenizes_of_extractScriptHash hh⟩
  refine ⟨calcMultiSigStats_of_multisigForm hform, ?_, isMultisigSigScript_of_tokenizes hsig hms⟩
  rw [calcScriptInfo_of_pushOnly hsig hpush hparse, hpk', finalOpcodeData_of_tokenizes hsig,
    expectedInputs_of_multisigForm hform, countSigOpsV0_of_multisigForm hform hmid]
  simp only [expectedInputs, Option.some_bind, Option.map_some', List.length_append,
    List.length_singleton]
  rw [if_pos (by decide), if_neg (by omega)]
  by_cases hm : mid = [] <;> simp [hm] <;> ring

def oneOfOneRedeemScript : Bytes :=
  op1 :: opData33 :: 0x02 :: (List.replicate 32 0 ++ [op1, opCheckMultiSig])

def oneOfOneSigScript : Bytes := [op0, opData1, 0x30, 0x25] ++ oneOfOneRedeemScript

theorem calcScriptInfo_p2shMultisig_oneOfOne :
    Tokenizes oneOfOneSigScript ([⟨op0, []⟩, ⟨opData1, [0x30]⟩] ++ [⟨0x25, oneOfOneRedeemScript⟩]) ∧
      (∀ tk ∈ [⟨op0, []⟩, ⟨opData1, [0x30]⟩] ++ [(⟨0x25, oneOfOneRedeemScript⟩ : Token)],
        tk.op ≤ op16) ∧
      getScriptClass (opHash160 :: opData20 :: (List.replicate 20 0 ++ [opEqual])) = .scriptHashTy ∧
      MultisigForm oneOfOneRedeemScript op1 [⟨opData33, 0x02 :: List.replicate 32 0⟩] op1 ∧
      (∀ tk ∈ [(⟨opData33, 0x02 :: List.replicate 32 0⟩ : Token)], tk.op ∉ sigOpcodes) ∧
      calcMultiSigStats oneOfOneRedeemScript = .ok (1, asSmallInt op1) ∧
      calcScriptInfo oneOfOneSigScript (opHash160 :: opData20 :: (List.replicate 20 0 ++ [opEqual]))
          true false =
        some (.ok ⟨.scriptHashTy, 2 + 1, asSmallInt op1 + 2,
          if [(⟨opData33, 0x02 :: List.replicate 32 0⟩ : Token)] = [] then maxPubKeysPerMultiSig
          else 1⟩) ∧
      isMultisigSigScript oneOfOneSigScript = true :=
  have hs : Tokenizes oneOfOneSigScript
      ([⟨op0, []⟩, ⟨opData1, [0x30]⟩] ++ [⟨0x25, oneOfOneRedeemScript⟩]) := by
    unfold Tokenizes; decide
  have hp : ∀ tk ∈ [⟨op0, []⟩, ⟨opData1, [0x30]⟩] ++ [(⟨0x25, oneOfOneRedeemScript⟩ : Token)],
      tk.op ≤ op16 := by decide
  have hc : getScriptClass (opHash160 :: opData20 :: (List.replicate 20 0 ++ [opEqual])) =
      .scriptHashTy := by decide
  have hf : MultisigForm oneOfOneRedeemScript op1 [⟨opData33, 0x02 :: List.replicate 32 0⟩] op1 := by
    unfold MultisigForm; decide
  have hm : ∀ tk ∈ [(⟨opData33, 0x02 :: List.replicate 32 0⟩ : Token)], tk.op ∉ sigOpcodes := by
    decide
  ⟨hs, hp, hc, hf, hm, calcScriptInfo_p2shMultisig hs hp hc hf hm⟩

def pushedDatum (tk : Token) : Option Bytes :=
  if opcodeLength tk.op ≠ 1 then some tk.data
  else if tk.op = op0 then some []
  else none

def pushedData (script : Bytes) : Except ErrorCode (List Bytes) :=
  let r := (makeScriptTokenizer script).run
  match r.2.err with
  | some err => .error err
  | none => .ok (r.1.filterMap fun t => pushedDatum t.token)

theorem pushedData_of_tokenizes {script : Bytes} {toks : List Token} (h : Tokenizes script toks) :
    pushedData script = .ok (toks.filterMap pushedDatum) := by
  rw [pushedData, h.run.2, ← h.run.1, List.filterMap_map]
  rfl

/-- What `PushedData` finds of data that `AddData` pushed: the data itself,
except `[0]`, which is pushed as `OP_0` and found empty, and `[1]` .. `[16]`
and `[0x81]`, which are pushed as `OP_1` .. `OP_16` and `OP_1NEGATE` and not
found. -/
def pushedBack (data : Bytes) : Option Bytes :=
  if data = [0] then some []
  else if data.length = 1 ∧ (data.headD 0 ≤ 16 ∨ data.headD 0 = 0x81) then none
  else some data

theorem smallPush_ne_op0 {v : UInt8} (h0 : ¬ v = 0) (h : v ≤ 16) : op1 - 1 + v ≠ op0 := by
  have h' : v.toNat ≤ 16 := by simpa [UInt8.le_iff_toNat_le] using h
  have h0 : v.toNat ≠ 0 := fun h' => h0 (UInt8.eq_iff_toNat_eq.mpr h')
  rw [Ne, UInt8.eq_iff_toNat_eq, UInt8.toNat_add_mod, show op1 - 1 = 0x50 by decide]
  simp only [UInt8.toNat_lit, Nat.reduceMod, op0]
  omega

theorem pushedDatum_pushToken (data : Bytes) : pushedDatum (pushToken data) = pushedBack data := by
  unfold pushToken pushedBack
  dsimp only
  by_cases h1 : data.length = 0 ∨ data.length = 1 ∧ data.headD 0 = 0
  · rw [if_pos h1]
    rcases h1 with h1 | ⟨h1, h0⟩
    · rw [List.length_eq_zero.mp h1]; rfl
    · rw [List.eq_singleton_of_length_eq_one h1, h0]; rfl
  have h0 : data ≠ [0] := by rintro rfl; exact h1 (.inr ⟨rfl, rfl⟩)
  rw [if_neg h1, if_neg h0]
  by_cases h2 : data.length = 1 ∧ data.headD 0 ≤ 16
  · have hs := isSmallInt_smallPush (by tauto) h2.2
    rw [if_pos h2, if_pos ⟨h2.1, .inl h2.2⟩, pushedDatum, if_neg (by simpa using isSmallInt_opcodeLength hs),
      if_neg (smallPush_ne_op0 (by tauto) h2.2)]
  rw [if_neg h2]
  by_cases h3 : data.length = 1 ∧ data.headD 0 = 0x81
  · rw [if_pos h3, if_pos ⟨h3.1, .inr h3.2⟩]; rfl
  rw [if_neg h3, if_neg (show ¬ (data.length = 1 ∧ (data.headD 0 ≤ 16 ∨ data.headD 0 = 0x81)) by
    tauto)]
  have hn : data.length ≠ 0 := fun h => h1 (.inl h)
  by_cases h4 : data.length < opPushData1.toNat
  · rw [if_pos h4, pushedDatum, if_pos]
    simp only [opPushData1, UInt8.toNat_lit, Nat.reduceMod] at h4
    have ht := dataPush_toNat (n := data.length) (by omega)
    rw [opcodeLength_of_data (by rw [ht]; omega) (by rw [ht]; omega), ht]
    omega
  rw [if_neg h4]
  split_ifs <;> rfl

namespace ScriptBuilder

theorem addData_of_err {b : ScriptBuilder} (h : b.err.isSome) (data : Bytes) : b.addData data = b := by
  rw [addData, if_pos h]

theorem foldl_addData_of_err {b : ScriptBuilder} (h : b.err.isSome) (ds : List Bytes) :
    ds.foldl addData b = b := by
  induction ds with
  | nil => rfl
  | cons d ds ih => rw [List.foldl_cons, addData_of_err h, ih]

theorem addData_of_err_eq_none {b : ScriptBuilder} {data : Bytes} (h : (b.addData data).err = none) :
    b.err = none ∧ data.length ≤ maxScriptElementSize ∧
      (b.addData data).script = b.script ++ (pushToken data).bytes := by
  unfold addData at h ⊢
  by_cases h1 : b.err.isSome
  · rw [if_pos h1] at h; rw [h] at h1; cases h1
  rw [if_neg h1] at h ⊢
  by_cases h2 : b.script.length + canonicalDataSize data > maxScriptSize
  · rw [if_pos h2] at h; cases h
  rw [if_neg h2] at h ⊢
  by_cases h3 : data.length > maxScriptElementSize
  · rw [if_pos h3] at h; cases h
  rw [if_neg h3, addDataUnchecked_eq] at h ⊢
  exact ⟨h, by omega, rfl⟩

theorem foldl_addData_of_err_eq_none {b : ScriptBuilder} {ds : List Bytes}
    (h : (ds.foldl addData b).err = none) :
    (ds.foldl addData b).script = b.script ++ encodeAll (ds.map pushToken) ∧
      ∀ d ∈ ds, d.length ≤ maxScriptElementSize := by
  induction ds generalizing b with
  | nil => simp
  | cons d ds ih =>
    rw [List.foldl_cons] at h ⊢
    have hd : (b.addData d).err = none := by
      by_contra hne
      rw [foldl_addData_of_err (Option.ne_none_iff_isSome.mp hne)] at h
      exact hne h
    obtain ⟨-, hlen, hs⟩ := addData_of_err_eq_none hd
    obtain ⟨ih1, ih2⟩ := ih h
    refine ⟨by rw [ih1, hs]; simp, ?_⟩
    simpa [hlen] using ih2

end ScriptBuilder

/-- `PushedData` gives back the data a script builder pushed, except the data
`AddData` pushes as small-integer opcodes: `[0]` comes back empty, and `[1]` ..
`[16]` and `[0x81]` do not come back. -/
theorem pushedData_addData {ds : List Bytes} {script : Bytes}
    (h : (ds.foldl ScriptBuilder.addData newScriptBuilder).toScript = .ok script) :
    pushedData script = .ok (ds.filterMap pushedBack) := by
  unfold ScriptBuilder.toScript at h
  split at h
  · cases h
  rename_i he
  cases h
  obtain ⟨hs, hlen⟩ := ScriptBuilder.foldl_addData_of_err_eq_none he
  have ht : Tokenizes (ds.foldl ScriptBuilder.addData newScriptBuilder).script (ds.map pushToken) := by
    refine ⟨fun tk htk => ?_, by rw [hs]; rfl⟩
    obtain ⟨d, hd, rfl⟩ := List.mem_map.mp htk
    exact pushToken_wf (by have := hlen d hd; simp only [maxScriptElementSize] at this; omega)
  rw [pushedData_of_tokenizes ht, List.filterMap_map]
  exact congrArg _ (List.filterMap_congr fun d _ => pushedDatum_pushToken d)

theorem pushedData_addData_small :
    ([[0x81], [0], [7, 7]].foldl ScriptBuilder.addData newScriptBuilder).toScript =
        .ok [op1Negate, op0, 0x02, 7, 7] ∧
      pushedData [op1Negate, op0, 0x02, 7, 7] = .ok ([[0x81], [0], [7, 7]].filterMap pushedBack) :=
  have h : ([[0x81], [0], [7, 7]].foldl ScriptBuilder.addData newScriptBuilder).toScript =
      .ok [op1Negate, op0, 0x02, 7, 7] := rfl
  ⟨h, pushedData_addData h⟩

example : [[(0x81 : UInt8)], [0], [7, 7]].filterMap pushedBack = [[], [7, 7]] := by decide

def scriptClassToName : List String :=
  ["nonstandard", "pubkey", "pubkeyhash", "scripthash", "multisig", "nulldata"]

/-- `ScriptClass.String` on any byte; `none` is the panic of indexing
`scriptClassToName` at its length, which the test `int(t) > len(...)` lets
through. -/
def scriptClassString (t : UInt8) : Option String :=
  if (t.toNat : Int) > scriptClassToName.length ∨ (t.toNat : Int) < 0 then some "Invalid"
  else scriptClassToName[t.toNat]?

def newScriptClass (name : String) : Except String UInt8 :=
  match scriptClassToName.findIdx? (· = name) with
  | some i => .ok (UInt8.ofNat i)
  | none => .error ("unsupported script type: " ++ name)

end RosettaThought.Txscript

namespace RosettaThought.Thought

def isMultisigSigScript (script : Bytes) : Bool := Txscript.isMultisigSigScript script

def scriptClassString (t : UInt8) : Option String := Txscript.scriptClassString t

end RosettaThought.Thought

namespace RosettaThought.Txscript

/-- The cheap test of `IsMultisigSigScript` never rejects a script the full
test would accept: in both packages it holds exactly when the script parses and
its last opcode pushes a multisig script. -/
theorem isMultisigSigScript_iff (script : Bytes) :
    (isMultisigSigScript script = true ↔
        ∃ toks tk, Tokenizes script (toks ++ [tk]) ∧ isMultisigScript tk.data = true) ∧
      (Thought.isMultisigSigScript script = true ↔
        ∃ toks tk, Tokenizes script (toks ++ [tk]) ∧ isMultisigScript tk.data = true) :=
  have h : isMultisigSigScript script = true ↔
      ∃ toks tk, Tokenizes script (toks ++ [tk]) ∧ isMultisigScript tk.data = true :=
    ⟨exists_tokenizes_of_isMultisigSigScript, fun ⟨_, _, ht, hm⟩ => isMultisigSigScript_of_tokenizes ht hm⟩
  ⟨h, h⟩

end RosettaThought.Txscript
