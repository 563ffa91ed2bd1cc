import RosettaThought.Txscript.Standard

namespace RosettaThought.Txscript

def matchesTemplate : ScriptClass → Bytes → Bool
  | .nonStandardTy, _ => false
  | .pubKeyTy, script => isPubKeyScript script
  | .pubKeyHashTy, script => isPubKeyHashScript script
  | .scriptHashTy, script => isScriptHashScript script
  | .multiSigTy, script => isMultisigScript script
  | .nullDataTy, script => isNullDataScript script

def headClass (b : UInt8) : ScriptClass :=
  if b = opData33 ∨ b = opData65 then .pubKeyTy
  else if b = opDup then .pubKeyHashTy
  else if b = opHash160 then .scriptHashTy
  else if b = opReturn then .nullDataTy
  else .multiSigTy

theorem headClass_of_isSmallInt {b : UInt8} (h : isSmallInt b = true) :
    headClass b = .multiSigTy := by
  rw [isSmallInt_iff] at h
  simp only [headClass, opData33, opData65, opDup, opHash160, opReturn, UInt8.eq_iff_toNat_eq,
    UInt8.toNat_lit]
  rw [if_neg (by omega), if_neg (by omega), if_neg (by omega), if_neg (by omega)]

theorem matchesTemplate_head {c : ScriptClass} {script : Bytes}
    (h : matchesTemplate c script = true) : ∃ b, script[0]? = some b ∧ headClass b = c := by
  cases c with
  | nonStandardTy => cases h
  | pubKeyTy => rcases isPubKeyScript_head h with h0 | h0 <;> exact ⟨_, h0, by decide⟩
  | pubKeyHashTy => exact ⟨_, isPubKeyHashScript_head h, by decide⟩
  | scriptHashTy => exact ⟨_, isScriptHashScript_head h, by decide⟩
  | multiSigTy =>
    obtain ⟨op, h0, hs⟩ := isMultisigScript_head h
    exact ⟨op, h0, headClass_of_isSmallInt hs⟩
  | nullDataTy => exact ⟨_, isNullDataScript_head h, by decide⟩

theorem matchesTemplate_unique {c c' : ScriptClass} {script : Bytes}
    (h : matchesTemplate c script = true) (h' : matchesTemplate c' script = true) : c = c' := by
  obtain ⟨b, hb, rfl⟩ := matchesTemplate_head h
  obtain ⟨b', hb', rfl⟩ := matchesTemplate_head h'
  cases hb.symm.trans hb'
  rfl

theorem typeOfScript_cases (script : Bytes) :
    (typeOfScript script = .nonStandardTy ∧ ∀ c, matchesTemplate c script = false) ∨
      matchesTemplate (typeOfScript script) script = true := by
  unfold typeOfScript
  by_cases h1 : isPubKeyScript script = true
  · rw [if_pos h1]; exact .inr h1
  rw [if_neg h1]
  by_cases h2 : isPubKeyHashScript script = true
  · rw [if_pos h2]; exact .inr h2
  rw [if_neg h2]
  by_cases h3 : isScriptHashScript script = true
  · rw [if_pos h3]; exact .inr h3
  rw [if_neg h3]
  by_cases h4 : isMultisigScript script = true
  · rw [if_pos h4]; exact .inr h4
  rw [if_neg h4]
  by_cases h5 : isNullDataScript script = true
  · rw [if_pos h5]; exact .inr h5
  rw [if_neg h5]
  refine .inl ⟨rfl, fun c => ?_⟩
  cases c
  exacts [rfl, Bool.eq_false_iff.mpr h1, Bool.eq_false_iff.mpr h2, Bool.eq_false_iff.mpr h3,
    Bool.eq_false_iff.mpr h4, Bool.eq_false_iff.mpr h5]

theorem typeOfScript_of_matchesTemplate {c : ScriptClass} {script : Bytes}
    (h : matchesTemplate c script = true) : typeOfScript script = c := by
  rcases typeOfScript_cases script with ⟨-, h0⟩ | hm
  · rw [h0] at h; cases h
  · exact matchesTemplate_unique hm h

theorem matchesTemplate_typeOfScript {c : ScriptClass} {script : Bytes}
    (h : typeOfScript script = c) (hc : c ≠ .nonStandardTy) : matchesTemplate c script = true := by
  subst h
  rcases typeOfScript_cases script with ⟨h0, -⟩ | hm
  · exact absurd h0 hc
  · exact hm

theorem typeOfScript_eq_iff {c : ScriptClass} {script : Bytes} (hc : c ≠ .nonStandardTy) :
    typeOfScript script = c ↔ matchesTemplate c script = true :=
  ⟨(matchesTemplate_typeOfScript · hc), typeOfScript_of_matchesTemplate⟩

open ScriptTokenizer in
theorem isNullDataScript_cons {tk : Token} (hwf : tk.WF) :
    isNullDataScript (opReturn :: tk.bytes) =
      ((isSmallInt tk.op || tk.op ≤ opPushData4) && decide (tk.data.length ≤ maxDataCarrierSize)) := by
  have hn := next_encode (t := makeScriptTokenizer tk.bytes) (r := []) rfl (by simp) hwf
  have hl : tk.bytes.length ≠ 0 := by simp [Token.bytes_ne_nil]
  unfold isNullDataScript
  rw [if_neg (by simp), if_neg (by simpa using hl), List.drop_one, List.tail_cons, hn]
  simp [done, advance, makeScriptTokenizer]

open ScriptTokenizer in
theorem isNullDataScript_iff {script : Bytes} :
    isNullDataScript script = true ↔ script = [opReturn] ∨
      ∃ tk : Token, tk.WF ∧ (isSmallInt tk.op = true ∨ tk.op ≤ opPushData4) ∧
        tk.data.length ≤ maxDataCarrierSize ∧ script = opReturn :: tk.bytes := by
  constructor
  · intro h
    have h0 := isNullDataScript_head h
    obtain _ | ⟨b, tl⟩ := script
    · cases h0
    obtain rfl : b = opReturn := by simpa using h0
    rcases tl with _ | ⟨c, tl⟩
    · exact .inl rfl
    refine .inr ?_
    unfold isNullDataScript at h
    rw [if_neg (by simp), if_neg (by simp), List.drop_one, List.tail_cons] at h
    rcases hn : (makeScriptTokenizer (c :: tl)).next with ⟨_ | _, t⟩
    · simp [hn] at h
    obtain ⟨tk, hwf, -, hr, rfl⟩ := next_true hn
    simp only [hn, Bool.true_and, Bool.and_eq_true, Bool.or_eq_true, decide_eq_true_eq] at h
    obtain ⟨⟨hd, hop⟩, hlen⟩ := h
    have hrest : (advance (makeScriptTokenizer (c :: tl)) tk).rest = [] := by
      simpa [done, ScriptTokenizer.rest] using hd
    rw [hrest, List.append_nil, makeScriptTokenizer_rest] at hr
    exact ⟨tk, hwf, hop, by simpa using hlen, by rw [hr]⟩
  · rintro (rfl | ⟨tk, hwf, hop, hlen, rfl⟩)
    · rfl
    · simpa [isNullDataScript_cons hwf, hop] using hlen

section Addresses

variable {Params Address : Type} (codec : AddressCodec Params Address)

theorem extractPkScriptAddrs_class (pkScript : Bytes) (chainParams : Params) :
    (extractPkScriptAddrs codec pkScript chainParams).1 = getScriptClass pkScript := by
  have of := fun c (h : matchesTemplate c pkScript = true) =>
    (typeOfScript_of_matchesTemplate h).symm
  unfold extractPkScriptAddrs getScriptClass
  split
  · next h => exact of .pubKeyHashTy (by simp [matchesTemplate, isPubKeyHashScript, h])
  split
  · next h => exact of .scriptHashTy (by simp [matchesTemplate, isScriptHashScript, h])
  split
  · next h => exact of .pubKeyTy (by simp [matchesTemplate, isPubKeyScript, h])
  next _ h1 _ h2 _ h3 =>
  dsimp only
  rw [extractMultisigScriptDetails_valid]
  split_ifs with h4 h5
  · exact of .multiSigTy h4
  · exact of .nullDataTy h5
  · simp [typeOfScript, isPubKeyScript, isPubKeyHashScript, isScriptHashScript, h1, h2, h3, h4,
      h5]

theorem extractPkScriptAddrs_of_isMultisigScript {pkScript : Bytes}
    (h : isMultisigScript pkScript = true) (chainParams : Params) :
    extractPkScriptAddrs codec pkScript chainParams =
      (.multiSigTy,
        (extractMultisigScriptDetails pkScript true).pubKeys.filterMap
          (codec.newAddressPubKey · chainParams),
        (extractMultisigScriptDetails pkScript true).requiredSigs) := by
  have other : ∀ c, matchesTemplate c pkScript = true → c = .multiSigTy :=
    fun _ h' => @matchesTemplate_unique _ .multiSigTy _ h' h
  have h1 : extractPubKeyHash pkScript = none := by
    simpa [matchesTemplate, isPubKeyHashScript] using mt (other .pubKeyHashTy) (by decide)
  have h2 : extractScriptHash pkScript = none := by
    simpa [matchesTemplate, isScriptHashScript] using mt (other .scriptHashTy) (by decide)
  have h3 : extractPubKey pkScript = none := by
    simpa [matchesTemplate, isPubKeyScript] using mt (other .pubKeyTy) (by decide)
  simp [extractPkScriptAddrs, h1, h2, h3, h]

end Addresses

end RosettaThought.Txscript

namespace RosettaThought.Thought

open Txscript

def extractMultisigScriptDetails (script : Bytes) (extractPubKeys : Bool) : MultiSigDetails :=
  Txscript.extractMultisigScriptDetails script extractPubKeys

def isMultisigScript (script : Bytes) : Bool := Txscript.isMultisigScript script

def isNullDataScript (script : Bytes) : Bool := Txscript.isNullDataScript script

def typeOfScript (script : Bytes) : ScriptClass := Txscript.typeOfScript script

def getScriptClass (script : Bytes) : ScriptClass := Txscript.getScriptClass script

def extractPkScriptAddrs {Params Address : Type} (codec : AddressCodec Params Address)
    (pkScript : Bytes) (chainParams : Params) : ScriptClass × List Address × Nat :=
  Txscript.extractPkScriptAddrs codec pkScript chainParams

end RosettaThought.Thought

namespace RosettaThought.Txscript

variable {Params Address : Type}

theorem classifiers_agree (codec : AddressCodec Params Address) (script : Bytes)
    (chainParams : Params) :
    (extractPkScriptAddrs codec script chainParams).1 = getScriptClass script ∧
      (Thought.extractPkScriptAddrs codec script chainParams).1 = Thought.getScriptClass script ∧
      (∀ c c', matchesTemplate c script = true → matchesTemplate c' script = true → c = c') ∧
      (extractMultisigScriptDetails script true).valid =
        (extractMultisigScriptDetails script false).valid := by
  refine ⟨extractPkScriptAddrs_class codec script chainParams,
    extractPkScriptAddrs_class codec script chainParams, fun _ _ => matchesTemplate_unique, ?_⟩
  simp only [extractMultisigScriptDetails_valid]

/-- The multisig grammar in the words of the specification: `OP_m`, `n` data
pushes of strictly encoded keys, `OP_n`, `OP_CHECKMULTISIG`, `1 ≤ m ≤ n`. -/
def SpecMultisigForm (script : Bytes) : Prop :=
  ∃ opM keys opN, isSmallInt opM = true ∧ isSmallInt opN = true ∧
    1 ≤ asSmallInt opM ∧ asSmallInt opM ≤ asSmallInt opN ∧ asSmallInt opN = keys.length ∧
    (∀ tk ∈ keys, tk.WF ∧ tk.op ≤ opPushData4 ∧ isStrictPubKeyEncoding tk.data = true) ∧
    script = opM :: (encodeAll keys ++ [opN, opCheckMultiSig])

theorem Token.bytes_head (tk : Token) : ∃ rest, tk.bytes = tk.op :: rest := by
  unfold Token.bytes
  split <;> exact ⟨_, rfl⟩

/-- The classifier takes an opcode that pushes no key as a key slot, and a
threshold above the key count: `OP_1 OP_DUP OP_1 OP_CHECKMULTISIG` and
`OP_2 <key> OP_1 OP_CHECKMULTISIG` are multisig scripts in both packages. -/
theorem multisig_nonKey_and_excess :
    (getScriptClass [op1, opDup, op1, opCheckMultiSig] = .multiSigTy ∧
      Thought.getScriptClass [op1, opDup, op1, opCheckMultiSig] = .multiSigTy ∧
      ¬ SpecMultisigForm [op1, opDup, op1, opCheckMultiSig]) ∧
    (getScriptClass (op2 :: (encodeAll [⟨opData33, 0x02 :: List.replicate 32 0⟩] ++
        [op1, opCheckMultiSig])) = .multiSigTy ∧
      Thought.getScriptClass (op2 :: (encodeAll [⟨opData33, 0x02 :: List.replicate 32 0⟩] ++
        [op1, opCheckMultiSig])) = .multiSigTy ∧
      ¬ SpecMultisigForm (op2 :: (encodeAll [⟨opData33, 0x02 :: List.replicate 32 0⟩] ++
        [op1, opCheckMultiSig]))) := by
  have hdup : isMultisigScript [op1, opDup, op1, opCheckMultiSig] = true :=
    isMultisigScript_iff.mpr ⟨op1, [⟨opDup, []⟩], op1, rfl, rfl, rfl, by decide, by decide⟩
  have hexcess : isMultisigScript (op2 :: (encodeAll [⟨opData33, 0x02 :: List.replicate 32 0⟩] ++
      [op1, opCheckMultiSig])) = true :=
    isMultisigScript_iff.mpr ⟨op2, [⟨opData33, 0x02 :: List.replicate 32 0⟩], op1, rfl, rfl, rfl,
      by decide, rfl⟩
  refine ⟨⟨typeOfScript_of_matchesTemplate (c := .multiSigTy) hdup,
      typeOfScript_of_matchesTemplate (c := .multiSigTy) hdup, ?_⟩,
    typeOfScript_of_matchesTemplate (c := .multiSigTy) hexcess,
    typeOfScript_of_matchesTemplate (c := .multiSigTy) hexcess, ?_⟩
  · rintro ⟨opM, keys, opN, -, -, -, -, -, hk, hs⟩
    cases keys with
    | nil => simp at hs
    | cons k rest =>
      obtain ⟨r, hr⟩ := Token.bytes_head k
      simp only [encodeAll_cons, hr, List.cons_append, List.cons.injEq] at hs
      have hop := (hk k (List.mem_cons_self _ _)).2.1
      rw [← hs.2.1] at hop
      exact absurd hop (by decide)
  · rintro ⟨opM, keys, opN, -, -, -, hmn, -, -, hs⟩
    obtain ⟨rfl, ht⟩ := List.cons.inj hs
    obtain ⟨-, h⟩ := List.append_inj' ht rfl
    obtain ⟨rfl, -⟩ := List.cons.inj h
    exact absurd hmn (by decide)

theorem isMultisigScript_iff_multisigForm (codec : AddressCodec Params Address)
    (script : Bytes) (chainParams : Params) :
    (isMultisigScript script = true ↔ ∃ opM mid opN, MultisigForm script opM mid opN) ∧
      (getScriptClass script = .multiSigTy ↔ ∃ opM mid opN, MultisigForm script opM mid opN) ∧
      (Thought.getScriptClass script = .multiSigTy ↔
        ∃ opM mid opN, MultisigForm script opM mid opN) ∧
      ∀ opM mid opN, MultisigForm script opM mid opN →
        (extractPkScriptAddrs codec script chainParams).1 = .multiSigTy ∧
        (extractPkScriptAddrs codec script chainParams).2.2 = asSmallInt opM ∧
        extractMultisigScriptDetails script true =
          { requiredSigs := asSmallInt opM, numPubKeys := mid.length,
            pubKeys := (mid.map Token.data).filter isStrictPubKeyEncoding, valid := true } := by
  have hclass : getScriptClass script = .multiSigTy ↔ isMultisigScript script = true :=
    typeOfScript_eq_iff (c := .multiSigTy) (by decide)
  refine ⟨isMultisigScript_iff, hclass.trans isMultisigScript_iff,
    hclass.trans isMultisigScript_iff, fun opM mid opN h => ?_⟩
  have hd := extractMultisigScriptDetails_of_form h true
  rw [extractPkScriptAddrs_of_isMultisigScript codec (isMultisigScript_iff.mpr ⟨_, _, _, h⟩), hd]
  exact ⟨rfl, rfl, rfl⟩

end RosettaThought.Txscript
