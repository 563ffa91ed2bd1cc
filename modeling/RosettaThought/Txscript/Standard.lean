import RosettaThought.Txscript.Tokenizer

namespace RosettaThought.Txscript

open ScriptTokenizer

inductive ScriptClass
  | nonStandardTy
  | pubKeyTy
  | pubKeyHashTy
  | scriptHashTy
  | multiSigTy
  | nullDataTy
  deriving DecidableEq, Repr

def extractCompressedPubKey (script : Bytes) : Option Bytes :=
  if script.length = 35 ∧ script[34]? = some opCheckSig ∧ script[0]? = some opData33 ∧
      (script[1]? = some 0x02 ∨ script[1]? = some 0x03) then
    some ((script.drop 1).take 33)
  else none

def extractUncompressedPubKey (script : Bytes) : Option Bytes :=
  if script.length = 67 ∧ script[66]? = some opCheckSig ∧ script[0]? = some opData65 ∧
      (script[1]? = some 0x04 ∨ script[1]? = some 0x06 ∨ script[1]? = some 0x07) then
    some ((script.drop 1).take 65)
  else none

def extractPubKey (script : Bytes) : Option Bytes :=
  (extractCompressedPubKey script).orElse fun _ => extractUncompressedPubKey script

def isPubKeyScript (script : Bytes) : Bool := (extractPubKey script).isSome

def extractPubKeyHash (script : Bytes) : Option Bytes :=
  if script.length = 25 ∧ script[0]? = some opDup ∧ script[1]? = some opHash160 ∧
      script[2]? = some opData20 ∧ script[23]? = some opEqualVerify ∧
      script[24]? = some opCheckSig then
    some ((script.drop 3).take 20)
  else none

def isPubKeyHashScript (script : Bytes) : Bool := (extractPubKeyHash script).isSome

def extractScriptHash (script : Bytes) : Option Bytes :=
  if script.length = 23 ∧ script[0]? = some opHash160 ∧ script[1]? = some opData20 ∧
      script[22]? = some opEqual then
    some ((script.drop 2).take 20)
  else none

def isScriptHashScript (script : Bytes) : Bool := (extractScriptHash script).isSome

def isStrictPubKeyEncoding (pubKey : Bytes) : Bool :=
  (pubKey.length == 33 && (pubKey[0]? == some 0x02 || pubKey[0]? == some 0x03)) ||
    (pubKey.length == 65 &&
      (pubKey[0]? == some 0x04 || pubKey[0]? == some 0x06 || pubKey[0]? == some 0x07))

structure MultiSigDetails where
  requiredSigs : Nat := 0
  numPubKeys : Nat := 0
  pubKeys : List Bytes := []
  valid : Bool := false
  deriving DecidableEq, Repr

/-- The key loop runs over the states of `run` after the first opcode: it
counts the opcodes before the first small integer, keeping the strictly
encoded keys among their data, and breaks at that small integer. -/
def extractMultisigScriptDetails (script : Bytes) (extractPubKeys : Bool) : MultiSigDetails :=
  if script.length < 3 ∨ script.getLast? ≠ some opCheckMultiSig then {} else
  match (makeScriptTokenizer script).next with
  | (false, _) => {}
  | (true, t) =>
    if !isSmallInt t.op then {} else
    let requiredSigs := asSmallInt t.op
    let r := t.run
    let keys := r.1.takeWhile fun s => !isSmallInt s.op
    let tokenizer := (r.1.dropWhile fun s => !isSmallInt s.op).headD r.2
    let numPubKeys := keys.length
    let pubKeys :=
      if extractPubKeys then (keys.map ScriptTokenizer.data).filter isStrictPubKeyEncoding else []
    if tokenizer.done then {} else
    if !isSmallInt tokenizer.op || asSmallInt tokenizer.op ≠ numPubKeys then {} else
    if (tokenizer.script.length : Int) - tokenizer.offset ≠ 1 then {} else
    { requiredSigs, numPubKeys, pubKeys, valid := true }

def isMultisigScript (script : Bytes) : Bool :=
  (extractMultisigScriptDetails script false).valid

def isNullDataScript (script : Bytes) : Bool :=
  if script.length < 1 ∨ script[0]? ≠ some opReturn then false
  else if script.length = 1 then true
  else
    match (makeScriptTokenizer (script.drop 1)).next with
    | (false, _) => false
    | (true, t) =>
      t.done && (isSmallInt t.op || t.op ≤ opPushData4) && t.data.length ≤ maxDataCarrierSize

def typeOfScript (script : Bytes) : ScriptClass :=
  if isPubKeyScript script then .pubKeyTy
  else if isPubKeyHashScript script then .pubKeyHashTy
  else if isScriptHashScript script then .scriptHashTy
  else if isMultisigScript script then .multiSigTy
  else if isNullDataScript script then .nullDataTy
  else .nonStandardTy

def getScriptClass (script : Bytes) : ScriptClass := typeOfScript script

/-- The address constructors `NewAddressPubKeyHash`,
`NewAddressScriptHashFromHash` and `NewAddressPubKey`; `none` is a non-nil
error. -/
structure AddressCodec (Params Address : Type) where
  newAddressPubKeyHash : Bytes → Params → Option Address
  newAddressScriptHashFromHash : Bytes → Params → Option Address
  newAddressPubKey : Bytes → Params → Option Address

section Addresses

variable {Params Address : Type} (codec : AddressCodec Params Address)

def pubKeyHashToAddrs (hash : Bytes) (params : Params) : List Address :=
  (codec.newAddressPubKeyHash hash params).toList

def scriptHashToAddrs (hash : Bytes) (params : Params) : List Address :=
  (codec.newAddressScriptHashFromHash hash params).toList

/-- The class, the addresses and the required signatures; the returned error
is always `nil` and is left out. -/
def extractPkScriptAddrs (pkScript : Bytes) (chainParams : Params) :
    ScriptClass × List Address × Nat :=
  match extractPubKeyHash pkScript with
  | some hash => (.pubKeyHashTy, pubKeyHashToAddrs codec hash chainParams, 1)
  | none =>
  match extractScriptHash pkScript with
  | some hash => (.scriptHashTy, scriptHashToAddrs codec hash chainParams, 1)
  | none =>
  match extractPubKey pkScript with
  | some data => (.pubKeyTy, (codec.newAddressPubKey data chainParams).toList, 1)
  | none =>
  let details := extractMultisigScriptDetails pkScript true
  if details.valid then
    (.multiSigTy, details.pubKeys.filterMap (codec.newAddressPubKey · chainParams),
      details.requiredSigs)
  else if isNullDataScript pkScript then (.nullDataTy, [], 0)
  else (.nonStandardTy, [], 0)

end Addresses

theorem extractPubKeyHash_eq_some {script hash : Bytes} (h : extractPubKeyHash script = some hash) :
    script.length = 25 ∧ script[0]? = some opDup := by
  unfold extractPubKeyHash at h
  split_ifs at h with hc
  exact ⟨hc.1, hc.2.1⟩

theorem extractScriptHash_eq_some {script hash : Bytes} (h : extractScriptHash script = some hash) :
    script.length = 23 ∧ script[0]? = some opHash160 := by
  unfold extractScriptHash at h
  split_ifs at h with hc
  exact ⟨hc.1, hc.2.1⟩

theorem length_of_extractPubKeyHash {script hash : Bytes} (h : extractPubKeyHash script = some hash) :
    hash.length = 20 := by
  unfold extractPubKeyHash at h
  split_ifs at h with hc
  cases h
  simp [hc.1]

theorem length_of_extractScriptHash {script hash : Bytes} (h : extractScriptHash script = some hash) :
    hash.length = 20 := by
  unfold extractScriptHash at h
  split_ifs at h with hc
  cases h
  simp [hc.1]

theorem extractPubKey_eq_some {script key : Bytes} (h : extractPubKey script = some key) :
    (script.length = 35 ∨ script.length = 67) ∧
      (script[0]? = some opData33 ∨ script[0]? = some opData65) := by
  unfold extractPubKey at h
  cases hc : extractCompressedPubKey script with
  | some k =>
    unfold extractCompressedPubKey at hc
    split_ifs at hc with h1
    exact ⟨.inl h1.1, .inl h1.2.2.1⟩
  | none =>
    rw [hc] at h
    change extractUncompressedPubKey script = some key at h
    unfold extractUncompressedPubKey at h
    split_ifs at h with h2
    exact ⟨.inr h2.1, .inr h2.2.2.1⟩

theorem isSmallInt_opcodeLength {op : UInt8} (h : isSmallInt op = true) : opcodeLength op = 1 := by
  rw [isSmallInt_iff] at h
  unfold opcodeLength
  simp only [op0, opData75, opPushData1, opPushData2, opPushData4, UInt8.eq_iff_toNat_eq,
    UInt8.le_iff_toNat_le, UInt8.toNat_lit]
  omega

theorem Token.plain {op : UInt8} (h : opcodeLength op = 1) :
    (⟨op, []⟩ : Token).WF ∧ (⟨op, []⟩ : Token).bytes = [op] := by
  simp [Token.WF, Token.bytes, h]

theorem Token.data_eq_nil {tk : Token} (hwf : tk.WF) (h : opcodeLength tk.op = 1) :
    tk.data = [] := by
  simp only [Token.WF, h, show ¬ (1 : Int) < 0 by omega, if_false] at hwf
  exact List.length_eq_zero.mp (by omega)

theorem Token.bytes_of_opcodeLength {tk : Token} (hwf : tk.WF) (h : opcodeLength tk.op = 1) :
    tk.bytes = [tk.op] := by
  obtain ⟨op, data⟩ := tk
  obtain rfl := Token.data_eq_nil hwf h
  exact (Token.plain h).2

/-- `OP_m`, then opcodes none of which is a small integer, then `OP_n` with
`n` their number, then `OP_CHECKMULTISIG`: the scripts
`extractMultisigScriptDetails` accepts. -/
def MultisigForm (script : Bytes) (opM : UInt8) (mid : List Token) (opN : UInt8) : Prop :=
  isSmallInt opM = true ∧ isSmallInt opN = true ∧ asSmallInt opN = mid.length ∧
    (∀ tk ∈ mid, tk.WF ∧ isSmallInt tk.op = false) ∧
    script = opM :: (encodeAll mid ++ [opN, opCheckMultiSig])

theorem extractMultisigScriptDetails_of_form {script : Bytes} {opM opN : UInt8} {mid : List Token}
    (h : MultisigForm script opM mid opN) (extractPubKeys : Bool) :
    extractMultisigScriptDetails script extractPubKeys =
      { requiredSigs := asSmallInt opM, numPubKeys := mid.length,
        pubKeys := if extractPubKeys then (mid.map Token.data).filter isStrictPubKeyEncoding
          else [],
        valid := true } := by
  obtain ⟨hM, hN, hn, hmid, rfl⟩ := h
  have hc : opcodeLength opCheckMultiSig = 1 := by decide
  obtain ⟨hwfM, hbM⟩ := Token.plain (isSmallInt_opcodeLength hM)
  obtain ⟨hwfN, hbN⟩ := Token.plain (isSmallInt_opcodeLength hN)
  obtain ⟨hwfC, hbC⟩ := Token.plain hc
  have h0 : (makeScriptTokenizer (opM :: (encodeAll mid ++ [opN, opCheckMultiSig]))).rest =
      (⟨opM, []⟩ : Token).bytes ++ (encodeAll mid ++ [opN, opCheckMultiSig]) := by
    rw [hbM]; rfl
  have hnext := next_encode rfl h0 hwfM
  set t := (makeScriptTokenizer (opM :: (encodeAll mid ++ [opN, opCheckMultiSig]))).advance
    ⟨opM, []⟩ with ht
  have hrest : t.rest = encodeAll (mid ++ [⟨opN, []⟩, ⟨opCheckMultiSig, []⟩]) := by
    rw [ht, rest_advance h0]; simp [hbN, hbC]
  obtain ⟨hmap, -, -⟩ := run_encode (t := t) rfl hrest (by
    intro tk htk
    simp only [List.mem_append, List.mem_cons, List.not_mem_nil, or_false] at htk
    rcases htk with htk | rfl | rfl
    exacts [(hmid tk htk).1, hwfN, hwfC])
  obtain ⟨l1, l2, hl, hl1, hl2⟩ := List.map_eq_append_iff.mp hmap
  obtain ⟨k, k', rfl⟩ : ∃ k k', l2 = [k, k'] := by
    rcases l2 with _ | ⟨k, _ | ⟨k', _ | _⟩⟩ <;> simp at hl2
    exact ⟨k, k', rfl⟩
  simp only [List.map_cons, List.map_nil, List.cons.injEq, and_true] at hl2
  have hp : ∀ a ∈ l1, (!isSmallInt a.op) = true := by
    intro a ha
    have : a.token ∈ mid := hl1 ▸ List.mem_map_of_mem _ ha
    simpa [token] using (hmid _ this).2
  have hkop : k.op = opN := congrArg Token.op hl2.1
  have hkN : (!isSmallInt k.op) = false := by simp [hkop, hN]
  have htake : t.run.1.takeWhile (fun s => !isSmallInt s.op) = l1 := by
    rw [hl, List.takeWhile_append_of_pos hp]; simp [hkN]
  have hdrop : (t.run.1.dropWhile (fun s => !isSmallInt s.op)).headD t.run.2 = k := by
    rw [hl, List.dropWhile_append_of_pos hp]; simp [hkN]
  obtain ⟨hsplit, hke, hks, -⟩ := @run_split t k l1 [k'] rfl
    (by rw [hl])
  rw [hrest] at hsplit
  have hkrest : k.rest = [opCheckMultiSig] := by
    simp only [encodeAll_append, List.map_append, hl1, List.map_cons, List.map_nil, hl2.1,
      encodeAll_cons, encodeAll_nil, hbN, hbC, List.append_nil, List.append_assoc,
      List.singleton_append, List.append_cancel_left_eq] at hsplit
    simp only [List.cons.injEq, true_and] at hsplit
    exact hsplit.symm
  have hkd : k.done = false := not_done_of_rest hke (by simp [hkrest])
  have hlen : (k.script.length : Int) - k.offset = 1 := by
    have := congrArg List.length hkrest
    simp only [rest, List.length_drop, List.length_singleton] at this
    omega
  have hn1 : l1.length = mid.length := by rw [← hl1, List.length_map]
  unfold extractMultisigScriptDetails
  have hlast : opM :: (encodeAll mid ++ [opN, opCheckMultiSig]) =
      (opM :: (encodeAll mid ++ [opN])) ++ [opCheckMultiSig] := by simp
  rw [if_neg (by rw [hlast, List.getLast?_concat]; simp), hnext]
  have htop : t.op = opM := by rw [ht]; rfl
  have hdata : l1.map ScriptTokenizer.data = mid.map Token.data := by
    rw [← hl1, List.map_map]; rfl
  simp only [← ht, htake, hdrop, hkd, hkop, hN, hn, hn1, hlen]
  simp [htop, hM, hdata]

theorem isNullDataScript_head {script : Bytes} (h : isNullDataScript script = true) :
    script[0]? = some opReturn := by
  unfold isNullDataScript at h
  split_ifs at h with h1
  all_goals simp_all

@[simp] theorem extractMultisigScriptDetails_valid (script : Bytes) (b : Bool) :
    (extractMultisigScriptDetails script b).valid = isMultisigScript script := by
  cases b
  · rfl
  unfold isMultisigScript extractMultisigScriptDetails
  by_cases hc : script.length < 3 ∨ script.getLast? ≠ some opCheckMultiSig
  · rw [if_pos hc, if_pos hc]
  rw [if_neg hc, if_neg hc]
  rcases (makeScriptTokenizer script).next with ⟨_ | _, t⟩
  · rfl
  simp only [apply_ite MultiSigDetails.valid]

theorem multisigForm_of_isMultisigScript {script : Bytes} (h : isMultisigScript script = true) :
    ∃ opM mid opN, MultisigForm script opM mid opN := by
  unfold isMultisigScript extractMultisigScriptDetails at h
  by_cases hc : script.length < 3 ∨ script.getLast? ≠ some opCheckMultiSig
  · rw [if_pos hc] at h; cases h
  rw [if_neg hc] at h
  rcases hn : (makeScriptTokenizer script).next with ⟨_ | _, t⟩ <;> rw [hn] at h
  · cases h
  obtain ⟨tk, hwf, -, hr, rfl⟩ := next_true hn
  simp only [Bool.false_eq_true, if_false] at h
  split_ifs at h with h1 h2 h3 h4
  have hM : isSmallInt tk.op = true := by simpa [advance] using h1
  set t := (makeScriptTokenizer script).advance tk with ht
  have hte : t.err = none := rfl
  obtain ⟨-, hwfs, -, hdone, -⟩ := run_sound t hte
  have hsplit := List.takeWhile_append_dropWhile (fun s => !isSmallInt s.op) t.run.1
  rcases hdw : t.run.1.dropWhile (fun s => !isSmallInt s.op) with _ | ⟨k, post⟩
  · simp only [hdw, List.headD_nil, hdone] at h2
    exact absurd trivial h2
  simp only [hdw, List.headD_cons] at h2 h3 h4
  rw [hdw] at hsplit
  obtain ⟨hrest, hke, hks, -⟩ := run_split hte hsplit.symm
  simp only [Bool.or_eq_true, Bool.not_eq_true', decide_eq_true_eq, not_or,
    Bool.not_eq_false] at h3
  have hkmem : k ∈ t.run.1 := by rw [← hsplit]; simp
  have hkb : k.token.bytes = [k.op] :=
    Token.bytes_of_opcodeLength (hwfs k hkmem) (isSmallInt_opcodeLength h3.1)
  have htb : tk.bytes = [tk.op] := Token.bytes_of_opcodeLength hwf (isSmallInt_opcodeLength hM)
  have hk1 : k.rest.length = 1 := by
    have : (k.script.length : Int) - k.offset = 1 := by simpa using h4
    simp only [rest, List.length_drop]; omega
  obtain ⟨y, hy⟩ := List.length_eq_one.mp hk1
  have hscript : script = tk.op :: (encodeAll (List.map token
      (List.takeWhile (fun s => !isSmallInt s.op) t.run.1)) ++ [k.op, y]) := by
    rw [← makeScriptTokenizer_rest script, hr, htb, hrest, hy]
    simp [hkb]
  have hyC : y = opCheckMultiSig := by
    have hl := hc
    simp only [not_or, not_lt, ne_eq, not_not] at hl
    rw [hscript] at hl
    simpa [List.getLast?_cons, List.getLast?_append] using hl.2
  refine ⟨tk.op, _, k.op, hM, h3.1, by simpa using h3.2, ?_, hyC ▸ hscript⟩
  intro x hx
  obtain ⟨s, hs, rfl⟩ := List.mem_map.mp hx
  refine ⟨hwfs s (List.takeWhile_subset _ hs), ?_⟩
  simpa [token] using List.mem_takeWhile_imp hs

theorem isMultisigScript_iff {script : Bytes} :
    isMultisigScript script = true ↔ ∃ opM mid opN, MultisigForm script opM mid opN :=
  ⟨multisigForm_of_isMultisigScript, fun ⟨_, _, _, h⟩ => by
    simp [isMultisigScript, extractMultisigScriptDetails_of_form h]⟩

theorem isMultisigScript_head {script : Bytes} (h : isMultisigScript script = true) :
    ∃ op, script[0]? = some op ∧ isSmallInt op = true := by
  obtain ⟨opM, -, -, hM, -, -, -, rfl⟩ := multisigForm_of_isMultisigScript h
  exact ⟨opM, by simp, hM⟩

theorem isMultisigScript_penultimate {pre : Bytes} {b c : UInt8}
    (h : isMultisigScript (pre ++ [b, c]) = true) : isSmallInt b = true := by
  obtain ⟨opM, mid, opN, -, hN, -, -, hs⟩ := multisigForm_of_isMultisigScript h
  rw [← List.cons_append] at hs
  obtain ⟨-, hbc⟩ := List.append_inj' hs rfl
  obtain ⟨rfl, -⟩ := List.cons.inj hbc
  exact hN

theorem isPubKeyScript_head {script : Bytes} (h : isPubKeyScript script = true) :
    script[0]? = some opData33 ∨ script[0]? = some opData65 := by
  obtain ⟨k, hk⟩ := Option.isSome_iff_exists.mp h
  exact (extractPubKey_eq_some hk).2

theorem isPubKeyHashScript_head {script : Bytes} (h : isPubKeyHashScript script = true) :
    script[0]? = some opDup := by
  obtain ⟨k, hk⟩ := Option.isSome_iff_exists.mp h
  exact (extractPubKeyHash_eq_some hk).2

theorem isScriptHashScript_head {script : Bytes} (h : isScriptHashScript script = true) :
    script[0]? = some opHash160 := by
  obtain ⟨k, hk⟩ := Option.isSome_iff_exists.mp h
  exact (extractScriptHash_eq_some hk).2

end RosettaThought.Txscript
