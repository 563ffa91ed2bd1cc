import Mathlib.Data.Nat.Digits
import RosettaThought.Txscript.Classify

namespace RosettaThought.Txscript

/-- `scriptNum.Bytes`: the magnitude in little-endian bytes, the sign in the
top bit of the last byte.  Go negates an `int64`, so `-2^63` stays negative,
the loop adds no byte and indexing the empty result panics (`none`). -/
def scriptNumBytes (n : Int) : Option Bytes :=
  if n = 0 then some [] else
  if n = -2 ^ 63 then none else
  let result := (Nat.digits 256 n.natAbs).map UInt8.ofNat
  let last := result.getLastD 0
  if last &&& 0x80 ≠ 0 then some (result ++ [if n < 0 then 0x80 else 0x00])
  else if n < 0 then some (result.dropLast ++ [last ||| 0x80])
  else some result

structure ScriptBuilder where
  script : Bytes
  err : Option ErrorCode
  deriving DecidableEq, Repr

def newScriptBuilder : ScriptBuilder := ⟨[], none⟩

def canonicalDataSize (data : Bytes) : Nat :=
  let dataLen := data.length
  if dataLen = 0 then 1
  else if dataLen = 1 ∧ data.headD 0 ≤ 16 then 1
  else if dataLen = 1 ∧ data.headD 0 = 0x81 then 1
  else if dataLen < opPushData1.toNat then 1 + dataLen
  else if dataLen ≤ 0xff then 2 + dataLen
  else if dataLen ≤ 0xffff then 3 + dataLen
  else 5 + dataLen

namespace ScriptBuilder

def addOp (b : ScriptBuilder) (opcode : UInt8) : ScriptBuilder :=
  if b.err.isSome then b
  else if b.script.length + 1 > maxScriptSize then { b with err := some .errScriptNotCanonical }
  else { b with script := b.script ++ [opcode] }

/-- The unchecked `addData` (lower case) of the source: the shortest push of
`data`, a small-integer opcode for `[]`, `[0]` .. `[16]` and `[0x81]`. -/
def addDataUnchecked (b : ScriptBuilder) (data : Bytes) : ScriptBuilder :=
  let dataLen := data.length
  if dataLen = 0 ∨ dataLen = 1 ∧ data.headD 0 = 0 then { b with script := b.script ++ [op0] }
  else if dataLen = 1 ∧ data.headD 0 ≤ 16 then
    { b with script := b.script ++ [op1 - 1 + data.headD 0] }
  else if dataLen = 1 ∧ data.headD 0 = 0x81 then { b with script := b.script ++ [op1Negate] }
  else
    let push :=
      if dataLen < opPushData1.toNat then [opData1 - 1 + UInt8.ofNat dataLen]
      else if dataLen ≤ 0xff then [opPushData1, UInt8.ofNat dataLen]
      else if dataLen ≤ 0xffff then opPushData2 :: natToLE 2 dataLen
      else opPushData4 :: natToLE 4 dataLen
    { b with script := b.script ++ push ++ data }

def addData (b : ScriptBuilder) (data : Bytes) : ScriptBuilder :=
  if b.err.isSome then b
  else if b.script.length + canonicalDataSize data > maxScriptSize then
    { b with err := some .errScriptNotCanonical }
  else if data.length > maxScriptElementSize then { b with err := some .errScriptNotCanonical }
  else b.addDataUnchecked data

/-- `AddInt64`; `none` is the panic of `scriptNum.Bytes`. -/
def addInt64 (b : ScriptBuilder) (val : Int) : Option ScriptBuilder :=
  if b.err.isSome then some b
  else if b.script.length + 1 > maxScriptSize then
    some { b with err := some .errScriptNotCanonical }
  else if val = 0 then some { b with script := b.script ++ [op0] }
  else if val = -1 ∨ (1 ≤ val ∧ val ≤ 16) then
    some { b with script := b.script ++ [UInt8.ofNat (op1.toNat - 1 + val).toNat] }
  else (scriptNumBytes val).map b.addData

def toScript (b : ScriptBuilder) : Except ErrorCode Bytes :=
  match b.err with
  | some e => .error e
  | none => .ok b.script

end ScriptBuilder

def pushToken (data : Bytes) : Token :=
  let dataLen := data.length
  if dataLen = 0 ∨ dataLen = 1 ∧ data.headD 0 = 0 then ⟨op0, []⟩
  else if dataLen = 1 ∧ data.headD 0 ≤ 16 then ⟨op1 - 1 + data.headD 0, []⟩
  else if dataLen = 1 ∧ data.headD 0 = 0x81 then ⟨op1Negate, []⟩
  else if dataLen < opPushData1.toNat then ⟨opData1 - 1 + UInt8.ofNat dataLen, data⟩
  else if dataLen ≤ 0xff then ⟨opPushData1, data⟩
  else if dataLen ≤ 0xffff then ⟨opPushData2, data⟩
  else ⟨opPushData4, data⟩

theorem isSmallInt_smallPush {v : UInt8} (h0 : ¬ v = 0) (h : v ≤ 16) :
    isSmallInt (op1 - 1 + v) = true := by
  have h' : v.toNat ≤ 16 := by simpa [UInt8.le_iff_toNat_le] using h
  have h0 : v.toNat ≠ 0 := fun h' => h0 (UInt8.eq_iff_toNat_eq.mpr h')
  rw [isSmallInt_iff, UInt8.toNat_add_mod, show op1 - 1 = 0x50 by decide]
  simp only [UInt8.toNat_lit, Nat.reduceMod]
  omega

theorem dataPush_toNat {n : Nat} (h : n < 256) : (opData1 - 1 + UInt8.ofNat n).toNat = n := by
  rw [UInt8.toNat_add_mod, show opData1 - 1 = 0 by decide, UInt8.toNat_ofNat_of_lt h]
  simpa using Nat.mod_eq_of_lt h

theorem List.eq_singleton_of_length_eq_one {l : Bytes} (h : l.length = 1) : l = [l.headD 0] := by
  obtain ⟨a, rfl⟩ := List.length_eq_one.mp h
  rfl

theorem pushToken_cases (data : Bytes) :
    ((pushToken data).data = [] ∧ opcodeLength (pushToken data).op = 1 ∧
      (isSmallInt (pushToken data).op = true ∨
        data = [0x81] ∧ (pushToken data).op = op1Negate)) ∨
    ((pushToken data).data = data ∧ (pushToken data).op ≤ opPushData4 ∧
      (data.length < 2 ^ 31 → (pushToken data).WF)) := by
  unfold pushToken
  dsimp only
  by_cases h1 : data.length = 0 ∨ data.length = 1 ∧ data.headD 0 = 0
  · rw [if_pos h1]; exact .inl ⟨rfl, rfl, .inl rfl⟩
  rw [if_neg h1]
  by_cases h2 : data.length = 1 ∧ data.headD 0 ≤ 16
  · rw [if_pos h2]
    have hs := isSmallInt_smallPush (by tauto) h2.2
    exact .inl ⟨rfl, isSmallInt_opcodeLength hs, .inl hs⟩
  rw [if_neg h2]
  by_cases h3 : data.length = 1 ∧ data.headD 0 = 0x81
  · rw [if_pos h3]
    refine .inl ⟨rfl, rfl, .inr ⟨?_, rfl⟩⟩
    rw [List.eq_singleton_of_length_eq_one h3.1, h3.2]
  rw [if_neg h3]
  by_cases h4 : data.length < opPushData1.toNat
  · rw [if_pos h4]
    have hn : data.length ≠ 0 := by tauto
    simp only [opPushData1, UInt8.toNat_lit, Nat.reduceMod] at h4
    have ht := dataPush_toNat (n := data.length) (by omega)
    refine .inr ⟨rfl, by simp [UInt8.le_iff_toNat_le, ht, opPushData4]; omega, fun _ => ?_⟩
    simp only [Token.WF, @opcodeLength_of_data (opData1 - 1 + UInt8.ofNat data.length)
      (by rw [ht]; omega) (by rw [ht]; omega), ht]
    rw [if_neg (by omega)]; trivial
  rw [if_neg h4]
  split_ifs <;> refine .inr ⟨rfl, by dsimp only; decide, fun h => ⟨?_, h⟩⟩
  · show data.length < 256 ^ 1; omega
  · show data.length < 256 ^ 2; omega
  · show data.length < 256 ^ 4; omega

theorem pushToken_wf {data : Bytes} (h : data.length < 2 ^ 31) : (pushToken data).WF := by
  rcases pushToken_cases data with ⟨hd, hl, -⟩ | ⟨-, -, hwf⟩
  · rcases h' : pushToken data with ⟨op, d⟩
    rw [h'] at hd hl
    obtain rfl : d = [] := hd
    exact (Token.plain hl).1
  · exact hwf h

theorem pushToken_data_length_le (data : Bytes) : (pushToken data).data.length ≤ data.length := by
  rcases pushToken_cases data with ⟨hd, -⟩ | ⟨hd, -⟩ <;> simp [hd]

theorem pushToken_of_length {data : Bytes} (h1 : 2 ≤ data.length) (h2 : data.length ≤ 75) :
    pushToken data = ⟨UInt8.ofNat data.length, data⟩ := by
  unfold pushToken
  rw [if_neg (by omega), if_neg (by omega), if_neg (by omega), if_pos (by simp [opPushData1]; omega)]
  congr 1
  rw [UInt8.eq_iff_toNat_eq, dataPush_toNat (by omega), UInt8.toNat_ofNat_of_lt (by omega)]

theorem pushToken_byte {v : UInt8} (h1 : 16 < v.toNat) (h2 : v ≠ 0x81) :
    pushToken [v] = ⟨opData1, [v]⟩ := by
  have h0 : v ≠ 0 := by rintro rfl; simp at h1
  have h16 : ¬ v ≤ 16 := by simpa [UInt8.le_iff_toNat_le] using h1
  unfold pushToken
  simp only [List.length_singleton, List.headD_cons, h0, h16, h2, and_false, or_false,
    and_true, if_false]
  rfl

theorem opcodeLength_ge (op : UInt8) : -4 ≤ opcodeLength op := by
  unfold opcodeLength
  omega

theorem Token.bytes_length_le (tk : Token) : tk.bytes.length ≤ tk.data.length + 5 := by
  have := opcodeLength_ge tk.op
  unfold Token.bytes
  split <;> simp only [List.length_cons, List.length_append, length_natToLE] <;> omega

theorem Token.bytes_of_data {tk : Token} (h1 : 1 ≤ tk.op.toNat) (h2 : tk.op.toNat ≤ 75) :
    tk.bytes = tk.op :: tk.data := by
  rw [Token.bytes, if_neg (by rw [opcodeLength_of_data h1 h2]; omega)]

theorem pushToken_bytes_of_length {data : Bytes} (h1 : 2 ≤ data.length) (h2 : data.length ≤ 75) :
    (pushToken data).bytes = UInt8.ofNat data.length :: data := by
  have ht : (UInt8.ofNat data.length).toNat = data.length := UInt8.toNat_ofNat_of_lt (by omega)
  rw [pushToken_of_length h1 h2, Token.bytes_of_data (by simp only [ht]; omega) (by simp only [ht]; omega)]

theorem canonicalDataSize_le (data : Bytes) : canonicalDataSize data ≤ data.length + 5 := by
  unfold canonicalDataSize
  dsimp only
  repeat' (first | omega | refine (ite_le_sup _ _ _).trans (sup_le ?_ ?_))

namespace ScriptBuilder

theorem addDataUnchecked_eq (b : ScriptBuilder) (data : Bytes) :
    b.addDataUnchecked data = { b with script := b.script ++ (pushToken data).bytes } := by
  unfold addDataUnchecked pushToken
  dsimp only
  by_cases h1 : data.length = 0 ∨ data.length = 1 ∧ data.headD 0 = 0
  · rw [if_pos h1, if_pos h1]; rfl
  rw [if_neg h1, if_neg h1]
  by_cases h2 : data.length = 1 ∧ data.headD 0 ≤ 16
  · rw [if_pos h2, if_pos h2,
      (Token.plain (isSmallInt_opcodeLength (isSmallInt_smallPush (by tauto) h2.2))).2]
  rw [if_neg h2, if_neg h2]
  by_cases h3 : data.length = 1 ∧ data.headD 0 = 0x81
  · rw [if_pos h3, if_pos h3]; rfl
  rw [if_neg h3, if_neg h3]
  have hn : data.length ≠ 0 := fun h => h1 (.inl h)
  by_cases h4 : data.length < opPushData1.toNat
  · rw [if_pos h4, if_pos h4]
    simp only [opPushData1, UInt8.toNat_lit, Nat.reduceMod] at h4
    have ht := dataPush_toNat (n := data.length) (by omega)
    have hop : ¬ opcodeLength (opData1 - 1 + UInt8.ofNat data.length) < 0 := by
      rw [opcodeLength_of_data (by rw [ht]; omega) (by rw [ht]; omega)]; omega
    simp [Token.bytes, hop]
  rw [if_neg h4, if_neg h4]
  by_cases h5 : data.length ≤ 0xff
  · have hn : data.length % 256 = data.length := Nat.mod_eq_of_lt (by omega)
    rw [if_pos h5, if_pos h5]
    simp [Token.bytes, show opcodeLength opPushData1 = -1 by decide, natToLE, hn]
  rw [if_neg h5, if_neg h5]
  by_cases h6 : data.length ≤ 0xffff
  · rw [if_pos h6, if_pos h6]
    simp [Token.bytes, show opcodeLength opPushData2 = -2 by decide]
  rw [if_neg h6, if_neg h6]
  simp [Token.bytes, show opcodeLength opPushData4 = -4 by decide]

theorem scriptNumBytes_of_lt {n : Nat} (h0 : 0 < n) (h : n < 0x80) :
    scriptNumBytes n = some [UInt8.ofNat n] := by
  have hd : Nat.digits 256 n = [n] := Nat.digits_of_lt 256 n (by omega) (by omega)
  have hb : UInt8.ofNat n &&& 0x80 = 0 := by
    rw [UInt8.eq_iff_toNat_eq, UInt8.toNat_and, UInt8.toNat_ofNat_of_lt (by omega)]
    apply Nat.eq_of_testBit_eq
    intro i
    simp only [Nat.testBit_and, UInt8.toNat_lit, Nat.zero_testBit]
    by_cases hi : i = 7
    · subst hi; simp [Nat.testBit_lt_two_pow (show n < 2 ^ 7 by omega)]
    · simp [Nat.testBit_two_pow_of_ne (show 7 ≠ i by omega)]
  simp [scriptNumBytes, hd, hb, show (n : Int) ≠ 0 by omega, show (n : Int) ≠ -2 ^ 63 by omega,
    show ¬ (n : Int) < 0 by omega]

theorem addOp_mk {s : Bytes} (op : UInt8) (hroom : s.length + 1 ≤ maxScriptSize) :
    (⟨s, none⟩ : ScriptBuilder).addOp op = ⟨s ++ [op], none⟩ := by
  rw [addOp, if_neg (by simp), if_neg (by simpa using hroom)]

theorem addData_mk {s data : Bytes} (hroom : s.length + data.length + 5 ≤ maxScriptSize)
    (hsize : data.length ≤ maxScriptElementSize) :
    (⟨s, none⟩ : ScriptBuilder).addData data = ⟨s ++ (pushToken data).bytes, none⟩ := by
  have := canonicalDataSize_le data
  rw [addData, if_neg (by simp), if_neg (by simp only; omega), if_neg (by omega),
    addDataUnchecked_eq]

theorem addInt64_smallInt {s : Bytes} {n : Nat} (hroom : s.length + 1 ≤ maxScriptSize)
    (hn : n ≤ 16) : (⟨s, none⟩ : ScriptBuilder).addInt64 n = some ⟨s ++ [smallIntOp n], none⟩ := by
  rw [addInt64, if_neg (by simp), if_neg (by simp only; omega)]
  by_cases h0 : n = 0
  · subst h0; rfl
  · have : ((op1.toNat : Int) - 1 + n).toNat = op1.toNat - 1 + n := by simp [op1]; omega
    rw [if_neg (by omega), if_pos (by omega), this, smallIntOp, if_neg h0]

theorem addInt64_byte {s : Bytes} {n : Nat} (hroom : s.length + 6 ≤ maxScriptSize) (h1 : 16 < n)
    (h2 : n < 0x80) :
    (⟨s, none⟩ : ScriptBuilder).addInt64 n = some ⟨s ++ [opData1, UInt8.ofNat n], none⟩ := by
  have hv : (UInt8.ofNat n).toNat = n := UInt8.toNat_ofNat_of_lt (by omega)
  have h81 : UInt8.ofNat n ≠ 0x81 := by rw [Ne, UInt8.eq_iff_toNat_eq, hv]; simp; omega
  rw [addInt64, if_neg (by simp), if_neg (by simp only; omega), if_neg (by omega),
    if_neg (by omega), scriptNumBytes_of_lt (by omega) h2, Option.map_some',
    addData_mk (by simpa using hroom) (by simp [maxScriptElementSize]),
    pushToken_byte (by omega) h81]
  rfl

theorem foldl_addData_mk {s : Bytes} {keys : List Bytes} (hk : ∀ k ∈ keys, k.length ≤ 75)
    (hroom : s.length + 80 * keys.length ≤ maxScriptSize) :
    keys.foldl addData ⟨s, none⟩ = ⟨s ++ encodeAll (keys.map pushToken), none⟩ := by
  induction keys generalizing s with
  | nil => simp
  | cons k keys ih =>
    simp only [List.mem_cons, forall_eq_or_imp] at hk
    have hb := (pushToken k).bytes_length_le.trans (Nat.add_le_add_right (pushToken_data_length_le k) 5)
    simp only [List.length_cons] at hroom
    rw [List.foldl_cons, addData_mk (by omega) (by simp only [maxScriptElementSize]; omega),
      ih hk.2 (by simp only [List.length_append]; omega)]
    simp

end ScriptBuilder

open ScriptBuilder

def payToPubKeyHashScript (pubKeyHash : Bytes) : Except ErrorCode Bytes :=
  (newScriptBuilder.addOp opDup |>.addOp opHash160 |>.addData pubKeyHash
    |>.addOp opEqualVerify |>.addOp opCheckSig).toScript

def payToScriptHashScript (scriptHash : Bytes) : Except ErrorCode Bytes :=
  (newScriptBuilder.addOp opHash160 |>.addData scriptHash |>.addOp opEqual).toScript

def payToPubKeyScript (serializedPubKey : Bytes) : Except ErrorCode Bytes :=
  (newScriptBuilder.addData serializedPubKey |>.addOp opCheckSig).toScript

def nullDataScript (data : Bytes) : Except ErrorCode Bytes :=
  if data.length > maxDataCarrierSize then .error .errTooMuchNullData
  else (newScriptBuilder.addOp opReturn |>.addData data).toScript

/-- `MultiSigScript`; a key is its `ScriptAddress` bytes (`util` is not in the
source), and `none` is a panic of `AddInt64`. -/
def multiSigScript (pubkeys : List Bytes) (nrequired : Int) : Option (Except ErrorCode Bytes) :=
  if (pubkeys.length : Int) < nrequired then some (.error .errTooManyRequiredSigs) else do
  let builder ← newScriptBuilder.addInt64 nrequired
  let builder := pubkeys.foldl addData builder
  let builder ← builder.addInt64 pubkeys.length
  pure (builder.addOp opCheckMultiSig).toScript

end RosettaThought.Txscript

namespace RosettaThought.Txscript

open ScriptBuilder

theorem payToPubKeyHashScript_eq {pubKeyHash : Bytes} (h : pubKeyHash.length = 20) :
    payToPubKeyHashScript pubKeyHash =
      .ok (opDup :: opHash160 :: opData20 :: (pubKeyHash ++ [opEqualVerify, opCheckSig])) := by
  have hb : (pushToken pubKeyHash).bytes = opData20 :: pubKeyHash := by
    rw [pushToken_bytes_of_length (by omega) (by omega), h]; rfl
  simp (disch := simp [h, maxScriptSize, maxScriptElementSize]) only [payToPubKeyHashScript,
    newScriptBuilder, addOp_mk, addData_mk, hb]
  simp [toScript]

theorem payToScriptHashScript_eq {scriptHash : Bytes} (h : scriptHash.length = 20) :
    payToScriptHashScript scriptHash = .ok (opHash160 :: opData20 :: (scriptHash ++ [opEqual])) := by
  have hb : (pushToken scriptHash).bytes = opData20 :: scriptHash := by
    rw [pushToken_bytes_of_length (by omega) (by omega), h]; rfl
  simp (disch := simp [h, maxScriptSize, maxScriptElementSize]) only [payToScriptHashScript,
    newScriptBuilder, addOp_mk, addData_mk, hb]
  simp [toScript]

theorem extractPubKeyHash_payTo {hash : Bytes} (h : hash.length = 20) :
    extractPubKeyHash (opDup :: opHash160 :: opData20 :: (hash ++ [opEqualVerify, opCheckSig])) =
      some hash := by
  rw [extractPubKeyHash, if_pos (by simp [h, List.getElem_append_right])]
  simp [List.take_left' h]

theorem extractScriptHash_payTo {hash : Bytes} (h : hash.length = 20) :
    extractScriptHash (opHash160 :: opData20 :: (hash ++ [opEqual])) = some hash := by
  rw [extractScriptHash, if_pos (by simp [h, List.getElem_append_right])]
  simp [List.take_left' h]

theorem isStrictPubKeyEncoding_cases {key : Bytes} (h : isStrictPubKeyEncoding key = true) :
    ∃ a rest, key = a :: rest ∧ (rest.length = 32 ∧ (a = 0x02 ∨ a = 0x03) ∨
      rest.length = 64 ∧ (a = 0x04 ∨ a = 0x06 ∨ a = 0x07)) := by
  cases key with
  | nil => simp [isStrictPubKeyEncoding] at h
  | cons a rest => exact ⟨a, rest, rfl, by simpa [isStrictPubKeyEncoding, or_assoc] using h⟩

theorem isStrictPubKeyEncoding_length {key : Bytes} (h : isStrictPubKeyEncoding key = true) :
    key.length = 33 ∨ key.length = 65 := by
  obtain ⟨a, rest, rfl, ⟨hl, -⟩ | ⟨hl, -⟩⟩ := isStrictPubKeyEncoding_cases h <;> simp [hl]

theorem extractPubKey_payTo {key : Bytes} (h : isStrictPubKeyEncoding key = true) :
    extractPubKey (UInt8.ofNat key.length :: (key ++ [opCheckSig])) = some key := by
  obtain ⟨a, rest, rfl, ⟨hl, ha⟩ | ⟨hl, ha⟩⟩ := isStrictPubKeyEncoding_cases h
  · simp [extractPubKey, extractCompressedPubKey, hl, ha, List.getElem_append_right, opData33]
  · simp [extractPubKey, extractCompressedPubKey, extractUncompressedPubKey, hl, ha,
      List.getElem_append_right, opData65]

theorem payToPubKeyScript_eq {key : Bytes} (h : isStrictPubKeyEncoding key = true) :
    payToPubKeyScript key = .ok (UInt8.ofNat key.length :: (key ++ [opCheckSig])) := by
  have hl := isStrictPubKeyEncoding_length h
  have hb := @pushToken_bytes_of_length key (by omega) (by omega)
  simp (disch := simp [maxScriptSize, maxScriptElementSize]; try omega) only [payToPubKeyScript,
    newScriptBuilder, addOp_mk, addData_mk, hb]
  simp [toScript]

theorem nullDataScript_eq {data : Bytes} (h : data.length ≤ maxDataCarrierSize) :
    nullDataScript data = .ok (opReturn :: (pushToken data).bytes) := by
  simp only [maxDataCarrierSize] at h
  simp (disch := simp [maxScriptSize, maxScriptElementSize]; try omega) only [nullDataScript,
    newScriptBuilder, addOp_mk, addData_mk, maxDataCarrierSize, if_neg (show ¬ data.length > 80 by omega)]
  rfl

theorem isNullDataScript_push {data : Bytes} (h : data.length ≤ maxDataCarrierSize) :
    isNullDataScript (opReturn :: (pushToken data).bytes) = decide (data ≠ [0x81]) := by
  have hlen := (pushToken_data_length_le data).trans h
  rw [isNullDataScript_cons (pushToken_wf (by simp only [maxDataCarrierSize] at h; omega))]
  by_cases hd : data = [0x81]
  · subst hd; decide
  rcases pushToken_cases data with ⟨-, -, hs | ⟨hd', -⟩⟩ | ⟨-, hop, -⟩
  · simp [hs, hlen, hd]
  · exact absurd hd' hd
  · simp [hop, hlen, hd]

theorem encodeAll_pushToken_length {keys : List Bytes} (hk : ∀ k ∈ keys, k.length ≤ 75) :
    (encodeAll (keys.map pushToken)).length ≤ 80 * keys.length := by
  induction keys with
  | nil => simp
  | cons k keys ih =>
    simp only [List.mem_cons, forall_eq_or_imp] at hk
    have hb := (pushToken k).bytes_length_le.trans (Nat.add_le_add_right (pushToken_data_length_le k) 5)
    simp only [List.map_cons, encodeAll_cons, List.length_append, List.length_cons]
    have := ih hk.2
    omega

theorem multiSigScript_eq {pubkeys : List Bytes} {nrequired : Nat}
    (hk : ∀ k ∈ pubkeys, k.length ≤ 75) (hm : nrequired ≤ pubkeys.length)
    (hn : pubkeys.length ≤ 16) :
    multiSigScript pubkeys nrequired = some (.ok (smallIntOp nrequired ::
      (encodeAll (pubkeys.map pushToken) ++ [smallIntOp pubkeys.length, opCheckMultiSig]))) := by
  have hl := encodeAll_pushToken_length hk
  have h1 : newScriptBuilder.addInt64 nrequired = some ⟨[smallIntOp nrequired], none⟩ :=
    addInt64_smallInt (by decide) (by omega)
  have h2 := foldl_addData_mk (s := [smallIntOp nrequired]) hk (by simp [maxScriptSize]; omega)
  have h3 := addInt64_smallInt (s := [smallIntOp nrequired] ++ encodeAll (pubkeys.map pushToken))
    (by simp [maxScriptSize]; omega) hn
  have h4 := addOp_mk (s := [smallIntOp nrequired] ++ encodeAll (pubkeys.map pushToken) ++
    [smallIntOp pubkeys.length]) opCheckMultiSig (by simp [maxScriptSize]; omega)
  rw [multiSigScript, if_neg (by omega), h1, Option.bind_eq_bind', Option.some_bind]
  dsimp only
  rw [h2, h3, Option.bind_eq_bind', Option.some_bind, h4]
  simp [toScript]

theorem multiSigScript_eq_of_lt {pubkeys : List Bytes} {nrequired : Nat}
    (hk : ∀ k ∈ pubkeys, k.length ≤ 75) (hm : nrequired ≤ pubkeys.length) (hn1 : 16 < pubkeys.length)
    (hn2 : pubkeys.length ≤ maxPubKeysPerMultiSig) :
    ∃ pre, multiSigScript pubkeys nrequired = some (.ok (pre ++ encodeAll (pubkeys.map pushToken) ++
      [opData1, UInt8.ofNat pubkeys.length, opCheckMultiSig])) := by
  simp only [maxPubKeysPerMultiSig] at hn2
  have hl := encodeAll_pushToken_length hk
  obtain ⟨pre, h1, hpre⟩ : ∃ pre, newScriptBuilder.addInt64 nrequired = some ⟨pre, none⟩ ∧
      pre.length ≤ 2 := by
    by_cases h16 : nrequired ≤ 16
    · exact ⟨_, addInt64_smallInt (by decide) h16, by simp⟩
    · exact ⟨_, addInt64_byte (s := []) (by decide) (by omega) (by omega), by simp⟩
  have h2 := foldl_addData_mk (s := pre) hk (by simp [maxScriptSize]; omega)
  have h3 := addInt64_byte (s := pre ++ encodeAll (pubkeys.map pushToken))
    (n := pubkeys.length) (by simp [maxScriptSize]; omega) hn1 (by omega)
  have h4 := addOp_mk (s := pre ++ encodeAll (pubkeys.map pushToken) ++
    [opData1, UInt8.ofNat pubkeys.length]) opCheckMultiSig (by simp [maxScriptSize]; omega)
  refine ⟨pre, ?_⟩
  rw [multiSigScript, if_neg (by omega), h1, Option.bind_eq_bind', Option.some_bind]
  dsimp only
  rw [h2, h3, Option.bind_eq_bind', Option.some_bind, h4]
  simp [toScript]

theorem extractPubKeyHash_of_length {script : Bytes} (h : script.length ≠ 25) :
    extractPubKeyHash script = none := by
  rw [extractPubKeyHash, if_neg fun hc => h hc.1]

theorem extractScriptHash_of_length {script : Bytes} (h : script.length ≠ 23) :
    extractScriptHash script = none := by
  rw [extractScriptHash, if_neg fun hc => h hc.1]

theorem multiSigScript_form {pubkeys : List Bytes} {nrequired : Nat}
    (hk : ∀ k ∈ pubkeys, isStrictPubKeyEncoding k = true) (hm : nrequired ≤ pubkeys.length)
    (hn : pubkeys.length ≤ 16) :
    MultisigForm (smallIntOp nrequired :: (encodeAll (pubkeys.map pushToken) ++
        [smallIntOp pubkeys.length, opCheckMultiSig]))
      (smallIntOp nrequired) (pubkeys.map pushToken) (smallIntOp pubkeys.length) := by
  refine ⟨isSmallInt_smallIntOp (by omega), isSmallInt_smallIntOp hn,
    by rw [asSmallInt_smallIntOp hn, List.length_map], ?_, rfl⟩
  intro tk htk
  obtain ⟨k, hk', rfl⟩ := List.mem_map.mp htk
  have hl := isStrictPubKeyEncoding_length (hk k hk')
  refine ⟨pushToken_wf (by omega), ?_⟩
  rw [pushToken_of_length (by omega) (by omega)]
  show isSmallInt (UInt8.ofNat k.length) = false
  rcases hl with hl | hl <;> rw [hl] <;> decide

section Classify

variable {Params Address : Type} (codec : AddressCodec Params Address) (chainParams : Params)

theorem payToPubKeyHashScript_classify {hash : Bytes} (h : hash.length = 20) :
    ∃ script, payToPubKeyHashScript hash = .ok script ∧ extractPubKeyHash script = some hash ∧
      extractPkScriptAddrs codec script chainParams =
        (.pubKeyHashTy, pubKeyHashToAddrs codec hash chainParams, 1) :=
  ⟨_, payToPubKeyHashScript_eq h, extractPubKeyHash_payTo h,
    by simp [extractPkScriptAddrs, extractPubKeyHash_payTo h]⟩

theorem payToScriptHashScript_classify {hash : Bytes} (h : hash.length = 20) :
    ∃ script, payToScriptHashScript hash = .ok script ∧ extractScriptHash script = some hash ∧
      extractPkScriptAddrs codec script chainParams =
        (.scriptHashTy, scriptHashToAddrs codec hash chainParams, 1) := by
  refine ⟨_, payToScriptHashScript_eq h, extractScriptHash_payTo h, ?_⟩
  have h1 := @extractPubKeyHash_of_length (opHash160 :: opData20 :: (hash ++ [opEqual]))
    (by simp [h])
  simp [extractPkScriptAddrs, h1, extractScriptHash_payTo h]

theorem payToPubKeyScript_classify {key : Bytes} (h : isStrictPubKeyEncoding key = true) :
    ∃ script, payToPubKeyScript key = .ok script ∧ extractPubKey script = some key ∧
      extractPkScriptAddrs codec script chainParams =
        (.pubKeyTy, (codec.newAddressPubKey key chainParams).toList, 1) := by
  refine ⟨_, payToPubKeyScript_eq h, extractPubKey_payTo h, ?_⟩
  have hl := isStrictPubKeyEncoding_length h
  have h1 := @extractPubKeyHash_of_length (UInt8.ofNat key.length :: (key ++ [opCheckSig]))
    (by simp; omega)
  have h2 := @extractScriptHash_of_length (UInt8.ofNat key.length :: (key ++ [opCheckSig]))
    (by simp; omega)
  simp [extractPkScriptAddrs, h1, h2, extractPubKey_payTo h]

theorem multiSigScript_classify {pubkeys : List Bytes} {nrequired : Nat}
    (hk : ∀ k ∈ pubkeys, isStrictPubKeyEncoding k = true) (hm : nrequired ≤ pubkeys.length)
    (hn : pubkeys.length ≤ 16) :
    ∃ script, multiSigScript pubkeys nrequired = some (.ok script) ∧
      extractPkScriptAddrs codec script chainParams =
        (.multiSigTy, pubkeys.filterMap (codec.newAddressPubKey · chainParams), nrequired) ∧
      extractMultisigScriptDetails script true =
        { requiredSigs := nrequired, numPubKeys := pubkeys.length, pubKeys := pubkeys,
          valid := true } := by
  have hform := multiSigScript_form hk hm hn
  have hdata : (pubkeys.map pushToken).map Token.data = pubkeys := by
    conv_rhs => rw [← List.map_id pubkeys]
    rw [List.map_map]
    refine List.map_congr_left fun k hk' => ?_
    have hl := isStrictPubKeyEncoding_length (hk k hk')
    simp [@pushToken_of_length k (by omega) (by omega)]
  have hd := extractMultisigScriptDetails_of_form hform true
  simp only [if_true, hdata, List.filter_eq_self.mpr hk,
    asSmallInt_smallIntOp (hm.trans hn), List.length_map] at hd
  refine ⟨_, multiSigScript_eq (fun k hk' => ?_) hm hn, ?_, hd⟩
  · rcases isStrictPubKeyEncoding_length (hk k hk') with h | h <;> omega
  · rw [extractPkScriptAddrs_of_isMultisigScript codec (isMultisigScript_iff.mpr ⟨_, _, _, hform⟩),
      hd]

theorem nullDataScript_classify {data : Bytes} (h : data.length ≤ maxDataCarrierSize)
    (hd : data ≠ [0x81]) :
    ∃ script, nullDataScript data = .ok script ∧ getScriptClass script = .nullDataTy :=
  ⟨_, nullDataScript_eq h, typeOfScript_of_matchesTemplate (c := .nullDataTy)
    (by simp [matchesTemplate, isNullDataScript_push h, hd])⟩

end Classify

theorem multiSigScript_not_multisig {pubkeys : List Bytes} {nrequired : Nat}
    (hk : ∀ k ∈ pubkeys, k.length ≤ 75) (hm : nrequired ≤ pubkeys.length)
    (hn1 : 16 < pubkeys.length) (hn2 : pubkeys.length ≤ maxPubKeysPerMultiSig) :
    ∃ script, multiSigScript pubkeys nrequired = some (.ok script) ∧
      getScriptClass script ≠ .multiSigTy := by
  obtain ⟨pre, h⟩ := multiSigScript_eq_of_lt hk hm hn1 hn2
  refine ⟨_, h, fun hc => ?_⟩
  have hms := (typeOfScript_eq_iff (c := .multiSigTy) (by decide)).mp hc
  rw [matchesTemplate, List.append_cons] at hms
  have := isMultisigScript_penultimate hms
  simp only [maxPubKeysPerMultiSig] at hn2
  rw [isSmallInt_iff, UInt8.toNat_ofNat_of_lt (by omega)] at this
  omega

/-- Building a standard script and classifying it gives back what it was built
from, for multisig scripts of at most sixteen keys and null data other than
`[0x81]`; with seventeen to twenty keys the multisig script is not classified
as one. -/
theorem standardScripts_classify {Params Address : Type} (codec : AddressCodec Params Address)
    (chainParams : Params) :
    (∀ hash : Bytes, hash.length = 20 →
      ∃ script, payToPubKeyHashScript hash = .ok script ∧ extractPubKeyHash script = some hash ∧
        extractPkScriptAddrs codec script chainParams =
          (.pubKeyHashTy, pubKeyHashToAddrs codec hash chainParams, 1)) ∧
    (∀ hash : Bytes, hash.length = 20 →
      ∃ script, payToScriptHashScript hash = .ok script ∧ extractScriptHash script = some hash ∧
        extractPkScriptAddrs codec script chainParams =
          (.scriptHashTy, scriptHashToAddrs codec hash chainParams, 1)) ∧
    (∀ key : Bytes, isStrictPubKeyEncoding key = true →
      ∃ script, payToPubKeyScript key = .ok script ∧ extractPubKey script = some key ∧
        extractPkScriptAddrs codec script chainParams =
          (.pubKeyTy, (codec.newAddressPubKey key chainParams).toList, 1)) ∧
    (∀ (pubkeys : List Bytes) (m : Nat), (∀ k ∈ pubkeys, isStrictPubKeyEncoding k = true) →
      m ≤ pubkeys.length → pubkeys.length ≤ 16 →
      ∃ script, multiSigScript pubkeys m = some (.ok script) ∧
        extractPkScriptAddrs codec script chainParams =
          (.multiSigTy, pubkeys.filterMap (codec.newAddressPubKey · chainParams), m) ∧
        extractMultisigScriptDetails script true =
          { requiredSigs := m, numPubKeys := pubkeys.length, pubKeys := pubkeys, valid := true }) ∧
    (∀ (pubkeys : List Bytes) (m : Nat), (∀ k ∈ pubkeys, isStrictPubKeyEncoding k = true) →
      m ≤ pubkeys.length → 16 < pubkeys.length → pubkeys.length ≤ maxPubKeysPerMultiSig →
      ∃ script, multiSigScript pubkeys m = some (.ok script) ∧
        (extractPkScriptAddrs codec script chainParams).1 ≠ .multiSigTy) ∧
    (∀ data : Bytes, data.length ≤ maxDataCarrierSize → data ≠ [0x81] →
      ∃ script, nullDataScript data = .ok script ∧ getScriptClass script = .nullDataTy) :=
  ⟨fun _ h => payToPubKeyHashScript_classify codec chainParams h,
    fun _ h => payToScriptHashScript_classify codec chainParams h,
    fun _ h => payToPubKeyScript_classify codec chainParams h,
    fun _ _ hk hm hn => multiSigScript_classify codec chainParams hk hm hn,
    fun _ _ hk hm hn1 hn2 =>
      let ⟨script, h, hc⟩ := multiSigScript_not_multisig (fun k hk' => by
        rcases isStrictPubKeyEncoding_length (hk k hk') with h | h <;> omega) hm hn1 hn2
      ⟨script, h, by rw [extractPkScriptAddrs_class]; exact hc⟩,
    fun _ h hd => nullDataScript_classify h hd⟩

/-- Building then classifying fails at the payload `[0x81]`, which
`NullDataScript` writes as `OP_1NEGATE` and the classifier turns down, and at
seventeen keys, whose count `MultiSigScript` writes as a data push. -/
theorem standardScripts_misclassified {Params Address : Type} (codec : AddressCodec Params Address)
    (chainParams : Params) :
    (nullDataScript [0x81] = .ok [opReturn, op1Negate] ∧
      (extractPkScriptAddrs codec [opReturn, op1Negate] chainParams).1 = .nonStandardTy) ∧
    (∀ k ∈ List.replicate 17 (0x02 :: List.replicate 32 0), isStrictPubKeyEncoding k = true) ∧
    ∃ script, multiSigScript (List.replicate 17 (0x02 :: List.replicate 32 0)) 17 = some (.ok script) ∧
      (extractPkScriptAddrs codec script chainParams).1 ≠ .multiSigTy := by
  refine ⟨⟨rfl, (extractPkScriptAddrs_class codec _ chainParams).trans (by decide)⟩,
    fun k hk => by rw [(List.mem_replicate.mp hk).2]; decide, ?_⟩
  obtain ⟨script, h, hc⟩ := @multiSigScript_not_multisig (List.replicate 17
    (0x02 :: List.replicate 32 0)) 17 (by simp) (by simp) (by simp) (by simp [maxPubKeysPerMultiSig])
  exact ⟨script, h, (extractPkScriptAddrs_class codec script chainParams).trans_ne hc⟩

theorem nullDataScript_one_negate :
    nullDataScript [0x81] = .ok [opReturn, op1Negate] ∧
      isNullDataScript [opReturn, op1Negate] = false ∧
      getScriptClass [opReturn, op1Negate] = .nonStandardTy ∧
      Thought.getScriptClass [opReturn, op1Negate] = .nonStandardTy :=
  ⟨rfl, by decide, by decide, by decide⟩

end RosettaThought.Txscript
