import RosettaThought.Txscript.Classify
import RosettaThought.Txscript.ScriptBuilder

namespace RosettaThought.Txscript

open ScriptTokenizer

/-- `ecdsa.MinSigLen` (the `ecdsa` package is not in the source). -/
def ecdsaMinSigLen : Nat := 8

def minPubKeyHashSigScriptLen : Nat := 1 + ecdsaMinSigLen + 1 + 1 + 33
def maxPubKeyHashSigScriptLen : Nat := 1 + 72 + 1 + 1 + 33
def compressedPubKeyLen : Nat := 33
def pubKeyHashLen : Nat := 25
def scriptHashLen : Nat := 23
def maxLen : Nat := 34

/-- `PkScript`: the script class (Go's `class`, a keyword in Lean) and the
script, zero-padded to `maxLen` bytes. -/
structure PkScript where
  scriptClass : ScriptClass
  script : Bytes
  script_length : script.length = maxLen

def PkScript.ofScript (cls : ScriptClass) (script : Bytes) : PkScript :=
  ⟨cls, copyBytes (List.replicate maxLen 0) script, by simp⟩

/-- `Script`: the script without its padding; `nil` for an unsupported class. -/
def PkScript.Script (s : PkScript) : Bytes :=
  match s.scriptClass with
  | .pubKeyHashTy => copyBytes (List.replicate pubKeyHashLen 0) (s.script.take pubKeyHashLen)
  | .scriptHashTy => copyBytes (List.replicate scriptHashLen 0) (s.script.take scriptHashLen)
  | _ => []

def isSupportedScriptType (cls : ScriptClass) : Bool :=
  match cls with
  | .pubKeyHashTy | .scriptHashTy => true
  | _ => false

theorem isSupportedScriptType_iff {cls : ScriptClass} :
    isSupportedScriptType cls = true ↔ cls = .pubKeyHashTy ∨ cls = .scriptHashTy := by
  cases cls <;> simp [isSupportedScriptType]

/-- `thtec.IsCompressedPubKey` (not in the source; as in btcec): 33 bytes,
the first `0x02` or `0x03`. -/
def isCompressedPubKey (pubKey : Bytes) : Bool :=
  pubKey.length == 33 && (pubKey[0]? == some 0x02 || pubKey[0]? == some 0x03)

/-- SHA-256 and RIPEMD-160, which come from outside the source. -/
structure Hash160Funcs where
  sha256 : Bytes → Bytes
  ripemd160h : Bytes → Bytes
  length_ripemd160h : ∀ data, (ripemd160h data).length = 20

section Compute

variable (H : Hash160Funcs)

def hash160 (data : Bytes) : Bytes := H.ripemd160h (H.sha256 data)

theorem length_hash160 (data : Bytes) : (hash160 H data).length = 20 := H.length_ripemd160h _

/-- `computePkScript` (its doc comment calls it `computeNonWitnessPkScript`).
The `P2PKH` case of the Go `switch` falls through to the default one when the
last 33 bytes are not a compressed key, so its guard and that test are one
condition here. -/
def computeNonWitnessPkScript (sigScript : Bytes) : Except ErrorCode PkScript :=
  if !isPushOnlyScript sigScript then .error .errUnsupportedScriptType
  else if sigScript.length ≥ minPubKeyHashSigScriptLen ∧
      sigScript.length ≤ maxPubKeyHashSigScriptLen ∧
      isCompressedPubKey (sigScript.drop (sigScript.length - compressedPubKeyLen)) then
    let pubKey := sigScript.drop (sigScript.length - compressedPubKeyLen)
    let pubKeyHash := hash160 H pubKey
    (payToPubKeyHashScript pubKeyHash).map (PkScript.ofScript .pubKeyHashTy)
  else do
    checkScriptParses sigScript
    let redeemScript := finalOpcodeData sigScript
    let scriptHash := hash160 H redeemScript
    let script ← payToScriptHashScript scriptHash
    pure (PkScript.ofScript .scriptHashTy script)

def computePkScript (sigScript : Bytes) : Except ErrorCode PkScript :=
  if sigScript.length > 0 then computeNonWitnessPkScript H sigScript
  else .error .errUnsupportedScriptType

theorem checkScriptParses_of_isPushOnlyScript {script : Bytes}
    (h : isPushOnlyScript script = true) : checkScriptParses script = .ok () :=
  let ⟨toks, ht, _⟩ := isPushOnlyScript_iff.mp h
  checkScriptParses_eq_ok.mpr ⟨toks, ht⟩

theorem computeNonWitnessPkScript_eq {sigScript : Bytes} (hpush : isPushOnlyScript sigScript = true) :
    computeNonWitnessPkScript H sigScript = .ok
      (if minPubKeyHashSigScriptLen ≤ sigScript.length ∧
          sigScript.length ≤ maxPubKeyHashSigScriptLen ∧
          isCompressedPubKey (sigScript.drop (sigScript.length - compressedPubKeyLen)) = true then
        PkScript.ofScript .pubKeyHashTy (opDup :: opHash160 :: opData20 ::
          (hash160 H (sigScript.drop (sigScript.length - compressedPubKeyLen)) ++
            [opEqualVerify, opCheckSig]))
      else PkScript.ofScript .scriptHashTy
        (opHash160 :: opData20 :: (hash160 H (finalOpcodeData sigScript) ++ [opEqual]))) := by
  unfold computeNonWitnessPkScript
  rw [hpush, Bool.not_true, if_neg Bool.false_ne_true]
  dsimp only
  split_ifs
  · rw [payToPubKeyHashScript_eq (length_hash160 H _)]; rfl
  · rw [checkScriptParses_of_isPushOnlyScript hpush, payToScriptHashScript_eq (length_hash160 H _)]
    rfl

theorem computePkScript_eq_ok {sigScript : Bytes} {pk : PkScript}
    (h : computePkScript H sigScript = .ok pk) :
    isPushOnlyScript sigScript = true ∧ computeNonWitnessPkScript H sigScript = .ok pk := by
  unfold computePkScript at h
  split at h
  · refine ⟨?_, h⟩
    unfold computeNonWitnessPkScript at h
    cases hp : isPushOnlyScript sigScript
    · simp [hp] at h
    · rfl
  · cases h

end Compute

theorem PkScript.copyBytes_take_ofScript (cls : ScriptClass) {script : Bytes}
    (h : script.length ≤ maxLen) :
    copyBytes (List.replicate script.length 0)
      ((PkScript.ofScript cls script).script.take script.length) = script := by
  rw [PkScript.ofScript, take_copyBytes (by simpa using h), copyBytes_of_length (by simp)]

theorem PkScript.Script_ofScript_pubKeyHashTy {script : Bytes} (h : script.length = pubKeyHashLen) :
    (PkScript.ofScript .pubKeyHashTy script).Script = script := by
  show copyBytes _ ((_ : PkScript).script.take pubKeyHashLen) = _
  rw [← h]
  exact PkScript.copyBytes_take_ofScript _ (by rw [h]; decide)

theorem PkScript.Script_ofScript_scriptHashTy {script : Bytes} (h : script.length = scriptHashLen) :
    (PkScript.ofScript .scriptHashTy script).Script = script := by
  show copyBytes _ ((_ : PkScript).script.take scriptHashLen) = _
  rw [← h]
  exact PkScript.copyBytes_take_ofScript _ (by rw [h]; decide)

section Spend

variable (H : Hash160Funcs)

theorem length_pos_of_tokenizes {script : Bytes} {toks : List Token} {tk : Token}
    (hs : Tokenizes script (toks ++ [tk])) : 0 < script.length := by
  rw [← hs.2, encodeAll_append, List.length_append, encodeAll_cons, List.length_append]
  have := List.length_pos.mpr tk.bytes_ne_nil
  omega

/-- The output script a push-only signature script spends: the `P2PKH` script
of the signature script's last 33 bytes when they are a compressed key and the
length is that of a `P2PKH` spend, and otherwise the `P2SH` script of the data
of the last push. -/
theorem computePkScript_of_pushes {sigScript : Bytes} {toks : List Token} {tk : Token}
    (hs : Tokenizes sigScript (toks ++ [tk])) (hpush : ∀ t ∈ toks ++ [tk], t.op ≤ op16) :
    ∃ pk, computePkScript H sigScript = .ok pk ∧
      if minPubKeyHashSigScriptLen ≤ sigScript.length ∧
          sigScript.length ≤ maxPubKeyHashSigScriptLen ∧
          isCompressedPubKey (sigScript.drop (sigScript.length - compressedPubKeyLen)) = true then
        pk.scriptClass = .pubKeyHashTy ∧
          payToPubKeyHashScript (hash160 H (sigScript.drop (sigScript.length - compressedPubKeyLen))) =
            .ok pk.Script
      else
        pk.scriptClass = .scriptHashTy ∧ payToScriptHashScript (hash160 H tk.data) = .ok pk.Script := by
  rw [computePkScript, if_pos (length_pos_of_tokenizes hs),
    computeNonWitnessPkScript_eq H (isPushOnlyScript_iff.mpr ⟨_, hs, hpush⟩),
    finalOpcodeData_of_tokenizes hs]
  refine ⟨_, rfl, ?_⟩
  split_ifs
  · rw [payToPubKeyHashScript_eq (length_hash160 H _),
      PkScript.Script_ofScript_pubKeyHashTy (by simp [length_hash160, pubKeyHashLen])]
    exact ⟨rfl, rfl⟩
  · rw [payToScriptHashScript_eq (length_hash160 H _),
      PkScript.Script_ofScript_scriptHashTy (by simp [length_hash160, scriptHashLen])]
    exact ⟨rfl, rfl⟩

def constHash160Funcs : Hash160Funcs :=
  ⟨id, fun _ => List.replicate 20 0, fun _ => List.length_replicate _ _⟩

def p2shSpendRedeemScript : Bytes := opData33 :: 0x02 :: 0x02 :: (List.replicate 31 0 ++ [opCheckSig])

def p2shSpendSigScript : Bytes :=
  encodeAll [⟨0x08, List.replicate 8 0x30⟩, ⟨0x23, p2shSpendRedeemScript⟩]

theorem computePkScript_of_pushes_p2shSpend :
    Tokenizes p2shSpendSigScript ([⟨0x08, List.replicate 8 0x30⟩] ++ [⟨0x23, p2shSpendRedeemScript⟩]) ∧
      (∀ t ∈ [⟨0x08, List.replicate 8 0x30⟩] ++ [⟨0x23, p2shSpendRedeemScript⟩], Token.op t ≤ op16) ∧
      ∃ pk, computePkScript constHash160Funcs p2shSpendSigScript = .ok pk ∧
        if minPubKeyHashSigScriptLen ≤ p2shSpendSigScript.length ∧
            p2shSpendSigScript.length ≤ maxPubKeyHashSigScriptLen ∧
            isCompressedPubKey (p2shSpendSigScript.drop
              (p2shSpendSigScript.length - compressedPubKeyLen)) = true then
          pk.scriptClass = .pubKeyHashTy ∧
            payToPubKeyHashScript (hash160 constHash160Funcs (p2shSpendSigScript.drop
              (p2shSpendSigScript.length - compressedPubKeyLen))) = .ok pk.Script
        else
          pk.scriptClass = .scriptHashTy ∧
            payToScriptHashScript (hash160 constHash160Funcs p2shSpendRedeemScript) = .ok pk.Script :=
  have hs : Tokenizes p2shSpendSigScript
      ([⟨0x08, List.replicate 8 0x30⟩] ++ [⟨0x23, p2shSpendRedeemScript⟩]) := ⟨by decide, rfl⟩
  have hp : ∀ t ∈ [⟨0x08, List.replicate 8 0x30⟩] ++ [⟨0x23, p2shSpendRedeemScript⟩],
      Token.op t ≤ op16 := by decide
  ⟨hs, hp, computePkScript_of_pushes constHash160Funcs hs hp⟩

/-- The spend above is computed as a `P2PKH` spend: its last 33 bytes, the end
of the redeem script, look like a compressed key, although its last push is
the 35-byte redeem script. -/
theorem computePkScript_p2shSpend_pubKeyHashTy :
    Tokenizes p2shSpendSigScript [⟨0x08, List.replicate 8 0x30⟩, ⟨0x23, p2shSpendRedeemScript⟩] ∧
      p2shSpendRedeemScript.length = 35 ∧
      (computePkScript constHash160Funcs p2shSpendSigScript).map PkScript.scriptClass =
        .ok .pubKeyHashTy := by
  have hs : Tokenizes p2shSpendSigScript
      [⟨0x08, List.replicate 8 0x30⟩, ⟨0x23, p2shSpendRedeemScript⟩] := ⟨by decide, rfl⟩
  have hpo : isPushOnlyScript p2shSpendSigScript = true :=
    isPushOnlyScript_iff.mpr ⟨_, hs, by decide⟩
  refine ⟨hs, rfl, ?_⟩
  rw [computePkScript, if_pos (by decide), computeNonWitnessPkScript_eq _ hpo, if_pos (by decide)]
  rfl

theorem computePkScript_of_pubKeyHash_spend {sigScript key : Bytes} {toks : List Token}
    (hs : Tokenizes sigScript (toks ++ [⟨opData33, key⟩])) (hpush : ∀ t ∈ toks, t.op ≤ op16)
    (hkey : isCompressedPubKey key = true)
    (hlen : minPubKeyHashSigScriptLen ≤ sigScript.length ∧
      sigScript.length ≤ maxPubKeyHashSigScriptLen) :
    (computePkScript H sigScript).map (fun pk => (pk.scriptClass, pk.Script)) =
      .ok (.pubKeyHashTy, opDup :: opHash160 :: opData20 ::
        (hash160 H key ++ [opEqualVerify, opCheckSig])) := by
  have hk : key.length = 33 := by simpa [isCompressedPubKey] using (Bool.and_eq_true _ _).mp hkey |>.1
  have hb : Token.bytes ⟨opData33, key⟩ = opData33 :: key := by
    rw [Token.bytes, if_neg]
    rw [@opcodeLength_of_data opData33 (by decide) (by decide)]
    omega
  have hdrop : sigScript.drop (sigScript.length - compressedPubKeyLen) = key := by
    rw [← hs.2, encodeAll_append, encodeAll_cons, encodeAll_nil, List.append_nil, hb,
      ← List.singleton_append, ← List.append_assoc]
    exact List.drop_left' (by simp [hk, compressedPubKeyLen])
  have hpo : isPushOnlyScript sigScript = true := by
    refine isPushOnlyScript_iff.mpr ⟨_, hs, fun t ht => ?_⟩
    rcases List.mem_append.mp ht with ht | ht
    · exact hpush t ht
    · rw [List.mem_singleton.mp ht]; exact (by decide : opData33 ≤ op16)
  rw [computePkScript, if_pos (length_pos_of_tokenizes hs), computeNonWitnessPkScript_eq H hpo,
    hdrop, if_pos ⟨hlen.1, hlen.2, hkey⟩]
  simp only [Except.map]
  rw [PkScript.Script_ofScript_pubKeyHashTy (by simp [length_hash160, pubKeyHashLen])]
  rfl

end Spend

section Parse

variable {Params Addr : Type} (codec : AddressCodec Params Addr)

/-- `ParsePkScript`, against the main network's parameters `mainNetParams`;
the error of `ExtractPkScriptAddrs` is always `nil` and is left out. -/
def parsePkScript (mainNetParams : Params) (pkScript : Bytes) : Except ErrorCode PkScript :=
  let scriptClass := (extractPkScriptAddrs codec pkScript mainNetParams).1
  if !isSupportedScriptType scriptClass then .error .errUnsupportedScriptType
  else .ok (PkScript.ofScript scriptClass pkScript)

theorem extractPkScriptAddrs_pubKeyHashScript {hash : Bytes} (h : hash.length = 20)
    (chainParams : Params) :
    (extractPkScriptAddrs codec (opDup :: opHash160 :: opData20 ::
      (hash ++ [opEqualVerify, opCheckSig])) chainParams).1 = .pubKeyHashTy := by
  rw [extractPkScriptAddrs_class, getScriptClass, typeOfScript_of_matchesTemplate]
  simp [matchesTemplate, isPubKeyHashScript, extractPubKeyHash_payTo h]

theorem extractPkScriptAddrs_scriptHashScript {hash : Bytes} (h : hash.length = 20)
    (chainParams : Params) :
    (extractPkScriptAddrs codec (opHash160 :: opData20 :: (hash ++ [opEqual])) chainParams).1 =
      .scriptHashTy := by
  rw [extractPkScriptAddrs_class, getScriptClass, typeOfScript_of_matchesTemplate]
  simp [matchesTemplate, isScriptHashScript, extractScriptHash_payTo h]

theorem parsePkScript_eq (mainNetParams : Params) (pkScript : Bytes) :
    parsePkScript codec mainNetParams pkScript =
      if isSupportedScriptType (getScriptClass pkScript) then
        .ok (PkScript.ofScript (getScriptClass pkScript) pkScript)
      else .error .errUnsupportedScriptType := by
  rw [parsePkScript, extractPkScriptAddrs_class]
  cases isSupportedScriptType (getScriptClass pkScript) <;> rfl

theorem isSupportedScriptType_of_parsePkScript {mainNetParams : Params} {pkScript : Bytes}
    {p : PkScript} (h : parsePkScript codec mainNetParams pkScript = .ok p) :
    isSupportedScriptType (getScriptClass pkScript) = true ∧
      p = PkScript.ofScript (getScriptClass pkScript) pkScript := by
  rw [parsePkScript_eq] at h
  split_ifs at h with hs
  exact ⟨hs, (Except.ok.inj h).symm⟩

/-- `Address`: the first address `ExtractPkScriptAddrs` returns for `Script()`,
`none` when it returns none and `addrs[0]` panics; the error it checks is
always `nil`. -/
def PkScript.Address (s : PkScript) (chainParams : Params) : Option Addr :=
  (extractPkScriptAddrs codec s.Script chainParams).2.1.head?

theorem extractPkScriptAddrs_ne_nil {chainParams : Params}
    (hcodec : ∀ hash : Bytes, hash.length = 20 →
      (codec.newAddressPubKeyHash hash chainParams).isSome ∧
        (codec.newAddressScriptHashFromHash hash chainParams).isSome)
    {script : Bytes} (h : isSupportedScriptType (getScriptClass script) = true) :
    (extractPkScriptAddrs codec script chainParams).2.1 ≠ [] := by
  have hmatch := fun c hc => (@typeOfScript_eq_iff c script hc).mp
  unfold extractPkScriptAddrs
  rcases hp : extractPubKeyHash script with _ | hash
  · rcases hs : extractScriptHash script with _ | hash
    · rcases isSupportedScriptType_iff.mp h with hc | hc
      · simpa [matchesTemplate, isPubKeyHashScript, hp] using hmatch _ (by decide) hc
      · simpa [matchesTemplate, isScriptHashScript, hs] using hmatch _ (by decide) hc
    · obtain ⟨_, ha⟩ := Option.isSome_iff_exists.mp (hcodec hash (length_of_extractScriptHash hs)).2
      simp [scriptHashToAddrs, ha]
  · obtain ⟨_, ha⟩ := Option.isSome_iff_exists.mp (hcodec hash (length_of_extractPubKeyHash hp)).1
    simp [pubKeyHashToAddrs, ha]

theorem PkScript.Script_ofScript_getScriptClass {script : Bytes}
    (h : isSupportedScriptType (getScriptClass script) = true) :
    (PkScript.ofScript (getScriptClass script) script).Script = script := by
  have hmatch := fun c hc => (@typeOfScript_eq_iff c script hc).mp
  rcases isSupportedScriptType_iff.mp h with hc | hc <;> rw [hc]
  · obtain ⟨_, hh⟩ := Option.isSome_iff_exists.mp (hmatch .pubKeyHashTy (by decide) hc)
    exact PkScript.Script_ofScript_pubKeyHashTy (extractPubKeyHash_eq_some hh).1
  · obtain ⟨_, hh⟩ := Option.isSome_iff_exists.mp (hmatch .scriptHashTy (by decide) hc)
    exact PkScript.Script_ofScript_scriptHashTy (extractScriptHash_eq_some hh).1

theorem parsePkScript_Script (H : Hash160Funcs) {sigScript : Bytes} {pk : PkScript}
    (h : computePkScript H sigScript = .ok pk) (mainNetParams : Params) :
    parsePkScript codec mainNetParams pk.Script = .ok pk := by
  obtain ⟨hpo, h⟩ := computePkScript_eq_ok H h
  rw [computeNonWitnessPkScript_eq H hpo] at h
  cases h
  split_ifs
  · rw [PkScript.Script_ofScript_pubKeyHashTy (by simp [length_hash160, pubKeyHashLen]), parsePkScript,
      extractPkScriptAddrs_pubKeyHashScript codec (length_hash160 H _)]
    rfl
  · rw [PkScript.Script_ofScript_scriptHashTy (by simp [length_hash160, scriptHashLen]), parsePkScript,
      extractPkScriptAddrs_scriptHashScript codec (length_hash160 H _)]
    rfl

theorem parsePkScript_ok {mainNetParams : Params} {pkScript : Bytes} {p : PkScript}
    (h : parsePkScript codec mainNetParams pkScript = .ok p) :
    p.scriptClass = getScriptClass pkScript ∧ p.Script = pkScript ∧
      parsePkScript codec mainNetParams p.Script = .ok p := by
  obtain ⟨hs, rfl⟩ := isSupportedScriptType_of_parsePkScript codec h
  have hS := PkScript.Script_ofScript_getScriptClass hs
  exact ⟨rfl, hS, by rw [hS]; exact h⟩

/-- `ParsePkScript` accepts exactly the pay-to-pubkey-hash and
pay-to-script-hash scripts.  What it returns, like what `ComputePkScript`
returns, is a fixed point of parsing its `Script()`, and has an address on
every network whose two hash constructors accept every 20-byte hash. -/
theorem parsePkScript_roundTrip (mainNetParams : Params) :
    (∀ pkScript : Bytes,
      ((∃ p, parsePkScript codec mainNetParams pkScript = .ok p) ↔
          getScriptClass pkScript = .pubKeyHashTy ∨ getScriptClass pkScript = .scriptHashTy) ∧
        ∀ p, parsePkScript codec mainNetParams pkScript = .ok p →
          p.scriptClass = getScriptClass pkScript ∧ p.Script = pkScript ∧
            parsePkScript codec mainNetParams p.Script = .ok p) ∧
      (∀ (H : Hash160Funcs) (sigScript : Bytes) (p : PkScript),
        computePkScript H sigScript = .ok p → parsePkScript codec mainNetParams p.Script = .ok p) ∧
      ∀ p : PkScript,
        ((∃ pkScript, parsePkScript codec mainNetParams pkScript = .ok p) ∨
          ∃ (H : Hash160Funcs) (sigScript : Bytes), computePkScript H sigScript = .ok p) →
        ∀ chainParams : Params,
          (∀ hash : Bytes, hash.length = 20 →
            (codec.newAddressPubKeyHash hash chainParams).isSome ∧
              (codec.newAddressScriptHashFromHash hash chainParams).isSome) →
          ∃ addr, p.Address codec chainParams = some addr := by
  refine ⟨fun pkScript => ⟨⟨?_, ?_⟩, fun p => parsePkScript_ok codec⟩,
    fun H _ _ h => parsePkScript_Script codec H h mainNetParams, ?_⟩
  · rintro ⟨p, h⟩
    exact isSupportedScriptType_iff.mp (isSupportedScriptType_of_parsePkScript codec h).1
  · intro hc
    exact ⟨_, by rw [parsePkScript_eq, if_pos (isSupportedScriptType_iff.mpr hc)]⟩
  · intro p hp chainParams hcodec
    have hfix : parsePkScript codec mainNetParams p.Script = .ok p := by
      rcases hp with ⟨_, h⟩ | ⟨H, _, h⟩
      · exact (parsePkScript_ok codec h).2.2
      · exact parsePkScript_Script codec H h mainNetParams
    exact Option.isSome_iff_exists.mp (List.head?_isSome.mpr
      (extractPkScriptAddrs_ne_nil codec hcodec (isSupportedScriptType_of_parsePkScript codec hfix).1))

end Parse

def hashAddressCodec : AddressCodec Unit Bytes :=
  ⟨fun hash _ => some hash, fun hash _ => some hash, fun key _ => some key⟩

def zeroHashScriptHashScript : Bytes := opHash160 :: opData20 :: (List.replicate 20 0 ++ [opEqual])

theorem parsePkScript_roundTrip_zeroHash :
    (∀ hash : Bytes, hash.length = 20 →
      (hashAddressCodec.newAddressPubKeyHash hash ()).isSome ∧
        (hashAddressCodec.newAddressScriptHashFromHash hash ()).isSome) ∧
      ∃ addr, (PkScript.ofScript .scriptHashTy zeroHashScriptHashScript).Address hashAddressCodec () =
        some addr :=
  have hcodec : ∀ hash : Bytes, hash.length = 20 →
      (hashAddressCodec.newAddressPubKeyHash hash ()).isSome ∧
        (hashAddressCodec.newAddressScriptHashFromHash hash ()).isSome := fun _ _ => ⟨rfl, rfl⟩
  ⟨hcodec, (parsePkScript_roundTrip hashAddressCodec ()).2.2 _ (.inl ⟨zeroHashScriptHashScript, rfl⟩)
    () hcodec⟩

end RosettaThought.Txscript
