import Mathlib.Data.List.GetD
import RosettaThought.Txscript.ScriptNum

namespace RosettaThought.Txscript

open ScriptTokenizer

structure TemplateMatch where
  expectCanonicalInt : Bool := false
  maxIntBytes : Nat := 0
  opcode : UInt8 := 0
  extractedInt : Int := 0
  extractedData : Bytes := []
  deriving DecidableEq, Repr

def atomicSwapTemplate : List TemplateMatch :=
  [{ opcode := opIf },
   { opcode := opSize },
   { expectCanonicalInt := true, maxIntBytes := maxScriptNumLen },
   { opcode := opEqualVerify },
   { opcode := opSha256 },
   { opcode := opData32 },
   { opcode := opEqualVerify },
   { opcode := opDup },
   { opcode := opHash160 },
   { opcode := opData20 },
   { opcode := opElse },
   { expectCanonicalInt := true, maxIntBytes := cltvMaxScriptNumLen },
   { opcode := opCheckLockTimeVerify },
   { opcode := opDrop },
   { opcode := opDup },
   { opcode := opHash160 },
   { opcode := opData20 },
   { opcode := opEndIf },
   { opcode := opEqualVerify },
   { opcode := opCheckSig }]

/-- The loop body for one token: the entry with what it read, `none` for Go's
`return nil, nil`, or the error of `makeScriptNum`.  A token's data is non-`nil`
in Go exactly when its opcode carries a payload. -/
def matchTemplateEntry (tplEntry : TemplateMatch) (tk : Token) :
    Except ErrorCode (Option TemplateMatch) :=
  if tplEntry.expectCanonicalInt then
    if opcodeLength tk.op ≠ 1 then
      match makeScriptNum tk.data true tplEntry.maxIntBytes with
      | .error e => .error e
      | .ok val => .ok (some { tplEntry with extractedInt := val })
    else if isSmallInt tk.op then .ok (some { tplEntry with extractedInt := asSmallInt tk.op })
    else .ok none
  else if tk.op ≠ tplEntry.opcode then .ok none
  else .ok (some { tplEntry with extractedData := tk.data })

def matchTemplate : Nat → List TemplateMatch → List Token →
    Except ErrorCode (Option (Nat × List TemplateMatch))
  | templateOffset, template, [] => .ok (some (templateOffset, template))
  | templateOffset, template, tk :: toks =>
    if templateOffset ≥ template.length then .ok none else
    match matchTemplateEntry (template.getD templateOffset {}) tk with
    | .error e => .error e
    | .ok none => .ok none
    | .ok (some tplEntry) =>
      matchTemplate (templateOffset + 1) (template.set templateOffset tplEntry) toks

@[ext]
structure AtomicSwapDataPushes where
  recipientHash160 : Bytes
  refundHash160 : Bytes
  secretHash : Bytes
  secretSize : Int
  lockTime : Int
  recipientHash160_length : recipientHash160.length = 20
  refundHash160_length : refundHash160.length = 20
  secretHash_length : secretHash.length = 32

/-- `ExtractAtomicSwapDataPushes`; the script version is not read. -/
def extractAtomicSwapDataPushes (_version : UInt16) (pkScript : Bytes) :
    Except ErrorCode (Option AtomicSwapDataPushes) :=
  let r := (makeScriptTokenizer pkScript).run
  match matchTemplate 0 atomicSwapTemplate (r.1.map token) with
  | .error e => .error e
  | .ok none => .ok none
  | .ok (some (templateOffset, template)) =>
    match r.2.err with
    | some e => .error e
    | none =>
      if !r.2.done || templateOffset ≠ template.length then .ok none else
      .ok (some
        { secretSize := (template.getD 2 {}).extractedInt
          lockTime := (template.getD 11 {}).extractedInt
          secretHash := copyBytes (List.replicate 32 0) (template.getD 5 {}).extractedData
          recipientHash160 := copyBytes (List.replicate 20 0) (template.getD 9 {}).extractedData
          refundHash160 := copyBytes (List.replicate 20 0) (template.getD 16 {}).extractedData
          recipientHash160_length := by simp
          refundHash160_length := by simp
          secretHash_length := by simp })

def matchEntries : List TemplateMatch → List Token → Except ErrorCode (Option (List TemplateMatch))
  | _, [] => .ok (some [])
  | [], _ :: _ => .ok none
  | e :: es, tk :: toks =>
    match matchTemplateEntry e tk with
    | .error err => .error err
    | .ok none => .ok none
    | .ok (some e') => (matchEntries es toks).map (Option.map (e' :: ·))

theorem matchTemplate_eq (done rest : List TemplateMatch) (toks : List Token) :
    matchTemplate done.length (done ++ rest) toks =
      (matchEntries rest toks).map
        (Option.map fun m => (done.length + m.length, done ++ m ++ rest.drop m.length)) := by
  induction toks generalizing done rest with
  | nil => simp [matchTemplate, matchEntries, Except.map]
  | cons tk toks ih =>
    rcases rest with _ | ⟨e, es⟩
    · simp [matchTemplate, matchEntries, Except.map]
    have hget : (done ++ e :: es).getD done.length {} = e := by
      rw [List.getD_eq_getElem?_getD, List.getElem?_append_right le_rfl]; simp
    have hset : (done ++ e :: es).set done.length = fun e' => (done ++ [e']) ++ es := by
      funext e'; simp [List.set_append_right]
    simp only [matchTemplate, matchEntries, hget, hset, List.length_append, List.length_cons]
    rw [if_neg (by omega)]
    rcases matchTemplateEntry e tk with err | _ | e' <;> try rfl
    have := ih (done ++ [e']) es
    simp only [List.length_append, List.length_singleton] at this
    dsimp only
    rw [this]
    rcases matchEntries es toks with err | _ | m <;> simp [Except.map]; omega

@[simp] theorem matchEntries_nil (tpl : List TemplateMatch) : matchEntries tpl [] = .ok (some []) := by
  cases tpl <;> rfl

theorem matchEntries_cons_of_some {e e' : TemplateMatch} {tk : Token}
    (h : matchTemplateEntry e tk = .ok (some e')) (es : List TemplateMatch) (toks : List Token) :
    matchEntries (e :: es) (tk :: toks) = (matchEntries es toks).map (Option.map (e' :: ·)) := by
  simp only [matchEntries, h]

theorem matchEntries_eq_some {tpl : List TemplateMatch} {toks : List Token} {m : List TemplateMatch}
    (h : matchEntries tpl toks = .ok (some m)) :
    m.length = toks.length ∧ toks.length ≤ tpl.length ∧ ∀ i < toks.length,
      matchTemplateEntry (tpl.getD i {}) (toks.getD i ⟨0, []⟩) = .ok (some (m.getD i {})) := by
  induction toks generalizing tpl m with
  | nil => rw [matchEntries_nil] at h; cases h; simp
  | cons tk toks ih =>
    rcases tpl with _ | ⟨e, es⟩
    · cases h
    simp only [matchEntries] at h
    rcases he : matchTemplateEntry e tk with err | _ | e' <;> rw [he] at h
    · cases h
    · cases h
    rcases hm : matchEntries es toks with err | _ | m' <;> rw [hm] at h <;> cases h
    obtain ⟨hl, hle, hi⟩ := ih hm
    refine ⟨by simp [hl], by simp [hle], fun i hi' => ?_⟩
    cases i with
    | zero => simpa using he
    | succ i => simpa using hi i (by simp at hi'; omega)

def intPushValue (maxIntBytes : Nat) (tk : Token) : Option Int :=
  if opcodeLength tk.op ≠ 1 then (makeScriptNum tk.data true maxIntBytes).toOption
  else if isSmallInt tk.op then some (asSmallInt tk.op) else none

theorem intPushValue_int64Token {k : Nat} {val : Int} (hk : k ≤ 8)
    (hval : val.natAbs < 2 ^ (8 * k - 1)) :
    intPushValue k (int64Token val) = if val = -1 then none else some val := by
  unfold intPushValue int64Token
  by_cases h0 : val = 0
  · subst h0; rfl
  rw [if_neg h0]
  by_cases hs : val = -1 ∨ (1 ≤ val ∧ val ≤ 16)
  · rw [if_pos hs]
    rcases hs with rfl | hs
    · rfl
    · have hn : val.toNat ≤ 16 := by omega
      have hop : UInt8.ofNat (op1.toNat - 1 + val).toNat = smallIntOp val.toNat := by
        rw [smallIntOp, if_neg (by omega)]; congr 1; simp [op1]; omega
      simp only [hop, isSmallInt_opcodeLength (isSmallInt_smallIntOp hn),
        isSmallInt_smallIntOp hn, asSmallInt_smallIntOp hn, if_neg (by omega : val ≠ -1)]
      simp; omega
  rw [if_neg hs]
  have hk' : 8 * k - 1 ≤ 63 := by omega
  obtain ⟨v, hv, -⟩ := scriptNumBytes_isSome (hval.trans_le (Nat.pow_le_pow_right (by norm_num) hk'))
  have hlen := (length_scriptNumBytes_le_iff hv k).mpr hval
  have hdec := makeScriptNum_of_scriptNumBytes hv hlen
  obtain ⟨hne, hsmall⟩ := scriptNumBytes_ne_small hv (by tauto)
  have htok : ∃ op, pushToken v = ⟨op, v⟩ ∧ opcodeLength op ≠ 1 := by
    by_cases h1 : v.length = 1
    · obtain ⟨x, rfl⟩ := List.length_eq_one.mp h1
      obtain ⟨hx, hx81⟩ := hsmall x rfl
      exact ⟨_, pushToken_byte hx hx81, by decide⟩
    · have h2 : 2 ≤ v.length := by
        have := List.length_pos.mpr hne; omega
      refine ⟨_, pushToken_of_length h2 (by omega), ?_⟩
      rw [opcodeLength_of_data] <;> rw [UInt8.toNat_ofNat_of_lt (by omega)] <;> omega
  obtain ⟨op, hp, hl⟩ := htok
  rw [hv, Option.getD_some, hp, if_pos hl, hdec, if_neg (by omega)]
  rfl

theorem matchTemplateEntry_int {k : Nat} {tk : Token} {e' : TemplateMatch} :
    matchTemplateEntry { expectCanonicalInt := true, maxIntBytes := k } tk = .ok (some e') ↔
      ∃ v, intPushValue k tk = some v ∧
        e' = { expectCanonicalInt := true, maxIntBytes := k, extractedInt := v } := by
  unfold matchTemplateEntry intPushValue
  by_cases h1 : opcodeLength tk.op ≠ 1
  · simp only [h1, if_true, ne_eq, not_false_eq_true]
    rcases makeScriptNum tk.data true k with err | v <;> simp [Except.toOption, eq_comm]
  · by_cases h2 : isSmallInt tk.op <;> simp [h1, h2, eq_comm]

theorem matchTemplateEntry_fixed {op : UInt8} {tk : Token} {e' : TemplateMatch} :
    matchTemplateEntry { opcode := op } tk = .ok (some e') ↔
      tk.op = op ∧ e' = { opcode := op, extractedData := tk.data } := by
  unfold matchTemplateEntry
  by_cases h : tk.op = op <;> simp [h, eq_comm]

theorem token_of_matchTemplateEntry {op : UInt8} {tk : Token} {e' : TemplateMatch}
    (h : matchTemplateEntry { opcode := op } tk = .ok (some e')) (hwf : tk.WF)
    (hop : 0 < opcodeLength op) :
    tk = ⟨op, e'.extractedData⟩ ∧ (e'.extractedData.length : Int) + 1 = opcodeLength op := by
  obtain ⟨rfl, rfl⟩ := matchTemplateEntry_fixed.mp h
  simp only [Token.WF, show ¬ opcodeLength tk.op < 0 by omega, if_false] at hwf
  exact ⟨rfl, hwf⟩

def atomicSwapTokens (secretSize : Token) (secretHash recipientHash160 : Bytes) (lockTime : Token)
    (refundHash160 : Bytes) : List Token :=
  [⟨opIf, []⟩, ⟨opSize, []⟩, secretSize, ⟨opEqualVerify, []⟩, ⟨opSha256, []⟩,
   ⟨opData32, secretHash⟩, ⟨opEqualVerify, []⟩, ⟨opDup, []⟩, ⟨opHash160, []⟩,
   ⟨opData20, recipientHash160⟩, ⟨opElse, []⟩, lockTime, ⟨opCheckLockTimeVerify, []⟩,
   ⟨opDrop, []⟩, ⟨opDup, []⟩, ⟨opHash160, []⟩, ⟨opData20, refundHash160⟩, ⟨opEndIf, []⟩,
   ⟨opEqualVerify, []⟩, ⟨opCheckSig, []⟩]

theorem matchEntries_cons_fixed (op : UInt8) (data : Bytes) (es : List TemplateMatch)
    (toks : List Token) :
    matchEntries ({ opcode := op } :: es) (⟨op, data⟩ :: toks) =
      (matchEntries es toks).map (Option.map ({ opcode := op, extractedData := data } :: ·)) :=
  matchEntries_cons_of_some (matchTemplateEntry_fixed.mpr ⟨rfl, rfl⟩) es toks

theorem matchEntries_cons_int {k : Nat} {tk : Token} {v : Int} (h : intPushValue k tk = some v)
    (es : List TemplateMatch) (toks : List Token) :
    matchEntries ({ expectCanonicalInt := true, maxIntBytes := k } :: es) (tk :: toks) =
      (matchEntries es toks).map
        (Option.map ({ expectCanonicalInt := true, maxIntBytes := k, extractedInt := v } :: ·)) :=
  matchEntries_cons_of_some (matchTemplateEntry_int.mpr ⟨v, h, rfl⟩) es toks

theorem matchEntries_atomicSwapTokens {secretSize lockTime : Token} {s l : Int}
    (hs : intPushValue maxScriptNumLen secretSize = some s)
    (hl : intPushValue cltvMaxScriptNumLen lockTime = some l)
    (secretHash recipientHash160 refundHash160 : Bytes) :
    ∃ m, matchEntries atomicSwapTemplate
        (atomicSwapTokens secretSize secretHash recipientHash160 lockTime refundHash160) =
          .ok (some m) ∧
      m.length = 20 ∧ (m.getD 2 {}).extractedInt = s ∧ (m.getD 11 {}).extractedInt = l ∧
      (m.getD 5 {}).extractedData = secretHash ∧ (m.getD 9 {}).extractedData = recipientHash160 ∧
      (m.getD 16 {}).extractedData = refundHash160 := by
  simp only [atomicSwapTemplate, atomicSwapTokens, matchEntries_cons_fixed,
    matchEntries_cons_int hs, matchEntries_cons_int hl, matchEntries_nil]
  exact ⟨_, rfl, rfl, rfl, rfl, rfl, rfl, rfl⟩

theorem atomicSwapTokens_of_matchEntries {toks : List Token} {m : List TemplateMatch}
    (h : matchEntries atomicSwapTemplate toks = .ok (some m)) (hwf : ∀ tk ∈ toks, tk.WF)
    (hlen : toks.length = 20) :
    toks = atomicSwapTokens (toks.getD 2 ⟨0, []⟩) (m.getD 5 {}).extractedData
        (m.getD 9 {}).extractedData (toks.getD 11 ⟨0, []⟩) (m.getD 16 {}).extractedData ∧
      intPushValue maxScriptNumLen (toks.getD 2 ⟨0, []⟩) = some (m.getD 2 {}).extractedInt ∧
      intPushValue cltvMaxScriptNumLen (toks.getD 11 ⟨0, []⟩) = some (m.getD 11 {}).extractedInt ∧
      (m.getD 5 {}).extractedData.length = 32 ∧ (m.getD 9 {}).extractedData.length = 20 ∧
      (m.getD 16 {}).extractedData.length = 20 := by
  obtain ⟨-, -, hm⟩ := matchEntries_eq_some h
  rw [hlen] at hm
  have hw : ∀ i < 20, (toks.getD i ⟨0, []⟩).WF := fun i hi =>
    hwf _ (by rw [List.getD_eq_getElem toks _ (by omega)]; exact List.getElem_mem _)
  have hfix : ∀ i (hi : i < 20) {op : UInt8}, atomicSwapTemplate.getD i {} = { opcode := op } →
      0 < opcodeLength op → toks.getD i ⟨0, []⟩ = ⟨op, (m.getD i {}).extractedData⟩ ∧
        ((m.getD i {}).extractedData.length : Int) + 1 = opcodeLength op :=
    fun i hi op he hop => token_of_matchTemplateEntry (he ▸ hm i hi) (hw i hi) hop
  have hdata : ∀ i (hi : i < 20) {op : UInt8}, atomicSwapTemplate.getD i {} = { opcode := op } →
      0 < opcodeLength op → toks.getD i ⟨0, []⟩ = ⟨op, (m.getD i {}).extractedData⟩ :=
    fun i hi _ he hop => (hfix i hi he hop).1
  have hplain : ∀ i (hi : i < 20) {op : UInt8}, atomicSwapTemplate.getD i {} = { opcode := op } →
      opcodeLength op = 1 → toks.getD i ⟨0, []⟩ = ⟨op, []⟩ := by
    intro i hi op he hop
    obtain ⟨h1, h2⟩ := hfix i hi he (by omega)
    rw [h1, List.length_eq_zero.mp (by omega : (m.getD i {}).extractedData.length = 0)]
  have hint : ∀ i (hi : i < 20) {k : Nat},
      atomicSwapTemplate.getD i {} = { expectCanonicalInt := true, maxIntBytes := k } →
      intPushValue k (toks.getD i ⟨0, []⟩) = some (m.getD i {}).extractedInt := by
    intro i hi k he
    obtain ⟨v, hv, he'⟩ := matchTemplateEntry_int.mp (he ▸ hm i hi)
    rw [he', hv]
  refine ⟨List.ext_getElem (by simp [hlen, atomicSwapTokens]) fun i h1 _ => ?_,
    hint 2 (by omega) rfl, hint 11 (by omega) rfl, ?_, ?_, ?_⟩
  · rw [← List.getD_eq_getElem toks ⟨0, []⟩ h1]
    rw [hlen] at h1
    interval_cases i <;> simp only [atomicSwapTokens, List.getElem_cons_zero, List.getElem_cons_succ] <;>
      first
      | rfl
      | exact hplain _ (by omega) rfl (by decide)
      | exact hdata _ (by omega) rfl (by decide)
  · have h := (hfix 5 (by omega) rfl (by decide)).2
    rw [show opcodeLength opData32 = 33 by decide] at h; omega
  · have h := (hfix 9 (by omega) rfl (by decide)).2
    rw [show opcodeLength opData20 = 21 by decide] at h; omega
  · have h := (hfix 16 (by omega) rfl (by decide)).2
    rw [show opcodeLength opData20 = 21 by decide] at h; omega

theorem template_of_length {m : List TemplateMatch} (hl : m.length = 20) :
    (m ++ atomicSwapTemplate.drop m.length).length = 20 ∧
      ∀ i < 20, (m ++ atomicSwapTemplate.drop m.length).getD i {} = m.getD i {} :=
  ⟨by simp [hl]; rfl, fun i hi => List.getD_append _ _ _ _ (by omega)⟩

theorem extractAtomicSwapDataPushes_of_tokenizes {version : UInt16} {pkScript : Bytes}
    {p : AtomicSwapDataPushes} {secretSize lockTime : Token}
    (ht : Tokenizes pkScript
      (atomicSwapTokens secretSize p.secretHash p.recipientHash160 lockTime p.refundHash160))
    (hS : intPushValue maxScriptNumLen secretSize = some p.secretSize)
    (hL : intPushValue cltvMaxScriptNumLen lockTime = some p.lockTime) :
    extractAtomicSwapDataPushes version pkScript = .ok (some p) := by
  obtain ⟨-, -, -, hdone, -⟩ := run_sound (makeScriptTokenizer pkScript) rfl
  have hloop := matchTemplate_eq [] atomicSwapTemplate
    ((makeScriptTokenizer pkScript).run.1.map token)
  simp only [List.length_nil, List.nil_append, zero_add] at hloop
  obtain ⟨hrun, herr⟩ := ht.run
  obtain ⟨m, hm, hl, h2, h11, h5, h9, h16⟩ :=
    matchEntries_atomicSwapTokens hS hL p.secretHash p.recipientHash160 p.refundHash160
  obtain ⟨hc, hg⟩ := template_of_length hl
  unfold extractAtomicSwapDataPushes
  dsimp only
  rw [hloop, hdone, hrun, hm, herr]
  simp only [Except.map, Option.map]
  rw [hc, if_neg (by simp [hl])]
  congr 2
  apply AtomicSwapDataPushes.ext <;> simp only [hg 2 (by omega), hg 5 (by omega),
    hg 9 (by omega), hg 11 (by omega), hg 16 (by omega), h2, h5, h9, h11, h16]
  · exact copyBytes_of_length (by rw [p.recipientHash160_length, List.length_replicate])
  · exact copyBytes_of_length (by rw [p.refundHash160_length, List.length_replicate])
  · exact copyBytes_of_length (by rw [p.secretHash_length, List.length_replicate])

/-- `ExtractAtomicSwapDataPushes` returns pushes exactly for the scripts that
parse to the contract's tokens, with the integers its pushes read and the
hashes it carries. -/
theorem extractAtomicSwapDataPushes_eq_some_iff {version : UInt16} {pkScript : Bytes}
    {p : AtomicSwapDataPushes} :
    extractAtomicSwapDataPushes version pkScript = .ok (some p) ↔
      ∃ secretSize lockTime, Tokenizes pkScript
          (atomicSwapTokens secretSize p.secretHash p.recipientHash160 lockTime p.refundHash160) ∧
        intPushValue maxScriptNumLen secretSize = some p.secretSize ∧
        intPushValue cltvMaxScriptNumLen lockTime = some p.lockTime := by
  refine ⟨fun h => ?_, fun ⟨_, _, ht, hS, hL⟩ => extractAtomicSwapDataPushes_of_tokenizes ht hS hL⟩
  obtain ⟨-, hwf, -, hdone, -⟩ := run_sound (makeScriptTokenizer pkScript) rfl
  have hloop := matchTemplate_eq [] atomicSwapTemplate
    ((makeScriptTokenizer pkScript).run.1.map token)
  simp only [List.length_nil, List.nil_append, zero_add] at hloop
  unfold extractAtomicSwapDataPushes at h
  dsimp only at h
  rw [hloop, hdone] at h
  rcases hm : matchEntries atomicSwapTemplate ((makeScriptTokenizer pkScript).run.1.map token)
    with err | _ | m <;> rw [hm] at h
  · cases h
  · cases h
  rcases he : (makeScriptTokenizer pkScript).run.2.err with _ | err <;>
    simp only [Except.map, Option.map, he] at h
  swap
  · cases h
  obtain ⟨hml, hle, -⟩ := matchEntries_eq_some hm
  have hc : (m ++ atomicSwapTemplate.drop m.length).length = 20 := by
    simp only [List.length_append, List.length_drop]
    exact Nat.add_sub_cancel' (hml ▸ hle)
  by_cases hl : m.length = 20
  swap
  · rw [hc, if_pos (by simp [hl])] at h; cases h
  rw [hc, if_neg (by simp [hl])] at h
  cases h
  obtain ⟨htoks, hS, hL, h5, h9, h16⟩ :=
    atomicSwapTokens_of_matchEntries hm (by simpa using hwf) (hml ▸ hl)
  obtain ⟨-, hg⟩ := template_of_length hl
  refine ⟨_, _, ?_, by rw [hg 2 (by omega)]; exact hS, by rw [hg 11 (by omega)]; exact hL⟩
  simp only [hg 5 (by omega), hg 9 (by omega), hg 16 (by omega), copyBytes_of_length,
    List.length_replicate, h5, h9, h16]
  rw [← htoks]
  exact tokenizes_of_run he

/-- An atomic swap contract written with the script builder in the order of the
template (not in the source); `none` is the panic of `AddInt64`. -/
def atomicSwapContract (secretSize : Int) (secretHash recipientHash160 : Bytes) (lockTime : Int)
    (refundHash160 : Bytes) : Option (Except ErrorCode Bytes) := do
  let b ← (newScriptBuilder.addOp opIf |>.addOp opSize).addInt64 secretSize
  let b ← (b.addOp opEqualVerify |>.addOp opSha256 |>.addData secretHash |>.addOp opEqualVerify
    |>.addOp opDup |>.addOp opHash160 |>.addData recipientHash160 |>.addOp opElse).addInt64 lockTime
  return (b.addOp opCheckLockTimeVerify |>.addOp opDrop |>.addOp opDup |>.addOp opHash160
    |>.addData refundHash160 |>.addOp opEndIf |>.addOp opEqualVerify |>.addOp opCheckSig).toScript

theorem length_int64Token_bytes {val : Int} (hval : val.natAbs < 2 ^ 63) :
    (int64Token val).bytes.length ≤ 13 := by
  unfold int64Token
  split_ifs
  · decide
  · exact (Token.bytes_length_le _).trans (by simp)
  · obtain ⟨v, hv, hl⟩ := scriptNumBytes_isSome hval
    rw [hv, Option.getD_some]
    have := (pushToken v).bytes_length_le.trans (Nat.add_le_add_right (pushToken_data_length_le v) 5)
    omega

open ScriptBuilder in
theorem atomicSwapContract_eq {secretSize lockTime : Int}
    {secretHash recipientHash160 refundHash160 : Bytes} (hs : secretSize.natAbs < 2 ^ 63)
    (hl : lockTime.natAbs < 2 ^ 63) (h32 : secretHash.length = 32)
    (hr : recipientHash160.length = 20) (hf : refundHash160.length = 20) :
    atomicSwapContract secretSize secretHash recipientHash160 lockTime refundHash160 =
      some (.ok (encodeAll (atomicSwapTokens (int64Token secretSize) secretHash recipientHash160
        (int64Token lockTime) refundHash160))) := by
  have hbs := length_int64Token_bytes hs
  have hbl := length_int64Token_bytes hl
  have hp : ∀ {h : Bytes} {n : Nat}, h.length = n → 2 ≤ n → n ≤ 75 →
      (pushToken h).bytes = UInt8.ofNat n :: h := fun hh h2 h75 => by
    subst hh; exact pushToken_bytes_of_length h2 h75
  simp (disch := first | omega | simp only [List.length_append, List.length_cons,
      List.length_nil, List.length_singleton, maxScriptSize, maxScriptElementSize, h32, hr, hf]; omega) only
    [atomicSwapContract, newScriptBuilder, addOp_mk, addData_mk, addInt64_mk,
    Option.bind_eq_bind, Option.some_bind, hp h32, hp hr, hp hf, toScript, pure, encodeAll_cons, encodeAll_nil,
    atomicSwapTokens, List.append_assoc, List.nil_append, List.cons_append, List.singleton_append]
  rfl

theorem matchTemplateEntry_int64Token_neg_one (k : Nat) :
    matchTemplateEntry { expectCanonicalInt := true, maxIntBytes := k } (int64Token (-1)) =
      .ok none := rfl

theorem matchEntries_cons_none {e : TemplateMatch} {tk : Token}
    (h : matchTemplateEntry e tk = .ok none) (es : List TemplateMatch) (toks : List Token) :
    matchEntries (e :: es) (tk :: toks) = .ok none := by
  simp only [matchEntries, h]

theorem extractAtomicSwapDataPushes_of_matchEntries {pkScript : Bytes} {toks : List Token}
    (ht : Tokenizes pkScript toks) (hm : matchEntries atomicSwapTemplate toks = .ok none)
    (version : UInt16) : extractAtomicSwapDataPushes version pkScript = .ok none := by
  have hloop := matchTemplate_eq [] atomicSwapTemplate
    ((makeScriptTokenizer pkScript).run.1.map token)
  simp only [List.length_nil, List.nil_append, zero_add] at hloop
  unfold extractAtomicSwapDataPushes
  dsimp only
  rw [hloop, ht.run.1, hm]
  rfl

theorem Token.wf_of_length {op : UInt8} {data : Bytes} (h0 : 0 < opcodeLength op)
    (h : (data.length : Int) + 1 = opcodeLength op) : Token.WF ⟨op, data⟩ := by
  simp only [Token.WF, show ¬ opcodeLength op < 0 by omega, if_false]
  exact h

theorem atomicSwapTokens_wf {secretSize lockTime : Token}
    {secretHash recipientHash160 refundHash160 : Bytes} (hs : secretSize.WF) (hl : lockTime.WF)
    (h32 : secretHash.length = 32) (hr : recipientHash160.length = 20)
    (hf : refundHash160.length = 20) :
    ∀ tk ∈ atomicSwapTokens secretSize secretHash recipientHash160 lockTime refundHash160, tk.WF := by
  have h33 : opcodeLength opData32 = 33 := by decide
  have h21 : opcodeLength opData20 = 21 := by decide
  refine List.forall_iff_forall_mem.mp ⟨by decide, by decide, hs, by decide, by decide,
    Token.wf_of_length (by omega) (by omega), by decide, by decide, by decide,
    Token.wf_of_length (by omega) (by omega), by decide, hl, by decide, by decide, by decide,
    by decide, Token.wf_of_length (by omega) (by omega), by decide, by decide, by decide⟩

/-- A contract written with the script builder is read back with the values it
was written with, unless one of its integers is `-1`: the builder writes `-1`
as `OP_1NEGATE`, which the template does not read as an integer. -/
theorem extractAtomicSwapDataPushes_atomicSwapContract {secretSize lockTime : Int}
    {secretHash recipientHash160 refundHash160 : Bytes} (hs : secretSize.natAbs < 2 ^ 31)
    (hl : lockTime.natAbs < 2 ^ 39) (h32 : secretHash.length = 32)
    (hr : recipientHash160.length = 20) (hf : refundHash160.length = 20) (version : UInt16) :
    ∃ script, atomicSwapContract secretSize secretHash recipientHash160 lockTime refundHash160 =
        some (.ok script) ∧
      extractAtomicSwapDataPushes version script =
        if secretSize = -1 ∨ lockTime = -1 then .ok none
        else .ok (some ⟨recipientHash160, refundHash160, secretHash, secretSize, lockTime,
          hr, hf, h32⟩) := by
  refine ⟨_, atomicSwapContract_eq (by omega) (by omega) h32 hr hf, ?_⟩
  have hS := intPushValue_int64Token (k := maxScriptNumLen) (by decide) hs
  have hL := intPushValue_int64Token (k := cltvMaxScriptNumLen) (by decide) hl
  have ht : Tokenizes (encodeAll (atomicSwapTokens (int64Token secretSize) secretHash
      recipientHash160 (int64Token lockTime) refundHash160)) (atomicSwapTokens (int64Token secretSize)
      secretHash recipientHash160 (int64Token lockTime) refundHash160) := by
    exact ⟨atomicSwapTokens_wf (int64Token_wf (by omega)) (int64Token_wf (by omega)) h32 hr hf, rfl⟩
  split_ifs with h1
  · apply extractAtomicSwapDataPushes_of_matchEntries ht
    simp only [atomicSwapTemplate, atomicSwapTokens, matchEntries_cons_fixed]
    by_cases h2 : secretSize = -1
    · subst h2
      rw [matchEntries_cons_none (matchTemplateEntry_int64Token_neg_one _)]
      rfl
    · rw [if_neg h2] at hS
      obtain rfl : lockTime = -1 := h1.resolve_left h2
      simp only [matchEntries_cons_int hS, matchEntries_cons_fixed,
        matchEntries_cons_none (matchTemplateEntry_int64Token_neg_one _)]
      rfl
  · obtain ⟨h2, h3⟩ := not_or.mp h1
    rw [if_neg h2] at hS
    rw [if_neg h3] at hL
    exact extractAtomicSwapDataPushes_of_tokenizes ht hS hL

theorem extractAtomicSwapDataPushes_atomicSwapContract_secret32 :
    (32 : Int).natAbs < 2 ^ 31 ∧ (1700000000 : Int).natAbs < 2 ^ 39 ∧
      (List.replicate 32 (0 : UInt8)).length = 32 ∧ (List.replicate 20 (1 : UInt8)).length = 20 ∧
      (List.replicate 20 (2 : UInt8)).length = 20 ∧
      ∃ script, atomicSwapContract 32 (List.replicate 32 0) (List.replicate 20 1) 1700000000
          (List.replicate 20 2) = some (.ok script) ∧
        extractAtomicSwapDataPushes 0 script =
          if (32 : Int) = -1 ∨ (1700000000 : Int) = -1 then .ok none
          else .ok (some ⟨List.replicate 20 1, List.replicate 20 2, List.replicate 32 0, 32,
            1700000000, List.length_replicate 20 1, List.length_replicate 20 2,
            List.length_replicate 32 0⟩) :=
  ⟨by decide, by decide, List.length_replicate _ _, List.length_replicate _ _,
    List.length_replicate _ _,
    extractAtomicSwapDataPushes_atomicSwapContract (by decide) (by decide)
      (List.length_replicate _ _) (List.length_replicate _ _) (List.length_replicate _ _) 0⟩

end RosettaThought.Txscript
