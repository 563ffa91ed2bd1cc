import RosettaThought.Txscript.Tokenizer
import RosettaThought.Wire.MsgTx

/-! The legacy signature hash of `sighash.go`.  `DoubleHashB` is a parameter:
every result holds for any hash function. -/

namespace RosettaThought.Txscript

open Wire

def sigHashAll : UInt32 := 0x1
def sigHashNone : UInt32 := 0x2
def sigHashSingle : UInt32 := 0x3
def sigHashAnyOneCanPay : UInt32 := 0x80
def sigHashMask : UInt32 := 0x1f

def sigHashTxIns (sigScript : Bytes) (hashType : UInt32) (txIn : List TxIn) (idx : Nat) :
    List TxIn :=
  let txIn := txIn.mapIdx fun i ti =>
    { ti with signatureScript := if i = idx then sigScript else [] }
  if hashType &&& sigHashMask = sigHashNone ∨ hashType &&& sigHashMask = sigHashSingle then
    txIn.mapIdx fun i ti => if i ≠ idx then { ti with sequence := 0 } else ti
  else txIn

def sigHashTxOuts (hashType : UInt32) (txOut : List TxOut) (idx : Nat) : List TxOut :=
  if hashType &&& sigHashMask = sigHashNone then []
  else if hashType &&& sigHashMask = sigHashSingle then
    (txOut.take (idx + 1)).mapIdx fun i out => if i < idx then ⟨-1, []⟩ else out
  else txOut

section

variable (doubleHashB : Bytes → Bytes)

/-- `calcSignatureHash`; `none` is the panic of the slice `TxIn[idx : idx+1]`
under `SIGHASH_ANYONECANPAY`. -/
def calcSignatureHash (sigScript : Bytes) (hashType : UInt32) (tx : MsgTx) (idx : Nat) :
    Option Bytes :=
  if hashType &&& sigHashMask = sigHashSingle ∧ idx ≥ tx.txOut.length then
    some (0x01 :: List.replicate 31 0x00)
  else
    let sigScript := removeOpcodeRaw sigScript opCodeSeparator
    let txIn := sigHashTxIns sigScript hashType tx.txIn idx
    let txOut := sigHashTxOuts hashType tx.txOut idx
    let txIn? :=
      if hashType &&& sigHashAnyOneCanPay ≠ 0 then
        if idx + 1 ≤ txIn.length then some ((txIn.drop idx).take 1) else none
      else some txIn
    txIn?.map fun txIn =>
      doubleHashB ({ tx with txIn, txOut }.serializeNoWitness ++ natToLE 4 hashType.toNat)

/-- `CalcSignatureHash`, the exported form: the script must parse before it is
hashed; `none` is the panic of `calcSignatureHash`. -/
def CalcSignatureHash (script : Bytes) (hashType : UInt32) (tx : MsgTx) (idx : Nat) :
    Option (Except ErrorCode Bytes) :=
  match checkScriptParses script with
  | .error e => some (.error e)
  | .ok () => (calcSignatureHash doubleHashB script hashType tx idx).map .ok

theorem CalcSignatureHash_of_tokenizes {script : Bytes} {toks : List Token}
    (h : Tokenizes script toks) (hashType : UInt32) (tx : MsgTx) (idx : Nat) :
    CalcSignatureHash doubleHashB script hashType tx idx =
      (calcSignatureHash doubleHashB script hashType tx idx).map .ok := by
  rw [CalcSignatureHash, checkScriptParses_eq_ok.mpr ⟨toks, h⟩]

end

@[simp] theorem length_sigHashTxIns (sigScript : Bytes) (hashType : UInt32) (txIn : List TxIn)
    (idx : Nat) : (sigHashTxIns sigScript hashType txIn idx).length = txIn.length := by
  unfold sigHashTxIns; split <;> simp

theorem getElem?_sigHashTxIns (sigScript : Bytes) (hashType : UInt32) (txIn : List TxIn)
    (idx i : Nat) :
    (sigHashTxIns sigScript hashType txIn idx)[i]?.map TxIn.withoutWitness =
      txIn[i]?.map fun ti => ⟨ti.previousOutPoint, if i = idx then sigScript else [], [],
        if (hashType &&& sigHashMask = sigHashNone ∨ hashType &&& sigHashMask = sigHashSingle) ∧
          i ≠ idx then 0 else ti.sequence⟩ := by
  unfold sigHashTxIns
  by_cases hz : hashType &&& sigHashMask = sigHashNone ∨ hashType &&& sigHashMask = sigHashSingle
  · simp only [hz, if_true, true_and, List.getElem?_mapIdx, Option.map_map]
    congr 1
    funext ti
    by_cases hi : i = idx <;> simp [hi, TxIn.withoutWitness]
  · simp only [hz, if_false, false_and, List.getElem?_mapIdx, Option.map_map]
    rfl

theorem Option.map_pair_eq {α β γ : Type} {o o' : Option α} {f : α → β} {g : α → γ}
    (hf : o.map f = o'.map f) (hg : o.map g = o'.map g) :
    o.map (fun a => (f a, g a)) = o'.map (fun a => (f a, g a)) := by
  cases o <;> cases o' <;> simp_all

theorem Option.map_comp_eq {α β γ : Type} {o o' : Option α} {f : α → β} (k : β → γ)
    (h : o.map f = o'.map f) : o.map (fun a => k (f a)) = o'.map (fun a => k (f a)) := by
  simpa only [Option.map_map] using congrArg (Option.map k) h

theorem List.map_take_one_drop {α β : Type} (f : α → β) (l : List α) (n : Nat) :
    ((l.drop n).take 1).map f = (l[n]?.map f).toList := by
  induction l generalizing n with
  | nil => simp
  | cons a l ih => cases n <;> simp [ih]

/-- What a hash type commits a signature to, from the meaning of its bits:
the two transactions agree on it. -/
structure SigHashCommits (hashType : UInt32) (idx : Nat) (tx tx' : MsgTx) : Prop where
  version : tx.version = tx'.version
  lockTime : tx.lockTime = tx'.lockTime
  input : tx.txIn[idx]?.map (fun ti => (ti.previousOutPoint, ti.sequence)) =
    tx'.txIn[idx]?.map (fun ti => (ti.previousOutPoint, ti.sequence))
  outPoints : hashType &&& sigHashAnyOneCanPay = 0 →
    tx.txIn.map TxIn.previousOutPoint = tx'.txIn.map TxIn.previousOutPoint
  sequences : hashType &&& sigHashAnyOneCanPay = 0 → hashType &&& sigHashMask ≠ sigHashNone →
    hashType &&& sigHashMask ≠ sigHashSingle → tx.txIn.map TxIn.sequence = tx'.txIn.map TxIn.sequence
  outputs : hashType &&& sigHashMask ≠ sigHashNone → hashType &&& sigHashMask ≠ sigHashSingle →
    tx.txOut = tx'.txOut
  output : hashType &&& sigHashMask = sigHashSingle → tx.txOut[idx]? = tx'.txOut[idx]?

section Commits

variable {sigScript : Bytes} {hashType : UInt32} {idx : Nat} {tx tx' : MsgTx}

theorem SigHashCommits.input_agree (hc : SigHashCommits hashType idx tx tx') :
    (sigHashTxIns sigScript hashType tx.txIn idx)[idx]?.map TxIn.withoutWitness =
      (sigHashTxIns sigScript hashType tx'.txIn idx)[idx]?.map TxIn.withoutWitness := by
  simp only [getElem?_sigHashTxIns, if_true, ne_eq, not_true_eq_false, and_false, if_false]
  exact Option.map_comp_eq (fun p : OutPoint × UInt32 => (⟨p.1, sigScript, [], p.2⟩ : TxIn)) hc.input

theorem SigHashCommits.inputs_agree (hc : SigHashCommits hashType idx tx tx')
    (ha : hashType &&& sigHashAnyOneCanPay = 0) :
    (sigHashTxIns sigScript hashType tx.txIn idx).map TxIn.withoutWitness =
      (sigHashTxIns sigScript hashType tx'.txIn idx).map TxIn.withoutWitness := by
  apply List.ext_getElem?
  intro i
  rw [List.getElem?_map, List.getElem?_map]
  by_cases hi : i = idx
  · subst hi; exact hc.input_agree
  have hop : tx.txIn[i]?.map TxIn.previousOutPoint = tx'.txIn[i]?.map TxIn.previousOutPoint := by
    simpa using congrArg (·[i]?) (hc.outPoints ha)
  rw [getElem?_sigHashTxIns, getElem?_sigHashTxIns]
  by_cases hz : hashType &&& sigHashMask = sigHashNone ∨ hashType &&& sigHashMask = sigHashSingle
  · simp only [hi, hz, if_false, ne_eq, not_false_eq_true, and_self, if_true]
    exact Option.map_comp_eq (fun p => (⟨p, [], [], 0⟩ : TxIn)) hop
  · have hseq : tx.txIn[i]?.map TxIn.sequence = tx'.txIn[i]?.map TxIn.sequence := by
      simpa using congrArg (·[i]?) (hc.sequences ha (fun h => hz (.inl h)) (fun h => hz (.inr h)))
    simp only [hi, hz, if_false, false_and]
    exact Option.map_comp_eq (fun p : OutPoint × UInt32 => (⟨p.1, [], [], p.2⟩ : TxIn))
      (Option.map_pair_eq hop hseq)

theorem SigHashCommits.outputs_agree (hc : SigHashCommits hashType idx tx tx')
    (hs : hashType &&& sigHashMask = sigHashSingle → idx < tx.txOut.length) :
    sigHashTxOuts hashType tx.txOut idx = sigHashTxOuts hashType tx'.txOut idx := by
  unfold sigHashTxOuts
  split_ifs with hn hsingle
  · rfl
  · have ho := hc.output hsingle
    have hl := hs hsingle
    have hl' : idx < tx'.txOut.length := by
      by_contra h
      have := List.getElem?_eq_none_iff.mpr (Nat.le_of_not_lt h)
      rw [← ho, List.getElem?_eq_none_iff] at this
      omega
    apply List.ext_getElem?
    intro i
    simp only [List.getElem?_mapIdx, List.getElem?_take]
    rcases Nat.lt_trichotomy i idx with hlt | rfl | hgt
    · simp only [show i < idx + 1 by omega, if_true, List.getElem?_eq_getElem (show i < tx.txOut.length by omega),
        List.getElem?_eq_getElem (show i < tx'.txOut.length by omega), hlt, Option.map_some']
    · rw [ho]
    · simp only [show ¬ i < idx + 1 by omega, if_false]
  · exact hc.outputs hn hsingle

end Commits

theorem SigHashCommits.refl (hashType : UInt32) (idx : Nat) (tx : MsgTx) :
    SigHashCommits hashType idx tx tx :=
  ⟨rfl, rfl, rfl, fun _ => rfl, fun _ _ _ => rfl, fun _ _ => rfl, fun _ => rfl⟩

theorem SigHashCommits.symm {hashType : UInt32} {idx : Nat} {tx tx' : MsgTx}
    (hc : SigHashCommits hashType idx tx tx') : SigHashCommits hashType idx tx' tx :=
  ⟨hc.version.symm, hc.lockTime.symm, hc.input.symm, fun ha => (hc.outPoints ha).symm,
    fun ha hn hs => (hc.sequences ha hn hs).symm, fun hn hs => (hc.outputs hn hs).symm,
    fun hs => (hc.output hs).symm⟩

def withInputScripts (tx : MsgTx) (j : Nat) (sigScript : Bytes) (witness : List Bytes) :
    MsgTx :=
  { tx with txIn := tx.txIn.mapIdx fun i ti =>
      if i = j then { ti with signatureScript := sigScript, witness } else ti }

theorem sigHashCommits_withInputScripts (hashType : UInt32) (idx : Nat) (tx : MsgTx) (j : Nat)
    (sigScript : Bytes) (witness : List Bytes) :
    SigHashCommits hashType idx (withInputScripts tx j sigScript witness) tx := by
  have keep : ∀ {β : Type} (f : TxIn → β), (∀ ti, f { ti with signatureScript := sigScript, witness } = f ti) →
      (withInputScripts tx j sigScript witness).txIn.map f = tx.txIn.map f := by
    intro β f hf
    apply List.ext_getElem?
    intro i
    simp only [withInputScripts, List.getElem?_map, List.getElem?_mapIdx, Option.map_map]
    congr 1
    funext ti
    split <;> simp [hf]
  refine ⟨rfl, rfl, ?_, fun _ => keep TxIn.previousOutPoint fun _ => rfl,
    fun _ _ _ => keep TxIn.sequence fun _ => rfl, fun _ _ => rfl, fun _ => rfl⟩
  simpa using congrArg (·[idx]?) (keep (fun ti => (ti.previousOutPoint, ti.sequence)) fun _ => rfl)

section

variable (doubleHashB : Bytes → Bytes)

theorem calcSignatureHash_isSome (sigScript : Bytes) (hashType : UInt32) (tx : MsgTx) {idx : Nat}
    (hidx : idx < tx.txIn.length) :
    (calcSignatureHash doubleHashB sigScript hashType tx idx).isSome := by
  unfold calcSignatureHash
  dsimp only
  split_ifs with h1 h2 h3 <;> try rfl
  simp only [length_sigHashTxIns] at h3
  omega

theorem calcSignatureHash_eq_of_commits (sigScript : Bytes) {hashType : UInt32} {idx : Nat}
    {tx tx' : MsgTx} (hidx : idx < tx.txIn.length) (hidx' : idx < tx'.txIn.length)
    (hc : SigHashCommits hashType idx tx tx') :
    calcSignatureHash doubleHashB sigScript hashType tx idx =
      calcSignatureHash doubleHashB sigScript hashType tx' idx := by
  have hlen : ∀ h : hashType &&& sigHashMask = sigHashSingle,
      idx < tx.txOut.length ↔ idx < tx'.txOut.length := fun h => by
    rw [← not_le, ← not_le, ← List.getElem?_eq_none_iff, ← List.getElem?_eq_none_iff, hc.output h]
  unfold calcSignatureHash
  by_cases hearly : hashType &&& sigHashMask = sigHashSingle ∧ idx ≥ tx.txOut.length
  · rw [if_pos hearly, if_pos ⟨hearly.1, by have := hlen hearly.1; omega⟩]
  rw [if_neg hearly, if_neg fun h => hearly ⟨h.1, by have := hlen h.1; omega⟩]
  dsimp only
  have hout := hc.outputs_agree fun h => by have := hlen h; by_contra; exact hearly ⟨h, by omega⟩
  have hser : ∀ txIn txIn' : List TxIn, txIn.map TxIn.withoutWitness = txIn'.map TxIn.withoutWitness →
      ({ tx with txIn, txOut := sigHashTxOuts hashType tx.txOut idx } : MsgTx).serializeNoWitness =
        ({ tx' with txIn := txIn', txOut := sigHashTxOuts hashType tx'.txOut idx } : MsgTx).serializeNoWitness :=
    fun _ _ hin => MsgTx.serializeNoWitness_congr hc.version hin hout hc.lockTime
  by_cases ha : hashType &&& sigHashAnyOneCanPay = 0
  · simp only [ha, ne_eq, not_true_eq_false, if_false, Option.map_some',
      hser _ _ (hc.inputs_agree ha)]
  · simp only [ha, ne_eq, not_false_eq_true, if_true, length_sigHashTxIns,
      show idx + 1 ≤ tx.txIn.length by omega, show idx + 1 ≤ tx'.txIn.length by omega,
      Option.map_some']
    rw [hser _ _ ?_]
    rw [List.map_take_one_drop, List.map_take_one_drop, hc.input_agree]

/-- For an input index in range the digest is defined, and it depends only on
what the hash type commits to: in particular on no input's signature script or
witness, so signing one input leaves the digest of every other unchanged. -/
theorem calcSignatureHash_commitment (sigScript : Bytes) (hashType : UInt32) (tx tx' : MsgTx)
    (idx : Nat) (hidx : idx < tx.txIn.length) (hidx' : idx < tx'.txIn.length)
    (hc : SigHashCommits hashType idx tx tx') :
    (calcSignatureHash doubleHashB sigScript hashType tx idx).isSome ∧
      calcSignatureHash doubleHashB sigScript hashType tx idx =
        calcSignatureHash doubleHashB sigScript hashType tx' idx ∧
      ∀ j script witness,
        calcSignatureHash doubleHashB sigScript hashType (withInputScripts tx j script witness) idx =
          calcSignatureHash doubleHashB sigScript hashType tx idx :=
  ⟨calcSignatureHash_isSome doubleHashB sigScript hashType tx hidx,
    calcSignatureHash_eq_of_commits doubleHashB sigScript hidx hidx' hc,
    fun j script witness => calcSignatureHash_eq_of_commits doubleHashB sigScript
      (by simpa [withInputScripts] using hidx) hidx
      (sigHashCommits_withInputScripts hashType idx tx j script witness)⟩

end

def oneInputTx : MsgTx :=
  ⟨1, [⟨⟨⟨List.replicate 32 0, by simp⟩, 0⟩, [], [], 0xffffffff⟩], [⟨5000, [opReturn]⟩], 0⟩

theorem calcSignatureHash_commitment_signed :
    (0 < oneInputTx.txIn.length ∧ 0 < (withInputScripts oneInputTx 0 [op1] [[0x01]]).txIn.length ∧
      SigHashCommits sigHashAll 0 oneInputTx (withInputScripts oneInputTx 0 [op1] [[0x01]])) ∧
    (calcSignatureHash id [] sigHashAll oneInputTx 0).isSome ∧
      calcSignatureHash id [] sigHashAll oneInputTx 0 =
        calcSignatureHash id [] sigHashAll (withInputScripts oneInputTx 0 [op1] [[0x01]]) 0 ∧
      ∀ j script witness,
        calcSignatureHash id [] sigHashAll (withInputScripts oneInputTx j script witness) 0 =
          calcSignatureHash id [] sigHashAll oneInputTx 0 :=
  have hc := (sigHashCommits_withInputScripts sigHashAll 0 oneInputTx 0 [op1] [[0x01]]).symm
  ⟨⟨by decide, by decide, hc⟩,
    calcSignatureHash_commitment id [] sigHashAll _ _ 0 (by decide) (by decide) hc⟩

end RosettaThought.Txscript
