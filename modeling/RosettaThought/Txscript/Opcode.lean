import RosettaThought.Bytes

namespace RosettaThought.Txscript

def op0 : UInt8 := 0x00
def opData1 : UInt8 := 0x01
def opData20 : UInt8 := 0x14
def opData32 : UInt8 := 0x20
def opData33 : UInt8 := 0x21
def opData65 : UInt8 := 0x41
def opData75 : UInt8 := 0x4b
def opPushData1 : UInt8 := 0x4c
def opPushData2 : UInt8 := 0x4d
def opPushData4 : UInt8 := 0x4e
def op1Negate : UInt8 := 0x4f
def op1 : UInt8 := 0x51
def op2 : UInt8 := 0x52
def op16 : UInt8 := 0x60
def opIf : UInt8 := 0x63
def opNotIf : UInt8 := 0x64
def opVerIf : UInt8 := 0x65
def opVerNotIf : UInt8 := 0x66
def opElse : UInt8 := 0x67
def opEndIf : UInt8 := 0x68
def opReturn : UInt8 := 0x6a
def opDrop : UInt8 := 0x75
def opDup : UInt8 := 0x76
def opCat : UInt8 := 0x7e
def opSubStr : UInt8 := 0x7f
def opLeft : UInt8 := 0x80
def opRight : UInt8 := 0x81
def opSize : UInt8 := 0x82
def opInvert : UInt8 := 0x83
def opAnd : UInt8 := 0x84
def opOr : UInt8 := 0x85
def opXor : UInt8 := 0x86
def opEqual : UInt8 := 0x87
def opEqualVerify : UInt8 := 0x88
def op2Mul : UInt8 := 0x8d
def op2Div : UInt8 := 0x8e
def opMul : UInt8 := 0x95
def opDiv : UInt8 := 0x96
def opMod : UInt8 := 0x97
def opLShift : UInt8 := 0x98
def opRShift : UInt8 := 0x99
def opSha256 : UInt8 := 0xa8
def opHash160 : UInt8 := 0xa9
def opCodeSeparator : UInt8 := 0xab
def opCheckSig : UInt8 := 0xac
def opCheckSigVerify : UInt8 := 0xad
def opCheckMultiSig : UInt8 := 0xae
def opCheckMultiSigVerify : UInt8 := 0xaf
def opCheckLockTimeVerify : UInt8 := 0xb1
def opInvalidOpcode : UInt8 := 0xff

def maxScriptSize : Nat := 10000
def maxScriptElementSize : Nat := 520
def maxStackSize : Nat := 1000
def maxPubKeysPerMultiSig : Nat := 20
def maxDataCarrierSize : Nat := 80

/-- The `length` field of `opcodeArray`: `1` for an opcode with no payload,
`n + 1` for `OP_DATA_n`, and `-1`, `-2`, `-4` for `OP_PUSHDATA1/2/4`, whose
payload length is a little-endian prefix of that many bytes. -/
def opcodeLength (op : UInt8) : Int :=
  if op = op0 then 1
  else if op ≤ opData75 then op.toNat + 1
  else if op = opPushData1 then -1
  else if op = opPushData2 then -2
  else if op = opPushData4 then -4
  else 1

theorem opcodeLength_of_data {op : UInt8} (h1 : 1 ≤ op.toNat) (h2 : op.toNat ≤ 75) :
    opcodeLength op = op.toNat + 1 := by
  unfold opcodeLength
  rw [if_neg (by simp [UInt8.eq_iff_toNat_eq, op0]; omega),
    if_pos (by simpa [UInt8.le_iff_toNat_le, opData75] using h2)]

def isSmallInt (op : UInt8) : Bool :=
  op == op0 || (op ≥ op1 && op ≤ op16)

def asSmallInt (op : UInt8) : Nat :=
  if op == op0 then 0 else op.toNat - (op1.toNat - 1)

def smallIntOp (n : Nat) : UInt8 :=
  if n = 0 then op0 else UInt8.ofNat (op1.toNat - 1 + n)

theorem isSmallInt_iff {op : UInt8} :
    isSmallInt op = true ↔ op.toNat = 0 ∨ (0x51 ≤ op.toNat ∧ op.toNat ≤ 0x60) := by
  simp [isSmallInt, op0, op1, op16, UInt8.le_iff_toNat_le, UInt8.eq_iff_toNat_eq]

theorem smallIntOp_toNat {n : Nat} (h : n ≤ 16) :
    (smallIntOp n).toNat = if n = 0 then 0 else 0x50 + n := by
  unfold smallIntOp
  split
  · rfl
  · exact UInt8.toNat_ofNat_of_lt (by simp [op1]; omega)

theorem isSmallInt_smallIntOp {n : Nat} (h : n ≤ 16) : isSmallInt (smallIntOp n) = true := by
  rw [isSmallInt_iff, smallIntOp_toNat h]
  split <;> omega

theorem asSmallInt_smallIntOp {n : Nat} (h : n ≤ 16) : asSmallInt (smallIntOp n) = n := by
  have ht := smallIntOp_toNat h
  unfold asSmallInt
  by_cases hn : n = 0
  · simp [hn, smallIntOp]
  · have h0 : smallIntOp n ≠ op0 := by simp [UInt8.eq_iff_toNat_eq, op0, ht, hn]
    simp [h0, op1, ht, hn]

theorem smallIntOp_asSmallInt {op : UInt8} (h : isSmallInt op = true) :
    smallIntOp (asSmallInt op) = op := by
  rw [isSmallInt_iff] at h
  unfold smallIntOp asSmallInt
  by_cases h0 : op = op0
  · simp [h0]
  · have : op.toNat ≠ 0 := by simpa [UInt8.eq_iff_toNat_eq, op0] using h0
    simp only [beq_iff_eq, h0, if_false, op1, UInt8.eq_iff_toNat_eq, UInt8.toNat_lit]
    split
    · omega
    · rw [UInt8.toNat_ofNat_of_lt (by omega)]; omega

theorem asSmallInt_le {op : UInt8} (h : isSmallInt op = true) : asSmallInt op ≤ 16 := by
  rw [isSmallInt_iff] at h
  unfold asSmallInt
  split
  · omega
  · simp [op1]; omega

/-- The `ErrorCode`s the modelled functions return.  The description strings
of `scriptError` are diagnostics and are not modelled. -/
inductive ErrorCode
  | errInvalidIndex
  | errInvalidStackOperation
  | errEvalFalse
  | errNotPushOnly
  | errScriptTooBig
  | errMalformedPush
  | errInvalidProgramCounter
  | errUnbalancedConditional
  | errStackOverflow
  | errScriptUnfinished
  | errCleanStack
  | errEmptyStack
  | errDisabledOpcode
  | errReservedOpcode
  | errElementTooBig
  | errMinimalData
  | errInvalidSigHashType
  | errPubKeyType
  | errSigTooShort
  | errSigTooLong
  | errSigInvalidSeqID
  | errSigInvalidDataLen
  | errSigMissingSTypeID
  | errSigMissingSLen
  | errSigInvalidSLen
  | errSigInvalidRIntID
  | errSigZeroRLen
  | errSigNegativeR
  | errSigTooMuchRPadding
  | errSigInvalidSIntID
  | errSigZeroSLen
  | errSigNegativeS
  | errSigTooMuchSPadding
  | errSigHighS
  | errTooMuchNullData
  | errTooManyRequiredSigs
  | errScriptNotCanonical
  | errUnsupportedScriptType
  | errNumberTooBig
  | errNotMultisigScript
  deriving DecidableEq, Repr

end RosettaThought.Txscript
