import RosettaThought.Bytes

namespace RosettaThought.Wire

structure Hash where
  bytes : Bytes
  length_eq : bytes.length = 32
  deriving DecidableEq

structure OutPoint where
  hash : Hash
  index : UInt32
  deriving DecidableEq

structure TxIn where
  previousOutPoint : OutPoint
  signatureScript : Bytes
  witness : List Bytes
  sequence : UInt32
  deriving DecidableEq

structure TxOut where
  value : Int
  pkScript : Bytes
  deriving DecidableEq

structure MsgTx where
  version : Int
  txIn : List TxIn
  txOut : List TxOut
  lockTime : UInt32
  deriving DecidableEq

def writeVarInt (val : Nat) : Bytes :=
  if val < 0xfd then [UInt8.ofNat val]
  else if val ≤ 0xffff then 0xfd :: natToLE 2 val
  else if val ≤ 0xffffffff then 0xfe :: natToLE 4 val
  else 0xff :: natToLE 8 val

def writeVarBytes (bytes : Bytes) : Bytes := writeVarInt bytes.length ++ bytes

def writeOutPoint (op : OutPoint) : Bytes := op.hash.bytes ++ natToLE 4 op.index.toNat

def writeTxIn (ti : TxIn) : Bytes :=
  writeOutPoint ti.previousOutPoint ++ writeVarBytes ti.signatureScript ++
    natToLE 4 ti.sequence.toNat

def writeTxOut (out : TxOut) : Bytes :=
  natToLE 8 (out.value % 2 ^ 64).toNat ++ writeVarBytes out.pkScript

/-- `SerializeNoWitness`: the version, the inputs, the outputs and the lock
time; witnesses are not written. -/
def MsgTx.serializeNoWitness (msg : MsgTx) : Bytes :=
  natToLE 4 (msg.version % 2 ^ 32).toNat ++ writeVarInt msg.txIn.length ++
    msg.txIn.flatMap writeTxIn ++ writeVarInt msg.txOut.length ++ msg.txOut.flatMap writeTxOut ++
    natToLE 4 msg.lockTime.toNat

def TxIn.withoutWitness (ti : TxIn) : TxIn := { ti with witness := [] }

@[simp] theorem writeTxIn_withoutWitness (ti : TxIn) : writeTxIn ti.withoutWitness = writeTxIn ti :=
  rfl

theorem MsgTx.serializeNoWitness_congr {msg msg' : MsgTx} (hv : msg.version = msg'.version)
    (hin : msg.txIn.map TxIn.withoutWitness = msg'.txIn.map TxIn.withoutWitness)
    (hout : msg.txOut = msg'.txOut) (hl : msg.lockTime = msg'.lockTime) :
    msg.serializeNoWitness = msg'.serializeNoWitness := by
  have hlen : msg.txIn.length = msg'.txIn.length := by
    simpa using congrArg List.length hin
  have hflat : msg.txIn.flatMap writeTxIn = msg'.txIn.flatMap writeTxIn := by
    simpa [List.flatMap_map] using congrArg (·.flatMap writeTxIn) hin
  simp only [serializeNoWitness, hv, hlen, hflat, hout, hl]

end RosettaThought.Wire
