import RosettaThought.Bytes
import RosettaThought.Wire.MsgTx
import RosettaThought.Txscript.Opcode
import RosettaThought.Txscript.Tokenizer
import RosettaThought.Txscript.Standard
import RosettaThought.Txscript.Classify
import RosettaThought.Txscript.ScriptBuilder
import RosettaThought.Txscript.SigHash
import RosettaThought.Txscript.Stack
import RosettaThought.Txscript.Engine
import RosettaThought.Txscript.EngineInvariant
import RosettaThought.Txscript.Execute
import RosettaThought.Txscript.MinimalPush
import RosettaThought.Txscript.SigEncoding
import RosettaThought.Txscript.PkScript
import RosettaThought.Txscript.SigCache
import RosettaThought.Txscript.SigValidate
import RosettaThought.Txscript.RemoveOpcode
import RosettaThought.Txscript.ScriptNum
import RosettaThought.Txscript.AtomicSwap
import RosettaThought.Txscript.ScriptInfo
import RosettaThought.Configuration
