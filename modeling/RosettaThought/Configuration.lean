import Mathlib.Logic.Basic

/-! `LoadConfiguration` of the `configuration` package (`part_005`): the
Rosetta server's settings, read from the environment variables `MODE`,
`NETWORK` and `PORT`.  The standard library calls it makes are parameters:
`os.Getenv`, `path.Join`, `os.MkdirAll` (its error text, if any) and
`strconv.Atoi` (its value and error text).  The network values of package
`thought` (network identifier, genesis block, params, currency) are not in the
source; a configuration records which network they were taken for. -/

namespace RosettaThought.Config

def online : String := "ONLINE"
def offline : String := "OFFLINE"
def mainnet : String := "MAINNET"
def testnet : String := "TESTNET"
def mainnetConfigPath : String := "/app/thought-mainnet.conf"
def testnetConfigPath : String := "/app/thought-testnet.conf"
def transactionNamespace : String := "transaction"
def testnetTransactionDictionary : String := "/app/testnet-transaction.zstd"
def mainnetTransactionDictionary : String := "/app/mainnet-transaction.zstd"
def mainnetRPCPort : Int := 10617
def testnetRPCPort : Int := 11617
def pruneDepth : Int := 10000
def minPruneHeight : Int := 100000
def pruneFrequency : Nat := 60
def bitcoindPath : String := "thoughtd"
def indexerPath : String := "indexer"
def allFilePermissions : Nat := 0o777
def modeEnv : String := "MODE"
def networkEnv : String := "NETWORK"
def portEnv : String := "PORT"

inductive Network
  | mainnet
  | testnet
  deriving DecidableEq, Repr

structure PruningConfiguration where
  frequency : Nat
  depth : Int
  minHeight : Int
  deriving DecidableEq, Repr

/-- `Configuration`, with Go's zero values as defaults.  `network` stands for
the four fields `Network`, `GenesisBlockIdentifier`, `Params` and `Currency`,
set together from package `thought`; a compressor entry is its namespace and
dictionary path. -/
structure Configuration where
  mode : String := ""
  network : Option Network := none
  networkChain : String := ""
  port : Int := 0
  rpcPort : Int := 0
  configPath : String := ""
  pruning : Option PruningConfiguration := none
  indexerPath : String := ""
  thoughtdPath : String := ""
  compressors : List (String × String) := []
  deriving DecidableEq, Repr

/-- The text `fmt.Errorf` writes for a `%w` verb: the wrapped error's text, or
`%!w(<nil>)` for a nil error. -/
def wrapText : Option String → String
  | some err => err
  | none => "%!w(<nil>)"

section Load

variable (getenv : String → String) (join : String → String → String)
  (mkdirAll : String → Nat → Option String) (atoi : String → Int × Option String)

def ensurePathExists (path : String) : Except String Unit :=
  match mkdirAll path allFilePermissions with
  | some err => .error (err ++ ": unable to create " ++ path ++ " directory")
  | none => .ok ()

def loadMode (baseDirectory : String) (config : Configuration) : Except String Configuration :=
  let modeValue := getenv modeEnv
  if modeValue = online then
    let config := { config with mode := online, indexerPath := join baseDirectory indexerPath }
    match ensurePathExists mkdirAll config.indexerPath with
    | .error err => .error (err ++ ": unable to create indexer path")
    | .ok () =>
      let config := { config with thoughtdPath := join baseDirectory bitcoindPath }
      match ensurePathExists mkdirAll config.thoughtdPath with
      | .error err => .error (err ++ ": unable to create thoughtd path")
      | .ok () => .ok config
  else if modeValue = offline then .ok { config with mode := offline }
  else if modeValue = "" then .error "MODE must be populated"
  else .error (modeValue ++ " is not a valid mode")

def loadNetwork (config : Configuration) : Except String Configuration :=
  let networkValue := getenv networkEnv
  if networkValue = mainnet then
    .ok { config with
      network := some .mainnet, networkChain := networkValue, configPath := mainnetConfigPath,
      rpcPort := mainnetRPCPort, compressors := [(transactionNamespace, mainnetTransactionDictionary)] }
  else if networkValue = testnet then
    .ok { config with
      network := some .testnet, networkChain := networkValue, configPath := testnetConfigPath,
      rpcPort := testnetRPCPort, compressors := [(transactionNamespace, testnetTransactionDictionary)] }
  else if networkValue = "" then .error "NETWORK must be populated"
  else .error (networkValue ++ " is not a valid network")

def loadPort (config : Configuration) : Except String Configuration :=
  let portValue := getenv portEnv
  if portValue.length = 0 then .error "PORT must be populated" else
  let (port, err) := atoi portValue
  if err.isSome ∨ portValue.length = 0 ∨ port ≤ 0 then
    .error (wrapText err ++ ": unable to parse port " ++ portValue)
  else .ok { config with port := port }

def defaultPruning : PruningConfiguration := ⟨pruneFrequency, pruneDepth, minPruneHeight⟩

def loadConfiguration (baseDirectory : String) : Except String Configuration :=
  let config : Configuration := { pruning := some defaultPruning }
  loadMode getenv join mkdirAll baseDirectory config >>= loadNetwork getenv >>= loadPort getenv atoi

theorem online_ne_offline : online ≠ offline := by decide

theorem loadMode_eq_ok {baseDirectory : String} {config c : Configuration} :
    loadMode getenv join mkdirAll baseDirectory config = .ok c ↔
      (getenv modeEnv = online ∧
        ensurePathExists mkdirAll (join baseDirectory indexerPath) = .ok () ∧
        ensurePathExists mkdirAll (join baseDirectory bitcoindPath) = .ok () ∧
        c = { config with
          mode := online, indexerPath := join baseDirectory indexerPath,
          thoughtdPath := join baseDirectory bitcoindPath }) ∨
      (getenv modeEnv = offline ∧ c = { config with mode := offline }) := by
  unfold loadMode
  by_cases h1 : getenv modeEnv = online
  · rw [if_pos h1]
    dsimp only
    cases h2 : ensurePathExists mkdirAll (join baseDirectory indexerPath) <;>
      cases h3 : ensurePathExists mkdirAll (join baseDirectory bitcoindPath) <;>
      simp [h1, online_ne_offline, online_ne_offline.symm, eq_comm]
  · rw [if_neg h1]
    by_cases h2 : getenv modeEnv = offline
    · rw [if_pos h2]; simp [h2, online_ne_offline.symm, eq_comm]
    · rw [if_neg h2]
      refine iff_of_false (fun h => ?_) (by rintro (⟨h, -⟩ | ⟨h, -⟩) <;> contradiction)
      split at h <;> cases h

theorem loadNetwork_eq_ok {config c : Configuration} :
    loadNetwork getenv config = .ok c ↔
      (getenv networkEnv = mainnet ∧ c = { config with
        network := some .mainnet, networkChain := mainnet, configPath := mainnetConfigPath,
        rpcPort := mainnetRPCPort, compressors := [(transactionNamespace, mainnetTransactionDictionary)] }) ∨
      (getenv networkEnv = testnet ∧ c = { config with
        network := some .testnet, networkChain := testnet, configPath := testnetConfigPath,
        rpcPort := testnetRPCPort, compressors := [(transactionNamespace, testnetTransactionDictionary)] }) := by
  have hne : mainnet ≠ testnet := by decide
  unfold loadNetwork
  by_cases h1 : getenv networkEnv = mainnet
  · rw [if_pos h1]; simp [h1, hne, eq_comm]
  · rw [if_neg h1]
    by_cases h2 : getenv networkEnv = testnet
    · rw [if_pos h2]; simp [h2, hne.symm, eq_comm]
    · rw [if_neg h2]
      refine iff_of_false (fun h => ?_) (by rintro (⟨h, -⟩ | ⟨h, -⟩) <;> contradiction)
      split at h <;> cases h

theorem loadPort_eq_ok {config c : Configuration} :
    loadPort getenv atoi config = .ok c ↔
      (getenv portEnv).length ≠ 0 ∧ 0 < (atoi (getenv portEnv)).1 ∧ (atoi (getenv portEnv)).2 = none ∧
        c = { config with port := (atoi (getenv portEnv)).1 } := by
  unfold loadPort
  dsimp only
  rcases atoi (getenv portEnv) with ⟨port, err⟩
  by_cases h0 : (getenv portEnv).length = 0
  · rw [if_pos h0]
    simp [h0]
  · rw [if_neg h0]
    cases err with
    | some e => simp [h0]
    | none =>
      by_cases hp : port ≤ 0
      · simp [h0, hp, Int.not_lt.mpr hp]
      · simp [h0, hp, Int.not_le.mp hp, eq_comm]

theorem except_bind_eq_ok {α β ε : Type} {x : Except ε α} {f : α → Except ε β} {b : β} :
    x >>= f = .ok b ↔ ∃ a, x = .ok a ∧ f a = .ok b := by
  cases x <;> simp [bind, Except.bind]

theorem loadConfiguration_eq_ok {baseDirectory : String} {c : Configuration} :
    loadConfiguration getenv join mkdirAll atoi baseDirectory = .ok c ↔
      ∃ c₁ c₂, loadMode getenv join mkdirAll baseDirectory
          { pruning := some defaultPruning } = .ok c₁ ∧
        loadNetwork getenv c₁ = .ok c₂ ∧ loadPort getenv atoi c₂ = .ok c := by
  simp only [loadConfiguration, except_bind_eq_ok]
  exact ⟨fun ⟨c₂, ⟨c₁, h1, h2⟩, h3⟩ => ⟨c₁, c₂, h1, h2, h3⟩,
    fun ⟨c₁, c₂, h1, h2, h3⟩ => ⟨c₂, ⟨c₁, h1, h2⟩, h3⟩⟩

end Load

end RosettaThought.Config
