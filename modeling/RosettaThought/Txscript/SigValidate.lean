import RosettaThought.Txscript.SigCache
import RosettaThought.Txscript.SigEncoding
import RosettaThought.Txscript.SigHash

/-! Signature verification under the base rules, `sigvalidate.go`, and the
signature cache it shares across engines.  The `thtec` and `ecdsa` packages
are not in the source: their key and signature types, their parsers and
`Signature.Verify` are the fields of `SigScheme`.  The engine's `sigCache`
pointer is passed beside the engine, and a call returns the cache it leaves. -/

namespace RosettaThought.Txscript

/-- Keys, signatures, their parsers (`none` is an error) and `Verify`. -/
structure SigScheme where
  PublicKey : Type
  Signature : Type
  parsePubKey : Bytes → Option PublicKey
  parseDERSignature : Bytes → Option Signature
  parseSignature : Bytes → Option Signature
  verify : Signature → Bytes → PublicKey → Bool

def SigScheme.ParsersAgree (S : SigScheme) : Prop :=
  ∀ sigStr sig sig', S.parseDERSignature sigStr = some sig → S.parseSignature sigStr = some sig' →
    sig = sig'

def Engine.checkHashTypeEncoding (vm : Engine) (hashType : UInt32) : Except ErrorCode Unit :=
  if !hasFlag vm.flags scriptVerifyStrictEncoding then .ok () else
  let sigHashType := hashType &&& ~~~sigHashAnyOneCanPay
  if sigHashType < sigHashAll ∨ sigHashType > sigHashSingle then .error .errInvalidSigHashType
  else .ok ()

def Engine.checkPubKeyEncoding (vm : Engine) (pubKey : Bytes) : Except ErrorCode Unit :=
  if !hasFlag vm.flags scriptVerifyStrictEncoding then .ok ()
  else if pubKey.length = 33 ∧ (pubKey[0]? = some 0x02 ∨ pubKey[0]? = some 0x03) then .ok ()
  else if pubKey.length = 65 ∧ pubKey[0]? = some 0x04 then .ok ()
  else .error .errPubKeyType

/-- `subScript`: the script since the last `OP_CODESEPARATOR`; `none` is a
panic of the slice. -/
def Engine.subScript (vm : Engine) : Option Bytes :=
  match vm.scripts[vm.scriptIdx]? with
  | none => none
  | some script => if vm.lastCodeSep ≤ script.length then some (script.drop vm.lastCodeSep) else none

/-- The errors of `parseBaseSigAndPubkey`: a script error, or an error of the
key or signature parser, which `opcodeCheckSig` turns into a `false` result. -/
inductive VerifierError
  | scriptError (code : ErrorCode)
  | parseError
  deriving DecidableEq, Repr

section Verifier

variable (S : SigScheme)

/-- `parseBaseSigAndPubkey`; `none` is a panic: of the hash type's read on an
empty signature, or of `checkSignatureEncoding`. -/
def parseBaseSigAndPubkey (pkBytes fullSigBytes : Bytes) (vm : Engine) :
    Option (Except VerifierError (S.PublicKey × S.Signature × UInt32)) :=
  let strictEncoding := hasFlag vm.flags scriptVerifyStrictEncoding ||
    hasFlag vm.flags scriptVerifyDERSignatures
  match fullSigBytes.getLast? with
  | none => none
  | some last =>
  let hashType := last.toUInt32
  let sigBytes := fullSigBytes.dropLast
  match vm.checkHashTypeEncoding hashType with
  | .error e => some (.error (.scriptError e))
  | .ok () =>
  match checkSignatureEncoding vm.flags sigBytes with
  | none => none
  | some (.error e) => some (.error (.scriptError e))
  | some (.ok ()) =>
  match vm.checkPubKeyEncoding pkBytes with
  | .error e => some (.error (.scriptError e))
  | .ok () =>
  match S.parsePubKey pkBytes with
  | none => some (.error .parseError)
  | some pubKey =>
  match (if strictEncoding then S.parseDERSignature sigBytes else S.parseSignature sigBytes) with
  | none => some (.error .parseError)
  | some signature => some (.ok (pubKey, signature, hashType))

structure BaseSigVerifier where
  vm : Engine
  pubKey : S.PublicKey
  sig : S.Signature
  fullSigBytes : Bytes
  sigBytes : Bytes
  pkBytes : Bytes
  subScript : Bytes
  hashType : UInt32

def newBaseSigVerifier (pkBytes fullSigBytes : Bytes) (vm : Engine) :
    Option (Except VerifierError (BaseSigVerifier S)) :=
  match parseBaseSigAndPubkey S pkBytes fullSigBytes vm with
  | none => none
  | some (.error e) => some (.error e)
  | some (.ok (pubKey, sig, hashType)) =>
    match vm.subScript with
    | none => none
    | some subScript =>
      some (.ok { vm, pubKey, pkBytes, sig, sigBytes := fullSigBytes.dropLast, subScript,
                  hashType, fullSigBytes })

variable {S}

def BaseSigVerifier.verifySig (b : BaseSigVerifier S) (sigCache : Option SigCache) (victim : Nat)
    (sigHash : Bytes) : Bool × Option SigCache :=
  match sigCache with
  | some sigCache =>
    let sigHashBytes := copyBytes (List.replicate 32 0) sigHash
    let valid := sigCache.exists sigHashBytes b.sigBytes b.pkBytes
    if !valid && S.verify b.sig sigHash b.pubKey then
      (true, some (sigCache.add victim sigHashBytes b.sigBytes b.pkBytes))
    else (valid, some sigCache)
  | none => (S.verify b.sig sigHash b.pubKey, none)

/-- `Verify`; `none` is a panic of `calcSignatureHash`. -/
def BaseSigVerifier.verify (doubleHashB : Bytes → Bytes) (b : BaseSigVerifier S)
    (sigCache : Option SigCache) (victim : Nat) : Option (Bool × Option SigCache) :=
  let subScript := removeOpcodeByData b.subScript b.fullSigBytes
  (calcSignatureHash doubleHashB subScript b.hashType b.vm.tx b.vm.txIdx.toNat).map
    (b.verifySig sigCache victim)

end Verifier

section Lemmas

variable {S : SigScheme}

theorem SigScheme.ParsersAgree.eq (hagree : S.ParsersAgree) {sigStr : Bytes} {sig sig' : S.Signature}
    (h : S.parseDERSignature sigStr = some sig ∨ S.parseSignature sigStr = some sig)
    (h' : S.parseDERSignature sigStr = some sig' ∨ S.parseSignature sigStr = some sig') :
    sig = sig' := by
  rcases h with h | h <;> rcases h' with h' | h'
  · exact Option.some.inj (h.symm.trans h')
  · exact hagree _ _ _ h h'
  · exact (hagree _ _ _ h' h).symm
  · exact Option.some.inj (h.symm.trans h')

def BaseSigVerifier.Parsed (b : BaseSigVerifier S) : Prop :=
  (S.parseDERSignature b.sigBytes = some b.sig ∨ S.parseSignature b.sigBytes = some b.sig) ∧
    S.parsePubKey b.pkBytes = some b.pubKey

theorem parseBaseSigAndPubkey_parsed {pkBytes fullSigBytes : Bytes} {vm : Engine}
    {pubKey : S.PublicKey} {sig : S.Signature} {hashType : UInt32}
    (h : parseBaseSigAndPubkey S pkBytes fullSigBytes vm = some (.ok (pubKey, sig, hashType))) :
    (S.parseDERSignature fullSigBytes.dropLast = some sig ∨
      S.parseSignature fullSigBytes.dropLast = some sig) ∧ S.parsePubKey pkBytes = some pubKey := by
  unfold parseBaseSigAndPubkey at h
  dsimp only at h
  -- every branch but the last is an error or a panic
  repeat' split at h
  all_goals cases h
  rename_i hpk hsig
  refine ⟨?_, hpk⟩
  split at hsig
  · exact .inl hsig
  · exact .inr hsig

theorem newBaseSigVerifier_parsed {pkBytes fullSigBytes : Bytes} {vm : Engine}
    {b : BaseSigVerifier S} (h : newBaseSigVerifier S pkBytes fullSigBytes vm = some (.ok b)) :
    b.Parsed := by
  unfold newBaseSigVerifier at h
  split at h
  · cases h
  · cases h
  · next hp =>
    split at h
    · cases h
    · cases h
      exact parseBaseSigAndPubkey_parsed hp

def SigCache.EntriesVerify (S : SigScheme) (s : SigCache) : Prop :=
  ∀ sigHash entry, (sigHash, entry) ∈ s.validSigs → ∃ sig pubKey,
    (S.parseDERSignature entry.sig = some sig ∨ S.parseSignature entry.sig = some sig) ∧
      S.parsePubKey entry.pubKey = some pubKey ∧ S.verify sig sigHash pubKey = true

theorem SigCache.entriesVerify_newSigCache (maxEntries : Nat) :
    (newSigCache maxEntries).EntriesVerify S :=
  fun _ _ h => absurd h (List.not_mem_nil _)

theorem copyBytes_sigHash {sigHash : Bytes} (h : sigHash.length = 32) :
    copyBytes (List.replicate 32 0) sigHash = sigHash :=
  copyBytes_of_length (by simp [h])

theorem SigCache.EntriesVerify.add {s : SigCache} (hs : s.EntriesVerify S) {b : BaseSigVerifier S}
    (hb : b.Parsed) {sigHash : Bytes} (hv : S.verify b.sig sigHash b.pubKey = true) (victim : Nat) :
    (s.add victim sigHash b.sigBytes b.pkBytes).EntriesVerify S := by
  intro k e he
  rcases SigCache.mem_add he with he | ⟨rfl, rfl⟩
  · exact hs k e he
  · exact ⟨b.sig, b.pubKey, hb.1, hb.2, hv⟩

theorem BaseSigVerifier.verifySig_cache {b : BaseSigVerifier S} {s s' : SigCache} {victim : Nat}
    {sigHash : Bytes} {valid : Bool} (h : b.verifySig (some s) victim sigHash = (valid, some s')) :
    s' = s ∨ S.verify b.sig sigHash b.pubKey = true ∧
      s' = s.add victim (copyBytes (List.replicate 32 0) sigHash) b.sigBytes b.pkBytes := by
  unfold verifySig at h
  dsimp only at h
  split at h
  · next hv =>
    simp only [Bool.and_eq_true, Bool.not_eq_true'] at hv
    cases h
    exact .inr ⟨hv.2, rfl⟩
  · cases h
    exact .inl rfl

theorem BaseSigVerifier.verifySig_fst (hagree : S.ParsersAgree) {b : BaseSigVerifier S}
    (hb : b.Parsed) {s : SigCache} (hs : s.EntriesVerify S) {sigHash : Bytes}
    (hlen : sigHash.length = 32) (victim : Nat) :
    (b.verifySig (some s) victim sigHash).1 = S.verify b.sig sigHash b.pubKey := by
  unfold verifySig
  dsimp only
  rw [copyBytes_sigHash hlen]
  cases he : s.exists sigHash b.sigBytes b.pkBytes
  · cases S.verify b.sig sigHash b.pubKey <;> rfl
  · obtain ⟨sig, pubKey, hsig, hpk, hv⟩ := hs _ _ (SigCache.mem_of_exists he)
    have hpk : pubKey = b.pubKey := Option.some.inj (hpk.symm.trans hb.2)
    have hsig : sig = b.sig := hagree.eq hsig hb.1
    subst hpk hsig
    simp [hv]

theorem length_calcSignatureHash {doubleHashB : Bytes → Bytes}
    (hd : ∀ data, (doubleHashB data).length = 32) {sigScript : Bytes} {hashType : UInt32}
    {tx : Wire.MsgTx} {idx : Nat} {sigHash : Bytes}
    (h : calcSignatureHash doubleHashB sigScript hashType tx idx = some sigHash) :
    sigHash.length = 32 := by
  unfold calcSignatureHash at h
  split at h
  · cases h; rfl
  · obtain ⟨_, -, rfl⟩ := Option.map_eq_some'.mp h
    exact hd _

end Lemmas

section Run

variable (S : SigScheme) (doubleHashB : Bytes → Bytes)

/-- The caches a run can leave: `NewSigCache`, then one `Verify` call after
another, in any order, each by a verifier `newBaseSigVerifier` built, on any
engine, with any flags, and each with any choice of the entry to evict. -/
inductive SigCacheReachable : SigCache → Prop
  | init (maxEntries : Nat) : SigCacheReachable (newSigCache maxEntries)
  | verify {s s' : SigCache} {pkBytes fullSigBytes : Bytes} {vm : Engine}
      {b : BaseSigVerifier S} {victim : Nat} {valid : Bool} :
      SigCacheReachable s → newBaseSigVerifier S pkBytes fullSigBytes vm = some (.ok b) →
      b.verify doubleHashB (some s) victim = some (valid, some s') → SigCacheReachable s'

variable {S doubleHashB}

theorem BaseSigVerifier.verify_some {b : BaseSigVerifier S} {s s' : SigCache} {victim : Nat}
    {valid : Bool} (h : b.verify doubleHashB (some s) victim = some (valid, some s')) :
    ∃ sigHash, calcSignatureHash doubleHashB (removeOpcodeByData b.subScript b.fullSigBytes)
        b.hashType b.vm.tx b.vm.txIdx.toNat = some sigHash ∧
      b.verifySig (some s) victim sigHash = (valid, some s') :=
  Option.map_eq_some'.mp h

theorem SigCacheReachable.entriesVerify (hd : ∀ data, (doubleHashB data).length = 32)
    {s : SigCache} (h : SigCacheReachable S doubleHashB s) : s.EntriesVerify S := by
  induction h with
  | init maxEntries => exact SigCache.entriesVerify_newSigCache maxEntries
  | verify _ hb hv ih =>
    obtain ⟨sigHash, hc, hv⟩ := BaseSigVerifier.verify_some hv
    rcases BaseSigVerifier.verifySig_cache hv with rfl | ⟨hok, rfl⟩
    · exact ih
    · rw [copyBytes_sigHash (length_calcSignatureHash hd hc)]
      exact ih.add (newBaseSigVerifier_parsed hb) hok _

/-- Over every run of `Verify` calls sharing one cache, every entry verifies,
and every call returns what it returns without the cache: whether the
signature verifies against the hash. -/
theorem sigCache_verify_uncached (hd : ∀ data, (doubleHashB data).length = 32)
    (hagree : S.ParsersAgree) {s : SigCache} (hs : SigCacheReachable S doubleHashB s) :
    s.EntriesVerify S ∧
      ∀ {pkBytes fullSigBytes : Bytes} {vm : Engine} {b : BaseSigVerifier S},
        newBaseSigVerifier S pkBytes fullSigBytes vm = some (.ok b) → ∀ victim,
        (b.verify doubleHashB (some s) victim).map Prod.fst =
          (calcSignatureHash doubleHashB (removeOpcodeByData b.subScript b.fullSigBytes) b.hashType
            b.vm.tx b.vm.txIdx.toNat).map fun sigHash => S.verify b.sig sigHash b.pubKey := by
  have hinv := hs.entriesVerify hd
  refine ⟨hinv, ?_⟩
  intro pkBytes fullSigBytes vm b hb victim
  unfold BaseSigVerifier.verify
  rw [Option.map_map]
  cases hc : calcSignatureHash doubleHashB (removeOpcodeByData b.subScript b.fullSigBytes) b.hashType
    b.vm.tx b.vm.txIdx.toNat with
  | none => rfl
  | some sigHash =>
    exact congrArg some (BaseSigVerifier.verifySig_fst hagree (newBaseSigVerifier_parsed hb) hinv
      (length_calcSignatureHash hd hc) victim)

def bytesSigScheme : SigScheme :=
  ⟨Bytes, Bytes, some, some, some, fun sig sigHash pubKey => sig == sigHash ++ pubKey⟩

def constDoubleHashB : Bytes → Bytes := fun _ => List.replicate 32 0

theorem sigCache_verify_uncached_newSigCache :
    (∀ data, (constDoubleHashB data).length = 32) ∧ bytesSigScheme.ParsersAgree ∧
      SigCacheReachable bytesSigScheme constDoubleHashB (newSigCache 100) ∧
      ((newSigCache 100).EntriesVerify bytesSigScheme ∧
        ∀ {pkBytes fullSigBytes : Bytes} {vm : Engine} {b : BaseSigVerifier bytesSigScheme},
          newBaseSigVerifier bytesSigScheme pkBytes fullSigBytes vm = some (.ok b) → ∀ victim,
          (b.verify constDoubleHashB (some (newSigCache 100)) victim).map Prod.fst =
            (calcSignatureHash constDoubleHashB (removeOpcodeByData b.subScript b.fullSigBytes)
              b.hashType b.vm.tx b.vm.txIdx.toNat).map
              fun sigHash => bytesSigScheme.verify b.sig sigHash b.pubKey) :=
  have hd : ∀ data, (constDoubleHashB data).length = 32 := fun _ => List.length_replicate _ _
  have hagree : bytesSigScheme.ParsersAgree := fun _ _ _ h h' => Option.some.inj (h.symm.trans h')
  have hs := @SigCacheReachable.init bytesSigScheme constDoubleHashB 100
  ⟨hd, hagree, hs, sigCache_verify_uncached hd hagree hs⟩

/-- A cache a run leaves holds at most `maxEntries` entries. -/
theorem SigCacheReachable.length_le {s : SigCache} (h : SigCacheReachable S doubleHashB s) :
    s.validSigs.length ≤ s.maxEntries := by
  induction h with
  | init maxEntries => exact Nat.zero_le _
  | verify _ _ hv ih =>
    obtain ⟨_, -, hv⟩ := BaseSigVerifier.verify_some hv
    rcases BaseSigVerifier.verifySig_cache hv with rfl | ⟨-, rfl⟩
    · exact ih
    · rw [SigCache.maxEntries_add]
      exact SigCache.length_add_le ih _ _ _ _

theorem SigCacheReachable.length_le_newSigCache :
    SigCacheReachable bytesSigScheme constDoubleHashB (newSigCache 100) ∧
      (newSigCache 100).validSigs.length ≤ (newSigCache 100).maxEntries :=
  have hs := @SigCacheReachable.init bytesSigScheme constDoubleHashB 100
  ⟨hs, SigCacheReachable.length_le hs⟩

end Run

end RosettaThought.Txscript
