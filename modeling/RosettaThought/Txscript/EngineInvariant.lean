import RosettaThought.Txscript.Engine

namespace RosettaThought.Txscript

open Wire ScriptTokenizer

namespace ScriptTokenizer

def Parses (t : ScriptTokenizer) : Prop :=
  t.err = none ∧ ∃ toks, (∀ tk ∈ toks, tk.WF) ∧ t.rest = encodeAll toks

theorem Parses.next_true {t t' : ScriptTokenizer} (h : t.Parses) (hn : t.next = (true, t')) :
    t'.Parses := by
  obtain ⟨he, toks, hwf, hr⟩ := h
  cases toks with
  | nil => simp [next_of_rest_nil hr] at hn
  | cons tk toks =>
    rw [encodeAll_cons] at hr
    rw [next_encode he hr (hwf tk (List.mem_cons_self _ _))] at hn
    cases hn
    exact ⟨he, toks, fun x hx => hwf x (List.mem_cons_of_mem _ hx), rest_advance hr⟩

theorem Parses.next_some {t : ScriptTokenizer} (h : t.Parses) (hr : t.offset < t.script.length) :
    ∃ t', t.next = (true, t') := by
  obtain ⟨he, toks, hwf, hrest⟩ := h
  cases toks with
  | nil => simp [rest, List.drop_eq_nil_iff] at hrest; omega
  | cons tk toks =>
    rw [encodeAll_cons] at hrest
    exact ⟨_, next_encode he hrest (hwf tk (List.mem_cons_self _ _))⟩

theorem offset_lt_of_done_eq_false {t : ScriptTokenizer} (hd : t.done = false) :
    t.offset < t.script.length := by
  simp only [done, Bool.or_eq_false_iff, decide_eq_false_iff_not, not_le] at hd
  exact hd.2

end ScriptTokenizer

theorem parses_makeScriptTokenizer {script : Bytes} (h : checkScriptParses script = .ok ()) :
    (makeScriptTokenizer script).Parses :=
  let ⟨toks, ht⟩ := checkScriptParses_eq_ok.mp h
  ⟨rfl, toks, ht.1, ht.2.symm⟩

def ScriptsShape (vm : Engine) : Prop :=
  ((vm.scripts.length = 2 ∧ vm.scriptIdx < 2) ∨ (vm.scripts.length = 3 ∧ vm.scriptIdx = 2)) ∧
    (vm.scripts.length = 3 → vm.bip16 = true)

namespace Engine

structure Inv (vm : Engine) : Prop where
  scripts_shape : ScriptsShape vm
  scripts_parse : ∀ s ∈ vm.scripts, checkScriptParses s = .ok ()
  tokenizer_script : vm.scripts[vm.scriptIdx]? = some vm.tokenizer.script
  tokenizer_parses : vm.tokenizer.Parses
  tokenizer_unconsumed : vm.tokenizer.offset < vm.tokenizer.script.length

structure RedeemInv (vm : Engine) : Prop where
  scriptPubKey : vm.bip16 = true → ∃ pk, vm.scripts[1]? = some pk ∧ isScriptHashScript pk = true
  saved : vm.bip16 = true → vm.scriptIdx = 1 →
    (vm.tokenizer.offset = 0 ∧ vm.condStack = [] ∧ vm.savedFirstStack = vm.dstack.stk) ∨
      (0 < vm.tokenizer.offset ∧ vm.savedFirstStack ≠ [])

end Engine

section Reachable

variable (opfunc : UInt8 → Bytes → Engine → Except ErrorCode OpEffect)

/-- `NewEngine` returned the engine, then each `Step` returned `(false, nil)`. -/
inductive Reachable : Engine → Prop
  | init {scriptPubKey : Bytes} {tx : MsgTx} {txIdx : Int} {flags : UInt32} {vm : Engine} :
      newEngine scriptPubKey tx txIdx flags = .ok vm → Reachable vm
  | step {vm vm' : Engine} : Reachable vm → vm.step opfunc = .next vm' → Reachable vm'

end Reachable

theorem forM_checkScriptSizeAndParses {scriptSig scriptPubKey : Bytes}
    (h : [scriptSig, scriptPubKey].forM checkScriptSizeAndParses = .ok ()) :
    checkScriptParses scriptSig = .ok () ∧ checkScriptParses scriptPubKey = .ok () := by
  have hc : ∀ {s : Bytes}, checkScriptSizeAndParses s = .ok () → checkScriptParses s = .ok () := by
    intro s hs
    unfold checkScriptSizeAndParses at hs
    split_ifs at hs
    exact hs
  simp only [List.forM] at h
  cases h1 : checkScriptSizeAndParses scriptSig <;> rw [h1] at h
  · cases h
  cases h2 : checkScriptSizeAndParses scriptPubKey <;> rw [h2] at h
  · cases h
  exact ⟨hc h1, hc h2⟩

theorem newEngine_ok {scriptPubKey : Bytes} {tx : MsgTx} {txIdx : Int} {flags : UInt32}
    {vm : Engine} (h : newEngine scriptPubKey tx txIdx flags = .ok vm) :
    ∃ scriptSig, vm.scripts = [scriptSig, scriptPubKey] ∧ ¬ (scriptSig = [] ∧ scriptPubKey = []) ∧
      checkScriptParses scriptSig = .ok () ∧ checkScriptParses scriptPubKey = .ok () ∧
      vm.scriptIdx = (if scriptSig = [] then 1 else 0) ∧
      vm.tokenizer = makeScriptTokenizer (vm.scripts.getD vm.scriptIdx []) ∧
      (vm.bip16 = true → isScriptHashScript scriptPubKey = true) ∧
      vm.savedFirstStack = [] ∧ vm.dstack.stk = [] ∧ vm.condStack = [] := by
  unfold newEngine at h
  dsimp only at h
  obtain ⟨-, h⟩ := ite_error_eq_ok h
  obtain ⟨hne, h⟩ := ite_error_eq_ok h
  obtain ⟨-, h⟩ := ite_error_eq_ok h
  obtain ⟨-, h⟩ := ite_error_eq_ok h
  rcases hf : [(tx.txIn[txIdx.toNat]?.map TxIn.signatureScript).getD [], scriptPubKey].forM
    checkScriptSizeAndParses with _ | ⟨⟩ <;> rw [hf] at h <;> cases h
  obtain ⟨hp1, hp2⟩ := forM_checkScriptSizeAndParses hf
  simp only [List.length_eq_zero] at hne
  exact ⟨_, rfl, hne, hp1, hp2, by simp only [List.length_eq_zero], rfl,
    fun hb => (Bool.and_eq_true_iff.mp hb).2, rfl, rfl, rfl⟩

section Invariant

variable {opfunc : UInt8 → Bytes → Engine → Except ErrorCode OpEffect}

theorem inv_of_newEngine {scriptPubKey : Bytes} {tx : MsgTx} {txIdx : Int} {flags : UInt32}
    {vm : Engine} (h : newEngine scriptPubKey tx txIdx flags = .ok vm) : vm.Inv ∧ vm.RedeemInv := by
  obtain ⟨scriptSig, hs, hne, hp1, hp2, hidx, htok, hb, hsv, hd, hc⟩ := newEngine_ok h
  have hparse : ∀ s ∈ vm.scripts, checkScriptParses s = .ok () := by
    simp [hs, hp1, hp2]
  have hcur : ∃ s, vm.scripts[vm.scriptIdx]? = some s ∧ s ≠ [] := by
    rw [hs, hidx]
    by_cases he : scriptSig = []
    · exact ⟨scriptPubKey, by simp [he], fun h => hne ⟨he, h⟩⟩
    · exact ⟨scriptSig, by simp [he], he⟩
  obtain ⟨s, hget, hsne⟩ := hcur
  have hts : vm.tokenizer = makeScriptTokenizer s := by
    rw [htok, List.getD_eq_getElem?_getD, hget, Option.getD_some]
  refine ⟨⟨?_, hparse, by rw [hget, hts]; rfl, ?_, ?_⟩, ⟨?_, ?_⟩⟩
  · refine ⟨.inl ?_, fun h3 => by simp [hs] at h3⟩
    rw [hs, hidx]; split_ifs <;> simp
  · rw [hts]; exact parses_makeScriptTokenizer (hparse s (List.getElem?_mem hget))
  · rw [hts]; simpa [makeScriptTokenizer, List.length_pos] using hsne
  · exact fun hb' => ⟨scriptPubKey, by simp [hs], hb hb'⟩
  · intro _ _
    exact .inl ⟨by rw [hts]; rfl, hc, by rw [hsv, hd]⟩

theorem advanceScript_shape {vm vm' : Engine} (h : vm.advanceScript = some (.ok vm'))
    (hshape : ScriptsShape vm) (hparse : ∀ s ∈ vm.scripts, checkScriptParses s = .ok ()) :
    (vm'.scripts.length = 2 ∨ (vm'.scripts.length = 3 ∧ 2 ≤ vm'.scriptIdx)) ∧
      (vm'.scripts.length = 3 → vm'.bip16 = true) ∧ vm'.scripts.length ≤ vm'.scriptIdx + 1 ∧
      ∀ s ∈ vm'.scripts, checkScriptParses s = .ok () := by
  obtain ⟨hsh, hb3⟩ := hshape
  rcases Engine.advanceScript_ok h with ⟨h0, -, rfl⟩ | ⟨h1, hb, script, d, -, hp, -, rfl⟩ | ⟨-, -, rfl⟩
    <;> dsimp only
  · exact ⟨by omega, hb3, by omega, hparse⟩
  · refine ⟨by simp; omega, fun _ => hb, by simp; omega, fun s hs => ?_⟩
    rcases List.mem_append.mp hs with hs | hs
    · exact hparse s hs
    · rw [List.mem_singleton.mp hs]; exact hp
  · exact ⟨by omega, hb3, by omega, hparse⟩

theorem inv_of_endScript {vm vm' : Engine} (h : vm.endScript = .next vm') (hshape : ScriptsShape vm)
    (hparse : ∀ s ∈ vm.scripts, checkScriptParses s = .ok ()) : vm'.Inv := by
  obtain ⟨-, ⟨h', -⟩ | ⟨vm4, hadv, hent⟩⟩ := Engine.endScript_of_not_failed h (by simp)
  · cases h'
  obtain ⟨hsh, hb3, hlen, hp⟩ := advanceScript_shape hadv hshape hparse
  obtain ⟨script, hget, hne, rfl⟩ := Engine.enterScript_next hlen hent.symm
  have hlt : vm4.scriptIdx < vm4.scripts.length := (List.getElem?_eq_some_iff.mp hget).1
  refine ⟨⟨by dsimp only; omega, hb3⟩, hp, hget,
    parses_makeScriptTokenizer (hp _ (List.getElem?_mem hget)), ?_⟩
  simpa [makeScriptTokenizer, List.length_pos] using hne

theorem Engine.Inv.step {vm vm' : Engine} (hi : vm.Inv) (h : vm.step opfunc = .next vm') :
    vm'.Inv := by
  obtain ⟨t, vm1, hn, hex, hcase⟩ := Engine.step_of_not_failed h (by simp)
  obtain ⟨hs, hidx, ht, hb, -⟩ := Engine.executeOpcode_frame hex
  dsimp only at hs hidx ht hb
  obtain ⟨hshape, hparse, hcur, htp, -⟩ := hi
  rcases hcase with ⟨hd, hr⟩ | ⟨-, hr⟩
  · cases hr
    refine ⟨?_, ?_, ?_, ?_, ?_⟩ <;> dsimp only <;> simp only [ScriptsShape, hs, hidx, ht, hb]
    · exact hshape
    · exact hparse
    · rw [(next_progress hn).1]; exact hcur
    · exact htp.next_true hn
    · exact offset_lt_of_done_eq_false hd
  · refine inv_of_endScript hr.symm ?_ ?_ <;> dsimp only <;> simp only [ScriptsShape, hs, hidx, hb]
    · exact hshape
    · exact hparse

theorem savedFirstStack_ne_nil
    (hhash : ∀ vm : Engine, vm.dstack.stk = [] → ∃ e, opfunc opHash160 [] vm = .error e)
    {vm vm1 : Engine} {t : ScriptTokenizer} (hi : vm.Inv) (hr : vm.RedeemInv)
    (hb : vm.bip16 = true) (h1 : vm.scriptIdx = 1) (hn : vm.tokenizer.next = (true, t))
    (hex : { vm with tokenizer := t }.executeOpcode opfunc t.op t.data = .ok vm1) :
    vm.savedFirstStack ≠ [] := by
  rcases hr.saved hb h1 with ⟨h0, hc, hsv⟩ | ⟨-, hne⟩
  · obtain ⟨pk, hpk, hsh⟩ := hr.scriptPubKey hb
    have hts : vm.tokenizer.script = pk := by
      have := hi.tokenizer_script
      rw [h1, hpk] at this
      exact (Option.some.inj this).symm
    have hrest : vm.tokenizer.rest = Token.bytes ⟨opHash160, []⟩ ++ pk.drop 1 := by
      have hhead := isScriptHashScript_head hsh
      cases pk with
      | nil => cases hhead
      | cons a tl =>
        simp only [List.getElem?_cons_zero, Option.some.injEq] at hhead
        simp [rest, h0, hts, Token.bytes, hhead, show ¬ opcodeLength opHash160 < 0 by decide]
    have hnext := next_encode hi.tokenizer_parses.1 hrest (by decide)
    rw [hn] at hnext
    cases hnext
    change Engine.executeOpcode opfunc { vm with tokenizer := vm.tokenizer.advance ⟨opHash160, []⟩ }
      opHash160 [] = .ok vm1 at hex
    rw [@Engine.executeOpcode_hash160 opfunc
      { vm with tokenizer := vm.tokenizer.advance ⟨opHash160, []⟩ } hc] at hex
    intro hnil
    obtain ⟨e, he⟩ :=
      hhash { vm with tokenizer := vm.tokenizer.advance ⟨opHash160, []⟩ } (hsv ▸ hnil)
    rw [he] at hex
    cases hex
  · exact hne

theorem Engine.RedeemInv.step
    (hhash : ∀ vm : Engine, vm.dstack.stk = [] → ∃ e, opfunc opHash160 [] vm = .error e)
    {vm vm' : Engine} (hi : vm.Inv) (hr : vm.RedeemInv) (h : vm.step opfunc = .next vm') :
    vm'.RedeemInv := by
  obtain ⟨t, vm1, hn, hex, hcase⟩ := Engine.step_of_not_failed h (by simp)
  obtain ⟨hs, hidx, ht, hb, hsv⟩ := Engine.executeOpcode_frame hex
  dsimp only at hs hidx ht hb hsv
  rcases hcase with ⟨-, hr'⟩ | ⟨-, hr'⟩
  · cases hr'
    refine ⟨?_, ?_⟩ <;> dsimp only <;> simp only [hs, hidx, ht, hb, hsv]
    · exact hr.scriptPubKey
    · intro hb1 h1
      exact .inr ⟨by have := (next_progress hn).2.1; omega,
        savedFirstStack_ne_nil hhash hi hr hb1 h1 hn hex⟩
  · obtain ⟨hc, ⟨h', -⟩ | ⟨vm4, hadv, hent⟩⟩ := Engine.endScript_of_not_failed hr'.symm (by simp)
    · cases h'
    obtain ⟨-, -, hlen, -⟩ := advanceScript_shape hadv
      (by simpa only [ScriptsShape, hs, hidx, hb] using hi.scripts_shape)
      (by simpa only [hs] using hi.scripts_parse)
    obtain ⟨script, -, -, rfl⟩ := Engine.enterScript_next hlen hent.symm
    rcases Engine.advanceScript_ok hadv with
      ⟨-, -, rfl⟩ | ⟨h1, -, script', d, -, -, -, rfl⟩ | ⟨hn0, -, rfl⟩ <;> dsimp only at *
    · refine ⟨?_, fun _ _ => .inl ⟨rfl, hc, rfl⟩⟩
      rw [hs, hb]; exact hr.scriptPubKey
    · refine ⟨fun hb2 => ?_, fun _ h2 => by dsimp only at h2; omega⟩
      obtain ⟨pk, hpk, hsh⟩ := hr.scriptPubKey (hb ▸ hb2)
      have hlen2 : 1 < vm1.scripts.length := by
        have := hi.scripts_shape.1
        have hl : vm1.scripts.length = vm.scripts.length := by rw [hs]
        omega
      exact ⟨pk, by rw [List.getElem?_append_left hlen2, hs, hpk], hsh⟩
    · refine ⟨by rw [hs, hb]; exact hr.scriptPubKey, fun hb2 h2 => ?_⟩
      dsimp only at hb2 h2
      exact absurd ⟨by omega, hb2⟩ hn0

end Invariant

section Reachable

variable {opfunc : UInt8 → Bytes → Engine → Except ErrorCode OpEffect}

theorem Reachable.inv {vm : Engine} (h : Reachable opfunc vm) : vm.Inv := by
  induction h with
  | init h => exact (inv_of_newEngine h).1
  | step _ hs ih => exact ih.step hs

theorem Reachable.redeemInv
    (hhash : ∀ vm : Engine, vm.dstack.stk = [] → ∃ e, opfunc opHash160 [] vm = .error e)
    {vm : Engine} (h : Reachable opfunc vm) : vm.RedeemInv := by
  induction h with
  | init h => exact (inv_of_newEngine h).2
  | step hr hs ih => exact ih.step hhash hr.inv hs

/-- Every engine a caller holds satisfies the invariant, points at a
non-empty script, and its next `Step` passes `checkValidPC` and parses an
opcode: the program-counter and parse failures of `Step` are unreachable. -/
theorem reachable_engine_inv {vm : Engine} (h : Reachable opfunc vm) :
    vm.Inv ∧ vm.scripts[vm.scriptIdx]? ≠ some [] ∧ vm.checkValidPC = .ok () ∧
      ∃ t, vm.tokenizer.next = (true, t) := by
  have hi := h.inv
  have hlt : vm.scriptIdx < vm.scripts.length := (List.getElem?_eq_some_iff.mp hi.tokenizer_script).1
  refine ⟨hi, fun he => ?_, by simp [Engine.checkValidPC, hlt],
    hi.tokenizer_parses.next_some hi.tokenizer_unconsumed⟩
  have hnil : vm.tokenizer.script = [] := Option.some.inj (hi.tokenizer_script.symm.trans he)
  have := hi.tokenizer_unconsumed
  rw [hnil] at this
  exact Nat.not_lt_zero _ this

def zeroScriptHashScript : Bytes := [opHash160, opData20] ++ List.replicate 20 0 ++ [opEqual]

def emptySigScriptTx : MsgTx :=
  ⟨1, [⟨⟨⟨List.replicate 32 0, by simp⟩, 0⟩, [], [], 0xffffffff⟩], [], 0⟩

def emptySigScriptEngine : Engine :=
  { flags := scriptBip16, tx := emptySigScriptTx, txIdx := 0, bip16 := true,
    scripts := [[], zeroScriptHashScript], scriptIdx := 1, opcodeIdx := 0, lastCodeSep := 0,
    tokenizer := makeScriptTokenizer zeroScriptHashScript, savedFirstStack := [],
    dstack := ⟨[], false⟩, astack := ⟨[], false⟩, condStack := [], numOps := 0 }

def hash160Handlers : UInt8 → Bytes → Engine → Except ErrorCode OpEffect :=
  fun op _ vm => if op = opHash160 then opcodeHash160 id vm else .ok vm.effect

theorem reachable_engine_inv_emptySig :
    Reachable hash160Handlers emptySigScriptEngine ∧
      (emptySigScriptEngine.Inv ∧
        emptySigScriptEngine.scripts[emptySigScriptEngine.scriptIdx]? ≠ some [] ∧
        emptySigScriptEngine.checkValidPC = .ok () ∧
        ∃ t, emptySigScriptEngine.tokenizer.next = (true, t)) :=
  have h : Reachable hash160Handlers emptySigScriptEngine :=
    .init (by with_unfolding_all rfl :
      newEngine zeroScriptHashScript emptySigScriptTx 0 scriptBip16 = .ok emptySigScriptEngine)
  ⟨h, reachable_engine_inv h⟩

/-- With an `OP_HASH160` handler that fails on an empty stack, `Step` never
panics on a reachable engine, and when it leaves the public key script of a
pay-to-script-hash spend the saved first stack is the new data stack with the
redeem script, now the last script, on top. -/
theorem reachable_redeem_in_range
    (hhash : ∀ vm : Engine, vm.dstack.stk = [] → ∃ e, opfunc opHash160 [] vm = .error e)
    {vm : Engine} (h : Reachable opfunc vm) :
    vm.step opfunc ≠ .panic ∧
      ∀ vm', (vm.step opfunc = .next vm' ∨ vm.step opfunc = .finished vm') →
        vm.bip16 = true → vm.scriptIdx = 1 → vm'.scriptIdx ≠ 1 →
        ∃ script, vm.savedFirstStack = vm'.dstack.stk ++ [script] ∧
          vm'.scripts = vm.scripts ++ [script] := by
  have hi := h.inv
  have hr := h.redeemInv hhash
  refine ⟨fun hp => ?_, fun vm' hstep hb h1 hne => ?_⟩
  · obtain ⟨t, vm1, hn, hex, ⟨-, hp'⟩ | ⟨-, hp'⟩⟩ := Engine.step_of_not_failed hp (by simp)
    · cases hp'
    obtain ⟨-, ⟨-, hnone⟩ | ⟨vm4, -, hp''⟩⟩ := Engine.endScript_of_not_failed hp'.symm (by simp)
    · obtain ⟨h1, hb, hsv⟩ := Engine.advanceScript_none hnone
      obtain ⟨-, hidx, -, hb', hsv'⟩ := Engine.executeOpcode_frame hex
      dsimp only at h1 hb hsv hidx hb' hsv'
      exact savedFirstStack_ne_nil hhash hi hr (hb' ▸ hb) (hidx ▸ h1) hn hex (hsv' ▸ hsv)
    · exact Engine.enterScript_ne_panic vm4 hp''.symm
  · have hres : ∀ d e, vm.step opfunc ≠ .failed d e := by
      rcases hstep with h' | h' <;> rw [h'] <;> simp
    obtain ⟨t, vm1, -, hex, hcase⟩ := Engine.step_of_not_failed rfl hres
    obtain ⟨hs, hidx, -, hb', hsv⟩ := Engine.executeOpcode_frame hex
    dsimp only at hs hidx hb' hsv
    rcases hcase with ⟨-, hr'⟩ | ⟨-, hr'⟩
    · rcases hstep with h' | h' <;> rw [h'] at hr' <;> cases hr'
      exact absurd (hidx.trans h1) hne
    obtain ⟨-, ⟨h', -⟩ | ⟨vm4, hadv, hent⟩⟩ :=
      Engine.endScript_of_not_failed rfl (hr' ▸ hres)
    · rw [← hr'] at h'; rcases hstep with h'' | h'' <;> rw [h''] at h' <;> cases h'
    have hstep' : vm4.enterScript = .next vm' ∨ vm4.enterScript = .finished vm' := by
      rw [← hent, ← hr']; exact hstep
    obtain ⟨hsc, hds⟩ := Engine.enterScript_frame hstep'
    rcases Engine.advanceScript_ok hadv with
      ⟨h0, -, -⟩ | ⟨-, -, script, d, hl, -, hd, rfl⟩ | ⟨-, hn1, -⟩ <;> dsimp only at *
    · omega
    · refine ⟨script, ?_, by rw [hsc, hs]⟩
      rw [hds, hd, ← hsv]
      exact (List.dropLast_append_getLast? script hl).symm
    · exact absurd ⟨by omega, hb' ▸ hb⟩ hn1

theorem reachable_redeem_in_range_emptySig :
    (∀ vm : Engine, vm.dstack.stk = [] → ∃ e, hash160Handlers opHash160 [] vm = .error e) ∧
      Reachable hash160Handlers emptySigScriptEngine ∧
      (emptySigScriptEngine.step hash160Handlers ≠ .panic ∧
        ∀ vm', (emptySigScriptEngine.step hash160Handlers = .next vm' ∨
            emptySigScriptEngine.step hash160Handlers = .finished vm') →
          emptySigScriptEngine.bip16 = true → emptySigScriptEngine.scriptIdx = 1 →
          vm'.scriptIdx ≠ 1 →
          ∃ script, emptySigScriptEngine.savedFirstStack = vm'.dstack.stk ++ [script] ∧
            vm'.scripts = emptySigScriptEngine.scripts ++ [script]) :=
  have hhash : ∀ vm : Engine, vm.dstack.stk = [] →
      ∃ e, hash160Handlers opHash160 [] vm = .error e :=
    fun _ h => ⟨.errInvalidStackOperation, by simp [hash160Handlers, opcodeHash160_of_empty id h]⟩
  have h : Reachable hash160Handlers emptySigScriptEngine :=
    .init (by with_unfolding_all rfl :
      newEngine zeroScriptHashScript emptySigScriptTx 0 scriptBip16 = .ok emptySigScriptEngine)
  ⟨hhash, h, reachable_redeem_in_range hhash h⟩

end Reachable

end RosettaThought.Txscript
