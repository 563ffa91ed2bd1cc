import RosettaThought.Txscript.EngineInvariant

namespace RosettaThought.Txscript

open Wire ScriptTokenizer

namespace Engine

def scriptBytes (vm : Engine) : Nat := vm.scripts.flatten.length

def consumed (vm : Engine) : Nat := (vm.scripts.take vm.scriptIdx).flatten.length + vm.tokenizer.offset

end Engine

section Loop

variable (opfunc : UInt8 → Bytes → Engine → Except ErrorCode OpEffect)

inductive StepsN : Nat → Engine → Engine → Prop
  | refl (vm : Engine) : StepsN 0 vm vm
  | step {n : Nat} {vm vm' vm'' : Engine} :
      vm.step opfunc = .next vm' → StepsN n vm' vm'' → StepsN (n + 1) vm vm''

/-- `Execute` given at most `fuel` calls of `Step`: `none` when they run out
before `Step` reports done or an error, and inside it `none` is a panic.
`NewEngine` leaves `version` at 0, so the loop always runs. -/
def Engine.execute (vm : Engine) : Nat → Option (Option (Except ErrorCode Unit))
  | 0 => none
  | fuel + 1 =>
    match vm.step opfunc with
    | .next vm' => vm'.execute fuel
    | .finished vm' => some (some ((vm'.checkErrorCondition true).map fun _ => ()))
    | .failed _ err => some (some (.error err))
    | .panic => some none

end Loop

section Lemmas

variable {opfunc : UInt8 → Bytes → Engine → Except ErrorCode OpEffect}

theorem Engine.execute_of_stepsN {n : Nat} {vm vm' : Engine} (h : StepsN opfunc n vm vm') (k : Nat) :
    vm.execute opfunc (n + k) = vm'.execute opfunc k := by
  induction h with
  | refl => rw [Nat.zero_add]
  | step hs _ ih => rw [Nat.add_right_comm, Engine.execute, hs]; exact ih

theorem Engine.execute_one_isSome {vm : Engine} (h : ∀ vm', vm.step opfunc ≠ .next vm') :
    (vm.execute opfunc 1).isSome := by
  rw [Engine.execute]
  split
  · exact absurd ‹_› (h _)
  all_goals rfl

theorem length_flatten_take_succ {l : List Bytes} {i : Nat} {s : Bytes} (h : l[i]? = some s) :
    (l.take (i + 1)).flatten.length = (l.take i).flatten.length + s.length := by
  rw [List.take_succ, h, Option.toList_some, List.flatten_append, List.length_append, List.flatten_cons,
    List.flatten_nil, List.append_nil]

theorem length_flatten_take_le (l : List Bytes) (k : Nat) :
    (l.take k).flatten.length ≤ l.flatten.length := by
  conv_rhs => rw [← List.take_append_drop k l, List.flatten_append, List.length_append]
  exact Nat.le_add_right _ _

theorem Engine.Inv.step_next {vm vm' : Engine} (hi : vm.Inv) (h : vm.step opfunc = .next vm') :
    (vm'.scripts = vm.scripts ∧ vm'.scriptIdx = vm.scriptIdx ∧
        vm.tokenizer.offset < vm'.tokenizer.offset) ∨
      (vm'.scriptIdx = vm.scriptIdx + 1 ∧ vm'.tokenizer.offset = 0 ∧
        ∃ extra : List Bytes, vm'.scripts = vm.scripts ++ extra) := by
  obtain ⟨t, vm1, hn, hex, hcase⟩ := Engine.step_of_not_failed h (by simp)
  obtain ⟨hs, hidx, ht, hb, -⟩ := Engine.executeOpcode_frame hex
  dsimp only at hs hidx ht hb
  rcases hcase with ⟨-, hr⟩ | ⟨-, hr⟩
  · cases hr
    exact .inl ⟨hs, hidx, by rw [ht]; exact (next_progress hn).2.1⟩
  obtain ⟨-, ⟨h', -⟩ | ⟨vm4, hadv, hent⟩⟩ := Engine.endScript_of_not_failed hr.symm (by simp)
  · cases h'
  obtain ⟨-, -, hlen, -⟩ := advanceScript_shape hadv
    (by simpa only [ScriptsShape, hs, hidx, hb] using hi.scripts_shape)
    (by simpa only [hs] using hi.scripts_parse)
  obtain ⟨script, -, -, rfl⟩ := Engine.enterScript_next hlen hent.symm
  rcases Engine.advanceScript_ok hadv with ⟨-, -, rfl⟩ | ⟨-, -, script', d, -, -, -, rfl⟩ | ⟨-, -, rfl⟩
  · exact .inr ⟨congrArg (· + 1) hidx, rfl, [], hs.trans (List.append_nil _).symm⟩
  · exact .inr ⟨congrArg (· + 1) hidx, rfl, [script'], congrArg (· ++ [script']) hs⟩
  · exact .inr ⟨congrArg (· + 1) hidx, rfl, [], hs.trans (List.append_nil _).symm⟩

theorem Engine.Inv.scripts_step {vm vm' : Engine} (hi : vm.Inv) (h : vm.step opfunc = .next vm') :
    ∃ extra : List Bytes, vm'.scripts = vm.scripts ++ extra := by
  rcases hi.step_next h with ⟨hs, -, -⟩ | ⟨-, -, he⟩
  · exact ⟨[], by rw [hs, List.append_nil]⟩
  · exact he

theorem Engine.Inv.consumed_lt {vm : Engine} (hi : vm.Inv) : vm.consumed < vm.scriptBytes := by
  have hs := length_flatten_take_succ hi.tokenizer_script
  have hle := length_flatten_take_le vm.scripts (vm.scriptIdx + 1)
  have := hi.tokenizer_unconsumed
  unfold Engine.consumed Engine.scriptBytes
  omega

theorem Engine.Inv.consumed_lt_step {vm vm' : Engine} (hi : vm.Inv) (h : vm.step opfunc = .next vm') :
    vm.consumed < vm'.consumed := by
  rcases hi.step_next h with ⟨hs, hidx, hoff⟩ | ⟨hidx, hoff, extra, hs⟩
  · simp only [Engine.consumed, hs, hidx]; omega
  · have hlt : vm.scriptIdx < vm.scripts.length := (List.getElem?_eq_some_iff.mp hi.tokenizer_script).1
    have hsum := length_flatten_take_succ hi.tokenizer_script
    have := hi.tokenizer_unconsumed
    simp only [Engine.consumed, hs, hidx, hoff,
      List.take_append_of_le_length (by omega : vm.scriptIdx + 1 ≤ vm.scripts.length)]
    omega

theorem Engine.Inv.measure_lt_step {vm vm' : Engine} (hi : vm.Inv) (h : vm.step opfunc = .next vm') :
    Prod.Lex (· < ·) (· < ·) (3 - vm'.scripts.length, vm'.scriptBytes - vm'.consumed)
      (3 - vm.scripts.length, vm.scriptBytes - vm.consumed) := by
  have hc := hi.consumed_lt_step h
  have hlt := hi.consumed_lt
  have hshape := (hi.step h).scripts_shape.1
  obtain ⟨extra, he⟩ := hi.scripts_step h
  rcases extra with _ | ⟨s, extra⟩
  · rw [List.append_nil] at he
    have hb : vm'.scriptBytes = vm.scriptBytes := by rw [Engine.scriptBytes, Engine.scriptBytes, he]
    rw [he, hb]
    exact .right _ (by omega)
  · refine .left _ _ ?_
    rw [he, List.length_append, List.length_cons] at hshape ⊢
    omega

theorem Engine.Inv.terminates {vm : Engine} (hi : vm.Inv) :
    ∃ n vm', StepsN opfunc n vm vm' ∧ ∀ v, vm'.step opfunc ≠ .next v := by
  by_cases hs : ∃ v, vm.step opfunc = .next v
  · obtain ⟨v, hv⟩ := hs
    obtain ⟨n, vm', hn, hstop⟩ := (hi.step hv).terminates
    exact ⟨n + 1, vm', .step hv hn, hstop⟩
  · exact ⟨0, vm, .refl vm, fun v hv => hs ⟨v, hv⟩⟩
termination_by (3 - vm.scripts.length, vm.scriptBytes - vm.consumed)
decreasing_by exact hi.measure_lt_step hv

theorem StepsN.consumed_le {n : Nat} {vm vm' : Engine} (h : StepsN opfunc n vm vm') :
    vm.Inv → vm'.Inv ∧ vm.consumed + n ≤ vm'.consumed ∧ ∃ extra, vm'.scripts = vm.scripts ++ extra := by
  induction h with
  | refl vm => exact fun hi => ⟨hi, le_refl _, [], by rw [List.append_nil]⟩
  | step hs _ ih =>
    intro hi
    obtain ⟨hi', hc, extra, he⟩ := ih (hi.step hs)
    obtain ⟨e1, h1⟩ := hi.scripts_step hs
    have := hi.consumed_lt_step hs
    exact ⟨hi', by omega, e1 ++ extra, by rw [he, h1, List.append_assoc]⟩

end Lemmas

/-- `Execute` ends on every engine `NewEngine` returns: after `n` calls of
`Step` returning `(false, nil)` the next one reports done, an error or a
panic, so the loop makes `n + 1` calls, no more than the bytes of the scripts
loaded by then: the signature script, the public key script and at most one
redeem script. -/
theorem execute_terminates (opfunc : UInt8 → Bytes → Engine → Except ErrorCode OpEffect)
    {scriptPubKey : Bytes} {tx : MsgTx} {txIdx : Int} {flags : UInt32} {vm0 : Engine}
    (h : newEngine scriptPubKey tx txIdx flags = .ok vm0) :
    ∃ n vm, StepsN opfunc n vm0 vm ∧ (∀ vm', vm.step opfunc ≠ .next vm') ∧
      (vm0.execute opfunc (n + 1)).isSome ∧
      ∃ scriptSig redeem, vm0.scripts = [scriptSig, scriptPubKey] ∧
        vm.scripts = [scriptSig, scriptPubKey] ++ redeem ∧ redeem.length ≤ 1 ∧
        n + 1 ≤ scriptSig.length + scriptPubKey.length + redeem.flatten.length := by
  have hi0 := (inv_of_newEngine h).1
  obtain ⟨scriptSig, hs0, -⟩ := newEngine_ok h
  obtain ⟨n, vm, hn, hstop⟩ := @Engine.Inv.terminates opfunc vm0 hi0
  obtain ⟨hi, hc, redeem, hs⟩ := hn.consumed_le hi0
  rw [hs0] at hs
  have hlt := hi.consumed_lt
  have hshape := hi.scripts_shape.1
  have hb : vm.scriptBytes = scriptSig.length + scriptPubKey.length + redeem.flatten.length := by
    rw [Engine.scriptBytes, hs, List.cons_append, List.cons_append, List.nil_append, List.flatten_cons,
      List.flatten_cons, List.length_append, List.length_append, Nat.add_assoc]
  rw [hs, List.length_append] at hshape
  refine ⟨n, vm, hn, hstop, ?_, scriptSig, redeem, hs0, hs, by simp only [List.length_cons] at hshape; omega,
    by omega⟩
  rw [Engine.execute_of_stepsN hn 1]
  exact Engine.execute_one_isSome hstop

theorem execute_terminates_emptySig :
    newEngine zeroScriptHashScript emptySigScriptTx 0 scriptBip16 = .ok emptySigScriptEngine ∧
      ∃ n vm, StepsN hash160Handlers n emptySigScriptEngine vm ∧
        (∀ vm', vm.step hash160Handlers ≠ .next vm') ∧
        (emptySigScriptEngine.execute hash160Handlers (n + 1)).isSome ∧
        ∃ scriptSig redeem, emptySigScriptEngine.scripts = [scriptSig, zeroScriptHashScript] ∧
          vm.scripts = [scriptSig, zeroScriptHashScript] ++ redeem ∧ redeem.length ≤ 1 ∧
          n + 1 ≤ scriptSig.length + zeroScriptHashScript.length + redeem.flatten.length :=
  have h : newEngine zeroScriptHashScript emptySigScriptTx 0 scriptBip16 = .ok emptySigScriptEngine := by
    with_unfolding_all rfl
  ⟨h, execute_terminates hash160Handlers h⟩

end RosettaThought.Txscript
