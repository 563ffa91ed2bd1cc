import RosettaThought.Txscript.Opcode
import Mathlib.Data.List.Infix

/-! The script tokenizer.  `tokenizer.go` is not in the source; it is modelled
as the btcsuite tokenizer this package is taken from, the one the source drives
through `MakeScriptTokenizer`, `Next`, `Done`, `Opcode`, `Data`, `ByteIndex`
and `Err`.  Offsets are unbounded naturals, so the `int32` arithmetic of the
Go code is modelled for scripts shorter than `2^31` bytes. -/

namespace RosettaThought.Txscript

/-- The state of a `ScriptTokenizer`: the script, the offset of the next
opcode, the opcode and data of the last one parsed and the parse error.  Before
the first successful `Next` the opcode is `OP_0` (Go: a `nil` pointer that no
modelled caller reads). -/
structure ScriptTokenizer where
  script : Bytes
  offset : Nat
  op : UInt8
  data : Bytes
  err : Option ErrorCode
  deriving DecidableEq, Repr

def makeScriptTokenizer (script : Bytes) : ScriptTokenizer :=
  ⟨script, 0, op0, [], none⟩

namespace ScriptTokenizer

def done (t : ScriptTokenizer) : Bool :=
  t.err.isSome || t.offset ≥ t.script.length

def next (t : ScriptTokenizer) : Bool × ScriptTokenizer :=
  if t.done then (false, t) else
  match t.script.drop t.offset with
  | [] => (false, t)
  | op :: rest =>
    let len := opcodeLength op
    if len = 1 then
      (true, { t with offset := t.offset + 1, op := op, data := [] })
    else if 1 < len then
      if (rest.length : Int) + 1 < len then (false, { t with err := some .errMalformedPush })
      else (true, { t with offset := t.offset + len.toNat, op := op,
                           data := rest.take (len.toNat - 1) })
    else if len < 0 then
      if rest.length < len.natAbs then (false, { t with err := some .errMalformedPush })
      else
        let dataLen := leToNat (rest.take len.natAbs)
        let payload := rest.drop len.natAbs
        -- `dataLen < 0` after the `int32` conversion of an `OP_PUSHDATA4` length
        if payload.length < dataLen ∨ 2 ^ 31 ≤ dataLen then
          (false, { t with err := some .errMalformedPush })
        else (true, { t with offset := t.offset + 1 + len.natAbs + dataLen, op := op,
                             data := payload.take dataLen })
    else (false, { t with err := some .errMalformedPush })

def rest (t : ScriptTokenizer) : Bytes := t.script.drop t.offset

end ScriptTokenizer

structure Token where
  op : UInt8
  data : Bytes
  deriving DecidableEq, Repr

namespace Token

def bytes (tk : Token) : Bytes :=
  if opcodeLength tk.op < 0 then
    tk.op :: (natToLE (opcodeLength tk.op).natAbs tk.data.length ++ tk.data)
  else tk.op :: tk.data

def WF (tk : Token) : Prop :=
  if opcodeLength tk.op < 0 then
    tk.data.length < 256 ^ (opcodeLength tk.op).natAbs ∧ tk.data.length < 2 ^ 31
  else tk.data.length + 1 = opcodeLength tk.op

instance : DecidablePred WF := fun tk =>
  inferInstanceAs (Decidable (if opcodeLength tk.op < 0 then _ else _))

theorem bytes_ne_nil (tk : Token) : tk.bytes ≠ [] := by
  unfold bytes; split <;> simp

end Token

def encodeAll (toks : List Token) : Bytes := toks.flatMap Token.bytes

@[simp] theorem encodeAll_nil : encodeAll [] = [] := rfl

@[simp] theorem encodeAll_cons (tk : Token) (toks : List Token) :
    encodeAll (tk :: toks) = tk.bytes ++ encodeAll toks := rfl

@[simp] theorem encodeAll_append (xs ys : List Token) :
    encodeAll (xs ++ ys) = encodeAll xs ++ encodeAll ys := List.flatMap_append _ _ _

namespace ScriptTokenizer

def token (t : ScriptTokenizer) : Token := ⟨t.op, t.data⟩

def advance (t : ScriptTokenizer) (tk : Token) : ScriptTokenizer :=
  { t with offset := t.offset + tk.bytes.length, op := tk.op, data := tk.data }

@[simp] theorem advance_script (t : ScriptTokenizer) (tk : Token) :
    (t.advance tk).script = t.script := rfl

@[simp] theorem advance_err (t : ScriptTokenizer) (tk : Token) :
    (t.advance tk).err = t.err := rfl

@[simp] theorem advance_token (t : ScriptTokenizer) (tk : Token) :
    (t.advance tk).token = tk := rfl

theorem rest_advance {t : ScriptTokenizer} {tk : Token} {r : Bytes}
    (h : t.rest = tk.bytes ++ r) : (t.advance tk).rest = r := by
  simp only [rest, advance] at h ⊢
  rw [← List.drop_drop, h, List.drop_left]

theorem not_done_of_rest {t : ScriptTokenizer} (he : t.err = none) (hr : t.rest ≠ []) :
    t.done = false := by
  simp only [done, he, Option.isSome_none, Bool.false_or, decide_eq_false_iff_not, not_le]
  simpa [rest] using hr

theorem next_encode {t : ScriptTokenizer} {tk : Token} {r : Bytes} (he : t.err = none)
    (hr : t.rest = tk.bytes ++ r) (hwf : tk.WF) : t.next = (true, t.advance tk) := by
  have hnd := not_done_of_rest he (by simp [hr, Token.bytes_ne_nil])
  simp only [rest] at hr
  rw [next, if_neg (by simp [hnd]), hr]
  obtain ⟨op, data⟩ := tk
  simp only [Token.bytes, Token.WF, advance] at hwf ⊢
  by_cases hneg : opcodeLength op < 0
  · simp only [hneg, if_true, List.cons_append, List.length_cons, List.length_append,
      length_natToLE] at hwf ⊢
    have h1 : opcodeLength op ≠ 1 := by omega
    have h2 : ¬ 1 < opcodeLength op := by omega
    simp only [h1, h2, hneg, if_false, if_true, List.append_assoc,
      List.take_left' (length_natToLE _ _), List.drop_left' (length_natToLE _ _),
      leToNat_natToLE _ _ hwf.1, List.length_append, length_natToLE, List.take_left]
    rw [if_neg (by omega), if_neg (by omega)]
    congr 2; omega
  · simp only [hneg, if_false, List.cons_append, List.length_cons] at hwf ⊢
    by_cases h1 : opcodeLength op = 1
    · have : data = [] := by rw [← List.length_eq_zero]; omega
      simp [h1, this]
    · have h2 : 1 < opcodeLength op := by omega
      have hd : (opcodeLength op).toNat - 1 = data.length := by omega
      simp only [h1, h2, if_false, if_true, List.length_append, hd, List.take_left']
      rw [if_neg (by push_cast; omega)]
      congr 2; omega

theorem next_cases (t : ScriptTokenizer) :
    (t.done = true ∧ t.next = (false, t)) ∨
      t.next = (false, { t with err := some .errMalformedPush }) ∨
      ∃ tk, tk.WF ∧ t.err = none ∧ t.rest = tk.bytes ++ (t.advance tk).rest ∧
        t.next = (true, t.advance tk) := by
  by_cases hnd : t.done
  · exact .inl ⟨hnd, by rw [next, if_pos hnd]⟩
  have he : t.err = none := (by simpa [done] using hnd : _ ∧ _).1
  suffices h : t.next = (false, { t with err := some .errMalformedPush }) ∨
      ∃ (tk : Token) (r : Bytes), tk.WF ∧ t.rest = tk.bytes ++ r by
    rcases h with h | ⟨tk, r, hwf, hr⟩
    · exact .inr (.inl h)
    · exact .inr (.inr ⟨tk, hwf, he, by rw [rest_advance hr]; exact hr, next_encode he hr hwf⟩)
  rw [next, if_neg hnd, rest]
  rcases hdrop : t.script.drop t.offset with _ | ⟨op, rest'⟩
  · simp only [done, he, Option.isSome_none, Bool.false_or, decide_eq_true_eq] at hnd
    rw [List.drop_eq_nil_iff] at hdrop
    omega
  dsimp only
  by_cases h1 : opcodeLength op = 1
  · exact .inr ⟨⟨op, []⟩, rest', by simp [Token.WF, h1], by simp [Token.bytes, h1]⟩
  rw [if_neg h1]
  by_cases h2 : 1 < opcodeLength op
  · rw [if_pos h2]
    by_cases h3 : (rest'.length : Int) + 1 < opcodeLength op
    · exact .inl (by rw [if_pos h3])
    refine .inr ⟨⟨op, rest'.take ((opcodeLength op).toNat - 1)⟩,
      rest'.drop ((opcodeLength op).toNat - 1), ?_, ?_⟩
    · simp only [Token.WF, show ¬ opcodeLength op < 0 by omega, if_false, List.length_take]
      omega
    · simp [Token.bytes, show ¬ opcodeLength op < 0 by omega]
  rw [if_neg h2]
  by_cases h4 : opcodeLength op < 0
  swap
  · exact .inl (by rw [if_neg h4])
  rw [if_pos h4]
  by_cases h5 : rest'.length < (opcodeLength op).natAbs
  · exact .inl (by rw [if_pos h5])
  rw [if_neg h5]
  split
  · exact .inl rfl
  have hw : (rest'.take (opcodeLength op).natAbs).length = (opcodeLength op).natAbs := by
    simp only [List.length_take]; omega
  have hlt := leToNat_lt (rest'.take (opcodeLength op).natAbs)
  rw [hw] at hlt
  set n := leToNat (rest'.take (opcodeLength op).natAbs)
  have hd : ((rest'.drop (opcodeLength op).natAbs).take n).length = n := by
    simp only [List.length_take]; omega
  refine .inr ⟨⟨op, (rest'.drop (opcodeLength op).natAbs).take n⟩,
    (rest'.drop (opcodeLength op).natAbs).drop n, ?_, ?_⟩
  · simp only [Token.WF, h4, if_true, hd]; omega
  · have hnl := natToLE_leToNat (rest'.take (opcodeLength op).natAbs)
    rw [hw] at hnl
    simp [Token.bytes, h4, hd, hnl]

theorem next_true {t t' : ScriptTokenizer} (h : t.next = (true, t')) :
    ∃ tk, tk.WF ∧ t.err = none ∧ t.rest = tk.bytes ++ t'.rest ∧ t' = t.advance tk := by
  rcases next_cases t with ⟨-, hn⟩ | hn | ⟨tk, hwf, he, hr, hn⟩ <;> rw [hn] at h <;> cases h
  exact ⟨tk, hwf, he, hr, rfl⟩

theorem next_false {t t' : ScriptTokenizer} (h : t.next = (false, t')) :
    t'.script = t.script ∧ t'.offset = t.offset ∧ t'.done = true ∧
      (t.err = none → t'.err = none → t.rest = []) := by
  rcases next_cases t with ⟨hd, hn⟩ | hn | ⟨tk, -, -, -, hn⟩ <;> rw [hn] at h <;> cases h
  · exact ⟨rfl, rfl, hd, fun he _ => by simpa [done, he, rest] using hd⟩
  · exact ⟨rfl, rfl, rfl, fun _ => nofun⟩

theorem next_progress {t t' : ScriptTokenizer} (h : t.next = (true, t')) :
    t'.script = t.script ∧ t.offset < t'.offset ∧ t'.offset ≤ t.script.length := by
  obtain ⟨tk, -, -, hr, rfl⟩ := next_true h
  have hl := congrArg List.length hr
  have hb : 0 < tk.bytes.length := List.length_pos.mpr tk.bytes_ne_nil
  simp only [rest, List.length_drop, List.length_append] at hl
  refine ⟨rfl, ?_, ?_⟩ <;> simp only [advance] <;> omega

theorem next_of_rest_nil {t : ScriptTokenizer} (hr : t.rest = []) : t.next = (false, t) := by
  have : t.done = true := by simpa [done, rest] using Or.inr hr
  simp [next, this]

/-- The states `Next` passes through until it returns `false`, and the state it
stops in: the iterations of a Go `for tokenizer.Next() { ... }` loop. -/
def run (t : ScriptTokenizer) : List ScriptTokenizer × ScriptTokenizer :=
  match h : t.next with
  | (true, t') =>
    have := next_progress h
    let r := run t'
    (t' :: r.1, r.2)
  | (false, t') => ([], t')
termination_by t.script.length - t.offset
decreasing_by rw [this.1]; omega

theorem run_of_next_true {t t' : ScriptTokenizer} (h : t.next = (true, t')) :
    t.run = (t' :: t'.run.1, t'.run.2) := by
  rw [run.eq_1]; split <;> simp_all

theorem run_of_next_false {t t' : ScriptTokenizer} (h : t.next = (false, t')) :
    t.run = ([], t') := by
  rw [run.eq_1]; split <;> simp_all

theorem run_encode {t : ScriptTokenizer} {toks : List Token} (he : t.err = none)
    (hr : t.rest = encodeAll toks) (hwf : ∀ tk ∈ toks, tk.WF) :
    t.run.1.map token = toks ∧ t.run.2.err = none ∧ t.run.2.rest = [] := by
  induction toks generalizing t with
  | nil => rw [run_of_next_false (next_of_rest_nil hr)]; exact ⟨rfl, he, hr⟩
  | cons tk toks ih =>
    rw [encodeAll_cons] at hr
    rw [run_of_next_true (next_encode he hr (hwf tk (List.mem_cons_self _ _)))]
    obtain ⟨h1, h2, h3⟩ :=
      ih (t := t.advance tk) he (rest_advance hr) (fun x hx => hwf x (List.mem_cons_of_mem _ hx))
    exact ⟨by simp [h1], h2, h3⟩

theorem run_sound (t : ScriptTokenizer) (he : t.err = none) :
    t.rest = encodeAll (t.run.1.map token) ++ t.run.2.rest ∧ (∀ x ∈ t.run.1, x.token.WF) ∧
      t.run.2.script = t.script ∧ t.run.2.done = true ∧
      (t.run.2.err = none → t.run.2.rest = []) := by
  induction t using run.induct with
  | case1 t t' h _ ih =>
    obtain ⟨tk, hwf, -, hr, rfl⟩ := next_true h
    obtain ⟨h1, h2, h3, h4, h5⟩ := ih he
    rw [run_of_next_true h]
    refine ⟨by simpa [hr] using h1, ?_, h3, h4, h5⟩
    simpa [hwf] using h2
  | case2 t t' h =>
    obtain ⟨h1, h2, h3, h4⟩ := next_false h
    rw [run_of_next_false h]
    refine ⟨by simp [rest, h1, h2], by simp, h1, h3, fun he' => ?_⟩
    simpa [rest, h1, h2] using h4 he he'

theorem run_fst_eq_cons {t x : ScriptTokenizer} {xs : List ScriptTokenizer}
    (h : t.run.1 = x :: xs) : t.next = (true, x) ∧ x.run = (xs, t.run.2) := by
  rcases hn : t.next with ⟨_ | _, t'⟩
  · rw [run_of_next_false hn] at h; cases h
  · rw [run_of_next_true hn] at h ⊢
    obtain ⟨rfl, rfl⟩ := List.cons.inj h
    exact ⟨rfl, rfl⟩

theorem run_split {t s : ScriptTokenizer} {pre post : List ScriptTokenizer} (he : t.err = none)
    (h : t.run.1 = pre ++ s :: post) :
    t.rest = encodeAll ((pre ++ [s]).map token) ++ s.rest ∧ s.err = none ∧
      s.script = t.script ∧ s.run = (post, t.run.2) := by
  induction pre generalizing t with
  | nil =>
    obtain ⟨hn, hs⟩ := run_fst_eq_cons h
    obtain ⟨tk, -, -, hr, rfl⟩ := next_true hn
    exact ⟨by simpa using hr, he, rfl, hs⟩
  | cons x pre ih =>
    obtain ⟨hn, hx⟩ := run_fst_eq_cons h
    obtain ⟨tk, -, -, hr, rfl⟩ := next_true hn
    obtain ⟨h1, h2, h3, h4⟩ := ih (t := t.advance tk) he (by rw [hx]; rfl)
    refine ⟨by simp [hr, h1], h2, h3, by rw [h4, hx]⟩

end ScriptTokenizer

open ScriptTokenizer

@[simp] theorem makeScriptTokenizer_rest (script : Bytes) :
    (makeScriptTokenizer script).rest = script := rfl

@[simp] theorem makeScriptTokenizer_err (script : Bytes) :
    (makeScriptTokenizer script).err = none := rfl

def Tokenizes (script : Bytes) (toks : List Token) : Prop :=
  (∀ tk ∈ toks, tk.WF) ∧ encodeAll toks = script

theorem Tokenizes.run {script : Bytes} {toks : List Token} (h : Tokenizes script toks) :
    (makeScriptTokenizer script).run.1.map token = toks ∧
      (makeScriptTokenizer script).run.2.err = none :=
  let ⟨h1, h2, _⟩ := run_encode (t := makeScriptTokenizer script) rfl h.2.symm h.1
  ⟨h1, h2⟩

theorem Tokenizes.unique {script : Bytes} {a b : List Token} (ha : Tokenizes script a)
    (hb : Tokenizes script b) : a = b :=
  ha.run.1.symm.trans hb.run.1

theorem tokenizes_of_run {script : Bytes}
    (h : (makeScriptTokenizer script).run.2.err = none) :
    Tokenizes script ((makeScriptTokenizer script).run.1.map token) := by
  obtain ⟨h1, h2, -, -, h5⟩ := run_sound (makeScriptTokenizer script) rfl
  refine ⟨by simpa using h2, ?_⟩
  simpa [h5 h] using h1.symm

/-- The tokenizer loop reads a script to its end without error exactly when the
script is the encoding of a list of well-formed opcodes, and it then reads
back exactly that list: well-formed encodings are unambiguous. -/
theorem run_eq_iff_tokenizes (script : Bytes) (toks : List Token) :
    ((makeScriptTokenizer script).run.1.map token = toks ∧
        (makeScriptTokenizer script).run.2.err = none) ↔
      (∀ tk ∈ toks, tk.WF) ∧ encodeAll toks = script :=
  ⟨fun ⟨h1, h2⟩ => h1 ▸ tokenizes_of_run h2, Tokenizes.run⟩

/-- `checkScriptParses` (`script.go`, not in the source): tokenize to the end
and return the tokenizer's error. -/
def checkScriptParses (script : Bytes) : Except ErrorCode Unit :=
  match (makeScriptTokenizer script).run.2.err with
  | some e => .error e
  | none => .ok ()

theorem checkScriptParses_eq_ok {script : Bytes} :
    checkScriptParses script = .ok () ↔ ∃ toks, Tokenizes script toks := by
  unfold checkScriptParses
  constructor
  · intro h
    split at h
    · cases h
    · exact ⟨_, tokenizes_of_run ‹_›⟩
  · rintro ⟨toks, ht⟩
    rw [ht.run.2]

/-- `IsPushOnlyScript` (`script.go`, not in the source): every opcode up to
`OP_16` is a push, and the script must parse. -/
def isPushOnlyScript (script : Bytes) : Bool :=
  let r := (makeScriptTokenizer script).run
  if r.1.any (fun t => t.op > op16) then false else r.2.err.isNone

theorem isPushOnlyScript_iff {script : Bytes} :
    isPushOnlyScript script = true ↔
      ∃ toks, Tokenizes script toks ∧ ∀ tk ∈ toks, tk.op ≤ op16 := by
  unfold isPushOnlyScript
  dsimp only
  constructor
  · intro h
    split at h
    · cases h
    · rename_i hany
      have he : (makeScriptTokenizer script).run.2.err = none := by simpa using h
      refine ⟨_, tokenizes_of_run he, ?_⟩
      simpa [token] using hany
  · rintro ⟨toks, ht, hops⟩
    obtain ⟨h1, h2⟩ := ht.run
    subst h1
    simp only [List.mem_map] at hops
    have : ¬ (makeScriptTokenizer script).run.1.any (fun t => t.op > op16) := by
      simpa using fun x hx => hops _ ⟨x, hx, rfl⟩
    simp [this, h2]

def finalOpcodeData (script : Bytes) : Bytes :=
  if script.length = 0 then [] else
  let r := (makeScriptTokenizer script).run
  if r.2.err.isSome then [] else (r.1.getLast?.map ScriptTokenizer.data).getD []

theorem finalOpcodeData_of_tokenizes {script : Bytes} {toks : List Token} {tk : Token}
    (h : Tokenizes script (toks ++ [tk])) : finalOpcodeData script = tk.data := by
  obtain ⟨h1, h2⟩ := h.run
  have hne : script.length ≠ 0 := by
    rw [← h.2]; simp [Token.bytes_ne_nil]
  unfold finalOpcodeData
  dsimp only
  rw [if_neg hne, h2]
  have hl := congrArg List.getLast? h1
  cases hx : (makeScriptTokenizer script).run.1.getLast? with
  | none => simp [hx] at hl
  | some x =>
    have : x.token = tk := by simpa [List.getLast?_map, hx] using hl
    simp [← this, token]

/-- `removeOpcodeRaw` (`script.go`, not in the source): the bytes of the
opcodes other than `opcode`, from the first `opcode` on; the script itself when
no opcode is `opcode`. -/
def removeOpcodeRaw (script : Bytes) (opcode : UInt8) : Bytes :=
  if script.length = 0 then script else
  let step := fun (acc : Option Bytes × Nat) (t : ScriptTokenizer) =>
    if t.op = opcode then ((acc.1.orElse fun _ => some (script.take acc.2)), t.offset)
    else (acc.1.map (· ++ (script.drop acc.2).take (t.offset - acc.2)), t.offset)
  ((makeScriptTokenizer script).run.1.foldl step (none, 0)).1.getD script

/-- `isCanonicalPush` (`script.go`, not in the source): the push uses the
shortest opcode for its data. -/
def isCanonicalPush (opcode : UInt8) (data : Bytes) : Bool :=
  let dataLen := data.length
  if opcode > op16 then true
  else if opcode < opPushData1 ∧ opcode > op0 ∧ (dataLen = 1 ∧ data[0]?.getD 0 ≤ 16) then false
  else if opcode = opPushData1 ∧ dataLen < opPushData1.toNat then false
  else if opcode = opPushData2 ∧ dataLen ≤ 0xff then false
  else if opcode = opPushData4 ∧ dataLen ≤ 0xffff then false
  else true

/-- `removeOpcodeByData` (`script.go`, not in the source): the bytes of the
opcodes other than the canonical pushes whose data contains `dataToRemove`,
from the first such push on; the script itself when there is none. -/
def removeOpcodeByData (script dataToRemove : Bytes) : Bytes :=
  if script.length = 0 ∨ dataToRemove.length = 0 then script else
  let step := fun (acc : Option Bytes × Nat) (t : ScriptTokenizer) =>
    if isCanonicalPush t.op t.data ∧ dataToRemove <:+: t.data then
      ((acc.1.orElse fun _ => some (script.take acc.2)), t.offset)
    else (acc.1.map (· ++ (script.drop acc.2).take (t.offset - acc.2)), t.offset)
  ((makeScriptTokenizer script).run.1.foldl step (none, 0)).1.getD script

end RosettaThought.Txscript
