import RosettaThought.Txscript.ScriptBuilder

namespace RosettaThought.Txscript

def maxScriptNumLen : Nat := 4

def cltvMaxScriptNumLen : Nat := 5

def checkMinimalDataEncoding (v : Bytes) : Except ErrorCode Unit :=
  if v.length = 0 then .ok () else
  if v.getD (v.length - 1) 0 &&& 0x7f = 0 ∧
      (v.length = 1 ∨ v.getD (v.length - 2) 0 &&& 0x80 = 0) then .error .errMinimalData
  else .ok ()

/-- `makeScriptNum`.  Go ORs the bytes in at shifts `0, 8, ..`, which is
`leToNat`; clearing the sign bit, which is set, subtracts it. -/
def makeScriptNum (v : Bytes) (requireMinimal : Bool) (scriptNumLen : Nat) :
    Except ErrorCode Int :=
  if v.length > scriptNumLen then .error .errNumberTooBig else
  match requireMinimal, checkMinimalDataEncoding v with
  | true, .error e => .error e
  | _, _ =>
    if v.length = 0 then .ok 0 else
    let result : Int := leToNat v
    if v.getD (v.length - 1) 0 &&& 0x80 ≠ 0 then .ok (-(result - 0x80 * 256 ^ (v.length - 1)))
    else .ok result

def scriptNumValue (v : Bytes) : Int :=
  match v.getLast? with
  | none => 0
  | some last =>
    let mag : Int := leToNat (v.dropLast ++ [last &&& 0x7f])
    if last.toNat < 128 then mag else -mag

theorem UInt8.ofNat_toNat' (b : UInt8) : UInt8.ofNat b.toNat = b :=
  UInt8.toNat.inj (UInt8.toNat_ofNat_of_lt (UInt8.toNat_lt b))

theorem UInt8.toNat_and_0x7f (b : UInt8) : (b &&& 0x7f).toNat = b.toNat % 128 := by
  rw [UInt8.toNat_and]
  exact Nat.and_pow_two_sub_one_eq_mod _ 7

theorem UInt8.and_0x80_eq_zero {b : UInt8} : b &&& 0x80 = 0 ↔ b.toNat < 128 := by
  have hlo : ∀ r : Fin 128, r.val &&& 128 = 0 := by decide
  have hhi : ∀ r : Fin 128, (r.val + 128) &&& 128 = 128 := by decide
  rw [UInt8.eq_iff_toNat_eq, UInt8.toNat_and]
  show b.toNat &&& 128 = 0 ↔ _
  by_cases h : b.toNat < 128
  · simpa [h] using hlo ⟨_, h⟩
  · have := hhi ⟨b.toNat - 128, by have := UInt8.toNat_lt b; omega⟩
    simp only [Nat.sub_add_cancel (Nat.le_of_not_lt h)] at this
    simp [this, h]

theorem UInt8.toNat_or_0x80 {b : UInt8} (h : b.toNat < 128) : (b ||| 0x80).toNat = b.toNat + 128 := by
  have hor : ∀ r : Fin 128, r.val ||| 128 = r.val + 128 := by decide
  exact (BitVec.toNat_or _ _).trans (hor ⟨_, h⟩)

theorem leToNat_append (l l' : Bytes) :
    leToNat (l ++ l') = leToNat l + 256 ^ l.length * leToNat l' := by
  induction l with
  | nil => simp [leToNat]
  | cons b l ih => rw [List.cons_append, leToNat, leToNat, ih, List.length_cons]; ring

theorem leToNat_concat (l : Bytes) (b : UInt8) :
    leToNat (l ++ [b]) = leToNat l + 256 ^ l.length * b.toNat := by
  simp [leToNat_append, leToNat]

theorem leToNat_eq_ofDigits (l : Bytes) : leToNat l = Nat.ofDigits 256 (l.map UInt8.toNat) := by
  induction l with
  | nil => rfl
  | cons b l ih => simp [leToNat, Nat.ofDigits_cons, ih]

theorem leToNat_digits (m : Nat) : leToNat ((Nat.digits 256 m).map UInt8.ofNat) = m := by
  have hid : (Nat.digits 256 m).map (UInt8.toNat ∘ UInt8.ofNat) = Nat.digits 256 m := by
    conv_rhs => rw [← List.map_id (Nat.digits 256 m)]
    exact List.map_congr_left fun d hd =>
      UInt8.toNat_ofNat_of_lt (Nat.digits_lt_base (by norm_num) hd)
  rw [leToNat_eq_ofDigits, List.map_map, hid, Nat.ofDigits_digits]

theorem digits_leToNat (init : Bytes) {b : UInt8} (hb : b ≠ 0) :
    (Nat.digits 256 (leToNat (init ++ [b]))).map UInt8.ofNat = init ++ [b] := by
  have hb' : b.toNat ≠ 0 := fun h => hb (UInt8.toNat.inj h)
  rw [leToNat_eq_ofDigits, Nat.digits_ofDigits 256 (by norm_num) _
    (fun l hl => by obtain ⟨a, -, rfl⟩ := List.mem_map.mp hl; exact UInt8.toNat_lt a) (by simpa using hb'), List.map_map]
  simp [Function.comp_def, UInt8.ofNat_toNat']

theorem leToNat_lt_of_concat (init : Bytes) {b : UInt8} (hb : b.toNat < 128) :
    leToNat (init ++ [b]) < 2 ^ (8 * init.length + 7) := by
  have h := leToNat_lt init
  have hm := Nat.mul_le_mul_left (256 ^ init.length) (show b.toNat ≤ 127 by omega)
  rw [leToNat_concat, pow_add, pow_mul]
  norm_num
  omega

theorem leToNat_concat_pos (init : Bytes) {b : UInt8} (hb : b.toNat ≠ 0) :
    0 < leToNat (init ++ [b]) := by
  rw [leToNat_concat]
  exact Nat.lt_of_lt_of_le (Nat.mul_pos (Nat.pos_pow_of_pos _ (by norm_num)) (Nat.pos_of_ne_zero hb))
    (Nat.le_add_left _ _)

@[simp] theorem scriptNumValue_nil : scriptNumValue [] = 0 := rfl

theorem scriptNumValue_concat (init : Bytes) (last : UInt8) :
    scriptNumValue (init ++ [last]) =
      if last.toNat < 128 then (leToNat (init ++ [last &&& 0x7f]) : Int)
      else -(leToNat (init ++ [last &&& 0x7f]) : Int) := by
  simp [scriptNumValue, List.getLast?_concat]

theorem getD_concat_last (l : Bytes) (b : UInt8) :
    (l ++ [b]).getD ((l ++ [b]).length - 1) 0 = b := by
  simp [List.getD_eq_getElem?_getD]

theorem getD_concat_prev (l : Bytes) (a b : UInt8) :
    (l ++ [a] ++ [b]).getD ((l ++ [a] ++ [b]).length - 2) 0 = a := by
  rw [List.getD_eq_getElem?_getD, List.append_assoc]
  simp only [List.singleton_append, List.length_append, List.length_cons, List.length_nil]
  rw [show l.length + (0 + 1 + 1) - 2 = l.length by omega, List.getElem?_append_right le_rfl]
  simp

theorem checkMinimalDataEncoding_concat (init : Bytes) (last : UInt8) :
    checkMinimalDataEncoding (init ++ [last]) = .ok () ↔
      last.toNat % 128 ≠ 0 ∨ ∃ prev, init.getLast? = some prev ∧ 128 ≤ prev.toNat := by
  have h7 : last &&& 0x7f = 0 ↔ last.toNat % 128 = 0 := by
    rw [UInt8.eq_iff_toNat_eq, UInt8.toNat_and_0x7f]; rfl
  unfold checkMinimalDataEncoding
  rw [if_neg (by simp), getD_concat_last]
  rcases List.eq_nil_or_concat init with rfl | ⟨init', prev, rfl⟩
  · simp [h7]
  · rw [List.concat_eq_append, getD_concat_prev]
    simp [h7, List.getLast?_concat, UInt8.and_0x80_eq_zero]
    omega

theorem makeScriptNum_value {v : Bytes} (hv : v ≠ []) :
    (if v.getD (v.length - 1) 0 &&& 0x80 ≠ 0 then
        (-((leToNat v : Int) - 0x80 * 256 ^ (v.length - 1)))
      else (leToNat v : Int)) = scriptNumValue v := by
  obtain ⟨init, last, rfl⟩ := (List.eq_nil_or_concat v).resolve_left hv
  have hm := leToNat_concat init (last &&& 0x7f)
  rw [UInt8.toNat_and_0x7f] at hm
  simp only [List.concat_eq_append, List.length_append, List.length_singleton,
    Nat.add_sub_cancel, List.getD_eq_getElem?_getD, List.getElem?_concat_length,
    Option.getD_some, ne_eq, UInt8.and_0x80_eq_zero, scriptNumValue_concat, hm,
    leToNat_concat]
  by_cases h : last.toNat < 128
  · simp [h, Nat.mod_eq_of_lt h]
  · have : last.toNat % 128 = last.toNat - 128 := by have := UInt8.toNat_lt last; omega
    simp only [h, not_false_eq_true, if_true, if_false, this]
    push_cast [Nat.cast_sub (Nat.le_of_not_lt h)]
    ring

theorem makeScriptNum_eq_ok {v : Bytes} {requireMinimal : Bool} {scriptNumLen : Nat} {n : Int} :
    makeScriptNum v requireMinimal scriptNumLen = .ok n ↔
      v.length ≤ scriptNumLen ∧ (requireMinimal → checkMinimalDataEncoding v = .ok ()) ∧
        scriptNumValue v = n := by
  unfold makeScriptNum
  by_cases hl : v.length > scriptNumLen
  · simp only [if_pos hl]; simp; omega
  rw [if_neg hl]
  have hval : (if v.length = 0 then (Except.ok 0 : Except ErrorCode Int) else
      if v.getD (v.length - 1) 0 &&& 0x80 ≠ 0 then
        .ok (-((leToNat v : Int) - 0x80 * 256 ^ (v.length - 1))) else .ok (leToNat v : Int)) =
      .ok (scriptNumValue v) := by
    by_cases h0 : v.length = 0
    · rw [if_pos h0, List.length_eq_zero.mp h0]; rfl
    · rw [if_neg h0, ← makeScriptNum_value (List.ne_nil_of_length_pos (Nat.pos_of_ne_zero h0))]
      split <;> rfl
  have hok : ∀ {x : Int}, (Except.ok x : Except ErrorCode Int) = .ok n ↔ x = n :=
    ⟨Except.ok.inj, congrArg _⟩
  rcases requireMinimal <;> rcases hc : checkMinimalDataEncoding v with e | ⟨⟩ <;>
    simp only [hval, hok] <;> simp [hl] <;> omega

theorem digits_concat {m : Nat} (hm : m ≠ 0) :
    ∃ init d, (Nat.digits 256 m).map UInt8.ofNat = init ++ [d] ∧ d ≠ 0 := by
  have hne : Nat.digits 256 m ≠ [] := Nat.digits_ne_nil_iff_ne_zero.mpr hm
  have hlast := Nat.getLast_digit_ne_zero 256 hm
  have hlt := Nat.digits_lt_base (by norm_num) (List.getLast_mem hne)
  refine ⟨_, _, by rw [← List.dropLast_append_getLast hne, List.map_append, List.map_singleton], ?_⟩
  intro h
  exact hlast (by simpa [UInt8.toNat_ofNat_of_lt hlt] using congrArg UInt8.toNat h)

theorem scriptNumBytes_of_digits {n : Int} {init : Bytes} {d : UInt8} (h0 : n ≠ 0)
    (h63 : n ≠ -2 ^ 63) (hd : (Nat.digits 256 n.natAbs).map UInt8.ofNat = init ++ [d]) :
    scriptNumBytes n = some (if 128 ≤ d.toNat then init ++ [d] ++ [if n < 0 then 0x80 else 0x00]
      else if n < 0 then init ++ [d ||| 0x80] else init ++ [d]) := by
  have hb : d &&& 0x80 ≠ 0 ↔ 128 ≤ d.toNat := by rw [ne_eq, UInt8.and_0x80_eq_zero]; omega
  simp only [scriptNumBytes, if_neg h0, if_neg h63, hd, List.getLastD_concat, hb,
    List.dropLast_concat]
  split_ifs <;> rfl

theorem scriptNumBytes_spec {n : Int} {v : Bytes} (h : scriptNumBytes n = some v) :
    checkMinimalDataEncoding v = .ok () ∧ scriptNumValue v = n := by
  by_cases h0 : n = 0
  · subst h0; cases h; exact ⟨rfl, rfl⟩
  have h63 : n ≠ -2 ^ 63 := by rintro rfl; cases h
  obtain ⟨init, d, hd, hd0⟩ := digits_concat (Int.natAbs_ne_zero.mpr h0)
  have hmag : leToNat (init ++ [d]) = n.natAbs := by rw [← hd, leToNat_digits]
  have hd0' : d.toNat ≠ 0 := fun h => hd0 (UInt8.toNat.inj h)
  have habs := Int.natAbs_eq n
  rw [scriptNumBytes_of_digits h0 h63 hd] at h
  cases h
  by_cases h128 : 128 ≤ d.toNat
  · -- the sign in a byte of its own
    have hs : ∀ s : UInt8, s.toNat % 128 = 0 → leToNat (init ++ [d] ++ [s &&& 0x7f]) = n.natAbs := by
      intro s hs
      rw [leToNat_concat, UInt8.toNat_and_0x7f, hs, hmag]; simp
    rw [if_pos h128]
    refine ⟨(checkMinimalDataEncoding_concat _ _).mpr (.inr ⟨d, List.getLast?_concat _, h128⟩), ?_⟩
    rw [scriptNumValue_concat]
    by_cases hn : n < 0
    · rw [if_pos hn, hs 0x80 rfl, if_neg (by decide)]; omega
    · rw [if_neg hn, hs 0x00 rfl, if_pos (by decide)]; omega
  · have hd' : d.toNat < 128 := by omega
    by_cases hn : n < 0
    · -- the sign in the top bit of the last digit
      have hor := UInt8.toNat_or_0x80 hd'
      have hc : (d ||| 0x80) &&& 0x7f = d := by
        apply UInt8.toNat.inj; rw [UInt8.toNat_and_0x7f, hor]; omega
      simp only [if_neg h128, if_pos hn]
      refine ⟨(checkMinimalDataEncoding_concat _ _).mpr (.inl (by omega)), ?_⟩
      rw [scriptNumValue_concat, hc, hmag, if_neg (by omega)]
      omega
    · have hc : d &&& 0x7f = d := by
        apply UInt8.toNat.inj; rw [UInt8.toNat_and_0x7f]; omega
      simp only [if_neg h128, if_neg hn]
      refine ⟨(checkMinimalDataEncoding_concat _ _).mpr (.inl (by omega)), ?_⟩
      rw [scriptNumValue_concat, hc, hmag, if_pos hd']
      omega

theorem scriptNumBytes_scriptNumValue {v : Bytes} (hmin : checkMinimalDataEncoding v = .ok ())
    (hlen : v.length ≤ 8) : scriptNumBytes (scriptNumValue v) = some v := by
  rcases List.eq_nil_or_concat v with rfl | ⟨init, last, rfl⟩
  · rfl
  rw [List.concat_eq_append] at hmin hlen ⊢
  have hc : (last &&& 0x7f).toNat = last.toNat % 128 := UInt8.toNat_and_0x7f last
  have hbound := leToNat_lt_of_concat init (b := last &&& 0x7f) (by omega)
  have h63 : 2 ^ (8 * init.length + 7) ≤ 2 ^ 63 :=
    Nat.pow_le_pow_right (by norm_num) (by simp at hlen; omega)
  have hlt := UInt8.toNat_lt last
  rw [scriptNumValue_concat]
  by_cases hc0 : last.toNat % 128 = 0
  · -- the sign in a byte of its own, after a digit with its top bit set
    obtain ⟨prev, hp, h128⟩ :=
      ((checkMinimalDataEncoding_concat init last).mp hmin).resolve_left (by omega)
    obtain ⟨init', rfl⟩ : ∃ init', init = init' ++ [prev] := by
      rcases List.eq_nil_or_concat init with rfl | ⟨init', p, rfl⟩
      · cases hp
      · simp only [List.concat_eq_append, List.getLast?_concat, Option.some.injEq] at hp
        exact ⟨init', by rw [hp, List.concat_eq_append]⟩
    have hmag : leToNat (init' ++ [prev] ++ [last &&& 0x7f]) = leToNat (init' ++ [prev]) := by
      rw [leToNat_concat, hc, hc0]; simp
    have hpos := leToNat_concat_pos init' (b := prev) (by omega)
    have hd := digits_leToNat init' (b := prev) (by rintro rfl; simp at h128)
    rw [hmag] at hbound ⊢
    by_cases hl : last.toNat < 128
    · have : last = 0x00 := UInt8.toNat.inj (by simp; omega)
      rw [if_pos hl, scriptNumBytes_of_digits (by omega) (by omega) (by simpa using hd),
        if_pos h128, if_neg (by omega), this]
    · have : last = 0x80 := UInt8.toNat.inj (by simp; omega)
      rw [if_neg hl, scriptNumBytes_of_digits (by omega) (by omega) (by simpa using hd),
        if_pos h128, if_pos (by omega), this]
  · -- the sign in the top bit of the last digit
    have hc7 : (last &&& 0x7f).toNat < 128 := by omega
    have hpos := leToNat_concat_pos init (b := last &&& 0x7f) (by omega)
    have hd := digits_leToNat init (b := last &&& 0x7f) (fun h => hc0 (by rw [← hc, h]; rfl))
    by_cases hl : last.toNat < 128
    · rw [if_pos hl, scriptNumBytes_of_digits (by omega) (by omega) (by simpa using hd),
        if_neg (by omega), if_neg (by omega)]
      congr 3
      exact UInt8.toNat.inj (by rw [hc]; omega)
    · rw [if_neg hl, scriptNumBytes_of_digits (by omega) (by omega) (by simpa using hd),
        if_neg (by omega), if_pos (by omega)]
      congr 3
      exact UInt8.toNat.inj (by rw [UInt8.toNat_or_0x80 hc7, hc]; omega)

theorem makeScriptNum_of_scriptNumBytes {v : Bytes} {scriptNumLen : Nat} {n : Int}
    (h : scriptNumBytes n = some v) (hl : v.length ≤ scriptNumLen) :
    makeScriptNum v true scriptNumLen = .ok n :=
  let ⟨hmin, hv⟩ := scriptNumBytes_spec h
  makeScriptNum_eq_ok.mpr ⟨hl, fun _ => hmin, hv⟩

/-- With minimal encoding required and at most 8 bytes allowed, `makeScriptNum`
accepts exactly the strings `scriptNum.Bytes` writes, each for the number it
was written for. -/
theorem makeScriptNum_iff_scriptNumBytes {v : Bytes} {scriptNumLen : Nat} {n : Int}
    (hk : scriptNumLen ≤ 8) :
    makeScriptNum v true scriptNumLen = .ok n ↔ scriptNumBytes n = some v ∧ v.length ≤ scriptNumLen := by
  refine ⟨fun h => ?_, fun ⟨h, hl⟩ => makeScriptNum_of_scriptNumBytes h hl⟩
  obtain ⟨hl, hmin, rfl⟩ := makeScriptNum_eq_ok.mp h
  exact ⟨scriptNumBytes_scriptNumValue (hmin rfl) (by omega), hl⟩

theorem makeScriptNum_iff_scriptNumBytes_four :
    4 ≤ 8 ∧ (makeScriptNum [0xff, 0x00] true 4 = .ok 255 ↔
      scriptNumBytes 255 = some [0xff, 0x00] ∧ [(0xff : UInt8), 0x00].length ≤ 4) :=
  ⟨by decide, makeScriptNum_iff_scriptNumBytes (by decide)⟩

theorem natAbs_scriptNumValue_concat (init : Bytes) (last : UInt8) :
    (scriptNumValue (init ++ [last])).natAbs = leToNat (init ++ [last &&& 0x7f]) := by
  rw [scriptNumValue_concat]; split <;> simp

theorem natAbs_scriptNumValue_lt (init : Bytes) (last : UInt8) :
    (scriptNumValue (init ++ [last])).natAbs < 2 ^ (8 * init.length + 7) := by
  rw [natAbs_scriptNumValue_concat]
  exact leToNat_lt_of_concat init (by rw [UInt8.toNat_and_0x7f]; omega)

theorem pow_le_natAbs_scriptNumValue {init : Bytes} {last : UInt8}
    (hmin : checkMinimalDataEncoding (init ++ [last]) = .ok ()) :
    2 ^ (8 * init.length - 1) ≤ (scriptNumValue (init ++ [last])).natAbs := by
  rw [natAbs_scriptNumValue_concat, leToNat_concat, UInt8.toNat_and_0x7f]
  have hpow : 2 ^ (8 * init.length - 1) ≤ 256 ^ init.length := by
    rw [show (256 : Nat) = 2 ^ 8 from rfl, ← pow_mul]
    exact Nat.pow_le_pow_right (by norm_num) (by omega)
  rcases (checkMinimalDataEncoding_concat init last).mp hmin with h | ⟨prev, hp, h128⟩
  · calc 2 ^ (8 * init.length - 1) ≤ 256 ^ init.length := hpow
      _ ≤ 256 ^ init.length * (last.toNat % 128) := Nat.le_mul_of_pos_right _ (by omega)
      _ ≤ _ := Nat.le_add_left _ _
  · rcases List.eq_nil_or_concat init with rfl | ⟨init', p, rfl⟩
    · cases hp
    rw [List.concat_eq_append] at hp ⊢
    simp only [List.getLast?_concat, Option.some.injEq] at hp
    subst hp
    have h : 2 ^ (8 * (init' ++ [p]).length - 1) = 256 ^ init'.length * 128 := by
      rw [List.length_append, List.length_singleton, show 8 * (init'.length + 1) - 1 =
        8 * init'.length + 7 by omega, pow_add, pow_mul]
      rfl
    rw [h, leToNat_concat]
    calc 256 ^ init'.length * 128 ≤ 256 ^ init'.length * p.toNat := Nat.mul_le_mul_left _ h128
      _ ≤ _ := by omega

theorem length_scriptNumBytes_le_iff {n : Int} {v : Bytes} (h : scriptNumBytes n = some v) (k : Nat) :
    v.length ≤ k ↔ n.natAbs < 2 ^ (8 * k - 1) := by
  obtain ⟨hmin, rfl⟩ := scriptNumBytes_spec h
  rcases List.eq_nil_or_concat v with rfl | ⟨init, last, rfl⟩
  · simp [Nat.pos_pow_of_pos]
  rw [List.concat_eq_append] at hmin ⊢
  have hlo := pow_le_natAbs_scriptNumValue hmin
  have hhi := natAbs_scriptNumValue_lt init last
  rw [List.length_append, List.length_singleton]
  constructor
  · intro hk
    exact hhi.trans_le (Nat.pow_le_pow_right (by norm_num) (by omega))
  · intro hk
    by_contra hk'
    have := Nat.pow_le_pow_right (show 0 < 2 by norm_num) (show 8 * k - 1 ≤ 8 * init.length - 1 by omega)
    omega

def int64Token (val : Int) : Token :=
  if val = 0 then ⟨op0, []⟩
  else if val = -1 ∨ (1 ≤ val ∧ val ≤ 16) then ⟨UInt8.ofNat (op1.toNat - 1 + val).toNat, []⟩
  else pushToken ((scriptNumBytes val).getD [])

theorem scriptNumBytes_isSome {val : Int} (hval : val.natAbs < 2 ^ 63) :
    ∃ v, scriptNumBytes val = some v ∧ v.length ≤ 8 := by
  have h63 : val ≠ -2 ^ 63 := by rintro rfl; simp at hval
  rcases hv : scriptNumBytes val with _ | v
  · by_cases h0 : val = 0
    · simp [scriptNumBytes, h0] at hv
    · obtain ⟨init, d, hd, -⟩ := digits_concat (Int.natAbs_ne_zero.mpr h0)
      rw [scriptNumBytes_of_digits h0 h63 hd] at hv; cases hv
  · exact ⟨v, rfl, (length_scriptNumBytes_le_iff hv 8).mpr hval⟩

theorem scriptNumBytes_ne_small {val : Int} {v : Bytes} (h : scriptNumBytes val = some v)
    (hval : ¬ (val = 0 ∨ val = -1 ∨ (1 ≤ val ∧ val ≤ 16))) :
    v ≠ [] ∧ ∀ x, v = [x] → 16 < x.toNat ∧ x ≠ 0x81 := by
  obtain ⟨-, rfl⟩ := scriptNumBytes_spec h
  refine ⟨by rintro rfl; simp at hval, fun x hx => ?_⟩
  subst hx
  have hv := scriptNumValue_concat [] x
  simp only [List.nil_append, leToNat_concat, List.length_nil, pow_zero, one_mul, leToNat,
    zero_add, UInt8.toNat_and_0x7f] at hv
  have hx := UInt8.toNat_lt x
  have h81 : x ≠ 0x81 := by rintro rfl; simp at hv; simp [hv] at hval
  refine ⟨?_, h81⟩
  by_cases h : x.toNat < 128
  · rw [if_pos h] at hv; push_cast at hv; omega
  · rw [if_neg h] at hv
    have : x.toNat ≠ 129 := fun h' => h81 (UInt8.toNat.inj h')
    push_cast at hv; omega

theorem opcodeLength_smallPush {val : Int} (hs : val = -1 ∨ (1 ≤ val ∧ val ≤ 16)) :
    opcodeLength (UInt8.ofNat (op1.toNat - 1 + val).toNat) = 1 := by
  have hop : (UInt8.ofNat (op1.toNat - 1 + val).toNat).toNat = (80 + val).toNat := by
    have : (op1.toNat : Int) - 1 + val = 80 + val := by simp [op1]
    rw [this, UInt8.toNat_ofNat_of_lt (by omega)]
  unfold opcodeLength
  simp only [op0, opData75, opPushData1, opPushData2, opPushData4, UInt8.eq_iff_toNat_eq,
    UInt8.le_iff_toNat_le, UInt8.toNat_lit, hop]
  omega

theorem int64Token_wf {val : Int} (hval : val.natAbs < 2 ^ 63) : (int64Token val).WF := by
  unfold int64Token
  split_ifs with h0 hs
  · decide
  · exact (Token.plain (opcodeLength_smallPush hs)).1
  · obtain ⟨v, hv, hl⟩ := scriptNumBytes_isSome hval
    rw [hv, Option.getD_some]
    exact pushToken_wf (by omega)

theorem ScriptBuilder.addInt64_mk {s : Bytes} {val : Int} (hroom : s.length + 13 ≤ maxScriptSize)
    (hval : val.natAbs < 2 ^ 63) :
    (⟨s, none⟩ : ScriptBuilder).addInt64 val = some ⟨s ++ (int64Token val).bytes, none⟩ := by
  rw [ScriptBuilder.addInt64, if_neg (by simp), if_neg (by simp only; omega)]
  unfold int64Token
  by_cases h0 : val = 0
  · rw [if_pos h0, if_pos h0]; rfl
  rw [if_neg h0, if_neg h0]
  by_cases hs : val = -1 ∨ (1 ≤ val ∧ val ≤ 16)
  · rw [if_pos hs, if_pos hs, (Token.plain (opcodeLength_smallPush hs)).2]
  rw [if_neg hs, if_neg hs]
  obtain ⟨v, hv, hlen⟩ := scriptNumBytes_isSome hval
  rw [hv, Option.map_some', Option.getD_some,
    ScriptBuilder.addData_mk (by omega) (by simp only [maxScriptElementSize]; omega)]

end RosettaThought.Txscript
