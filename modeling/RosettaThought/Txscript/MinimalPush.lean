import RosettaThought.Txscript.Engine

namespace RosettaThought.Txscript

/-- The element a push leaves on the stack (the handlers of `opcode.go` are
not in the source; as in btcsuite): `OP_0` and the data pushes their data,
`OP_1NEGATE` the script number -1 and `OP_1` .. `OP_16` their small integer;
`none` for an opcode that is not a push. -/
def pushedElement (tk : Token) : Option Bytes :=
  if tk.op ≤ opPushData4 then some tk.data
  else if tk.op = op1Negate then some [0x81]
  else if op1 ≤ tk.op ∧ tk.op ≤ op16 then some [tk.op - (op1 - 1)]
  else none

def Token.Fits (tk : Token) : Prop :=
  if opcodeLength tk.op < 0 then tk.data.length < 256 ^ (opcodeLength tk.op).natAbs
  else tk.data.length + 1 = opcodeLength tk.op

instance : DecidablePred Token.Fits := fun tk =>
  inferInstanceAs (Decidable (if opcodeLength tk.op < 0 then _ else _))

def IsShortestPush (tk : Token) (d : Bytes) : Prop :=
  tk.Fits ∧ pushedElement tk = some d ∧
    ∀ tk' : Token, tk'.Fits → pushedElement tk' = some d → tk.bytes.length ≤ tk'.bytes.length

def shortestPush (data : Bytes) : Token :=
  let dataLen := data.length
  if dataLen = 0 then ⟨op0, []⟩
  else if dataLen = 1 ∧ 1 ≤ data.headD 0 ∧ data.headD 0 ≤ 16 then ⟨op1 + data.headD 0 - 1, []⟩
  else if dataLen = 1 ∧ data.headD 0 = 0x81 then ⟨op1Negate, []⟩
  else if dataLen ≤ 75 then ⟨UInt8.ofNat dataLen, data⟩
  else if dataLen ≤ 255 then ⟨opPushData1, data⟩
  else if dataLen ≤ 65535 then ⟨opPushData2, data⟩
  else ⟨opPushData4, data⟩

theorem opcodeLength_of_toNat_le {op : UInt8} (h : op.toNat ≤ 75) : opcodeLength op = op.toNat + 1 := by
  by_cases h0 : op.toNat = 0
  · obtain rfl : op = op0 := UInt8.eq_iff_toNat_eq.mpr h0; rfl
  · exact opcodeLength_of_data (by omega) h

theorem toNat_smallIntPush {b : UInt8} (h1 : 1 ≤ b.toNat) (h16 : b.toNat ≤ 16) :
    (op1 + b - 1).toNat = b.toNat + 80 := by
  have hadd : (op1 + b).toNat = b.toNat + 81 := by
    rw [UInt8.toNat_add_mod, show op1.toNat = 81 from rfl]; omega
  rw [UInt8.toNat_sub_of_le _ _ (by rw [UInt8.le_iff_toNat_le, hadd]; simp), hadd]
  simp

@[simp] theorem toNat_op0 : op0.toNat = 0 := rfl
@[simp] theorem toNat_opPushData4 : opPushData4.toNat = 78 := rfl
@[simp] theorem toNat_op1Negate : op1Negate.toNat = 79 := rfl
@[simp] theorem toNat_op1 : op1.toNat = 81 := rfl
@[simp] theorem toNat_op16 : op16.toNat = 96 := rfl

theorem opcodeLength_pushData1 : opcodeLength opPushData1 = -1 := rfl
theorem opcodeLength_pushData2 : opcodeLength opPushData2 = -2 := rfl
theorem opcodeLength_pushData4 : opcodeLength opPushData4 = -4 := rfl

theorem opcodeLength_of_gt {op : UInt8} (h : ¬ op ≤ opPushData4) : opcodeLength op = 1 := by
  have hne : ∀ c : UInt8, c ≤ opPushData4 → op ≠ c := fun _ hc he => h (he ▸ hc)
  rw [opcodeLength, if_neg (hne op0 (by decide)),
    if_neg (show ¬ op ≤ opData75 from fun hle => h (Nat.le_trans hle (by decide))),
    if_neg (hne _ (by decide)), if_neg (hne _ (by decide)), if_neg (hne _ (Nat.le_refl _))]

theorem Token.fits_pushData_iff (k : Nat) {op : UInt8} (hk : opcodeLength op = -(k + 1 : Nat))
    {data : Bytes} : (⟨op, data⟩ : Token).Fits ↔ data.length < 256 ^ (k + 1) := by
  rw [Token.Fits, if_pos (show opcodeLength op < 0 by omega),
    show (opcodeLength op).natAbs = k + 1 by omega]

theorem Token.length_bytes_pushData (k : Nat) {op : UInt8} (hk : opcodeLength op = -(k + 1 : Nat))
    (data : Bytes) : (⟨op, data⟩ : Token).bytes.length = data.length + (k + 2) := by
  simp only [Token.bytes, if_pos (show opcodeLength op < 0 by omega),
    show (opcodeLength op).natAbs = k + 1 by omega, List.length_cons, List.length_append,
    length_natToLE]
  omega

theorem Token.fits_cases {tk : Token} (hop : tk.op ≤ opPushData4) (h : tk.Fits) :
    (tk.op.toNat = tk.data.length ∧ tk.data.length ≤ 75 ∧ tk.bytes.length = tk.data.length + 1) ∨
      (tk.op = opPushData1 ∧ tk.data.length < 256 ∧ tk.bytes.length = tk.data.length + 2) ∨
      (tk.op = opPushData2 ∧ tk.data.length < 65536 ∧ tk.bytes.length = tk.data.length + 3) ∨
      (tk.op = opPushData4 ∧ tk.data.length < 2 ^ 32 ∧ tk.bytes.length = tk.data.length + 5) := by
  obtain ⟨op, data⟩ := tk
  have hn : op.toNat ≤ 78 := by simpa [UInt8.le_iff_toNat_le, opPushData4] using hop
  rcases (by omega : op.toNat ≤ 75 ∨ op.toNat = 76 ∨ op.toNat = 77 ∨ op.toNat = 78) with
    h75 | h76 | h77 | h78
  · simp only [Token.Fits, Token.bytes] at h ⊢
    rw [opcodeLength_of_toNat_le h75] at h ⊢
    rw [if_neg (by omega)] at h ⊢
    exact .inl ⟨by omega, by omega, by simp⟩
  · obtain rfl : op = opPushData1 := UInt8.eq_iff_toNat_eq.mpr h76
    exact .inr (.inl ⟨rfl, (Token.fits_pushData_iff 0 opcodeLength_pushData1).mp h,
      Token.length_bytes_pushData 0 opcodeLength_pushData1 data⟩)
  · obtain rfl : op = opPushData2 := UInt8.eq_iff_toNat_eq.mpr h77
    exact .inr (.inr (.inl ⟨rfl, (Token.fits_pushData_iff 1 opcodeLength_pushData2).mp h,
      Token.length_bytes_pushData 1 opcodeLength_pushData2 data⟩))
  · obtain rfl : op = opPushData4 := UInt8.eq_iff_toNat_eq.mpr h78
    exact .inr (.inr (.inr ⟨rfl, (Token.fits_pushData_iff 3 opcodeLength_pushData4).mp h,
      Token.length_bytes_pushData 3 opcodeLength_pushData4 data⟩))

theorem shortestPush_of_gt {tk : Token} {d : Bytes} (hop : ¬ tk.op ≤ opPushData4) (h : tk.Fits)
    (hp : pushedElement tk = some d) : tk.bytes.length = 1 ∧ shortestPush d = tk := by
  obtain ⟨op, data⟩ := tk
  have hl := opcodeLength_of_gt hop
  obtain rfl : data = [] := by simpa [Token.Fits, hl] using h
  have hn : 78 < op.toNat := by simpa [UInt8.le_iff_toNat_le, opPushData4] using hop
  refine ⟨by simp [Token.bytes, hl], ?_⟩
  simp only [pushedElement, if_neg hop] at hp
  split_ifs at hp with hneg hsmall <;> cases hp
  · subst hneg; decide
  · have hs : 81 ≤ op.toNat ∧ op.toNat ≤ 96 := by
      simpa [UInt8.le_iff_toNat_le, op1, op16] using hsmall
    have h80 : (op1 - 1 : UInt8).toNat = 80 := rfl
    have hb : (op - (op1 - 1)).toNat = op.toNat - 80 := by
      rw [UInt8.toNat_sub_of_le _ _ (by rw [UInt8.le_iff_toNat_le, h80]; omega), h80]
    rw [shortestPush, if_neg (by simp), if_pos ⟨rfl, by simp [UInt8.le_iff_toNat_le, hb]; omega⟩]
    simp only [List.headD_cons, Token.mk.injEq, and_true]
    rw [UInt8.eq_iff_toNat_eq, toNat_smallIntPush (by simp [hb]; omega) (by simp [hb]; omega), hb]
    omega

theorem smallIntPush_fits {b : UInt8} (h1 : 1 ≤ b.toNat) (h16 : b.toNat ≤ 16) :
    ¬ op1 + b - 1 ≤ opPushData4 ∧ Token.Fits ⟨op1 + b - 1, []⟩ ∧
      pushedElement ⟨op1 + b - 1, []⟩ = some [b] := by
  have ht := toNat_smallIntPush h1 h16
  have hop : ¬ op1 + b - 1 ≤ opPushData4 := by
    rw [UInt8.le_iff_toNat_le, ht, toNat_opPushData4]; omega
  refine ⟨hop, by simp [Token.Fits, opcodeLength_of_gt hop], ?_⟩
  have h80 : (op1 - 1 : UInt8).toNat = 80 := rfl
  have hsub : op1 + b - 1 - (op1 - 1) = b := by
    rw [UInt8.eq_iff_toNat_eq, UInt8.toNat_sub_of_le _ _ (by rw [UInt8.le_iff_toNat_le, h80, ht]; omega),
      h80, ht]
    omega
  rw [pushedElement, if_neg hop, if_neg (by rw [UInt8.eq_iff_toNat_eq, ht, toNat_op1Negate]; omega),
    if_pos (by simp only [UInt8.le_iff_toNat_le, ht, toNat_op1, toNat_op16]; omega), hsub]

theorem shortestPush_cases (d : Bytes) :
    (d = [] ∧ shortestPush d = ⟨op0, []⟩) ∨
      (∃ b : UInt8, d = [b] ∧ 1 ≤ b.toNat ∧ b.toNat ≤ 16 ∧ shortestPush d = ⟨op1 + b - 1, []⟩) ∨
      (d = [0x81] ∧ shortestPush d = ⟨op1Negate, []⟩) ∨
      (1 ≤ d.length ∧ d.length ≤ 75 ∧ shortestPush d = ⟨UInt8.ofNat d.length, d⟩) ∨
      (75 < d.length ∧ d.length ≤ 255 ∧ shortestPush d = ⟨opPushData1, d⟩) ∨
      (255 < d.length ∧ d.length ≤ 65535 ∧ shortestPush d = ⟨opPushData2, d⟩) ∨
      (65535 < d.length ∧ shortestPush d = ⟨opPushData4, d⟩) := by
  rw [shortestPush]
  by_cases h0 : d.length = 0
  · rw [if_pos h0]; exact .inl ⟨List.length_eq_zero.mp h0, rfl⟩
  rw [if_neg h0]
  by_cases hs : d.length = 1 ∧ 1 ≤ d.headD 0 ∧ d.headD 0 ≤ 16
  · rw [if_pos hs]
    obtain ⟨b, rfl⟩ := List.length_eq_one.mp hs.1
    exact .inr (.inl ⟨b, rfl, hs.2.1, hs.2.2, rfl⟩)
  rw [if_neg hs]
  by_cases hneg : d.length = 1 ∧ d.headD 0 = 0x81
  · rw [if_pos hneg]
    obtain ⟨b, rfl⟩ := List.length_eq_one.mp hneg.1
    obtain rfl : b = 0x81 := hneg.2
    exact .inr (.inr (.inl ⟨rfl, rfl⟩))
  rw [if_neg hneg]
  refine .inr (.inr (.inr ?_))
  by_cases h75 : d.length ≤ 75
  · rw [if_pos h75]; exact .inl ⟨by omega, h75, rfl⟩
  rw [if_neg h75]
  by_cases h255 : d.length ≤ 255
  · rw [if_pos h255]; exact .inr (.inl ⟨by omega, h255, rfl⟩)
  rw [if_neg h255]
  by_cases h65535 : d.length ≤ 65535
  · rw [if_pos h65535]; exact .inr (.inr (.inl ⟨by omega, h65535, rfl⟩))
  rw [if_neg h65535]
  exact .inr (.inr (.inr ⟨by omega, rfl⟩))

theorem shortestPush_fits {d : Bytes} (h : d.length < 2 ^ 32) :
    (shortestPush d).Fits ∧ pushedElement (shortestPush d) = some d := by
  rcases shortestPush_cases d with ⟨rfl, hS⟩ | ⟨b, rfl, h1, h16, hS⟩ | ⟨rfl, hS⟩ | ⟨h1, h75, hS⟩ |
    ⟨-, h255, hS⟩ | ⟨-, h65535, hS⟩ | ⟨-, hS⟩ <;> rw [hS]
  · decide
  · exact (smallIntPush_fits h1 h16).2
  · decide
  · have hn : (UInt8.ofNat d.length).toNat = d.length := UInt8.toNat_ofNat_of_lt (by omega)
    have hop : UInt8.ofNat d.length ≤ opPushData4 := by
      rw [UInt8.le_iff_toNat_le, hn, toNat_opPushData4]; omega
    refine ⟨?_, by simp [pushedElement, hop]⟩
    rw [Token.Fits, opcodeLength_of_toNat_le (by rw [hn]; exact h75), hn, if_neg (by omega)]
  · exact ⟨(Token.fits_pushData_iff 0 opcodeLength_pushData1).mpr (by omega), rfl⟩
  · exact ⟨(Token.fits_pushData_iff 1 opcodeLength_pushData2).mpr (by omega), rfl⟩
  · exact ⟨(Token.fits_pushData_iff 3 opcodeLength_pushData4).mpr h, rfl⟩

theorem eq_shortestPush_or_lt {tk : Token} {d : Bytes} (h : tk.Fits) (hp : pushedElement tk = some d) :
    tk = shortestPush d ∨ (shortestPush d).bytes.length < tk.bytes.length := by
  by_cases hop : tk.op ≤ opPushData4
  swap
  · exact .inl (shortestPush_of_gt hop h hp).2.symm
  obtain rfl : tk.data = d := by simpa [pushedElement, hop] using hp
  have hk := Token.fits_cases hop h
  obtain ⟨op, d⟩ := tk
  dsimp only at hk ⊢
  have hd : 1 ≤ d.length → 2 ≤ (Token.bytes ⟨op, d⟩).length := by
    rcases hk with ⟨-, -, hl⟩ | ⟨-, -, hl⟩ | ⟨-, -, hl⟩ | ⟨-, -, hl⟩ <;> rw [hl] <;> omega
  rcases shortestPush_cases d with ⟨rfl, hS⟩ | ⟨b, rfl, h1, h16, hS⟩ | ⟨rfl, hS⟩ | ⟨h1, h75, hS⟩ |
    ⟨h76, -, hS⟩ | ⟨h256, -, hS⟩ | ⟨h65536, hS⟩ <;> rw [hS]
  · rcases hk with ⟨hn, -, -⟩ | ⟨-, -, hl⟩ | ⟨-, -, hl⟩ | ⟨-, -, hl⟩
    · left
      rw [Token.mk.injEq, UInt8.eq_iff_toNat_eq, toNat_op0]
      exact ⟨hn, rfl⟩
    all_goals right; rw [hl]; show 1 < _; omega
  · right
    have hS1 : (Token.bytes ⟨op1 + b - 1, []⟩).length = 1 := by
      simp [Token.bytes, opcodeLength_of_gt (smallIntPush_fits h1 h16).1]
    rw [hS1]
    exact hd (by simp)
  · right
    exact hd (by simp)
  · rcases hk with ⟨hn, -, -⟩ | ⟨-, -, hl⟩ | ⟨-, -, hl⟩ | ⟨-, -, hl⟩
    · left
      rw [Token.mk.injEq, UInt8.eq_iff_toNat_eq, UInt8.toNat_ofNat_of_lt (by omega)]
      exact ⟨hn, rfl⟩
    all_goals
      right
      rw [hl, Token.bytes, if_neg (by
        rw [opcodeLength_of_toNat_le (by rw [UInt8.toNat_ofNat_of_lt (by omega)]; omega)]; omega)]
      simp only [List.length_cons]
      omega
  · have hS2 := Token.length_bytes_pushData 0 opcodeLength_pushData1 d
    rcases hk with ⟨-, _, -⟩ | ⟨rfl, -, -⟩ | ⟨rfl, -, hl⟩ | ⟨rfl, -, hl⟩
    · omega
    · exact .inl rfl
    all_goals right; rw [hl, hS2]; omega
  · have hS3 := Token.length_bytes_pushData 1 opcodeLength_pushData2 d
    rcases hk with ⟨-, _, -⟩ | ⟨rfl, _, -⟩ | ⟨rfl, -, -⟩ | ⟨rfl, -, hl⟩
    · omega
    · omega
    · exact .inl rfl
    · right; rw [hl, hS3]; omega
  · rcases hk with ⟨-, _, -⟩ | ⟨rfl, _, -⟩ | ⟨rfl, _, -⟩ | ⟨rfl, -, -⟩
    · omega
    · omega
    · omega
    · exact .inl rfl

theorem checkMinimalDataPush_eq_ok_iff {tk : Token} (hop : tk.op ≤ opPushData4) (h : tk.Fits) :
    checkMinimalDataPush tk.op tk.data = .ok () ↔ shortestPush tk.data = tk := by
  have hk := Token.fits_cases hop h
  obtain ⟨op, d⟩ := tk
  have hn : op.toNat ≤ 78 := by simpa [UInt8.le_iff_toNat_le] using hop
  dsimp only at hk ⊢
  unfold checkMinimalDataPush shortestPush
  dsimp only
  by_cases h0 : d.length = 0
  · obtain rfl := List.length_eq_zero.mp h0
    by_cases hz : op = op0
    · subst hz; simp
    · simp [hz, Ne.symm hz]
  rw [if_neg (fun h' => h0 h'.1), if_neg h0]
  have hd : ∀ op', ({ op := op', data := [] } : Token) ≠ ⟨op, d⟩ := fun _ he =>
    h0 (by rw [← (Token.mk.inj he).2]; rfl)
  by_cases hs : d.length = 1 ∧ 1 ≤ d.headD 0 ∧ d.headD 0 ≤ 16
  · have ht := toNat_smallIntPush (b := d.headD 0) (by simpa [UInt8.le_iff_toNat_le] using hs.2.1)
      (by simpa [UInt8.le_iff_toNat_le] using hs.2.2)
    have hne : op ≠ op1 + d.headD 0 - 1 := fun he => by rw [he, ht] at hn; omega
    rw [if_pos hs, if_pos hs, if_pos hne]
    simp [hd]
  rw [if_neg hs, if_neg hs]
  by_cases hneg : d.length = 1 ∧ d.headD 0 = 0x81
  · have hne : op ≠ op1Negate := fun he => by rw [he, toNat_op1Negate] at hn; omega
    rw [if_pos hneg, if_pos hneg, if_pos hne]
    simp [hd]
  rw [if_neg hneg, if_neg hneg]
  by_cases h75 : d.length ≤ 75
  · rw [if_pos h75, if_pos h75, Token.mk.injEq, UInt8.eq_iff_toNat_eq,
      UInt8.toNat_ofNat_of_lt (by omega)]
    by_cases hc : op.toNat = d.length
    · simp [hc]
    · simp [hc]; omega
  rw [if_neg h75, if_neg h75]
  by_cases h255 : d.length ≤ 255
  · rw [if_pos h255, if_pos h255]
    by_cases hc : op = opPushData1 <;> simp [hc, eq_comm]
  rw [if_neg h255, if_neg h255]
  by_cases h65535 : d.length ≤ 65535
  · rw [if_pos h65535, if_pos h65535]
    by_cases hc : op = opPushData2 <;> simp [hc, eq_comm]
  rw [if_neg h65535, if_neg h65535]
  rcases hk with ⟨-, _, -⟩ | ⟨-, _, -⟩ | ⟨-, _, -⟩ | ⟨rfl, -, -⟩
  any_goals omega
  simp

theorem ite_ok_or_error {c : Prop} [Decidable c] {a b : Except ErrorCode Unit}
    (ha : a = .ok () ∨ a = .error .errMinimalData) (hb : b = .ok () ∨ b = .error .errMinimalData) :
    (if c then a else b) = .ok () ∨ (if c then a else b) = .error .errMinimalData := by
  split <;> assumption

theorem checkMinimalDataPush_ok_or_error (op : UInt8) (data : Bytes) :
    checkMinimalDataPush op data = .ok () ∨ checkMinimalDataPush op data = .error .errMinimalData := by
  unfold checkMinimalDataPush
  dsimp only
  repeat (first | apply ite_ok_or_error | exact .inl rfl | exact .inr rfl)

theorem length_lt_of_pushedElement {tk : Token} {d : Bytes} (h : tk.Fits)
    (hp : pushedElement tk = some d) : d.length < 2 ^ 32 := by
  by_cases hop : tk.op ≤ opPushData4
  · obtain rfl : tk.data = d := by simpa [pushedElement, hop] using hp
    rcases Token.fits_cases hop h with ⟨-, h', -⟩ | ⟨-, h', -⟩ | ⟨-, h', -⟩ | ⟨-, h', -⟩ <;> omega
  · simp only [pushedElement, if_neg hop] at hp
    split_ifs at hp <;> cases hp <;> simp

theorem isShortestPush_iff {tk : Token} {d : Bytes} (h : tk.Fits) (hp : pushedElement tk = some d) :
    IsShortestPush tk d ↔ tk = shortestPush d := by
  constructor
  · rintro ⟨-, -, hmin⟩
    have hS := shortestPush_fits (length_lt_of_pushedElement h hp)
    rcases eq_shortestPush_or_lt h hp with he | hlt
    · exact he
    · exact absurd (hmin _ hS.1 hS.2) (by omega)
  · rintro rfl
    refine ⟨h, hp, fun tk' h' hp' => ?_⟩
    rcases eq_shortestPush_or_lt h' hp' with rfl | hlt
    · exact le_rfl
    · exact hlt.le

theorem toNat_le_of_pushedElement {tk : Token} {d : Bytes} (hp : pushedElement tk = some d) :
    tk.op.toNat ≤ 96 := by
  unfold pushedElement at hp
  split_ifs at hp with h1 h2 h3
  · simp only [UInt8.le_iff_toNat_le, toNat_opPushData4] at h1; omega
  · rw [h2, toNat_op1Negate]; omega
  · simpa [UInt8.le_iff_toNat_le] using h3.2

section Execute

variable (opfunc : UInt8 → Bytes → Engine → Except ErrorCode OpEffect)

theorem executeOpcode_push {vm : Engine} {tk : Token} {d : Bytes} (hp : pushedElement tk = some d)
    (hsize : tk.data.length ≤ maxScriptElementSize) (hm : vm.dstack.verifyMinimalData = true)
    (hb : vm.isBranchExecuting = true) :
    ((tk.op ≤ opPushData4 → checkMinimalDataPush tk.op tk.data = .ok ()) →
        vm.executeOpcode opfunc tk.op tk.data = (opfunc tk.op tk.data vm).map vm.applyEffect) ∧
      ∀ e, tk.op ≤ opPushData4 → checkMinimalDataPush tk.op tk.data = .error e →
        vm.executeOpcode opfunc tk.op tk.data = .error e := by
  have hn := toNat_le_of_pushedElement hp
  have hdis : isOpcodeDisabled tk.op = false := by
    simp only [isOpcodeDisabled, List.contains_cons, List.contains_nil, Bool.or_false,
      Bool.or_eq_false_iff, beq_eq_false_iff_ne, ne_eq, UInt8.eq_iff_toNat_eq, opCat, opSubStr, opLeft,
      opRight, opInvert, opAnd, opOr, opXor, op2Mul, op2Div, opMul, opDiv, opMod, opLShift, opRShift,
      UInt8.toNat_lit]
    omega
  have hill : isOpcodeAlwaysIllegal tk.op = false := by
    simp only [isOpcodeAlwaysIllegal, Bool.or_eq_false_iff, beq_eq_false_iff_ne, ne_eq,
      UInt8.eq_iff_toNat_eq, opVerIf, opVerNotIf, UInt8.toNat_lit]
    omega
  rw [Engine.executeOpcode, if_neg (by simp [hdis]), if_neg (by simp [hill]), if_neg (by omega),
    if_neg (by simp [hb])]
  dsimp only
  by_cases hop : tk.op ≤ opPushData4
  · rw [if_pos (by simp [hm, hb, hop])]
    exact ⟨fun hok => by rw [hok hop], fun e _ he => by rw [he]⟩
  · rw [if_neg (by simp [hop])]
    exact ⟨fun _ => rfl, fun _ h => absurd h hop⟩

end Execute

/-- On every push up to `OP_PUSHDATA4` and every data it can carry,
`checkMinimalDataPush` accepts exactly the shortest push of that element.  The
shortest push of an element is unique and exists for every element a push can
carry, so in an executing branch under `ScriptVerifyMinimalData`
`executeOpcode` hands a push of an element within the size limit to its
handler when it is the shortest push of the element, and fails with
`ErrMinimalData` otherwise. -/
theorem checkMinimalDataPush_shortest :
    (∀ tk : Token, tk.op ≤ opPushData4 → tk.Fits →
      (checkMinimalDataPush tk.op tk.data = .ok () ↔ IsShortestPush tk tk.data)) ∧
      (∀ (d : Bytes) (tk tk' : Token), IsShortestPush tk d → IsShortestPush tk' d → tk = tk') ∧
      (∀ d : Bytes, d.length < 2 ^ 32 → ∃ tk, IsShortestPush tk d) ∧
      ∀ (opfunc : UInt8 → Bytes → Engine → Except ErrorCode OpEffect) (vm : Engine),
        vm.dstack.verifyMinimalData = true → vm.isBranchExecuting = true →
        ∀ (tk : Token) (d : Bytes), tk.Fits → pushedElement tk = some d →
          d.length ≤ maxScriptElementSize →
          (IsShortestPush tk d →
              vm.executeOpcode opfunc tk.op tk.data = (opfunc tk.op tk.data vm).map vm.applyEffect) ∧
            (¬ IsShortestPush tk d → vm.executeOpcode opfunc tk.op tk.data = .error .errMinimalData) := by
  have hcheck : ∀ tk : Token, tk.op ≤ opPushData4 → tk.Fits →
      (checkMinimalDataPush tk.op tk.data = .ok () ↔ IsShortestPush tk tk.data) := fun tk hop h => by
    rw [checkMinimalDataPush_eq_ok_iff hop h, isShortestPush_iff h (by simp [pushedElement, hop]),
      eq_comm]
  refine ⟨hcheck, fun d tk tk' h h' => ?_, fun d hd => ?_, fun opfunc vm hm hb tk d h hp hsize => ?_⟩
  · rw [(isShortestPush_iff h.1 h.2.1).mp h, (isShortestPush_iff h'.1 h'.2.1).mp h']
  · have hS := shortestPush_fits hd
    exact ⟨_, (isShortestPush_iff hS.1 hS.2).mpr rfl⟩
  by_cases hop : tk.op ≤ opPushData4
  · obtain rfl : tk.data = d := by simpa [pushedElement, hop] using hp
    have hx := executeOpcode_push opfunc hp hsize hm hb
    refine ⟨fun hs => hx.1 fun _ => (hcheck tk hop h).mpr hs, fun hs => hx.2 _ hop ?_⟩
    rcases checkMinimalDataPush_ok_or_error tk.op tk.data with he | he
    · exact absurd ((hcheck tk hop h).mp he) hs
    · exact he
  · have hS := shortestPush_of_gt hop h hp
    have hnil : tk.data = [] := by simpa [Token.Fits, opcodeLength_of_gt hop] using h
    exact ⟨fun _ => (executeOpcode_push opfunc hp (by simp [hnil, maxScriptElementSize]) hm hb).1
      fun h' => absurd h' hop, fun hs => absurd ((isShortestPush_iff h hp).mpr hS.2.symm) hs⟩

example : shortestPush [0x10] = ⟨op16, []⟩ := by decide
example : shortestPush [0x11] = ⟨opData1, [0x11]⟩ := by decide
example : shortestPush [0x00] = ⟨opData1, [0x00]⟩ := by decide

end RosettaThought.Txscript
