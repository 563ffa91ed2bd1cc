import RosettaThought.Txscript.Engine
import Mathlib.Data.Nat.Bitwise

namespace RosettaThought.Txscript

/-- `halfOrder`: `S256().N >> 1`, half the order of secp256k1.  The curve
package is not in the source; the order is written out. -/
def halfOrder : Nat := 0x7fffffffffffffffffffffffffffffff5d576e7357a4501ddfe92f46681b20a0

def beToNat (b : Bytes) : Nat := b.foldl (fun acc x => acc * 256 + x.toNat) 0

def asn1SequenceID : UInt8 := 0x30
def asn1IntegerID : UInt8 := 0x02
def minSigLen : Nat := 8
def maxSigLen : Nat := 72
def sequenceOffset : Nat := 0
def dataLenOffset : Nat := 1
def rTypeOffset : Nat := 2
def rLenOffset : Nat := 3
def rOffset : Nat := 4

/-- `checkSignatureEncoding`; it reads only `vm.flags`.  The padding tests
`rLen > 1 && sig[rOffset] == 0x00 && sig[rOffset+1]&0x80 == 0` short-circuit,
so `sig[rOffset+1]` is read only when the first two hold. -/
def checkSignatureEncoding (flags : UInt32) (sig : Bytes) : Option (Except ErrorCode Unit) :=
  if !hasFlag flags scriptVerifyDERSignatures && !hasFlag flags scriptVerifyLowS &&
      !hasFlag flags scriptVerifyStrictEncoding then some (.ok ()) else
  let sigLen := sig.length
  if sigLen < minSigLen then some (.error .errSigTooShort) else
  if sigLen > maxSigLen then some (.error .errSigTooLong) else
  sig[sequenceOffset]?.bind fun seqID =>
  if seqID ≠ asn1SequenceID then some (.error .errSigInvalidSeqID) else
  sig[dataLenOffset]?.bind fun dataLen =>
  if dataLen.toNat ≠ sigLen - 2 then some (.error .errSigInvalidDataLen) else
  sig[rLenOffset]?.bind fun rLenByte =>
  let rLen := rLenByte.toNat
  let sTypeOffset := rOffset + rLen
  let sLenOffset := sTypeOffset + 1
  if sTypeOffset ≥ sigLen then some (.error .errSigMissingSTypeID) else
  if sLenOffset ≥ sigLen then some (.error .errSigMissingSLen) else
  let sOffset := sLenOffset + 1
  sig[sLenOffset]?.bind fun sLenByte =>
  let sLen := sLenByte.toNat
  if sOffset + sLen ≠ sigLen then some (.error .errSigInvalidSLen) else
  sig[rTypeOffset]?.bind fun rType =>
  if rType ≠ asn1IntegerID then some (.error .errSigInvalidRIntID) else
  if rLen = 0 then some (.error .errSigZeroRLen) else
  sig[rOffset]?.bind fun r0 =>
  if r0 &&& 0x80 ≠ 0 then some (.error .errSigNegativeR) else
  (if rLen > 1 ∧ r0 = 0 then sig[rOffset + 1]?.map fun r1 => r1 &&& 0x80 == 0
    else some false).bind fun rPadded =>
  if rPadded then some (.error .errSigTooMuchRPadding) else
  sig[sTypeOffset]?.bind fun sType =>
  if sType ≠ asn1IntegerID then some (.error .errSigInvalidSIntID) else
  if sLen = 0 then some (.error .errSigZeroSLen) else
  sig[sOffset]?.bind fun s0 =>
  if s0 &&& 0x80 ≠ 0 then some (.error .errSigNegativeS) else
  (if sLen > 1 ∧ s0 = 0 then sig[sOffset + 1]?.map fun s1 => s1 &&& 0x80 == 0
    else some false).bind fun sPadded =>
  if sPadded then some (.error .errSigTooMuchSPadding) else
  if hasFlag flags scriptVerifyLowS ∧ beToNat ((sig.drop sOffset).take sLen) > halfOrder then
    some (.error .errSigHighS)
  else some (.ok ())

def isCanonicalInt : Bytes → Bool
  | [] => false
  | [r0] => r0 < 0x80
  | r0 :: r1 :: _ => r0 < 0x80 && (r0 != 0 || 0x80 ≤ r1)

/-- `0x30 ‖ [len(sig)-2] ‖ 0x02 ‖ [|R|] ‖ R ‖ 0x02 ‖ [|S|] ‖ S`, 8 to 72 bytes,
canonical integers, and `S ≤ halfOrder` when low S is required. -/
def StrictDER (lowS : Bool) (sig : Bytes) : Prop :=
  ∃ r s : Bytes,
    sig = [0x30, UInt8.ofNat (sig.length - 2), 0x02, UInt8.ofNat r.length] ++ r ++
      [0x02, UInt8.ofNat s.length] ++ s ∧
    8 ≤ sig.length ∧ sig.length ≤ 72 ∧ isCanonicalInt r = true ∧ isCanonicalInt s = true ∧
    (lowS = true → beToNat s ≤ halfOrder)

def StrictSigFlags (flags : UInt32) : Prop :=
  hasFlag flags scriptVerifyDERSignatures = true ∨ hasFlag flags scriptVerifyLowS = true ∨
    hasFlag flags scriptVerifyStrictEncoding = true

theorem StrictSigFlags.not_off {flags : UInt32} (h : StrictSigFlags flags) :
    ¬ (!hasFlag flags scriptVerifyDERSignatures && !hasFlag flags scriptVerifyLowS &&
      !hasFlag flags scriptVerifyStrictEncoding) = true := by
  rcases h with h | h | h <;> simp [h]

theorem UInt8.and_0x80_eq_zero_iff (b : UInt8) : b &&& 0x80 = 0 ↔ b < 0x80 := by
  have hb := UInt8.toNat_lt b
  rw [UInt8.eq_iff_toNat_eq, UInt8.toNat_and, UInt8.lt_iff_toNat_lt]
  simp only [UInt8.toNat_lit, Nat.reduceMod]
  rw [show (128 : Nat) = 2 ^ 7 from rfl, Nat.and_two_pow, Nat.testBit_to_div_mod]
  simp only [Nat.reducePow]
  by_cases h : b.toNat / 128 % 2 = 1 <;> simp [h] <;> omega

theorem UInt8.not_le_iff_lt {a b : UInt8} : ¬ a ≤ b ↔ b < a := by
  rw [UInt8.le_iff_toNat_le, UInt8.lt_iff_toNat_lt]; omega

theorem intChecks_ok {x y : Bytes} (hx : x ≠ []) (h0 : y[0]? = x[0]?)
    (h1 : 1 < x.length → y[1]? = x[1]?) (e1 e2 : ErrorCode) (k : Option (Except ErrorCode Unit)) :
    (y[0]?.bind fun x0 =>
      if x0 &&& 0x80 ≠ 0 then some (.error e1) else
      (if x.length > 1 ∧ x0 = 0 then y[1]?.map fun x1 => x1 &&& 0x80 == 0
        else some false).bind fun padded =>
      if padded then some (.error e2) else k) = some (.ok ()) ↔
      isCanonicalInt x = true ∧ k = some (.ok ()) := by
  rw [h0]
  match x, hx, h1 with
  | [x0], _, _ => simp [isCanonicalInt, UInt8.and_0x80_eq_zero_iff, ite_eq_iff, UInt8.not_le_iff_lt]
  | x0 :: x1 :: xs, _, h1 =>
    rw [h1 (by simp)]
    by_cases hz : x0 = 0 <;>
      simp [isCanonicalInt, hz, UInt8.and_0x80_eq_zero_iff, ite_eq_iff, UInt8.not_le_iff_lt]

theorem derParts_reads (a0 a1 a2 a3 e f : UInt8) (r s : Bytes) :
    let sig := a0 :: a1 :: a2 :: a3 :: (r ++ e :: f :: s)
    sig[0]? = some a0 ∧ sig[1]? = some a1 ∧ sig[2]? = some a2 ∧ sig[3]? = some a3 ∧
    sig[4]? = (r ++ e :: f :: s)[0]? ∧ sig[4 + 1]? = (r ++ e :: f :: s)[1]? ∧
    sig[4 + r.length]? = some e ∧ sig[4 + r.length + 1]? = some f ∧
    sig[4 + r.length + 1 + 1]? = s[0]? ∧ sig[4 + r.length + 1 + 1 + 1]? = s[1]? ∧
    sig.drop (4 + r.length + 1 + 1) = s ∧ sig.length = r.length + s.length + 6 := by
  have h4 : ∀ i, (a0 :: a1 :: a2 :: a3 :: (r ++ e :: f :: s))[4 + i]? = (r ++ e :: f :: s)[i]? :=
    fun i => by rw [show 4 + i = i + 1 + 1 + 1 + 1 by omega]; simp only [List.getElem?_cons_succ]
  have hL : ∀ i, (r ++ e :: f :: s)[r.length + i]? = (e :: f :: s)[i]? :=
    fun i => by rw [List.getElem?_append_right (by omega), Nat.add_sub_cancel_left]
  refine ⟨rfl, rfl, rfl, by simp, h4 0, h4 1, ?_, ?_, ?_, ?_, ?_, ?_⟩
  · rw [h4, ← Nat.add_zero r.length, hL]; rfl
  · rw [Nat.add_assoc, h4, hL]; simp
  · rw [Nat.add_assoc, Nat.add_assoc, h4, hL]; simp
  · rw [Nat.add_assoc, Nat.add_assoc, Nat.add_assoc, h4, hL]; simp
  · rw [show 4 + r.length + 1 + 1 = r.length + 2 + 1 + 1 + 1 + 1 by omega]
    simp only [List.drop_succ_cons, List.drop_append_eq_append_drop,
      List.drop_eq_nil_of_le (by omega : r.length ≤ r.length + 2)]
    simp
  · simp; omega

theorem checkSignatureEncoding_parts {flags : UInt32} (hF : StrictSigFlags flags)
    {a0 a1 a2 a3 e f : UInt8} {r s : Bytes} (hr : a3.toNat = r.length) (hs : f.toNat = s.length) :
    checkSignatureEncoding flags (a0 :: a1 :: a2 :: a3 :: (r ++ e :: f :: s)) = some (.ok ()) ↔
      8 ≤ r.length + s.length + 6 ∧ r.length + s.length + 6 ≤ 72 ∧ a0 = asn1SequenceID ∧
      a1.toNat = r.length + s.length + 4 ∧ a2 = asn1IntegerID ∧ isCanonicalInt r = true ∧
      e = asn1IntegerID ∧ isCanonicalInt s = true ∧
      (hasFlag flags scriptVerifyLowS = true → beToNat s ≤ halfOrder) := by
  obtain ⟨h0, h1, h2, h3, h4, h5, he, hf, hs0, hs1, hd, hl⟩ := derParts_reads a0 a1 a2 a3 e f r s
  simp only [checkSignatureEncoding, hF.not_off, if_false, rOffset, sequenceOffset, dataLenOffset,
    rLenOffset, rTypeOffset, h0, h1, h2, h3, h4, h5, hr, he, hf, hs0, hs1, hd, hl, hs,
    Option.some_bind, List.take_length]
  by_cases hrn : r = []
  · subst hrn
    simp [ite_eq_iff, isCanonicalInt]
  have hR := intChecks_ok hrn
    (@List.getElem?_append_left _ r (e :: f :: s) 0 (List.length_pos.mpr hrn))
    (@List.getElem?_append_left _ r (e :: f :: s) 1)
  have hlen : ¬ 4 + r.length ≥ r.length + s.length + 6 ∧
      ¬ 4 + r.length + 1 ≥ r.length + s.length + 6 ∧
      4 + r.length + 1 + 1 + s.length = r.length + s.length + 6 ∧
      r.length + s.length + 6 - 2 = r.length + s.length + 4 := by omega
  simp only [ite_eq_iff, hR, hlen, reduceCtorEq, Option.some.injEq, false_and, false_or, and_false,
    not_false_eq_true, true_and, ne_eq, not_not, List.length_eq_zero, hrn, minSigLen, maxSigLen,
    not_lt, gt_iff_lt, not_and]
  by_cases hsn : s = []
  · subst hsn
    simp [isCanonicalInt]
  simp only [intChecks_ok hsn rfl (fun _ => rfl), hsn, reduceCtorEq, Option.some.injEq, ite_eq_iff,
    false_and, false_or, and_false, not_false_eq_true, true_and, and_true, not_and, not_lt]

theorem isSome_bind_of {α β : Type} {o : Option α} {f : α → Option β} (ho : o.isSome)
    (hf : ∀ a, (f a).isSome) : (o.bind f).isSome := by
  obtain ⟨a, rfl⟩ := Option.isSome_iff_exists.mp ho
  exact hf a

theorem isSome_ite_some {α : Type} {c : Prop} [Decidable c] {a : α} {x : Option α}
    (h : ¬ c → x.isSome) : (if c then some a else x).isSome := by
  by_cases hc : c
  · rw [if_pos hc]; rfl
  · rw [if_neg hc]; exact h hc

theorem isSome_guarded_read {c : Prop} [Decidable c] {o : Option UInt8} (g : UInt8 → Bool)
    (h : c → o.isSome) : (if c then o.map g else some false).isSome := by
  by_cases hc : c
  · rw [if_pos hc, Option.isSome_map']; exact h hc
  · rw [if_neg hc]; rfl

theorem checkSignatureEncoding_isSome (flags : UInt32) (sig : Bytes) :
    (checkSignatureEncoding flags sig).isSome := by
  have hin : ∀ {i}, i < sig.length → sig[i]?.isSome := fun hi => by simp [hi]
  unfold checkSignatureEncoding
  dsimp only [minSigLen, maxSigLen, sequenceOffset, dataLenOffset, rLenOffset, rTypeOffset, rOffset]
  refine isSome_ite_some fun _ => isSome_ite_some fun _ => isSome_ite_some fun _ => ?_
  refine isSome_bind_of (hin (by omega)) fun _ => isSome_ite_some fun _ => ?_
  refine isSome_bind_of (hin (by omega)) fun _ => isSome_ite_some fun _ => ?_
  refine isSome_bind_of (hin (by omega)) fun _ => isSome_ite_some fun _ =>
    isSome_ite_some fun _ => ?_
  refine isSome_bind_of (hin (by omega)) fun _ => isSome_ite_some fun _ => ?_
  refine isSome_bind_of (hin (by omega)) fun _ => isSome_ite_some fun _ =>
    isSome_ite_some fun _ => ?_
  refine isSome_bind_of (hin (by omega)) fun _ => isSome_ite_some fun _ => ?_
  refine isSome_bind_of (isSome_guarded_read _ fun hc => hin (by have := hc.1; omega))
    fun _ => isSome_ite_some fun _ => ?_
  refine isSome_bind_of (hin (by omega)) fun _ => isSome_ite_some fun _ =>
    isSome_ite_some fun _ => ?_
  refine isSome_bind_of (hin (by omega)) fun _ => isSome_ite_some fun _ => ?_
  refine isSome_bind_of (isSome_guarded_read _ fun hc => hin (by have := hc.1; omega))
    fun _ => isSome_ite_some fun _ => isSome_ite_some fun _ => rfl

theorem ite_some_error_eq {c : Prop} [Decidable c] {e : ErrorCode}
    {x : Option (Except ErrorCode Unit)} (h : (if c then some (.error e) else x) = some (.ok ())) :
    ¬ c ∧ x = some (.ok ()) := by
  by_cases hc : c
  · rw [if_pos hc] at h; cases h
  · rw [if_neg hc] at h; exact ⟨hc, h⟩

theorem List.eq_take_append_cons_cons {α : Type} {l : List α} {n : Nat} (h : n + 1 < l.length) :
    l = l.take n ++ l[n] :: l[n + 1] :: l.drop (n + 2) := by
  conv_lhs => rw [← List.take_append_drop n l, List.drop_eq_getElem_cons (by omega),
    List.drop_eq_getElem_cons (by omega)]

theorem derParts_of_ok {flags : UInt32} (hF : StrictSigFlags flags) {sig : Bytes}
    (h : checkSignatureEncoding flags sig = some (.ok ())) :
    ∃ a0 a1 a2 a3 e f r s, sig = a0 :: a1 :: a2 :: a3 :: (r ++ e :: f :: s) ∧
      a3.toNat = r.length ∧ f.toNat = s.length := by
  unfold checkSignatureEncoding at h
  dsimp only [minSigLen, sequenceOffset, dataLenOffset, rLenOffset, rOffset] at h
  rw [if_neg hF.not_off] at h
  obtain ⟨h8, h⟩ := ite_some_error_eq h
  obtain ⟨-, h⟩ := ite_some_error_eq h
  obtain ⟨_, -, h⟩ := Option.bind_eq_some.mp h
  obtain ⟨-, h⟩ := ite_some_error_eq h
  obtain ⟨_, -, h⟩ := Option.bind_eq_some.mp h
  obtain ⟨-, h⟩ := ite_some_error_eq h
  obtain ⟨d, h3, h⟩ := Option.bind_eq_some.mp h
  obtain ⟨-, h⟩ := ite_some_error_eq h
  obtain ⟨hL, h⟩ := ite_some_error_eq h
  obtain ⟨f, h5, h⟩ := Option.bind_eq_some.mp h
  obtain ⟨hsum, -⟩ := ite_some_error_eq h
  rcases sig with _ | ⟨a0, _ | ⟨a1, _ | ⟨a2, _ | ⟨a3, rest⟩⟩⟩⟩ <;> simp only [List.length_cons,
    List.length_nil] at h8 <;> try omega
  obtain rfl : a3 = d := by simpa using h3
  simp only [List.length_cons] at hL hsum
  rw [show 4 + a3.toNat + 1 = a3.toNat + 1 + 1 + 1 + 1 + 1 by omega] at h5
  have hlt : a3.toNat + 1 < rest.length := by omega
  have hlt' : a3.toNat < rest.length := by omega
  simp only [List.getElem?_cons_succ, List.getElem?_eq_getElem hlt, Option.some.injEq] at h5
  refine ⟨a0, a1, a2, a3, rest[a3.toNat], f, rest.take a3.toNat, rest.drop (a3.toNat + 2), ?_, ?_,
    ?_⟩
  · rw [← h5, ← List.eq_take_append_cons_cons hlt]
  · simp only [List.length_take]; omega
  · simp only [List.length_drop]; omega

theorem UInt8.eq_ofNat_of_toNat_eq {a : UInt8} {n : Nat} (h : a.toNat = n) : a = UInt8.ofNat n :=
  UInt8.eq_iff_toNat_eq.mpr (by rw [UInt8.toNat_ofNat_of_lt (h ▸ UInt8.toNat_lt a)]; exact h)

/-- With any of the three strict flags set, `checkSignatureEncoding` reads only
inside the signature and accepts exactly the strict DER grammar. -/
theorem checkSignatureEncoding_strictDER {flags : UInt32} (hF : StrictSigFlags flags)
    (sig : Bytes) :
    (checkSignatureEncoding flags sig).isSome ∧
      (checkSignatureEncoding flags sig = some (.ok ()) ↔
        StrictDER (hasFlag flags scriptVerifyLowS) sig) := by
  refine ⟨checkSignatureEncoding_isSome flags sig, fun h => ?_, fun h => ?_⟩
  · obtain ⟨a0, a1, a2, a3, e, f, r, s, rfl, hr, hs⟩ := derParts_of_ok hF h
    obtain ⟨h8, h72, rfl, ha1, rfl, hR, rfl, hS, hlow⟩ := (checkSignatureEncoding_parts hF hr hs).mp h
    refine ⟨r, s, ?_, by simp only [List.length_cons, List.length_append]; omega,
      by simp only [List.length_cons, List.length_append]; omega, hR, hS, hlow⟩
    simp only [List.length_cons, List.length_append, UInt8.eq_ofNat_of_toNat_eq hr,
      UInt8.eq_ofNat_of_toNat_eq hs, UInt8.eq_ofNat_of_toNat_eq ha1, List.cons_append,
      List.append_assoc, List.singleton_append, List.nil_append]
    congr 2
  · obtain ⟨r, s, hsig, h8, h72, hR, hS, hlow⟩ := h
    have hn : sig.length = r.length + s.length + 6 := by
      conv_lhs => rw [hsig]
      simp; omega
    rw [hn] at hsig h8 h72
    subst hsig
    simp only [List.cons_append, List.append_assoc, List.singleton_append, List.nil_append]
    refine (checkSignatureEncoding_parts hF (UInt8.toNat_ofNat_of_lt (by omega))
      (UInt8.toNat_ofNat_of_lt (by omega))).mpr ⟨h8, h72, rfl, ?_, rfl, hR, rfl, hS, hlow⟩
    rw [UInt8.toNat_ofNat_of_lt (by omega)]; omega

def combineSignature : Bytes :=
  [0x30, 0x45, 0x02, 0x21, 0x00, 0x91, 0x27, 0xa2, 0xf7, 0x1c, 0x32, 0x5e, 0x47, 0xb4, 0x11, 0x9e,
    0x29, 0x8c, 0x5c, 0x48, 0x6a, 0x1b, 0xbf, 0x08, 0x33, 0xc4, 0x4f, 0xc4, 0x72, 0xca, 0x82,
    0x9a, 0xf6, 0x61, 0xef, 0x1e, 0x13, 0x02, 0x20, 0x64, 0xaf, 0xdc, 0x1c, 0x4d, 0x55, 0x44,
    0x67, 0x72, 0x2e, 0xfa, 0xb1, 0x05, 0xbc, 0xc4, 0xf7, 0xfa, 0xf0, 0xa9, 0x4c, 0xf5, 0x02,
    0x4f, 0xdf, 0xdd, 0x60, 0xaf, 0x93, 0xbf, 0x88, 0xcc, 0xc6]

example : checkSignatureEncoding scriptVerifyDERSignatures combineSignature = some (.ok ()) := by
  rfl

theorem checkSignatureEncoding_strictDER_combine :
    StrictSigFlags scriptVerifyDERSignatures ∧
      ((checkSignatureEncoding scriptVerifyDERSignatures combineSignature).isSome ∧
        (checkSignatureEncoding scriptVerifyDERSignatures combineSignature = some (.ok ()) ↔
          StrictDER (hasFlag scriptVerifyDERSignatures scriptVerifyLowS) combineSignature)) :=
  have hF : StrictSigFlags scriptVerifyDERSignatures := .inl (by decide)
  ⟨hF, checkSignatureEncoding_strictDER hF combineSignature⟩

end RosettaThought.Txscript
