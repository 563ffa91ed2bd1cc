import RosettaThought.Bytes
import Mathlib.Data.List.Nodup

namespace RosettaThought.Txscript

structure SigCacheEntry where
  sig : Bytes
  pubKey : Bytes
  deriving DecidableEq, Repr

/-- `SigCache`: the map `validSigs` from a signature hash to its entry, as a
list with one entry per hash, and `maxEntries`. -/
structure SigCache where
  validSigs : List (Bytes × SigCacheEntry)
  maxEntries : Nat
  nodup : (validSigs.map Prod.fst).Nodup

def newSigCache (maxEntries : Nat) : SigCache := ⟨[], maxEntries, List.nodup_nil⟩

theorem nodup_insert {l : List (Bytes × SigCacheEntry)} (h : (l.map Prod.fst).Nodup)
    (sigHash : Bytes) (entry : SigCacheEntry) :
    ((l.filter (·.1 != sigHash) ++ [(sigHash, entry)]).map Prod.fst).Nodup := by
  rw [List.map_append, List.nodup_append]
  refine ⟨h.sublist ((List.filter_sublist l).map _), List.nodup_singleton _, ?_⟩
  simp [List.disjoint_singleton]

def SigCache.exists (s : SigCache) (sigHash sig pubKey : Bytes) : Bool :=
  match s.validSigs.find? (·.1 == sigHash) with
  | some (_, entry) => entry.pubKey == pubKey && entry.sig == sig
  | none => false

namespace SigCache

/-- The entries `Add` keeps before it writes: all of them, or, when one more
would pass `maxEntries`, all but the one a `range` over the map yields first.
Go leaves that one unspecified: `victim` picks it, as a position. -/
def evict (s : SigCache) (victim : Nat) : List (Bytes × SigCacheEntry) :=
  if s.validSigs.length + 1 > s.maxEntries then s.validSigs.eraseIdx (victim % s.validSigs.length)
  else s.validSigs

theorem nodup_evict (s : SigCache) (victim : Nat) : ((s.evict victim).map Prod.fst).Nodup := by
  unfold evict
  split
  · exact s.nodup.sublist ((List.eraseIdx_sublist _ _).map _)
  · exact s.nodup

def add (s : SigCache) (victim : Nat) (sigHash sig pubKey : Bytes) : SigCache :=
  if s.maxEntries = 0 then s
  else ⟨(s.evict victim).filter (·.1 != sigHash) ++ [(sigHash, ⟨sig, pubKey⟩)], s.maxEntries,
    nodup_insert (s.nodup_evict victim) _ _⟩

theorem mem_of_exists {s : SigCache} {sigHash sig pubKey : Bytes}
    (h : s.exists sigHash sig pubKey = true) : (sigHash, ⟨sig, pubKey⟩) ∈ s.validSigs := by
  unfold SigCache.exists at h
  split at h
  · next k entry hf =>
    have hk : k = sigHash := by simpa using List.find?_some hf
    obtain ⟨hp, hs⟩ : entry.pubKey = pubKey ∧ entry.sig = sig := by simpa using h
    subst hk hp hs
    exact List.mem_of_find?_eq_some hf
  · cases h

theorem mem_add {s : SigCache} {victim : Nat} {sigHash sig pubKey k : Bytes} {e : SigCacheEntry}
    (h : (k, e) ∈ (s.add victim sigHash sig pubKey).validSigs) :
    (k, e) ∈ s.validSigs ∨ (k = sigHash ∧ e = ⟨sig, pubKey⟩) := by
  unfold add at h
  split at h
  · exact .inl h
  · rcases List.mem_append.mp h with h | h
    · refine .inl ?_
      have h := (List.mem_filter.mp h).1
      unfold evict at h
      split at h
      · exact (List.eraseIdx_sublist _ _).subset h
      · exact h
    · simp only [List.mem_singleton, Prod.mk.injEq] at h
      exact .inr h

@[simp] theorem maxEntries_add (s : SigCache) (victim : Nat) (sigHash sig pubKey : Bytes) :
    (s.add victim sigHash sig pubKey).maxEntries = s.maxEntries := by
  unfold add; split <;> rfl

theorem length_evict_le (s : SigCache) (victim : Nat) (h : s.validSigs.length ≤ s.maxEntries) :
    (s.evict victim).length + 1 ≤ s.maxEntries ∨ s.maxEntries = 0 := by
  unfold evict
  split
  · have hpos : 0 < s.validSigs.length ∨ s.maxEntries = 0 := by omega
    rcases hpos with hpos | hz
    · rw [List.length_eraseIdx_of_lt (Nat.mod_lt _ hpos)]
      omega
    · exact .inr hz
  · omega

theorem length_add_le {s : SigCache} (h : s.validSigs.length ≤ s.maxEntries) (victim : Nat)
    (sigHash sig pubKey : Bytes) :
    (s.add victim sigHash sig pubKey).validSigs.length ≤ s.maxEntries := by
  unfold add
  split
  · exact h
  · have := List.length_filter_le (·.1 != sigHash) (s.evict victim)
    have := s.length_evict_le victim h
    simp only [List.length_append, List.length_singleton]
    omega

end SigCache

end RosettaThought.Txscript
