import ImageCatalog.Proofs.Value.Equality

set_option autoImplicit false

namespace ImageCatalog

def SameKey (m n : RecordId) : Prop :=
  m = n ∨ maxRecordId < m ∧ maxRecordId < n ∧ Binary64.ofUnsigned m = Binary64.ofUnsigned n

instance : DecidableRel SameKey := fun m n =>
  inferInstanceAs (Decidable (m = n ∨ maxRecordId < m ∧ maxRecordId < n ∧
    Binary64.ofUnsigned m = Binary64.ofUnsigned n))

namespace SameKey

theorem refl (n : RecordId) : SameKey n n := Or.inl rfl

theorem symm {m n : RecordId} (same : SameKey m n) : SameKey n m := by
  rcases same with rfl | ⟨past, past', word⟩
  · exact refl m
  · exact Or.inr ⟨past', past, word.symm⟩

theorem comm {m n : RecordId} : SameKey m n ↔ SameKey n m := ⟨symm, symm⟩

theorem eq_of_le {m n : RecordId} (bound : m ≤ maxRecordId) (same : SameKey m n) : m = n := by
  rcases same with rfl | ⟨past, -⟩
  · rfl
  · exact absurd past (UInt64.not_lt.2 bound)

theorem iff_eq {m n : RecordId} (bound : m ≤ maxRecordId) : SameKey m n ↔ m = n :=
  ⟨eq_of_le bound, fun same => Or.inl same⟩

end SameKey

namespace Value

theorem ofUInt64_of_le {n : RecordId} (bound : n ≤ maxRecordId) :
    ofUInt64 n = .int (Int64.ofNat n.toNat) := if_pos bound

private theorem ofUInt64_of_lt {n : RecordId} (past : maxRecordId < n) :
    ofUInt64 n = .float (Binary64.ofUnsigned n) := if_neg (UInt64.not_le.2 past)

private theorem digest_of_le {n : RecordId} (bound : n ≤ maxRecordId) :
    (ofUInt64 n).digest = [.int (Int64.ofNat n.toNat)] := by
  rw [ofUInt64_of_le bound, digest]

private theorem digest_of_lt {n : RecordId} (past : maxRecordId < n) :
    (ofUInt64 n).digest = [.float (Binary64.ofUnsigned n).bits] := by
  rw [ofUInt64_of_lt past, digest, Binary64.integer?_ofUnsigned past]

private theorem ofNat_toNat_inj {m n : RecordId} (small : m ≤ maxRecordId)
    (small' : n ≤ maxRecordId) (same : Int64.ofNat m.toNat = Int64.ofNat n.toNat) : m = n := by
  have below : m.toNat < 2 ^ 63 := Nat.lt_succ_of_le (UInt64.le_iff_toNat_le.1 small)
  have below' : n.toNat < 2 ^ 63 := Nat.lt_succ_of_le (UInt64.le_iff_toNat_le.1 small')
  have numbers := congrArg Int64.toInt same
  rw [Int64.toInt_ofNat_of_lt below, Int64.toInt_ofNat_of_lt below'] at numbers
  exact UInt64.toNat_inj.1 (Int.ofNat_inj.1 numbers)

private theorem sameKey_of_digest {m n : RecordId}
    (digests : (ofUInt64 m).digest = (ofUInt64 n).digest) : SameKey m n := by
  rcases UInt64.le_or_lt m maxRecordId with small | large <;>
    rcases UInt64.le_or_lt n maxRecordId with small' | large'
  · rw [digest_of_le small, digest_of_le small'] at digests
    simp only [List.cons.injEq, DigestWord.int.injEq, and_true] at digests
    exact Or.inl (ofNat_toNat_inj small small' digests)
  · rw [digest_of_le small, digest_of_lt large'] at digests
    simp at digests
  · rw [digest_of_lt large, digest_of_le small'] at digests
    simp at digests
  · rw [digest_of_lt large, digest_of_lt large'] at digests
    simp only [List.cons.injEq, DigestWord.float.injEq, and_true] at digests
    exact Or.inr ⟨large, large', congrArg Binary64.mk digests⟩

theorem answersFor_key (m n : RecordId) :
    (ofUInt64 m).answersFor (ofUInt64 n) = decide (SameKey m n) := by
  rw [Bool.eq_iff_iff, decide_eq_true_iff]
  constructor
  · exact fun answers => sameKey_of_digest (answersFor_iff.1 answers).1
  · rintro (rfl | ⟨past, past', word⟩)
    · exact answersFor_self _
    · rw [ofUInt64_of_lt past, ofUInt64_of_lt past', word]
      exact answersFor_self _

theorem answersFor_key? (m : Option RecordId) (n : RecordId) :
    (ofUInt64? m).answersFor (ofUInt64 n) = m.any fun m => SameKey m n := by
  cases m with
  | none =>
    have differ : (Value.null == ofUInt64 n) = false := by
      rw [ofUInt64]
      split <;> rfl
    rw [answersFor, ofUInt64?, Option.map_none, ofOption, differ, Bool.and_false, Option.any_none]
  | some m => exact answersFor_key m n

end Value

end ImageCatalog
