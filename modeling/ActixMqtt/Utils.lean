import ActixMqtt.V3.Codec.Packet

/-!
# Utils — variable-length integers

The remaining length of an MQTT fixed header is one to four bytes of seven bits each, least
significant group first; the high bit of a byte says that another follows (§6 of the spec).
`decodeVariableLength` reads it from the front of a buffer, and `encodeVariableLength` is the
minimal encoding, the one a peer writes.

* `decodeVariableLength_encode`: the decoder reads back the minimal encoding of any value up
  to 268,435,455, whatever bytes follow it.
* `decodeVariableLength_append`: once the decoder has an answer, more bytes do not change it.
* `decodeVariableLength_consumed`: an answer reads at least one byte and no more than there are.
-/

namespace ActixMqtt

/-- Modelled from the spec: `utils::decode_variable_length`, which is not in the repository's
sources.  The `idx`-th byte adds its low seven bits times `128 ^ idx` to `acc`; a byte with a
clear high bit ends the integer, and a fourth byte with the high bit set is `InvalidLength`.  It
returns the value and the number of bytes read, or `None` when `src` ends first. -/
def decodeVariableLength (src : List UInt8) : Except DecodeError (Option (Nat × Nat)) :=
  go src 0 0
where
  /-- The loop over the bytes from the `idx`-th on, with `acc` the value so far. -/
  go : List UInt8 → Nat → Nat → Except DecodeError (Option (Nat × Nat))
  | [], _, _ => .ok none
  | b :: rest, idx, acc =>
    let acc := acc + b.toNat % 128 * 128 ^ idx
    if b.toNat < 128 then .ok (some (acc, idx + 1))
    else if idx = 3 then .error .invalidLength
    else go rest (idx + 1) acc

/-- The minimal variable-length encoding of `n` in at most `k` bytes. -/
def encodeVarLen : Nat → Nat → List UInt8
  | 0, _ => []
  | k + 1, n =>
    if n < 128 then [n.toUInt8] else (n % 128 + 128).toUInt8 :: encodeVarLen k (n / 128)

/-- The spec's minimal encoding of a remaining length, in one to four bytes. -/
def encodeVariableLength (n : Nat) : List UInt8 := encodeVarLen 4 n

theorem length_encodeVarLen_pos {k n : Nat} (hk : 0 < k) : 0 < (encodeVarLen k n).length := by
  obtain ⟨k, rfl⟩ := Nat.exists_eq_add_of_lt hk
  simp only [Nat.zero_add, encodeVarLen]
  split <;> simp

/-- From byte `idx` on, the decoder reads the encoding of `n` in `k` bytes back and stops. -/
theorem decodeGo_encodeVarLen {k : Nat} (more : List UInt8) (hk : 0 < k) :
    ∀ {n idx acc : Nat}, n < 128 ^ k → idx + k ≤ 4 →
      decodeVariableLength.go (encodeVarLen k n ++ more) idx acc =
        .ok (some (acc + n * 128 ^ idx, idx + (encodeVarLen k n).length)) := by
  induction k with
  | zero => exact absurd hk (Nat.lt_irrefl 0)
  | succ k ih =>
    intro n idx acc hn hidx
    simp only [encodeVarLen]
    split
    · next hlt =>
      have hb : (n.toUInt8).toNat = n := UInt8.toNat_ofNat_of_lt (by unfold UInt8.size; omega)
      simp [decodeVariableLength.go, hb, hlt, Nat.mod_eq_of_lt hlt]
    · next hge =>
      have hb : ((n % 128 + 128).toUInt8).toNat = n % 128 + 128 :=
        UInt8.toNat_ofNat_of_lt (by unfold UInt8.size; omega)
      have hk' : 0 < k := by
        rcases Nat.eq_zero_or_pos k with rfl | h
        · simp at hn; omega
        · exact h
      have hn' : n / 128 < 128 ^ k := by
        rw [Nat.div_lt_iff_lt_mul (by norm_num), ← pow_succ]; exact hn
      have hidx' : idx ≠ 3 := by omega
      simp only [List.cons_append, decodeVariableLength.go, List.append_eq, hb, Nat.add_mod_right,
        Nat.mod_mod, if_neg (show ¬ n % 128 + 128 < 128 by omega), if_neg hidx',
        ih hk' hn' (by omega : idx + 1 + k ≤ 4), List.length_cons, Except.ok.injEq,
        Option.some.injEq, Prod.mk.injEq]
      refine ⟨?_, by omega⟩
      calc acc + n % 128 * 128 ^ idx + n / 128 * 128 ^ (idx + 1)
          = acc + (n % 128 + 128 * (n / 128)) * 128 ^ idx := by ring
        _ = acc + n * 128 ^ idx := by rw [Nat.mod_add_div]

/-- The decoder reads the minimal encoding of a remaining length back, whatever follows. -/
theorem decodeVariableLength_encode {n : Nat} (hn : n ≤ 268435455) (more : List UInt8) :
    decodeVariableLength (encodeVariableLength n ++ more) =
      .ok (some (n, (encodeVariableLength n).length)) := by
  have h := @decodeGo_encodeVarLen 4 more (by norm_num) n 0 0 (by norm_num; omega) (by norm_num)
  simpa [decodeVariableLength, encodeVariableLength] using h

theorem decodeGo_append {src : List UInt8} (more : List UInt8) :
    ∀ {idx acc : Nat}, decodeVariableLength.go src idx acc ≠ .ok none →
      decodeVariableLength.go (src ++ more) idx acc = decodeVariableLength.go src idx acc := by
  induction src with
  | nil => intro _ _ h; exact absurd rfl h
  | cons b rest ih =>
    intro idx acc h
    simp only [List.cons_append, decodeVariableLength.go] at h ⊢
    split_ifs at h ⊢
    · rfl
    · rfl
    · exact ih h

/-- Once the decoder has a value or an error, more bytes change nothing. -/
theorem decodeVariableLength_append {src : List UInt8} (more : List UInt8)
    (h : decodeVariableLength src ≠ .ok none) :
    decodeVariableLength (src ++ more) = decodeVariableLength src :=
  decodeGo_append more h

theorem decodeGo_consumed {src : List UInt8} :
    ∀ {idx acc v k : Nat}, decodeVariableLength.go src idx acc = .ok (some (v, k)) →
      idx < k ∧ k ≤ idx + src.length := by
  induction src with
  | nil => intro _ _ _ _ h; cases h
  | cons b rest ih =>
    intro idx acc v k h
    simp only [decodeVariableLength.go] at h
    split_ifs at h
    · simp only [Except.ok.injEq, Option.some.injEq, Prod.mk.injEq] at h
      simp only [List.length_cons]; omega
    · have := ih h
      simp only [List.length_cons]; omega

/-- A value the decoder returns was read from at least one byte of the buffer. -/
theorem decodeVariableLength_consumed {src : List UInt8} {v k : Nat}
    (h : decodeVariableLength src = .ok (some (v, k))) : 0 < k ∧ k ≤ src.length := by
  have := decodeGo_consumed h
  omega

end ActixMqtt
