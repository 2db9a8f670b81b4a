import ActixMqtt.Utils

/-!
# V3 — Codec — the decoder

`Codec::decode` as a function of the codec and the read buffer, returning both as the call
leaves them (it takes `&mut self` and `&mut BytesMut`) together with its result.  In state
`FrameHeader` it parses the first byte and the remaining length, refuses a frame over
`max_size` before consuming any of it, then consumes the header and moves to `Frame`; in
`Frame` it waits for the whole body, splits it off and hands it to `decode::decode_packet`.

`decode::decode_packet` is not in the repository's sources; it is the parameter
`decodePacket`, and the type of the packets it returns is a parameter too.

* **Resumption** (`decode_append`).  Decoding `src ++ more` is decoding `src` and, where that
  returned `Ok(None)`, decoding again from where it left off with `more` appended; where it
  returned a packet or an error, the same, with `more` still in the buffer.
* A call that returns `Ok(None)` leaves a state in which the next call returns `Ok(None)`
  again (`decode_none_stable`), and a call that returns a packet shrinks the buffer or leaves
  `Frame` (`measure_decode_lt`).
* On a buffer holding a whole frame, `decode` returns that frame's packet, its error, or
  `MaxSizeExceeded` with nothing consumed (`decode_frame`).
-/

namespace ActixMqtt.V3

/-- `types::FixedHeader`.  `remaining_length` is a `u32`. -/
structure FixedHeader where
  firstByte : UInt8
  remainingLength : Nat
  deriving DecidableEq

/-- `codec::DecodeState`. -/
inductive DecodeState
  | frameHeader
  | frame (fixed : FixedHeader)
  deriving DecidableEq

/-- `codec::Codec`.  `max_size` is a `u32`, and `0` means unlimited. -/
structure Codec where
  state : DecodeState
  maxSize : Nat
  deriving DecidableEq

namespace Codec

/-- `Codec::new`. -/
def new : Codec := { state := .frameHeader, maxSize := 0 }

/-- `Codec::set_max_size`; the builder `Codec::max_size` sets the same field. -/
def setMaxSize (c : Codec) (size : Nat) : Codec := { c with maxSize := size }

section Decode

variable {α : Type} (decodePacket : List UInt8 → UInt8 → Except DecodeError α)

/-- The `DecodeState::Frame(fixed)` arm of `Codec::decode`: wait for the whole body, split it
off and decode it.  On an error of `decode_packet` the body is already split off and the state
is still `Frame`. -/
def decodeFrame (c : Codec) (fixed : FixedHeader) (src : List UInt8) :
    Codec × List UInt8 × Except DecodeError (Option α) :=
  if src.length < fixed.remainingLength then (c, src, .ok none)
  else
    match decodePacket (src.take fixed.remainingLength) fixed.firstByte with
    | .error e => (c, src.drop fixed.remainingLength, .error e)
    | .ok packet =>
      ({ c with state := .frameHeader }, src.drop fixed.remainingLength, .ok (some packet))

/-- `Codec::decode`.  Its loop runs the `FrameHeader` arm and, when the body is already
buffered, the `Frame` arm after it; `reserve` only sizes the buffer and is left out. -/
def decode (c : Codec) (src : List UInt8) : Codec × List UInt8 × Except DecodeError (Option α) :=
  match c.state with
  | .frameHeader =>
    match src with
    | firstByte :: b :: rest =>
      match decodeVariableLength (b :: rest) with
      | .error e => (c, src, .error e)
      | .ok none => (c, src, .ok none)
      | .ok (some (remainingLength, consumed)) =>
        if c.maxSize ≠ 0 ∧ c.maxSize < remainingLength then (c, src, .error .maxSizeExceeded)
        else
          let src := src.drop (consumed + 1)
          let fixed : FixedHeader := ⟨firstByte, remainingLength⟩
          let c := { c with state := .frame fixed }
          if src.length < remainingLength then (c, src, .ok none)
          else decodeFrame decodePacket c fixed src
    | _ => (c, src, .ok none)
  | .frame fixed => decodeFrame decodePacket c fixed src

/-- What `decode` has left to read: twice the buffer, and one more inside a frame. -/
def measure (c : Codec) (src : List UInt8) : Nat :=
  2 * src.length + match c.state with
    | .frameHeader => 0
    | .frame _ => 1

variable {decodePacket} {c c' : Codec} {src src' : List UInt8}

theorem decode_of_frame {fixed : FixedHeader} (h : c.state = .frame fixed) (src : List UInt8) :
    c.decode decodePacket src = c.decodeFrame decodePacket fixed src := by
  simp [decode, h]

/-- With the body buffered, more bytes after it change only what is left in the buffer. -/
theorem decodeFrame_append {fixed : FixedHeader} (h : fixed.remainingLength ≤ src.length)
    (more : List UInt8) :
    c.decodeFrame decodePacket fixed (src ++ more) =
      let r := c.decodeFrame decodePacket fixed src
      (r.1, r.2.1 ++ more, r.2.2) := by
  have h' : ¬ (src ++ more).length < fixed.remainingLength := by simp; omega
  simp only [decodeFrame, h', if_false, Nat.not_lt.mpr h, List.take_append_of_le_length h,
    List.drop_append_of_le_length h]
  split <;> rfl

/-- `decodeFrame` returns `Ok(None)` exactly when the body is not all there, and then changes
nothing. -/
theorem decodeFrame_none {fixed : FixedHeader}
    (h : c.decodeFrame decodePacket fixed src = (c', src', .ok none)) :
    src.length < fixed.remainingLength ∧ c' = c ∧ src' = src := by
  unfold decodeFrame at h
  split at h
  · cases h; exact ⟨‹_›, rfl, rfl⟩
  · split at h <;> cases h

/-- In `Frame`, decoding `src ++ more` is decoding `src` and, where that waited, decoding again
with `more` appended. -/
theorem decode_append_frame {fixed : FixedHeader} (hs : c.state = .frame fixed)
    (more : List UInt8) :
    c.decode decodePacket (src ++ more) =
      match c.decode decodePacket src with
      | (c', src', .ok none) => c'.decode decodePacket (src' ++ more)
      | (c', src', r) => (c', src' ++ more, r) := by
  rw [decode_of_frame hs, decode_of_frame hs]
  by_cases hl : src.length < fixed.remainingLength
  · simp only [decodeFrame, hl, if_true, decode_of_frame hs]
  · rw [decodeFrame_append (Nat.not_lt.mp hl)]
    rcases h : c.decodeFrame decodePacket fixed src with ⟨c₁, src₁, e | _ | p⟩
    · rfl
    · exact absurd (decodeFrame_none h).1 hl
    · rfl

/-- The `FrameHeader` arm on a buffer of two bytes or more: after the header, `decode` goes on
as in `Frame` on what follows it. -/
theorem decode_frameHeader (hs : c.state = .frameHeader) (b₀ b : UInt8) (rest : List UInt8) :
    c.decode decodePacket (b₀ :: b :: rest) =
      match decodeVariableLength (b :: rest) with
      | .error e => (c, b₀ :: b :: rest, .error e)
      | .ok none => (c, b₀ :: b :: rest, .ok none)
      | .ok (some (remainingLength, consumed)) =>
        if c.maxSize ≠ 0 ∧ c.maxSize < remainingLength then
          (c, b₀ :: b :: rest, .error .maxSizeExceeded)
        else { c with state := .frame ⟨b₀, remainingLength⟩ }.decode decodePacket
          ((b₀ :: b :: rest).drop (consumed + 1)) := by
  simp only [decode, hs]
  split
  · rfl
  · rfl
  · split_ifs with h₁ h₂
    · rfl
    · simp only [decodeFrame, if_pos h₂]
    · rfl

/-- **Resumption.**  Decoding `src ++ more` is decoding `src` and then, where that returned
`Ok(None)`, decoding from the state it left with `more` appended. -/
theorem decode_append (more : List UInt8) :
    c.decode decodePacket (src ++ more) =
      match c.decode decodePacket src with
      | (c', src', .ok none) => c'.decode decodePacket (src' ++ more)
      | (c', src', r) => (c', src' ++ more, r) := by
  cases hs : c.state with
  | frame fixed => exact decode_append_frame hs more
  | frameHeader =>
    rcases src with _ | ⟨b₀, _ | ⟨b, rest⟩⟩
    · simp only [decode, hs]
    · simp only [decode, hs]
    · cases hv : decodeVariableLength (b :: rest) with
      | error e =>
        have hv' : decodeVariableLength (b :: (rest ++ more)) = .error e := by
          rw [← List.cons_append, decodeVariableLength_append more (by simp [hv]), hv]
        rw [decode_frameHeader hs, hv]
        simp only [List.cons_append]
        rw [decode_frameHeader hs, hv']
      | ok v =>
        cases v with
        | none => conv_rhs => rw [decode_frameHeader hs, hv]
        | some v =>
          obtain ⟨L, k⟩ := v
          have hv' : decodeVariableLength (b :: (rest ++ more)) = .ok (some (L, k)) := by
            rw [← List.cons_append, decodeVariableLength_append more (by simp [hv]), hv]
          have hk := (decodeVariableLength_consumed hv).2
          rw [decode_frameHeader hs, hv]
          simp only [List.cons_append]
          rw [decode_frameHeader hs, hv']
          dsimp only
          split_ifs
          · simp
          · rw [← List.cons_append, ← List.cons_append,
              List.drop_append_of_le_length (by simp at hk ⊢; omega)]
            exact decode_append_frame rfl more

/-- What a packet from `decodeFrame` tells: the body was all there, `decode_packet` made the
packet of it, and the codec is back in `FrameHeader` with the body consumed. -/
theorem decodeFrame_some {fixed : FixedHeader} {p : α}
    (h : c.decodeFrame decodePacket fixed src = (c', src', .ok (some p))) :
    fixed.remainingLength ≤ src.length ∧ c'.state = .frameHeader ∧ c'.maxSize = c.maxSize ∧
      src' = src.drop fixed.remainingLength := by
  unfold decodeFrame at h
  split at h
  · cases h
  · split at h
    · cases h
    · simp only [Prod.mk.injEq] at h
      obtain ⟨rfl, rfl, -⟩ := h
      exact ⟨Nat.not_lt.mp ‹_›, rfl, rfl, rfl⟩

/-- The `FrameHeader` arm either returns at once, with the codec and the buffer as they were and
no packet, or consumes the header and goes on as in `Frame` on a shorter buffer. -/
theorem decode_header_cases (hs : c.state = .frameHeader) (src : List UInt8) :
    (∃ r, c.decode decodePacket src = (c, src, r) ∧ ∀ p, r ≠ .ok (some p)) ∨
      ∃ fixed src₁, src₁.length < src.length ∧
        c.decode decodePacket src = { c with state := .frame fixed }.decode decodePacket src₁ := by
  rcases src with _ | ⟨b₀, _ | ⟨b, rest⟩⟩
  · exact .inl ⟨.ok none, by simp only [decode, hs], by simp⟩
  · exact .inl ⟨.ok none, by simp only [decode, hs], by simp⟩
  · rw [decode_frameHeader hs]
    rcases hv : decodeVariableLength (b :: rest) with e | (_ | ⟨L, k⟩)
    · exact .inl ⟨_, rfl, by simp⟩
    · exact .inl ⟨_, rfl, by simp⟩
    · dsimp only
      split_ifs
      · exact .inl ⟨_, rfl, by simp⟩
      · have hk := (decodeVariableLength_consumed hv).1
        exact .inr ⟨_, _, by simp; omega, rfl⟩

/-- A call that returns `Ok(None)` consumes nothing more on a second call: the next call from
where it left returns `Ok(None)` again. -/
theorem decode_none_stable (h : c.decode decodePacket src = (c', src', .ok none)) :
    c'.decode decodePacket src' = (c', src', .ok none) := by
  have of_frame : ∀ {c₁ : Codec} {src₁ : List UInt8} {fixed : FixedHeader},
      c₁.state = .frame fixed → c₁.decode decodePacket src₁ = (c', src', .ok none) →
        c'.decode decodePacket src' = (c', src', .ok none) := fun hs h => by
    rw [decode_of_frame hs] at h
    obtain ⟨-, rfl, rfl⟩ := decodeFrame_none h
    rwa [decode_of_frame hs]
  cases hs : c.state with
  | frame fixed => exact of_frame hs h
  | frameHeader =>
    rcases decode_header_cases hs src with ⟨r, he, -⟩ | ⟨fixed, src₁, -, he⟩ <;> rw [he] at h
    · simp only [Prod.mk.injEq] at h
      obtain ⟨rfl, rfl, rfl⟩ := h
      exact he
    · exact of_frame rfl h

/-- A call that returns a packet leaves less to read. -/
theorem measure_decode_lt {p : α} (h : c.decode decodePacket src = (c', src', .ok (some p))) :
    measure c' src' < measure c src := by
  have of_frame : ∀ {c₁ : Codec} {src₁ : List UInt8} {fixed : FixedHeader},
      c₁.state = .frame fixed → c₁.decode decodePacket src₁ = (c', src', .ok (some p)) →
        measure c' src' < 2 * src₁.length + 1 := fun hs h => by
    rw [decode_of_frame hs] at h
    obtain ⟨hl, hs', -, rfl⟩ := decodeFrame_some h
    simp only [measure, hs', List.length_drop]
    omega
  cases hs : c.state with
  | frame fixed => simpa only [measure, hs] using of_frame hs h
  | frameHeader =>
    rcases decode_header_cases hs src with ⟨r, he, hr⟩ | ⟨fixed, src₁, hl, he⟩ <;> rw [he] at h
    · exact absurd (Prod.mk.inj_iff.mp (Prod.mk.inj_iff.mp h).2).2 (hr p)
    · exact (of_frame rfl h).trans_le (by simp only [measure, hs]; omega)

/-- A whole frame at the front of the buffer: `decode` refuses it with nothing consumed if it
is over `max_size`, and otherwise consumes it and returns what `decode_packet` makes of its
body. -/
theorem decode_frame (hs : c.state = .frameHeader) (b₀ : UInt8) {body : List UInt8}
    (hL : body.length ≤ 268435455) (more : List UInt8) :
    c.decode decodePacket (b₀ :: (encodeVariableLength body.length ++ body ++ more)) =
      if c.maxSize ≠ 0 ∧ c.maxSize < body.length then
        (c, b₀ :: (encodeVariableLength body.length ++ body ++ more), .error .maxSizeExceeded)
      else match decodePacket body b₀ with
        | .error e => ({ c with state := .frame ⟨b₀, body.length⟩ }, more, .error e)
        | .ok p => ({ c with state := .frameHeader }, more, .ok (some p)) := by
  have hv := decodeVariableLength_encode hL (body ++ more)
  obtain ⟨b, rest, he⟩ : ∃ b rest, encodeVariableLength body.length = b :: rest :=
    List.exists_cons_of_length_pos (length_encodeVarLen_pos (by norm_num))
  rw [he, List.cons_append] at hv
  rw [List.append_assoc, he, List.cons_append, decode_frameHeader hs, hv]
  dsimp only
  split_ifs
  · rfl
  · rw [decode_of_frame rfl, List.length_cons, List.drop_succ_cons, List.drop_succ_cons,
      List.drop_left]
    unfold decodeFrame
    simp only [List.length_append, show ¬ body.length + more.length < body.length by omega,
      if_false, List.take_left, List.drop_left]

/-- `test_max_size`: with `max_size` 5, the header of a frame of remaining length 9 is refused
before any of it is consumed. -/
example : (Codec.new.setMaxSize 5).decode decodePacket [0, 9] =
    (Codec.new.setMaxSize 5, [0, 9], .error .maxSizeExceeded) := rfl

end Decode

end Codec

end ActixMqtt.V3
