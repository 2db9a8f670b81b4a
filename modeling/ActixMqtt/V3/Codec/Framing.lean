import ActixMqtt.V3.Codec.Decoder

/-!
# V3 — Codec — framing a byte stream

A framed transport drives the decoder: it appends what it read to the buffer and calls
`Codec::decode` until that returns `Ok(None)` or `Err` (`Codec.drain`), read after read, and
stops at the first error (`Codec.feed`).  The bytes on the wire are frames, each a first byte,
the minimal encoding of its remaining length and a body of that length (`stream`), and
`readFrames` says what a sequence of frames reads as: the packets of the frames up to the first
one over `max_size` or failing to decode, then that frame's error.

* `drain_append`: draining `src ++ more` is draining `src` and, where that stopped at
  `Ok(None)`, draining again with `more` appended.  It follows from `decode_append`.
* `feed_drain`: so the reads give what one drain of all the bytes gives, but for the bytes not
  read yet when an error stops the reads.
* `drain_stream`: one drain of a whole stream of frames reads it as `readFrames` says.

**Framing** (`feed_frames_any_chunking`).  However the stream is split into reads, a fresh codec
returns exactly the packets `readFrames` lists, in order, then its error if there is one, and
ends in the state it names with a buffer that is a prefix of the frames not consumed: empty,
in `FrameHeader`, when no frame failed.
-/

namespace ActixMqtt.V3

namespace Codec

section Framing

variable {α : Type} (decodePacket : List UInt8 → UInt8 → Except DecodeError α)

/-- Call `decode` until it returns `Ok(None)` or `Err`: the codec and the buffer as the last
call left them, the packets in order, and the error. -/
def drain (c : Codec) (src : List UInt8) : Codec × List UInt8 × List α × Option DecodeError :=
  match _h : c.decode decodePacket src with
  | (c', src', .ok (some p)) =>
    let r := drain c' src'
    (r.1, r.2.1, p :: r.2.2.1, r.2.2.2)
  | (c', src', .ok none) => (c', src', [], none)
  | (c', src', .error e) => (c', src', [], some e)
termination_by measure c src
decreasing_by exact measure_decode_lt ‹_›

/-- Read after read: append each chunk to the buffer and drain, stopping at the first error. -/
def feed (c : Codec) (src : List UInt8) :
    List (List UInt8) → Codec × List UInt8 × List α × Option DecodeError
  | [] => (c, src, [], none)
  | chunk :: chunks =>
    match c.drain decodePacket (src ++ chunk) with
    | (c', src', ps, some e) => (c', src', ps, some e)
    | (c', src', ps, none) =>
      let r := feed c' src' chunks
      (r.1, r.2.1, ps ++ r.2.2.1, r.2.2.2)

variable {decodePacket} {c c' : Codec} {src src' : List UInt8}

theorem drain_of_some {p : α} (h : c.decode decodePacket src = (c', src', .ok (some p))) :
    c.drain decodePacket src =
      let r := c'.drain decodePacket src'
      (r.1, r.2.1, p :: r.2.2.1, r.2.2.2) := by
  rw [drain]; split <;> simp_all

theorem drain_of_none (h : c.decode decodePacket src = (c', src', .ok none)) :
    c.drain decodePacket src = (c', src', [], none) := by
  rw [drain]; split <;> simp_all

theorem drain_of_error {e : DecodeError} (h : c.decode decodePacket src = (c', src', .error e)) :
    c.drain decodePacket src = (c', src', [], some e) := by
  rw [drain]; split <;> simp_all

/-- Draining reads nothing but what `decode` returns. -/
theorem drain_congr {c₂ : Codec} {src₂ : List UInt8}
    (h : c.decode decodePacket src = c₂.decode decodePacket src₂) :
    c.drain decodePacket src = c₂.drain decodePacket src₂ := by
  rcases h₂ : c₂.decode decodePacket src₂ with ⟨c', src', e | (_ | p)⟩ <;> rw [h₂] at h
  · rw [drain_of_error h, drain_of_error h₂]
  · rw [drain_of_none h, drain_of_none h₂]
  · rw [drain_of_some h, drain_of_some h₂]

/-- Draining `src ++ more` is draining `src` and, where that stopped at `Ok(None)`, draining
again with `more` appended. -/
theorem drain_append (more : List UInt8) :
    c.drain decodePacket (src ++ more) =
      match c.drain decodePacket src with
      | (c', src', ps, none) =>
        let r := c'.drain decodePacket (src' ++ more)
        (r.1, r.2.1, ps ++ r.2.2.1, r.2.2.2)
      | (c', src', ps, some e) => (c', src' ++ more, ps, some e) := by
  induction c, src using drain.induct decodePacket with
  | case1 c src c₁ src₁ p h ih =>
    have ha : c.decode decodePacket (src ++ more) = (c₁, src₁ ++ more, .ok (some p)) := by
      rw [decode_append, h]
    rw [drain_of_some ha, ih, drain_of_some h]
    rcases c₁.drain decodePacket src₁ with ⟨c₂, src₂, ps, _ | e⟩ <;> rfl
  | case2 c src c₁ src₁ h =>
    have ha : c.decode decodePacket (src ++ more) = c₁.decode decodePacket (src₁ ++ more) := by
      rw [decode_append, h]
    rw [drain_congr ha, drain_of_none h]
    rfl
  | case3 c src c₁ src₁ e h =>
    have ha : c.decode decodePacket (src ++ more) = (c₁, src₁ ++ more, .error e) := by
      rw [decode_append, h]
    rw [drain_of_error ha, drain_of_error h]

/-- Where a drain stopped at `Ok(None)`, draining again returns `Ok(None)` at once. -/
theorem drain_none_stable {ps : List α}
    (h : c.drain decodePacket src = (c', src', ps, none)) :
    c'.drain decodePacket src' = (c', src', [], none) := by
  induction c, src using drain.induct decodePacket generalizing ps with
  | case1 c src c₁ src₁ p hd ih =>
    rw [drain_of_some hd] at h
    rcases hr : c₁.drain decodePacket src₁ with ⟨c₂, src₂, qs, e⟩
    rw [hr] at h
    simp only [Prod.mk.injEq] at h
    obtain ⟨rfl, rfl, -, rfl⟩ := h
    exact ih hr
  | case2 c src c₁ src₁ hd =>
    rw [drain_of_none hd] at h
    simp only [Prod.mk.injEq] at h
    obtain ⟨rfl, rfl, -⟩ := h
    exact drain_of_none (decode_none_stable hd)
  | case3 c src c₁ src₁ e hd =>
    rw [drain_of_error hd] at h
    simp at h

variable (decodePacket) in
/-- From a state a drain leaves alone, the reads give what one drain of all the bytes gives,
but for the chunks from the `k`-th on, still unread when an error stops the reads. -/
theorem feed_drain (chunks : List (List UInt8)) :
    ∀ {c : Codec} {src : List UInt8}, c.drain decodePacket src = (c, src, [], none) →
      ∃ k, c.drain decodePacket (src ++ chunks.flatten) =
        (let r := c.feed decodePacket src chunks
        (r.1, r.2.1 ++ (chunks.drop k).flatten, r.2.2.1, r.2.2.2)) ∧
        ((c.feed decodePacket src chunks).2.2.2 = none → (chunks.drop k).flatten = []) := by
  induction chunks with
  | nil => intro c src h; exact ⟨0, by simpa [feed] using h, fun _ => rfl⟩
  | cons chunk chunks ih =>
    intro c src _
    rw [List.flatten_cons, ← List.append_assoc, drain_append]
    simp only [feed]
    rcases hd : c.drain decodePacket (src ++ chunk) with ⟨c₁, src₁, ps, _ | e⟩
    · obtain ⟨k, hr, hn⟩ := ih (drain_none_stable hd)
      exact ⟨k + 1, by dsimp only; rw [hr]; rfl, hn⟩
    · exact ⟨1, rfl, fun h => by cases h⟩

/-! ### Frames -/

/-- A frame on the wire: the first byte of its fixed header and its body, whose length is the
remaining length. -/
structure Frame where
  firstByte : UInt8
  body : List UInt8
  deriving DecidableEq

/-- A frame's bytes: the first byte, the minimal encoding of the remaining length, the body. -/
def Frame.bytes (f : Frame) : List UInt8 :=
  f.firstByte :: (encodeVariableLength f.body.length ++ f.body)

/-- The bytes of a sequence of frames. -/
def stream : List Frame → List UInt8
  | [] => []
  | f :: fs => f.bytes ++ stream fs

variable (decodePacket) in
/-- What a sequence of frames reads as with `max_size` `maxSize`: the packets of the frames up
to the first one over `maxSize` or failing to decode; that frame's error; the decoder state
there; and the frames whose bytes are not consumed. -/
def readFrames (maxSize : Nat) :
    List Frame → List α × Option DecodeError × DecodeState × List Frame
  | [] => ([], none, .frameHeader, [])
  | f :: fs =>
    if maxSize ≠ 0 ∧ maxSize < f.body.length then
      ([], some .maxSizeExceeded, .frameHeader, f :: fs)
    else match decodePacket f.body f.firstByte with
      | .error e => ([], some e, .frame ⟨f.firstByte, f.body.length⟩, fs)
      | .ok p =>
        let r := readFrames maxSize fs
        (p :: r.1, r.2)

/-- With no frame refused, the reading ends in `FrameHeader` with every frame consumed. -/
theorem readFrames_of_none {maxSize : Nat} {fs : List Frame}
    (h : (readFrames decodePacket maxSize fs).2.1 = none) :
    (readFrames decodePacket maxSize fs).2.2 = (.frameHeader, []) := by
  induction fs with
  | nil => rfl
  | cons f fs ih =>
    simp only [readFrames] at h ⊢
    by_cases hm : maxSize ≠ 0 ∧ maxSize < f.body.length
    · rw [if_pos hm] at h; cases h
    · rw [if_neg hm] at h ⊢
      cases hp : decodePacket f.body f.firstByte <;> simp only [hp] at h ⊢
      · cases h
      · exact ih h

variable (decodePacket) in
/-- One drain of a whole stream of frames from `FrameHeader` reads it as `readFrames` says,
and leaves in the buffer exactly the frames not consumed. -/
theorem drain_stream (maxSize : Nat) {fs : List Frame}
    (hfs : ∀ f ∈ fs, f.body.length ≤ 268435455) :
    (⟨.frameHeader, maxSize⟩ : Codec).drain decodePacket (stream fs) =
      let r := readFrames decodePacket maxSize fs
      (⟨r.2.2.1, maxSize⟩, stream r.2.2.2, r.1, r.2.1) := by
  induction fs with
  | nil => exact drain_of_none rfl
  | cons f fs ih =>
    have hd : (⟨.frameHeader, maxSize⟩ : Codec).decode decodePacket
        (f.firstByte :: (encodeVariableLength f.body.length ++ f.body ++ stream fs)) = _ :=
      decode_frame rfl f.firstByte (hfs f (List.mem_cons_self _ _)) (stream fs)
    have hs : stream (f :: fs) =
        f.firstByte :: (encodeVariableLength f.body.length ++ f.body ++ stream fs) := by
      simp [stream, Frame.bytes]
    rw [hs]
    simp only [readFrames]
    split_ifs at hd ⊢
    · rw [drain_of_error hd, hs]
    · cases hp : decodePacket f.body f.firstByte <;> simp only [hp] at hd ⊢
      · exact drain_of_error hd
      · rw [drain_of_some hd, ih fun g hg => hfs g (List.mem_cons_of_mem _ hg)]

variable (decodePacket) in
/-- **Framing.**  However the stream of frames is split into reads, a fresh codec with
`max_size` `maxSize` returns the packets `readFrames` lists, in order, and then its error if
there is one; it ends in the state `readFrames` names, with a buffer that, followed by the
chunks not read, is exactly the bytes of the frames not consumed; and when no frame is refused,
in `FrameHeader` with an empty buffer. -/
theorem feed_frames_any_chunking (maxSize : Nat) {fs : List Frame}
    {chunks : List (List UInt8)} (hfs : ∀ f ∈ fs, f.body.length ≤ 268435455)
    (hch : chunks.flatten = stream fs) :
    let r := (Codec.new.setMaxSize maxSize).feed decodePacket [] chunks
    let e := readFrames decodePacket maxSize fs
    r.2.2.1 = e.1 ∧ r.2.2.2 = e.2.1 ∧ r.1 = ⟨e.2.2.1, maxSize⟩ ∧
      (∃ k, r.2.1 ++ (chunks.drop k).flatten = stream e.2.2.2) ∧
      (e.2.1 = none → r.1.state = .frameHeader ∧ r.2.1 = []) := by
  obtain ⟨k, hr, -⟩ :=
    @feed_drain _ decodePacket chunks (Codec.new.setMaxSize maxSize) [] (drain_of_none rfl)
  rw [List.nil_append, hch] at hr
  have hs := (drain_stream decodePacket maxSize hfs).symm.trans hr
  simp only [Prod.mk.injEq] at hs
  obtain ⟨hc, hb, hp, he⟩ := hs
  refine ⟨hp.symm, he.symm, hc.symm, ⟨k, hb.symm⟩, fun hn => ?_⟩
  obtain ⟨hs₁, hs₂⟩ := Prod.ext_iff.mp (readFrames_of_none hn)
  dsimp only at hs₁ hs₂
  refine ⟨by rw [← hc]; exact hs₁, ?_⟩
  rw [hs₂] at hb
  exact (List.append_eq_nil.mp hb.symm).1

/-- A publish header with a three-byte body and a `PINGREQ`, read in three chunks that split
both frames, come out as two packets with nothing left over. -/
theorem feed_frames_split_reads :
    ∃ r, (Codec.new.setMaxSize 0).feed
        (fun body b => (.ok (b, body.length) : Except DecodeError (UInt8 × Nat))) []
        [[0x30], [3, 1], [2, 3, 0xC0, 0]] = r ∧
      r.2.2.1 = [(0x30, 3), (0xC0, 0)] ∧ r.2.2.2 = none ∧ r.1.state = .frameHeader ∧ r.2.1 = [] :=
  let ⟨hp, he, _, _, hn⟩ := @feed_frames_any_chunking _
    (fun body b => (.ok (b, body.length) : Except DecodeError (UInt8 × Nat))) 0
    [⟨0x30, [1, 2, 3]⟩, ⟨0xC0, []⟩] [[0x30], [3, 1], [2, 3, 0xC0, 0]] (by decide) rfl
  ⟨_, rfl, hp, he, (hn rfl).1, (hn rfl).2⟩

end Framing

end Codec

end ActixMqtt.V3
