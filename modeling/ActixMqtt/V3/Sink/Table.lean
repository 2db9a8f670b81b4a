import ActixMqtt.V3.Sink.Ops

/-!
# V3 — Sink — the in-flight table

The invariant that keeps `queue_order` and the in-flight slab in step (`TableInv`): every id of
`queue_order` is a packet id in `[1, 65535]` whose slot `id - 1` is occupied, no id is there
twice, every future that waits for the acknowledgement of packet `p` holds slot `p - 1` with its
own acknowledgement kind, and every packet on the outbound channel has the packet id it needs.

It holds of every reachable state, whatever the events: sends of the three kinds with their
rollback at id `65536` and their failed pushes, dropped futures, `close`, `ping`, QoS-0
publishes, and acknowledgements of any id and kind.  The one place a slot could be reused
under a live id is packet-id allocation, and the slab only hands out vacant keys.

**Consistency** (`inflight_table_consistent`).  In every reachable state `queue_order` has no
duplicate, each of its ids is `k + 1` for an occupied key `k` and lies in `[1, 65535]`;
`pkt_ack` never reaches its `unreachable!`; `Codec::encode`'s packet-id check passes on every
packet the sink pushed; and no two futures wait for the same packet id.

**No orphan slot** (`inflight_slots_listed`).  The converse holds too: a slot is occupied only
while `queue_order` lists its id, so `queue.len()` and `queue_order.len()` agree.  A rollback at
id `65536` frees the slot it took, and `pkt_ack` frees the slot of the id it pops, also when it
rejects the acknowledgement as unexpected (`SlotInv`).
-/

namespace ActixMqtt.V3

/-- In `[1, 65535]` each of the three sends builds its packet.  The publish stores
`NonZeroU16::new(idx as u16)` and the others unwrap it, which cannot fail there, and the
publish at QoS 1 then carries its id. -/
theorem Request.packet_hasRequiredId (r : Request) {idx : Nat} (h₁ : 1 ≤ idx) (h₂ : idx ≤ 65535)
    {pkt : Packet} (h : r.send.packet idx = .ok pkt) : pkt.HasRequiredId := by
  obtain ⟨id, hid, -⟩ := NonZeroU16.new_ofNat h₁ h₂
  cases r with
  | publish b =>
    simp only [Request.send, PublishBuilder.sendAtLeastOnce, pure, Except.pure,
      Except.ok.injEq] at h
    subst h
    simp [Packet.HasRequiredId, hid]
  | subscribe fs =>
    simp only [Request.send, SubscribeBuilder.send, hid, pure, Except.pure, Except.ok.injEq] at h
    subst h; trivial
  | unsubscribe fs =>
    simp only [Request.send, UnsubscribeBuilder.send, hid, pure, Except.pure,
      Except.ok.injEq] at h
    subst h; trivial

namespace MqttSink

/-- The in-flight table and `queue_order` agree. -/
structure TableInv (s : MqttSink) : Prop where
  free : s.borrowed = false
  nodup : s.inner.queueOrder.Nodup
  order : ∀ p ∈ s.inner.queueOrder, 1 ≤ p ∧ p ≤ 65535 ∧ ∃ v, s.inner.queue.get (p - 1) = some v
  awaiting : ∀ t r p, s.tasks[t]? = some ⟨r, .awaitingAck p⟩ →
    1 ≤ p ∧ p ≤ 65535 ∧ s.inner.queue.get (p - 1) = some (t, r.send.ackType)
  out : ∀ x ∈ s.out, x.1.HasRequiredId

theorem TableInv.init (cap : Nat) : TableInv (new cap) where
  free := rfl
  nodup := List.nodup_nil
  order := by simp [new]
  awaiting := by simp [new]
  out := by simp [new]

variable {s s' : MqttSink}

/-- An awaiting future's `phase` form of `TableInv.awaiting`. -/
theorem TableInv.awaiting_phase (hi : TableInv s) {t p : Nat}
    (h : s.phase t = some (.awaitingAck p)) :
    1 ≤ p ∧ p ≤ 65535 ∧ ∃ tp, s.inner.queue.get (p - 1) = some (t, tp) := by
  simp only [phase, Option.map_eq_some'] at h
  obtain ⟨⟨r, ph⟩, ht, rfl⟩ := h
  obtain ⟨h₁, h₂, hq⟩ := hi.awaiting t r p ht
  exact ⟨h₁, h₂, _, hq⟩

/-- A step that changes neither the table nor `queue_order`, starts no wait, and pushes only
packets with their ids keeps the table consistent. -/
theorem TableInv.mono (hi : TableInv s) (hf : s'.borrowed = false)
    (ho : s'.inner.queueOrder = s.inner.queueOrder) (hq : s'.inner.queue = s.inner.queue)
    (ht : ∀ (u : Nat) (r : Request) (p : Nat), s'.tasks[u]? = some ⟨r, .awaitingAck p⟩ →
      s.tasks[u]? = some ⟨r, .awaitingAck p⟩)
    (hout : ∀ x ∈ s'.out, x.1.HasRequiredId) : TableInv s' where
  free := hf
  nodup := ho ▸ hi.nodup
  order := by rw [ho, hq]; exact hi.order
  awaiting := fun u r p h => hq ▸ hi.awaiting u r p (ht u r p h)
  out := hout

/-- Packet-id allocation for future `t` running `r`, written back into a task list where only
`t` changed, to the phase allocation returned. -/
theorem TableInv.allocate (hi : TableInv s) {r : Request} {t : Nat} {s₁ : MqttSink} {ph : Phase}
    (ha : r.send.allocate t { s with borrowed := true } = .ok (s₁, ph)) (tasks : List Task)
    (hne : ∀ u, u ≠ t → tasks[u]? = s.tasks[u]?) (hself : tasks[t]? = some ⟨r, ph⟩) :
    TableInv { s₁ with tasks := tasks } := by
  obtain ⟨-, hf, -, -, -, -, hc⟩ := AckedSend.allocate_cases ha
  rcases hc with ⟨rfl, ho, hout, hq, -⟩ | ⟨k, pkt, hk, hk₂, hpkt, -, hq, -, ho, hph⟩
  · refine ⟨hf, ho ▸ hi.nodup, fun p hp => ?_, fun u r' p h => ?_,
    fun x hx => hi.out x (hout ▸ hx)⟩
    · obtain ⟨h₁, h₂, v, hv⟩ := hi.order p (ho ▸ hp)
      exact ⟨h₁, h₂, v, (hq _).trans hv⟩
    · by_cases e : u = t
      · subst e; simp [hself] at h
      · rw [hne u e] at h
        exact (hq _).symm ▸ hi.awaiting u r' p h
  · simp only at hk hq ho hph
    have hfresh : ∀ p ∈ s.inner.queueOrder, p - 1 ≠ k := fun p hp e => by
      obtain ⟨-, -, v, hv⟩ := hi.order p hp; simp [e, hk] at hv
    refine ⟨hf, ?_, fun p hp => ?_, fun u r' p h => ?_, ?_⟩
    · rw [ho]
      exact hi.nodup.append (List.nodup_singleton _)
        fun p hp hq' => hfresh p hp (by simp at hq'; omega)
    · rw [ho, List.mem_append, List.mem_singleton] at hp
      rcases hp with hp | rfl
      · obtain ⟨h₁, h₂, v, hv⟩ := hi.order p hp
        exact ⟨h₁, h₂, v, by simp [hq, hfresh p hp, hv]⟩
      · exact ⟨by omega, hk₂, (t, r.send.ackType), by simp [hq]⟩
    · by_cases e : u = t
      · subst e
        rw [hself] at h
        cases h
        rcases hph with ⟨-, he, -⟩ | ⟨-, he, -⟩ <;> cases he
        exact ⟨by omega, hk₂, by simp [hq]⟩
      · rw [hne u e] at h
        obtain ⟨h₁, h₂, hv⟩ := hi.awaiting u r' p h
        have : p - 1 ≠ k := fun e => by simp [e, hk] at hv
        exact ⟨h₁, h₂, by simp [hq, this, hv]⟩
    · rcases hph with ⟨-, -, hout⟩ | ⟨-, -, hout⟩ <;> simp only [hout]
      · intro x hx
        rcases List.mem_append.mp hx with hx | hx
        · exact hi.out x hx
        · simp at hx; subst hx
          exact Request.packet_hasRequiredId r (by omega) hk₂ hpkt
      · exact hi.out

/-- Popping the head `p` of `queue_order` and vacating its slot, held by `t`, keeps the table
consistent, as long as no future other than one that waited before waits now, and `t` does
not. -/
theorem TableInv.vacate (hi : TableInv s) {p : Nat} {rest : List Nat} {t : Nat} {tp : AckType}
    (ho : s.inner.queueOrder = p :: rest) (hq : s.inner.queue.get (p - 1) = some (t, tp))
    (hf : s'.borrowed = false) (ho' : s'.inner.queueOrder = rest)
    (hq' : ∀ j, s'.inner.queue.get j = if j = p - 1 then none else s.inner.queue.get j)
    (ht : ∀ (u : Nat) (r : Request) (p' : Nat), s'.tasks[u]? = some ⟨r, .awaitingAck p'⟩ →
      s.tasks[u]? = some ⟨r, .awaitingAck p'⟩ ∧ u ≠ t)
    (hout : s'.out = s.out) : TableInv s' := by
  have hnd := hi.nodup
  rw [ho] at hnd
  have hp := hi.order p (by simp [ho])
  refine ⟨hf, ho' ▸ (List.nodup_cons.mp hnd).2, fun p' hp' => ?_, fun u r p' h => ?_,
    hout ▸ hi.out⟩
  · obtain ⟨h₁, h₂, v, hv⟩ := hi.order p' (by simp [ho, ← ho', hp'])
    have : p' ≠ p := fun e => (List.nodup_cons.mp hnd).1 (e ▸ ho' ▸ hp')
    exact ⟨h₁, h₂, v, by rw [hq']; simp [show p' - 1 ≠ p - 1 by omega, hv]⟩
  · obtain ⟨h, hne⟩ := ht u r p' h
    obtain ⟨h₁, h₂, hv⟩ := hi.awaiting u r p' h
    have : p' - 1 ≠ p - 1 := fun e => hne (by rw [e, hq] at hv; cases hv; rfl)
    exact ⟨h₁, h₂, by rw [hq']; simp [this, hv]⟩

/-- `pkt_ack` keeps the table consistent whenever it returns. -/
theorem TableInv.pktAck (hi : TableInv s) {a : Ack} {res : Except ProtocolError Unit}
    (h : s.pktAck a = .ok (s', res)) : TableInv s' := by
  obtain ⟨rest, t, tp, q, ho, hq, hq', -, ⟨-, -, rfl⟩ | ⟨-, -, rfl⟩⟩ := pktAck_cases hi.free h <;>
    generalize hX : ({ s with borrowed := true, inner.queueOrder := rest, inner.queue := q }
      : MqttSink) = X
  · exact hi.vacate ho hq rfl (by simp [← hX]) (by simpa [← hX] using hq')
      (fun u r p' h => by have h' := awaiting_cancelAck h; rwa [← hX] at h') (by simp [← hX])
  · exact hi.vacate ho hq rfl (by simp [← hX]) (by simpa [← hX] using hq')
      (fun u r p' h => by have h' := awaiting_sendAck (awaiting_wake h); rwa [← hX] at h')
      (by simp [← hX])

/-- Every event keeps the table consistent. -/
theorem TableInv.step (hi : TableInv s) {e : Event} (h : s.step e = .ok s') : TableInv s' := by
  cases e with
  | start r =>
    obtain ⟨s₁, ph, hs, rfl⟩ := step_start h
    have hnew : ∀ u, u ≠ s.tasks.length → (s.tasks ++ [⟨r, ph⟩])[u]? = s.tasks[u]? :=
      fun _ hu => getElem?_append_singleton_of_ne _ hu
    have hself : (s.tasks ++ [⟨r, ph⟩])[s.tasks.length]? = some ⟨r, ph⟩ := by simp
    rcases AckedSend.start_cases hi.free hs with ⟨-, he, rfl⟩ | ⟨-, -, he, rfl⟩ | ⟨-, -, ha⟩
    · rw [he]
      refine hi.mono hi.free rfl rfl (fun u r' p h => ?_) hi.out
      by_cases e : u = s.tasks.length
      · subst e; simp [hself] at h
      · exact (hnew u e) ▸ h
    · rw [he]
      refine hi.mono hi.free rfl rfl (fun u r' p h => ?_) hi.out
      by_cases e : u = s.tasks.length
      · subst e; simp at h
      · exact (hnew u e) ▸ h
    · have ht := (AckedSend.allocate_cases ha).1
      simp only at ht
      rw [ht]
      exact hi.allocate ha _ hnew hself
  | poll t =>
    cases ht : s.tasks[t]? with
    | none => rw [step_poll_none ht] at h; cases h; exact hi
    | some task =>
      obtain ⟨r, ph⟩ := task
      by_cases hw : ph = .woken
      · subst hw
        obtain ⟨s₁, ph', ha, rfl⟩ := step_poll_woken hi.free ht h
        have hts := (AckedSend.allocate_cases ha).1
        simp only at hts
        exact hi.allocate ha _
          (fun u hu => by simp [setPhase, hts, List.getElem?_modify_ne _ _ (Ne.symm hu)])
          (by simp [setPhase, hts, ht])
      · obtain ⟨ph', hf, rfl⟩ := step_poll_finish ht hw h
        refine hi.mono hi.free rfl rfl (fun u r' p h => ?_) hi.out
        rw [tasks_setPhase] at h
        by_cases e : u = t
        · subst e
          simp only [if_pos rfl, ht, Option.map_some', Option.some.injEq, Task.mk.injEq] at h
          obtain ⟨rfl, rfl⟩ := h
          rw [ht, AckedSend.finish_awaiting hf]
        · simpa [e] using h
  | drop t =>
    rw [step_drop] at h; cases h
    exact hi.mono hi.free rfl rfl
      (fun u r p h => (awaiting_setPhase (fun _ => Phase.noConfusion) h).1) hi.out
  | publishAtMostOnce b =>
    rw [step_publishAtMostOnce hi.free] at h; cases h
    split
    · refine hi.mono hi.free rfl rfl (fun _ _ _ h => h) (fun x hx => ?_)
      rcases List.mem_append.mp hx with hx | hx
      · exact hi.out x hx
      · simp at hx; subst hx; simp [Packet.HasRequiredId, PublishBuilder.packet]
    · exact hi
  | ack a =>
    obtain ⟨res, hr⟩ := step_ack h
    exact hi.pktAck hr
  | close =>
    rw [step_close hi.free] at h; cases h
    exact hi.mono hi.free rfl rfl (fun _ _ _ h => h) hi.out
  | ping =>
    rw [step_ping hi.free] at h; cases h
    split
    · refine hi.mono hi.free rfl rfl (fun _ _ _ h => h) (fun x hx => ?_)
      split at hx
      · rcases List.mem_append.mp hx with hx | hx
        · exact hi.out x hx
        · simp at hx; subst hx; trivial
      · exact hi.out x hx
    · exact hi
  | disconnect =>
    rw [step_disconnect] at h; cases h
    exact hi.mono hi.free rfl rfl (fun _ _ _ h => h) hi.out

theorem TableInv.reachable {cap : Nat} (h : Reachable cap s) : TableInv s := by
  induction h with
  | init => exact TableInv.init cap
  | step _ hs ih => exact ih.step hs

/-- In a consistent state the head of `queue_order` always has its slot, so `pkt_ack` never
reaches `unreachable!`. -/
theorem TableInv.pktAck_ne_unreachable (hi : TableInv s) (a : Ack) :
    s.pktAck a ≠ .error unreachableMsg := by
  have hm : borrowMutMsg ≠ unreachableMsg := by decide
  cases ho : s.inner.queueOrder with
  | nil => rw [pktAck_nil hi.free ho]; exact fun h => hm (Except.error.inj h)
  | cons p rest =>
    by_cases hp : p = a.packetId
    · obtain ⟨-, -, ⟨t, tp⟩, hq⟩ := hi.order p (by simp [ho])
      cases hk : a.isMatch tp
      · obtain ⟨_, _, _, he⟩ := pktAck_unexpected hi.free ho hp hq hk
        rw [he]; exact Except.noConfusion
      · obtain ⟨_, _, _, he⟩ := pktAck_match hi.free ho hp hq hk
        rw [he]; exact Except.noConfusion
    · rw [pktAck_ne hi.free ho hp]; exact fun h => hm (Except.error.inj h)

/-- **The in-flight table is consistent in every reachable state.**  `queue_order` has no
duplicate; each of its ids is `k + 1` for an occupied key `k`, lies in `[1, 65535]` and so
survives `NonZeroU16::new(idx as u16)`; `pkt_ack` never reaches `unreachable!`;
`Codec::encode` passes every packet the sink pushed to `encode::encode`, never refusing it
with `PacketIdRequired`; and no two futures wait for the same packet id. -/
theorem inflight_table_consistent {cap : Nat} (h : Reachable cap s) :
    s.inner.queueOrder.Nodup ∧
    (∀ p ∈ s.inner.queueOrder, 1 ≤ p ∧ p ≤ 65535 ∧ (∃ k, p = k + 1 ∧ s.inner.queue.contains k) ∧
      ∃ id, NonZeroU16.new (UInt16.ofNat p) = some id ∧ id.get.toNat = p) ∧
    (∀ a, s.pktAck a ≠ .error unreachableMsg) ∧
    (∀ x ∈ s.out, ∀ getEncodedSize encodeBody (dst : List UInt8),
      Codec.encode getEncodedSize encodeBody x.1 dst =
        (dst ++ ·) <$> encodeBody x.1 (getEncodedSize x.1 % 2 ^ 32)) ∧
    (∀ t u p, s.phase t = some (.awaitingAck p) → s.phase u = some (.awaitingAck p) → t = u) := by
  have hi := TableInv.reachable h
  refine ⟨hi.nodup, fun p hp => ?_, hi.pktAck_ne_unreachable,
    fun x hx gs eb dst => Codec.encode_of_hasRequiredId gs eb (hi.out x hx) dst,
    fun t u p ht hu => ?_⟩
  · obtain ⟨h₁, h₂, v, hv⟩ := hi.order p hp
    exact ⟨h₁, h₂, ⟨p - 1, by omega, Slab.contains_iff.mpr ⟨v, hv⟩⟩, NonZeroU16.new_ofNat h₁ h₂⟩
  · obtain ⟨-, -, tp, hq⟩ := hi.awaiting_phase ht
    obtain ⟨-, -, tp', hq'⟩ := hi.awaiting_phase hu
    rw [hq] at hq'
    exact (Prod.mk.inj (Option.some.inj hq')).1

/-- A QoS-1 publish, its acknowledgement, then a subscribe that reuses packet id `1`: the
publish holds the acknowledgement of id `1`, the subscribe waits for id `1`, and the state is
consistent. -/
theorem inflight_table_after_reuse :
    ∃ s, (new 1).run [.start (.publish ⟨"t", [], false, false⟩), .ack (.publish ⟨1, by decide⟩),
        .start (.subscribe [("t", .atLeastOnce)])] = .ok s ∧
      s.phase 0 = some (.acked (.publish ⟨1, by decide⟩)) ∧ s.phase 1 = some (.awaitingAck 1) ∧
      s.inner.queueOrder = [1] ∧ ∀ a, s.pktAck a ≠ .error unreachableMsg :=
  have hr : (new 1).run [.start (.publish ⟨"t", [], false, false⟩),
      .ack (.publish ⟨1, by decide⟩), .start (.subscribe [("t", .atLeastOnce)])] = _ := rfl
  ⟨_, hr, rfl, rfl, rfl, (inflight_table_consistent (Reachable.run .init hr)).2.2.1⟩

/-! ### No orphan slot -/

/-- The occupied slots of the in-flight table are the slots `id - 1` of the ids in
`queue_order`, and there are as many of them as ids. -/
structure SlotInv (s : MqttSink) : Prop where
  slots : ∀ k, (s.inner.queue.get k).isSome ↔ k + 1 ∈ s.inner.queueOrder
  len : s.inner.queue.len = s.inner.queueOrder.length

theorem SlotInv.init (cap : Nat) : SlotInv (new cap) := ⟨by simp [new], rfl⟩

theorem SlotInv.frame (hi : SlotInv s) (hq : s'.inner.queue = s.inner.queue)
    (ho : s'.inner.queueOrder = s.inner.queueOrder) : SlotInv s' :=
  ⟨fun k => by rw [hq, ho]; exact hi.slots k, by rw [hq, ho]; exact hi.len⟩

/-- Allocation lists the slot it keeps under its id, or rolls it back. -/
theorem SlotInv.allocate (hi : SlotInv s) {a : AckedSend} {t : Nat} {ph : Phase}
    (h : a.allocate t s = .ok (s', ph)) : SlotInv s' := by
  rcases (AckedSend.allocate_cases h).2.2.2.2.2.2 with
    ⟨-, ho, -, hq, hl⟩ | ⟨k, _, -, -, -, -, hq, hl, ho, -⟩
  · exact ⟨fun j => by rw [hq, ho]; exact hi.slots j, by rw [hl, ho]; exact hi.len⟩
  · refine ⟨fun j => ?_, by rw [hl, ho, hi.len, List.length_append, List.length_singleton]⟩
    rw [hq, ho, List.mem_append, List.mem_singleton, Nat.add_right_cancel_iff, ← hi.slots]
    split_ifs with hj <;> simp [hj]

/-- `pkt_ack` frees the slot of the id it pops, whether it delivers the acknowledgement or
rejects it as unexpected. -/
theorem SlotInv.pktAck (hi : SlotInv s) (ht : TableInv s) {a : Ack}
    {res : Except ProtocolError Unit} (h : s.pktAck a = .ok (s', res)) : SlotInv s' := by
  obtain ⟨rest, t, tp, q, ho, -, hq, hl, hs'⟩ := pktAck_cases ht.free h
  obtain ⟨hq', ho'⟩ : s'.inner.queue = q ∧ s'.inner.queueOrder = rest := by
    rcases hs' with ⟨-, -, rfl⟩ | ⟨-, -, rfl⟩ <;> exact ⟨by simp, by simp⟩
  have hid := (ht.order a.packetId (by simp [ho])).1
  have hnd : a.packetId ∉ rest := (List.nodup_cons.mp (ho ▸ ht.nodup)).1
  refine ⟨fun j => ?_, ?_⟩
  · rw [hq', ho', hq]
    split_ifs with hj
    · subst hj
      rw [Nat.sub_add_cancel hid]
      simpa using hnd
    · rw [hi.slots, ho, List.mem_cons, or_iff_right (by omega)]
  · have hlen := hi.len
    rw [ho, List.length_cons] at hlen
    rw [hq', ho']
    omega

/-- Every event keeps the slots listed. -/
theorem SlotInv.step (hi : SlotInv s) (ht : TableInv s) {e : Event} (h : s.step e = .ok s') :
    SlotInv s' := by
  cases e with
  | start r =>
    obtain ⟨s₁, ph, hs, rfl⟩ := step_start h
    rcases AckedSend.start_cases ht.free hs with ⟨-, rfl, rfl⟩ | ⟨-, -, rfl, rfl⟩ | ⟨-, -, ha⟩
    · exact hi.frame rfl rfl
    · exact hi.frame rfl rfl
    · exact (hi.allocate ha).frame rfl rfl
  | poll t =>
    cases ht' : s.tasks[t]? with
    | none => rw [step_poll_none ht'] at h; cases h; exact hi
    | some task =>
      obtain ⟨r, ph⟩ := task
      by_cases hw : ph = .woken
      · subst hw
        obtain ⟨s₁, ph', ha, rfl⟩ := step_poll_woken ht.free ht' h
        exact (hi.allocate ha).frame rfl rfl
      · obtain ⟨ph', -, rfl⟩ := step_poll_finish ht' hw h
        exact hi.frame rfl rfl
  | drop t => rw [step_drop] at h; cases h; exact hi.frame rfl rfl
  | publishAtMostOnce b =>
    rw [step_publishAtMostOnce ht.free] at h; cases h
    split <;> exact hi.frame rfl rfl
  | ack a =>
    obtain ⟨res, hr⟩ := step_ack h
    exact hi.pktAck ht hr
  | close => rw [step_close ht.free] at h; cases h; exact hi.frame rfl rfl
  | ping =>
    rw [step_ping ht.free] at h; cases h
    split <;> exact hi.frame rfl rfl
  | disconnect => rw [step_disconnect] at h; cases h; exact hi.frame rfl rfl

theorem SlotInv.reachable {cap : Nat} (h : Reachable cap s) : SlotInv s := by
  induction h with
  | init => exact SlotInv.init cap
  | step hr hs ih => exact ih.step (TableInv.reachable hr) hs

/-- **No orphan slot.**  In every reachable state a slot of the in-flight table is occupied
exactly when `queue_order` lists its id, so `queue.len()` is `queue_order.len()`: every slot a
send takes stays listed until the acknowledgement that frees it. -/
theorem inflight_slots_listed {cap : Nat} (h : Reachable cap s) :
    (∀ k, s.inner.queue.contains k ↔ k + 1 ∈ s.inner.queueOrder) ∧
    s.inner.queue.len = s.inner.queueOrder.length :=
  ⟨(SlotInv.reachable h).slots, (SlotInv.reachable h).len⟩

/-- After a QoS-1 publish, its acknowledgement and a subscribe: one slot, listed under id `1`. -/
theorem inflight_slots_after_reuse :
    ∃ s, (new 1).run [.start (.publish ⟨"t", [], false, false⟩), .ack (.publish ⟨1, by decide⟩),
        .start (.subscribe [("t", .atLeastOnce)])] = .ok s ∧
      (∀ k, s.inner.queue.contains k ↔ k + 1 ∈ s.inner.queueOrder) ∧
      s.inner.queue.len = s.inner.queueOrder.length :=
  have hr : (new 1).run [.start (.publish ⟨"t", [], false, false⟩),
      .ack (.publish ⟨1, by decide⟩), .start (.subscribe [("t", .atLeastOnce)])] = _ := rfl
  ⟨_, hr, inflight_slots_listed (Reachable.run .init hr)⟩

end MqttSink

end ActixMqtt.V3
