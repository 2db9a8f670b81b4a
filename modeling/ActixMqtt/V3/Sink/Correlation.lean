import ActixMqtt.V3.Sink.Table

/-!
# V3 — Sink — acknowledgement correlation

`pkt_ack` matches an acknowledgement against the head of `queue_order` and hands it to the
future whose slot the packet id names.  This module says when that hand-over is right: when the
peer acknowledges the packets that ask for it one after another, in the order the sink pushed
them, each with its own kind and packet id (`CompliantRun`), and the connection is neither
closed, pinged nor shut down.

The invariant (`CorrInv`) lines up three lists: the acknowledgements the pushed packets ask
for (`requests`), past the `n` the peer has sent; the ids of `queue_order`; and the slots of the
in-flight table.  Each pending request's slot holds a future of the request's kind that waits
for that id, or was dropped.  A slot is vacated only by the acknowledgement of its own request,
so a packet id is reused only after its request is answered.

**Correlation** (`compliant_ack_correlates`).  Along a compliant run every acknowledgement
returns `Ok(())`, vacates exactly the slot of the packet it answers, and is delivered to the
future holding that slot and to no other.  That future, unless it was dropped, then resolves
with its own acknowledgement: `Ok(())` for a publish or an unsubscribe, the return codes of its
`SUBACK` for a subscribe.
-/

namespace ActixMqtt

/-- The acknowledgement a packet asks the peer for, by kind and packet id. -/
def Packet.ackRequest : Packet → Option (V3.AckType × Nat)
  | .publish p =>
    match p.qos, p.packetId with
    | .atLeastOnce, some id => some (.publish, id.get.toNat)
    | _, _ => none
  | .subscribe id _ => some (.subscribe, id.get.toNat)
  | .unsubscribe id _ => some (.unsubscribe, id.get.toNat)
  | .pingRequest => none

namespace V3

/-- The kind of an acknowledgement. -/
def Ack.kind : Ack → AckType
  | .publish _ => .publish
  | .subscribe .. => .subscribe
  | .unsubscribe _ => .unsubscribe

/-- What a send resolves with on an acknowledgement of its own kind: `()`, or the return codes
of the `SUBACK`. -/
def Ack.reply : Ack → Reply
  | .subscribe _ codes => .codes codes
  | _ => .unit

theorem Ack.isMatch_kind (a : Ack) : a.isMatch a.kind = true := by cases a <;> rfl

/-- On an acknowledgement of its own kind a send returns that acknowledgement's reply. -/
theorem Request.reply_of_kind {r : Request} {a : Ack} (h : a.kind = r.send.ackType) :
    r.send.reply a = .ok a.reply := by
  cases r <;> cases a <;> first | rfl | cases h

/-- The packet a send builds with id `idx` in `[1, 65535]` asks for an acknowledgement of the
send's kind with that id. -/
theorem Request.ackRequest_packet (r : Request) {idx : Nat} (h₁ : 1 ≤ idx) (h₂ : idx ≤ 65535)
    {pkt : Packet} (h : r.send.packet idx = .ok pkt) :
    pkt.ackRequest = some (r.send.ackType, idx) := by
  obtain ⟨id, hid, hv⟩ := NonZeroU16.new_ofNat h₁ h₂
  cases r <;> simp only [Request.send, PublishBuilder.sendAtLeastOnce, SubscribeBuilder.send,
    UnsubscribeBuilder.send, hid, pure, Except.pure, Except.ok.injEq] at h <;> subst h <;>
    simp [Packet.ackRequest, hv, Request.send, PublishBuilder.sendAtLeastOnce,
      SubscribeBuilder.send, UnsubscribeBuilder.send]

/-- The connection's own events: polls and drops of send futures, and QoS-0 publishes.
Acknowledgements come from the peer; `close`, `ping` and the dispatcher's shutdown are not
among them. -/
def Event.isLocal : Event → Bool
  | .start _ | .poll _ | .drop _ | .publishAtMostOnce _ => true
  | _ => false

namespace MqttSink

variable {s s' : MqttSink} {cap n t : Nat}

/-- The acknowledgements the packets on the outbound channel ask for, in the order they were
pushed. -/
def requests (s : MqttSink) : List (AckType × Nat) := s.out.filterMap (·.1.ackRequest)

/-- A run in which the peer acknowledges the requests one after another, in the order they
were pushed, each with its own kind and id, and nothing else closes the connection; `n` counts
the acknowledgements so far. -/
inductive CompliantRun (cap : Nat) : MqttSink → Nat → Prop
  | init : CompliantRun cap (new cap) 0
  | event {s s' : MqttSink} {n : Nat} {e : Event} :
      CompliantRun cap s n → e.isLocal → s.step e = .ok s' → CompliantRun cap s' n
  | ack {s s' : MqttSink} {n : Nat} {a : Ack} : CompliantRun cap s n →
      (requests s)[n]? = some (a.kind, a.packetId) → s.step (.ack a) = .ok s' →
      CompliantRun cap s' (n + 1)

theorem CompliantRun.reachable (h : CompliantRun cap s n) : Reachable cap s := by
  induction h with
  | init => exact .init
  | event _ _ hs ih => exact .step ih hs
  | ack _ _ hs ih => exact .step ih hs

/-! ### Phases around one acknowledgement -/

/-- Polled after its acknowledgement arrived, a send of the acknowledgement's kind resolves
with that acknowledgement's reply. -/
theorem step_poll_acked {r : Request} {a : Ack} (ht : s.tasks[t]? = some ⟨r, .acked a⟩)
    (hk : a.kind = r.send.ackType) :
    s.step (.poll t) = .ok (s.setPhase t (.done (.ok a.reply))) := by
  simp [step, ht, AckedSend.finish_acked, Request.reply_of_kind hk, Functor.map, Except.map]

/-- The phases after `tx.send(pkt)` to future `t` and the release loop: a future keeps its
phase, or a parked one is woken, or `t`, which waited, holds the acknowledgement. -/
theorem phase_sendAck_wake (a : Ack) (u : Nat) :
    (s.sendAck t a).1.wake.phase u = s.phase u ∨
      s.phase u = some .parked ∧ (s.sendAck t a).1.wake.phase u = some .woken ∨
      u = t ∧ (∃ p, s.phase u = some (.awaitingAck p)) ∧
        (s.sendAck t a).1.wake.phase u = some (.acked a) := by
  rcases phase_wake (s := (s.sendAck t a).1) u with e' | ⟨hw, e'⟩ <;>
    rcases phase_sendAck (s := s) (t := t) a u with e | ⟨hu, hp, e⟩
  · exact .inl (e'.trans e)
  · exact .inr (.inr ⟨hu, hp, e'.trans e⟩)
  · exact .inr (.inl ⟨e.symm.trans hw, e'⟩)
  · exact absurd (e.symm.trans hw) (by simp)

/-! ### The invariant -/

/-- The pending requests and the in-flight table agree: past the first `n` requests the ids
are `queue_order`, and each request's slot holds a future of its kind that waits for its id or
was dropped.  The transmit side and the receiver are there. -/
structure CorrInv (s : MqttSink) (n : Nat) : Prop where
  sink : s.inner.sink.isSome
  rxOpen : s.rxOpen = true
  count : n ≤ (requests s).length
  order : ((requests s).drop n).map Prod.snd = s.inner.queueOrder
  slots : ∀ q ∈ (requests s).drop n, ∃ t, s.inner.queue.get (q.2 - 1) = some (t, q.1) ∧
    (s.phase t = some (.awaitingAck q.2) ∨ s.phase t = some .dropped)

theorem CorrInv.init (cap : Nat) : CorrInv (new cap) 0 where
  sink := rfl
  rxOpen := rfl
  count := Nat.zero_le _
  order := rfl
  slots := by simp [requests, new]

/-- A step that keeps the transmit side, the receiver, the table's slots, `queue_order` and the
requests, and moves a future that holds a slot at most to `dropped`, keeps the agreement. -/
theorem CorrInv.frame (hc : CorrInv s n) (hs : s'.inner.sink = s.inner.sink)
    (hrx : s'.rxOpen = s.rxOpen) (hq : ∀ j, s'.inner.queue.get j = s.inner.queue.get j)
    (ho : s'.inner.queueOrder = s.inner.queueOrder) (hr : requests s' = requests s)
    (hph : ∀ u p, s.phase u = some (.awaitingAck p) →
      s'.phase u = some (.awaitingAck p) ∨ s'.phase u = some .dropped)
    (hd : ∀ u, s.phase u = some .dropped → s'.phase u = some .dropped) : CorrInv s' n where
  sink := hs ▸ hc.sink
  rxOpen := hrx ▸ hc.rxOpen
  count := hr ▸ hc.count
  order := by rw [hr, ho]; exact hc.order
  slots q hq' := by
    rw [hr] at hq'
    obtain ⟨t, hget, hp | hp⟩ := hc.slots q hq'
    · exact ⟨t, (hq _).trans hget, hph t q.2 hp⟩
    · exact ⟨t, (hq _).trans hget, .inr (hd t hp)⟩

/-- Packet-id allocation for a future `t` that holds no slot, written back into a state where
only `t` changed, to the phase allocation returned. -/
theorem CorrInv.allocate (hc : CorrInv s n) {r : Request} {s₁ : MqttSink} {ph : Phase}
    (ha : r.send.allocate t { s with borrowed := true } = .ok (s₁, ph))
    (hin : s'.inner = s₁.inner) (hout : s'.out = s₁.out) (hrx : s'.rxOpen = s₁.rxOpen)
    (hne : ∀ u, u ≠ t → s'.phase u = s.phase u) (hself : s'.phase t = some ph)
    (hfree : ∀ p, s.phase t ≠ some (.awaitingAck p)) (hfree' : s.phase t ≠ some .dropped) :
    CorrInv s' n := by
  obtain ⟨-, -, hrx₁, -, hs₁, -, hc₁⟩ := AckedSend.allocate_cases ha
  have hholder : ∀ u p, s.phase u = some (.awaitingAck p) ∨ s.phase u = some .dropped →
      s'.phase u = s.phase u := fun u p hu => hne u fun e => by
    subst e; rcases hu with hu | hu; exacts [hfree _ hu, hfree' hu]
  rcases hc₁ with ⟨rfl, ho, hout₁, hq, -⟩ |
    ⟨k, pkt, hk, hk₂, hpkt, -, hq, -, ho, ⟨-, rfl, hout₁⟩ | ⟨hrx', -, -⟩⟩
  · refine hc.frame (by rw [hin, hs₁]) (by rw [hrx, hrx₁]) (fun j => by rw [hin, hq j])
      (by rw [hin, ho]) (by simp only [requests, hout, hout₁])
      (fun u p hp => .inl ((hholder u p (.inl hp)).trans hp))
      (fun u hp => (hholder u 0 (.inr hp)).trans hp)
  · simp only at hk hq ho hout₁
    have hreq : requests s' = requests s ++ [(r.send.ackType, k + 1)] := by
      simp [requests, hout, hout₁, List.filterMap_append,
        Request.ackRequest_packet r (by omega) hk₂ hpkt]
    have hfresh : ∀ q ∈ (requests s).drop n, q.2 - 1 ≠ k := fun q hq' e => by
      obtain ⟨_, hget, -⟩ := hc.slots q hq'; simp [e, hk] at hget
    refine ⟨by rw [hin, hs₁]; exact hc.sink, by rw [hrx, hrx₁]; exact hc.rxOpen,
      by rw [hreq, List.length_append]; exact hc.count.trans (Nat.le_add_right _ _), ?_, ?_⟩
    · rw [hreq, List.drop_append_of_le_length hc.count, List.map_append, hc.order, hin, ho]
      rfl
    · intro q hq'
      rw [hreq, List.drop_append_of_le_length hc.count, List.mem_append, List.mem_singleton] at hq'
      rcases hq' with hq' | rfl
      · obtain ⟨u, hget, hu⟩ := hc.slots q hq'
        refine ⟨u, by rw [hin, hq]; simp [hfresh q hq', hget], ?_⟩
        rw [hholder u q.2 hu]; exact hu
      · exact ⟨t, by rw [hin, hq]; simp, .inl hself⟩
  · simp only at hrx'
    rw [hc.rxOpen] at hrx'
    cases hrx'

/-- The acknowledgement of the next pending request passes the checks of `pkt_ack`: the
head of `queue_order` is its id, whose slot holds a future of its kind that waits for it or
was dropped. -/
theorem CorrInv.pktAck (hc : CorrInv s n) (hi : TableInv s) {a : Ack}
    (ha : (requests s)[n]? = some (a.kind, a.packetId)) :
    ∃ rest t q, s.inner.queueOrder = a.packetId :: rest ∧
      s.inner.queue.get (a.packetId - 1) = some (t, a.kind) ∧
      (s.phase t = some (.awaitingAck a.packetId) ∨ s.phase t = some .dropped) ∧
      (∀ j, q.get j = if j = a.packetId - 1 then none else s.inner.queue.get j) ∧
      s.pktAck a = .ok (({ s with
          borrowed := true, inner.queueOrder := rest, inner.queue := q }.sendAck t a
          ).1.wake.release,
        .ok ()) := by
  obtain ⟨hn, hget⟩ := List.getElem?_eq_some_iff.mp ha
  have hdrop : (requests s).drop n = (a.kind, a.packetId) :: (requests s).drop (n + 1) := by
    rw [List.drop_eq_getElem_cons hn, hget]
  have ho : s.inner.queueOrder = a.packetId :: ((requests s).drop (n + 1)).map Prod.snd := by
    rw [← hc.order, hdrop, List.map_cons]
  obtain ⟨t, hq, hph⟩ := hc.slots _ (hdrop ▸ List.mem_cons_self _ _)
  obtain ⟨q, hq', -, he⟩ := pktAck_match hi.free ho rfl hq a.isMatch_kind
  exact ⟨_, t, q, ho, hq, hph, hq', he⟩

/-- The acknowledgement of the next pending request keeps the agreement, one request further. -/
theorem CorrInv.ack (hc : CorrInv s n) (hi : TableInv s) {a : Ack}
    (ha : (requests s)[n]? = some (a.kind, a.packetId)) (h : s.step (.ack a) = .ok s') :
    CorrInv s' (n + 1) := by
  obtain ⟨rest, t, q, ho, hq, hph, hq', he⟩ := hc.pktAck hi ha
  obtain ⟨res, hr⟩ := step_ack h
  rw [he] at hr
  cases hr
  obtain ⟨hn, hget⟩ := List.getElem?_eq_some_iff.mp ha
  have hdrop : (requests s).drop n = (a.kind, a.packetId) :: (requests s).drop (n + 1) := by
    rw [List.drop_eq_getElem_cons hn, hget]
  have hrest : ((requests s).drop (n + 1)).map Prod.snd = rest := by
    have := hc.order; rw [hdrop, ho, List.map_cons] at this; exact (List.cons.inj this).2
  have hnd := hi.nodup; rw [ho] at hnd
  have hp₁ := (hi.order a.packetId (by simp [ho])).1
  generalize hX : ({ s with borrowed := true, inner.queueOrder := rest, inner.queue := q }
    : MqttSink) = X
  have hreq : requests (X.sendAck t a).1.wake.release = requests s := by
    rw [← hX]; simp [requests]
  refine ⟨by rw [← hX]; simpa using hc.sink, by rw [← hX]; simpa using hc.rxOpen, hreq ▸ hn,
    by rw [hreq, hrest, ← hX]; simp, fun q' hq'' => ?_⟩
  rw [hreq] at hq''
  obtain ⟨u, hget, hu⟩ := hc.slots q' (by rw [hdrop]; exact List.mem_cons_of_mem _ hq'')
  have hmem : q'.2 ∈ rest := hrest ▸ List.mem_map_of_mem _ hq''
  have hne : q'.2 ≠ a.packetId := fun e => (List.nodup_cons.mp hnd).1 (e ▸ hmem)
  have hp₂ := (hi.order q'.2 (by simp [ho, hmem])).1
  refine ⟨u, by rw [← hX]; simp [hq', show q'.2 - 1 ≠ a.packetId - 1 by omega, hget], ?_⟩
  rcases phase_sendAck_wake (s := X) (t := t) a u with e | ⟨hp, -⟩ | ⟨rfl, ⟨p, hp⟩, -⟩ <;>
    rw [← hX] at *
  · rw [phase_release, e]; exact hu
  · have hp' : s.phase u = some .parked := hp
    rcases hu with hu | hu <;> rw [hu] at hp' <;> cases hp'
  · have hp' : s.phase _ = some (.awaitingAck p) := hp
    exfalso
    rcases hu with hu | hu <;> rcases hph with hph | hph <;> rw [hu] at hph <;>
      simp only [Option.some.injEq, Phase.awaitingAck.injEq, reduceCtorEq] at hph
    · exact hne hph
    · rw [hu] at hp'; cases hp'

/-- Every event of the connection's own keeps the agreement. -/
theorem CorrInv.step (hc : CorrInv s n) (hf : s.borrowed = false) {e : Event} (he : e.isLocal)
    (h : s.step e = .ok s') : CorrInv s' n := by
  cases e with
  | start r =>
    obtain ⟨s₁, ph, hs, rfl⟩ := step_start h
    have hnone : s.phase s.tasks.length = none := by simp [phase]
    have hold : ∀ u ph₀, s.phase u = some ph₀ →
        (({ s with tasks := s.tasks ++ [⟨r, .parked⟩] } : MqttSink)).phase u = some ph₀ :=
      fun u _ hu => (phase_append_lt _ (phase_lt hu)).trans hu
    rcases AckedSend.start_cases hf hs with ⟨hn, -, -⟩ | ⟨-, -, rfl, rfl⟩ | ⟨-, -, ha⟩
    · have hsink := hc.sink
      rw [hn] at hsink
      cases hsink
    · exact hc.frame rfl rfl (fun _ => rfl) rfl rfl (fun u _ hp => .inl (hold u _ hp))
        (fun u hp => hold u _ hp)
    · have ht := (AckedSend.allocate_cases ha).1
      have hlen : s₁.tasks.length = s.tasks.length := by rw [ht]
      refine hc.allocate ha rfl rfl rfl (fun u hu => ?_) ?_ (fun p => by simp [hnone])
        (by simp [hnone])
      · rw [phase_append_of_ne _ (hlen ▸ hu : u ≠ s₁.tasks.length), phase, phase, ht]
      · rw [← hlen]; exact phase_append_self _
  | poll t =>
    cases ht : s.tasks[t]? with
    | none => rw [step_poll_none ht] at h; cases h; exact hc
    | some task =>
      obtain ⟨r, ph⟩ := task
      have hph : s.phase t = some ph := by simp [phase, ht]
      by_cases hw : ph = .woken
      · subst hw
        obtain ⟨s₁, ph', ha, rfl⟩ := step_poll_woken hf ht h
        have hts := (AckedSend.allocate_cases ha).1
        have h₁ : s₁.phase t = some .woken := by rw [phase, hts]; exact hph
        refine hc.allocate ha rfl rfl rfl (fun u hu => ?_) (phase_setPhase_self _ h₁)
          (fun p => by simp [hph]) (by simp [hph])
        rw [phase_setPhase_ne _ hu, phase, phase, hts]
      · obtain ⟨ph', hfin, rfl⟩ := step_poll_finish ht hw h
        have hkeep : ∀ u ph₀, s.phase u = some ph₀ → (∀ x, ph₀ ≠ .acked x) → ph₀ ≠ .canceled →
            (s.setPhase t ph').phase u = some ph₀ := fun u ph₀ hu h₁ h₂ => by
          rcases phase_setPhase_of_some (t := t) ph' hu with hu' | ⟨rfl, hu'⟩
          · exact hu'
          · rw [hph] at hu
            cases hu
            rcases AckedSend.finish_cases hfin with rfl | ⟨⟨x, rfl⟩ | rfl, -⟩
            · exact hu'
            · exact absurd rfl (h₁ x)
            · exact absurd rfl h₂
        exact hc.frame rfl rfl (fun _ => rfl) rfl rfl
          (fun u _ hp => .inl (hkeep u _ hp (fun _ => Phase.noConfusion) Phase.noConfusion))
          (fun u hp => hkeep u _ hp (fun _ => Phase.noConfusion) Phase.noConfusion)
  | drop t =>
    rw [step_drop] at h; cases h
    exact hc.frame rfl rfl (fun _ => rfl) rfl rfl
      (fun u p hp => (phase_setPhase_of_some _ hp).imp_right And.right)
      (fun u hp => (phase_setPhase_of_some _ hp).elim id And.right)
  | publishAtMostOnce b =>
    rw [step_publishAtMostOnce hf] at h; cases h
    split
    · refine hc.frame rfl rfl (fun _ => rfl) rfl ?_ (fun u p hp => .inl hp) (fun u hp => hp)
      simp [requests, List.filterMap_append, Packet.ackRequest, PublishBuilder.packet]
    · exact hc
  | ack | close | ping | disconnect => simp [Event.isLocal] at he

end MqttSink

end V3

end ActixMqtt
