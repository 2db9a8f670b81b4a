import ActixMqtt.V3.Sink.Table

/-!
# V3 — Sink — admission and the transmit side

What a send checks before it allocates, and when.  The first poll checks the transmit side and
the receive maximum (`AckedSend.start_cases`, `AckedSend.start_allocates`); the poll after the
waiter one-shot fired checks neither and goes straight to allocation (`AckedSend.resume_eq`,
`resume_closed_panics`).

* The receive maximum is not an invariant.  A send woken by an acknowledgement allocates even
  when a send that started after the wake-up took the freed slot, so two sends share one slot
  of budget: `receive_maximum_exceeded` reaches two in-flight packets at `cap = 1` with every
  acknowledgement in order, and the next send's `cap - len` wraps below zero.
* A send parked while the sink was open and woken after `close()` or `ping()` reaches
  `inner.sink.as_ref().unwrap()` on `None` (`woken_send_after_close_panics`).
* The transmit side changes only in `close()` and `ping()`; `pkt_ack` never changes it
  (`pktAck_sink`).  `ping()` takes it out of the cell, so a send after a ping on an open sink is
  refused with `Disconnected` (`sink_changes_only_at_close_or_ping`).
* Once the transmit side is gone it never comes back, and no run of events pushes another
  packet onto the outbound channel (`closed_sink_stays_silent`): a send either refuses at its
  first poll, rolls back at id `65536`, or panics at the unwrap above.
-/

namespace ActixMqtt.V3

/-- In `[1, 65535]` each of the three sends builds its packet. -/
theorem Request.packet_ok (r : Request) {idx : Nat} (h₁ : 1 ≤ idx) (h₂ : idx ≤ 65535) :
    ∃ pkt, r.send.packet idx = .ok pkt := by
  obtain ⟨id, hid, -⟩ := NonZeroU16.new_ofNat h₁ h₂
  cases r <;> simp [Request.send, PublishBuilder.sendAtLeastOnce, SubscribeBuilder.send,
    UnsubscribeBuilder.send, hid, pure, Except.pure]

namespace AckedSend

variable {a : AckedSend} {s : MqttSink} {t : Nat} {pkt : Packet}

/-- With a packet id to spare, allocation on an open sink whose receiver is there pushes the
packet and waits for its acknowledgement; the in-flight count goes up by one. -/
theorem allocate_open (hk : s.inner.queue.vacantKey + 1 ≤ 65535)
    (hp : a.packet (s.inner.queue.vacantKey + 1) = .ok pkt) (hs : s.inner.sink.isSome)
    (hrx : s.rxOpen = true) :
    ∃ s', a.allocate t s = .ok (s', .awaitingAck (s.inner.queue.vacantKey + 1)) ∧
      s'.inner.queue.len = s.inner.queue.len + 1 := by
  refine ⟨MqttSink.release { s with
      inner.queue := (s.inner.queue.insert (t, a.ackType)).1
      inner.queueOrder := s.inner.queueOrder ++ [s.inner.queue.vacantKey + 1]
      out := s.out ++ [(pkt, 0)] }, ?_, s.inner.queue.len_insert (t, a.ackType)⟩
  simp only [allocate, Slab.insert_key, gt_iff_lt, bind, Except.bind, hp, hrx]
  rw [if_neg (by omega)]
  simp only [pure, Except.pure, if_true]
  split
  · simp_all
  · rfl

/-- With a packet id to spare, allocation on a sink whose transmit side is gone panics in
`inner.sink.as_ref().unwrap()`. -/
theorem allocate_closed (hk : s.inner.queue.vacantKey + 1 ≤ 65535)
    (hp : a.packet (s.inner.queue.vacantKey + 1) = .ok pkt) (hs : s.inner.sink = none) :
    a.allocate t s = .error unwrapNone := by
  simp only [allocate, Slab.insert_key, gt_iff_lt, bind, Except.bind, hp, hs]
  rw [if_neg (by omega)]
  rfl

end AckedSend

namespace MqttSink

variable {s s' : MqttSink} {t : Nat} {r : Request}

/-- Below the receive maximum, the first poll of a send on an open sink goes straight to
allocation. -/
theorem AckedSend.start_allocates {a : AckedSend} (hf : s.borrowed = false)
    (hs : s.inner.sink.isSome) (hc : usizeSub s.inner.cap s.inner.queue.len ≠ 0) :
    a.start t s = a.allocate t { s with borrowed := true } := by
  obtain ⟨x, hx⟩ := Option.isSome_iff_exists.mp hs
  simp [AckedSend.start, borrowMut_of_free hf, hx, hc, bind, Except.bind, pure, Except.pure]

/-- Two QoS-1 publishes at `cap = 1`: the second parks; the first is acknowledged, which
wakes the second; a third starts before the second resumes and takes the freed slot; then the
second resumes and allocates as well.  Every acknowledgement is the one for the packet on the
wire, and the table ends with two in-flight slots, so the next send's `cap - len` wraps. -/
theorem receive_maximum_exceeded :
    ((new 1).run [.start (.publish ⟨"t", [], false, false⟩), .start (.publish ⟨"t", [], false, false⟩),
        .ack (.publish ⟨1, by decide⟩), .start (.publish ⟨"t", [], false, false⟩), .poll 1]).map
      (fun s => (s.inner.cap, s.inner.queue.len, s.inner.queueOrder,
        usizeSub s.inner.cap s.inner.queue.len)) =
      .ok (1, 2, [1, 2], 2 ^ 64 - 1) := rfl

/-- A woken send polled after the transmit side is gone panics on `unwrap()` instead of
returning `Disconnected`. -/
theorem resume_closed_panics (hf : s.borrowed = false) (ht : s.tasks[t]? = some ⟨r, .woken⟩)
    (hk : s.inner.queue.vacantKey + 1 ≤ 65535) (hs : s.inner.sink = none) :
    s.step (.poll t) = .error unwrapNone := by
  obtain ⟨pkt, hp⟩ := r.packet_ok (Nat.le_add_left 1 _) hk
  have ha := AckedSend.allocate_closed (t := t) (s := { s with borrowed := true }) hk hp hs
  simp [step, ht, AckedSend.resume_eq hf, ha, bind, Except.bind]

/-- At `cap = 1`, a second publish parks; then `close()` (or `ping()`) runs, the first publish
is acknowledged, which wakes the second, and the second panics when polled. -/
theorem woken_send_after_close_panics :
    (new 1).run [.start (.publish ⟨"t", [], false, false⟩), .start (.publish ⟨"t", [], false, false⟩),
        .close, .ack (.publish ⟨1, by decide⟩), .poll 1] = .error unwrapNone ∧
    (new 1).run [.start (.publish ⟨"t", [], false, false⟩), .start (.publish ⟨"t", [], false, false⟩),
        .ping, .ack (.publish ⟨1, by decide⟩), .poll 1] = .error unwrapNone :=
  ⟨rfl, rfl⟩

/-- Only `close()` and `ping()` change the transmit side. -/
theorem step_sink_of_ne {e : Event} (hf : s.borrowed = false) (h₁ : e ≠ .close) (h₂ : e ≠ .ping)
    (h : s.step e = .ok s') : s'.inner.sink = s.inner.sink := by
  cases e with
  | start r =>
    obtain ⟨s₁, ph, hs, rfl⟩ := step_start h
    rcases AckedSend.start_cases hf hs with ⟨-, rfl, -⟩ | ⟨-, -, rfl, -⟩ | ⟨-, -, ha⟩
    · rfl
    · rfl
    · exact (AckedSend.allocate_cases ha).2.2.2.2.1
  | poll t =>
    cases ht : s.tasks[t]? with
    | none => rw [step_poll_none ht] at h; cases h; rfl
    | some task =>
      obtain ⟨r, ph⟩ := task
      by_cases hw : ph = .woken
      · subst hw
        obtain ⟨s₁, ph', ha, rfl⟩ := step_poll_woken hf ht h
        exact (AckedSend.allocate_cases ha).2.2.2.2.1
      · obtain ⟨ph', -, rfl⟩ := step_poll_finish ht hw h
        rfl
  | drop t => rw [step_drop] at h; cases h; rfl
  | publishAtMostOnce b => rw [step_publishAtMostOnce hf] at h; cases h; split <;> rfl
  | ack a => obtain ⟨res, hr⟩ := step_ack h; exact pktAck_sink hf hr
  | close => exact absurd rfl h₁
  | ping => exact absurd rfl h₂
  | disconnect => rw [step_disconnect] at h; cases h; rfl

/-- `ping()` on an open sink leaves the transmit side `None` and the cell free. -/
theorem ping_takes_sink (hf : s.borrowed = false) (hs : s.inner.sink.isSome) :
    ∃ s', s.step .ping = .ok s' ∧ s'.inner.sink = none ∧ s'.borrowed = false := by
  rw [step_ping hf, if_pos hs]
  exact ⟨_, rfl, rfl, by split <;> exact hf⟩

/-- On a closed sink the first poll of a send returns `Disconnected`. -/
theorem step_start_closed (hf : s.borrowed = false) (hs : s.inner.sink = none) (r : Request) :
    s.step (.start r) = .ok { s with tasks := s.tasks ++ [⟨r, .done (.error .disconnected)⟩] } := by
  simp [step, AckedSend.start, borrowMut_of_free hf, hs, release, bind, Except.bind, pure,
    Except.pure, hf]

/-- A QoS-1 publish after `ping()` on a fresh sink is refused with `Disconnected`. -/
theorem send_after_ping_disconnected :
    ((new 1).run [.ping, .start (.publish ⟨"t", [], false, false⟩)]).map
      (fun s => (s.inner.sink.isSome, s.phase 0)) =
      .ok (false, some (.done (.error .disconnected))) := rfl

/-- **Where the transmit side changes.**  From every reachable state, every event other than
`close()` and `ping()` leaves `inner.sink` as it is, `pkt_ack` included on every path that
returns.  `ping()` on an open sink takes it, and after that the first poll of any send returns
`Disconnected`. -/
theorem sink_changes_only_at_close_or_ping {cap : Nat} (hr : Reachable cap s) :
    (∀ e s', e ≠ .close → e ≠ .ping → s.step e = .ok s' → s'.inner.sink = s.inner.sink) ∧
    (s.inner.sink.isSome → ∃ s', s.step .ping = .ok s' ∧ s'.inner.sink = none ∧
      ∀ r, s'.step (.start r) =
        .ok { s' with tasks := s'.tasks ++ [⟨r, .done (.error .disconnected)⟩] }) := by
  have hf := (TableInv.reachable hr).free
  refine ⟨fun e s' h₁ h₂ h => step_sink_of_ne hf h₁ h₂ h, fun hs => ?_⟩
  obtain ⟨s', hp, hs', hf'⟩ := ping_takes_sink hf hs
  exact ⟨s', hp, hs', step_start_closed hf' hs'⟩

/-- A fresh sink is open: `ping()` closes it, and the publish after it is refused. -/
theorem ping_then_publish_refused :
    ∃ s', (new 1).step .ping = .ok s' ∧ s'.inner.sink = none ∧
      ∀ r, s'.step (.start r) =
        .ok { s' with tasks := s'.tasks ++ [⟨r, .done (.error .disconnected)⟩] } :=
  (sink_changes_only_at_close_or_ping .init).2 rfl

/-- One event on a closed sink: the transmit side stays `None`, nothing is pushed, and the cell
is released. -/
theorem step_closed (hf : s.borrowed = false) (hs : s.inner.sink = none) {e : Event}
    (h : s.step e = .ok s') : s'.inner.sink = none ∧ s'.out = s.out ∧ s'.borrowed = false := by
  have hns : ¬ s.inner.sink.isSome := by simp [hs]
  cases e with
  | start r =>
    obtain ⟨s₁, ph, hst, rfl⟩ := step_start h
    rcases AckedSend.start_cases hf hst with ⟨-, rfl, -⟩ | ⟨hsome, -⟩ | ⟨hsome, -⟩
    · exact ⟨hs, rfl, hf⟩
    all_goals exact absurd hsome hns
  | poll t =>
    cases ht : s.tasks[t]? with
    | none => rw [step_poll_none ht] at h; cases h; exact ⟨hs, rfl, hf⟩
    | some task =>
      obtain ⟨r, ph⟩ := task
      by_cases hw : ph = .woken
      · subst hw
        obtain ⟨s₁, ph', ha, rfl⟩ := step_poll_woken hf ht h
        obtain ⟨-, hb, -, -, hsk, -, ⟨-, ho, hout, -⟩ | ⟨_, _, -, -, -, hsome, -⟩⟩ :=
          AckedSend.allocate_cases ha
        · exact ⟨hsk.trans hs, hout, hb⟩
        · exact absurd hsome hns
      · obtain ⟨ph', -, rfl⟩ := step_poll_finish ht hw h
        exact ⟨hs, rfl, hf⟩
  | drop t => rw [step_drop] at h; cases h; exact ⟨hs, rfl, hf⟩
  | publishAtMostOnce b =>
    rw [step_publishAtMostOnce hf, if_neg fun h => hns h.1] at h; cases h
    exact ⟨hs, rfl, hf⟩
  | ack a =>
    obtain ⟨res, hr⟩ := step_ack h
    obtain ⟨rest, t, tp, q, -, -, -, -, ⟨-, -, rfl⟩ | ⟨-, -, rfl⟩⟩ := pktAck_cases hf hr <;>
      exact ⟨by simpa using hs, by simp, rfl⟩
  | close => rw [step_close hf] at h; cases h; exact ⟨rfl, rfl, hf⟩
  | ping => rw [step_ping hf, if_neg hns] at h; cases h; exact ⟨hs, rfl, hf⟩
  | disconnect => rw [step_disconnect] at h; cases h; exact ⟨hs, rfl, hf⟩

theorem run_closed {es : List Event} (hf : s.borrowed = false) (hs : s.inner.sink = none)
    (h : s.run es = .ok s') : s'.inner.sink = none ∧ s'.out = s.out := by
  induction es generalizing s with
  | nil => cases h; exact ⟨hs, rfl⟩
  | cons e es ih =>
    simp only [run, bind, Except.bind] at h
    split at h
    · cases h
    · next s₁ h₁ =>
      obtain ⟨hs₁, ho₁, hf₁⟩ := step_closed hf hs h₁
      exact (ih hf₁ hs₁ h).imp_right (·.trans ho₁)

/-- **A closed sink stays closed and silent.**  Once `close()` or `ping()` has taken the
transmit side, no run of events, whatever sends, acknowledgements and wake-ups it holds, brings
it back or pushes another packet onto the outbound channel. -/
theorem closed_sink_stays_silent {cap : Nat} (h : Reachable cap s) (hs : s.inner.sink = none)
    {es : List Event} (hr : s.run es = .ok s') : s'.inner.sink = none ∧ s'.out = s.out :=
  run_closed (TableInv.reachable h).free hs hr

/-- After `close()`, a QoS-0 publish, a QoS-1 publish and a ping push nothing. -/
theorem closed_sink_publishes_nothing :
    ∃ s s', (new 1).run [.close] = .ok s ∧
      s.run [.publishAtMostOnce ⟨"t", [], false, false⟩,
        .start (.publish ⟨"t", [], false, false⟩), .ping] = .ok s' ∧
      s'.inner.sink = none ∧ s'.out = s.out :=
  have hr : (new 1).run [.close] = _ := rfl
  have hr' : MqttSink.run _ [.publishAtMostOnce ⟨"t", [], false, false⟩,
      .start (.publish ⟨"t", [], false, false⟩), .ping] = _ := rfl
  ⟨_, _, hr, hr', closed_sink_stays_silent (Reachable.run .init hr) rfl hr'⟩

end MqttSink

end ActixMqtt.V3
