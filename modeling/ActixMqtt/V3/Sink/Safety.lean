import ActixMqtt.V3.Sink.Admission
import ActixMqtt.V3.Sink.Correlation

/-!
# V3 — Sink — the panics a sink can reach, and where acknowledgements go

An event of the connection thread returns or panics, and a panic brings the thread down.  Of
the panics in `sink.rs` two can be reached from a fresh sink in a release build, and no other
(`step_error_iff`):

* `pkt_ack` with an empty `queue_order`, or with a head other than the acknowledgement's id,
  calls `self.close()` while its own `RefMut` of the cell is alive, and `borrow_mut` panics;
* a send woken from the receive-maximum FIFO after `close()` or `ping()` took the transmit
  side unwraps it, when a packet id is still free.

The rest cannot be reached.  No event starts with the cell borrowed, the head of `queue_order`
always has its slot (`TableInv`), packet ids stay in `[1, 65535]` so the packet builders'
`unwrap`s hold, and the slot just inserted is there to remove at id `65536`.  And
`Ack::subscribe()` in `SubscribeBuilder::send` only ever meets a `SUBACK`: every in-flight
slot names a future of the slot's kind, and `pkt_ack` hands an acknowledgement only to the
future of a slot whose kind it matches (`AckInv`).

* `acked_kind_matches`: in every reachable state a future that holds an acknowledgement holds
  one of its own kind, and polling it returns that acknowledgement's reply.
* `step_error_iff`: in every reachable state an event panics exactly in the two cases above.
* `step_panics_iff`: a debug build panics in those two and in one more, the receive-maximum
  subtraction `inner.cap - inner.queue.len()` of a send's first poll once more packets are in
  flight than `cap`, which a woken send that allocates past `cap` brings about (`stepDebug`).
* `ack_reaches_own_sender`: whatever the peer sends, an acknowledgement `pkt_ack` hands on goes
  to the future that waits for exactly its packet id, and only with the kind that future
  expects.  The slot of an id is held by the future that took it, which is then neither parked
  nor woken and, while it waits, waits for that id (`OwnerInv`).
-/

namespace ActixMqtt.V3

theorem Ack.isMatch_iff (a : Ack) (tp : AckType) : a.isMatch tp = true ↔ a.kind = tp := by
  cases a <;> cases tp <;> simp [Ack.isMatch, Ack.kind]

namespace AckedSend

variable {a : AckedSend} {s s' : MqttSink} {t : Nat} {ph : Phase} {msg : String}

/-- A send whose packet builds at every id in `[1, 65535]` fails allocation only by unwrapping
a missing transmit side, and only when a packet id is still free: past `65535` it removes the
slot it just inserted, which is there. -/
theorem allocate_error (hp : ∀ idx, 1 ≤ idx → idx ≤ 65535 → ∃ pkt, a.packet idx = .ok pkt)
    (h : a.allocate t s = .error msg) :
    msg = unwrapNone ∧ s.inner.sink = none ∧ s.inner.queue.vacantKey + 1 ≤ 65535 := by
  unfold allocate at h
  have hget := s.inner.queue.get_insert (t, a.ackType)
  have hkey := s.inner.queue.insert_key (t, a.ackType)
  generalize s.inner.queue.insert (t, a.ackType) = ins at h hget hkey
  obtain ⟨q, k⟩ := ins
  simp only at hget hkey
  subst hkey
  simp only [bind, Except.bind, pure, Except.pure] at h
  split at h
  · obtain ⟨q', hrem, -, -⟩ :=
      Slab.remove_of_get (by simp [hget] : q.get s.inner.queue.vacantKey = some (t, a.ackType))
    simp only [Nat.add_sub_cancel, hrem] at h
    cases h
  · obtain ⟨pkt, hpkt⟩ := hp (s.inner.queue.vacantKey + 1) (Nat.le_add_left 1 _) (by omega)
    split at h
    · next he => rw [hpkt] at he; cases he
    · split at h
      · exact ⟨(Except.error.inj h).symm, ‹_›, by omega⟩
      · split at h <;> cases h

/-- The first poll of a send never panics on a free cell. -/
theorem start_ne_error (hf : s.borrowed = false)
    (hp : ∀ idx, 1 ≤ idx → idx ≤ 65535 → ∃ pkt, a.packet idx = .ok pkt) :
    a.start t s ≠ .error msg := fun h => by
  simp only [start, MqttSink.borrowMut_of_free hf, bind, Except.bind] at h
  split at h
  · cases h
  · next hs =>
    split at h
    · cases h
    · exact absurd (allocate_error hp h).2.1 (by simp [hs])

/-- Polling a send fails only on an acknowledgement its reply refuses. -/
theorem finish_error (h : a.finish ph = .error msg) :
    ∃ pkt, ph = .acked pkt ∧ a.reply pkt = .error msg := by
  cases ph with
  | acked pkt =>
    rw [finish_acked] at h
    cases e : a.reply pkt <;> rw [e] at h <;> cases h
    exact ⟨pkt, rfl, e⟩
  | _ => cases h

end AckedSend

namespace MqttSink

variable {s s' : MqttSink} {a : Ack} {t : Nat} {msg : String}

/-- In a consistent state `pkt_ack` panics only where it calls `close()` with the cell
borrowed: at an empty `queue_order`, or a head other than the acknowledgement's id. -/
theorem TableInv.pktAck_error (hi : TableInv s) (h : s.pktAck a = .error msg) :
    s.inner.queueOrder.head? ≠ some a.packetId ∧ msg = borrowMutMsg := by
  cases ho : s.inner.queueOrder with
  | nil =>
    rw [pktAck_nil hi.free ho] at h
    exact ⟨by simp, (Except.error.inj h).symm⟩
  | cons p rest =>
    by_cases hp : p = a.packetId
    · obtain ⟨-, -, ⟨t, tp⟩, hq⟩ := hi.order p (by simp [ho])
      cases hk : a.isMatch tp
      · obtain ⟨_, _, _, he⟩ := pktAck_unexpected hi.free ho hp hq hk
        rw [he] at h; cases h
      · obtain ⟨_, _, _, he⟩ := pktAck_match hi.free ho hp hq hk
        rw [he] at h; cases h
    · rw [pktAck_ne hi.free ho hp] at h
      exact ⟨by simp [hp], (Except.error.inj h).symm⟩

/-! ### Acknowledgement kinds -/

/-- Every in-flight slot is held by a future waiting for that kind of acknowledgement, and
every future holding an acknowledgement holds one of the kind it waits for. -/
structure AckInv (s : MqttSink) : Prop where
  slots : ∀ k t tp, s.inner.queue.get k = some (t, tp) →
    ∃ (r : Request) (ph : Phase), s.tasks[t]? = some ⟨r, ph⟩ ∧ r.send.ackType = tp
  acked : ∀ (t : Nat) (r : Request) (a : Ack), s.tasks[t]? = some ⟨r, .acked a⟩ →
    a.kind = r.send.ackType

theorem AckInv.init (cap : Nat) : AckInv (new cap) :=
  ⟨by simp [new], by simp [new]⟩

/-- A step keeps `AckInv` when every future keeps its request, every slot it leaves was there
or names a future of its kind, and every acknowledgement a future newly holds is of its kind. -/
theorem AckInv.of (hi : AckInv s)
    (hr : ∀ (t : Nat) (r : Request) (ph : Phase), s.tasks[t]? = some ⟨r, ph⟩ →
      ∃ ph', s'.tasks[t]? = some ⟨r, ph'⟩)
    (hq : ∀ k t tp, s'.inner.queue.get k = some (t, tp) → s.inner.queue.get k = some (t, tp) ∨
      ∃ (r : Request) (ph : Phase), s'.tasks[t]? = some ⟨r, ph⟩ ∧ r.send.ackType = tp)
    (ha : ∀ (t : Nat) (r : Request) (a : Ack), s'.tasks[t]? = some ⟨r, .acked a⟩ →
      s.tasks[t]? = some ⟨r, .acked a⟩ ∨ a.kind = r.send.ackType) : AckInv s' where
  slots k t tp h := (hq k t tp h).elim
    (fun h => let ⟨r, ph, ht, hk⟩ := hi.slots k t tp h
      let ⟨ph', ht'⟩ := hr t r ph ht
      ⟨r, ph', ht', hk⟩) id
  acked t r a h := (ha t r a h).elim (hi.acked t r a) id

theorem reqs_setPhase (t : Nat) (ph₁ : Phase) {u : Nat} {r : Request} {ph : Phase}
    (h : s.tasks[u]? = some ⟨r, ph⟩) : ∃ ph', (s.setPhase t ph₁).tasks[u]? = some ⟨r, ph'⟩ := by
  rw [tasks_setPhase]
  split <;> simp [h]

theorem acked_setPhase {ph : Phase} (hph : ∀ a, ph ≠ .acked a) {u : Nat} {r : Request}
    (h : (s.setPhase t ph).tasks[u]? = some ⟨r, .acked a⟩) :
    s.tasks[u]? = some ⟨r, .acked a⟩ := by
  rw [tasks_setPhase] at h
  split at h
  · obtain ⟨task, -, he⟩ := Option.map_eq_some'.mp h
    exact absurd (congrArg Task.phase he) (hph a)
  · exact h

/-- `tx.send(pkt)`, the drop of an acknowledgement sender and the release loop each move at most
one future, to a phase they name. -/
theorem tasks_sendAck (t : Nat) (a : Ack) :
    (s.sendAck t a).1.tasks = s.tasks ∨ (s.sendAck t a).1.tasks = (s.setPhase t (.acked a)).tasks := by
  unfold sendAck; split
  · exact .inr rfl
  · exact .inl rfl

theorem tasks_cancelAck (t : Nat) :
    (s.cancelAck t).tasks = s.tasks ∨ (s.cancelAck t).tasks = (s.setPhase t .canceled).tasks := by
  unfold cancelAck; split
  · exact .inr rfl
  · exact .inl rfl

theorem tasks_wake_setPhase :
    s.wake.tasks = s.tasks ∨ ∃ u, s.wake.tasks = (s.setPhase u .woken).tasks := by
  rcases wake_cases (s := s) with ⟨-, he⟩ | ⟨_, u, _, -, -, -, he⟩ <;> rw [he]
  · exact .inl rfl
  · exact .inr ⟨u, rfl⟩

/-- A future keeps its request when at most one future moves. -/
theorem reqs_of_moved {ts : List Task} (hts : ts = s.tasks ∨ ∃ u ph₁, ts = (s.setPhase u ph₁).tasks)
    {t : Nat} {r : Request} (h : ∃ ph, s.tasks[t]? = some ⟨r, ph⟩) :
    ∃ ph, ts[t]? = some ⟨r, ph⟩ := by
  obtain ⟨ph, h⟩ := h
  rcases hts with rfl | ⟨u, ph₁, rfl⟩
  · exact ⟨ph, h⟩
  · exact reqs_setPhase u ph₁ h

/-- A future that holds an acknowledgement after a step that moves at most one future, to a
phase other than `acked`, held it before. -/
theorem acked_of_moved {ts : List Task} {ph₁ : Phase} (hph : ∀ a, ph₁ ≠ .acked a)
    (hts : ts = s.tasks ∨ ∃ u, ts = (s.setPhase u ph₁).tasks) {t : Nat} {r : Request} {a : Ack}
    (h : ts[t]? = some ⟨r, .acked a⟩) : s.tasks[t]? = some ⟨r, .acked a⟩ := by
  rcases hts with rfl | ⟨u, rfl⟩
  · exact h
  · exact acked_setPhase hph h

/-- The acknowledgement a future holds after `tx.send(pkt)` to future `t`: the one it held, or
`pkt` if it is `t` and `t` was waiting for an acknowledgement. -/
theorem acked_of_sendAck {a a' : Ack} {u : Nat} {r : Request}
    (h : (s.sendAck t a).1.tasks[u]? = some ⟨r, .acked a'⟩) :
    s.tasks[u]? = some ⟨r, .acked a'⟩ ∨
      a' = a ∧ u = t ∧ ∃ p, s.tasks[t]? = some ⟨r, .awaitingAck p⟩ := by
  by_cases hw : ∃ p, s.phase t = some (.awaitingAck p)
  · obtain ⟨p, hp⟩ := hw
    rw [sendAck_of_awaiting a hp, tasks_setPhase] at h
    split at h
    · next hu =>
      subst hu
      obtain ⟨⟨r₀, ph₀⟩, h₀, he⟩ := Option.map_eq_some'.mp h
      simp only [Task.mk.injEq, Phase.acked.injEq] at he
      obtain ⟨rfl, rfl⟩ := he
      simp only [phase, h₀, Option.map_some', Option.some.injEq] at hp
      exact .inr ⟨rfl, rfl, p, by rw [h₀, hp]⟩
    · exact .inl h
  · rw [sendAck_of_not_awaiting a fun p hp => hw ⟨p, hp⟩] at h
    exact .inl h

/-- Appending a future that holds no acknowledgement, after a step that kept the futures and
left only slots that were there or one held by the new future with its own kind. -/
theorem AckInv.append (hi : AckInv s) {s₁ : MqttSink} {r : Request} {ph : Phase}
    (hph : ∀ a, ph ≠ .acked a) (hts : s₁.tasks = s.tasks)
    (hq : ∀ k t tp, s₁.inner.queue.get k = some (t, tp) →
      s.inner.queue.get k = some (t, tp) ∨ t = s.tasks.length ∧ tp = r.send.ackType) :
    AckInv { s₁ with tasks := s₁.tasks ++ [⟨r, ph⟩] } := by
  rw [hts]
  refine hi.of (fun t r' ph' h => ⟨ph', ?_⟩) (fun k t tp h => (hq k t tp h).imp id ?_)
    (fun t r' a h => .inl ?_)
  · rwa [List.getElem?_append_left (List.getElem?_eq_some_iff.mp h).1]
  · rintro ⟨rfl, rfl⟩
    exact ⟨r, ph, by simp, rfl⟩
  · by_cases e : t = s.tasks.length
    · subst e
      simp only [List.getElem?_concat_length, Option.some.injEq, Task.mk.injEq] at h
      exact absurd h.2 (hph a)
    · rwa [getElem?_append_singleton_of_ne _ e] at h

end MqttSink

namespace AckedSend

variable {a : AckedSend} {s s' : MqttSink} {t : Nat} {ph : Phase}

/-- Allocation leaves only slots that were there and the one it inserted for future `t`. -/
theorem allocate_slots (h : a.allocate t s = .ok (s', ph)) {k u : Nat} {tp : AckType}
    (hk : s'.inner.queue.get k = some (u, tp)) :
    s.inner.queue.get k = some (u, tp) ∨ u = t ∧ tp = a.ackType := by
  rcases (allocate_cases h).2.2.2.2.2.2 with ⟨-, -, -, hq, -⟩ | ⟨k', _, -, -, -, -, hq, -⟩
  · exact .inl ((hq k).symm.trans hk)
  · rw [hq] at hk
    split at hk
    · cases hk; exact .inr ⟨rfl, rfl⟩
    · exact .inl hk

theorem allocate_not_acked (h : a.allocate t s = .ok (s', ph)) (pkt : Ack) : ph ≠ .acked pkt := by
  rcases allocate_phase h with ⟨p, rfl⟩ | ⟨r, rfl⟩ <;> exact Phase.noConfusion

end AckedSend

namespace MqttSink

variable {s s' : MqttSink}

/-- Every event keeps the acknowledgement kinds. -/
theorem AckInv.step (hi : AckInv s) (hf : s.borrowed = false) {e : Event}
    (h : s.step e = .ok s') : AckInv s' := by
  cases e with
  | start r =>
    obtain ⟨s₁, ph, hs, rfl⟩ := step_start h
    rcases AckedSend.start_cases hf hs with ⟨-, rfl, rfl⟩ | ⟨-, -, rfl, rfl⟩ | ⟨-, -, ha⟩
    · exact hi.append (fun _ => Phase.noConfusion) rfl fun _ _ _ h => .inl h
    · exact hi.append (fun _ => Phase.noConfusion) rfl fun _ _ _ h => .inl h
    · exact hi.append (AckedSend.allocate_not_acked ha) (AckedSend.allocate_cases ha).1
        fun _ _ _ hk => AckedSend.allocate_slots ha hk
  | poll t =>
    cases ht : s.tasks[t]? with
    | none => rw [step_poll_none ht] at h; cases h; exact hi
    | some task =>
      obtain ⟨r, ph⟩ := task
      by_cases hw : ph = .woken
      · subst hw
        obtain ⟨s₁, ph', ha, rfl⟩ := step_poll_woken hf ht h
        have hts : s₁.tasks = s.tasks := (AckedSend.allocate_cases ha).1
        refine hi.of (fun u r' ph₀ h => reqs_setPhase t ph' (hts ▸ h))
          (fun k u tp hk => (AckedSend.allocate_slots ha hk).imp id ?_)
          (fun u r' a h => .inl (hts ▸ acked_setPhase (AckedSend.allocate_not_acked ha) h))
        rintro ⟨rfl, rfl⟩
        exact ⟨r, ph', by simp [tasks_setPhase, hts, ht], rfl⟩
      · obtain ⟨ph', hfin, rfl⟩ := step_poll_finish ht hw h
        refine hi.of (fun u r' ph₀ h => reqs_setPhase t ph' h) (fun _ _ _ hk => .inl hk)
          (fun u r' a hu => .inl ?_)
        rcases AckedSend.finish_cases hfin with rfl | ⟨-, r₀, rfl⟩
        · rw [tasks_setPhase] at hu
          split at hu
          · next e => subst e; simpa [ht] using hu
          · exact hu
        · exact acked_setPhase (fun _ => Phase.noConfusion) hu
  | drop t =>
    rw [step_drop] at h; cases h
    exact hi.of (fun _ _ _ h => reqs_setPhase t _ h) (fun _ _ _ h => .inl h)
      (fun _ _ _ h => .inl (acked_setPhase (fun _ => Phase.noConfusion) h))
  | publishAtMostOnce b =>
    rw [step_publishAtMostOnce hf] at h; cases h
    split <;> exact ⟨hi.slots, hi.acked⟩
  | ack a =>
    obtain ⟨res, hr⟩ := step_ack h
    obtain ⟨rest, t, tp, q, -, hq, hq', -, ⟨-, -, rfl⟩ | ⟨hm, -, rfl⟩⟩ := pktAck_cases hf hr
    · refine hi.of (fun u r ph h => reqs_of_moved ((tasks_cancelAck t).imp id fun e => ⟨t, _, e⟩) ⟨ph, h⟩)
        (fun k u tp' hk => .inl ?_) (fun u r a' h => .inl ?_)
      · simp only [release_inner, cancelAck_inner, hq'] at hk
        split at hk
        · cases hk
        · exact hk
      · rw [release_tasks] at h
        exact (acked_of_moved (fun _ => Phase.noConfusion) ((tasks_cancelAck t).imp id fun e => ⟨t, e⟩) h :)
    · refine hi.of (fun u r ph h => ?_) (fun k u tp' hk => .inl ?_) (fun u r a' h => ?_)
      · exact reqs_of_moved (tasks_wake_setPhase.imp id fun ⟨u, e⟩ => ⟨u, _, e⟩)
          (reqs_of_moved ((tasks_sendAck t a).imp id fun e => ⟨t, _, e⟩) ⟨ph, h⟩)
      · simp only [release_inner, wake_queue, sendAck_inner, hq'] at hk
        split at hk
        · cases hk
        · exact hk
      · rw [release_tasks] at h
        rcases acked_of_sendAck (acked_of_moved (fun _ => Phase.noConfusion) tasks_wake_setPhase h)
          with h | ⟨rfl, -, ph, hr⟩
        · exact .inl h
        · obtain ⟨r₀, ph₀, h₀, rfl⟩ := hi.slots _ _ _ hq
          obtain rfl : r = r₀ := by rw [h₀] at hr; cases hr; rfl
          exact .inr ((Ack.isMatch_iff _ _).mp hm)
  | close =>
    rw [step_close hf] at h; cases h
    exact ⟨hi.slots, hi.acked⟩
  | ping =>
    rw [step_ping hf] at h; cases h
    split <;> exact ⟨hi.slots, hi.acked⟩
  | disconnect =>
    rw [step_disconnect] at h; cases h
    exact ⟨hi.slots, hi.acked⟩

variable {cap : Nat}

theorem AckInv.reachable (h : Reachable cap s) : AckInv s := by
  induction h with
  | init => exact AckInv.init cap
  | step hr hs ih => exact ih.step (TableInv.reachable hr).free hs

/-- In every reachable state, a future that holds an acknowledgement holds one of the kind its
request expects, so polling it resolves it to that acknowledgement's reply. -/
theorem acked_kind_matches (h : Reachable cap s) {t : Nat} {r : Request} {a : Ack}
    (ht : s.tasks[t]? = some ⟨r, .acked a⟩) :
    a.kind = r.send.ackType ∧ s.step (.poll t) = .ok (s.setPhase t (.done (.ok a.reply))) :=
  have hk := (AckInv.reachable h).acked t r a ht
  ⟨hk, step_poll_acked ht hk⟩

/-- A subscribe acknowledged by its SUBACK: the future holds the SUBACK and resolves to its
return codes. -/
theorem subscribe_acked_resolves :
    ∃ s, (new 1).run [.start (.subscribe [("t", .atLeastOnce)]),
        .ack (.subscribe ⟨1, by decide⟩ [.success .atLeastOnce])] = .ok s ∧
      s.tasks[0]? = some ⟨.subscribe [("t", .atLeastOnce)],
        .acked (.subscribe ⟨1, by decide⟩ [.success .atLeastOnce])⟩ ∧
      (Ack.subscribe ⟨1, by decide⟩ [.success .atLeastOnce]).kind =
        (Request.subscribe [("t", .atLeastOnce)]).send.ackType ∧
      s.step (.poll 0) = .ok (s.setPhase 0
        (.done (.ok (Ack.subscribe ⟨1, by decide⟩ [.success .atLeastOnce]).reply))) :=
  have hr : (new 1).run [.start (.subscribe [("t", .atLeastOnce)]),
      .ack (.subscribe ⟨1, by decide⟩ [.success .atLeastOnce])] = _ := rfl
  ⟨_, hr, rfl, acked_kind_matches (Reachable.run .init hr) rfl⟩

/-- What a step from a reachable state can fail with: the two panics of the sink. -/
theorem step_error_cases (hr : Reachable cap s) {e : Event} {msg : String}
    (h : s.step e = .error msg) :
    (∃ a, e = .ack a ∧ s.inner.queueOrder.head? ≠ some a.packetId ∧ msg = borrowMutMsg) ∨
    ∃ t r, e = .poll t ∧ s.tasks[t]? = some ⟨r, .woken⟩ ∧ s.inner.sink = none ∧
      s.inner.queue.vacantKey + 1 ≤ 65535 ∧ msg = unwrapNone := by
  have hf := (TableInv.reachable hr).free
  cases e with
  | start r =>
    simp only [step, bind, Except.bind] at h
    split at h
    · next he => exact absurd he (AckedSend.start_ne_error hf fun _ => r.packet_ok)
    · cases h
  | poll t =>
    cases ht : s.tasks[t]? with
    | none => rw [step_poll_none ht] at h; cases h
    | some task =>
      obtain ⟨r, ph⟩ := task
      by_cases hw : ph = .woken
      · subst hw
        simp only [step, ht, AckedSend.resume_eq hf, bind, Except.bind] at h
        split at h
        · next he =>
          cases h
          obtain ⟨hm, hs, hk⟩ := AckedSend.allocate_error (fun _ => r.packet_ok) he
          exact .inr ⟨t, r, rfl, ht, hs, hk, hm⟩
        · cases h
      · simp only [step, ht, bind, Except.bind] at h
        split at h
        · next he =>
          obtain ⟨pkt, rfl, hpkt⟩ := AckedSend.finish_error he
          rw [Request.reply_of_kind ((AckInv.reachable hr).acked t r pkt ht)] at hpkt
          cases hpkt
        · cases h
  | drop t => cases h
  | publishAtMostOnce b => rw [step_publishAtMostOnce hf] at h; cases h
  | ack a =>
    simp only [step, Functor.map, Except.map] at h
    split at h
    · next he =>
      cases h
      exact .inl ⟨a, rfl, (TableInv.reachable hr).pktAck_error he⟩
    · cases h
  | close => rw [step_close hf] at h; cases h
  | ping => rw [step_ping hf] at h; cases h
  | disconnect => cases h

/-- A step from a reachable state fails exactly at the two panics: an acknowledgement whose id is
not the head of `queue_order`, and the poll of a woken send while the sink is closed and an id is
free. -/
theorem step_error_iff (hr : Reachable cap s) {e : Event} {msg : String} :
    s.step e = .error msg ↔
      (∃ a, e = .ack a ∧ s.inner.queueOrder.head? ≠ some a.packetId ∧ msg = borrowMutMsg) ∨
      ∃ t r, e = .poll t ∧ s.tasks[t]? = some ⟨r, .woken⟩ ∧ s.inner.sink = none ∧
        s.inner.queue.vacantKey + 1 ≤ 65535 ∧ msg = unwrapNone := by
  refine ⟨step_error_cases hr, ?_⟩
  have hf := (TableInv.reachable hr).free
  rintro (⟨a, rfl, ho, rfl⟩ | ⟨t, r, rfl, ht, hs, hk, rfl⟩)
  · have he : s.pktAck a = .error borrowMutMsg := by
      cases hq : s.inner.queueOrder with
      | nil => exact pktAck_nil hf hq
      | cons p rest => exact pktAck_ne hf hq fun hp => ho (by rw [hq, hp]; rfl)
    simp [step, he, Functor.map, Except.map]
  · exact resume_closed_panics hf ht hk hs

/-- A debug step on a free cell panics at the receive-maximum subtraction of a send's first
poll, or is the release step. -/
theorem stepDebug_cases (hf : s.borrowed = false) (e : Event) :
    (∃ r, e = .start r ∧ s.inner.sink.isSome ∧ s.inner.cap < s.inner.queue.len ∧
        s.stepDebug e = .error subOverflowMsg) ∨
      (¬ ∃ r, e = .start r ∧ s.inner.sink.isSome ∧ s.inner.cap < s.inner.queue.len) ∧
        s.stepDebug e = s.step e := by
  cases e with
  | start r =>
    by_cases hc : s.inner.sink.isSome ∧ s.inner.cap < s.inner.queue.len
    · exact .inl ⟨r, rfl, hc.1, hc.2, by simp [stepDebug, hf, hc.1, hc.2]; rfl⟩
    · refine .inr ⟨fun ⟨_, he, hs, hlt⟩ => hc ⟨hs, hlt⟩, ?_⟩
      simp only [stepDebug, hf, Bool.not_false, Bool.true_and, Bool.and_eq_true,
        decide_eq_true_eq]
      exact if_neg hc
  | _ => exact .inr ⟨fun ⟨_, he, _⟩ => Event.noConfusion he, rfl⟩

/-- **The panics of the two builds.**  From every reachable state, an event panics in a release
build exactly in the two cases of `step_error_iff`.  A debug build panics in those two cases and
in one more: the first poll of a send on an open sink while more packets are in flight than
the receive maximum, where `inner.cap - inner.queue.len()` goes below zero.  A woken send that
allocates past `cap` reaches that state.  A debug step that returns is the release step, so a
debug build reaches no state a release build does not. -/
theorem step_panics_iff (hr : Reachable cap s) {e : Event} {msg : String} :
    (s.step e = .error msg ↔
      (∃ a, e = .ack a ∧ s.inner.queueOrder.head? ≠ some a.packetId ∧ msg = borrowMutMsg) ∨
      ∃ t r, e = .poll t ∧ s.tasks[t]? = some ⟨r, .woken⟩ ∧ s.inner.sink = none ∧
        s.inner.queue.vacantKey + 1 ≤ 65535 ∧ msg = unwrapNone) ∧
    (s.stepDebug e = .error msg ↔
      (∃ a, e = .ack a ∧ s.inner.queueOrder.head? ≠ some a.packetId ∧ msg = borrowMutMsg) ∨
      (∃ t r, e = .poll t ∧ s.tasks[t]? = some ⟨r, .woken⟩ ∧ s.inner.sink = none ∧
        s.inner.queue.vacantKey + 1 ≤ 65535 ∧ msg = unwrapNone) ∨
      ∃ r, e = .start r ∧ s.inner.sink.isSome ∧ s.inner.cap < s.inner.queue.len ∧
        msg = subOverflowMsg) := by
  refine ⟨step_error_iff hr, ?_⟩
  rcases stepDebug_cases (TableInv.reachable hr).free e with ⟨r, rfl, hs, hlt, hd⟩ | ⟨hn, hd⟩ <;>
    rw [hd]
  · refine ⟨fun h => .inr (.inr ⟨r, rfl, hs, hlt, (Except.error.inj h).symm⟩), ?_⟩
    rintro (⟨a, ⟨⟩, -⟩ | ⟨t, r', ⟨⟩, -⟩ | ⟨r', -, -, -, rfl⟩)
    rfl
  · rw [step_error_iff hr, ← or_assoc]
    exact (or_iff_left fun ⟨r, he, hs, hlt, _⟩ => hn ⟨r, he, hs, hlt⟩).symm

/-- On a fresh sink any acknowledgement panics: `queue_order` is empty. -/
theorem ack_on_fresh_sink_panics :
    (new 1).step (.ack (.publish ⟨1, by decide⟩)) = .error borrowMutMsg :=
  (step_error_iff .init).mpr (.inl ⟨_, rfl, by simp [new], rfl⟩)

/-- At `cap = 1`, a woken send allocates after a later send took the freed slot, leaving two
packets in flight.  The next send's first poll panics in a debug build, as the acknowledgement
of a packet that is not at the head of `queue_order` would in both. -/
theorem debug_send_past_receive_maximum_panics :
    ∃ s, (new 1).run [.start (.publish ⟨"t", [], false, false⟩),
        .start (.publish ⟨"t", [], false, false⟩), .ack (.publish ⟨1, by decide⟩),
        .start (.publish ⟨"t", [], false, false⟩), .poll 1] = .ok s ∧
      s.stepDebug (.start (.publish ⟨"t", [], false, false⟩)) = .error subOverflowMsg ∧
      s.stepDebug (.ack (.publish ⟨2, by decide⟩)) = .error borrowMutMsg :=
  have hr : (new 1).run [.start (.publish ⟨"t", [], false, false⟩),
      .start (.publish ⟨"t", [], false, false⟩), .ack (.publish ⟨1, by decide⟩),
      .start (.publish ⟨"t", [], false, false⟩), .poll 1] = _ := rfl
  ⟨_, hr, (step_panics_iff (Reachable.run .init hr)).2.mpr (.inr (.inr ⟨_, rfl, rfl, by decide, rfl⟩)),
    (step_panics_iff (Reachable.run .init hr)).2.mpr (.inl ⟨_, rfl, by decide, rfl⟩)⟩

/-! ### Where an acknowledgement goes -/

/-- What a future that holds slot `k` can be doing: neither parked nor woken, and waiting, if it
waits for an acknowledgement, for packet id `k + 1`. -/
def HoldsSlot (k : Nat) (ph : Option Phase) : Prop :=
  ph ≠ some .parked ∧ ph ≠ some .woken ∧ ∀ p, ph = some (.awaitingAck p) → p = k + 1

/-- Each occupied slot is held by its future. -/
def OwnerInv (s : MqttSink) : Prop :=
  ∀ k t tp, s.inner.queue.get k = some (t, tp) → HoldsSlot k (s.phase t)

theorem holdsSlot_none {k : Nat} : HoldsSlot k none :=
  ⟨Option.noConfusion, Option.noConfusion, fun _ e => Option.noConfusion e⟩

/-- A future that has left the parked, woken and waiting phases holds any slot. -/
theorem holdsSlot_settled {k : Nat} {ph : Phase} (h₁ : ph ≠ .parked) (h₂ : ph ≠ .woken)
    (h₃ : ∀ p, ph ≠ .awaitingAck p) : HoldsSlot k (some ph) :=
  ⟨fun e => h₁ (Option.some.inj e), fun e => h₂ (Option.some.inj e),
    fun p e => absurd (Option.some.inj e) (h₃ p)⟩

theorem holdsSlot_awaiting {k : Nat} : HoldsSlot k (some (.awaitingAck (k + 1))) :=
  ⟨fun e => Phase.noConfusion (Option.some.inj e), fun e => Phase.noConfusion (Option.some.inj e),
    fun _ e => (Phase.awaitingAck.inj (Option.some.inj e)).symm⟩

/-- Moving a future to a settled phase keeps every slot held. -/
theorem holdsSlot_setPhase {k u : Nat} {ph : Phase} (h₁ : ph ≠ .parked) (h₂ : ph ≠ .woken)
    (h₃ : ∀ p, ph ≠ .awaitingAck p) (h : HoldsSlot k (s.phase u)) :
    HoldsSlot k ((s.setPhase t ph).phase u) := by
  rw [phase_setPhase]
  split_ifs
  · cases s.phase t
    · exact holdsSlot_none
    · exact holdsSlot_settled h₁ h₂ h₃
  · exact h

theorem OwnerInv.init (cap : Nat) : OwnerInv (new cap) := by
  intro k t tp h
  simp [new] at h

/-- Allocation for a future `t` that held no slot: the slots of other futures stay theirs, and
a slot of `t` is the one it took, held in the phase allocation leaves it in. -/
theorem owner_allocate {a : AckedSend} {ph : Phase} (h : a.allocate t s = .ok (s', ph))
    (hno : ∀ k tp, s.inner.queue.get k ≠ some (t, tp)) {k u : Nat} {tp : AckType}
    (hk : s'.inner.queue.get k = some (u, tp)) :
    u ≠ t ∧ s.inner.queue.get k = some (u, tp) ∨ u = t ∧ HoldsSlot k (some ph) := by
  rcases (AckedSend.allocate_cases h).2.2.2.2.2.2 with
    ⟨rfl, -, -, hq, -⟩ | ⟨k₀, -, -, -, -, -, hq, -, -, ⟨-, rfl, -⟩ | ⟨-, rfl, -⟩⟩ <;> rw [hq] at hk
  · exact .inl ⟨fun e => hno k tp (e ▸ hk), hk⟩
  all_goals
    split at hk
    · next e =>
      cases hk
      subst e
      first
        | exact .inr ⟨rfl, holdsSlot_awaiting⟩
        | exact .inr ⟨rfl, holdsSlot_settled Phase.noConfusion Phase.noConfusion
            fun _ => Phase.noConfusion⟩
    · exact .inl ⟨fun e => hno k tp (e ▸ hk), hk⟩

/-- Every event keeps each slot held by its future. -/
theorem OwnerInv.step (hi : OwnerInv s) (ht : TableInv s) (ha : AckInv s) {e : Event}
    (h : s.step e = .ok s') : OwnerInv s' := by
  have howned : ∀ k u tp, s.inner.queue.get k = some (u, tp) → u < s.tasks.length :=
    fun k u tp hk => by
      obtain ⟨r, ph, hu, -⟩ := ha.slots k u tp hk
      exact (List.getElem?_eq_some_iff.mp hu).1
  cases e with
  | start r =>
    obtain ⟨s₁, ph, hs, rfl⟩ := step_start h
    have hnew : ∀ k tp, s.inner.queue.get k ≠ some (s.tasks.length, tp) :=
      fun k tp hk => Nat.lt_irrefl _ (howned k _ tp hk)
    obtain ⟨hts, hq⟩ : s₁.tasks = s.tasks ∧ ∀ k u tp, s₁.inner.queue.get k = some (u, tp) →
        u ≠ s.tasks.length ∧ s.inner.queue.get k = some (u, tp) ∨
          u = s.tasks.length ∧ HoldsSlot k (some ph) := by
      rcases AckedSend.start_cases ht.free hs with ⟨-, rfl, -⟩ | ⟨-, -, rfl, -⟩ | ⟨-, -, hal⟩
      · exact ⟨rfl, fun k u tp hk => .inl ⟨Nat.ne_of_lt (howned k u tp hk), hk⟩⟩
      · exact ⟨rfl, fun k u tp hk => .inl ⟨Nat.ne_of_lt (howned k u tp hk), hk⟩⟩
      · exact ⟨(AckedSend.allocate_cases hal).1, fun k u tp hk => owner_allocate hal hnew hk⟩
    intro k u tp hk
    rcases hq k u tp hk with ⟨hne, hold⟩ | ⟨rfl, hph⟩
    · rw [phase_append_of_ne _ (by rw [hts]; exact hne)]
      simpa only [phase, hts] using hi k u tp hold
    · rw [← hts, phase_append_self]
      exact hph
  | poll t =>
    cases ht' : s.tasks[t]? with
    | none => rw [step_poll_none ht'] at h; cases h; exact hi
    | some task =>
      obtain ⟨r, ph⟩ := task
      have hpt : s.phase t = some ph := by simp [phase, ht']
      by_cases hw : ph = .woken
      · subst hw
        obtain ⟨s₁, ph', hal, rfl⟩ := step_poll_woken ht.free ht' h
        have hts : s₁.tasks = s.tasks := (AckedSend.allocate_cases hal).1
        have hno : ∀ k tp, s.inner.queue.get k ≠ some (t, tp) :=
          fun k tp hk => (hi k t tp hk).2.1 hpt
        intro k u tp hk
        rcases owner_allocate hal hno hk with ⟨hne, hold⟩ | ⟨rfl, hph⟩
        · rw [phase_setPhase_ne _ hne]
          simpa only [phase, hts] using hi k u tp hold
        · rw [phase_setPhase_self _ (by simpa only [phase, hts] using hpt)]
          exact hph
      · obtain ⟨ph', hfin, rfl⟩ := step_poll_finish ht' hw h
        intro k u tp hk
        rcases AckedSend.finish_cases hfin with rfl | ⟨-, r₀, rfl⟩
        · rw [phase_setPhase]
          split_ifs with e
          · subst e
            exact hpt ▸ hi k u tp hk
          · exact hi k u tp hk
        · exact holdsSlot_setPhase Phase.noConfusion Phase.noConfusion (fun _ => Phase.noConfusion)
            (hi k u tp hk)
  | drop t =>
    rw [step_drop] at h; cases h
    exact fun k u tp hk => holdsSlot_setPhase Phase.noConfusion Phase.noConfusion
      (fun _ => Phase.noConfusion) (hi k u tp hk)
  | publishAtMostOnce b =>
    rw [step_publishAtMostOnce ht.free] at h; cases h
    split <;> exact hi
  | ack a =>
    obtain ⟨res, hr⟩ := step_ack h
    obtain ⟨rest, t, tp, q, -, -, hq, -, hcase⟩ := pktAck_cases ht.free hr
    generalize hX : ({ s with borrowed := true, inner.queueOrder := rest, inner.queue := q }
      : MqttSink) = X at hcase
    have hold : ∀ k u tp', X.inner.queue.get k = some (u, tp') → HoldsSlot k (X.phase u) :=
      fun k u tp' hk => by
        rw [← hX] at hk ⊢
        simp only [hq] at hk
        split at hk
        · cases hk
        · exact hi k u tp' hk
    rcases hcase with ⟨-, -, rfl⟩ | ⟨-, -, rfl⟩ <;> intro k u tp' hk <;>
      simp only [release_inner, cancelAck_inner, wake_queue, sendAck_inner] at hk <;>
      rw [phase_release]
    · rcases phase_cancelAck (s := X) (t := t) u with e | ⟨-, -, e⟩ <;> rw [e]
      · exact hold k u tp' hk
      · exact holdsSlot_settled Phase.noConfusion Phase.noConfusion fun _ => Phase.noConfusion
    · rcases phase_sendAck (s := X) (t := t) a u with e | ⟨-, -, e⟩ <;>
        rcases phase_wake (s := (X.sendAck t a).1) u with e' | ⟨hp, -⟩
      · rw [e', e]; exact hold k u tp' hk
      · rw [e] at hp; exact absurd hp (hold k u tp' hk).1
      · rw [e', e]; exact holdsSlot_settled Phase.noConfusion Phase.noConfusion fun _ => Phase.noConfusion
      · rw [e] at hp; cases hp
  | close => rw [step_close ht.free] at h; cases h; exact hi
  | ping =>
    rw [step_ping ht.free] at h; cases h
    split <;> exact hi
  | disconnect => rw [step_disconnect] at h; cases h; exact hi

theorem OwnerInv.reachable (h : Reachable cap s) : OwnerInv s := by
  induction h with
  | init => exact OwnerInv.init cap
  | step hr hs ih => exact ih.step (TableInv.reachable hr) (AckInv.reachable hr) hs

/-- **An acknowledgement reaches only its own sender.**  From every reachable state, whatever
acknowledgement arrives: if `pkt_ack` returns and a future now holds an acknowledgement it did
not hold before, it holds the one that arrived, it was waiting for exactly that packet id, and
the acknowledgement is of the kind its request expects. -/
theorem ack_reaches_own_sender (h : Reachable cap s) {a : Ack} (hs : s.step (.ack a) = .ok s')
    {t : Nat} {r : Request} {a' : Ack} (ht : s'.tasks[t]? = some ⟨r, .acked a'⟩) :
    s.tasks[t]? = some ⟨r, .acked a'⟩ ∨
      a' = a ∧ s.tasks[t]? = some ⟨r, .awaitingAck a.packetId⟩ ∧ a.kind = r.send.ackType := by
  have hti := TableInv.reachable h
  obtain ⟨res, hr⟩ := step_ack hs
  obtain ⟨rest, u, tp, q, ho, hq, -, -, ⟨-, -, rfl⟩ | ⟨hm, -, rfl⟩⟩ := pktAck_cases hti.free hr <;>
    rw [release_tasks] at ht
  · exact .inl (acked_of_moved (fun _ => Phase.noConfusion)
      ((tasks_cancelAck u).imp id fun e => ⟨u, e⟩) ht :)
  · rcases acked_of_sendAck (acked_of_moved (fun _ => Phase.noConfusion) tasks_wake_setPhase ht)
      with h' | ⟨rfl, rfl, p, hp⟩
    · exact .inl h'
    · have hp' : s.tasks[t]? = some ⟨r, .awaitingAck p⟩ := hp
      have hid := (hti.order a'.packetId (by simp [ho])).1
      have hpid : p = a'.packetId := by
        have := (OwnerInv.reachable h _ t tp hq).2.2 p (by simp [phase, hp'])
        omega
      obtain ⟨r₀, ph₀, h₀, htp⟩ := (AckInv.reachable h).slots _ _ _ hq
      rw [hp'] at h₀
      cases h₀
      exact .inr ⟨rfl, hpid ▸ hp', ((Ack.isMatch_iff _ _).mp hm).trans htp.symm⟩

/-- A QoS-1 publish and its PUBACK: the acknowledgement reaches the publish, which waited for
id `1`. -/
theorem puback_reaches_publisher :
    ∃ s s', (new 1).run [.start (.publish ⟨"t", [], false, false⟩)] = .ok s ∧
      s.step (.ack (.publish ⟨1, by decide⟩)) = .ok s' ∧
      s'.tasks[0]? = some ⟨.publish ⟨"t", [], false, false⟩, .acked (.publish ⟨1, by decide⟩)⟩ ∧
      (s.tasks[0]? = some ⟨.publish ⟨"t", [], false, false⟩, .acked (.publish ⟨1, by decide⟩)⟩ ∨
        Ack.publish ⟨1, by decide⟩ = .publish ⟨1, by decide⟩ ∧
        s.tasks[0]? = some ⟨.publish ⟨"t", [], false, false⟩,
          .awaitingAck (Ack.publish ⟨1, by decide⟩).packetId⟩ ∧
        (Ack.publish ⟨1, by decide⟩).kind =
          (Request.publish ⟨"t", [], false, false⟩).send.ackType) :=
  have hr : (new 1).run [.start (.publish ⟨"t", [], false, false⟩)] = _ := rfl
  have hs : MqttSink.step _ (.ack (.publish ⟨1, by decide⟩)) = _ := rfl
  ⟨_, _, hr, hs, rfl, ack_reaches_own_sender (Reachable.run .init hr) hs rfl⟩

end MqttSink

end ActixMqtt.V3
