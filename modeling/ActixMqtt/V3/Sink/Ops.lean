import ActixMqtt.V3.Sink.Basic

/-!
# V3 — Sink — what each operation does

One lemma per operation of `Basic.lean`, stated at a state with no `RefMut` alive, which is
every state between two events.  Every invariant of the later modules is derived from these
and never unfolds an operation again.

* The one-shot sends (`sendWake`, `sendAck`, `cancelAck`) and the release loop
  (`wakeWaiters_cases`) change only the phases of futures.
* `allocate_cases` says everything packet-id allocation can do: roll back at id `65536`, or
  fill a vacant key `k`, append `k + 1` to `queue_order`, and push the packet when the
  receiver is there.
* `start_cases` adds the three outcomes of the first poll in front of it.
* `pktAck` panics at an empty `queue_order` and at a mismatched head (`pktAck_nil`,
  `pktAck_ne`: `close()` re-borrows the cell), reaches `unreachable!` at a vacant slot, and
  otherwise vacates the slot (`pktAck_unexpected`, `pktAck_match`).
-/

namespace ActixMqtt.V3

theorem Except.bind_eq_ok {ε α β : Type} {x : Except ε α} {f : α → Except ε β} {b : β} :
    x >>= f = .ok b ↔ ∃ a, x = .ok a ∧ f a = .ok b := by
  cases x <;> simp [bind, Except.bind]

namespace MqttSink

variable {s s' : MqttSink} {t u : Nat}

/-! ### Fields -/

@[simp] theorem release_inner : s.release.inner = s.inner := rfl
@[simp] theorem release_tasks : s.release.tasks = s.tasks := rfl
@[simp] theorem release_out : s.release.out = s.out := rfl
@[simp] theorem release_rxOpen : s.release.rxOpen = s.rxOpen := rfl
@[simp] theorem release_borrowed : s.release.borrowed = false := rfl

@[simp] theorem setPhase_inner (ph : Phase) : (s.setPhase t ph).inner = s.inner := rfl
@[simp] theorem setPhase_out (ph : Phase) : (s.setPhase t ph).out = s.out := rfl
@[simp] theorem setPhase_rxOpen (ph : Phase) : (s.setPhase t ph).rxOpen = s.rxOpen := rfl
@[simp] theorem setPhase_borrowed (ph : Phase) : (s.setPhase t ph).borrowed = s.borrowed := rfl

@[simp] theorem length_setPhase (ph : Phase) : (s.setPhase t ph).tasks.length = s.tasks.length := by
  simp [setPhase]

theorem release_of_free (h : s.borrowed = false) : { s with borrowed := true }.release = s := by
  cases s; simp_all [release]

theorem borrowMut_of_free (h : s.borrowed = false) :
    s.borrowMut = .ok { s with borrowed := true } := by
  simp [borrowMut, h, pure, Except.pure]

/-! ### Phases -/

theorem phase_setPhase (ph : Phase) (u : Nat) :
    (s.setPhase t ph).phase u = if u = t then (s.phase t).map (fun _ => ph) else s.phase u := by
  by_cases e : u = t
  · subst e; simp [phase, setPhase, Option.map_map, Function.comp_def]
  · simp [phase, setPhase, e, List.getElem?_modify_ne _ _ (Ne.symm e)]

@[simp] theorem phase_setPhase_ne (ph : Phase) (h : u ≠ t) :
    (s.setPhase t ph).phase u = s.phase u := by
  simp [phase_setPhase, h]

theorem phase_setPhase_self {ph₀ : Phase} (ph : Phase) (h : s.phase t = some ph₀) :
    (s.setPhase t ph).phase t = some ph := by
  simp [phase_setPhase, h]

/-- A future keeps its phase through `setPhase`, unless it is the one set. -/
theorem phase_setPhase_of_some {ph₀ : Phase} (ph : Phase) (h : s.phase u = some ph₀) :
    (s.setPhase t ph).phase u = some ph₀ ∨ u = t ∧ (s.setPhase t ph).phase u = some ph := by
  by_cases e : u = t
  · subst e; exact .inr ⟨rfl, phase_setPhase_self _ h⟩
  · exact .inl ((phase_setPhase_ne _ e).trans h)

@[simp] theorem phase_release : s.release.phase u = s.phase u := rfl

@[simp] theorem phase_with_waiters (w : List Nat) :
    ({ s with inner.waiters := w } : MqttSink).phase u = s.phase u := rfl

theorem phase_lt {ph : Phase} (h : s.phase t = some ph) : t < s.tasks.length := by
  simp only [phase, Option.map_eq_some'] at h
  obtain ⟨_, ht, _⟩ := h
  exact (List.getElem?_eq_some_iff.mp ht).1

theorem phase_append_self (task : Task) :
    { s with tasks := s.tasks ++ [task] }.phase s.tasks.length = some task.phase := by
  simp [phase]

theorem phase_append_lt (task : Task) (h : u < s.tasks.length) :
    { s with tasks := s.tasks ++ [task] }.phase u = s.phase u := by
  simp [phase, List.getElem?_append_left h]

theorem getElem?_append_singleton_of_ne {α : Type} {l : List α} (x : α) {u : Nat}
    (h : u ≠ l.length) : (l ++ [x])[u]? = l[u]? := by
  rcases Nat.lt_or_gt_of_ne h with h | h
  · exact List.getElem?_append_left h
  · rw [List.getElem?_eq_none_iff.mpr (by simp; omega), List.getElem?_eq_none_iff.mpr (by omega)]

theorem phase_append_of_ne (task : Task) (h : u ≠ s.tasks.length) :
    { s with tasks := s.tasks ++ [task] }.phase u = s.phase u := by
  simp only [phase, getElem?_append_singleton_of_ne task h]

theorem tasks_setPhase (ph : Phase) (u : Nat) :
    (s.setPhase t ph).tasks[u]? =
      if u = t then s.tasks[u]?.map (fun task => { task with phase := ph }) else s.tasks[u]? := by
  by_cases e : u = t
  · subst e; simp [setPhase]
  · simp [setPhase, e, List.getElem?_modify_ne _ _ (Ne.symm e)]

/-- A phase change that starts no wait for an acknowledgement leaves every waiting future
other than `t` as it was. -/
theorem awaiting_setPhase {ph : Phase} (hph : ∀ p, ph ≠ .awaitingAck p) {r : Request} {p : Nat}
    (h : (s.setPhase t ph).tasks[u]? = some ⟨r, .awaitingAck p⟩) :
    s.tasks[u]? = some ⟨r, .awaitingAck p⟩ ∧ u ≠ t := by
  rw [tasks_setPhase] at h
  split at h
  · next e =>
    cases hu : s.tasks[u]? <;> simp_all
  · exact ⟨h, ‹_›⟩

/-! ### The one-shot channels -/

@[simp] theorem sendAck_inner (a : Ack) : (s.sendAck t a).1.inner = s.inner := by
  unfold sendAck; split <;> rfl
@[simp] theorem sendAck_out (a : Ack) : (s.sendAck t a).1.out = s.out := by
  unfold sendAck; split <;> rfl
@[simp] theorem sendAck_rxOpen (a : Ack) : (s.sendAck t a).1.rxOpen = s.rxOpen := by
  unfold sendAck; split <;> rfl
@[simp] theorem sendAck_borrowed (a : Ack) : (s.sendAck t a).1.borrowed = s.borrowed := by
  unfold sendAck; split <;> rfl

theorem sendAck_of_awaiting {p : Nat} (a : Ack) (h : s.phase t = some (.awaitingAck p)) :
    s.sendAck t a = (s.setPhase t (.acked a), true) := by
  simp [sendAck, h]

theorem sendAck_of_not_awaiting (a : Ack) (h : ∀ p, s.phase t ≠ some (.awaitingAck p)) :
    s.sendAck t a = (s, false) := by
  unfold sendAck; split
  · next p hp => exact absurd hp (h p)
  · rfl

/-- `tx.send(pkt)` moves no future but the one that waits on it, and that one to `acked`. -/
theorem phase_sendAck (a : Ack) (u : Nat) :
    (s.sendAck t a).1.phase u = s.phase u ∨
      u = t ∧ (∃ p, s.phase u = some (.awaitingAck p)) ∧
        (s.sendAck t a).1.phase u = some (.acked a) := by
  by_cases h : ∃ p, s.phase t = some (.awaitingAck p)
  · obtain ⟨p, hp⟩ := h
    rw [sendAck_of_awaiting a hp]
    by_cases e : u = t
    · subst e; exact .inr ⟨rfl, ⟨p, hp⟩, phase_setPhase_self _ hp⟩
    · exact .inl (phase_setPhase_ne _ e)
  · rw [sendAck_of_not_awaiting a fun p hp => h ⟨p, hp⟩]
    exact .inl rfl

@[simp] theorem cancelAck_inner : (s.cancelAck t).inner = s.inner := by
  unfold cancelAck; split <;> rfl
@[simp] theorem cancelAck_out : (s.cancelAck t).out = s.out := by
  unfold cancelAck; split <;> rfl
@[simp] theorem cancelAck_rxOpen : (s.cancelAck t).rxOpen = s.rxOpen := by
  unfold cancelAck; split <;> rfl
@[simp] theorem cancelAck_borrowed : (s.cancelAck t).borrowed = s.borrowed := by
  unfold cancelAck; split <;> rfl

theorem cancelAck_of_awaiting {p : Nat} (h : s.phase t = some (.awaitingAck p)) :
    s.cancelAck t = s.setPhase t .canceled := by
  simp [cancelAck, h]

theorem cancelAck_of_not_awaiting (h : ∀ p, s.phase t ≠ some (.awaitingAck p)) :
    s.cancelAck t = s := by
  unfold cancelAck; split
  · next p hp => exact absurd hp (h p)
  · rfl

/-- Dropping an acknowledgement sender moves no future but the one that waits on it, and that
one to `canceled`. -/
theorem phase_cancelAck (u : Nat) :
    (s.cancelAck t).phase u = s.phase u ∨
      u = t ∧ (∃ p, s.phase u = some (.awaitingAck p)) ∧
        (s.cancelAck t).phase u = some .canceled := by
  by_cases h : ∃ p, s.phase t = some (.awaitingAck p)
  · obtain ⟨p, hp⟩ := h
    rw [cancelAck_of_awaiting hp]
    by_cases e : u = t
    · subst e; exact .inr ⟨rfl, ⟨p, hp⟩, phase_setPhase_self _ hp⟩
    · exact .inl (phase_setPhase_ne _ e)
  · rw [cancelAck_of_not_awaiting fun p hp => h ⟨p, hp⟩]
    exact .inl rfl

/-- The release loop pops the waiters that are no longer parked, then wakes the first parked
one and stops; or it empties the FIFO and wakes nobody. -/
theorem wakeWaiters_cases (ws : List Nat) :
    ((∀ u ∈ ws, s.phase u ≠ some .parked) ∧ s.wakeWaiters ws = (s, [])) ∨
    ∃ skipped t rest, ws = skipped ++ t :: rest ∧ (∀ u ∈ skipped, s.phase u ≠ some .parked) ∧
      s.phase t = some .parked ∧ s.wakeWaiters ws = (s.setPhase t .woken, rest) := by
  induction ws with
  | nil => exact .inl ⟨by simp, rfl⟩
  | cons t rest ih =>
    by_cases ht : s.phase t = some .parked
    · exact .inr ⟨[], t, rest, rfl, by simp, ht, by simp [wakeWaiters, sendWake, ht]⟩
    · have hw : s.wakeWaiters (t :: rest) = s.wakeWaiters rest := by
        simp [wakeWaiters, sendWake, ht]
      rcases ih with ⟨hn, he⟩ | ⟨sk, t', r, rfl, hsk, ht', he⟩
      · exact .inl ⟨List.forall_mem_cons.mpr ⟨ht, hn⟩, hw.trans he⟩
      · exact .inr ⟨t :: sk, t', r, rfl, List.forall_mem_cons.mpr ⟨ht, hsk⟩, ht', hw.trans he⟩

theorem awaiting_sendAck {a : Ack} {r : Request} {p : Nat}
    (h : (s.sendAck t a).1.tasks[u]? = some ⟨r, .awaitingAck p⟩) :
    s.tasks[u]? = some ⟨r, .awaitingAck p⟩ ∧ u ≠ t := by
  unfold sendAck at h
  split at h
  · next hph =>
    have ⟨h₁, h₂⟩ := awaiting_setPhase (fun _ => Phase.noConfusion) h
    exact ⟨h₁, h₂⟩
  · refine ⟨h, fun e => ?_⟩
    subst e
    next hn => exact hn p (by simp [phase, h])

theorem awaiting_cancelAck {r : Request} {p : Nat}
    (h : (s.cancelAck t).tasks[u]? = some ⟨r, .awaitingAck p⟩) :
    s.tasks[u]? = some ⟨r, .awaitingAck p⟩ ∧ u ≠ t := by
  unfold cancelAck at h
  split at h
  · exact awaiting_setPhase (fun _ => Phase.noConfusion) h
  · refine ⟨h, fun e => ?_⟩
    subst e
    next hn => exact hn p (by simp [phase, h])

/-- `pkt_ack`'s release loop, with the FIFO written back: it wakes the first parked waiter
and leaves the waiters after it, or wakes nobody and leaves the FIFO empty. -/
theorem wake_cases :
    ((∀ u ∈ s.inner.waiters, s.phase u ≠ some .parked) ∧
        s.wake = { s with inner.waiters := [] }) ∨
    ∃ skipped t rest, s.inner.waiters = skipped ++ t :: rest ∧
      (∀ u ∈ skipped, s.phase u ≠ some .parked) ∧ s.phase t = some .parked ∧
      s.wake = { s.setPhase t .woken with inner.waiters := rest } := by
  rcases wakeWaiters_cases (s := s) s.inner.waiters with ⟨hn, he⟩ | ⟨sk, t, r, hw, hsk, ht, he⟩
  · exact .inl ⟨hn, by simp [wake, he]⟩
  · exact .inr ⟨sk, t, r, hw, hsk, ht, by simp [wake, he]⟩

/-- The release loop moves no future but the parked one it wakes. -/
theorem tasks_wake (u : Nat) :
    s.wake.tasks[u]? = s.tasks[u]? ∨ s.phase u = some .parked ∧ s.wake.phase u = some .woken := by
  rcases wake_cases (s := s) with ⟨-, he⟩ | ⟨_, t, _, -, -, ht, he⟩ <;> rw [he]
  · exact .inl rfl
  · by_cases e : u = t
    · subst e; exact .inr ⟨ht, phase_setPhase_self _ ht⟩
    · exact .inl (by simp [tasks_setPhase, e])

theorem phase_wake (u : Nat) :
    s.wake.phase u = s.phase u ∨ s.phase u = some .parked ∧ s.wake.phase u = some .woken := by
  rcases tasks_wake (s := s) u with h | h
  · exact .inl (by simp only [phase, h])
  · exact .inr h

theorem wake_frame :
    s.wake.inner.cap = s.inner.cap ∧ s.wake.inner.sink = s.inner.sink ∧
    s.wake.inner.queue = s.inner.queue ∧ s.wake.inner.queueOrder = s.inner.queueOrder ∧
    s.wake.out = s.out ∧ s.wake.rxOpen = s.rxOpen ∧ s.wake.borrowed = s.borrowed ∧
    s.wake.tasks.length = s.tasks.length := by
  rcases wake_cases (s := s) with ⟨_, he⟩ | ⟨_, t, _, _, _, _, he⟩ <;> rw [he] <;> simp

@[simp] theorem wake_cap : s.wake.inner.cap = s.inner.cap := wake_frame.1
@[simp] theorem wake_sink : s.wake.inner.sink = s.inner.sink := wake_frame.2.1
@[simp] theorem wake_queue : s.wake.inner.queue = s.inner.queue := wake_frame.2.2.1
@[simp] theorem wake_queueOrder : s.wake.inner.queueOrder = s.inner.queueOrder := wake_frame.2.2.2.1
@[simp] theorem wake_out : s.wake.out = s.out := wake_frame.2.2.2.2.1
@[simp] theorem wake_rxOpen : s.wake.rxOpen = s.rxOpen := wake_frame.2.2.2.2.2.1
@[simp] theorem wake_borrowed : s.wake.borrowed = s.borrowed := wake_frame.2.2.2.2.2.2.1
@[simp] theorem length_wake : s.wake.tasks.length = s.tasks.length := wake_frame.2.2.2.2.2.2.2

theorem awaiting_wake {r : Request} {p : Nat} (h : s.wake.tasks[u]? = some ⟨r, .awaitingAck p⟩) :
    s.tasks[u]? = some ⟨r, .awaitingAck p⟩ := by
  rcases wake_cases (s := s) with ⟨_, he⟩ | ⟨_, t, _, _, _, _, he⟩ <;> rw [he] at h
  · exact h
  · exact (awaiting_setPhase (fun _ => Phase.noConfusion) h).1

end MqttSink

end ActixMqtt.V3

namespace ActixMqtt.V3.AckedSend

variable {a : AckedSend} {s s' : MqttSink} {t : Nat} {ph : Phase}

/-- Everything packet-id allocation can do.  Only the in-flight table, `queue_order` and the
outbound channel change: an insertion at id `65536` is rolled back, and otherwise the
vacant key `k` the slab returns holds the future, `k + 1` is appended to `queue_order`, and the
packet is pushed unless the dispatcher has dropped the receiver. -/
theorem allocate_cases (h : a.allocate t s = .ok (s', ph)) :
    s'.tasks = s.tasks ∧ s'.borrowed = false ∧ s'.rxOpen = s.rxOpen ∧
    s'.inner.cap = s.inner.cap ∧ s'.inner.sink = s.inner.sink ∧
    s'.inner.waiters = s.inner.waiters ∧
    ((ph = .done (.error .packetIdNotAvailable) ∧ s'.inner.queueOrder = s.inner.queueOrder ∧
        s'.out = s.out ∧ (∀ j, s'.inner.queue.get j = s.inner.queue.get j) ∧
        s'.inner.queue.len = s.inner.queue.len) ∨
     ∃ k pkt, s.inner.queue.get k = none ∧ k + 1 ≤ 65535 ∧ a.packet (k + 1) = .ok pkt ∧
        s.inner.sink.isSome ∧
        (∀ j, s'.inner.queue.get j = if j = k then some (t, a.ackType) else s.inner.queue.get j) ∧
        s'.inner.queue.len = s.inner.queue.len + 1 ∧
        s'.inner.queueOrder = s.inner.queueOrder ++ [k + 1] ∧
        ((s.rxOpen ∧ ph = .awaitingAck (k + 1) ∧ s'.out = s.out ++ [(pkt, 0)]) ∨
         (s.rxOpen = false ∧ ph = .done (.error .disconnected) ∧ s'.out = s.out))) := by
  unfold allocate at h
  have hget := s.inner.queue.get_insert (t, a.ackType)
  have hkey := s.inner.queue.get_insert_key (t, a.ackType)
  have hlen := s.inner.queue.len_insert (t, a.ackType)
  generalize s.inner.queue.insert (t, a.ackType) = ins at h hget hkey hlen
  obtain ⟨q, k⟩ := ins
  simp only at hget hkey hlen
  simp only [bind, Except.bind, pure, Except.pure] at h
  split at h
  · obtain ⟨q', hrem, hget', hlen'⟩ :=
      Slab.remove_of_get (by simp [hget] : q.get k = some (t, a.ackType))
    simp only [Nat.add_sub_cancel, hrem, Except.ok.injEq, Prod.mk.injEq] at h
    obtain ⟨rfl, rfl⟩ := h
    refine ⟨rfl, rfl, rfl, rfl, rfl, rfl,
      .inl ⟨rfl, rfl, rfl, fun j => ?_, by simp only [MqttSink.release_inner]; omega⟩⟩
    simp only [MqttSink.release_inner, hget' j, hget j]
    split <;> simp_all
  · split at h
    · cases h
    · next pkt hpkt =>
      split at h
      · cases h
      · next hs =>
        split at h <;> simp only [Except.ok.injEq, Prod.mk.injEq] at h <;> obtain ⟨rfl, rfl⟩ := h
        · exact ⟨rfl, rfl, rfl, rfl, rfl, rfl, .inr ⟨k, pkt, hkey, by omega, hpkt, by simp [hs],
            hget, hlen, rfl, .inl ⟨‹_›, rfl, rfl⟩⟩⟩
        · exact ⟨rfl, rfl, rfl, rfl, rfl, rfl, .inr ⟨k, pkt, hkey, by omega, hpkt, by simp [hs],
            hget, hlen, rfl, .inr ⟨Bool.eq_false_iff.mpr ‹_›, rfl, rfl⟩⟩⟩

/-- Allocation ends in a wait for the acknowledgement or in a result. -/
theorem allocate_phase (h : a.allocate t s = .ok (s', ph)) :
    (∃ p, ph = .awaitingAck p) ∨ ∃ r, ph = .done r := by
  rcases (allocate_cases h).2.2.2.2.2.2 with
    ⟨rfl, -⟩ | ⟨k, -, -, -, -, -, -, -, -, ⟨-, rfl, -⟩ | ⟨-, rfl, -⟩⟩
  · exact .inr ⟨_, rfl⟩
  · exact .inl ⟨_, rfl⟩
  · exact .inr ⟨_, rfl⟩

end ActixMqtt.V3.AckedSend

namespace ActixMqtt.V3.AckedSend

variable {a : AckedSend} {s s' : MqttSink} {t : Nat} {ph : Phase}

/-- The first poll of a send: it refuses on a closed sink, parks at the receive maximum, or
allocates. -/
theorem start_cases (hf : s.borrowed = false) (h : a.start t s = .ok (s', ph)) :
    (s.inner.sink = none ∧ s' = s ∧ ph = .done (.error .disconnected)) ∨
    (s.inner.sink.isSome ∧ usizeSub s.inner.cap s.inner.queue.len = 0 ∧
      s' = { s with inner.waiters := s.inner.waiters ++ [t] } ∧ ph = .parked) ∨
    (s.inner.sink.isSome ∧ usizeSub s.inner.cap s.inner.queue.len ≠ 0 ∧
      a.allocate t { s with borrowed := true } = .ok (s', ph)) := by
  simp only [start, MqttSink.borrowMut_of_free hf, bind, Except.bind] at h
  split at h
  · next hs =>
    simp only [pure, Except.pure, Except.ok.injEq, Prod.mk.injEq] at h
    obtain ⟨rfl, rfl⟩ := h
    exact .inl ⟨hs, MqttSink.release_of_free hf, rfl⟩
  · next hs =>
    split at h
    · simp only [pure, Except.pure, Except.ok.injEq, Prod.mk.injEq] at h
      obtain ⟨rfl, rfl⟩ := h
      refine .inr (.inl ⟨by simp [hs], ‹_›, ?_, rfl⟩)
      cases s; simp_all [MqttSink.release]
    · exact .inr (.inr ⟨by simp [hs], ‹_›, h⟩)

theorem resume_eq (hf : s.borrowed = false) :
    a.resume t s = a.allocate t { s with borrowed := true } := by
  simp [resume, MqttSink.borrowMut_of_free hf, bind, Except.bind]

@[simp] theorem finish_canceled : a.finish .canceled = .ok (.done (.error .disconnected)) := rfl

theorem finish_acked (pkt : Ack) :
    a.finish (.acked pkt) = (fun r => .done (.ok r)) <$> a.reply pkt := rfl

/-- Polling a future that is neither acknowledged nor cancelled leaves it as it is. -/
theorem finish_of_pending {ph : Phase} (h₁ : ∀ pkt, ph ≠ .acked pkt) (h₂ : ph ≠ .canceled) :
    a.finish ph = .ok ph := by
  cases ph <;> simp_all [finish, pure, Except.pure]

/-- Polling leaves a future as it is, or finishes one whose acknowledgement arrived or whose
sender was dropped. -/
theorem finish_cases {ph' : Phase} (h : a.finish ph = .ok ph') :
    ph' = ph ∨ ((∃ pkt, ph = .acked pkt) ∨ ph = .canceled) ∧ ∃ r, ph' = .done r := by
  cases ph with
  | acked pkt =>
    rw [finish_acked] at h
    cases e : a.reply pkt <;> simp only [e, Functor.map, Except.map, reduceCtorEq,
      Except.ok.injEq] at h
    exact .inr ⟨.inl ⟨pkt, rfl⟩, _, h.symm⟩
  | canceled => exact .inr ⟨.inr rfl, _, (Except.ok.inj h).symm⟩
  | _ => exact .inl (Except.ok.inj h).symm

/-- Polling never starts a wait for an acknowledgement. -/
theorem finish_awaiting {p : Nat} (h : a.finish ph = .ok (.awaitingAck p)) :
    ph = .awaitingAck p := by
  rcases finish_cases h with h | ⟨-, _, h⟩
  · exact h.symm
  · cases h

end ActixMqtt.V3.AckedSend

namespace ActixMqtt.V3.MqttSink

variable {s s' : MqttSink} {a : Ack} {p : Nat} {rest : List Nat}

/-! ### `pkt_ack` -/

theorem mismatch_of_borrowed (h : s.borrowed = true) : s.mismatch = .error borrowMutMsg := by
  simp [mismatch, close, borrowMut, h, bind, Except.bind, throw, throwThe, MonadExceptOf.throw]

/-- At an empty `queue_order`, `pkt_ack` calls `close()` with its own `RefMut` alive. -/
theorem pktAck_nil (hf : s.borrowed = false) (ho : s.inner.queueOrder = []) :
    s.pktAck a = .error borrowMutMsg := by
  simp only [pktAck, borrowMut_of_free hf, bind, Except.bind, ho]
  exact mismatch_of_borrowed rfl

/-- At a head other than the acknowledgement's id, `pkt_ack` calls `close()` with its own
`RefMut` alive. -/
theorem pktAck_ne (hf : s.borrowed = false) (ho : s.inner.queueOrder = p :: rest)
    (hp : p ≠ a.packetId) : s.pktAck a = .error borrowMutMsg := by
  simp only [pktAck, borrowMut_of_free hf, bind, Except.bind, ho, if_pos hp]
  exact mismatch_of_borrowed rfl

theorem pktAck_vacant (hf : s.borrowed = false) (ho : s.inner.queueOrder = p :: rest)
    (hp : p = a.packetId) (hq : s.inner.queue.get (p - 1) = none) :
    s.pktAck a = .error unreachableMsg := by
  subst hp
  simp [pktAck, borrowMut_of_free hf, bind, Except.bind, ho, Slab.contains, hq, throw,
    throwThe, MonadExceptOf.throw]

/-- At the right head and a slot of another kind, `pkt_ack` vacates the slot, drops its
acknowledgement sender and returns `Unexpected`, without closing. -/
theorem pktAck_unexpected {t : Nat} {tp : AckType} (hf : s.borrowed = false)
    (ho : s.inner.queueOrder = p :: rest) (hp : p = a.packetId)
    (hq : s.inner.queue.get (p - 1) = some (t, tp)) (hm : a.isMatch tp = false) :
    ∃ q : Slab (Nat × AckType),
      (∀ j, q.get j = if j = p - 1 then none else s.inner.queue.get j) ∧
      q.len + 1 = s.inner.queue.len ∧
      s.pktAck a = .ok
        (({ s with
            borrowed := true, inner.queueOrder := rest, inner.queue := q }.cancelAck t).release,
          .error (.unexpected a.packetType tp.name)) := by
  obtain ⟨q, hrem, hget, hlen⟩ := Slab.remove_of_get hq
  refine ⟨q, hget, hlen, ?_⟩
  subst hp
  simp only [pktAck, borrowMut_of_free hf, bind, Except.bind, ho, ne_eq, not_true_eq_false,
    if_false, Slab.contains, hq, Option.isSome_some, if_true, hrem, hm, Bool.not_false]
  rfl

/-- At the right head and a slot of the right kind, `pkt_ack` vacates the slot, sends the
acknowledgement on its one-shot, runs the release loop and returns `Ok`. -/
theorem pktAck_match {t : Nat} {tp : AckType} (hf : s.borrowed = false)
    (ho : s.inner.queueOrder = p :: rest) (hp : p = a.packetId)
    (hq : s.inner.queue.get (p - 1) = some (t, tp)) (hm : a.isMatch tp = true) :
    ∃ q : Slab (Nat × AckType),
      (∀ j, q.get j = if j = p - 1 then none else s.inner.queue.get j) ∧
      q.len + 1 = s.inner.queue.len ∧
      s.pktAck a = .ok
        (({ s with
            borrowed := true, inner.queueOrder := rest, inner.queue := q }.sendAck t a
          ).1.wake.release, .ok ()) := by
  obtain ⟨q, hrem, hget, hlen⟩ := Slab.remove_of_get hq
  refine ⟨q, hget, hlen, ?_⟩
  subst hp
  simp only [pktAck, borrowMut_of_free hf, bind, Except.bind, ho, ne_eq, not_true_eq_false,
    if_false, Slab.contains, hq, Option.isSome_some, if_true, hrem, hm, Bool.not_true]
  rfl

/-- Everything `pkt_ack` can return from: the head of `queue_order` was the acknowledgement's
id, its slot held some future `t`, and that slot is vacated; then either the kinds differ and
`t`'s sender is dropped, or the acknowledgement goes to `t` and the release loop runs. -/
theorem pktAck_cases {res : Except ProtocolError Unit} (hf : s.borrowed = false)
    (h : s.pktAck a = .ok (s', res)) :
    ∃ rest t tp, ∃ q : Slab (Nat × AckType),
      s.inner.queueOrder = a.packetId :: rest ∧ s.inner.queue.get (a.packetId - 1) = some (t, tp) ∧
      (∀ j, q.get j = if j = a.packetId - 1 then none else s.inner.queue.get j) ∧
      q.len + 1 = s.inner.queue.len ∧
      ((a.isMatch tp = false ∧ res = .error (.unexpected a.packetType tp.name) ∧
          s' = ({ s with
            borrowed := true, inner.queueOrder := rest, inner.queue := q }.cancelAck t).release) ∨
       (a.isMatch tp = true ∧ res = .ok () ∧
          s' = ({ s with
            borrowed := true, inner.queueOrder := rest, inner.queue := q }.sendAck t a
          ).1.wake.release)) := by
  cases ho : s.inner.queueOrder with
  | nil => rw [pktAck_nil hf ho] at h; cases h
  | cons p rest =>
    by_cases hp : p = a.packetId
    · subst hp
      cases hq : s.inner.queue.get (a.packetId - 1) with
      | none => rw [pktAck_vacant hf ho rfl hq] at h; cases h
      | some v =>
        obtain ⟨t, tp⟩ := v
        cases hm : a.isMatch tp
        · obtain ⟨q, hq', hl, he⟩ := pktAck_unexpected hf ho rfl hq hm
          rw [he, Except.ok.injEq, Prod.mk.injEq] at h
          exact ⟨rest, t, tp, q, rfl, rfl, hq', hl, .inl ⟨hm, h.2.symm, h.1.symm⟩⟩
        · obtain ⟨q, hq', hl, he⟩ := pktAck_match hf ho rfl hq hm
          rw [he, Except.ok.injEq, Prod.mk.injEq] at h
          exact ⟨rest, t, tp, q, rfl, rfl, hq', hl, .inr ⟨hm, h.2.symm, h.1.symm⟩⟩
    · rw [pktAck_ne hf ho hp] at h; cases h

/-- `pkt_ack` never closes the connection: each of its returns leaves the transmit side as it
found it, and its two paths to `close()` panic first (`pktAck_nil`, `pktAck_ne`). -/
theorem pktAck_sink {res : Except ProtocolError Unit} (hf : s.borrowed = false)
    (h : s.pktAck a = .ok (s', res)) : s'.inner.sink = s.inner.sink := by
  obtain ⟨rest, t, tp, q, -, -, -, -, ⟨-, -, rfl⟩ | ⟨-, -, rfl⟩⟩ := pktAck_cases hf h <;> simp

/-- A fresh sink's `pkt_ack` panics where it should return `PacketIdMismatch`; after one QoS-1
publish, a `SUBACK` for its id returns `Unexpected` with the transmit side still open. -/
theorem pktAck_error_paths_keep_sink :
    (new 1).pktAck (.publish ⟨1, by decide⟩) = .error borrowMutMsg ∧
    ((new 1).step (.start (.publish ⟨"t", [], false, false⟩)) >>= fun s =>
        s.pktAck (.subscribe ⟨1, by decide⟩ [])).map (fun r => (r.1.inner.sink.isSome, r.2)) =
      .ok (true, .error (.unexpected SUBACK "PublishAck")) :=
  ⟨rfl, rfl⟩

end ActixMqtt.V3.MqttSink

namespace ActixMqtt.V3.MqttSink

variable {s s' : MqttSink} {t : Nat} {r : Request}

/-! ### Events -/

theorem step_start (h : s.step (.start r) = .ok s') :
    ∃ s₁ ph, r.send.start s.tasks.length s = .ok (s₁, ph) ∧
      s' = { s₁ with tasks := s₁.tasks ++ [⟨r, ph⟩] } := by
  simp only [step, bind, Except.bind] at h
  split at h
  · cases h
  · next x hx =>
    simp only [pure, Except.pure, Except.ok.injEq] at h
    exact ⟨x.1, x.2, hx, h.symm⟩

theorem step_poll_woken (hf : s.borrowed = false) (ht : s.tasks[t]? = some ⟨r, .woken⟩)
    (h : s.step (.poll t) = .ok s') :
    ∃ s₁ ph, r.send.allocate t { s with borrowed := true } = .ok (s₁, ph) ∧
      s' = s₁.setPhase t ph := by
  simp only [step, ht, AckedSend.resume_eq hf, bind, Except.bind] at h
  split at h
  · cases h
  · next x hx =>
    simp only [pure, Except.pure, Except.ok.injEq] at h
    exact ⟨x.1, x.2, hx, h.symm⟩

theorem step_poll_finish {ph : Phase} (ht : s.tasks[t]? = some ⟨r, ph⟩) (hw : ph ≠ .woken)
    (h : s.step (.poll t) = .ok s') :
    ∃ ph', r.send.finish ph = .ok ph' ∧ s' = s.setPhase t ph' := by
  simp only [step, ht] at h
  obtain ⟨ph', hf, he⟩ := Except.bind_eq_ok.mp h
  exact ⟨ph', hf, (Except.ok.inj he).symm⟩

theorem step_poll_none (ht : s.tasks[t]? = none) : s.step (.poll t) = .ok s := by
  simp [step, ht, pure, Except.pure]

theorem step_drop : s.step (.drop t) = .ok (s.setPhase t .dropped) := rfl

theorem step_publishAtMostOnce (hf : s.borrowed = false) (b : PublishBuilder) :
    s.step (.publishAtMostOnce b) = .ok (if s.inner.sink.isSome ∧ s.rxOpen then
      { s with out := s.out ++ [(.publish b.packet, 0)] } else s) := by
  simp only [step, PublishBuilder.sendAtMostOnce, borrow, hf, bind, Except.bind]
  cases s.inner.sink <;> cases s.rxOpen <;> rfl

theorem step_ack {a : Ack} (h : s.step (.ack a) = .ok s') : ∃ res, s.pktAck a = .ok (s', res) := by
  simp only [step] at h
  cases e : s.pktAck a with
  | error _ => rw [e] at h; cases h
  | ok x => rw [e] at h; cases h; exact ⟨x.2, rfl⟩

theorem step_close (hf : s.borrowed = false) :
    s.step .close = .ok { s with inner.sink := none } := by
  simp [step, close, borrowMut_of_free hf, bind, Except.bind, pure, Except.pure, release]
  cases s; simp_all

theorem step_ping (hf : s.borrowed = false) :
    s.step .ping = .ok (if s.inner.sink.isSome then
      { s with inner.sink := none, out := if s.rxOpen then s.out ++ [(.pingRequest, 0)] else s.out }
      else s) := by
  simp only [step, ping, borrowMut_of_free hf, bind, Except.bind]
  cases s with
  | mk inner b tasks out rx =>
    simp only at hf; subst hf
    cases inner.sink <;> cases rx <;> rfl

theorem step_disconnect : s.step .disconnect = .ok { s with rxOpen := false } := rfl

end ActixMqtt.V3.MqttSink
