import ActixMqtt.V3.Sink.Admission
import ActixMqtt.V3.Sink.Correlation

/-!
# V3 — Sink — packet-id exhaustion

A send takes the slab's next key `k` as packet id `k + 1`, and rolls the insertion back with
`PacketIdNotAvailable` when `k + 1` exceeds 65535.  The slab hands out the most recently
vacated key first, so whether the next key is in range depends on the order keys were freed,
not only on how many are free.  It is in range whenever some id is free: key 65535 is the only
one a send rolls back, and a rollback puts it back on the vacant list only when no other key is
vacant, so it is listed last and comes out again only when every key below it is taken
(`Slab.Bounded`).

**Exhaustion** (`packet_id_exhausted_iff`).  In every reachable state, a send's packet-id
allocation is refused with `PacketIdNotAvailable` exactly when all 65535 packet ids are in
`queue_order`, that is, in flight.

**Every id in flight** (`Filled`).  With a receive maximum `cap`, `n ≤ cap` sends on a fresh
sink take ids `1 .. n` in order (`Filled.run_starts`).  With `cap` above `65535` the next send
is admitted, finds every id taken and is refused (`Filled.start_refused`): a send of a run in
which the peer acknowledges everything in order can resolve without an acknowledgement of its
own (`compliant_send_refused_past_last_id`).
-/

namespace ActixMqtt.V3

namespace AckedSend

variable {a : AckedSend} {s s' : MqttSink} {t : Nat} {ph : Phase}

/-- What allocation does to the slab: it keeps the insertion when the id is in range, and
otherwise removes the key it just inserted and answers `PacketIdNotAvailable`. -/
theorem allocate_queue (h : a.allocate t s = .ok (s', ph)) :
    (s.inner.queue.vacantKey + 1 ≤ 65535 ∧
        s'.inner.queue = (s.inner.queue.insert (t, a.ackType)).1 ∧
        ph ≠ .done (.error .packetIdNotAvailable)) ∨
      (65535 < s.inner.queue.vacantKey + 1 ∧
        (∃ v, (s.inner.queue.insert (t, a.ackType)).1.remove s.inner.queue.vacantKey =
          some (v, s'.inner.queue)) ∧
        ph = .done (.error .packetIdNotAvailable)) := by
  unfold allocate at h
  have hkey := s.inner.queue.insert_key (t, a.ackType)
  generalize s.inner.queue.insert (t, a.ackType) = ins at h hkey
  obtain ⟨q, k⟩ := ins
  simp only at hkey
  subst hkey
  simp only [bind, Except.bind, pure, Except.pure] at h
  split at h
  · simp only [Nat.add_sub_cancel] at h
    split at h
    · cases h
    · next v q' hrem =>
      cases h
      exact .inr ⟨by omega, ⟨v, hrem⟩, rfl⟩
  · split at h
    · cases h
    · split at h
      · cases h
      · split at h <;> cases h <;> exact .inl ⟨by omega, rfl, by simp⟩

/-- With the slab's next key at 65535 or past it, allocation is rolled back. -/
theorem allocate_exhausted (hk : 65535 < s.inner.queue.vacantKey + 1) :
    ∃ s', a.allocate t s = .ok (s', .done (.error .packetIdNotAvailable)) := by
  have hget := s.inner.queue.get_insert (t, a.ackType) s.inner.queue.vacantKey
  rw [Slab.insert_key, if_pos rfl] at hget
  obtain ⟨q', hrem, -, -⟩ := Slab.remove_of_get hget
  unfold allocate
  have hkey := s.inner.queue.insert_key (t, a.ackType)
  generalize s.inner.queue.insert (t, a.ackType) = ins at hkey hrem
  obtain ⟨q, k⟩ := ins
  simp only at hkey hrem
  subst hkey
  simp only [bind, Except.bind, pure, Except.pure, if_pos hk, Nat.add_sub_cancel, hrem]
  exact ⟨_, rfl⟩

end AckedSend

namespace MqttSink

variable {s s' : MqttSink} {a : Ack} {res : Except ProtocolError Unit}

/-- What `pkt_ack` does to the slab: it removes the slot of the acknowledged id. -/
theorem pktAck_remove (hf : s.borrowed = false) (h : s.pktAck a = .ok (s', res)) :
    ∃ v, s.inner.queue.remove (a.packetId - 1) = some (v, s'.inner.queue) := by
  obtain ⟨rest, t, tp, q, ho, hq, -, -, -⟩ := pktAck_cases hf h
  obtain ⟨q', hrem, -, -⟩ := Slab.remove_of_get hq
  simp only [pktAck, borrowMut_of_free hf, bind, Except.bind, ho, ne_eq, not_true_eq_false,
    if_false, Slab.contains, hq, Option.isSome_some, if_true, hrem] at h
  refine ⟨(t, tp), hrem.trans ?_⟩
  split at h <;> cases h <;> simp

/-- Every event keeps the in-flight slab bounded at key 65535. -/
theorem bounded_step (hb : s.inner.queue.Bounded 65535) (ht : TableInv s) {e : Event}
    (h : s.step e = .ok s') : s'.inner.queue.Bounded 65535 := by
  have hallocate : ∀ {a : AckedSend} {t : Nat} {s₁ : MqttSink} {ph : Phase},
      a.allocate t { s with borrowed := true } = .ok (s₁, ph) →
        s₁.inner.queue.Bounded 65535 := fun ha => by
    rcases AckedSend.allocate_queue ha with ⟨hk, hq, -⟩ | ⟨hk, ⟨v, hr⟩, -⟩
    · simp only at hk hq
      rw [hq]; exact hb.insert (by omega) _
    · simp only at hk hr
      exact hb.insert_remove (by omega) hr
  cases e with
  | start r =>
    obtain ⟨s₁, ph, hs, rfl⟩ := step_start h
    rcases AckedSend.start_cases ht.free hs with ⟨-, rfl, rfl⟩ | ⟨-, -, rfl, rfl⟩ | ⟨-, -, ha⟩
    · exact hb
    · exact hb
    · exact (hallocate ha :)
  | poll t =>
    cases ht' : s.tasks[t]? with
    | none => rw [step_poll_none ht'] at h; cases h; exact hb
    | some task =>
      obtain ⟨r, ph⟩ := task
      by_cases hw : ph = .woken
      · subst hw
        obtain ⟨s₁, ph', ha, rfl⟩ := step_poll_woken ht.free ht' h
        exact (hallocate ha :)
      · obtain ⟨ph', -, rfl⟩ := step_poll_finish ht' hw h
        exact hb
  | drop t => rw [step_drop] at h; cases h; exact hb
  | publishAtMostOnce b =>
    rw [step_publishAtMostOnce ht.free] at h; cases h
    split <;> exact hb
  | ack a =>
    obtain ⟨res, hr⟩ := step_ack h
    obtain ⟨v, hrem⟩ := pktAck_remove ht.free hr
    exact hb.remove hrem
  | close => rw [step_close ht.free] at h; cases h; exact hb
  | ping => rw [step_ping ht.free] at h; cases h; split <;> exact hb
  | disconnect => rw [step_disconnect] at h; cases h; exact hb

theorem bounded_reachable {cap : Nat} (h : Reachable cap s) : s.inner.queue.Bounded 65535 := by
  induction h with
  | init => exact Slab.Bounded.empty 65535
  | step hr hs ih => exact bounded_step ih (TableInv.reachable hr) hs

/-- **Packet-id exhaustion.**  In every reachable state, a send's packet-id allocation (made
with the cell borrowed) is refused with `PacketIdNotAvailable` exactly when every packet id in
`[1, 65535]` is in `queue_order`, that is, in flight. -/
theorem packet_id_exhausted_iff {cap : Nat} (h : Reachable cap s) (a : AckedSend) (t : Nat) :
    (∃ s', a.allocate t { s with borrowed := true } =
        .ok (s', .done (.error .packetIdNotAvailable))) ↔
      ∀ p, 1 ≤ p → p ≤ 65535 → p ∈ s.inner.queueOrder := by
  have hs := SlotInv.reachable h
  have hk : 65535 < s.inner.queue.vacantKey + 1 ↔ ∀ k < 65535, (s.inner.queue.get k).isSome := by
    rw [Nat.lt_add_one_iff]
    exact (bounded_reachable h).vacantKey_iff
  constructor
  · rintro ⟨s', ha⟩ p h₁ h₂
    rcases AckedSend.allocate_queue ha with ⟨-, -, hph⟩ | ⟨hlt, -, -⟩
    · exact absurd rfl hph
    · have := (hs.slots (p - 1)).mp (hk.mp hlt (p - 1) (by omega))
      rwa [Nat.sub_add_cancel h₁] at this
  · intro hall
    exact AckedSend.allocate_exhausted
      (hk.mpr fun k hk' => (hs.slots k).mpr (hall (k + 1) (by omega) (by omega)))

/-! ### Every id in flight -/

theorem usizeSub_of_le {a b : Nat} (h : b ≤ a) (ha : a < 2 ^ 64) : usizeSub a b = a - b := by
  unfold usizeSub
  rw [Int.emod_eq_of_lt (by omega) (by omega)]
  omega

theorem run_append (s : MqttSink) (es es' : List Event) :
    s.run (es ++ es') = s.run es >>= fun s => s.run es' := by
  induction es generalizing s with
  | nil => rfl
  | cons e es ih =>
    simp only [List.cons_append, run, bind, Except.bind]
    cases s.step e with
    | error => rfl
    | ok s₁ => exact ih s₁

theorem run_singleton (s : MqttSink) (e : Event) : s.run [e] = s.step e := by
  simp only [run, bind, Except.bind, pure, Except.pure]
  cases s.step e <;> rfl

variable {cap n : Nat}

/-- The state after `n` sends on a fresh sink with receive maximum `cap` and no
acknowledgement: the cell free, the sink open, slots `0 .. n - 1` taken and none vacated, and
ids `1 .. n` in flight. -/
structure Filled (s : MqttSink) (cap n : Nat) : Prop where
  free : s.borrowed = false
  sink : s.inner.sink.isSome
  rxOpen : s.rxOpen = true
  cap : s.inner.cap = cap
  vacant : s.inner.queue.vacant = []
  length : s.inner.queue.entries.length = n
  len : s.inner.queue.len = n
  order : s.inner.queueOrder = List.range' 1 n
  tasks : s.tasks.length = n

theorem Filled.init (cap : Nat) : Filled (new cap) cap 0 :=
  ⟨rfl, rfl, rfl, rfl, rfl, rfl, rfl, rfl, rfl⟩

theorem Filled.vacantKey (hs : Filled s cap n) : s.inner.queue.vacantKey = n :=
  (Slab.vacantKey_of_nil hs.vacant).trans hs.length

theorem Filled.start_allocates (hs : Filled s cap n) (hn : n < cap) (hcap : cap < 2 ^ 64)
    (r : Request) (t : Nat) : r.send.start t s = r.send.allocate t { s with borrowed := true } :=
  AckedSend.start_allocates hs.free hs.sink
    (by rw [hs.cap, hs.len, usizeSub_of_le hn.le hcap]; omega)

/-- Below the receive maximum and with an id to spare, the next send takes id `n + 1`. -/
theorem Filled.start (hs : Filled s cap n) (hn : n < cap) (hcap : cap < 2 ^ 64) (hid : n < 65535)
    (r : Request) : ∃ s', s.step (.start r) = .ok s' ∧ Filled s' cap (n + 1) := by
  have hk := hs.vacantKey
  obtain ⟨pkt, hp⟩ := r.packet_ok (Nat.le_add_left 1 s.inner.queue.vacantKey) (by omega)
  obtain ⟨s₁, ha, hl⟩ := AckedSend.allocate_open (t := s.tasks.length)
    (s := { s with borrowed := true }) (by simp only; omega) hp hs.sink hs.rxOpen
  have hst : r.send.start s.tasks.length s = .ok (s₁, .awaitingAck (n + 1)) := by
    rw [hs.start_allocates hn hcap, ha, hk]
  obtain ⟨hts, hb, hrx, hcp, hsk, -, hc⟩ := AckedSend.allocate_cases ha
  have ho : s₁.inner.queueOrder = s.inner.queueOrder ++ [n + 1] := by
    rcases hc with ⟨he, -⟩ | ⟨k, -, -, -, -, -, -, -, ho, ⟨-, he, -⟩ | ⟨-, he, -⟩⟩ <;>
      simp only [hk, Phase.awaitingAck.injEq, reduceCtorEq] at he
    rw [ho, ← he]
  rcases AckedSend.allocate_queue ha with ⟨-, hq, -⟩ | ⟨hlt, -, -⟩
  · simp only at hq
    refine ⟨{ s₁ with tasks := s₁.tasks ++ [⟨r, .awaitingAck (n + 1)⟩] },
      by simp only [step, hst, bind, Except.bind, pure, Except.pure], hb, ?_, ?_, ?_, ?_, ?_, ?_, ?_,
      ?_⟩
    · simpa [hsk] using hs.sink
    · exact hrx.trans hs.rxOpen
    · exact hcp.trans hs.cap
    · rw [hq, Slab.vacant_insert, hs.vacant, List.tail_nil]
    · rw [hq, Slab.length_insert, hs.length, hk, Nat.max_eq_right (Nat.le_succ n)]
    · exact hl.trans (congrArg (· + 1) hs.len)
    · rw [ho, hs.order, List.range'_concat, Nat.one_mul, Nat.add_comm 1 n]
    · simp [hts, hs.tasks]
  · simp only at hlt
    omega

/-- With ids `1 .. 65535` in flight and a receive maximum above `65535`, the next send is
refused with `PacketIdNotAvailable`, the slot it took rolled back and `queue_order` kept. -/
theorem Filled.start_refused (hs : Filled s cap 65535) (hn : 65535 < cap) (hcap : cap < 2 ^ 64)
    (r : Request) :
    ∃ s', s.step (.start r) = .ok s' ∧
      s'.tasks[65535]? = some ⟨r, .done (.error .packetIdNotAvailable)⟩ ∧
      s'.inner.queueOrder = List.range' 1 65535 := by
  obtain ⟨s₁, ha⟩ := AckedSend.allocate_exhausted (a := r.send) (t := s.tasks.length)
    (s := { s with borrowed := true }) (by simp only [hs.vacantKey]; omega)
  have hst : r.send.start s.tasks.length s = .ok (s₁, .done (.error .packetIdNotAvailable)) := by
    rw [hs.start_allocates hn hcap, ha]
  obtain ⟨hts, -, -, -, -, -, hc⟩ := AckedSend.allocate_cases ha
  have ho : s₁.inner.queueOrder = s.inner.queueOrder := by
    rcases hc with ⟨-, ho, -⟩ | ⟨_, _, -, -, -, -, -, -, -, ⟨-, he, -⟩ | ⟨-, he, -⟩⟩
    · exact ho
    all_goals simp at he
  refine ⟨{ s₁ with tasks := s₁.tasks ++ [⟨r, .done (.error .packetIdNotAvailable)⟩] },
    by simp only [step, hst, bind, Except.bind, pure, Except.pure], ?_, ho.trans hs.order⟩
  have hl : s₁.tasks.length = 65535 := (congrArg List.length hts).trans hs.tasks
  show (s₁.tasks ++ _)[65535]? = _
  rw [← hl, List.getElem?_concat_length]

/-- A fresh sink given `n` sends, `n` at most the receive maximum and at most `65535`, takes ids
`1 .. n` in order. -/
theorem Filled.run_starts (cap : Nat) (r : Request) (hcap : cap < 2 ^ 64) :
    ∀ n, n ≤ cap → n ≤ 65535 →
      ∃ s, (new cap).run (List.replicate n (.start r)) = .ok s ∧ Filled s cap n
  | 0, _, _ => ⟨_, rfl, Filled.init cap⟩
  | n + 1, h₁, h₂ => by
    obtain ⟨s, hr, hs⟩ := Filled.run_starts cap r hcap n (by omega) (by omega)
    obtain ⟨s', hs', hf⟩ := hs.start (by omega) hcap (by omega) r
    refine ⟨s', ?_, hf⟩
    rw [List.replicate_succ', run_append, hr]
    exact (run_singleton s _).trans hs'

/-- At receive maximum `65536`, the first 65535 sends on a fresh sink take every id, and the
next is refused with `PacketIdNotAvailable` after rolling back key `65535`: every id is still in
flight, and a further allocation is refused again. -/
theorem packet_ids_refused_after_rollback :
    ∃ s, (new 65536).run (List.replicate 65536 (.start (.publish ⟨"t", [], false, false⟩))) =
        .ok s ∧
      s.tasks[65535]? = some ⟨.publish ⟨"t", [], false, false⟩,
        .done (.error .packetIdNotAvailable)⟩ ∧
      ∃ s', (Request.publish ⟨"t", [], false, false⟩).send.allocate 65536
        { s with borrowed := true } = .ok (s', .done (.error .packetIdNotAvailable)) := by
  obtain ⟨s, hr, hs⟩ :=
    Filled.run_starts 65536 (.publish ⟨"t", [], false, false⟩) (by norm_num) 65535 (by norm_num)
      le_rfl
  obtain ⟨s', hs', ht, ho⟩ := hs.start_refused (by norm_num) (by norm_num) _
  have hr' : (new 65536).run (List.replicate 65536 (.start (.publish ⟨"t", [], false, false⟩))) =
      .ok s' := by
    rw [List.replicate_succ', run_append, hr]
    exact (run_singleton s _).trans hs'
  refine ⟨s', hr', ht, (packet_id_exhausted_iff (Reachable.run .init hr') _ _).mpr
    fun p h₁ h₂ => ?_⟩
  rw [ho, List.mem_range']
  exact ⟨p - 1, by omega, by omega⟩

end MqttSink

end ActixMqtt.V3
