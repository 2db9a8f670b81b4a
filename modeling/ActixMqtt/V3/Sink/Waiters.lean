import ActixMqtt.V3.Sink.Table

/-!
# V3 — Sink — the waiter FIFO

A send that finds the receive maximum reached pushes the sender of a waiter one-shot onto
`inner.waiters` and parks.  `pkt_ack`'s release loop pops that FIFO until a send on the
one-shot succeeds, that is until it meets a future that still waits on it.

The FIFO and the futures agree (`WaitInv`): it holds the futures in the order of their first
poll, each of them parked or dropped, and every parked future is in it.  Dropping a future
never touches the FIFO, and the only way out of it is the release loop.

* **Release order** (`pktAck_releases_fifo_in_order`).  A successful `pkt_ack` pops the dropped
  futures at the front of the FIFO, wakes the first parked one, which is the earliest parked
  future of all, and wakes no other; when no future is parked it empties the FIFO of dropped
  ones and wakes nobody.
* **Lost wake-up** (`woken_send_dropped_strands_waiter`).  A woken future that is dropped
  before it resumes takes its wake-up with it: no other waiter is woken in its place, so a
  parked send can wait with the whole receive maximum free.
-/

namespace ActixMqtt.V3.MqttSink

variable {s s' : MqttSink} {t u : Nat}

/-- `s'` moves no future into or out of `parked` or `dropped`. -/
def KeepsIdle (s s' : MqttSink) : Prop :=
  ∀ u ph, (ph = .parked ∨ ph = .dropped) → (s'.phase u = some ph ↔ s.phase u = some ph)

/-! ### Phase changes that keep the idle futures -/

theorem keepsIdle_of_tasks (h : s'.tasks = s.tasks) : KeepsIdle s s' := by
  intro u _ _
  rw [phase, phase, h]

theorem KeepsIdle.trans {s'' : MqttSink} (h₁ : KeepsIdle s s') (h₂ : KeepsIdle s' s'') :
    KeepsIdle s s'' :=
  fun u ph hph => (h₂ u ph hph).trans (h₁ u ph hph)

/-- Moving future `t` keeps the idle futures when it moves neither into nor out of `parked`
or `dropped`. -/
theorem keepsIdle_setPhase {ph : Phase}
    (h : ∀ ph₀, s.phase t = some ph₀ → (ph₀ = .parked ↔ ph = .parked) ∧
      (ph₀ = .dropped ↔ ph = .dropped)) :
    KeepsIdle s (s.setPhase t ph) := by
  intro u q hq
  rw [phase_setPhase]
  split_ifs with e
  · subst e
    cases h₀ : s.phase u with
    | none => simp
    | some ph₀ =>
      obtain ⟨hp, hd⟩ := h ph₀ h₀
      simp only [Option.map_some', Option.some.injEq]
      rcases hq with rfl | rfl
      exacts [hp.symm, hd.symm]
  · exact Iff.rfl

theorem keepsIdle_sendAck (a : Ack) : KeepsIdle s (s.sendAck t a).1 := by
  intro u q hq
  rcases phase_sendAck (s := s) (t := t) a u with e | ⟨-, ⟨p, hp⟩, e⟩ <;> rw [e]
  rw [hp]
  rcases hq with rfl | rfl <;> simp

theorem keepsIdle_cancelAck : KeepsIdle s (s.cancelAck t) := by
  intro u q hq
  rcases phase_cancelAck (s := s) (t := t) u with e | ⟨-, ⟨p, hp⟩, e⟩ <;> rw [e]
  rw [hp]
  rcases hq with rfl | rfl <;> simp

/-- A new future that is neither parked nor dropped keeps the idle futures. -/
theorem keepsIdle_append {task : Task} (hp : task.phase ≠ .parked) (hd : task.phase ≠ .dropped) :
    KeepsIdle s { s with tasks := s.tasks ++ [task] } := by
  intro u q hq
  by_cases e : u = s.tasks.length
  · subst e
    have hn : s.phase s.tasks.length = none := by simp [phase]
    rw [phase_append_self, hn]
    rcases hq with rfl | rfl <;> simp [hp, hd]
  · rw [phase_append_of_ne _ e]

/-! ### The invariant -/

/-- The waiter FIFO and the futures agree. -/
structure WaitInv (s : MqttSink) : Prop where
  sorted : s.inner.waiters.Pairwise (· < ·)
  member : ∀ t ∈ s.inner.waiters, s.phase t = some .parked ∨ s.phase t = some .dropped
  parked : ∀ t, s.phase t = some .parked → t ∈ s.inner.waiters

theorem WaitInv.init (cap : Nat) : WaitInv (new cap) where
  sorted := List.Pairwise.nil
  member := by simp [new]
  parked := by simp [new, phase]

theorem WaitInv.keepsIdle (hi : WaitInv s) (hw : s'.inner.waiters = s.inner.waiters)
    (hk : KeepsIdle s s') : WaitInv s' where
  sorted := hw ▸ hi.sorted
  member u hu := by
    rw [hw] at hu
    rcases hi.member u hu with h | h
    · exact .inl ((hk u _ (.inl rfl)).mpr h)
    · exact .inr ((hk u _ (.inr rfl)).mpr h)
  parked u h := hw ▸ hi.parked u ((hk u _ (.inl rfl)).mp h)

theorem WaitInv.release (hi : WaitInv s) : WaitInv s.release :=
  hi.keepsIdle rfl (keepsIdle_of_tasks rfl)

/-- The release loop keeps the FIFO and the futures in agreement. -/
theorem WaitInv.wake (hi : WaitInv s) : WaitInv s.wake := by
  rcases wake_cases (s := s) with ⟨hn, he⟩ | ⟨sk, t, rest, hw, hsk, ht, he⟩ <;> rw [he]
  · refine ⟨List.Pairwise.nil, fun _ h => absurd h (List.not_mem_nil _), fun u hu => ?_⟩
    exact absurd hu (hn u (hi.parked u hu))
  · have hs := hi.sorted
    rw [hw, List.pairwise_append, List.pairwise_cons] at hs
    obtain ⟨-, ⟨hlt, hrest⟩, -⟩ := hs
    refine ⟨hrest, fun u hu => ?_, fun u hu => ?_⟩
    · have hne : u ≠ t := (Nat.ne_of_lt (hlt u hu)).symm
      rw [phase_with_waiters, phase_setPhase_ne _ hne]
      exact hi.member u (by simp [hw, hu])
    · rw [phase_with_waiters] at hu
      have hne : u ≠ t := fun e => by subst e; simp [phase_setPhase_self _ ht] at hu
      rw [phase_setPhase_ne _ hne] at hu
      have hm := hi.parked u hu
      rw [hw, List.mem_append, List.mem_cons] at hm
      rcases hm with hm | hm | hm
      · exact absurd hu (hsk u hm)
      · exact absurd hm hne
      · exact hm

/-- Every event keeps the FIFO and the futures in agreement. -/
theorem WaitInv.step (hi : WaitInv s) (hf : s.borrowed = false) {e : Event}
    (h : s.step e = .ok s') : WaitInv s' := by
  cases e with
  | start r =>
    obtain ⟨s₁, ph, hs, rfl⟩ := step_start h
    rcases AckedSend.start_cases hf hs with ⟨-, rfl, rfl⟩ | ⟨-, -, rfl, rfl⟩ | ⟨-, -, ha⟩
    · exact hi.keepsIdle rfl (keepsIdle_append (by simp) (by simp))
    · have hlt : ∀ u ∈ s.inner.waiters, u < s.tasks.length := fun u hu => by
        rcases hi.member u hu with h | h <;> exact phase_lt h
      refine ⟨?_, fun u hu => ?_, fun u hu => ?_⟩
      · exact List.pairwise_append.mpr ⟨hi.sorted, List.pairwise_singleton _ _,
          fun u hu v hv => by rw [List.mem_singleton.mp hv]; exact hlt u hu⟩
      · rcases List.mem_append.mp hu with hu | hu
        · have hm := hi.member u hu
          simp only [phase] at hm ⊢
          rwa [List.getElem?_append_left (hlt u hu)]
        · simp [List.mem_singleton.mp hu, phase]
      · by_cases e : u = s.tasks.length
        · exact List.mem_append_right _ (List.mem_singleton.mpr e)
        · have hp : s.phase u = some .parked := by
            rw [← phase_append_of_ne ⟨r, .parked⟩ e]; exact hu
          exact List.mem_append_left _ (hi.parked u hp)
    · obtain ⟨ht, -, -, -, -, hw, -⟩ := AckedSend.allocate_cases ha
      have hk : KeepsIdle s s₁ := keepsIdle_of_tasks ht
      refine (hi.keepsIdle hw hk).keepsIdle rfl (keepsIdle_append ?_ ?_) <;>
        rcases AckedSend.allocate_phase ha with ⟨p, rfl⟩ | ⟨r, rfl⟩ <;> simp
  | poll t =>
    cases ht : s.tasks[t]? with
    | none => rw [step_poll_none ht] at h; cases h; exact hi
    | some task =>
      obtain ⟨r, ph⟩ := task
      have hph : s.phase t = some ph := by simp [phase, ht]
      by_cases hw : ph = .woken
      · subst hw
        obtain ⟨s₁, ph', ha, rfl⟩ := step_poll_woken hf ht h
        obtain ⟨hts, -, -, -, -, hw, -⟩ := AckedSend.allocate_cases ha
        have hk : KeepsIdle s s₁ := keepsIdle_of_tasks hts
        refine (hi.keepsIdle hw hk).keepsIdle rfl (keepsIdle_setPhase fun ph₀ h₀ => ?_)
        rw [show s₁.phase t = s.phase t by rw [phase, phase, hts], hph] at h₀
        cases h₀
        rcases AckedSend.allocate_phase ha with ⟨p, rfl⟩ | ⟨r, rfl⟩ <;> simp
      · obtain ⟨ph', hfin, rfl⟩ := step_poll_finish ht hw h
        refine hi.keepsIdle rfl (keepsIdle_setPhase fun ph₀ h₀ => ?_)
        rw [hph] at h₀
        cases h₀
        rcases AckedSend.finish_cases hfin with rfl | ⟨⟨pkt, rfl⟩ | rfl, r, rfl⟩ <;> simp
  | drop t =>
    rw [step_drop] at h; cases h
    refine ⟨hi.sorted, fun u hu => ?_, fun u hu => ?_⟩
    · rcases hi.member u hu with h | h <;>
        rcases phase_setPhase_of_some (t := t) .dropped h with h' | ⟨-, h'⟩ <;> simp [h']
    · have hne : u ≠ t := fun e => by
        subst e; rw [phase_setPhase] at hu; cases h₀ : s.phase u <;> simp [h₀] at hu
      rw [phase_setPhase_ne _ hne] at hu
      exact hi.parked u hu
  | publishAtMostOnce b =>
    rw [step_publishAtMostOnce hf] at h; cases h
    split
    · exact hi.keepsIdle rfl (keepsIdle_of_tasks rfl)
    · exact hi
  | ack a =>
    obtain ⟨res, hr⟩ := step_ack h
    obtain ⟨rest, t, tp, q, -, -, -, -, hs'⟩ := pktAck_cases hf hr
    generalize hX : ({ s with borrowed := true, inner.queueOrder := rest, inner.queue := q }
      : MqttSink) = X at hs'
    have hiX : WaitInv X := hi.keepsIdle (by rw [← hX]) (keepsIdle_of_tasks (by rw [← hX]))
    rcases hs' with ⟨-, -, rfl⟩ | ⟨-, -, rfl⟩
    · exact (hiX.keepsIdle (by simp) keepsIdle_cancelAck).release
    · exact (hiX.keepsIdle (by simp) (keepsIdle_sendAck a)).wake.release
  | close =>
    rw [step_close hf] at h; cases h
    exact hi.keepsIdle rfl (keepsIdle_of_tasks rfl)
  | ping =>
    rw [step_ping hf] at h; cases h
    split
    · exact hi.keepsIdle rfl (keepsIdle_of_tasks rfl)
    · exact hi
  | disconnect =>
    rw [step_disconnect] at h; cases h
    exact hi.keepsIdle rfl (keepsIdle_of_tasks rfl)

theorem WaitInv.reachable {cap : Nat} (h : Reachable cap s) : WaitInv s := by
  induction h with
  | init => exact WaitInv.init cap
  | step hr hs ih => exact ih.step (TableInv.reachable hr).free hs

/-! ### Release order -/

/-- What one release of the waiter FIFO does, from `s` to `s'`: either no future is parked,
the FIFO holds only dropped ones and is emptied, and nobody is woken; or the FIFO is `skipped`
dropped futures, then the earliest parked future `t`, then `rest`, and `t` alone is woken and
`rest` is left. -/
def FifoRelease (s s' : MqttSink) : Prop :=
  ((∀ u ∈ s.inner.waiters, s.phase u = some .dropped) ∧ (∀ u, s.phase u ≠ some .parked) ∧
      s'.inner.waiters = [] ∧ ∀ u, s'.phase u = some .woken → s.phase u = some .woken) ∨
  ∃ skipped t rest, s.inner.waiters = skipped ++ t :: rest ∧
    (∀ u ∈ skipped, s.phase u = some .dropped) ∧ s.phase t = some .parked ∧
    (∀ u, s.phase u = some .parked → t ≤ u) ∧
    s'.inner.waiters = rest ∧ s'.phase t = some .woken ∧
    ∀ u, s'.phase u = some .woken → s.phase u = some .woken ∨ u = t

/-- **Release order.**  In every reachable state, a `pkt_ack` that returns `Ok(())` releases
the waiter FIFO in order: it pops the dropped futures at its front and wakes the first parked
one, which is the earliest parked future, and no other; with no future parked it wakes
nobody. -/
theorem pktAck_releases_fifo_in_order {cap : Nat} {a : Ack} (h : Reachable cap s)
    (hack : s.pktAck a = .ok (s', .ok ())) : FifoRelease s s' := by
  have hi := WaitInv.reachable h
  obtain ⟨rest, t₀, tp, q, -, -, -, -, ⟨-, he, -⟩ | ⟨-, -, rfl⟩⟩ :=
    pktAck_cases (TableInv.reachable h).free hack
  · cases he
  generalize hY : ({ s with borrowed := true, inner.queueOrder := rest, inner.queue := q }.sendAck
    t₀ a).1 = Y
  have hw : Y.inner.waiters = s.inner.waiters := by rw [← hY]; simp
  have hk : KeepsIdle s Y := by
    rw [← hY]; exact (keepsIdle_of_tasks rfl).trans (keepsIdle_sendAck a)
  have hwoken : ∀ u, Y.phase u = some .woken → s.phase u = some .woken := fun u hu => by
    rw [← hY] at hu
    rcases phase_sendAck (t := t₀) a u with e | ⟨-, -, e⟩ <;> rw [e] at hu
    · exact hu
    · cases hu
  have hdrop : ∀ u ∈ s.inner.waiters, Y.phase u ≠ some .parked → s.phase u = some .dropped :=
    fun u hu hn => (hi.member u hu).resolve_left fun hp => hn ((hk u _ (.inl rfl)).mpr hp)
  rcases wake_cases (s := Y) with ⟨hn, he⟩ | ⟨sk, t, rest', hw', hsk, ht, he⟩ <;> rw [he]
  · refine .inl ⟨fun u hu => hdrop u hu (hn u (hw ▸ hu)), fun u hp => ?_, rfl, hwoken⟩
    exact hn u (hw ▸ hi.parked u hp) ((hk u _ (.inl rfl)).mpr hp)
  · rw [hw] at hw'
    have hlt : ∀ u ∈ rest', t < u := by
      have hs := hi.sorted
      rw [hw', List.pairwise_append, List.pairwise_cons] at hs
      exact hs.2.1.1
    refine .inr ⟨sk, t, rest', hw', fun u hu => hdrop u (by simp [hw', hu]) (hsk u hu),
      (hk t _ (.inl rfl)).mp ht, fun u hu => ?_, rfl, ?_, fun u hu => ?_⟩
    · have hm := hi.parked u hu
      rw [hw', List.mem_append, List.mem_cons] at hm
      rcases hm with hm | rfl | hm
      · exact absurd ((hk u _ (.inl rfl)).mpr hu) (hsk u hm)
      · exact le_rfl
      · exact (hlt u hm).le
    · rw [phase_release, phase_with_waiters]
      exact phase_setPhase_self _ ht
    · rw [phase_release, phase_with_waiters] at hu
      by_cases e : u = t
      · exact .inr e
      · rw [phase_setPhase_ne _ e] at hu
        exact .inl (hwoken u hu)

/-- Two QoS-1 publishes at `cap = 1`: the acknowledgement of the first releases the FIFO and
wakes the second. -/
theorem fifo_release_after_park :
    ∃ s s', (new 1).run [.start (.publish ⟨"t", [], false, false⟩),
        .start (.publish ⟨"t", [], false, false⟩)] = .ok s ∧
      s.pktAck (.publish ⟨1, by decide⟩) = .ok (s', .ok ()) ∧ FifoRelease s s' :=
  have hr : (new 1).run [.start (.publish ⟨"t", [], false, false⟩),
      .start (.publish ⟨"t", [], false, false⟩)] = _ := rfl
  ⟨_, _, hr, rfl,
    pktAck_releases_fifo_in_order (a := .publish ⟨1, by decide⟩) (Reachable.run .init hr) rfl⟩

/-! ### Lost wake-up -/

/-- Three QoS-1 publishes at `cap = 1`: the second and third park; the acknowledgement of the
first wakes the second, which is dropped before it resumes.  The in-flight table is empty and
nobody is woken, but the third send stays parked. -/
theorem woken_send_dropped_strands_waiter :
    ((new 1).run [.start (.publish ⟨"t", [], false, false⟩),
        .start (.publish ⟨"t", [], false, false⟩), .start (.publish ⟨"t", [], false, false⟩),
        .ack (.publish ⟨1, by decide⟩), .drop 1]).map
      (fun s => (s.inner.queue.len, s.inner.waiters, s.tasks.map Task.phase)) =
      .ok (0, [2], [.acked (.publish ⟨1, by decide⟩), .dropped, .parked]) := rfl

end ActixMqtt.V3.MqttSink
