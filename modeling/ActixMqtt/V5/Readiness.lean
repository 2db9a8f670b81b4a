import ActixMqtt.V5.Router

/-!
# V5 — Router — readiness

`RouterService::poll_ready` polls the resource handlers in order.  It sets a flag when one is
pending, and the `?` on each handler's `Poll<Result<(), E>>` returns that handler's error at once,
before the handlers after it are polled.  The default service is not polled.  A handler's
`poll_ready` is a parameter, `poll`.  A poll also registers the task's waker with the handler,
so `pollReady` returns the handlers it polled, in order, beside its result.

* `pollHandlers_eq`: the loop returns the error of the first failing handler, having polled the
  handlers up to it; with no failure it polls them all, and it is pending exactly when one of
  them is.
* `pollReady_ready_iff`, `pollReady_polls_all`: so `poll_ready` is ready exactly when every
  resource handler is, and polls every one of them unless one fails.
* `pollReady_congr`: what `poll_ready` returns and polls depends on the handlers alone.
* `poll_ready_reads_handlers_only`: the three together, for any router service and any answers.
* `poll_ready_skips_default`: with no resource handlers, `poll_ready` is ready whether the
  default service is pending or failing, and polls nothing.
-/

namespace ActixMqtt.V5

/-- `std::task::Poll`. -/
inductive Poll (α : Type)
  | ready (v : α)
  | pending
  deriving DecidableEq, Repr

namespace Poll

variable {α E : Type}

/-- `Poll::is_pending`. -/
def isPending : Poll α → Bool
  | .ready _ => false
  | .pending => true

/-- The error a `Poll<Result<(), E>>` carries, if it is `Ready(Err(e))`. -/
def error? : Poll (Except E Unit) → Option E
  | .ready (.error e) => some e
  | _ => none

@[simp] theorem isPending_ready (v : α) : (Poll.ready v).isPending = false := rfl
@[simp] theorem isPending_pending : (Poll.pending : Poll α).isPending = true := rfl
@[simp] theorem error?_error (e : E) : (Poll.ready (.error e)).error? = some e := rfl
@[simp] theorem error?_ok : (Poll.ready (.ok ()) : Poll (Except E Unit)).error? = none := rfl
@[simp] theorem error?_pending : (Poll.pending : Poll (Except E Unit)).error? = none := rfl

/-- A poll that carries no error is ready exactly when it is not pending. -/
theorem eq_ok_iff {r : Poll (Except E Unit)} (h : r.error? = none) :
    r = .ready (.ok ()) ↔ r.isPending = false := by
  rcases r with (e | ⟨⟩) | _ <;> simp_all

end Poll

namespace RouterService

variable {P σ E : Type}

/-- The loop of `poll_ready` over the handlers `hs` still to poll, with `notReady` the flag so
far: its result, and the handlers it polled. -/
def pollHandlers (poll : σ → Poll (Except E Unit)) :
    List σ → Bool → Poll (Except E Unit) × List σ
  | [], notReady => (if notReady then .pending else .ready (.ok ()), [])
  | h :: hs, notReady =>
    match poll h with
    | .ready (.error e) => (.ready (.error e), [h])
    | .ready (.ok ()) =>
      let r := pollHandlers poll hs notReady
      (r.1, h :: r.2)
    | .pending =>
      let r := pollHandlers poll hs true
      (r.1, h :: r.2)

/-- `RouterService::poll_ready`: its result, and the services it polled, in order. -/
def pollReady (s : RouterService P σ) (poll : σ → Poll (Except E Unit)) :
    Poll (Except E Unit) × List σ :=
  pollHandlers poll s.handlers false

/-- **The readiness loop.**  Over the handlers `hs`, the loop returns the error of the first
that fails, having polled the handlers up to and including it; with none failing it polls every
handler, and is pending exactly when the flag was set or one of them is pending. -/
theorem pollHandlers_eq (poll : σ → Poll (Except E Unit)) (hs : List σ) (notReady : Bool) :
    pollHandlers poll hs notReady =
      match hs.findSome? fun h => (poll h).error? with
      | some e => (.ready (.error e), hs.take (hs.findIdx (fun h => (poll h).error?.isSome) + 1))
      | none =>
        (if notReady || hs.any (fun h => (poll h).isPending) then .pending else .ready (.ok ()),
          hs) := by
  induction hs generalizing notReady with
  | nil => cases notReady <;> rfl
  | cons h hs ih =>
    rw [List.findSome?_cons, List.findIdx_cons, List.any_cons]
    rcases hp : poll h with (e | ⟨⟩) | _ <;>
      simp only [pollHandlers, hp, ih, Poll.error?_error, Poll.error?_ok, Poll.error?_pending,
        Option.isSome_some, Option.isSome_none, cond_true, cond_false, List.take_succ_cons,
        Poll.isPending_ready, Poll.isPending_pending, Bool.false_or, Bool.true_or, Bool.or_true]
    · rfl
    all_goals cases hs.findSome? fun h => (poll h).error? <;> rfl

/-- `poll_ready` is ready exactly when every resource handler is. -/
theorem pollReady_ready_iff (s : RouterService P σ) (poll : σ → Poll (Except E Unit)) :
    (s.pollReady poll).1 = .ready (.ok ()) ↔ ∀ h ∈ s.handlers, poll h = .ready (.ok ()) := by
  rw [pollReady, pollHandlers_eq]
  rcases hf : s.handlers.findSome? (fun h => (poll h).error?) with _ | e
  · have hn := List.findSome?_eq_none_iff.mp hf
    simp only [Bool.false_or]
    split_ifs with hp
    · obtain ⟨h, hm, hh⟩ := List.any_eq_true.mp hp
      refine iff_of_false (fun e => by cases e) fun hall => ?_
      rw [hall h hm] at hh
      cases hh
    · refine iff_of_true rfl fun h hm => (Poll.eq_ok_iff (hn h hm)).mpr ?_
      simpa using List.any_eq_false.mp (Bool.eq_false_iff.mpr hp) h hm
  · obtain ⟨h, hm, hh⟩ := List.exists_of_findSome?_eq_some hf
    refine iff_of_false (fun e => by cases e) fun hall => ?_
    rw [hall h hm] at hh
    cases hh

/-- Every resource handler is polled, unless one of them fails first. -/
theorem pollReady_polls_all (s : RouterService P σ) (poll : σ → Poll (Except E Unit)) :
    (s.pollReady poll).2 = s.handlers ∨ ∃ e, (s.pollReady poll).1 = .ready (.error e) := by
  rw [pollReady, pollHandlers_eq]
  cases s.handlers.findSome? fun h => (poll h).error? with
  | none => exact .inl rfl
  | some e => exact .inr ⟨e, rfl⟩

/-- The loop reads the polls of the handlers it is given and of no other service. -/
theorem pollHandlers_congr {poll poll' : σ → Poll (Except E Unit)} :
    ∀ {hs : List σ}, (∀ h ∈ hs, poll h = poll' h) →
      ∀ notReady, pollHandlers poll hs notReady = pollHandlers poll' hs notReady
  | [], _, _ => rfl
  | h :: hs, hp, notReady => by
    have ih := pollHandlers_congr fun x (hx : x ∈ hs) => hp x (List.mem_cons_of_mem _ hx)
    simp only [pollHandlers, hp h (List.mem_cons_self _ _), ih]

/-- **The default service is not polled.**  What `poll_ready` returns and which services it
polls depend only on how the resource handlers answer. -/
theorem pollReady_congr (s : RouterService P σ) {poll poll' : σ → Poll (Except E Unit)}
    (hp : ∀ h ∈ s.handlers, poll h = poll' h) : s.pollReady poll = s.pollReady poll' :=
  pollHandlers_congr hp false

/-- **Readiness over the resource handlers.**  Whatever the router service and however its
services answer, `poll_ready` is `Ready(Ok(()))` exactly when every resource handler is; it polls
every resource handler unless one of them fails; and it returns and polls the same for any two
answers that agree on the resource handlers, so how the default service answers never counts. -/
theorem poll_ready_reads_handlers_only (s : RouterService P σ)
    (poll : σ → Poll (Except E Unit)) :
    ((s.pollReady poll).1 = .ready (.ok ()) ↔ ∀ h ∈ s.handlers, poll h = .ready (.ok ())) ∧
    ((s.pollReady poll).2 = s.handlers ∨ ∃ e, (s.pollReady poll).1 = .ready (.error e)) ∧
    ∀ poll' : σ → Poll (Except E Unit), (∀ h ∈ s.handlers, poll h = poll' h) →
      s.pollReady poll = s.pollReady poll' :=
  ⟨pollReady_ready_iff s poll, pollReady_polls_all s poll, fun _ hp => pollReady_congr s hp⟩

/-- **Readiness without the default.**  A router with no resource handlers is ready at once,
having polled nothing, both when its default service is pending and when it fails. -/
theorem poll_ready_skips_default :
    let s : RouterService StaticPattern String := ⟨[], [], "default", fun _ => none⟩
    s.pollReady (fun _ => (.pending : Poll (Except String Unit))) = (.ready (.ok ()), []) ∧
      s.pollReady (fun _ => .ready (.error "init failed")) = (.ready (.ok ()), []) :=
  ⟨rfl, rfl⟩

end RouterService

end ActixMqtt.V5
