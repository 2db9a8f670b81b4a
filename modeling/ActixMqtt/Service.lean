import ActixMqtt.V5.Factory

/-!
# Service — the connection future

`FactoryBuilder::build` gives a server's `FramedService`: its `new_service` starts the connect
service's factory future, and `FramedServiceResponse::poll` makes of the connect service that
future builds a `FramedServiceImpl`, which keeps the handler factory and the disconnect timeout
(3000 ms, unless `disconnect_timeout` set another).  `FramedServiceImpl::call(io)` returns the
connection, an `async` block: it awaits the handshake, then the handler's service for the
session state, then the dispatcher, started on the handshake's transport with its buffered
packet, its keepalive and the disconnect timeout.  `FramedServiceImpl2::call((framed, delay))`
races the first two awaits against `delay`, if there is one.  `select` polls the delay first,
and a delay that is ready ends the connection with `Ok(())`: the dispatcher is never started.
The two builders differ only in the handshake's input, so one definition models both.

A future is seen, as in the router factory, through what it answers at each poll (`Answers`)
and what it resolves to (`Resolution`).  What a connection is for is `connected`: the three
results in sequence, the first error ending it.

* `poll_toward`, `run_toward`: a poll of a connection under way never panics.  It is pending
  and still under way, or ready with `connected`, or, raced against a delay that answered
  ready while the connection was still connecting, ready with `Ok(())` (`TimedOut`).
* `connection_refines`: so whatever the futures answer at each poll, the connection of a
  service the factory built is ready with `connected`, with the builder's disconnect timeout,
  or with `Ok(())` after its delay fired before the dispatcher started.
* `connection_ready_of_all_ready`: and it does not stay pending: a run with one poll at which
  every future it awaits is ready ends ready, since the block goes on from each await to the
  next within one poll (`poll_allReady`).
-/

namespace ActixMqtt.Service

open V5 (Poll Resolves)

/-- Modelled from the spec: `HandshakeResult<Io, St, Codec>`, what a handshake yields: the
framed transport, a packet to write before the first read, the keepalive in seconds, and the
session state. -/
structure HandshakeResult (Io Pkt St : Type) where
  framed : Io
  out : Option Pkt
  keepalive : Nat
  state : St

/-- The dispatcher `call` starts, `Dispatcher::with(framed, out, handler, time)` with
`.keepalive_timeout(ka)` and `.disconnect_timeout(timeout as u64)`.  `Dispatcher` is not in
`src/`; it is seen through what it is started with, and `time`, the shared clock, is left
out. -/
structure Dispatcher (Io Pkt S : Type) where
  framed : Io
  out : Option Pkt
  handler : S
  keepalive : Nat
  disconnectTimeout : Nat

/-! ### Builders and the service factory -/

/-- `FactoryBuilder<St, C, Io, Codec>`, and `FactoryBuilder2`, which has the same fields and
methods: the connect service factory and the disconnect timeout in milliseconds. -/
structure FactoryBuilder (C : Type) where
  connect : C
  disconnectTimeout : Nat

/-- `FramedService` and `FramedService2`: the connect factory, the handler factory, and the
disconnect timeout. -/
structure FramedService (C T : Type) where
  connect : C
  handler : T
  disconnectTimeout : Nat

/-- `FramedServiceResponse` and `FramedServiceResponse2`: the connect factory's future, the
handler factory, and the disconnect timeout. -/
structure FramedServiceResponse (Φ T : Type) where
  fut : Φ
  handler : T
  disconnectTimeout : Nat

/-- `FramedServiceImpl`: the connect service, the handler factory, and the disconnect
timeout. -/
structure FramedServiceImpl (K T : Type) where
  connect : K
  handler : T
  disconnectTimeout : Nat

/-- `FramedServiceImpl2`, with the same fields. -/
def FramedServiceImpl2 (K T : Type) : Type := FramedServiceImpl K T

namespace FactoryBuilder

variable {C T : Type}

/-- `FactoryBuilder::new`: a disconnect timeout of 3 seconds. -/
def new (connect : C) : FactoryBuilder C := ⟨connect, 3000⟩

/-- `FactoryBuilder::disconnect_timeout(val)`; in Lean the field holds the name. -/
def setDisconnectTimeout (b : FactoryBuilder C) (val : Nat) : FactoryBuilder C :=
  { b with disconnectTimeout := val }

/-- `FactoryBuilder::build`. -/
def build (b : FactoryBuilder C) (service : T) : FramedService C T :=
  ⟨b.connect, service, b.disconnectTimeout⟩

end FactoryBuilder

/-- `FramedService::new_service`, with `connect.new_service(())` the parameter
`newConnect`. -/
def FramedService.newService {C T Φ : Type} (s : FramedService C T) (newConnect : C → Φ) :
    FramedServiceResponse Φ T :=
  ⟨newConnect s.connect, s.handler, s.disconnectTimeout⟩

/-- `FramedServiceResponse::poll`: `ready!(this.fut.poll(cx))?`, then the service, with what
the connect factory's future answers at this poll as `pollFut`. -/
def FramedServiceResponse.poll {Φ T K E : Type} (r : FramedServiceResponse Φ T)
    (pollFut : Φ → Poll (Except E K)) : Poll (Except E (FramedServiceImpl K T)) :=
  match pollFut r.fut with
  | .pending => .pending
  | .ready (.error e) => .ready (.error e)
  | .ready (.ok connect) => .ready (.ok ⟨connect, r.handler, r.disconnectTimeout⟩)

/-- A service the factory's future is ready with has the builder's disconnect timeout. -/
theorem disconnectTimeout_of_poll {C T Φ K E : Type} {b : FactoryBuilder C} {service : T}
    {newConnect : C → Φ} {pollFut : Φ → Poll (Except E K)} {s : FramedServiceImpl K T}
    (h : ((b.build service).newService newConnect).poll pollFut = .ready (.ok s)) :
    s.disconnectTimeout = b.disconnectTimeout := by
  simp only [FramedServiceResponse.poll] at h
  split at h <;> cases h
  rfl

/-! ### The connection -/

/-- The block raced against the delay, at its await points: the handshake, or the handler's
service for the handshake's result. -/
inductive Connect (Hf Io Pkt St : Type)
  | handshake (fut : Hf)
  | newService (result : HandshakeResult Io Pkt St)

/-- The future `call` returns: connecting, raced against `delay` if there is one, with the
disconnect timeout the block captured; awaiting the dispatcher; or returned. -/
inductive Conn (Hf Io Pkt St S Dl : Type)
  | connecting (stage : Connect Hf Io Pkt St) (delay : Option Dl) (timeout : Nat)
  | dispatch (d : Dispatcher Io Pkt S)
  | done

/-- What the futures a connection awaits answer at one poll: the handshake future, the handler
factory's future for a session state, the dispatcher, and the delay. -/
structure Answers (Hf Io Pkt St S Dl E : Type) where
  handshake : Hf → Poll (Except E (HandshakeResult Io Pkt St))
  newService : St → Poll (Except E S)
  dispatch : Dispatcher Io Pkt S → Poll (Except E Unit)
  delay : Dl → Poll Unit

/-- The block `FramedServiceImpl::call` and `FramedServiceImpl2::call` return, on the connect
service's handshake future `fut`. -/
def connection {Hf Io Pkt St S Dl : Type} (fut : Hf) (delay : Option Dl) (timeout : Nat) :
    Conn Hf Io Pkt St S Dl :=
  .connecting (.handshake fut) delay timeout

/-- `FramedServiceImpl::call(req)`, with `self.connect.call(Handshake::new(req))` the parameter
`connectCall`. -/
def FramedServiceImpl.call {K T Io Hf Pkt St S Dl : Type} (s : FramedServiceImpl K T)
    (connectCall : K → Io → Hf) (req : Io) : Conn Hf Io Pkt St S Dl :=
  connection (connectCall s.connect req) none s.disconnectTimeout

/-- `FramedServiceImpl2::call((req, delay))`, with
`self.connect.call(Handshake::with_codec(req))` the parameter `connectCall`. -/
def FramedServiceImpl2.call {K T Io Hf Pkt St S Dl : Type} (s : FramedServiceImpl2 K T)
    (connectCall : K → Io → Hf) (req : Io × Option Dl) : Conn Hf Io Pkt St S Dl :=
  connection (connectCall s.connect req.1) req.2 s.disconnectTimeout

namespace Conn

variable {Hf Io Pkt St S Dl E : Type} (p : Answers Hf Io Pkt St S Dl E)

/-- Awaiting the dispatcher. -/
def pollDispatch (d : Dispatcher Io Pkt S) : Poll (Except E Unit) × Conn Hf Io Pkt St S Dl :=
  match p.dispatch d with
  | .pending => (.pending, .dispatch d)
  | .ready r => (.ready r, .done)

/-- `handler.new_service(result.state).await?`; with the service, the block (or `select`'s
`Either::Right`) goes on to start and poll the dispatcher in the same poll. -/
def pollNewService (result : HandshakeResult Io Pkt St) (delay : Option Dl) (timeout : Nat) :
    Poll (Except E Unit) × Conn Hf Io Pkt St S Dl :=
  match p.newService result.state with
  | .pending => (.pending, .connecting (.newService result) delay timeout)
  | .ready (.error e) => (.ready (.error e), .done)
  | .ready (.ok h) => pollDispatch p ⟨result.framed, result.out, h, result.keepalive, timeout⟩

/-- `handshake.await?`, then the handler's service. -/
def pollConnect (stage : Connect Hf Io Pkt St) (delay : Option Dl) (timeout : Nat) :
    Poll (Except E Unit) × Conn Hf Io Pkt St S Dl :=
  match stage with
  | .handshake fut =>
    match p.handshake fut with
    | .pending => (.pending, .connecting (.handshake fut) delay timeout)
    | .ready (.error e) => (.ready (.error e), .done)
    | .ready (.ok result) => pollNewService p result delay timeout
  | .newService result => pollNewService p result delay timeout

/-- The panic of a poll after the block returned. -/
def resumedAfterCompletion : String := "`async fn` resumed after completion"

/-- One poll of the connection.  Raced against a delay, `select` polls the delay first; ready,
it answers `Either::Left`, and the block returns `Ok(())` ("Handshake timed out"). -/
def poll : Conn Hf Io Pkt St S Dl → Except String (Poll (Except E Unit) × Conn Hf Io Pkt St S Dl)
  | .connecting stage (some dl) timeout =>
    match p.delay dl with
    | .ready () => .ok (.ready (.ok ()), .done)
    | .pending => .ok (pollConnect p stage (some dl) timeout)
  | .connecting stage none timeout => .ok (pollConnect p stage none timeout)
  | .dispatch d => .ok (pollDispatch p d)
  | .done => .error resumedAfterCompletion

/-- An executor polling the connection, once with each of `polls`, until it is ready. -/
def run (c : Conn Hf Io Pkt St S Dl) :
    List (Answers Hf Io Pkt St S Dl E) →
      Except String (Poll (Except E Unit) × Conn Hf Io Pkt St S Dl)
  | [] => .ok (.pending, c)
  | p :: ps =>
    match c.poll p with
    | .error msg => .error msg
    | .ok (.pending, c) => c.run ps
    | .ok (.ready v, c) => .ok (.ready v, c)

end Conn

/-! ### What a connection is for -/

/-- What each future resolves to. -/
structure Resolution (Hf Io Pkt St S E : Type) where
  handshake : Hf → Except E (HandshakeResult Io Pkt St)
  newService : St → Except E S
  dispatch : Dispatcher Io Pkt S → Except E Unit

variable {Hf Io Pkt St S Dl E : Type}

/-- At a poll, each future is pending or ready with what it resolves to; the delay answers as
it likes. -/
structure Follows (res : Resolution Hf Io Pkt St S E) (p : Answers Hf Io Pkt St S Dl E) :
    Prop where
  handshake : Resolves res.handshake p.handshake
  newService : Resolves res.newService p.newService
  dispatch : Resolves res.dispatch p.dispatch

/-- What a connection is for: the handshake, then the handler's service for its session state,
then the dispatcher on its transport, buffered packet and keepalive, with the disconnect
timeout; the first error ends it. -/
def connected (res : Resolution Hf Io Pkt St S E) (fut : Hf) (timeout : Nat) : Except E Unit := do
  let result ← res.handshake fut
  let h ← res.newService result.state
  res.dispatch ⟨result.framed, result.out, h, result.keepalive, timeout⟩

variable (res : Resolution Hf Io Pkt St S E) (fut : Hf) (delay : Option Dl) (timeout : Nat) in
/-- The connection is under way toward `connected res fut timeout`: awaiting the handshake
`fut`, the handler's service for what `fut` resolves to, or the dispatcher `connected`
starts. -/
inductive Toward : Conn Hf Io Pkt St S Dl → Prop
  | handshake : Toward (.connecting (.handshake fut) delay timeout)
  | newService {result : HandshakeResult Io Pkt St} (h : res.handshake fut = .ok result) :
      Toward (.connecting (.newService result) delay timeout)
  | dispatch {result : HandshakeResult Io Pkt St} {svc : S} (h : res.handshake fut = .ok result)
      (hs : res.newService result.state = .ok svc) :
      Toward (.dispatch ⟨result.framed, result.out, svc, result.keepalive, timeout⟩)

theorem Toward.ne_done {res : Resolution Hf Io Pkt St S E} {fut : Hf} {delay : Option Dl}
    {timeout : Nat} {c : Conn Hf Io Pkt St S Dl} (hc : Toward res fut delay timeout c) :
    c ≠ .done := by
  cases hc <;> exact Conn.noConfusion

/-- At a poll, every future the connection awaits is ready with what it resolves to; the delay
answers as it likes. -/
structure AllReady (res : Resolution Hf Io Pkt St S E) (p : Answers Hf Io Pkt St S Dl E) :
    Prop where
  handshake : ∀ φ, p.handshake φ = .ready (res.handshake φ)
  newService : ∀ st, p.newService st = .ready (res.newService st)
  dispatch : ∀ d, p.dispatch d = .ready (res.dispatch d)

namespace Conn

variable {res : Resolution Hf Io Pkt St S E} {fut : Hf} {delay : Option Dl} {timeout : Nat}
  {p : Answers Hf Io Pkt St S Dl E}

/-- What one poll of the stages before the delay comes in does: pending and still under way,
or ready with `connected`. -/
def Advances (res : Resolution Hf Io Pkt St S E) (fut : Hf) (delay : Option Dl) (timeout : Nat)
    (r : Poll (Except E Unit) × Conn Hf Io Pkt St S Dl) : Prop :=
  r.1 = .pending ∧ Toward res fut delay timeout r.2 ∨ r.1 = .ready (connected res fut timeout)

theorem pollDispatch_advances (hp : Follows res p) {result : HandshakeResult Io Pkt St} {svc : S}
    (h : res.handshake fut = .ok result) (hs : res.newService result.state = .ok svc) :
    Advances res fut delay timeout
      (pollDispatch p ⟨result.framed, result.out, svc, result.keepalive, timeout⟩) := by
  have hc : connected res fut timeout =
      res.dispatch ⟨result.framed, result.out, svc, result.keepalive, timeout⟩ := by
    simp only [connected, h, hs, bind, Except.bind]
  unfold pollDispatch
  rcases hp.dispatch ⟨result.framed, result.out, svc, result.keepalive, timeout⟩ with hd | hd <;>
    rw [hd]
  · exact .inl ⟨rfl, .dispatch h hs⟩
  · exact .inr (by rw [hc])

theorem pollNewService_advances (hp : Follows res p) {result : HandshakeResult Io Pkt St}
    (h : res.handshake fut = .ok result) :
    Advances res fut delay timeout (pollNewService p result delay timeout) := by
  unfold pollNewService
  rcases hp.newService result.state with hn | hn <;> rw [hn]
  · exact .inl ⟨rfl, .newService h⟩
  · rcases hs : res.newService result.state with e | svc
    · exact .inr (by simp only [connected, h, hs, bind, Except.bind])
    · exact pollDispatch_advances hp h hs

theorem pollConnect_advances (hp : Follows res p) {stage : Connect Hf Io Pkt St}
    (hc : Toward res fut delay timeout (.connecting stage delay timeout)) :
    Advances res fut delay timeout (pollConnect p stage delay timeout) := by
  cases hc with
  | handshake =>
    dsimp only [pollConnect]
    rcases hp.handshake fut with hh | hh <;> rw [hh]
    · exact .inl ⟨rfl, .handshake⟩
    · rcases h : res.handshake fut with e | result
      · exact .inr (by simp only [connected, h, bind, Except.bind])
      · exact pollNewService_advances hp h
  | newService h => exact pollNewService_advances hp h

/-- **One poll.**  A poll of a connection under way never panics.  It is pending and still under
way, or ready with `connected`, or, raced against a delay that answers ready at this poll while
the connection is still connecting, ready with `Ok(())`. -/
theorem poll_toward (hp : Follows res p) {c : Conn Hf Io Pkt St S Dl}
    (hc : Toward res fut delay timeout c) :
    ∃ r, c.poll p = .ok r ∧
      (Advances res fut delay timeout r ∨
        ∃ dl stage, delay = some dl ∧ c = .connecting stage (some dl) timeout ∧
          p.delay dl = .ready () ∧ r = (.ready (.ok ()), .done)) := by
  cases c with
  | dispatch d =>
    cases hc with
    | dispatch h hs => exact ⟨_, rfl, .inl (pollDispatch_advances hp h hs)⟩
  | done => cases hc
  | connecting stage dl' t =>
    obtain ⟨rfl, rfl⟩ : dl' = delay ∧ t = timeout := by cases hc <;> exact ⟨rfl, rfl⟩
    rcases dl' with _ | dl
    · exact ⟨_, rfl, .inl (pollConnect_advances hp hc)⟩
    · simp only [poll]
      rcases hd : p.delay dl with _ | _
      · exact ⟨_, rfl, .inr ⟨dl, stage, rfl, rfl, hd, rfl⟩⟩
      · exact ⟨_, rfl, .inl (pollConnect_advances hp hc)⟩

/-- Raced against `delay`, the connection `c` timed out along `polls`: after the polls before
some poll `p` it was still pending at the handshake or at the handler's service, the dispatcher
not started, and at `p` the delay answered ready. -/
def TimedOut (c : Conn Hf Io Pkt St S Dl) (delay : Option Dl) (timeout : Nat)
    (polls : List (Answers Hf Io Pkt St S Dl E)) : Prop :=
  ∃ dl, delay = some dl ∧ ∃ pre p post stage, polls = pre ++ p :: post ∧
    c.run pre = .ok (.pending, .connecting stage (some dl) timeout) ∧ p.delay dl = .ready ()

/-- **A run of polls.**  However the futures answer, an executor polling a connection under way
never makes it panic, and whatever it is ready with is `connected`, or `Ok(())` when it timed
out while still connecting. -/
theorem run_toward {c : Conn Hf Io Pkt St S Dl} (hc : Toward res fut delay timeout c)
    {polls : List (Answers Hf Io Pkt St S Dl E)} (hp : ∀ p ∈ polls, Follows res p) :
    ∃ r c', c.run polls = .ok (r, c') ∧
      (r = .pending ∨ r = .ready (connected res fut timeout) ∨
        r = .ready (.ok ()) ∧ c.TimedOut delay timeout polls) := by
  induction polls generalizing c with
  | nil => exact ⟨_, _, rfl, .inl rfl⟩
  | cons p polls ih =>
    obtain ⟨⟨r, c₁⟩, hpoll, hr⟩ := poll_toward (hp p (List.mem_cons_self _ _)) hc
    simp only [Advances] at hr
    rcases hr with (⟨rfl, hc₁⟩ | rfl) | ⟨dl, stage, rfl, rfl, hd, he⟩
    · obtain ⟨r', c', hrun, hr'⟩ := ih hc₁ fun q hq => hp q (List.mem_cons_of_mem _ hq)
      refine ⟨r', c', by simp only [run, hpoll, hrun], ?_⟩
      rcases hr' with h | h | ⟨h, dl, hdl, pre, q, post, stage, rfl, hpre, hd⟩
      · exact .inl h
      · exact .inr (.inl h)
      · exact .inr (.inr ⟨h, dl, hdl, p :: pre, q, post, stage, rfl,
          by simp only [run, hpoll, hpre], hd⟩)
    · exact ⟨_, c₁, by simp only [run, hpoll], .inr (.inl rfl)⟩
    · cases he
      exact ⟨_, .done, by simp only [run, hpoll],
        .inr (.inr ⟨rfl, dl, rfl, [], p, polls, stage, rfl, rfl, hd⟩)⟩

/-! ### Progress -/

theorem pollDispatch_allReady (ha : AllReady res p) (d : Dispatcher Io Pkt S) :
    ∃ v, pollDispatch p d = (.ready v, .done) := by
  simp only [pollDispatch, ha.dispatch]
  exact ⟨_, rfl⟩

theorem pollNewService_allReady (ha : AllReady res p) (result : HandshakeResult Io Pkt St)
    (delay : Option Dl) (timeout : Nat) :
    ∃ v, pollNewService p result delay timeout = (.ready v, .done) := by
  unfold pollNewService
  rw [ha.newService]
  rcases res.newService result.state with e | h
  · exact ⟨_, rfl⟩
  · exact pollDispatch_allReady ha _

theorem pollConnect_allReady (ha : AllReady res p) (stage : Connect Hf Io Pkt St)
    (delay : Option Dl) (timeout : Nat) :
    ∃ v, pollConnect p stage delay timeout = (.ready v, .done) := by
  cases stage with
  | handshake fut =>
    dsimp only [pollConnect]
    rw [ha.handshake]
    rcases res.handshake fut with e | result
    · exact ⟨_, rfl⟩
    · exact pollNewService_allReady ha result delay timeout
  | newService result => exact pollNewService_allReady ha result delay timeout

/-- With every future ready, a poll of a connection that has not returned is ready: the block
goes on from each await to the next within the poll. -/
theorem poll_allReady (ha : AllReady res p) {c : Conn Hf Io Pkt St S Dl} (hc : c ≠ .done) :
    ∃ v c', c.poll p = .ok (.ready v, c') := by
  cases c with
  | connecting stage dl timeout =>
    rcases dl with _ | dl
    · obtain ⟨v, hv⟩ := pollConnect_allReady ha stage none timeout
      exact ⟨v, .done, by simp only [poll, hv]⟩
    · simp only [poll]
      rcases p.delay dl with ⟨⟩ | _
      · exact ⟨_, _, rfl⟩
      · obtain ⟨v, hv⟩ := pollConnect_allReady ha stage (some dl) timeout
        exact ⟨v, .done, by rw [hv]⟩
  | dispatch d =>
    obtain ⟨v, hv⟩ := pollDispatch_allReady ha d
    exact ⟨v, .done, by simp only [poll, hv]⟩
  | done => exact absurd rfl hc

/-- A run that leaves a connection under way pending never polled it with every future
ready. -/
theorem run_pending {c c' : Conn Hf Io Pkt St S Dl} (hc : Toward res fut delay timeout c)
    {polls : List (Answers Hf Io Pkt St S Dl E)} (hp : ∀ p ∈ polls, Follows res p)
    (h : c.run polls = .ok (.pending, c')) : ∀ p ∈ polls, ¬ AllReady res p := by
  induction polls generalizing c with
  | nil => exact fun _ hm => absurd hm (List.not_mem_nil _)
  | cons p polls ih =>
    obtain ⟨⟨r, c₁⟩, hpoll, hr⟩ := poll_toward (hp p (List.mem_cons_self _ _)) hc
    simp only [Advances] at hr
    rcases hr with (⟨rfl, hc₁⟩ | rfl) | ⟨-, -, -, -, -, he⟩
    · simp only [run, hpoll] at h
      rintro q (_ | ⟨_, hq⟩) ha
      · obtain ⟨v, c'', hv⟩ := poll_allReady ha hc.ne_done
        rw [hv] at hpoll
        cases hpoll
      · exact ih hc₁ (fun q hq => hp q (List.mem_cons_of_mem _ hq)) h q hq ha
    · simp only [run, hpoll] at h
      cases h
    · cases he
      simp only [run, hpoll] at h
      cases h

end Conn

variable {C T Φ K E' : Type}

/-- **The connection refines `connected`.**  Take the service that the factory of
`b.build service` is ready with.  However the futures of one of its connections answer at each
poll, an executor polling the connection never makes it panic.  Whatever it is ready with is
`connected`, the dispatcher started with the builder's disconnect timeout, or `Ok(())` when,
raced against a delay, it timed out before the dispatcher started. -/
theorem connection_refines {b : FactoryBuilder C} {service : T} {newConnect : C → Φ}
    {pollFut : Φ → Poll (Except E' K)} {s : FramedServiceImpl2 K T}
    (hs : ((b.build service).newService newConnect).poll pollFut = .ready (.ok s))
    (connectCall : K → Io → Hf) (req : Io) (delay : Option Dl)
    {res : Resolution Hf Io Pkt St S E} {polls : List (Answers Hf Io Pkt St S Dl E)}
    (hp : ∀ p ∈ polls, Follows res p) :
    ∃ r c, (s.call connectCall (req, delay)).run polls = .ok (r, c) ∧
      (r = .pending ∨ r = .ready (connected res (connectCall s.connect req) b.disconnectTimeout) ∨
        r = .ready (.ok ()) ∧
          (s.call connectCall (req, delay)).TimedOut delay b.disconnectTimeout polls) := by
  rw [← disconnectTimeout_of_poll hs]
  exact Conn.run_toward .handshake hp

/-- A connection of a service built with the default timeout, raced against a delay that fires
at the first poll while the handshake is pending. -/
theorem connection_refines_default_timeout :
    ∃ r c, (FramedServiceImpl2.call (⟨(), (), 3000⟩ : FramedServiceImpl2 Unit Unit)
        (fun _ _ => ()) ((), some ()) : Conn Unit Unit Unit Unit Unit Unit).run
        [⟨fun _ => .pending, fun _ => .pending, fun _ => .pending, fun _ => .ready ()⟩] =
        .ok (r, c) ∧
      (r = .pending ∨
        r = .ready (connected (⟨fun _ => .ok ⟨(), none, 60, ()⟩, fun _ => .ok (),
          fun _ => .error ()⟩ : Resolution Unit Unit Unit Unit Unit Unit) () 3000) ∨
        r = .ready (.ok ()) ∧
          (FramedServiceImpl2.call (⟨(), (), 3000⟩ : FramedServiceImpl2 Unit Unit)
            (fun _ _ => ()) ((), some ()) : Conn Unit Unit Unit Unit Unit Unit).TimedOut (some ())
            3000 [(⟨fun _ => .pending, fun _ => .pending, fun _ => .pending, fun _ => .ready ()⟩ :
              Answers Unit Unit Unit Unit Unit Unit Unit)]) :=
  @connection_refines Unit Unit Unit Unit Unit Unit Unit Unit Unit Unit Unit Unit
    (FactoryBuilder.new ()) () (fun _ => ()) (fun _ => .ready (.ok ())) ⟨(), (), 3000⟩ rfl
    (fun _ _ => ()) () (some ()) _ _ fun p hp => by
      rw [List.mem_singleton] at hp
      subst hp
      exact ⟨fun _ => .inl rfl, fun _ => .inl rfl, fun _ => .inl rfl⟩

/-- **Progress.**  Take the service that the factory of `b.build service` is ready with.
However the futures of one of its connections answer, an executor that polls the connection at
least once while every future it awaits is ready never leaves it pending: it is ready with
`connected`, with the builder's disconnect timeout, or it timed out before. -/
theorem connection_ready_of_all_ready {b : FactoryBuilder C} {service : T} {newConnect : C → Φ}
    {pollFut : Φ → Poll (Except E' K)} {s : FramedServiceImpl2 K T}
    (hs : ((b.build service).newService newConnect).poll pollFut = .ready (.ok s))
    (connectCall : K → Io → Hf) (req : Io) (delay : Option Dl)
    {res : Resolution Hf Io Pkt St S E} {polls : List (Answers Hf Io Pkt St S Dl E)}
    (hp : ∀ p ∈ polls, Follows res p) (hall : ∃ p ∈ polls, AllReady res p) :
    ∃ r c, (s.call connectCall (req, delay)).run polls = .ok (.ready r, c) ∧
      (r = connected res (connectCall s.connect req) b.disconnectTimeout ∨
        r = .ok () ∧ (s.call connectCall (req, delay)).TimedOut delay b.disconnectTimeout polls) := by
  rw [← disconnectTimeout_of_poll hs]
  obtain ⟨r, c, hrun, (rfl | rfl | ⟨rfl, ht⟩)⟩ := Conn.run_toward (c := s.call connectCall (req, delay)) .handshake hp
  · obtain ⟨p, hm, ha⟩ := hall
    exact absurd ha (Conn.run_pending .handshake hp hrun p hm)
  · exact ⟨_, c, hrun, .inl rfl⟩
  · exact ⟨_, c, hrun, .inr ⟨rfl, ht⟩⟩

/-- A service built with the default timeout: a connection polled once with everything pending
and then once with everything ready, its delay pending, ends with the dispatcher's error. -/
theorem connection_ready_second_poll :
    ∃ r c, (FramedServiceImpl2.call (⟨(), (), 3000⟩ : FramedServiceImpl2 Unit Unit)
        (fun _ _ => ()) ((), some ()) : Conn Unit Unit Unit Unit Unit Unit).run
        [⟨fun _ => .pending, fun _ => .pending, fun _ => .pending, fun _ => .pending⟩,
          ⟨fun _ => .ready (.ok ⟨(), none, 60, ()⟩), fun _ => .ready (.ok ()),
            fun _ => .ready (.error ()), fun _ => .pending⟩] = .ok (.ready r, c) ∧
      (r = connected (⟨fun _ => .ok ⟨(), none, 60, ()⟩, fun _ => .ok (),
          fun _ => .error ()⟩ : Resolution Unit Unit Unit Unit Unit Unit) () 3000 ∨
        r = .ok () ∧
          (FramedServiceImpl2.call (⟨(), (), 3000⟩ : FramedServiceImpl2 Unit Unit)
            (fun _ _ => ()) ((), some ()) : Conn Unit Unit Unit Unit Unit Unit).TimedOut (some ())
            3000 [(⟨fun _ => .pending, fun _ => .pending, fun _ => .pending, fun _ => .pending⟩ :
              Answers Unit Unit Unit Unit Unit Unit Unit),
              ⟨fun _ => .ready (.ok ⟨(), none, 60, ()⟩), fun _ => .ready (.ok ()),
                fun _ => .ready (.error ()), fun _ => .pending⟩]) :=
  @connection_ready_of_all_ready Unit Unit Unit Unit Unit Unit Unit Unit Unit Unit Unit Unit
    (FactoryBuilder.new ()) () (fun _ => ()) (fun _ => .ready (.ok ())) ⟨(), (), 3000⟩ rfl
    (fun _ _ => ()) () (some ()) ⟨fun _ => .ok ⟨(), none, 60, ()⟩, fun _ => .ok (),
      fun _ => .error ()⟩ _
    (fun p hp => by
      simp only [List.mem_cons, List.mem_singleton, List.not_mem_nil, or_false] at hp
      rcases hp with rfl | rfl
      · exact ⟨fun _ => .inl rfl, fun _ => .inl rfl, fun _ => .inl rfl⟩
      · exact ⟨fun _ => .inr rfl, fun _ => .inr rfl, fun _ => .inr rfl⟩)
    ⟨_, List.mem_cons_of_mem _ (List.mem_singleton_self _),
      ⟨fun _ => rfl, fun _ => rfl, fun _ => rfl⟩⟩

end ActixMqtt.Service
