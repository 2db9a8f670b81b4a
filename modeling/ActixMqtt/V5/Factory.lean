import ActixMqtt.V5.Readiness

/-!
# V5 — Router — building the router service

`Router::new` and `Router::resource` register the resources in order: each pattern goes to the
ntex `RouterBuilder` with the number of handlers registered before it, and its service factory
is pushed on `handlers` (`Registered`).  `into_factory` keeps the three.
`RouterFactory::new_service` starts one future per handler factory, in order, and one for the
default.  `RouterFactoryFut::poll` drives them: the default's future first, then the handlers'
`JoinAll`, which is ready with the outputs in order once every future is done.  The first error
fails the router, and otherwise the router service holds the handlers in that order, with an
empty alias table.

A service future is seen through what it answers at each poll (`pollFut`) and what it resolves
to (`res`): at every poll it is pending or ready with that (`Resolves`).  What the factory is for
is `RouterFactory.built`: the default built, then every handler in order, the first error
failing the router.

* `resources_registered`: any chain of `resource` calls gives the `k`-th pattern index `k`.
* `poll_building`, `run_building`: the future never panics while it is building, and whatever
  ready value it reaches is `built`.
* `poll_resolved`: polled once with every future ready, it is ready with `built` at once.
-/

namespace ActixMqtt.V5

/-- `Router<S, Err>`: the patterns given to the `RouterBuilder`, each with its handler index,
the handler factories, and the default factory. -/
structure Router (P F : Type) where
  router : List (P × Nat)
  handlers : List F
  default : F

/-- `RouterFactory<S, Err>`. -/
structure RouterFactory (P F : Type) where
  router : List (P × Nat)
  handlers : List F
  default : F

namespace Router

variable {P F : Type}

/-- `Router::new`. -/
def new (defaultService : F) : Router P F := ⟨[], [], defaultService⟩

/-- `Router::resource`: `router.path(address, handlers.len())`, then `handlers.push(service)`. -/
def resource (r : Router P F) (address : P) (service : F) : Router P F :=
  { r with
    router := r.router ++ [(address, r.handlers.length)]
    handlers := r.handlers ++ [service] }

/-- A chain of `.resource(address, service)` calls, one for each registration in order. -/
def resources (r : Router P F) (regs : List (P × F)) : Router P F :=
  regs.foldl (fun r reg => r.resource reg.1 reg.2) r

/-- `into_factory`: `router.finish()` keeps the patterns in the order they were given. -/
def intoFactory (r : Router P F) : RouterFactory P F := ⟨r.router, r.handlers, r.default⟩

/-- The `k`-th pattern registered carries handler index `k`, and there is a handler for each. -/
def Registered (r : Router P F) : Prop :=
  r.router.map Prod.snd = List.range r.handlers.length

theorem new_registered (d : F) : (Router.new d : Router P F).Registered := rfl

theorem resource_registered {r : Router P F} (h : r.Registered) (address : P) (service : F) :
    (r.resource address service).Registered := by
  unfold Registered at h ⊢
  simp only [resource, List.map_append, h, List.length_append, List.length_singleton,
    List.range_succ, List.map_cons, List.map_nil]

@[simp] theorem resources_nil (r : Router P F) : r.resources [] = r := rfl

@[simp] theorem resources_cons (r : Router P F) (reg : P × F) (regs : List (P × F)) :
    r.resources (reg :: regs) = (r.resource reg.1 reg.2).resources regs := rfl

/-- **Registration.**  Any chain of `resource` calls keeps the `k`-th pattern on index `k`. -/
theorem resources_registered {r : Router P F} (h : r.Registered) (regs : List (P × F)) :
    (r.resources regs).Registered := by
  induction regs generalizing r with
  | nil => exact h
  | cons reg regs ih => exact ih (resource_registered h _ _)

theorem resources_patterns (r : Router P F) (regs : List (P × F)) :
    (r.resources regs).router.map Prod.fst = r.router.map Prod.fst ++ regs.map Prod.fst := by
  induction regs generalizing r with
  | nil => simp
  | cons reg regs ih => simp [ih, resource]

theorem resources_handlers (r : Router P F) (regs : List (P × F)) :
    (r.resources regs).handlers = r.handlers ++ regs.map Prod.snd := by
  induction regs generalizing r with
  | nil => simp
  | cons reg regs ih => simp [ih, resource]

theorem resources_default (r : Router P F) (regs : List (P × F)) :
    (r.resources regs).default = r.default := by
  induction regs generalizing r with
  | nil => rfl
  | cons reg regs ih => exact ih _

end Router

/-! ### `JoinAll` -/

/-- At a poll, every future is pending or ready with what it resolves to. -/
def Resolves {Φ α : Type} (res : Φ → α) (pollFut : Φ → Poll α) : Prop :=
  ∀ φ, pollFut φ = .pending ∨ pollFut φ = .ready (res φ)

/-- Modelled from the spec: `futures::future::MaybeDone`, one future of a `JoinAll`, still
running or done with its output. -/
inductive MaybeDone (Φ α : Type)
  | future (f : Φ)
  | done (v : α)

namespace MaybeDone

variable {Φ α : Type}

/-- Polling the slot: a running future that answers ready is done. -/
def poll (pollFut : Φ → Poll α) : MaybeDone Φ α → MaybeDone Φ α
  | .future f =>
    match pollFut f with
    | .ready v => .done v
    | .pending => .future f
  | .done v => .done v

/-- `MaybeDone::take_output`. -/
def output? : MaybeDone Φ α → Option α
  | .future _ => none
  | .done v => some v

/-- The slot holds future `φ`: still running, or done with what `φ` resolves to. -/
def Slot (res : Φ → α) (slot : MaybeDone Φ α) (φ : Φ) : Prop :=
  slot = .future φ ∨ slot = .done (res φ)

theorem slot_poll {res : Φ → α} {pollFut : Φ → Poll α} (hr : Resolves res pollFut)
    {slot : MaybeDone Φ α} {φ : Φ} (h : Slot res slot φ) :
    Slot res (slot.poll pollFut) φ := by
  rcases h with rfl | rfl
  · rcases hr φ with hp | hp <;> simp only [poll, hp] <;> [exact .inl rfl; exact .inr rfl]
  · exact .inr rfl

theorem slot_poll_ready {res : Φ → α} {slot : MaybeDone Φ α} {φ : Φ}
    (h : Slot res slot φ) :
    slot.poll (fun φ => .ready (res φ)) = .done (res φ) := by
  rcases h with rfl | rfl <;> rfl

theorem mapM_output?_done (vs : List α) :
    (vs.map (done : α → MaybeDone Φ α)).mapM output? = some vs := by
  induction vs with
  | nil => rfl
  | cons v vs ih => rw [List.map_cons, List.mapM_cons, ih]; rfl

/-- Slots that are all done hold what their futures resolve to, in order. -/
theorem outputs_of_slots {res : Φ → α} {elems : List (MaybeDone Φ α)} {futs : List Φ}
    (h : List.Forall₂ (Slot res) elems futs) {vs : List α}
    (hm : elems.mapM output? = some vs) : vs = futs.map res := by
  induction h generalizing vs with
  | nil => cases hm; rfl
  | cons hs _ ih =>
    rw [List.mapM_cons] at hm
    rcases hs with rfl | rfl
    · cases hm
    · rcases hl : List.mapM output? _ with _ | vs' <;> rw [hl] at hm <;> cases hm
      rw [ih hl, List.map_cons]

end MaybeDone

open MaybeDone

/-- Modelled from the spec: `JoinAll::poll`.  It polls every future not yet done, and once all
are done it is ready with their outputs in order, keeping no futures. -/
def joinAllPoll {Φ α : Type} (pollFut : Φ → Poll α) (elems : List (MaybeDone Φ α)) :
    Poll (List α) × List (MaybeDone Φ α) :=
  let elems := elems.map (MaybeDone.poll pollFut)
  match elems.mapM output? with
  | some vs => (.ready vs, [])
  | none => (.pending, elems)

/-- **One poll of a `JoinAll`.**  It is pending with every slot still holding its future, or
ready with what the futures resolve to, in order. -/
theorem joinAllPoll_slots {Φ α : Type} {res : Φ → α} {pollFut : Φ → Poll α}
    (hr : Resolves res pollFut) {elems : List (MaybeDone Φ α)} {futs : List Φ}
    (h : List.Forall₂ (Slot res) elems futs) :
    (joinAllPoll pollFut elems).1 = .pending ∧
        List.Forall₂ (Slot res) (joinAllPoll pollFut elems).2 futs ∨
      (joinAllPoll pollFut elems).1 = .ready (futs.map res) := by
  have hp : List.Forall₂ (Slot res) (elems.map (MaybeDone.poll pollFut)) futs :=
    List.forall₂_map_left_iff.mpr (h.imp fun _ _ => slot_poll hr)
  unfold joinAllPoll
  dsimp only
  rcases hm : (elems.map (MaybeDone.poll pollFut)).mapM output? with _ | vs
  · exact .inl ⟨rfl, hp⟩
  · exact .inr (congrArg Poll.ready (outputs_of_slots hp hm))

theorem joinAllPoll_resolved {Φ α : Type} {res : Φ → α} {elems : List (MaybeDone Φ α)}
    {futs : List Φ} (h : List.Forall₂ (Slot res) elems futs) :
    joinAllPoll (fun φ => .ready (res φ)) elems = (.ready (futs.map res), []) := by
  have hp : elems.map (MaybeDone.poll fun φ => .ready (res φ)) = (futs.map res).map done := by
    induction h with
    | nil => rfl
    | cons hs _ ih => rw [List.map_cons, slot_poll_ready hs, ih]; rfl
  simp only [joinAllPoll, hp, mapM_output?_done]

/-! ### The factory's future -/

/-- The loop over the `JoinAll`'s outputs: push each handler, and return at the first error. -/
def collectHandlers {σ E : Type} : List σ → List (Except E σ) → Except E (List σ)
  | handlers, [] => .ok handlers
  | handlers, .ok h :: res => collectHandlers (handlers ++ [h]) res
  | _, .error e :: _ => .error e

theorem collectHandlers_map {F σ E : Type} (build : F → Except E σ) (acc : List σ)
    (l : List F) : collectHandlers acc (l.map build) = (acc ++ ·) <$> l.mapM build := by
  induction l generalizing acc with
  | nil => rw [List.map_nil, List.mapM_nil]; exact congrArg Except.ok (List.append_nil acc).symm
  | cons x l ih =>
    rw [List.map_cons, List.mapM_cons]
    rcases build x with e | h
    · rfl
    · simp only [collectHandlers, ih]
      cases l.mapM build with
      | error e => rfl
      | ok hs => exact congrArg Except.ok (List.append_assoc acc [h] hs)

/-- `RouterFactoryFut<Err>`: the router, the handlers' `JoinAll`, and the default: its future
(`Either::Left`), the service it built (`Either::Right`), or nothing once taken. -/
structure RouterFactoryFut (P Φ σ E : Type) where
  router : List (P × Nat)
  handlers : List (MaybeDone Φ (Except E σ))
  default : Option (Φ ⊕ σ)

namespace RouterFactory

variable {P F S Φ σ E : Type}

/-- `RouterFactory::new_service`: the future `serviceFut h session` of every handler factory, in
order, and that of the default. -/
def newService (f : RouterFactory P F) (serviceFut : F → S → Φ) (session : S) :
    RouterFactoryFut P Φ σ E :=
  ⟨f.router, f.handlers.map fun h => .future (serviceFut h session),
    some (.inl (serviceFut f.default session))⟩

/-- What the factory is for: the router service with the default built by `build`, then every
handler in order, and an empty alias table; the first error fails it. -/
def built (f : RouterFactory P F) (build : F → Except E σ) : Except E (RouterService P σ) := do
  let d ← build f.default
  let hs ← f.handlers.mapM build
  pure ⟨f.router, hs, d, fun _ => none⟩

theorem built_ok {f : RouterFactory P F} {build : F → Except E σ} {s : RouterService P σ}
    (h : f.built build = .ok s) :
    ∃ d hs, build f.default = .ok d ∧ f.handlers.mapM build = .ok hs ∧
      s = ⟨f.router, hs, d, fun _ => none⟩ := by
  rcases hd : build f.default with e | d <;> simp only [built, hd, bind, Except.bind] at h
  · cases h
  · rcases hh : f.handlers.mapM build with e | hs <;> simp only [hh] at h <;> cases h
    exact ⟨d, hs, rfl, rfl, rfl⟩

/-- The handlers that `mapM` built, each from the factory in its place. -/
theorem forall₂_of_mapM_ok {build : F → Except E σ} :
    ∀ {l : List F} {hs : List σ}, l.mapM build = .ok hs →
      List.Forall₂ (fun h s => build h = .ok s) l hs
  | [], _, h => by cases h; exact .nil
  | x :: l, hs, h => by
    rw [List.mapM_cons] at h
    rcases hx : build x with e | s <;> rw [hx] at h
    · cases h
    · rcases hl : l.mapM build with e | ss <;> rw [hl] at h <;> cases h
      exact .cons hx (forall₂_of_mapM_ok hl)

end RouterFactory

namespace RouterFactoryFut

variable {P F S Φ σ E : Type}

/-- The `Either::Right` arm of `RouterFactoryFut::poll`, with the default built as `d`: poll the
handlers' `JoinAll`, and once it is ready push the handlers or return the first error. -/
def pollJoin (st : RouterFactoryFut P Φ σ E) (d : σ) (pollFut : Φ → Poll (Except E σ)) :
    Poll (Except E (RouterService P σ)) × RouterFactoryFut P Φ σ E :=
  match joinAllPoll pollFut st.handlers with
  | (.pending, handlers) => (.pending, { st with handlers })
  | (.ready res, handlers) =>
    match collectHandlers [] res with
    | .error e => (.ready (.error e), { st with handlers })
    | .ok hs =>
      (.ready (.ok ⟨st.router, hs, d, fun _ => none⟩), { st with handlers, default := none })

/-- `RouterFactoryFut::poll`, with `pollFut` what each service future answers at this poll.  A
default future that is ready re-enters the poll (`return self.poll(cx)`) at its `Either::Right`
arm.  A poll after the router was built unwraps `None`, and panics. -/
def poll (st : RouterFactoryFut P Φ σ E) (pollFut : Φ → Poll (Except E σ)) :
    Except String (Poll (Except E (RouterService P σ)) × RouterFactoryFut P Φ σ E) :=
  match st.default with
  | none => .error unwrapNone
  | some (.inl fut) =>
    match pollFut fut with
    | .pending => .ok (.pending, st)
    | .ready (.error e) => .ok (.ready (.error e), st)
    | .ready (.ok d) => .ok (pollJoin { st with default := some (.inr d) } d pollFut)
  | some (.inr d) => .ok (pollJoin st d pollFut)

/-- An executor polling the future, once with each of `polls`, until it is ready. -/
def run (st : RouterFactoryFut P Φ σ E) :
    List (Φ → Poll (Except E σ)) →
      Except String (Poll (Except E (RouterService P σ)) × RouterFactoryFut P Φ σ E)
  | [] => .ok (.pending, st)
  | p :: ps =>
    match st.poll p with
    | .error msg => .error msg
    | .ok (.pending, st) => st.run ps
    | .ok (.ready v, st) => .ok (.ready v, st)

section Building

variable {res : Φ → Except E σ} {f : RouterFactory P F} {serviceFut : F → S → Φ}
  {session : S}

variable (res f serviceFut session) in
/-- The future is still building `f`: it has `f`'s router, each slot of its `JoinAll` holds the
future of the matching handler factory, and its default is the default factory's future or the
service that future resolved to. -/
structure Building (st : RouterFactoryFut P Φ σ E) : Prop where
  router : st.router = f.router
  handlers : List.Forall₂ (Slot res) st.handlers (f.handlers.map (serviceFut · session))
  default : st.default = some (.inl (serviceFut f.default session)) ∨
    ∃ d, st.default = some (.inr d) ∧ res (serviceFut f.default session) = .ok d

theorem newService_building : Building res f serviceFut session (f.newService serviceFut session) :=
  ⟨rfl, List.forall₂_map_left_iff.mpr (List.forall₂_map_right_iff.mpr
    (List.forall₂_same.mpr fun _ _ => .inl rfl)), .inl rfl⟩

/-- What the handlers' loop makes of what their futures resolve to is what `built` builds. -/
theorem collectHandlers_built {d : σ} (hd : res (serviceFut f.default session) = .ok d) :
    (match collectHandlers [] ((f.handlers.map (serviceFut · session)).map res) with
      | .error e => .error e
      | .ok hs => .ok ⟨f.router, hs, d, fun _ => none⟩) =
      f.built fun h => res (serviceFut h session) := by
  rw [List.map_map, Function.comp_def, collectHandlers_map]
  simp only [RouterFactory.built, hd, bind, Except.bind]
  cases f.handlers.mapM fun h => res (serviceFut h session) <;> rfl

/-- **The `Either::Right` arm.**  Polling the handlers is pending with the future still
building, or ready with what `built` builds. -/
theorem pollJoin_building {st : RouterFactoryFut P Φ σ E} {d : σ}
    (hb : Building res f serviceFut session st) (hd : st.default = some (.inr d))
    {pollFut : Φ → Poll (Except E σ)} (hr : Resolves res pollFut) :
    (st.pollJoin d pollFut).1 = .pending ∧
        Building res f serviceFut session (st.pollJoin d pollFut).2 ∨
      (st.pollJoin d pollFut).1 = .ready (f.built fun h => res (serviceFut h session)) := by
  have hres : res (serviceFut f.default session) = .ok d := by
    rcases hb.default with h | ⟨d', h, hd'⟩ <;> rw [hd] at h <;> cases h
    exact hd'
  unfold pollJoin
  rcases hj : joinAllPoll pollFut st.handlers with ⟨r, elems⟩
  rcases joinAllPoll_slots hr hb.handlers with ⟨hp, hs⟩ | hp <;> rw [hj] at hp <;> subst hp
  · rw [hj] at hs
    exact .inl ⟨rfl, hb.router, hs, hb.default⟩
  · right
    rw [← collectHandlers_built hres, ← hb.router]
    dsimp only
    cases collectHandlers [] _ <;> rfl

/-- **One poll.**  A poll of a future that is building never panics: it is pending with the
future still building, or ready with what `built` builds. -/
theorem poll_building {st : RouterFactoryFut P Φ σ E} (hb : Building res f serviceFut session st)
    {pollFut : Φ → Poll (Except E σ)} (hr : Resolves res pollFut) :
    ∃ r st', st.poll pollFut = .ok (r, st') ∧
      (r = .pending ∧ Building res f serviceFut session st' ∨
        r = .ready (f.built fun h => res (serviceFut h session))) := by
  rcases hb.default with hd | ⟨d, hd, hres⟩
  · rcases hr (serviceFut f.default session) with hp | hp
    · simp only [poll, hd, hp]
      exact ⟨_, _, rfl, .inl ⟨rfl, hb⟩⟩
    · rcases hres : res (serviceFut f.default session) with e | d <;>
        simp only [poll, hd, hp, hres]
      · exact ⟨_, _, rfl, .inr (by simp only [RouterFactory.built, hres, bind, Except.bind])⟩
      · have hb' : Building res f serviceFut session { st with default := some (.inr d) } :=
          ⟨hb.router, hb.handlers, .inr ⟨d, rfl, hres⟩⟩
        exact ⟨_, _, rfl, pollJoin_building hb' rfl hr⟩
  · simp only [poll, hd]
    exact ⟨_, _, rfl, pollJoin_building hb hd hr⟩

/-- **A run of polls.**  However the futures answer, an executor polling the future never makes
it panic, and whatever ready value it reaches is what `built` builds. -/
theorem run_building {st : RouterFactoryFut P Φ σ E} (hb : Building res f serviceFut session st)
    {polls : List (Φ → Poll (Except E σ))} (hr : ∀ p ∈ polls, Resolves res p) :
    ∃ r st', st.run polls = .ok (r, st') ∧
      (r = .pending ∨ r = .ready (f.built fun h => res (serviceFut h session))) := by
  induction polls generalizing st with
  | nil => exact ⟨_, _, rfl, .inl rfl⟩
  | cons p polls ih =>
    obtain ⟨r, st₁, hp, hr₁⟩ := poll_building hb (hr p (List.mem_cons_self _ _))
    rcases hr₁ with ⟨rfl, hb₁⟩ | rfl
    · simp only [run, hp]
      exact ih hb₁ fun q hq => hr q (List.mem_cons_of_mem _ hq)
    · exact ⟨_, st₁, by simp only [run, hp], .inr rfl⟩

/-- **Progress.**  Polled once with every future ready, the factory's future is ready at once
with what `built` builds. -/
theorem poll_resolved :
    ∃ st', (f.newService serviceFut session).poll (fun φ => .ready (res φ)) =
      .ok (.ready (f.built fun h => res (serviceFut h session)), st') := by
  have hj : joinAllPoll (fun φ => .ready (res φ))
      (f.handlers.map fun h => .future (serviceFut h session)) =
      (.ready ((f.handlers.map (serviceFut · session)).map res), []) :=
    joinAllPoll_resolved newService_building.handlers
  dsimp only [poll, RouterFactory.newService]
  rcases hres : res (serviceFut f.default session) with e | d
  · simp only [RouterFactory.built, hres, bind, Except.bind]
    exact ⟨_, rfl⟩
  · simp only [pollJoin, hj]
    rw [← collectHandlers_built hres]
    cases collectHandlers [] _ <;> exact ⟨_, rfl⟩

end Building

end RouterFactoryFut

end ActixMqtt.V5
