import ActixMqtt.V5.Factory

/-!
# V5 — Router — dispatch by registration index

`Router::resource` gives the `k`-th pattern handler index `k`, and the factory's future pushes
the handlers in the order of their factories.  So the index `RouterService::call` reads, from
`recognize` or from the alias table, is that of the first pattern that matched (`FirstMatch`),
and it names a handler.

* `recognize_first_match`: `recognize` returns the value stored with the first pattern that
  matches; on a registered router that value is the pattern's index.
* `Indexed`: the router service dispatches by the patterns `pats`.  `built_indexed`: what the
  factory builds from a registered router does.
* `Indexed.call`, `Indexed.callAll`: a call on such a service never panics, keeps it so, and
  hands each request where `Dispatched` says: by the first pattern that matches its own topic,
  or, for a request without a topic, by the alias table or to the default service.
* `resource_indices_agree`: from any chain of `resource` calls, whatever router service the
  factory's future is ready with has one handler per registration, built by its factory, and
  dispatches every run of calls, request by request, by the registered patterns.
-/

namespace ActixMqtt.V5

variable {P σ : Type} [MatchPath P]

/-- Pattern `i` of `pats` is the first to match the topic path `q`, and its match leaves `p`. -/
def FirstMatch (pats : List P) (q : Path) (i : Nat) (p : Path) : Prop :=
  (pats[i]?.bind fun pat => MatchPath.matchPath pat q) = some p ∧
    ∀ j < i, (pats[j]?.bind fun pat => MatchPath.matchPath pat q) = none

instance (pats : List P) (q : Path) (i : Nat) (p : Path) : Decidable (FirstMatch pats q i p) := by
  unfold FirstMatch; infer_instance

example : FirstMatch [(⟨"a"⟩ : StaticPattern), ⟨"b"⟩] (Path.new "b") 1 (Path.new "b") := by
  decide

namespace FirstMatch

theorem lt_length {pats : List P} {q : Path} {i : Nat} {p : Path} (h : FirstMatch pats q i p) :
    i < pats.length := by
  obtain ⟨h₁, -⟩ := h
  by_contra hi
  rw [List.getElem?_eq_none (Nat.le_of_not_lt hi)] at h₁
  cases h₁

theorem head {pat : P} {pats : List P} {q p : Path} (h : MatchPath.matchPath pat q = some p) :
    FirstMatch (pat :: pats) q 0 p :=
  ⟨by rwa [List.getElem?_cons_zero, Option.some_bind],
    fun _ hj => absurd hj (Nat.not_lt_zero _)⟩

theorem tail {pat : P} {pats : List P} {q : Path} {i : Nat} {p : Path}
    (hn : MatchPath.matchPath pat q = none) (h : FirstMatch pats q i p) :
    FirstMatch (pat :: pats) q (i + 1) p :=
  ⟨by rw [List.getElem?_cons_succ]; exact h.1, fun j hj => match j with
    | 0 => by rwa [List.getElem?_cons_zero, Option.some_bind]
    | j + 1 => by rw [List.getElem?_cons_succ]; exact h.2 j (Nat.lt_of_succ_lt_succ hj)⟩

theorem of_tail {pat : P} {pats : List P} {q : Path} {i : Nat} {p : Path}
    (h : FirstMatch (pat :: pats) q (i + 1) p) : FirstMatch pats q i p :=
  ⟨by simpa using h.1, fun j hj => by simpa using h.2 (j + 1) (Nat.succ_lt_succ hj)⟩

end FirstMatch

/-- **Recognition.**  `recognize` returns the value stored with the first pattern that matches,
and what that match leaves. -/
theorem recognize_first_match {rs : List (P × Nat)} {q : Path} {v : Nat} {p : Path}
    (h : recognize rs q = some (v, p)) :
    ∃ i, (rs.map Prod.snd)[i]? = some v ∧ FirstMatch (rs.map Prod.fst) q i p := by
  induction rs with
  | nil => cases h
  | cons r rs ih =>
    obtain ⟨pat, idx⟩ := r
    rcases hm : MatchPath.matchPath pat q with _ | p' <;> simp only [recognize, hm] at h
    · obtain ⟨i, hv, hf⟩ := ih h
      exact ⟨i + 1, by rwa [List.map_cons, List.getElem?_cons_succ], hf.tail hm⟩
    · cases h
      exact ⟨0, List.getElem?_cons_zero, .head hm⟩

/-- On a router whose `k`-th pattern carries `k`, `recognize` returns the index of the first
pattern that matches. -/
theorem recognize_registered {rs : List (P × Nat)} {n : Nat}
    (hr : rs.map Prod.snd = List.range n) {q : Path} {i : Nat} {p : Path}
    (h : recognize rs q = some (i, p)) : FirstMatch (rs.map Prod.fst) q i p := by
  obtain ⟨j, hv, hf⟩ := recognize_first_match h
  rw [hr] at hv
  by_cases hj : j < n
  · rw [List.getElem?_range hj] at hv
    cases hv
    exact hf
  · rw [List.getElem?_eq_none (by simpa using hj)] at hv
    cases hv

/-- `recognize` finds nothing only when no pattern matches. -/
theorem recognize_eq_none {rs : List (P × Nat)} {q : Path} (h : recognize rs q = none) :
    ∀ i p, ¬ FirstMatch (rs.map Prod.fst) q i p := by
  induction rs with
  | nil => exact fun i p hf => absurd hf.lt_length (Nat.not_lt_zero i)
  | cons r rs ih =>
    obtain ⟨pat, idx⟩ := r
    rcases hm : MatchPath.matchPath pat q with _ | p'
    · simp only [recognize, hm] at h
      rintro (_ | i) p hf
      · have h₀ := hf.1
        simp [hm] at h₀
      · exact ih h i p hf.of_tail
    · simp [recognize, hm] at h

/-- What one list relates to the other, place by place. -/
theorem forall₂_getElem? {α β : Type} {R : α → β → Prop} {l₁ : List α} {l₂ : List β}
    (h : List.Forall₂ R l₁ l₂) {i : Nat} {x : α} (hx : l₁[i]? = some x) :
    ∃ y, l₂[i]? = some y ∧ R x y := by
  induction h generalizing i with
  | nil => cases hx
  | cons hab _ ih =>
    cases i with
    | zero =>
      rw [List.getElem?_cons_zero] at hx
      cases hx
      exact ⟨_, List.getElem?_cons_zero, hab⟩
    | succ i => rw [List.getElem?_cons_succ] at hx ⊢; exact ih hx

namespace RouterService

/-- The router service dispatches by the patterns `pats`: `recognize` names the first pattern
of `pats` that matches, there is a handler for every pattern, and the alias table binds each
alias to the index and match of a pattern that was the first to match some topic. -/
structure Indexed (pats : List P) (s : RouterService P σ) : Prop where
  patterns : s.router.map Prod.fst = pats
  recognize_first : ∀ q i p, recognize s.router q = some (i, p) → FirstMatch pats q i p
  handlers_length : s.handlers.length = pats.length
  aliases_first : ∀ a i p, s.aliases a = some (i, p) → ∃ q, FirstMatch pats q i p

/-- Where a call hands the request `req`, as the publish `d.2` to the service `d.1`: `d.2` is
`req` with at most its topic path changed.  A request with a topic goes to the handler of the
first pattern that matches its own topic path, with what that match left, or, when no pattern
matches, unchanged to the default service.  A request without a topic goes unchanged to the
default service, or to the handler of the first pattern to match some topic, with what that
match left. -/
def Dispatched (pats : List P) (s : RouterService P σ) (req : Publish) (d : σ × Publish) :
    Prop :=
  (req.topic ≠ "" →
    (∃ i p, FirstMatch pats req.path i p ∧ s.handlers[i]? = some d.1 ∧
      d.2 = { req with path := p }) ∨
    (∀ i p, ¬ FirstMatch pats req.path i p) ∧ d = (s.default, req)) ∧
  (req.topic = "" → d = (s.default, req) ∨
    ∃ i q, FirstMatch pats q i d.2.path ∧ s.handlers[i]? = some d.1 ∧
      d.2 = { req with path := d.2.path })

theorem recognize_of_binding {router : List (P × Nat)} {a : NonZeroU16} {req : Publish}
    {e : Nat × Path} (h : binding router a req = some e) : recognize router req.path = some e := by
  unfold binding at h
  split_ifs at h
  exact h

variable {pats : List P} {s : RouterService P σ}

/-- The index of a first match names a handler. -/
theorem Indexed.vecIndex_ok (hs : Indexed pats s) {q : Path} {i : Nat} {p : Path}
    (hf : FirstMatch pats q i p) :
    ∃ h, s.handlers[i]? = some h ∧ vecIndex s.handlers i = .ok h :=
  have hi : i < s.handlers.length := hs.handlers_length ▸ hf.lt_length
  ⟨_, List.getElem?_eq_getElem hi, by simp only [vecIndex, List.getElem?_eq_getElem hi]⟩

/-- **One call.**  A call on a service that dispatches by `pats` never panics, leaves it
dispatching by `pats`, and hands the request where `Dispatched` says. -/
theorem Indexed.call (hs : Indexed pats s) (req : Publish) :
    ∃ s' d, s.call req = .ok (s', d) ∧ Indexed pats s' ∧ Dispatched pats s req d := by
  obtain ⟨s', d, hc, hd⟩ : ∃ s' d, s.call req = .ok (s', d) ∧ Dispatched pats s req d := by
    by_cases ht : req.topic = ""
    · have hdef : Dispatched pats s req (s.default, req) :=
        ⟨fun hne => absurd ht hne, fun _ => .inl rfl⟩
      rcases ha : req.topicAlias with _ | a
      · simp only [RouterService.call, ht, ha, ne_eq, not_true_eq_false, if_false]
        exact ⟨_, _, rfl, hdef⟩
      · rw [call_alias_only s ht ha]
        rcases hl : s.aliases a with _ | ⟨i, p⟩
        · exact ⟨_, _, rfl, hdef⟩
        · obtain ⟨q, hf⟩ := hs.aliases_first _ _ _ hl
          obtain ⟨h, hh, hv⟩ := hs.vecIndex_ok hf
          simp only [hv]
          exact ⟨_, _, rfl, fun hne => absurd ht hne, fun _ => .inr ⟨i, q, hf, hh, rfl⟩⟩
    · simp only [RouterService.call, ne_eq, ht, not_false_eq_true, if_true]
      rcases hr : recognize s.router req.path with _ | ⟨i, p⟩
      · refine ⟨_, _, rfl, fun _ => .inr ⟨?_, rfl⟩, fun h => absurd h ht⟩
        rw [← hs.patterns]
        exact recognize_eq_none hr
      · have hf := hs.recognize_first _ _ _ hr
        obtain ⟨h, hh, hv⟩ := hs.vecIndex_ok hf
        rcases ha : req.topicAlias with _ | a <;> simp only [ha, insertAlias, hv]
        all_goals exact ⟨_, _, rfl, fun _ => .inl ⟨i, p, hf, hh, by rw [ha]⟩, fun h => absurd h ht⟩
  refine ⟨s', d, hc, ?_, hd⟩
  obtain rfl := call_state hc
  refine ⟨hs.patterns, hs.recognize_first, hs.handlers_length, fun a i p h => ?_⟩
  rcases Option.or_eq_some.mp h with hb | ⟨-, ho⟩
  · exact ⟨req.path, hs.recognize_first _ _ _ (recognize_of_binding hb)⟩
  · exact hs.aliases_first a i p ho

/-- **A run of calls.**  On a service that dispatches by `pats`, no run of calls panics, and
each request of the run goes where `Dispatched` says. -/
theorem Indexed.callAll (hs : Indexed pats s) (reqs : List Publish) :
    ∃ s' ds, s.callAll reqs = .ok (s', ds) ∧ Indexed pats s' ∧
      List.Forall₂ (Dispatched pats s) reqs ds := by
  induction reqs generalizing s with
  | nil => exact ⟨s, [], rfl, hs, .nil⟩
  | cons req reqs ih =>
    obtain ⟨s₁, d, h₁, hs₁, hd⟩ := hs.call req
    obtain ⟨s₂, ds, h₂, hs₂, hds⟩ := ih hs₁
    refine ⟨s₂, d :: ds, by simp only [callAll, h₁, h₂, bind, Except.bind]; rfl, hs₂,
      .cons hd ?_⟩
    obtain rfl := call_state h₁
    exact hds

/-- **What the factory builds.**  The router service built from a registered router dispatches
by its patterns. -/
theorem built_indexed {F E : Type} {r : Router P F} (hr : r.Registered) {b : F → Except E σ}
    (h : r.intoFactory.built b = .ok s) : Indexed (r.router.map Prod.fst) s := by
  obtain ⟨d, hs, -, hmap, rfl⟩ := RouterFactory.built_ok h
  have hlen : r.router.length = r.handlers.length := by
    simpa using congrArg List.length hr
  refine ⟨rfl, fun q i p hq => recognize_registered hr hq, ?_, fun a i p ha => by cases ha⟩
  rw [List.length_map, hlen]
  exact (RouterFactory.forall₂_of_mapM_ok hmap).length_eq.symm

end RouterService

open RouterService RouterFactoryFut in
/-- **Handler indices agree with registrations.**  Take any chain of `resource` calls from
`Router::new`, and any router service `s` that the factory's future is ready with, over any run
of polls in which every service future answers pending or what it resolves to.  Then `s` has one
handler per registration, the `i`-th built by the `i`-th registered factory; `recognize` returns
the index of the first registered pattern that matches; and over any run of calls, no call
panics, the alias table binds only such indices, and each request goes where `Dispatched` says:
a request with a topic to the handler of the first registered pattern that matches its own topic,
or to the default service when none does; a request without one to the default service or to the
handler of the first registered pattern to match some topic. -/
theorem resource_indices_agree {F S Φ E : Type} (dflt : F) (regs : List (P × F))
    (serviceFut : F → S → Φ) (session : S) (res : Φ → Except E σ)
    {polls : List (Φ → Poll (Except E σ))} (hr : ∀ p ∈ polls, Resolves res p)
    {s : RouterService P σ} {st : RouterFactoryFut P Φ σ E}
    (h : (((Router.new dflt).resources regs).intoFactory.newService serviceFut session).run polls =
      .ok (.ready (.ok s), st)) :
    s.handlers.length = regs.length ∧
    (∀ (i : Nat) (reg : P × F), regs[i]? = some reg →
      ∃ hd, s.handlers[i]? = some hd ∧ res (serviceFut reg.2 session) = .ok hd) ∧
    (∀ q i p, recognize s.router q = some (i, p) → FirstMatch (regs.map Prod.fst) q i p) ∧
    ∀ reqs, ∃ s' ds, s.callAll reqs = .ok (s', ds) ∧
      (∀ a i p, s'.aliases a = some (i, p) → ∃ q, FirstMatch (regs.map Prod.fst) q i p) ∧
      List.Forall₂ (Dispatched (regs.map Prod.fst) s) reqs ds := by
  set r := (Router.new dflt).resources regs
  have hbuilt : r.intoFactory.built (fun h => res (serviceFut h session)) = .ok s := by
    obtain ⟨_, _, hrun, hv | hv⟩ := run_building newService_building hr <;> rw [h] at hrun <;>
      cases hrun
    · cases hv
    · exact (Poll.ready.inj hv).symm
  have hpats : r.router.map Prod.fst = regs.map Prod.fst := Router.resources_patterns _ _
  have hs : Indexed (regs.map Prod.fst) s :=
    hpats ▸ built_indexed (Router.resources_registered (Router.new_registered dflt) regs) hbuilt
  obtain ⟨d, hs', -, hmap, rfl⟩ := RouterFactory.built_ok hbuilt
  have hfa : List.Forall₂ (fun h s => res (serviceFut h session) = .ok s)
      (regs.map Prod.snd) hs' := by
    simpa [r, Router.intoFactory, Router.resources_handlers, Router.new] using
      RouterFactory.forall₂_of_mapM_ok hmap
  refine ⟨by simpa using hfa.length_eq.symm,
    fun i reg hreg => forall₂_getElem? hfa (by simp [hreg]), hs.recognize_first, fun reqs => ?_⟩
  obtain ⟨s', ds, hc, hs₁, hds⟩ := hs.callAll reqs
  exact ⟨s', ds, hc, hs₁.aliases_first, hds⟩

/-- Two resources, `a` and `b`, whose factories build services of their own names at the first
poll. -/
theorem resource_indices_two_topics :
    let regs : List (StaticPattern × String) := [(⟨"a"⟩, "fa"), (⟨"b"⟩, "fb")]
    ∃ s st, (((Router.new "fd").resources regs).intoFactory.newService (fun h (_ : Unit) => h)
        ()).run [fun φ => .ready (.ok φ : Except String String)] = .ok (.ready (.ok s), st) ∧
      s.handlers.length = 2 ∧
      ∀ q i p, recognize s.router q = some (i, p) → FirstMatch (regs.map Prod.fst) q i p :=
  have hrun : (((Router.new "fd").resources [((⟨"a"⟩ : StaticPattern), "fa"), (⟨"b"⟩, "fb")]
      ).intoFactory.newService (fun h (_ : Unit) => h) ()).run
        [fun φ => .ready (.ok φ : Except String String)] = _ := rfl
  let ⟨hl, _, hrec, _⟩ := resource_indices_agree "fd"
    [((⟨"a"⟩ : StaticPattern), "fa"), (⟨"b"⟩, "fb")] (fun h (_ : Unit) => h) () .ok
    (fun p hp φ => by rw [List.mem_singleton.mp hp]; exact .inr rfl) hrun
  ⟨_, _, hrun, hl, hrec⟩

end ActixMqtt.V5
