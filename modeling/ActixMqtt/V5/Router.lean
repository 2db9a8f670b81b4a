import ActixMqtt.V3.Codec.Packet

/-!
# V5 — Router — patterns, handlers and topic aliases

`v5/router.rs`.  A `RouterService` holds the ntex router (the patterns in declaration order,
each with the index of its handler), the handler services, the default service, and the table
of topic aliases.  `call` hands an inbound publish to one of the services:

* a publish with a topic goes to the handler of the first pattern that matches it, with the
  topic path as the match left it; with a `topic_alias` it also binds the alias to that handler
  and path.  A topic no pattern matches goes to the default service and binds nothing;
* a publish with an empty topic and an alias goes where the alias is bound, with the bound path
  in place of its own, and to the default service when the alias is unknown;
* anything else goes to the default service.

ntex's `Router` and `Path` and the v5 `Publish` are not in the repository's sources; they are
modelled from the spec (§4.4): the router tries the patterns in declaration order, and the first
that matches names the handler.  What a pattern matches is left to the pattern type
(`MatchPath`).  `call` runs the handler futures no further than the call that creates them, so
its result is the service a request is handed to and the request as handed.

* `call_state`: `call` changes nothing but the alias table, which it updates by `binding`.
* `call_alias_only`: a publish with only an alias goes where the table says.
* `route_of_recognize`: where a publish carrying a topic a pattern matches goes.
-/

namespace ActixMqtt.V5

/-- Modelled from the spec: ntex's `Path<ByteString>`, the topic a router matches and the
segments a matching pattern bound in it. -/
structure Path where
  path : String
  segments : List (String × String)
  deriving DecidableEq, Repr

/-- `Path::new`: a topic with nothing bound yet. -/
def Path.new (path : String) : Path := ⟨path, []⟩

/-- Modelled from the spec: how a pattern of ntex's router matches a path
(`ResourceDef::match_path`): the path with what the match bound, or `None`. -/
class MatchPath (P : Type) where
  matchPath : P → Path → Option Path

/-- Modelled from the spec: a pattern with no dynamic segment, which matches exactly its own
topic and binds nothing. -/
structure StaticPattern where
  topic : String
  deriving DecidableEq, Repr

instance : MatchPath StaticPattern where
  matchPath p path := if path.path = p.topic then some path else none

/-- Modelled from the spec: ntex's `Router::recognize`, the value of the first pattern in
declaration order that matches the path, with the path as that match left it. -/
def recognize {P : Type} [MatchPath P] : List (P × Nat) → Path → Option (Nat × Path)
  | [], _ => none
  | (p, idx) :: rs, path =>
    match MatchPath.matchPath p path with
    | some path' => some (idx, path')
    | none => recognize rs path

/-- Modelled from the spec: the v5 `Publish` as the router reads it, the packet's topic
(`publish_topic`), its `topic_alias` property, and the topic path (`topic`, `topic_mut`). -/
structure Publish where
  topic : String
  topicAlias : Option NonZeroU16
  path : Path
  deriving DecidableEq

/-- `Publish::new`: the topic path starts as the packet's topic. -/
def Publish.new (topic : String) (topicAlias : Option NonZeroU16) : Publish :=
  ⟨topic, topicAlias, Path.new topic⟩

/-- The message of an index past the end of a `Vec`. -/
def indexOutOfBounds (len idx : Nat) : String :=
  "index out of bounds: the len is " ++ toString len ++ " but the index is " ++ toString idx

/-- `v[idx]` on a `Vec`, which panics past the end. -/
def vecIndex {σ : Type} (v : List σ) (idx : Nat) : Except String σ :=
  match v[idx]? with
  | some x => .ok x
  | none => .error (indexOutOfBounds v.length idx)

/-- A value mapped out of an `Except` was there to map. -/
theorem exists_of_map_eq_ok {ε α β : Type} {f : α → β} {e : Except ε α} {y : β}
    (h : f <$> e = .ok y) : ∃ x, e = .ok x ∧ f x = y := by
  cases e with
  | error => cases h
  | ok x => exact ⟨x, rfl, Except.ok.inj h⟩

/-- `RouterService`: the ntex router as its patterns with their handler indices, the handler
services, the default service, and the alias table, an `FxHashMap` seen as its lookup. -/
structure RouterService (P σ : Type) where
  router : List (P × Nat)
  handlers : List σ
  default : σ
  aliases : NonZeroU16 → Option (Nat × Path)

namespace RouterService

variable {P σ : Type} [MatchPath P]

/-- `aliases.insert(alias, entry)`. -/
def insertAlias (s : RouterService P σ) (a : NonZeroU16) (entry : Nat × Path) :
    RouterService P σ :=
  { s with aliases := fun b => if b = a then some entry else s.aliases b }

/-- `RouterService::call`: the service the request is handed to and the request as handed, with
the alias table as the call leaves it. -/
def call (s : RouterService P σ) (req : Publish) :
    Except String (RouterService P σ × σ × Publish) :=
  if req.topic ≠ "" then
    match recognize s.router req.path with
    | some (idx, path) =>
      let req := { req with path }
      let s := match req.topicAlias with
        | some a => s.insertAlias a (idx, req.path)
        | none => s
      (fun h => (s, h, req)) <$> vecIndex s.handlers idx
    | none => .ok (s, s.default, req)
  else
    match req.topicAlias with
    | some a =>
      match s.aliases a with
      | some (idx, path) => (fun h => (s, h, { req with path })) <$> vecIndex s.handlers idx
      | none => .ok (s, s.default, req)
    | none => .ok (s, s.default, req)

/-- `call` on each request in turn: the service as the last call leaves it, and the services
and requests handed on, in order.  The first panic ends the run. -/
def callAll (s : RouterService P σ) :
    List Publish → Except String (RouterService P σ × List (σ × Publish))
  | [] => .ok (s, [])
  | req :: reqs => do
    let (s₁, d) ← s.call req
    let (s₂, ds) ← s₁.callAll reqs
    pure (s₂, d :: ds)

/-- What a call with `req` binds `a` to: the handler index and recognised path of a request with
a topic that a pattern matches and alias `a`. -/
def binding (router : List (P × Nat)) (a : NonZeroU16) (req : Publish) : Option (Nat × Path) :=
  if req.topic ≠ "" ∧ req.topicAlias = some a then recognize router req.path else none

/-- Where a request carrying topic `t` and no alias goes: the service `call` hands it to and the
topic path it carries there. -/
def route (s : RouterService P σ) (t : String) : Except String (σ × Path) :=
  (s.call (Publish.new t none)).map fun r => (r.2.1, r.2.2.path)

/-! ### One call -/

/-- **One call.**  `call` changes nothing but the alias table, and binds in it exactly what
`binding` says. -/
theorem call_state {s s' : RouterService P σ} {req : Publish} {d : σ × Publish}
    (h : s.call req = .ok (s', d)) :
    s' = { s with aliases := fun a => (binding s.router a req).or (s.aliases a) } := by
  have keep : s = { s with aliases := fun a => (none : Option (Nat × Path)).or (s.aliases a) } :=
    rfl
  unfold call at h
  split_ifs at h with ht
  · rcases hr : recognize s.router req.path with _ | ⟨idx, path⟩ <;> rw [hr] at h
    · cases h
      simp only [binding, ht, hr, not_false_eq_true, true_and, ite_self]
      exact keep
    · obtain ⟨x, -, hx⟩ := exists_of_map_eq_ok h
      rcases ha : req.topicAlias with _ | a <;> simp only [ha] at hx <;> cases hx
      · have hb : ∀ b, binding s.router b req = none := fun b => by simp [binding, ha]
        simp only [hb]; exact keep
      · simp only [insertAlias, binding, ha, ht, hr, not_false_eq_true, true_and]
        congr 1; funext b
        by_cases hb : b = a
        · simp [hb, ht]
        · simp [hb, ht, Ne.symm hb]
  · have hb : ∀ a, binding s.router a req = none := fun a => by simp [binding, ht]
    simp only [hb]
    rcases ha : req.topicAlias with _ | a <;> simp only [ha] at h
    · cases h; exact keep
    · rcases hv : s.aliases a with _ | ⟨idx, path⟩ <;> simp only [hv] at h
      · cases h; exact keep
      · obtain ⟨x, -, hx⟩ := exists_of_map_eq_ok h
        cases hx; exact keep

/-- A publish with an empty topic and alias `a` goes where the table binds `a`: to the handler
at the bound index with the bound path, or to the default service unchanged. -/
theorem call_alias_only (s : RouterService P σ) {req : Publish} {a : NonZeroU16}
    (ht : req.topic = "") (ha : req.topicAlias = some a) :
    s.call req = match s.aliases a with
      | some (idx, path) => (fun h => (s, h, { req with path })) <$> vecIndex s.handlers idx
      | none => .ok (s, s.default, req) := by
  simp only [call, ht, ne_eq, not_true_eq_false, if_false, ha]

/-- A request carrying a topic a pattern matches goes to that pattern's handler, with the path
as the match left it. -/
theorem route_of_recognize (s : RouterService P σ) {t : String} (ht : t ≠ "")
    {idx : Nat} {path : Path} (hr : recognize s.router (Path.new t) = some (idx, path)) :
    s.route t = (fun h => (h, path)) <$> vecIndex s.handlers idx := by
  simp only [route, call, Publish.new, ne_eq, ht, not_false_eq_true, if_true, hr]
  cases vecIndex s.handlers idx <;> rfl

end RouterService

end ActixMqtt.V5
