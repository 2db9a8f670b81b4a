import ActixMqtt.V5.Router

/-!
# V5 — Router — topic aliases over a run of calls

In MQTT v5 a publish with a topic and a `topic_alias` binds the alias to the topic, and a later
publish with an empty topic and that alias stands for the topic of its last binding
(`boundTopic`).  The router keeps the binding in its alias table together with the handler the
topic was dispatched to, but it writes the table only when a pattern matches the topic: a
binding to a topic no pattern matches leaves the earlier entry in place.  What the table holds
is then the last binding whose topic a pattern matches (`matchedTopic`).

* `callAll_state`: a run of calls changes nothing but the alias table, and leaves each alias
  bound by the last call of the run that binds it, or as it was.
* `alias_dispatch_last_matched`: after any run from an empty table, a publish with only alias
  `a` goes where a request carrying the topic of the last matched binding of `a` goes.
* `alias_dispatch_of_matched`: so where the last binding of `a` had a topic a pattern matches,
  the alias resolves as MQTT v5 says, as a request carrying that topic.
* `stale_alias_binding_misroutes`: rebinding an alias to a topic no pattern matches leaves the
  old binding in the table, and a later publish with only that alias goes to the old handler,
  where a request carrying the new topic goes to the default service.
-/

namespace ActixMqtt.V5

/-- Searching for `f` and then applying `g` is searching for `f` then `g`, where `g` holds of
what the first search finds. -/
theorem findSome?_bind {α β γ : Type} {f : α → Option β} {g : β → Option γ}
    {f' : α → Option γ} {l : List α} (hf : ∀ x ∈ l, f' x = (f x).bind g)
    (hg : ∀ t, l.findSome? f = some t → (g t).isSome) :
    l.findSome? f' = (l.findSome? f).bind g := by
  induction l with
  | nil => rfl
  | cons x l ih =>
    have hx := hf x (List.mem_cons_self _ _)
    cases hfx : f x with
    | none =>
      have hskip : (x :: l).findSome? f = l.findSome? f := by simp [List.findSome?_cons, hfx]
      rw [List.findSome?_cons, hx, hfx, hskip]
      exact ih (fun y hy => hf y (List.mem_cons_of_mem _ hy)) (fun t ht => hg t (hskip ▸ ht))
    | some u =>
      obtain ⟨v, hv⟩ := Option.isSome_iff_exists.mp (hg u (by simp [List.findSome?_cons, hfx]))
      simp [List.findSome?_cons, hx, hfx, hv]

theorem findSome?_append_singleton {α β : Type} (f : α → Option β) (l : List α) (x : α) :
    (l ++ [x]).findSome? f = (l.findSome? f).or (f x) := by
  rw [List.findSome?_append]
  cases h : f x <;> simp [List.findSome?_cons, h]

/-- Keeping what `g` maps to something, then mapping by `g`, is mapping by `g`. -/
theorem Option.bind_filter_isSome {β γ : Type} (o : Option β) (g : β → Option γ) :
    (o.filter fun t => (g t).isSome).bind g = o.bind g := by
  cases o with
  | none => rfl
  | some t => cases h : g t <;> simp [Option.filter_some, h]

namespace RouterService

variable {P σ : Type} [MatchPath P]

/-! ### What the spec binds and what the table holds -/

/-- The topic a request binds `a` to: its own, when it has one and alias `a`. -/
def bindsTopic (a : NonZeroU16) (req : Publish) : Option String :=
  if req.topic ≠ "" ∧ req.topicAlias = some a then some req.topic else none

/-- The topic MQTT v5 binds `a` to after `reqs`: that of the last request that binds it. -/
def boundTopic (reqs : List Publish) (a : NonZeroU16) : Option String :=
  reqs.reverse.findSome? (bindsTopic a)

/-- The topic the router's table binds `a` to after `reqs`: that of the last request that binds
it with a topic a pattern of `router` matches. -/
def matchedTopic (router : List (P × Nat)) (reqs : List Publish) (a : NonZeroU16) :
    Option String :=
  reqs.reverse.findSome? fun req =>
    (bindsTopic a req).filter fun t => (recognize router (Path.new t)).isSome

/-- On a request as it comes off the wire, what `call` binds is what the pattern that matches
the bound topic gives. -/
theorem binding_of_wire (router : List (P × Nat)) (a : NonZeroU16) {req : Publish}
    (hw : req.path = Path.new req.topic) :
    binding router a req = (bindsTopic a req).bind fun t => recognize router (Path.new t) := by
  unfold binding bindsTopic
  split_ifs <;> simp [hw]

theorem matchedTopic_spec {router : List (P × Nat)} {reqs : List Publish} {a : NonZeroU16}
    {t : String} (h : matchedTopic router reqs a = some t) :
    t ≠ "" ∧ (recognize router (Path.new t)).isSome := by
  obtain ⟨req, -, hr⟩ := List.exists_of_findSome?_eq_some h
  obtain ⟨hb, hm⟩ := Option.filter_eq_some.mp hr
  unfold bindsTopic at hb
  split_ifs at hb with hc
  · cases hb; exact ⟨hc.1, hm⟩
  · cases hb

/-- Where the last binding of `a` is to a topic a pattern matches, the table binds what the
spec binds. -/
theorem matchedTopic_eq_boundTopic {router : List (P × Nat)} {reqs : List Publish}
    {a : NonZeroU16}
    (h : ∀ t, boundTopic reqs a = some t → (recognize router (Path.new t)).isSome) :
    matchedTopic router reqs a = boundTopic reqs a := by
  have hf := @findSome?_bind _ _ _ (bindsTopic a)
    (fun t => if (recognize router (Path.new t)).isSome then some t else none)
    (fun req => (bindsTopic a req).filter fun t => (recognize router (Path.new t)).isSome)
    reqs.reverse (fun x _ => by dsimp only; cases bindsTopic a x <;> rfl)
    (fun t ht => by simp [h t ht])
  rw [matchedTopic, hf, ← boundTopic]
  cases hb : boundTopic reqs a with
  | none => rfl
  | some t => simp [h t hb]

/-! ### A run of calls -/

theorem callAll_cons {s s' : RouterService P σ} {req : Publish} {reqs : List Publish}
    {ds : List (σ × Publish)} (h : s.callAll (req :: reqs) = .ok (s', ds)) :
    ∃ s₁ d ds₁, s.call req = .ok (s₁, d) ∧ s₁.callAll reqs = .ok (s', ds₁) ∧ ds = d :: ds₁ := by
  rcases h₁ : s.call req with _ | ⟨s₁, d⟩ <;> simp only [callAll, h₁, bind, Except.bind] at h
  · cases h
  · rcases h₂ : s₁.callAll reqs with _ | ⟨s₂, ds₂⟩ <;> simp only [h₂] at h <;> cases h
    exact ⟨s₁, d, ds₂, rfl, h₂, rfl⟩

/-- **A run of calls.**  A run changes nothing but the alias table, and leaves each alias bound
by the last call of the run that binds it, or as it was before the run. -/
theorem callAll_state {s s' : RouterService P σ} {reqs : List Publish}
    {ds : List (σ × Publish)} (h : s.callAll reqs = .ok (s', ds)) :
    s' = { s with
      aliases := fun a => (reqs.reverse.findSome? (binding s.router a)).or (s.aliases a) } := by
  induction reqs generalizing s ds with
  | nil => cases h; rfl
  | cons req reqs ih =>
    obtain ⟨s₁, d, ds₁, h₁, h₂, -⟩ := callAll_cons h
    rw [ih h₂, call_state h₁]
    simp only [List.reverse_cons, findSome?_append_singleton, Option.or_assoc]

/-! ### Alias resolution -/

/-- **Alias resolution, as the router does it.**  After any run of calls from an empty alias
table on requests as they come off the wire, a publish with an empty topic and alias `a` goes
where a request carrying the topic of the last matched binding of `a` goes, with that request's
topic path, and unchanged to the default service when there is no such binding. -/
theorem alias_dispatch_last_matched {s s' : RouterService P σ} {pre : List Publish}
    {ds : List (σ × Publish)} {req : Publish} {a : NonZeroU16}
    (hrun : s.callAll pre = .ok (s', ds)) (hfresh : ∀ b, s.aliases b = none)
    (hwire : ∀ r ∈ pre, r.path = Path.new r.topic) (ht : req.topic = "")
    (ha : req.topicAlias = some a) :
    (s'.call req).map (fun r => (r.2.1, r.2.2.path)) =
      match matchedTopic s.router pre a with
      | some t => s.route t
      | none => .ok (s.default, req.path) := by
  have htab : s'.aliases a =
      (matchedTopic s.router pre a).bind fun t => recognize s.router (Path.new t) := by
    rw [callAll_state hrun]
    refine (hfresh a ▸ Option.or_none).trans (findSome?_bind (fun r hr => ?_) fun t ht => ?_)
    · rw [binding_of_wire _ _ (hwire r (List.mem_reverse.mp hr)), Option.bind_filter_isSome]
    · exact (matchedTopic_spec ht).2
  rw [call_alias_only s' ht ha, htab]
  obtain rfl := callAll_state hrun
  rcases hm : matchedTopic s.router pre a with _ | t
  · rfl
  · obtain ⟨hne, hsome⟩ := matchedTopic_spec hm
    obtain ⟨⟨idx, path⟩, hr⟩ := Option.isSome_iff_exists.mp hsome
    rw [Option.some_bind, hr]
    dsimp only
    rw [s.route_of_recognize hne hr]
    cases vecIndex s.handlers idx <;> rfl

/-- **Alias resolution where the last binding matched.**  If the last request to bind `a` had a
topic a pattern matches, the publish with only alias `a` goes as MQTT v5 says: where a request
carrying that topic goes, with its topic path, or unchanged to the default service when nothing
bound `a`. -/
theorem alias_dispatch_of_matched {s s' : RouterService P σ} {pre : List Publish}
    {ds : List (σ × Publish)} {req : Publish} {a : NonZeroU16}
    (hrun : s.callAll pre = .ok (s', ds)) (hfresh : ∀ b, s.aliases b = none)
    (hwire : ∀ r ∈ pre, r.path = Path.new r.topic) (ht : req.topic = "")
    (ha : req.topicAlias = some a)
    (hmatched : ∀ t, boundTopic pre a = some t → (recognize s.router (Path.new t)).isSome) :
    (s'.call req).map (fun r => (r.2.1, r.2.2.path)) =
      match boundTopic pre a with
      | some t => s.route t
      | none => .ok (s.default, req.path) := by
  rw [alias_dispatch_last_matched hrun hfresh hwire ht ha, matchedTopic_eq_boundTopic hmatched]

/-- With one pattern, `t1`, a publish binding alias 7 to `t1`: the publish with only alias 7
that follows goes where a publish carrying `t1` goes. -/
theorem alias_dispatch_after_matched_binding :
    ∃ s' ds, (⟨[(⟨"t1"⟩, 0)], ["h0"], "default", fun _ => none⟩ :
        RouterService StaticPattern String).callAll [Publish.new "t1" (some ⟨7, by decide⟩)] =
        .ok (s', ds) ∧
      (s'.call (Publish.new "" (some ⟨7, by decide⟩))).map (fun r => (r.2.1, r.2.2.path)) =
        (⟨[(⟨"t1"⟩, 0)], ["h0"], "default", fun _ => none⟩ :
          RouterService StaticPattern String).route "t1" :=
  have hr : (⟨[(⟨"t1"⟩, 0)], ["h0"], "default", fun _ => none⟩ :
      RouterService StaticPattern String).callAll [Publish.new "t1" (some ⟨7, by decide⟩)] = _ :=
    rfl
  ⟨_, _, hr, alias_dispatch_of_matched hr (fun _ => rfl)
    (fun r hr' => by rw [List.mem_singleton.mp hr']; rfl) rfl rfl (fun t ht => by cases ht; rfl)⟩

/-- **A stale alias.**  With one pattern, `t1`, a request binding alias 7 to `t1` and then one
binding it to `t2`, which no pattern matches, leave the table binding `t1`: the publish with
only alias 7 that follows goes to `t1`'s handler with path `t1`, where MQTT v5 binds alias 7 to
`t2` and a request carrying `t2` goes to the default service. -/
theorem stale_alias_binding_misroutes :
    let s : RouterService StaticPattern String :=
      ⟨[(⟨"t1"⟩, 0)], ["h0"], "default", fun _ => none⟩
    let a : NonZeroU16 := ⟨7, by decide⟩
    let pre := [Publish.new "t1" (some a), Publish.new "t2" (some a)]
    boundTopic pre a = some "t2" ∧ s.route "t2" = .ok ("default", Path.new "t2") ∧
      (s.callAll (pre ++ [Publish.new "" (some a)])).map
          (fun r => r.2.map fun d => (d.1, d.2.path)) =
        .ok [("h0", Path.new "t1"), ("default", Path.new "t2"), ("h0", Path.new "t1")] :=
  ⟨rfl, rfl, rfl⟩

end RouterService

end ActixMqtt.V5
