import Mathlib

/-!
# Support — Slab

`slab::Slab<T>`, the table the sink keeps its in-flight acknowledgements in.  The crate is
not part of the repository; this is its data structure as the sink uses it.  An entry is
occupied (`some v`) or vacant (`none`), and the crate threads the vacant entries into a list
headed by `next`, most recently vacated first: `insert` takes the head of that list, or a new
key at the end when it is empty, and `remove` pushes the key it vacates.  Here that list is
`vacant`, and the structure carries what the crate relies on of it: it has no repeated key,
and every key on it is a vacant entry.

The sink reads the table only through `get`, `contains` and `len`, so every fact it needs is
one of `get_insert`, `get_insert_key`, `len_insert` and `remove_of_get`: an insertion fills a
key that was vacant, and a removal vacates exactly the key it is given.
-/

namespace ActixMqtt

/-- `slab::Slab<T>`. -/
structure Slab (α : Type) where
  entries : List (Option α)
  vacant : List Nat
  vacant_nodup : vacant.Nodup
  vacant_spec : ∀ k ∈ vacant, entries[k]? = some none

namespace Slab

variable {α : Type}

/-- `Slab::with_capacity`: no entry yet. -/
def empty : Slab α := ⟨[], [], List.nodup_nil, fun _ h => absurd h (List.not_mem_nil _)⟩

/-- `Slab::get`. -/
def get (s : Slab α) (k : Nat) : Option α := s.entries[k]?.join

/-- `Slab::contains`. -/
def contains (s : Slab α) (k : Nat) : Bool := (s.get k).isSome

/-- `Slab::len`: the number of occupied entries. -/
def len (s : Slab α) : Nat := s.entries.countP (·.isSome)

theorem vacant_tail {k : Nat} {rest : List Nat} {s : Slab α} (h : s.vacant = k :: rest)
    (v : α) : ∀ j ∈ rest, (s.entries.set k (some v))[j]? = some none := by
  have hk := List.nodup_cons.mp (h ▸ s.vacant_nodup)
  intro j hj
  rw [List.getElem?_set_ne (fun e : k = j => hk.1 (e ▸ hj))]
  exact s.vacant_spec j (h ▸ List.mem_cons_of_mem k hj)

/-- `Slab::insert`: the key is the most recently vacated one, or a new one at the end. -/
def insert (s : Slab α) (v : α) : Slab α × Nat :=
  match h : s.vacant with
  | k :: rest =>
    (⟨s.entries.set k (some v), rest, (List.nodup_cons.mp (h ▸ s.vacant_nodup)).2,
      vacant_tail h v⟩, k)
  | [] => (⟨s.entries ++ [some v], [], List.nodup_nil, fun _ h => absurd h (List.not_mem_nil _)⟩,
      s.entries.length)

theorem vacate_spec {s : Slab α} {k : Nat} {v : α} (h : s.entries[k]? = some (some v)) :
    ∀ j ∈ k :: s.vacant, (s.entries.set k none)[j]? = some none := by
  intro j hj
  rcases List.mem_cons.mp hj with rfl | hj
  · exact List.getElem?_set_self (List.getElem?_eq_some_iff.mp h).1
  · have hne : k ≠ j := fun e => by simp [e, s.vacant_spec j hj] at h
    rw [List.getElem?_set_ne hne]
    exact s.vacant_spec j hj

theorem vacate_nodup {s : Slab α} {k : Nat} {v : α} (h : s.entries[k]? = some (some v)) :
    (k :: s.vacant).Nodup :=
  List.nodup_cons.mpr ⟨fun hk => by simp [s.vacant_spec k hk] at h, s.vacant_nodup⟩

/-- `Slab::remove`.  The crate panics on a vacant key; that is `none` here. -/
def remove (s : Slab α) (k : Nat) : Option (α × Slab α) :=
  match h : s.entries[k]? with
  | some (some v) => some (v, ⟨s.entries.set k none, k :: s.vacant, vacate_nodup h, vacate_spec h⟩)
  | _ => none

/-- `Slab::vacant_key`: the key the next `insert` takes. -/
def vacantKey (s : Slab α) : Nat :=
  match s.vacant with
  | k :: _ => k
  | [] => s.entries.length

@[simp] theorem insert_key (s : Slab α) (v : α) : (s.insert v).2 = s.vacantKey := by
  unfold insert vacantKey; split <;> simp_all

@[simp] theorem get_empty (k : Nat) : (empty : Slab α).get k = none := rfl

@[simp] theorem len_empty : (empty : Slab α).len = 0 := rfl

theorem contains_iff {s : Slab α} {k : Nat} : s.contains k = true ↔ ∃ v, s.get k = some v :=
  Option.isSome_iff_exists

/-- The key `insert` returns was vacant. -/
theorem get_insert_key (s : Slab α) (v : α) : s.get (s.insert v).2 = none := by
  unfold insert
  split
  · next k rest h => simp [get, s.vacant_spec k (h ▸ List.mem_cons_self k rest)]
  · simp [get]

/-- After `insert`, the returned key holds the value and every other key is unchanged. -/
theorem get_insert (s : Slab α) (v : α) (j : Nat) :
    (s.insert v).1.get j = if j = (s.insert v).2 then some v else s.get j := by
  unfold insert
  split
  · next k rest h =>
    have hk : k < s.entries.length :=
      (List.getElem?_eq_some_iff.mp (s.vacant_spec k (h ▸ List.mem_cons_self k rest))).1
    by_cases e : j = k
    · subst e; simp [get, hk]
    · simp [get, e, List.getElem?_set_ne (Ne.symm e)]
  · by_cases e : j = s.entries.length
    · subst e; simp [get]
    · rcases Nat.lt_or_gt_of_ne e with hl | hl
      · simp [get, e, List.getElem?_append_left hl]
      · have h₁ : s.entries[j]? = none := List.getElem?_eq_none_iff.mpr (by omega)
        have h₂ : (s.entries ++ [some v])[j]? = none :=
          List.getElem?_eq_none_iff.mpr (by simp; omega)
        simp [get, e, h₁, h₂]

theorem len_insert (s : Slab α) (v : α) : (s.insert v).1.len = s.len + 1 := by
  unfold insert
  split
  · next k rest h =>
    have hk := List.getElem?_eq_some_iff.mp (s.vacant_spec k (h ▸ List.mem_cons_self k rest))
    simp only [len]
    rw [List.countP_set _ _ _ _ hk.1, hk.2]
    simp
  · simp [len]

/-- `remove` at an occupied key returns its value and vacates that key alone. -/
theorem remove_of_get {s : Slab α} {k : Nat} {v : α} (h : s.get k = some v) :
    ∃ s', s.remove k = some (v, s') ∧ (∀ j, s'.get j = if j = k then none else s.get j) ∧
      s'.len + 1 = s.len := by
  have he : s.entries[k]? = some (some v) := Option.join_eq_some.mp h
  obtain ⟨hk, hkv⟩ := List.getElem?_eq_some_iff.mp he
  refine ⟨⟨s.entries.set k none, k :: s.vacant, vacate_nodup he, vacate_spec he⟩, ?_,
    fun j => ?_, ?_⟩
  · unfold remove
    split
    · next w hw => rw [he] at hw; cases hw; rfl
    · next hn => exact absurd he (hn v)
  · by_cases e : j = k
    · subst e; simp [get, hk]
    · simp [get, e, List.getElem?_set_ne (Ne.symm e)]
  · have : 0 < s.entries.countP (·.isSome) :=
      List.countP_pos_iff.mpr ⟨_, List.getElem_mem hk, by simp [hkv]⟩
    simp only [len]
    rw [List.countP_set _ _ _ _ hk, hkv]
    simp
    omega

/-- `remove` at a vacant key is the crate's panic. -/
theorem remove_of_get_none {s : Slab α} {k : Nat} (h : s.get k = none) : s.remove k = none := by
  unfold remove
  split
  · next v hv => simp [get, hv] at h
  · rfl

/-! ### Keys below a bound

The sink rolls back every insertion at key `65535`.  A rollback pushes the key back on the
vacant list, and only when nothing else is vacant: the slab then hands key `65535` out again
only once every key below it is occupied (`Bounded.vacantKey_iff`). -/

theorem vacantKey_of_cons {s : Slab α} {k : Nat} {rest : List Nat} (h : s.vacant = k :: rest) :
    s.vacantKey = k ∧ k < s.entries.length ∧ s.get k = none := by
  have hk := List.getElem?_eq_some_iff.mp (s.vacant_spec k (h ▸ List.mem_cons_self k rest))
  refine ⟨by simp [vacantKey, h], hk.1, ?_⟩
  simp [get, List.getElem?_eq_getElem hk.1, hk.2]

theorem vacantKey_of_nil {s : Slab α} (h : s.vacant = []) : s.vacantKey = s.entries.length := by
  simp [vacantKey, h]

theorem vacantKey_le (s : Slab α) : s.vacantKey ≤ s.entries.length := by
  rcases h : s.vacant with _ | ⟨k, rest⟩
  · exact (vacantKey_of_nil h).le
  · obtain ⟨hk, hlt, -⟩ := vacantKey_of_cons h
    omega

theorem vacant_insert (s : Slab α) (v : α) : (s.insert v).1.vacant = s.vacant.tail := by
  unfold insert; split <;> simp_all

theorem length_insert (s : Slab α) (v : α) :
    (s.insert v).1.entries.length = max s.entries.length (s.vacantKey + 1) := by
  rcases h : s.vacant with _ | ⟨k, rest⟩
  · have hk := vacantKey_of_nil h
    unfold insert; split
    · simp_all
    · simp [hk]
  · obtain ⟨hk, hlt, -⟩ := vacantKey_of_cons h
    unfold insert; split
    · simp only [List.length_set]; omega
    · simp_all

theorem get_insert' (s : Slab α) (v : α) (j : Nat) :
    (s.insert v).1.get j = if j = s.vacantKey then some v else s.get j := by
  rw [get_insert, insert_key]

/-- What `remove` does: the key was occupied, it alone is vacated, and it heads the vacant
list. -/
theorem remove_spec {s s' : Slab α} {k : Nat} {v : α} (h : s.remove k = some (v, s')) :
    s.get k = some v ∧ (∀ j, s'.get j = if j = k then none else s.get j) ∧
      s'.vacant = k :: s.vacant ∧ s'.entries.length = s.entries.length := by
  unfold remove at h
  split at h
  · next w hw =>
    cases h
    have hk := (List.getElem?_eq_some_iff.mp hw).1
    refine ⟨by simp [get, hw], fun j => ?_, rfl, List.length_set ..⟩
    by_cases e : j = k
    · subst e; simp [get, hk]
    · simp [get, e, List.getElem?_set_ne (Ne.symm e)]
  · cases h

/-- The slab as the sink uses it with keys up to `n`: every vacant entry is on the vacant list
(the crate keeps that), there is no entry past `n`, entry `n` is vacant, and key `n`, when it
is listed, is listed last. -/
structure Bounded (s : Slab α) (n : Nat) : Prop where
  complete : ∀ k < s.entries.length, s.get k = none → k ∈ s.vacant
  length_le : s.entries.length ≤ n + 1
  get_top : s.get n = none
  top_last : ∀ l₁ l₂, s.vacant = l₁ ++ n :: l₂ → l₂ = []

theorem Bounded.empty (n : Nat) : (empty : Slab α).Bounded n :=
  ⟨fun _ h => absurd h (Nat.not_lt_zero _), Nat.zero_le _, rfl,
    fun l₁ l₂ h => absurd h (by simp [Slab.empty])⟩

/-- An insertion below `n`. -/
theorem Bounded.insert {s : Slab α} {n : Nat} (hb : s.Bounded n) (hk : s.vacantKey < n)
    (v : α) : (s.insert v).1.Bounded n := by
  have hle := s.vacantKey_le
  refine ⟨fun j hj hg => ?_, ?_, ?_, fun l₁ l₂ h => ?_⟩
  · rw [get_insert'] at hg
    split at hg
    · cases hg
    · rw [length_insert] at hj
      rw [vacant_insert]
      have hj' : j < s.entries.length := by omega
      rcases hv : s.vacant with _ | ⟨k, rest⟩
      · exact absurd (hv ▸ hb.complete j hj' hg) (List.not_mem_nil j)
      · have hm := hv ▸ hb.complete j hj' hg
        rw [(vacantKey_of_cons hv).1] at *
        exact (List.mem_cons.mp hm).resolve_left ‹_›
  · rw [length_insert]; have := hb.length_le; omega
  · rw [get_insert', if_neg (by omega)]; exact hb.get_top
  · rw [vacant_insert] at h
    rcases hv : s.vacant with _ | ⟨k, rest⟩ <;> rw [hv] at h
    · cases l₁ <;> cases h
    · simp only [List.tail_cons] at h
      exact hb.top_last (k :: l₁) l₂ (by rw [hv, h]; rfl)

/-- At the bound the next key is `n` itself, and nothing but `n` is listed vacant. -/
theorem Bounded.vacant_of_top {s : Slab α} {n : Nat} (hb : s.Bounded n) (hk : n ≤ s.vacantKey) :
    s.vacantKey = n ∧ (s.vacant = [] ∨ s.vacant = [n]) := by
  have hle := hb.length_le
  rcases hv : s.vacant with _ | ⟨k, rest⟩
  · rw [vacantKey_of_nil hv] at hk ⊢
    refine ⟨?_, .inl rfl⟩
    by_contra hne
    exact List.not_mem_nil n (hv ▸ hb.complete n (by omega) hb.get_top)
  · obtain ⟨hkey, hlt, -⟩ := vacantKey_of_cons hv
    obtain rfl : k = n := by omega
    exact ⟨hkey, .inr (by rw [hb.top_last [] rest hv])⟩

/-- The insertion at `n` the sink rolls back. -/
theorem Bounded.insert_remove {s s' : Slab α} {n : Nat} (hb : s.Bounded n) (hk : n ≤ s.vacantKey)
    {v v' : α} (h : (s.insert v).1.remove s.vacantKey = some (v', s')) : s'.Bounded n := by
  obtain ⟨-, hget, hvac, hlen⟩ := remove_spec h
  obtain ⟨hkey, hv⟩ := hb.vacant_of_top hk
  have hle := hb.length_le
  have hvac' : s'.vacant = [n] := by
    rw [hvac, vacant_insert, hkey]; rcases hv with hv | hv <;> rw [hv] <;> rfl
  rw [length_insert, hkey, Nat.max_eq_right hle] at hlen
  have hvk : n ≤ s.entries.length := hkey ▸ s.vacantKey_le
  have hget' : ∀ j, s'.get j = s.get j := fun j => by
    rw [hget, get_insert', hkey]
    by_cases e : j = n
    · subst e; simp [hb.get_top]
    · simp [e]
  refine ⟨fun j hj hg => ?_, by omega, by rw [hget']; exact hb.get_top, fun l₁ l₂ h => ?_⟩
  · rw [hvac']
    by_cases hjn : j = n
    · exact hjn ▸ List.mem_singleton_self n
    have hm := hb.complete j (by omega) (hget' j ▸ hg)
    rcases hv with hv | hv <;> rw [hv] at hm
    · exact absurd hm (List.not_mem_nil j)
    · exact hm
  · rw [hvac'] at h
    cases l₁ with
    | nil => exact (List.cons.inj h).2.symm
    | cons x l₁ => cases l₁ <;> cases h

/-- A removal: it vacates an occupied key, never `n`. -/
theorem Bounded.remove {s s' : Slab α} {n k : Nat} (hb : s.Bounded n) {v : α}
    (h : s.remove k = some (v, s')) : s'.Bounded n := by
  obtain ⟨hk, hget, hvac, hlen⟩ := remove_spec h
  have hkn : k ≠ n := fun e => by rw [e, hb.get_top] at hk; cases hk
  refine ⟨fun j hj hg => ?_, hlen ▸ hb.length_le, by rw [hget, if_neg (Ne.symm hkn)]; exact hb.get_top,
    fun l₁ l₂ h => ?_⟩
  · rw [hvac]
    rw [hget] at hg
    split at hg
    · next e => exact e ▸ List.mem_cons_self k s.vacant
    · exact List.mem_cons_of_mem k (hb.complete j (hlen ▸ hj) hg)
  · rw [hvac] at h
    cases l₁ with
    | nil => exact absurd (List.cons.inj h).1 hkn
    | cons x l₁ => exact hb.top_last l₁ l₂ (List.cons.inj h).2

/-- **Exhaustion.**  The next key is `n` or past it exactly when every key below `n` is
occupied. -/
theorem Bounded.vacantKey_iff {s : Slab α} {n : Nat} (hb : s.Bounded n) :
    n ≤ s.vacantKey ↔ ∀ k < n, (s.get k).isSome := by
  constructor
  · intro hn j hj
    obtain ⟨hkey, hv⟩ := hb.vacant_of_top hn
    rw [Option.isSome_iff_ne_none]
    intro hg
    have hm := hb.complete j (by have := s.vacantKey_le; omega) hg
    rcases hv with hv | hv <;> rw [hv] at hm
    · exact List.not_mem_nil j hm
    · exact absurd (List.mem_singleton.mp hm) (by omega)
  · intro hall
    by_contra hlt
    rcases hv : s.vacant with _ | ⟨k, rest⟩
    · rw [vacantKey_of_nil hv] at hlt
      have := hall s.entries.length (by omega)
      simp [get] at this
    · obtain ⟨hkey, -, hg⟩ := vacantKey_of_cons hv
      have := hall k (by omega)
      rw [hg] at this
      cases this

end Slab

end ActixMqtt
