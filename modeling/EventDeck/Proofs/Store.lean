import EventDeck.Store

/-!
# What a write leaves alone

A write to a name changes the value of the variable of that name, or adds an unbounded variable at
the end when there is none.  Other variables, their order and all bounds stay as they are, and so do
the subscriptions (`Store.writes_of_write`).
-/

namespace EventDeck.Store

/-- What a write of a value to a name may have made of a store. -/
structure Writes (store : Store) (name : String) (x : Float) (after : Store) : Prop where
  /-- An unknown name gets an unbounded variable at the end. -/
  created : store.has name = false → after = store.append { name, value := x }
  /-- A known name keeps its variable in its place. -/
  kept : store.has name = true → after.names = store.names
  /-- Bounds stay as they are, in the order of the variables. -/
  bounds : (after.vars.take store.size).map (·.max) = store.vars.map (·.max)
  /-- Other variables stay as they are. -/
  others : ∀ other, other ≠ name → after.find? other = store.find? other
  /-- Observers stay subscribed. -/
  subscriptions : after.subscriptions = store.subscriptions

/-- The value that a write returns, when observers do not interfere. -/
def Write.value (x : Float) : Write → Float
  | .created => x
  | .kept value => value
  | .changed v _ => v.value

/-- A write to one variable does not change what is found by another name. -/
theorem find?_assign (store : Store) {name other : String} (x : Float) (h : other ≠ name) :
    (store.assign name x).find? other = store.find? other := by
  rw [find?, find?, assign]
  -- the written variable is passed over on both sides
  induction store.vars with
  | nil => rfl
  | cons v vars ih =>
    rw [List.map_cons, List.find?_cons, List.find?_cons]
    by_cases hv : v.name = name
    · have hne : v.name ≠ other := fun heq => h (heq.symm.trans hv)
      rw [if_pos hv]
      simp only [hne, decide_false]
      exact ih
    · rw [if_neg hv]
      by_cases ho : v.name = other
      · simp [ho]
      · simp only [ho, decide_false]
        exact ih

theorem find?_append (store : Store) {other : String} {v : Variable} (h : other ≠ v.name) :
    (store.append v).find? other = store.find? other := by
  rw [find?, find?, append, List.find?_append]
  simp [Ne.symm h]

/-- A write changes nothing but what it writes. -/
theorem writes_of_write {store after : Store} {name : String} {x : Float} {write : Write}
    (h : store.write name x = .ok (after, write)) : store.Writes name x after := by
  unfold Store.write at h
  -- a new variable is put at the end; a known one keeps its place, and its value when the number equals
  -- it
  cases hfind : store.find? name with
  | none =>
    rw [hfind] at h
    cases h
    have hhas : store.has name = false := by rw [has, hfind]; rfl
    refine ⟨fun _ => rfl, fun h => ?_, ?_, fun other hne => find?_append store hne, rfl⟩
    · rw [hhas] at h
      cases h
    · rw [append, size, List.take_left']
      rfl
  | some v =>
    rw [hfind] at h
    have hhas : store.has name = true := by rw [has, hfind]; rfl
    dsimp only at h
    split at h
    · cases h
    · split at h
      · cases h
        refine ⟨fun h => ?_, fun _ => rfl, ?_, fun _ _ => rfl, rfl⟩
        · rw [hhas] at h
          cases h
        · rw [size, List.take_length]
      · cases h
        refine ⟨fun h => ?_, fun _ => ?_, ?_, fun other hne => find?_assign store _ hne, rfl⟩
        · rw [hhas] at h
          cases h
        · rw [names, names, assign, List.map_map]
          refine List.map_congr_left fun w _ => ?_
          change (if w.name = name then _ else w).name = w.name
          split <;> rfl
        · rw [assign, size, List.take_of_length_le (by simp), List.map_map]
          refine List.map_congr_left fun w _ => ?_
          change (if w.name = name then _ else w).max = w.max
          split <;> rfl

/-- Only a negative tolerance is in the way of a write. -/
theorem write_eq_error {store : Store} {name : String} {x : Float} {fault : Fault}
    (h : store.write name x = .error fault) :
    fault = .negativeTolerance ∧ store.epsilon < 0 := by
  unfold Store.write at h
  cases hfind : store.find? name with
  | none =>
    rw [hfind] at h
    cases h
  | some v =>
    rw [hfind] at h
    dsimp only at h
    split at h
    next hepsilon =>
      cases h
      exact ⟨rfl, hepsilon⟩
    next => split at h <;> cases h

/-- A write leaves the tolerance as it is. -/
theorem epsilon_of_write {store after : Store} {name : String} {x : Float} {write : Write}
    (h : store.write name x = .ok (after, write)) : after.epsilon = store.epsilon := by
  unfold Store.write at h
  cases hfind : store.find? name with
  | none =>
    rw [hfind] at h
    cases h
    rfl
  | some v =>
    rw [hfind] at h
    dsimp only at h
    split at h
    · cases h
    · split at h <;> cases h <;> rfl

/-! ## Names -/

theorem length_names (store : Store) : store.names.length = store.size :=
  List.length_map ..

/-- A variable is there when its name is listed. -/
theorem has_iff_mem_names (store : Store) (name : String) :
    store.has name = true ↔ name ∈ store.names := by
  rw [has, find?, List.find?_isSome, names, List.mem_map]
  simp

/-- A write leaves the names as they are, or puts one behind them. -/
theorem names_prefix_of_write {store after : Store} {name : String} {x : Float} {write : Write}
    (h : store.write name x = .ok (after, write)) : store.names <+: after.names := by
  have hwrites := writes_of_write h
  cases hhas : store.has name with
  | false =>
    rw [hwrites.created hhas]
    exact ⟨[name], by simp [names, append]⟩
  | true => exact ⟨[], by rw [hwrites.kept hhas, List.append_nil]⟩

/-- The first variable with a name, found by its place. -/
theorem exists_place {store : Store} {name : String} {earlier later : List String}
    (hnames : store.names = earlier ++ name :: later) (hnew : name ∉ earlier) :
    ∃ v, store.vars[earlier.length]? = some v ∧ store.find? name = some v := by
  obtain ⟨front, others, hvars, rfl, hothers⟩ := List.map_eq_append_iff.mp hnames
  obtain ⟨v, back, rfl, hname, -⟩ := List.map_eq_cons_iff.mp hothers
  refine ⟨v, by simp [hvars], ?_⟩
  refine List.find?_eq_some_iff_append.mpr ⟨by simpa using hname, front, back, hvars, fun w hw => ?_⟩
  have hne : w.name ≠ name := fun heq => hnew (heq ▸ List.mem_map_of_mem hw)
  simpa using hne

/-! ## Known variables -/

section Known

variable {store between after : Store} {write : Write} {name : String} {x old : Float}
  {v w : Variable}

theorem name_of_find? (h : store.find? name = some v) : v.name = name := by
  simpa using List.find?_some h

/-- The variable that is written has the new value and is otherwise the same. -/
theorem find?_assign_self (h : store.find? name = some v) (x : Float) :
    (store.assign name x).find? name = some { v with value := x } := by
  have hcongr : ((fun w : Variable => decide (w.name = name)) ∘ fun w : Variable =>
      if w.name = name then { w with value := x } else w) = fun w => decide (w.name = name) := by
    funext w
    rw [Function.comp_apply]
    split <;> rfl
  have hname := name_of_find? h
  rw [find?] at h
  rw [find?, assign, List.find?_map, hcongr, h, Option.map_some, if_pos hname]

/-- What a write to a known name does. -/
theorem write_known (h : store.write name x = .ok (after, write)) (hfind : store.find? name = some v) :
    (∃ y, write = .kept y ∧ after = store) ∨
      ∃ y, write = .changed { v with value := y } v.value ∧ after = store.assign name y := by
  rw [Store.write, hfind] at h
  dsimp only at h
  split at h
  · cases h
  · split at h
    · cases h
      exact .inl ⟨_, rfl, rfl⟩
    · cases h
      exact .inr ⟨_, rfl, rfl⟩

/-- A known variable stays as it is unless a write gives it a new value. -/
theorem find?_of_write {other : String} (h : store.write other x = .ok (after, write))
    (hknown : store.has name = true) (hwrite : name = other → ∀ v old, write ≠ .changed v old) :
    after.find? name = store.find? name := by
  by_cases hname : name = other
  · subst hname
    obtain ⟨v, hfind⟩ := Option.isSome_iff_exists.1 hknown
    obtain ⟨y, -, rfl⟩ | ⟨y, rfl, -⟩ := write_known h hfind
    · rfl
    · exact absurd rfl (hwrite rfl _ _)
  · exact (writes_of_write h).others name hname

/-- The variable that observers are told of is the one that is stored. -/
theorem find?_of_changed (h : store.write name x = .ok (after, .changed v old)) :
    v.name = name ∧ after.find? name = some v := by
  cases hfind : store.find? name with
  | none =>
    rw [Store.write, hfind] at h
    cases h
  | some u =>
    obtain ⟨y, hwrite, rfl⟩ | ⟨y, hwrite, rfl⟩ := write_known h hfind
    · cases hwrite
    · cases hwrite
      have hafter := find?_assign_self hfind y
      exact ⟨name_of_find? hafter, hafter⟩

/-- A variable is looked up under its name and version. -/
theorem current_eq (hfind : store.find? v.name = some w) (hversion : w.version = v.version) :
    store.current v = w := by
  have hname : w.name = v.name := name_of_find? hfind
  obtain ⟨_, front, back, heq, hfront⟩ := List.find?_eq_some_iff_append.1 hfind
  -- No earlier variable has the name, whatever its version.
  have hnone : front.find? (fun u => u.name = v.name && u.version = v.version) = none := by
    refine List.find?_eq_none.2 fun u hu => ?_
    simp [by simpa using hfront u hu]
  rw [current, heq, List.append_assoc, List.find?_append, hnone, Option.none_or, List.cons_append,
    List.find?_cons_of_pos (by simp [hname, hversion]), Option.getD_some]

/-- Observers stay subscribed, and variables stay in their places. -/
structure Retains (before after : Store) : Prop where
  subscriptions : after.subscriptions = before.subscriptions
  places : ∀ name v, before.find? name = some v →
    ∃ w, after.find? name = some w ∧ w.version = v.version

theorem Retains.refl (store : Store) : store.Retains store :=
  ⟨rfl, fun _ v hv => ⟨v, hv, rfl⟩⟩

/-- What is kept twice is kept. -/
theorem Retains.trans (h : store.Retains between) (h' : between.Retains after) :
    store.Retains after := by
  refine ⟨h'.subscriptions.trans h.subscriptions, fun name u hu => ?_⟩
  obtain ⟨v, hv, hversion⟩ := h.places name u hu
  obtain ⟨w, hw, hversion'⟩ := h'.places name v hv
  exact ⟨w, hw, hversion'.trans hversion⟩

theorem Retains.observersOf (h : store.Retains after) (name : String) :
    after.observersOf name = store.observersOf name := by
  rw [Store.observersOf, h.subscriptions, Store.observersOf]

theorem Retains.has (h : store.Retains after) (hname : store.has name = true) :
    after.has name = true := by
  obtain ⟨v, hv⟩ := Option.isSome_iff_exists.1 hname
  obtain ⟨w, hw, -⟩ := h.places name v hv
  rw [Store.has, hw]
  rfl

/-- A write keeps all variables, their bounds and their observers. -/
theorem retains_of_write (h : store.write name x = .ok (after, write)) : store.Retains after := by
  refine ⟨(writes_of_write h).subscriptions, fun other v hv => ?_⟩
  by_cases hother : other = name
  · subst hother
    obtain ⟨y, -, rfl⟩ | ⟨y, -, rfl⟩ := write_known h hv
    · exact ⟨v, hv, rfl⟩
    · exact ⟨_, find?_assign_self hv y, rfl⟩
  · exact ⟨v, by rw [(writes_of_write h).others other hother, hv], rfl⟩

end Known

end EventDeck.Store
