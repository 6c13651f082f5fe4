import EventDeck.Deck.Validation
import EventDeck.Proofs.Decimal.Order
import EventDeck.Proofs.Store
import Mathlib.Data.List.Nodup

/-!
# Bounds

Whatever is written to a bounded variable, its value is not below zero and not above the maximum.
This leaves one way out of the bounds: not-a-number is neither, and it passes the bounds as it is.  So
a variable is within its bounds unless the latest number that was written to it is not a number, or
its maximum is not (`Store.bounds_of_writeAll`).
-/

namespace EventDeck

open Decimal Variable

/-! ## One variable -/

namespace Variable

variable {v : Variable} {x : Float}

/-- The value is not out of the bounds on either side. -/
structure Confined (v : Variable) : Prop where
  max : ¬v.max < 0.0
  low : ¬v.value < 0.0
  high : ¬v.max < v.value

/-- The value is within the bounds. -/
def InBounds (v : Variable) : Prop :=
  0.0 ≤ v.value ∧ v.value ≤ v.max

theorem isNaN_zero : (0.0 : Float).isNaN = false := by decide

/-- A value that is not out of the bounds is within them unless one of them is not a number. -/
theorem Confined.inBounds_iff (h : v.Confined) :
    v.InBounds ↔ v.max.isNaN = false ∧ v.value.isNaN = false := by
  rw [InBounds, le_iff, le_iff]
  constructor
  · rintro ⟨-, hvalue, hmax, -⟩
    exact ⟨hmax, hvalue⟩
  · rintro ⟨hmax, hvalue⟩
    exact ⟨⟨isNaN_zero, hvalue, h.low⟩, hvalue, hmax, h.high⟩

/-- What stands for a value within the bounds of a variable: itself, zero or the maximum. -/
theorem clamp_cases (hbounded : v.bounded) (hmax : ¬v.max < 0.0) (x : Float) :
    (v.clamp x = x ∧ ¬x < 0.0 ∧ ¬v.max < x) ∨ (v.clamp x = 0.0 ∧ x < 0.0) ∨
      (v.clamp x = v.max ∧ v.max < x) := by
  rw [clamp, place, hbounded]
  by_cases hlow : x < 0.0
  · simp [hlow, hmax]
  · by_cases hhigh : v.max < x <;> simp [hlow, hhigh]

theorem confined_clamp (hbounded : v.bounded) (hmax : ¬v.max < 0.0) (x : Float) :
    Confined { v with value := v.clamp x } := by
  refine ⟨hmax, ?_, ?_⟩
  · change ¬v.clamp x < 0.0
    rcases clamp_cases hbounded hmax x with ⟨h, hlow, -⟩ | ⟨h, -⟩ | ⟨h, -⟩ <;> rw [h]
    · exact hlow
    · exact not_lt_self _
    · exact hmax
  · change ¬v.max < v.clamp x
    rcases clamp_cases hbounded hmax x with ⟨h, -, hhigh⟩ | ⟨h, -⟩ | ⟨h, -⟩ <;> rw [h]
    · exact hhigh
    · exact hmax
    · exact not_lt_self _

/-- Not-a-number stands for itself, and for nothing else. -/
theorem isNaN_clamp (hbounded : v.bounded) (hmax : ¬v.max < 0.0) (x : Float) :
    (v.clamp x).isNaN = x.isNaN := by
  rcases clamp_cases hbounded hmax x with ⟨h, -⟩ | ⟨h, hlow⟩ | ⟨h, hhigh⟩ <;> rw [h]
  · rw [isNaN_zero, (not_isNaN_of_lt hlow).1]
  · obtain ⟨hmax, hx⟩ := not_isNaN_of_lt hhigh
    rw [hmax, hx]

end Variable

/-- Not-a-number counts as equal to nothing. -/
theorem Tolerance.not_equates_of_isNaN (tolerance : Tolerance) {x y : Float}
    (h : x.isNaN ∨ y.isNaN) : tolerance.equates x y = false := by
  have hdistance : (y - x).abs.isNaN := isNaN_abs (isNaN_sub h.symm)
  have hfar : ∀ bound : Float, ¬(y - x).abs ≤ bound := fun bound hle => by
    rw [(le_iff.mp hle).1] at hdistance
    cases hdistance
  rw [equates, not_beq_of_isNaN h]
  simp [hfar]

/-! ## Writes, one after the other -/

namespace Store

variable {store before between after : Store} {name : String} {x : Float} {v : Variable}

/-- The store after some writes. -/
def writeAll (writes : List (String × Float)) (store : Store) : Except Fault Store :=
  writes.foldlM (fun store write => Prod.fst <$> store.write write.1 write.2) store

/-- The latest number that was written to a name, after a first one. -/
def latest (name : String) (first : Float) (writes : List (String × Float)) : Float :=
  writes.foldl (fun x write => if write.1 = name then write.2 else x) first

/-- Names are unique, and no value of a bounded variable is out of its bounds. -/
structure Sound (store : Store) : Prop where
  distinct : store.names.Nodup
  confined : ∀ v ∈ store.vars, v.bounded → v.Confined

/-- Where bounded variables come from by some writes: they were there with their names and maxima, and
a value is not a number exactly when the latest number is not. -/
def Traces (writes : List (String × Float)) (before after : Store) : Prop :=
  ∀ v ∈ after.vars, v.bounded → ∃ u ∈ before.vars, u.name = v.name ∧ u.max = v.max ∧
    v.value.isNaN = (latest u.name u.value writes).isNaN

/-- A variable is found by its name. -/
theorem Sound.eq_of_find? (h : store.Sound) (hfind : store.find? name = some v) {u : Variable}
    (hu : u ∈ store.vars) (hname : u.name = name) : u = v := by
  have hsame := name_of_find? hfind
  exact List.inj_on_of_nodup_map h.distinct hu (List.mem_of_find?_eq_some hfind)
    (hname.trans hsame.symm)

theorem latest_singleton_of_eq (h : name = v.name) (first : Float) :
    latest v.name first [(name, x)] = x :=
  if_pos h

theorem latest_singleton_of_ne (h : name ≠ v.name) (first : Float) :
    latest v.name first [(name, x)] = first :=
  if_neg h

/-! ### What a write may come to -/

theorem Sound.append (h : store.Sound) (hfind : store.find? v.name = none)
    (hbounded : v.bounded → v.Confined) : (store.append v).Sound where
  distinct := by
    have hnew : v.name ∉ store.names := by
      intro hmem
      obtain ⟨u, hu, hsame⟩ := List.mem_map.mp hmem
      exact List.find?_eq_none.mp hfind u hu (decide_eq_true hsame)
    have hnames : (store.append v).names = store.names.concat v.name := by
      rw [names, names, Store.append, List.map_append, List.concat_eq_append]
      rfl
    rw [hnames]
    exact h.distinct.concat hnew
  confined u hu hu' := by
    rcases List.mem_append.mp hu with hold | hnew
    · exact h.confined u hold hu'
    · obtain rfl := List.mem_singleton.mp hnew
      exact hbounded hu'

/-- A variable that is created by a write has no bounds. -/
theorem not_bounded_new (name : String) (x : Float) :
    ¬({ name, value := x } : Variable).bounded := by
  change ¬(unbounded != unbounded) = true
  decide

theorem traces_append (hfind : store.find? name = none) :
    Traces [(name, x)] store (store.append { name, value := x }) := by
  intro u hu hbounded
  rcases List.mem_append.mp hu with hold | hnew
  · have hne : name ≠ u.name := fun hsame =>
      List.find?_eq_none.mp hfind u hold (decide_eq_true hsame.symm)
    exact ⟨u, hold, rfl, rfl, congrArg Float.isNaN (latest_singleton_of_ne hne _).symm⟩
  · obtain rfl := List.mem_singleton.mp hnew
    exact absurd hbounded (not_bounded_new name x)

theorem Sound.traces_kept {tolerance : Tolerance} (h : store.Sound)
    (hfind : store.find? name = some v) (hequal : tolerance.equates v.value (v.clamp x)) :
    Traces [(name, x)] store store := by
  intro u hu hbounded
  refine ⟨u, hu, rfl, rfl, ?_⟩
  by_cases hsame : name = u.name
  · obtain rfl := h.eq_of_find? hfind hu hsame.symm
    -- numbers within a tolerance of one another are numbers
    have hnumbers : ¬(u.value.isNaN ∨ (u.clamp x).isNaN) := fun hnan => by
      rw [Tolerance.not_equates_of_isNaN _ hnan] at hequal
      cases hequal
    rw [isNaN_clamp hbounded (h.confined u hu hbounded).max, not_or, Bool.not_eq_true,
      Bool.not_eq_true] at hnumbers
    rw [latest_singleton_of_eq hsame, hnumbers.1, hnumbers.2]
  · rw [latest_singleton_of_ne hsame]

/-- A variable of a store in which a name was given a value is another one, or the one of that name. -/
theorem Sound.mem_assign (h : store.Sound) (hfind : store.find? name = some v) {w : Variable}
    (hw : w ∈ (store.assign name x).vars) :
    (w ∈ store.vars ∧ name ≠ w.name) ∨ w = { v with value := x } := by
  obtain ⟨u, hu, rfl⟩ := List.mem_map.mp hw
  by_cases hsame : u.name = name
  · obtain rfl := h.eq_of_find? hfind hu hsame
    exact .inr (if_pos hsame)
  · rw [if_neg hsame]
    exact .inl ⟨hu, Ne.symm hsame⟩

theorem Sound.assign (h : store.Sound) (hfind : store.find? name = some v)
    (hbounded : v.bounded → Confined { v with value := x }) : (store.assign name x).Sound where
  distinct := by
    have hnames : (store.assign name x).names = store.names := by
      rw [names, names, Store.assign, List.map_map]
      refine List.map_congr_left fun u _ => ?_
      change (if u.name = name then _ else u).name = u.name
      split <;> rfl
    exact hnames ▸ h.distinct
  confined w hw hw' := by
    rcases h.mem_assign hfind hw with ⟨hmem, -⟩ | rfl
    · exact h.confined w hmem hw'
    · exact hbounded hw'

theorem Sound.traces_assign (h : store.Sound) (hfind : store.find? name = some v) :
    Traces [(name, x)] store (store.assign name (v.clamp x)) := by
  have hmem : v ∈ store.vars := List.mem_of_find?_eq_some hfind
  have hname := name_of_find? hfind
  intro w hw hbounded
  rcases h.mem_assign hfind hw with ⟨hother, hne⟩ | rfl
  · exact ⟨w, hother, rfl, rfl, congrArg Float.isNaN (latest_singleton_of_ne hne _).symm⟩
  · refine ⟨v, hmem, rfl, rfl, ?_⟩
    rw [latest_singleton_of_eq hname.symm]
    exact isNaN_clamp hbounded (h.confined v hmem hbounded).max x

/-- A write leaves no bounded value out of its bounds, and makes one not-a-number exactly when it
writes that. -/
theorem Sound.of_write {write : Write} (h : store.Sound)
    (hwrite : store.write name x = .ok (after, write)) :
    after.Sound ∧ Traces [(name, x)] store after := by
  unfold Store.write at hwrite
  -- a new variable is not bounded; a known one is refused, kept or clamped
  cases hfind : store.find? name with
  | none =>
    rw [hfind] at hwrite
    cases hwrite
    exact ⟨h.append hfind fun hbounded => absurd hbounded (not_bounded_new name x),
      traces_append hfind⟩
  | some v =>
    have hmem : v ∈ store.vars := List.mem_of_find?_eq_some hfind
    rw [hfind] at hwrite
    dsimp only at hwrite
    split at hwrite
    next => cases hwrite
    next =>
      split at hwrite
      next hequal =>
        cases hwrite
        exact ⟨h, h.traces_kept hfind hequal⟩
      next =>
        cases hwrite
        have hclamped : v.bounded → Confined { v with value := v.clamp x } := fun hbounded =>
          confined_clamp hbounded (h.confined v hmem hbounded).max x
        exact ⟨h.assign hfind hclamped, h.traces_assign hfind⟩

/-! ### All writes -/

/-- Whether the latest number is one depends on no more of the first than whether it is one. -/
theorem isNaN_latest_congr {first other : Float} (h : first.isNaN = other.isNaN)
    (writes : List (String × Float)) :
    (latest name first writes).isNaN = (latest name other writes).isNaN := by
  induction writes generalizing first other with
  | nil => exact h
  | cons write writes ih =>
    refine ih ?_
    dsimp only
    split
    · rfl
    · exact h

theorem Traces.trans {early late : List (String × Float)} (first : Traces early before between)
    (second : Traces late between after) : Traces (early ++ late) before after := by
  intro w hw hbounded
  obtain ⟨v, hv, hname, hmax, hlate⟩ := second w hw hbounded
  have hv' : v.bounded := by rwa [Variable.bounded, hmax]
  obtain ⟨u, hu, hname', hmax', hearly⟩ := first v hv hv'
  refine ⟨u, hu, hname'.trans hname, hmax'.trans hmax, ?_⟩
  rw [latest, List.foldl_append, hlate, ← hname']
  exact isNaN_latest_congr hearly late

theorem Sound.of_writeAll {writes : List (String × Float)} (h : before.Sound)
    (hwrites : before.writeAll writes = .ok after) : after.Sound ∧ Traces writes before after := by
  induction writes generalizing before with
  | nil =>
    cases hwrites
    exact ⟨h, fun v hv _ => ⟨v, hv, rfl, rfl, rfl⟩⟩
  | cons write writes ih =>
    obtain ⟨name, x⟩ := write
    rw [writeAll, List.foldlM_cons] at hwrites
    rcases hwrite : before.write name x with fault | ⟨between, outcome⟩
    · rw [hwrite] at hwrites
      cases hwrites
    · rw [hwrite] at hwrites
      obtain ⟨hbetween, hfirst⟩ := h.of_write hwrite
      obtain ⟨hafter, hrest⟩ := ih hbetween hwrites
      exact ⟨hafter, hfirst.trans hrest⟩

theorem writeAll_append {early late : List (String × Float)}
    (hearly : before.writeAll early = .ok between) (hlate : between.writeAll late = .ok after) :
    before.writeAll (early ++ late) = .ok after := by
  rw [writeAll, List.foldlM_append]
  change (before.writeAll early >>= _) = _
  rw [hearly]
  exact hlate

/-- Writes take no bounded variable out of its bounds but with a number that is none: afterwards one is
within them exactly when neither its maximum nor the latest number written to it is not-a-number. -/
theorem Sound.inBounds_iff {writes : List (String × Float)} (h : before.Sound)
    (hwrites : before.writeAll writes = .ok after) (hv : v ∈ after.vars) (hbounded : v.bounded) :
    ∃ u ∈ before.vars, u.name = v.name ∧ u.max = v.max ∧
      (v.InBounds ↔ v.max.isNaN = false ∧ (latest u.name u.value writes).isNaN = false) := by
  obtain ⟨hafter, htraces⟩ := h.of_writeAll hwrites
  obtain ⟨u, hu, hname, hmax, hvalue⟩ := htraces v hv hbounded
  refine ⟨u, hu, hname, hmax, ?_⟩
  rw [(hafter.confined v hv hbounded).inBounds_iff, hvalue]

end Store

/-! ## Declarations -/

/-- The variable that is declared. -/
def Declaration.variable (d : Declaration) : Variable :=
  let fresh : Variable := { name := d.name, max := d.max }
  { fresh with value := fresh.clamp d.value }

theorem Declaration.confined (d : Declaration) (hmax : (d.max != -1.0 && d.max < 0.0) = false)
    (hbounded : d.variable.bounded) : d.variable.Confined := by
  have hnegative : ¬d.max < 0.0 := fun hlt => by
    have hunbounded : (d.max != -1.0) = true := hbounded
    rw [hunbounded, decide_eq_true hlt] at hmax
    cases hmax
  exact confined_clamp hbounded hnegative d.value

namespace Deck

variable {deck : Deck}

theorem errors_gather {α : Type} (parts : List α) (find : α → Findings) :
    (Findings.gather parts find).errors = parts.flatMap fun part => (find part).errors := by
  have hfold : ∀ findings : Findings,
      (parts.foldl (fun findings part => findings ++ find part) findings).errors =
        findings.errors ++ parts.flatMap fun part => (find part).errors := by
    induction parts with
    | nil => simp
    | cons part parts ih =>
      intro findings
      rw [List.foldl_cons, ih, List.flatMap_cons, ← List.append_assoc]
      rfl
  exact (hfold {}).trans (List.nil_append _)

/-- Names of which none is found twice are unique. -/
theorem nodup_of_checkUnique {kind : String} {names : List String}
    (h : (checkUnique kind names).errors = []) : names.Nodup := by
  rw [checkUnique, errors_gather, List.flatMap_eq_nil_iff] at h
  rw [List.nodup_iff_count_le_one]
  intro name
  by_contra hcount
  have hmem : name ∈ names := List.count_pos_iff.mp (by omega)
  have hrepeated : name ∈ repeated names :=
    List.mem_filter.mpr ⟨List.mem_eraseDups.mpr hmem, decide_eq_true (by omega)⟩
  exact List.cons_ne_nil _ _ (h name hrepeated)

theorem errors_append (first second : Findings) :
    (first ++ second).errors = first.errors ++ second.errors := rfl

/-- The variables of a deck without errors have different names, and no negative maximum. -/
theorem declarations_of_errors (h : deck.findings.errors = []) :
    (deck.declarations.map (·.name)).Nodup ∧
      ∀ d ∈ deck.declarations, (d.max != -1.0 && d.max < 0.0) = false := by
  simp only [findings, errors_append, List.append_eq_nil_iff] at h
  obtain ⟨⟨⟨⟨⟨⟨-, hunique⟩, -⟩, hdeclarations⟩, -⟩, -⟩, -⟩ := h
  refine ⟨nodup_of_checkUnique hunique, fun d hd => ?_⟩
  rw [errors_gather, List.flatMap_eq_nil_iff] at hdeclarations
  have hchecked := (List.append_eq_nil_iff.mp (hdeclarations d hd)).2
  by_contra hnegative
  rw [Bool.not_eq_false] at hnegative
  rw [hnegative] at hchecked
  exact List.cons_ne_nil _ _ hchecked

end Deck

namespace Store

variable {store : Store} {declarations : List Declaration}

theorem define_eq_append (d : Declaration) (h : d.name ∉ store.names) :
    store.define d.name d.value d.max = store.append d.variable := by
  have hfind : store.find? d.name = none := List.find?_eq_none.mpr fun v hv hsame =>
    h (List.mem_map.mpr ⟨v, hv, of_decide_eq_true hsame⟩)
  rw [define, hfind]
  rfl

/-- Declared with different names, all variables are there in their order. -/
theorem vars_declared (h : (store.names ++ declarations.map (·.name)).Nodup) :
    (declarations.foldl (fun store d => store.define d.name d.value d.max) store).vars =
      store.vars ++ declarations.map (·.variable) := by
  induction declarations generalizing store with
  | nil => rw [List.foldl_nil, List.map_nil, List.append_nil]
  | cons d declarations ih =>
    have hnew : d.name ∉ store.names := fun hmem =>
      List.disjoint_of_nodup_append h hmem List.mem_cons_self
    have hnames : (store.append d.variable).names = store.names ++ [d.name] :=
      List.map_append
    rw [List.foldl_cons, define_eq_append d hnew, ih, append, List.append_assoc]
    · rfl
    · rw [hnames, List.append_assoc]
      exact h

/-- The variables of a deck without errors are sound, whatever their values and maxima are. -/
theorem sound_declared {deck : Deck} (h : deck.findings.errors = []) {store : Store}
    (hstore : store.vars = deck.declarations.map (·.variable)) : store.Sound := by
  obtain ⟨hnames, hmax⟩ := Deck.declarations_of_errors h
  constructor
  · rw [names, hstore, List.map_map]
    exact hnames
  · intro v hv hbounded
    rw [hstore] at hv
    obtain ⟨d, hd, rfl⟩ := List.mem_map.mp hv
    exact d.confined (hmax d hd) hbounded

/-- Some writes after the declarations, a bounded variable is within its bounds exactly when neither
its maximum nor the latest number for it is not-a-number, the declared value being the first. -/
theorem inBounds_declared_iff {deck : Deck} {store after : Store} {v : Variable}
    {writes : List (String × Float)} (h : deck.findings.errors = [])
    (hstore : store.vars = deck.declarations.map (·.variable))
    (hwrites : store.writeAll writes = .ok after) (hv : v ∈ after.vars) (hbounded : v.bounded) :
    ∃ d ∈ deck.declarations, d.name = v.name ∧ d.max = v.max ∧
      (v.InBounds ↔ d.max.isNaN = false ∧ (latest d.name d.value writes).isNaN = false) := by
  obtain ⟨u, hu, hname, hmax, hiff⟩ := (sound_declared h hstore).inBounds_iff hwrites hv hbounded
  rw [hstore] at hu
  obtain ⟨d, hd, rfl⟩ := List.mem_map.mp hu
  have hbounded' : d.variable.bounded := by rwa [Variable.bounded, hmax]
  have hconfined := (sound_declared h hstore).confined _ (hstore ▸ hu) hbounded'
  refine ⟨d, hd, hname, hmax, ?_⟩
  have hfirst : d.variable.value.isNaN = d.value.isNaN := isNaN_clamp hbounded' hconfined.max d.value
  rw [hiff, ← hmax, isNaN_latest_congr hfirst]
  rfl

end Store

end EventDeck
