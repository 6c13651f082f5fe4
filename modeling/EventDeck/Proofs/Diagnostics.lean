import EventDeck.Diagnostics
import Mathlib.Data.List.DropRight

/-!
# Marks

The sink drops its oldest entries when there are more than its limit allows, and counts all reports.
What was reported after a mark is found by the difference of two counts, among the last entries; there
may be fewer of these than were reported.  It comes to the last reports after the mark, as many as the
limit allows, whatever the sink had kept before (`since_reportAll`).

Reports in muted stretches are neither kept nor counted.  Whatever is done with a sink, it has made all
other reports in their order, as long as it is not cleared (`performAll_eq`).
-/

namespace EventDeck

/-- Something that is done with a sink, apart from looking at it. -/
inductive SinkAct
  | report (d : Diagnostic)
  | mute
  | unmute
  | clear

namespace Diagnostics

variable {sink : Diagnostics} {limit : Option Nat} {n : Nat} {reports xs ys : List Diagnostic}
  {acts : List SinkAct}

/-! ## The last entries -/

theorem lastOf_eq_reverse (n : Nat) (xs : List Diagnostic) :
    lastOf n xs = (xs.reverse.take n).reverse :=
  List.rtake_eq_reverse_take_reverse xs n

theorem lastOf_append_left (h : n ≤ ys.length) : lastOf n (xs ++ ys) = lastOf n ys := by
  rw [lastOf_eq_reverse, lastOf_eq_reverse, List.reverse_append,
    List.take_append_of_le_length (by simpa using h)]

theorem lastOf_lastOf_comm (m n : Nat) (xs : List Diagnostic) :
    lastOf m (lastOf n xs) = lastOf n (lastOf m xs) := by
  simp only [lastOf_eq_reverse, List.reverse_reverse, List.take_take, Nat.min_comm]

theorem lastOf_length (xs : List Diagnostic) : lastOf xs.length xs = xs := by
  rw [lastOf, Nat.sub_self, List.drop_zero]

theorem trimTo_nil (limit : Option Nat) : trimTo limit [] = [] := by
  cases limit <;> simp [trimTo, lastOf]

/-- Entries that are dropped early are dropped later anyway. -/
theorem trimTo_append (limit : Option Nat) (xs ys : List Diagnostic) :
    trimTo limit (trimTo limit xs ++ ys) = trimTo limit (xs ++ ys) := by
  cases limit with
  | none => rfl
  | some n =>
    simp only [trimTo, lastOf_eq_reverse, List.reverse_append, List.reverse_reverse, List.take_append,
      List.take_take, Nat.min_eq_left (Nat.sub_le n _)]

/-- The last entries of a sink, as many as were added, are those that were added. -/
theorem lastOf_trimTo (limit : Option Nat) (xs ys : List Diagnostic) :
    lastOf ys.length (trimTo limit (xs ++ ys)) = trimTo limit ys := by
  have hlast : lastOf ys.length (xs ++ ys) = ys := by
    rw [lastOf_append_left (Nat.le_refl _), lastOf_length]
  cases limit with
  | none => exact hlast
  | some n => rw [trimTo, lastOf_lastOf_comm, hlast, trimTo]

/-! ## Reports -/

/-- Every natural number is a limit, and a sink needs none. -/
theorem withLimit_ofNat (limit : Option Nat) :
    withLimit (limit.map Int.ofNat) = .ok ⟨limit, [], 0, 0⟩ := by
  cases limit with
  | none => rfl
  | some n =>
    have hnonneg : ¬Int.ofNat n < 0 := Int.not_lt.mpr (Int.natCast_nonneg n)
    rw [Option.map_some, withLimit, if_neg hnonneg]
    rfl

/-- The sink after some reports. -/
def reportAll (sink : Diagnostics) (reports : List Diagnostic) : Diagnostics :=
  reports.foldl report sink

theorem reportAll_append (sink : Diagnostics) (early late : List Diagnostic) :
    sink.reportAll (early ++ late) = (sink.reportAll early).reportAll late :=
  List.foldl_append

/-- Nothing is kept or counted by a sink that is muted. -/
theorem reportAll_of_muted (h : sink.muted ≠ 0) (reports : List Diagnostic) :
    sink.reportAll reports = sink := by
  induction reports with
  | nil => rfl
  | cons d reports ih =>
    have hdropped : sink.report d = sink := if_neg h
    rw [reportAll, List.foldl_cons, hdropped]
    exact ih

theorem report_of_unmuted (h : sink.muted = 0) (d : Diagnostic) :
    sink.report d = { sink with
      entries := trimTo sink.limit (sink.entries ++ [d]), reported := sink.reported + 1 } :=
  if_pos h

/-- What a sink that is not muted has counted, and what it keeps when more is reported. -/
structure Collects (sink : Diagnostics) (reports : List Diagnostic) (after : Diagnostics) : Prop where
  limit : after.limit = sink.limit
  muted : after.muted = 0
  reported : after.reported = sink.reported + reports.length
  entries : ∀ more, trimTo sink.limit (after.entries ++ more) =
    trimTo sink.limit (sink.entries ++ reports ++ more)

theorem collects_reportAll (h : sink.muted = 0) (reports : List Diagnostic) :
    sink.Collects reports (sink.reportAll reports) := by
  induction reports generalizing sink with
  | nil => exact ⟨rfl, h, rfl, fun more => by rw [List.append_nil]; rfl⟩
  | cons d reports ih =>
    have hreport := report_of_unmuted h d
    have hrest : (sink.report d).Collects reports (sink.reportAll (d :: reports)) :=
      ih (by rw [hreport]; exact h)
    rw [hreport] at hrest
    refine ⟨hrest.limit, hrest.muted, ?_, fun more => ?_⟩
    · rw [hrest.reported, List.length_cons]
      dsimp only
      omega
    · have hmore := hrest.entries more
      dsimp only at hmore
      rw [hmore, List.append_assoc, trimTo_append]
      simp

/-- The last report is kept with those before it. -/
theorem entries_reportAll (h : sink.muted = 0) (hnonempty : reports ≠ []) :
    (sink.reportAll reports).entries = trimTo sink.limit (sink.entries ++ reports) := by
  obtain ⟨early, d, rfl⟩ := (List.eq_nil_or_concat reports).resolve_left hnonempty
  have hearly := collects_reportAll h early
  have hlast : sink.reportAll (early ++ [d]) = (sink.reportAll early).report d :=
    reportAll_append sink early [d]
  rw [List.concat_eq_append, hlast, report_of_unmuted hearly.muted]
  dsimp only
  rw [hearly.limit, hearly.entries, List.append_assoc]

/-- What a mark finds are the last reports since then, as many as the limit allows. -/
theorem since_reportAll (h : sink.muted = 0) (reports : List Diagnostic) :
    (sink.reportAll reports).since sink.mark = trimTo sink.limit reports := by
  have hcount : ((sink.reportAll reports).reported - (sink.mark : Int)).toNat = reports.length := by
    rw [(collects_reportAll h reports).reported, mark]
    omega
  rw [since, hcount]
  by_cases hnone : reports = []
  · subst hnone
    simp [lastOf, trimTo_nil]
  · rw [entries_reportAll h hnone, lastOf_trimTo]

/-- An empty sink has the last reports, as many as the limit allows. -/
theorem entries_of_nil (h : sink.muted = 0) (hempty : sink.entries = []) (reports : List Diagnostic) :
    (sink.reportAll reports).entries = trimTo sink.limit reports := by
  by_cases hnone : reports = []
  · subst hnone
    exact hempty.trans (trimTo_nil _).symm
  · rw [entries_reportAll h hnone, hempty, List.nil_append]

/-! ## Muted stretches -/

/-- Does something with a sink. -/
def perform (sink : Diagnostics) : SinkAct → Diagnostics
  | .report d => sink.report d
  | .mute => sink.mute
  | .unmute => sink.unmute
  | .clear => sink.clear

/-- Does some things with a sink, one after the other. -/
def performAll (sink : Diagnostics) (acts : List SinkAct) : Diagnostics :=
  acts.foldl perform sink

/-- In how many muted stretches one is in the end; there may be some at the beginning. -/
def depthAfter : Nat → List SinkAct → Nat
  | depth, [] => depth
  | depth, .mute :: acts => depthAfter (depth + 1) acts
  | depth, .unmute :: acts => depthAfter (depth - 1) acts
  | depth, .report _ :: acts | depth, .clear :: acts => depthAfter depth acts

/-- The reports that are made outside of all muted stretches. -/
def audible : Nat → List SinkAct → List Diagnostic
  | _, [] => []
  | 0, .report d :: acts => d :: audible 0 acts
  | depth + 1, .report _ :: acts => audible (depth + 1) acts
  | depth, .mute :: acts => audible (depth + 1) acts
  | depth, .unmute :: acts => audible (depth - 1) acts
  | depth, .clear :: acts => audible depth acts

theorem performAll_append (sink : Diagnostics) (early late : List SinkAct) :
    sink.performAll (early ++ late) = (sink.performAll early).performAll late :=
  List.foldl_append

theorem limit_performAll (sink : Diagnostics) (acts : List SinkAct) :
    (sink.performAll acts).limit = sink.limit := by
  induction acts generalizing sink with
  | nil => rfl
  | cons act acts ih =>
    refine (ih (sink.perform act)).trans ?_
    cases act with
    | report d =>
      rw [perform, report]
      split <;> rfl
    | mute | unmute | clear => rfl

theorem muted_performAll (sink : Diagnostics) (acts : List SinkAct) :
    (sink.performAll acts).muted = depthAfter sink.muted acts := by
  induction acts generalizing sink with
  | nil => rfl
  | cons act acts ih =>
    refine (ih (sink.perform act)).trans ?_
    cases act with
    | report d =>
      have hmuted : (sink.report d).muted = sink.muted := by
        rw [report]
        split <;> rfl
      rw [perform, hmuted, depthAfter]
    | mute | unmute | clear => rfl

/-- As long as a sink is not cleared, it has made all reports outside of muted stretches. -/
theorem performAll_eq (sink : Diagnostics) (h : ∀ act ∈ acts, act ≠ .clear) :
    sink.performAll acts =
      { ({ sink with muted := 0 } : Diagnostics).reportAll (audible sink.muted acts) with
        muted := depthAfter sink.muted acts } := by
  induction acts generalizing sink with
  | nil => rfl
  | cons act acts ih =>
    obtain ⟨hfirst, hothers⟩ := List.forall_mem_cons.mp h
    refine (ih (sink.perform act) hothers).trans ?_
    cases act with
    | mute | unmute => rfl
    | clear => exact absurd rfl hfirst
    | report d =>
      -- a report is made when the sink is not muted, and only then is it audible
      rcases hmuted : sink.muted with _ | depth
      · have hreport := report_of_unmuted hmuted d
        have hopen : ({ sink with muted := 0 } : Diagnostics).report d =
            { sink.report d with muted := 0 } := by
          rw [hreport, report_of_unmuted rfl]
        have hkept : (sink.report d).muted = 0 := by rw [hreport, hmuted]
        rw [perform, hkept, ← hopen]
        rfl
      · have hdropped : sink.report d = sink := if_neg (by rw [hmuted]; omega)
        rw [perform, hdropped, hmuted]
        rfl

/-- Whatever was done before, a mark finds the reports made after it outside of muted stretches, the
last ones if there are more than the limit allows. -/
theorem since_performAll (sink : Diagnostics) (h : ∀ act ∈ acts, act ≠ .clear) :
    (sink.performAll acts).since sink.mark = trimTo sink.limit (audible sink.muted acts) := by
  have hopen : ({ sink with muted := 0 } : Diagnostics).muted = 0 := rfl
  rw [performAll_eq sink h]
  exact since_reportAll hopen (audible sink.muted acts)

/-- A sink that was cleared has the reports made afterwards. -/
theorem entries_performAll (hempty : sink.entries = []) (h : ∀ act ∈ acts, act ≠ .clear) :
    (sink.performAll acts).entries = trimTo sink.limit (audible sink.muted acts) := by
  have hopen : ({ sink with muted := 0 } : Diagnostics).muted = 0 := rfl
  rw [performAll_eq sink h]
  exact entries_of_nil hopen hempty (audible sink.muted acts)

/-- A sink is empty when it has just been made or cleared. -/
theorem entries_eq_nil {early : List SinkAct} (hempty : sink.entries = [])
    (hcleared : early = [] ∨ early.getLast? = some .clear) : (sink.performAll early).entries = [] := by
  rcases hcleared with rfl | hclear
  · exact hempty
  · obtain ⟨others, rfl⟩ := List.getLast?_eq_some_iff.mp hclear
    rw [performAll_append]
    rfl

end Diagnostics

end EventDeck
