import ToolLint.Check.Basic

/-!
# How activities are put together

What several activities cause one after the other: all of it, if each of them
comes to its end (`each_eq`), and else what comes before the failure
(`andThen_cases`). A part that reports nothing is quiet, and a part that always
comes to its end cannot fail after its report. An activity that first finds out
and then reports is put together from two such parts, so nothing is reported if
it fails (`AllOrNothing`). What is put together fails for the reasons of its
parts (`FaultsIn`), and it comes to its end only if they do.
-/

namespace ToolLint

namespace Activity

/-- If every single activity comes to its end, so do all of them together. -/
theorem each_eq {α β : Type} {f : α → Activity β} {events : α → List Event}
    {value : α → β} {as : List α}
    (h : ∀ a ∈ as, f a = ⟨events a, .ok (value a)⟩) :
    each f as = ⟨as.flatMap events, .ok (as.map value)⟩ := by
  induction as with
  | nil => rfl
  | cons a as ih =>
      rw [each, h a List.mem_cons_self,
        ih fun b hb => h b (List.mem_cons_of_mem a hb)]
      rfl

theorem each_congr {α β : Type} {f g : α → Activity β} {as : List α}
    (h : ∀ a ∈ as, f a = g a) : each f as = each g as := by
  induction as with
  | nil => rfl
  | cons a as ih =>
      rw [each, each, h a List.mem_cons_self,
        ih fun b hb => h b (List.mem_cons_of_mem a hb)]

end Activity

namespace Event

theorem calls_append (es fs : List Event) :
    calls (es ++ fs) = calls es ++ calls fs :=
  List.filterMap_append

theorem reports_append (es fs : List Event) :
    reports (es ++ fs) = reports es ++ reports fs :=
  List.filterMap_append

theorem calls_map_call (cs : List (List Text)) : calls (cs.map .call) = cs := by
  rw [calls, List.filterMap_map]
  exact List.filterMap_some

theorem reports_map_report (rs : List Report.Entry) :
    reports (rs.map .report) = rs := by
  rw [reports, List.filterMap_map]
  exact List.filterMap_some

theorem calls_map_report (rs : List Report.Entry) :
    calls (rs.map .report) = [] := by
  rw [calls, List.filterMap_map]
  exact List.filterMap_eq_nil_iff.mpr fun _ _ => rfl

theorem reports_map_call (cs : List (List Text)) :
    reports (cs.map .call) = [] := by
  rw [reports, List.filterMap_map]
  exact List.filterMap_eq_nil_iff.mpr fun _ _ => rfl

end Event

namespace Activity

variable {α β : Type}

/-! ## What one activity after another can do -/

/-- Either the first activity fails and the second one is not begun, or both
take place. -/
theorem andThen_cases (x : Activity α) (f : α → Activity β) :
    (∃ e, x.result = .error e ∧ x.andThen f = ⟨x.events, .error e⟩) ∨
      ∃ a, x.result = .ok a ∧
        x.andThen f = ⟨x.events ++ (f a).events, (f a).result⟩ := by
  unfold andThen
  cases x.result with
  | error e => exact Or.inl ⟨e, rfl, rfl⟩
  | ok a => exact Or.inr ⟨a, rfl, rfl⟩

/-! ## Nothing is reported -/

/-- Nothing is reported. -/
def Quiet (x : Activity α) : Prop := Event.reports x.events = []

theorem quiet_done (a : α) : (done a).Quiet := rfl

theorem quiet_fail (f : Fault) : (fail f : Activity α).Quiet := rfl

theorem quiet_log (e : Log.Entry) : (log e).Quiet := rfl

theorem quiet_ofExcept (r : Except Error α) : (ofExcept r).Quiet := by
  cases r with
  | error e => exact quiet_fail _
  | ok a => exact quiet_done a

theorem quiet_panicIf (reason : Option Text) : (panicIf reason).Quiet := by
  cases reason with
  | none => exact quiet_done ()
  | some v => exact quiet_fail _

theorem Quiet.during {x : Activity α} (hx : x.Quiet) (step : Error → Error) :
    (x.during step).Quiet :=
  hx

theorem Quiet.andThen {x : Activity α} {f : α → Activity β} (hx : x.Quiet)
    (hf : ∀ a, (f a).Quiet) : (x.andThen f).Quiet := by
  rcases andThen_cases x f with ⟨e, -, heq⟩ | ⟨a, -, heq⟩
  · rw [heq]
    exact hx
  · rw [heq]
    show Event.reports (x.events ++ (f a).events) = []
    rw [Event.reports_append, hx, hf a, List.append_nil]

theorem quiet_each {f : α → Activity β} {as : List α}
    (h : ∀ a ∈ as, (f a).Quiet) : (each f as).Quiet := by
  induction as with
  | nil => exact quiet_done []
  | cons a as ih =>
      have hrest : (each f as).Quiet :=
        ih fun b hb => h b (List.mem_cons_of_mem a hb)
      exact (h a List.mem_cons_self).andThen fun b => hrest

/-! ## Nothing is reported before a failure -/

/-- Nothing is reported unless the activity comes to its end. -/
def AllOrNothing (x : Activity α) : Prop := ∀ f, x.result = .error f → x.Quiet

def Ends (x : Activity α) : Prop := ∃ a, x.result = .ok a

theorem ends_done (a : α) : (done a).Ends := ⟨a, rfl⟩

theorem ends_report (e : Report.Entry) : (report e).Ends := ⟨(), rfl⟩

theorem Ends.ite {p : Prop} [Decidable p] {x y : Activity α} (hx : x.Ends)
    (hy : y.Ends) : (if p then x else y).Ends := by
  split
  · exact hx
  · exact hy

theorem Ends.andThen {x : Activity α} {f : α → Activity β} (hx : x.Ends)
    (hf : ∀ a, (f a).Ends) : (x.andThen f).Ends := by
  obtain ⟨a, ha⟩ := hx
  rcases andThen_cases x f with ⟨e, he, -⟩ | ⟨b, -, heq⟩
  · rw [ha] at he
    cases he
  · rw [heq]
    exact hf b

theorem ends_each {f : α → Activity β} (h : ∀ a, (f a).Ends) (as : List α) :
    (each f as).Ends := by
  induction as with
  | nil => exact ends_done []
  | cons a as ih =>
      obtain ⟨bs, hbs⟩ := ih
      refine (h a).andThen fun b => ⟨b :: bs, ?_⟩
      show (each f as).result.map (b :: ·) = .ok (b :: bs)
      rw [hbs]
      rfl

theorem Quiet.allOrNothing {x : Activity α} (hx : x.Quiet) : x.AllOrNothing :=
  fun _ _ => hx

theorem Ends.allOrNothing {x : Activity α} (hx : x.Ends) : x.AllOrNothing := by
  intro f hf
  obtain ⟨a, ha⟩ := hx
  rw [ha] at hf
  cases hf

/-- First find out, then report. -/
theorem Quiet.andThen_allOrNothing {x : Activity α} {f : α → Activity β}
    (hx : x.Quiet) (hf : ∀ a, (f a).AllOrNothing) :
    (x.andThen f).AllOrNothing := by
  intro e he
  rcases andThen_cases x f with ⟨e', -, heq⟩ | ⟨a, -, heq⟩
  · rw [heq]
    exact hx
  · rw [heq] at he ⊢
    show Event.reports (x.events ++ (f a).events) = []
    rw [Event.reports_append, hx, hf a e he, List.append_nil]

/-! ## The faults of an activity -/

/-- If the activity does not come to its end, it is for one of the reasons that
`P` allows. -/
def FaultsIn (P : Fault → Prop) (x : Activity α) : Prop :=
  ∀ f, x.result = .error f → P f

theorem faultsIn_fail {P : Fault → Prop} {f : Fault} (hf : P f) :
    (fail f : Activity α).FaultsIn P := by
  rintro _ ⟨rfl⟩
  exact hf

theorem Ends.faultsIn {P : Fault → Prop} {x : Activity α} (hx : x.Ends) :
    x.FaultsIn P := by
  intro f hf
  obtain ⟨a, ha⟩ := hx
  rw [ha] at hf
  cases hf

theorem FaultsIn.andThen {P : Fault → Prop} {x : Activity α}
    {f : α → Activity β} (hx : x.FaultsIn P) (hf : ∀ a, (f a).FaultsIn P) :
    (x.andThen f).FaultsIn P := by
  intro fault hfault
  rcases andThen_cases x f with ⟨e, he, heq⟩ | ⟨a, -, heq⟩
  · rw [heq] at hfault
    obtain rfl : e = fault := Except.error.inj hfault
    exact hx e he
  · rw [heq] at hfault
    exact hf a fault hfault

theorem faultsIn_each {P : Fault → Prop} {f : α → Activity β} {as : List α}
    (h : ∀ a ∈ as, (f a).FaultsIn P) : (each f as).FaultsIn P := by
  induction as with
  | nil => exact (ends_done []).faultsIn
  | cons a as ih =>
      have hrest := ih fun b hb => h b (List.mem_cons_of_mem a hb)
      refine (h a List.mem_cons_self).andThen fun b fault hfault => hrest fault ?_
      -- The value of `a` in front of the others does not make a fault out of
      -- them.
      have hfault : (each f as).result.map (b :: ·) = .error fault := hfault
      cases hresult : (each f as).result with
      | error e =>
          rw [hresult] at hfault
          exact hfault
      | ok bs =>
          rw [hresult] at hfault
          cases hfault

/-! ### Errors -/

/-- If the activity ends with an error, it is one of those that `P` allows. -/
def ErrorsIn (P : Error → Prop) (x : Activity α) : Prop :=
  ∀ e, x.result = .error (.error e) → P e

theorem errorsIn_iff {P : Error → Prop} {x : Activity α} :
    x.ErrorsIn P ↔ x.FaultsIn fun f => ∀ e, f = .error e → P e := by
  constructor
  · rintro h f hf e rfl
    exact h e hf
  · intro h e he
    exact h _ he e rfl

theorem errorsIn_during (step : Error → Error) (x : Activity α) :
    (x.during step).ErrorsIn fun e => ∃ cause, e = step cause := by
  rcases x with ⟨es, (e | v) | a⟩
  · rintro e' h
    obtain rfl : step e = e' := by simpa [during] using h
    exact ⟨e, rfl⟩
  · rintro e' h
    cases h
  · rintro e' h
    cases h

theorem Ends.errorsIn {P : Error → Prop} {x : Activity α} (hx : x.Ends) :
    x.ErrorsIn P :=
  errorsIn_iff.mpr hx.faultsIn

theorem ErrorsIn.andThen {P : Error → Prop} {x : Activity α}
    {f : α → Activity β} (hx : x.ErrorsIn P) (hf : ∀ a, (f a).ErrorsIn P) :
    (x.andThen f).ErrorsIn P :=
  errorsIn_iff.mpr ((errorsIn_iff.mp hx).andThen fun a => errorsIn_iff.mp (hf a))

theorem errorsIn_each {P : Error → Prop} {f : α → Activity β}
    (h : ∀ a, (f a).ErrorsIn P) (as : List α) : (each f as).ErrorsIn P :=
  errorsIn_iff.mpr (faultsIn_each fun a _ => errorsIn_iff.mp (h a))

/-! ### Activities without a panic -/

/-- The activity does not panic. -/
def Calm (x : Activity α) : Prop := x.FaultsIn fun f => ∃ e, f = .error e

theorem calm_error (e : Error) : (error e : Activity α).Calm :=
  faultsIn_fail ⟨e, rfl⟩

theorem calm_ofExcept (r : Except Error α) : (ofExcept r).Calm := by
  cases r with
  | error e => exact calm_error e
  | ok a => exact (ends_done a).faultsIn

theorem Calm.faultsIn_during {x : Activity α} (hx : x.Calm)
    (step : Error → Error) :
    (x.during step).FaultsIn fun f => ∃ cause, f = .error (step cause) := by
  rcases x with ⟨es, (e | v) | a⟩
  · rintro _ ⟨rfl⟩
    exact ⟨e, rfl⟩
  · obtain ⟨e, he⟩ := hx (.panic v) rfl
    cases he
  · exact Ends.faultsIn ⟨a, rfl⟩

/-! ## What comes through -/

theorem result_andThen_of_error {x : Activity α} {f : α → Activity β}
    {fault : Fault} (h : x.result = .error fault) :
    (x.andThen f).result = .error fault := by
  unfold andThen
  rw [h]

theorem result_during_of_error {x : Activity α} {step : Error → Error}
    {e : Error} (h : x.result = .error (.error e)) :
    (x.during step).result = .error (.error (step e)) := by
  unfold during
  rw [h]

theorem result_andThen_eq_ok_iff {x : Activity α} {f : α → Activity β} {b : β} :
    (x.andThen f).result = .ok b ↔ ∃ a, x.result = .ok a ∧
      (f a).result = .ok b := by
  rcases andThen_cases x f with ⟨e, he, heq⟩ | ⟨a, ha, heq⟩
  · simp [heq, he]
  · simp [heq, ha]

theorem result_ofExcept_eq_ok_iff {r : Except Error α} {a : α} :
    (ofExcept r).result = .ok a ↔ r = .ok a := by
  cases r with
  | error e => simp [ofExcept, error, fail]
  | ok b => simp [ofExcept, done]

/-! ## What has to come to its end -/

theorem exists_fault_of_not_ends {x : Activity α} (h : ¬ x.Ends) :
    ∃ f, x.result = .error f := by
  cases hx : x.result with
  | error f => exact ⟨f, rfl⟩
  | ok a => exact absurd ⟨a, hx⟩ h

theorem Ends.of_andThen {x : Activity α} {f : α → Activity β}
    (h : (x.andThen f).Ends) : x.Ends := by
  obtain ⟨b, hb⟩ := h
  obtain ⟨a, ha, -⟩ := result_andThen_eq_ok_iff.mp hb
  exact ⟨a, ha⟩

theorem Ends.of_during {x : Activity α} {step : Error → Error}
    (h : (x.during step).Ends) : x.Ends := by
  rcases x with ⟨es, (e | v) | a⟩
  · obtain ⟨a, ha⟩ := h
    cases ha
  · obtain ⟨a, ha⟩ := h
    cases ha
  · exact ⟨a, rfl⟩

/-- All of them have come to their ends. -/
theorem Ends.of_each {f : α → Activity β} {as : List α} (h : (each f as).Ends) :
    ∀ a ∈ as, (f a).Ends := by
  induction as with
  | nil => exact List.forall_mem_nil _
  | cons a as ih =>
      rw [List.forall_mem_cons]
      refine ⟨h.of_andThen, ih ?_⟩
      obtain ⟨bs, hbs⟩ := h
      obtain ⟨b, -, hrest⟩ := result_andThen_eq_ok_iff.mp hbs
      have hrest : (each f as).result.map (b :: ·) = .ok bs := hrest
      cases hresult : (each f as).result with
      | error e =>
          rw [hresult] at hrest
          cases hrest
      | ok cs => exact ⟨cs, hresult⟩

end Activity

def Report.Entry.isCompare : Report.Entry → Bool
  | .compare _ _ => true
  | _ => false

namespace Check

/-- The members of a list for which the answer is no. -/
theorem filter_zip_map {α : Type} (f : α → Bool) (as : List α) :
    ((as.zip (as.map f)).filter fun e => !e.2).map Prod.fst = as.filter fun a =>
      !f a := by
  induction as with
  | nil => rfl
  | cons a as ih =>
      rw [List.map_cons, List.zip_cons_cons]
      cases hf : f a with
      | true => simp [hf, ih]
      | false => simp [hf, ih]

/-- A list is reported unless it has no items. -/
theorem list_eq (heading : Text) (items : List Text) :
    list heading items = ⟨if items = [] then [] else
      [.report (.list heading items)], .ok ()⟩ := by
  cases items <;> rfl

/-- A comparison is reported unless it has no rows. -/
theorem compare_eq (heading : Text) (rows : List Row) :
    compare heading rows = ⟨if rows = [] then [] else
      [.report (.compare heading rows)], .ok ()⟩ := by
  cases rows <;> rfl

end Check

end ToolLint
