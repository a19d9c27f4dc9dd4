import Mathlib.Data.List.Nodup
import PlusOne.Ledger.MonthlyPeriods

/-! # Runs of calls that resolve periods -/

namespace PlusOne

open Calendar Relational Transitions

/-! ## The table -/

theorem exists_month_of_calendarMonth {periodStart periodEnd : Int}
    (h : periodsCalendarMonth periodStart periodEnd = true) :
    ∃ day : Civil, day.Valid ∧ periodStart = day.monthStart.dayNumber ∧ periodEnd = day.monthEnd.dayNumber := by
  rw [periodsCalendarMonth, Bool.and_eq_true, beq_iff_eq, beq_iff_eq] at h
  obtain ⟨hstart, hend⟩ := h
  obtain ⟨hvalid, -⟩ := civil_valid periodStart
  refine ⟨civil periodStart, hvalid, hstart, ?_⟩
  rw [hend, monthEndOf, dateTruncMonth, civil_dayNumber hvalid.monthStart]
  exact Civil.dayNumber_nextMonth hvalid.monthStart

section Table

variable {periods : List MonthlyPeriodRow} {row other : MonthlyPeriodRow} {date : Int}

theorem PeriodsTable.periodStart_eq (h : PeriodsTable periods) (hrow : row ∈ periods) (hcontains : row.contains date) :
    row.periodStart = dateTruncMonth date := by
  obtain ⟨day, hvalid, hstart, hend⟩ := exists_month_of_calendarMonth (h.calendarMonth row hrow)
  obtain ⟨hle, hlt⟩ := hcontains
  obtain ⟨hdate, hnumber⟩ := civil_valid date
  rw [hstart, ← hnumber] at hle
  rw [hend, ← hnumber] at hlt
  obtain ⟨hyear, hmonth⟩ := hvalid.same_month hdate hle hlt
  rw [hstart, dateTruncMonth]
  simp only [Civil.dayNumber, Civil.monthStart, hyear, hmonth]

/-- A period that begins with the month of a day contains the day. -/
theorem PeriodsTable.contains_of_periodStart_eq (h : PeriodsTable periods) (hrow : row ∈ periods)
    (hstart : row.periodStart = dateTruncMonth date) : row.contains date := by
  obtain ⟨day, hvalid, hstart', hend⟩ := exists_month_of_calendarMonth (h.calendarMonth row hrow)
  obtain ⟨hdate, hnumber⟩ := civil_valid date
  have hfirst : day.monthStart = (civil date).monthStart := by
    rw [hstart', dateTruncMonth] at hstart
    have hcivil := congrArg civil hstart
    rwa [civil_dayNumber hvalid.monthStart, civil_dayNumber hdate.monthStart] at hcivil
  have hyear := congrArg Civil.year hfirst
  have hmonth := congrArg Civil.month hfirst
  simp only [Civil.monthStart] at hyear hmonth
  have hlast : day.monthEnd = (civil date).monthEnd := by
    simp only [Civil.monthEnd, hyear, hmonth]
  have hbetween := hdate.between
  rw [hnumber] at hbetween
  rw [MonthlyPeriodRow.contains, hstart', hend, hfirst, hlast]
  exact hbetween

theorem PeriodsTable.eq_of_periodStart (h : PeriodsTable periods) (hrow : row ∈ periods) (hother : other ∈ periods)
    (hbook : row.ofBook other.householdId other.bookId) (hstart : row.periodStart = other.periodStart) : row = other := by
  have hkey : row.monthKey = other.monthKey := by
    simp only [MonthlyPeriodRow.monthKey, hbook.1, hbook.2, hstart]
  exact List.inj_on_of_nodup_map h.month_unique hrow hother hkey

theorem PeriodsTable.eq_of_contains (h : PeriodsTable periods) (hrow : row ∈ periods) (hother : other ∈ periods)
    (hbook : row.ofBook other.householdId other.bookId) (hcontains : row.contains date)
    (hcontains' : other.contains date) : row = other :=
  h.eq_of_periodStart hrow hother hbook
    ((h.periodStart_eq hrow hcontains).trans (h.periodStart_eq hother hcontains').symm)

theorem PeriodsTable.find_eq_some (h : PeriodsTable periods) (hrow : row ∈ periods) (hcontains : row.contains date) :
    findPeriodIdForOccurredOn periods row.householdId row.bookId date = some row.periodId := by
  have hfilter : periods.filter (fun other => other.ofBook row.householdId row.bookId ∧ other.contains date) = [row] := by
    have hmem : row ∈ periods.filter fun other => other.ofBook row.householdId row.bookId ∧ other.contains date :=
      List.mem_filter.2 ⟨hrow, decide_eq_true ⟨⟨rfl, rfl⟩, hcontains⟩⟩
    have hall : ∀ other ∈ periods.filter fun other => other.ofBook row.householdId row.bookId ∧ other.contains date,
        other = row := by
      intro other hother
      obtain ⟨hother, hmatch⟩ := List.mem_filter.1 hother
      obtain ⟨hbook, hcontains'⟩ := of_decide_eq_true hmatch
      exact h.eq_of_contains hother hrow hbook hcontains' hcontains
    have hnodup := (h.month_unique.of_map _).filter fun other =>
      other.ofBook row.householdId row.bookId ∧ other.contains date
    generalize periods.filter (fun other => other.ofBook row.householdId row.bookId ∧ other.contains date) = rows at *
    match rows with
    | [] => simp at hmem
    | [other] => rw [hall other (by simp)]
    | other :: another :: rest =>
      rw [hall other (by simp), hall another (by simp)] at hnodup
      simp at hnodup
  rw [findPeriodIdForOccurredOn, hfilter]

theorem of_find_eq_some {householdId : HouseholdId} {bookId : BookId} {periodId : PeriodId}
    (h : findPeriodIdForOccurredOn periods householdId bookId date = some periodId) :
    ∃ row ∈ periods, row.ofBook householdId bookId ∧ row.periodId = periodId ∧ row.contains date := by
  unfold findPeriodIdForOccurredOn at h
  split at h
  · next row hfilter =>
    have hmem : row ∈ periods.filter fun row => row.ofBook householdId bookId ∧ row.contains date := by
      rw [hfilter]
      exact List.mem_singleton_self row
    obtain ⟨hrow, hmatch⟩ := List.mem_filter.1 hmem
    obtain ⟨hbook, hcontains⟩ := of_decide_eq_true hmatch
    exact ⟨row, hrow, hbook, Option.some.inj h, hcontains⟩
  · cases h

end Table

/-! ## Inserting -/

theorem distinct_append_singleton {R K : Type} {key : R → K} {rows : List R} {row : R} (h : Distinct key rows)
    (hnew : ∀ other ∈ rows, key other ≠ key row) : Distinct key (rows ++ [row]) := by
  rw [Distinct, List.map_append, List.map_singleton, List.nodup_append]
  refine ⟨h, List.nodup_singleton _, ?_⟩
  intro k hk k' hk'
  obtain ⟨other, hother, rfl⟩ := List.mem_map.1 hk
  rw [List.mem_singleton.1 hk']
  exact hnew other hother

/-- Whatever calls have inserted before, the insert of a month's row leaves one with its bounds. -/
theorem PeriodsTable.insertPeriod {books : List BookRow} {periods : List MonthlyPeriodRow} {row : MonthlyPeriodRow}
    (h : PeriodsTable periods) (hbook : ⟨row.householdId, row.bookId⟩ ∈ books)
    (hmonth : periodsCalendarMonth row.periodStart row.periodEnd = true)
    (hfresh : ∀ other ∈ periods, other.periodId ≠ row.periodId) :
    ∃ periods', insertPeriod books periods row = .ok periods' ∧ PeriodsTable periods' ∧ periods ⊆ periods' ∧
      (∀ other ∈ periods', other ∈ periods ∨ other = row) ∧
      ∃ other ∈ periods', other.ofBook row.householdId row.bookId ∧ other.periodStart = row.periodStart := by
  unfold PlusOne.insertPeriod
  rw [if_neg (by simpa using hbook), if_neg (by simp [hmonth])]
  by_cases hconflict : ∃ other ∈ periods, other.monthKey = row.monthKey
  · rw [if_pos hconflict]
    obtain ⟨other, hother, hkey⟩ := hconflict
    simp only [MonthlyPeriodRow.monthKey, Prod.mk.injEq] at hkey
    exact ⟨periods, rfl, h, List.Subset.refl _, fun other hother => .inl hother, other, hother, ⟨hkey.1, hkey.2.1⟩, hkey.2.2⟩
  · have hunique : ¬∃ other ∈ periods, other.periodId = row.periodId := by
      rintro ⟨other, hother, hsame⟩
      exact hfresh other hother hsame
    rw [if_neg hconflict, if_neg hunique]
    refine ⟨periods ++ [row], rfl, ⟨?_, ?_, ?_⟩, List.subset_append_left _ _, ?_, row, by simp, ⟨rfl, rfl⟩, rfl⟩
    · intro other hother
      obtain hother | hother := List.mem_append.1 hother
      · exact h.calendarMonth other hother
      · rw [List.mem_singleton.1 hother]
        exact hmonth
    · exact distinct_append_singleton h.month_unique fun other hother hkey => hconflict ⟨other, hother, hkey⟩
    · exact distinct_append_singleton h.public_id_unique hfresh
    · intro other hother
      obtain hother | hother := List.mem_append.1 hother
      · exact .inl hother
      · exact .inr (List.mem_singleton.1 hother)

/-! ## What calls rely on -/

/-- A period of the call's book that contains its date. -/
def PeriodCall.CoveredBy (call : PeriodCall) (row : MonthlyPeriodRow) : Prop :=
  row.ofBook call.householdId call.bookId ∧ ∀ date ∈ sqlDate call.occurredOn, row.contains date

/-- How far a call has got. -/
def PeriodCall.Kept (call : PeriodCall) (periods : List MonthlyPeriodRow) : PeriodCallPhase → Prop
  | .finding => True
  | .inserting row => row.ofBook call.householdId call.bookId ∧
      periodsCalendarMonth row.periodStart row.periodEnd = true ∧
      ∀ date ∈ sqlDate call.occurredOn, row.periodStart = dateTruncMonth date
  | .findingAgain => ∃ row ∈ periods, call.CoveredBy row
  | .returned periodId => ∃ row ∈ periods, call.CoveredBy row ∧ row.periodId = periodId
  | .failed _ => call.allocator = false

structure PeriodCallInvariant (s : PeriodCallState) : Prop where
  table : PeriodsTable s.periods
  known : ∀ call ∈ s.calls, ⟨call.householdId, call.bookId⟩ ∈ s.books ∧ isRealLocalDateText call.occurredOn = true
  kept : ∀ call ∈ s.calls, call.Kept s.periods call.phase
  fresh : ∀ call ∈ s.calls, ∀ row, call.phase = .inserting row → ∀ other ∈ s.periods, other.periodId ≠ row.periodId
  apart : ∀ (i j : Nat) (call other : PeriodCall) (row row' : MonthlyPeriodRow), i ≠ j → s.calls[i]? = some call →
    s.calls[j]? = some other → call.phase = .inserting row → other.phase = .inserting row' → row.periodId ≠ row'.periodId

section Calls

variable {call : PeriodCall} {periods periods' : List MonthlyPeriodRow}

theorem PeriodCall.Kept.mono {phase : PeriodCallPhase} (h : call.Kept periods phase) (hsubset : periods ⊆ periods') :
    call.Kept periods' phase := by
  cases phase with
  | findingAgain =>
    obtain ⟨row, hrow, hcovered⟩ := h
    exact ⟨row, hsubset hrow, hcovered⟩
  | returned periodId =>
    obtain ⟨row, hrow, hcovered⟩ := h
    exact ⟨row, hsubset hrow, hcovered⟩
  | finding => trivial
  | inserting row => exact h
  | failed failure => exact h

theorem PeriodCall.kept_of_find {periodId : PeriodId} (h : call.find periods = some periodId) :
    call.Kept periods (.returned periodId) := by
  obtain ⟨date, hdate, hfind⟩ := Option.bind_eq_some_iff.1 h
  obtain ⟨row, hrow, hbook, hid, hcontains⟩ := of_find_eq_some hfind
  refine ⟨row, hrow, ⟨hbook, ?_⟩, hid⟩
  intro date' hdate'
  rw [Option.mem_def, hdate, Option.some.injEq] at hdate'
  rwa [← hdate']

/-- What the first look leads to. -/
theorem PeriodCall.kept_found (hreal : isRealLocalDateText call.occurredOn = true) (allocated : PeriodId) :
    call.Kept periods (call.found (call.find periods) allocated) := by
  cases hfind : call.find periods with
  | some periodId => exact PeriodCall.kept_of_find hfind
  | none =>
    obtain ⟨day, periodStart, periodEnd, hvalid, hdate, hbounds, -, hstart, hend, hmonth⟩ := monthlyPeriodBounds_spec hreal
    simp only [PeriodCall.found, hbounds, hstart, hend]
    split
    · next hallocator => exact hallocator
    · refine ⟨⟨rfl, rfl⟩, hmonth, ?_⟩
      intro date hdate'
      rw [Option.mem_def, hdate, Option.some.injEq] at hdate'
      rw [← hdate', dateTruncMonth, civil_dayNumber hvalid]

theorem PeriodCall.find_of_kept (htable : PeriodsTable periods) (hreal : isRealLocalDateText call.occurredOn = true)
    (h : call.Kept periods .findingAgain) : ∃ periodId, call.find periods = some periodId := by
  obtain ⟨day, -, -, -, hdate, -⟩ := monthlyPeriodBounds_spec hreal
  obtain ⟨row, hrow, ⟨hhousehold, hbook⟩, hcontains⟩ := h
  have hfind := htable.find_eq_some hrow (hcontains _ hdate)
  rw [hhousehold, hbook] at hfind
  exact ⟨row.periodId, by rw [PeriodCall.find, hdate, Option.bind_some, hfind]⟩

/-- The insert of a call that is about to insert succeeds, and the period is there. -/
theorem PeriodCall.insert_of_kept {books : List BookRow} {row : MonthlyPeriodRow} (htable : PeriodsTable periods)
    (hbook : ⟨call.householdId, call.bookId⟩ ∈ books) (h : call.Kept periods (.inserting row))
    (hfresh : ∀ other ∈ periods, other.periodId ≠ row.periodId) :
    ∃ periods', insertPeriod books periods row = .ok periods' ∧ PeriodsTable periods' ∧ periods ⊆ periods' ∧
      (∀ other ∈ periods', other ∈ periods ∨ other = row) ∧ call.Kept periods' .findingAgain := by
  obtain ⟨⟨hhousehold, hrowBook⟩, hmonth, hstart⟩ := h
  rw [← hhousehold, ← hrowBook] at hbook
  obtain ⟨periods', hinsert, htable', hsubset, honly, other, hother, hof, hsame⟩ := htable.insertPeriod hbook hmonth hfresh
  refine ⟨periods', hinsert, htable', hsubset, honly, other, hother, ⟨?_, ?_⟩, ?_⟩
  · rw [hof.1, hhousehold]
  · rw [hof.2, hrowBook]
  · intro date hdate
    exact htable'.contains_of_periodStart_eq hother (hsame.trans (hstart date hdate))

/-- What one statement of a call does, whatever calls have done before. -/
theorem PeriodCall.next_spec {books : List BookRow} {allocated : PeriodId} {phase : PeriodCallPhase}
    (htable : PeriodsTable periods) (hbook : ⟨call.householdId, call.bookId⟩ ∈ books)
    (hreal : isRealLocalDateText call.occurredOn = true) (hkept : call.Kept periods call.phase)
    (hfresh : ∀ row, call.phase = .inserting row → ∀ other ∈ periods, other.periodId ≠ row.periodId)
    (h : call.next books periods allocated = some (periods', phase)) :
    (PeriodsTable periods' ∧ periods ⊆ periods' ∧ call.Kept periods' phase) ∧
      (∀ other ∈ periods', other ∈ periods ∨ call.phase = .inserting other) ∧
      ∀ row, phase = .inserting row → periods' = periods := by
  cases hphase : call.phase with
  | finding =>
    simp only [PeriodCall.next, hphase, Option.some.injEq, Prod.mk.injEq] at h
    obtain ⟨rfl, rfl⟩ := h
    exact ⟨⟨htable, List.Subset.refl _, PeriodCall.kept_found hreal allocated⟩, fun other hother => .inl hother,
      fun row hrow => rfl⟩
  | inserting row =>
    rw [hphase] at hkept
    obtain ⟨periods'', hinsert, htable', hsubset, honly, hkept'⟩ :=
      PeriodCall.insert_of_kept htable hbook hkept (hfresh row hphase)
    simp only [PeriodCall.next, hphase, hinsert, Option.some.injEq, Prod.mk.injEq] at h
    obtain ⟨rfl, rfl⟩ := h
    refine ⟨⟨htable', hsubset, hkept'⟩, ?_, fun row hrow => by cases hrow⟩
    intro other hother
    obtain hother | rfl := honly other hother
    · exact .inl hother
    · exact .inr rfl
  | findingAgain =>
    rw [hphase] at hkept
    obtain ⟨periodId, hfind⟩ := PeriodCall.find_of_kept htable hreal hkept
    simp only [PeriodCall.next, hphase, hfind, Option.some.injEq, Prod.mk.injEq] at h
    obtain ⟨rfl, rfl⟩ := h
    exact ⟨⟨htable, List.Subset.refl _, PeriodCall.kept_of_find hfind⟩, fun other hother => .inl hother,
      fun row hrow => by cases hrow⟩
  | returned periodId => simp [PeriodCall.next, hphase] at h
  | failed failure => simp [PeriodCall.next, hphase] at h

end Calls

/-! ## Runs -/

theorem mem_inserting {s : PeriodCallState} {call : PeriodCall} {row : MonthlyPeriodRow} (hcall : call ∈ s.calls)
    (hrow : call.phase = .inserting row) : row ∈ s.inserting :=
  List.mem_filterMap.2 ⟨call, hcall, by simp [hrow]⟩

theorem allocated_inserting {phase : PeriodCallPhase} {row : MonthlyPeriodRow} (h : phase = .inserting row) :
    row.periodId ∈ phase.allocated := by
  rw [h]
  rfl

theorem PeriodCallInvariant.call {s t : PeriodCallState} {householdId : HouseholdId} {bookId : BookId}
    {occurredOn : String} {allocator : Bool} (h : PeriodCallInvariant s)
    (hstep : periodCallStep s (.call householdId bookId occurredOn allocator) = some t) : PeriodCallInvariant t := by
  simp only [periodCallStep, Option.ite_none_right_eq_some, Option.some.injEq] at hstep
  obtain ⟨hknown, rfl⟩ := hstep
  have hold : ∀ (i : Nat) (call : PeriodCall) (row : MonthlyPeriodRow),
      (s.calls ++ [({ householdId, bookId, occurredOn, allocator } : PeriodCall)])[i]? = some call →
        call.phase = .inserting row → s.calls[i]? = some call := by
    intro i call row hcall hrow
    rw [List.getElem?_append] at hcall
    split at hcall
    · exact hcall
    · have hmem := List.mem_of_getElem? hcall
      rw [List.mem_singleton.1 hmem] at hrow
      cases hrow
  refine ⟨h.table, ?_, ?_, ?_, ?_⟩
  · intro call hcall
    obtain hcall | hcall := List.mem_append.1 hcall
    · exact h.known call hcall
    · rw [List.mem_singleton.1 hcall]
      exact hknown
  · intro call hcall
    obtain hcall | hcall := List.mem_append.1 hcall
    · exact h.kept call hcall
    · rw [List.mem_singleton.1 hcall]
      trivial
  · intro call hcall row hrow
    obtain ⟨i, hi⟩ := List.mem_iff_getElem?.1 hcall
    exact h.fresh call (List.mem_of_getElem? (hold i call row hi hrow)) row hrow
  · intro i j call other row row' hne hcall hother hrow hrow'
    exact h.apart i j call other row row' hne (hold i call row hcall hrow) (hold j other row' hother hrow') hrow hrow'

theorem PeriodCallInvariant.statement {s t : PeriodCallState} {index : Nat} {allocated : PeriodId}
    (h : PeriodCallInvariant s) (hstep : periodCallStep s (.statement index allocated) = some t) :
    PeriodCallInvariant t := by
  simp only [periodCallStep] at hstep
  split at hstep
  · cases hstep
  · next call hcall =>
    split at hstep
    · cases hstep
    next periods' phase hnext =>
    simp only [Option.ite_none_left_eq_some, Option.some.injEq, not_exists, not_and] at hstep
    obtain ⟨hallocated, rfl⟩ := hstep
    have hmem := List.mem_of_getElem? hcall
    obtain ⟨hbook, hreal⟩ := h.known call hmem
    obtain ⟨⟨htable, hsubset, hkept⟩, honly, hinserting⟩ :=
      PeriodCall.next_spec h.table hbook hreal (h.kept call hmem) (h.fresh call hmem) hnext
    -- the calls after the statement: the one that went on, and the others as they were
    have hcalls : ∀ (j : Nat) (other : PeriodCall), (s.calls.set index { call with phase })[j]? = some other →
        (j = index ∧ other = { call with phase }) ∨ (j ≠ index ∧ s.calls[j]? = some other) := by
      intro j other hother
      rw [List.getElem?_set] at hother
      split at hother
      · next heq =>
        split at hother
        · exact .inl ⟨heq.symm, (Option.some.inj hother).symm⟩
        · cases hother
      · next hne => exact .inr ⟨fun heq => hne heq.symm, hother⟩
    refine ⟨htable, ?_, ?_, ?_, ?_⟩
    · intro other hother
      obtain hother | rfl := List.mem_or_eq_of_mem_set hother
      · exact h.known other hother
      · exact ⟨hbook, hreal⟩
    · intro other hother
      obtain hother | rfl := List.mem_or_eq_of_mem_set hother
      · exact (h.kept other hother).mono hsubset
      · exact hkept
    · intro other hother row hrow period hperiod
      obtain ⟨j, hj⟩ := List.mem_iff_getElem?.1 hother
      obtain ⟨rfl, rfl⟩ | ⟨hne, hj⟩ := hcalls j other hj
      · rw [hinserting row hrow] at hperiod
        exact hallocated row.periodId (allocated_inserting hrow) period (List.mem_append_left _ hperiod)
      · obtain hold | hnew := honly period hperiod
        · exact h.fresh other (List.mem_of_getElem? hj) row hrow period hold
        · exact h.apart index j call other period row (Ne.symm hne) hcall hj hnew hrow
    · intro i j first second row row' hne hfirst hsecond hrow hrow'
      obtain ⟨rfl, rfl⟩ | ⟨hi, hold⟩ := hcalls i first hfirst
      · obtain ⟨rfl, -⟩ | ⟨hj, hold'⟩ := hcalls j second hsecond
        · exact absurd rfl hne
        · intro hsame
          exact hallocated row.periodId (allocated_inserting hrow) row'
            (List.mem_append_right _ (mem_inserting (List.mem_of_getElem? hold') hrow')) hsame.symm
      · obtain ⟨rfl, rfl⟩ | ⟨hj, hold'⟩ := hcalls j second hsecond
        · exact hallocated row'.periodId (allocated_inserting hrow') row
            (List.mem_append_right _ (mem_inserting (List.mem_of_getElem? hold) hrow))
        · exact h.apart i j first second row row' hne hold hold' hrow hrow'

/-- The month of a date. -/
def monthOfDate (occurredOn : String) : Option Int := (sqlDate occurredOn).map dateTruncMonth

/-- What calls and periods are to be in every state. -/
structure PeriodsCover (s : PeriodCallState) : Prop where
  apart : ∀ row ∈ s.periods, ∀ other ∈ s.periods, row.ofBook other.householdId other.bookId →
    ∀ date, row.contains date → other.contains date → row = other
  returned : ∀ call ∈ s.calls, ∀ periodId, call.phase = .returned periodId →
    ∃ row ∈ s.periods, row.periodId = periodId ∧ row.ofBook call.householdId call.bookId ∧
      ∃ date, sqlDate call.occurredOn = some date ∧ row.contains date
  same : ∀ call ∈ s.calls, ∀ other ∈ s.calls, call.householdId = other.householdId → call.bookId = other.bookId →
    monthOfDate call.occurredOn = monthOfDate other.occurredOn → ∀ periodId periodId',
      call.phase = .returned periodId → other.phase = .returned periodId' → periodId = periodId'
  succeeds : ∀ call ∈ s.calls, call.allocator = true → ∀ failure, call.phase ≠ .failed failure

theorem PeriodCallInvariant.cover {s : PeriodCallState} (h : PeriodCallInvariant s) : PeriodsCover s := by
  have hreturned : ∀ call ∈ s.calls, ∀ periodId, call.phase = .returned periodId →
      ∃ row ∈ s.periods, row.periodId = periodId ∧ row.ofBook call.householdId call.bookId ∧
        ∃ date, sqlDate call.occurredOn = some date ∧ row.contains date := by
    intro call hcall periodId hphase
    have hkept := h.kept call hcall
    rw [hphase] at hkept
    obtain ⟨row, hrow, ⟨hbook, hcontains⟩, hid⟩ := hkept
    obtain ⟨day, -, -, -, hdate, -⟩ := monthlyPeriodBounds_spec (h.known call hcall).2
    exact ⟨row, hrow, hid, hbook, day.dayNumber, hdate, hcontains _ hdate⟩
  refine ⟨?_, hreturned, ?_, ?_⟩
  · intro row hrow other hother hbook date hcontains hcontains'
    exact h.table.eq_of_contains hrow hother hbook hcontains hcontains'
  · intro call hcall other hother hhousehold hbook hmonth periodId periodId' hphase hphase'
    obtain ⟨row, hrow, rfl, hof, date, hdate, hcontains⟩ := hreturned call hcall periodId hphase
    obtain ⟨row', hrow', rfl, hof', date', hdate', hcontains'⟩ := hreturned other hother periodId' hphase'
    rw [monthOfDate, monthOfDate, hdate, hdate', Option.map_some, Option.map_some, Option.some.injEq] at hmonth
    have hstart := (h.table.periodStart_eq hrow hcontains).trans
      (hmonth.trans (h.table.periodStart_eq hrow' hcontains').symm)
    have hsame : row.ofBook row'.householdId row'.bookId := by
      rw [hof'.1, hof'.2, ← hhousehold, ← hbook]
      exact hof
    rw [h.table.eq_of_periodStart hrow hrow' hsame hstart]
  · intro call hcall hallocator failure hphase
    have hkept := h.kept call hcall
    rw [hphase] at hkept
    change call.allocator = false at hkept
    rw [hallocator] at hkept
    exact absurd hkept (by simp)

theorem accountingPeriods_cover :
    (∀ occurredOn, isRealLocalDateText occurredOn = true → ∃ day : Civil, ∃ periodStart periodEnd, day.Valid ∧
      sqlDate occurredOn = some day.dayNumber ∧ monthlyPeriodBounds occurredOn = some (periodStart, periodEnd) ∧
      sqlDate periodStart = some day.monthStart.dayNumber ∧ sqlDate periodEnd = some day.monthEnd.dayNumber ∧
      periodsCalendarMonth day.monthStart.dayNumber day.monthEnd.dayNumber = true) ∧
    ∀ (books : List BookRow) (periods : List MonthlyPeriodRow) (s : PeriodCallState), PeriodsTable periods →
      Reachable periodCallStep ⟨books, periods, []⟩ s → PeriodsCover s := by
  constructor
  · intro occurredOn h
    obtain ⟨day, periodStart, periodEnd, hvalid, hdate, hbounds, -, hstart, hend, hmonth⟩ := monthlyPeriodBounds_spec h
    exact ⟨day, periodStart, periodEnd, hvalid, hdate, hbounds, hstart, hend, hmonth⟩
  · intro books periods s htable hreach
    refine PeriodCallInvariant.cover (hreach.invariant ?_ ⟨htable, by simp, by simp, by simp, by simp⟩)
    intro s event t h hstep
    cases event with
    | call householdId bookId occurredOn allocator => exact h.call hstep
    | statement index allocated => exact h.statement hstep

namespace PeriodRace

def book : BookRow := ⟨⟨"01JNZQ4A9B8C7D6E5F4G3H2J1K", Eq.refl true⟩, ⟨"01JNZQ4A9B8C7D6E5F4G3H2J1M", Eq.refl true⟩⟩

def first : PeriodId := ⟨"01JNZQ4A9B8C7D6E5F4G3H2J1P", by decide⟩

def second : PeriodId := ⟨"01JNZQ4A9B8C7D6E5F4G3H2J1Q", by decide⟩

/-- Two calls for days of one February, both of which look before either inserts. -/
def events : List PeriodCallEvent :=
  [.call book.householdId book.bookId "2024-02-29" true, .call book.householdId book.bookId "2024-02-01" true,
    .statement 0 first, .statement 1 second, .statement 1 first, .statement 0 first, .statement 0 first,
    .statement 1 first]

def ended : PeriodCallState :=
  { books := [book]
    periods := [⟨book.householdId, book.bookId, second, 19754, 19782⟩]
    calls :=
      [⟨book.householdId, book.bookId, "2024-02-29", true, .returned second⟩,
        ⟨book.householdId, book.bookId, "2024-02-01", true, .returned second⟩] }

theorem reachable_ended : Reachable periodCallStep ⟨[book], [], []⟩ ended := ⟨events, by decide +kernel⟩

end PeriodRace

theorem accountingPeriods_cover_race :
    (∃ day : Civil, ∃ periodStart periodEnd, day.Valid ∧ sqlDate "2024-02-29" = some day.dayNumber ∧
      monthlyPeriodBounds "2024-02-29" = some (periodStart, periodEnd) ∧
      sqlDate periodStart = some day.monthStart.dayNumber ∧ sqlDate periodEnd = some day.monthEnd.dayNumber ∧
      periodsCalendarMonth day.monthStart.dayNumber day.monthEnd.dayNumber = true) ∧
    PeriodsCover PeriodRace.ended :=
  ⟨accountingPeriods_cover.1 "2024-02-29" (by decide +kernel),
    accountingPeriods_cover.2 [PeriodRace.book] [] PeriodRace.ended ⟨by simp, by decide, by decide⟩
      PeriodRace.reachable_ended⟩

end PlusOne
