import Mathlib.Data.List.Basic

/-! Finite runs of labelled transition systems. A run carries its history,
newest label first, so that invariants may speak about the past. -/
namespace Transition
variable {S T A B : Type}

inductive Run (step : S → A → S → Prop) (s : S) : List A → S → Prop where
  | start : Run step s [] s
  | next : Run step s past t → step t a u → Run step s (a :: past) u

namespace Run
variable {step : S → A → S → Prop}

theorem trans (first : Run step s past t) (second : Run step t later u) :
    Run step s (later ++ past) u := by
  induction second with
  | start => exact first
  | next _ last ih => exact ih.next last

theorem split (run : Run step s (later ++ past) u) :
    ∃ t, Run step s past t ∧ Run step t later u := by
  induction later generalizing u with
  | nil => exact ⟨u, run, .start⟩
  | cons a later ih =>
    cases run with
    | next rest last =>
      obtain ⟨t, first, second⟩ := ih rest
      exact ⟨t, first, second.next last⟩

/-- What the start has and every step keeps holds along the whole run; the
invariant may mention the history. -/
theorem history {P : List A → S → Prop} (run : Run step s past t) (initial : P [] s)
    (preserves : ∀ {past t a u}, Run step s past t → P past t → step t a u → P (a :: past) u) :
    P past t := by
  induction run with
  | start => exact initial
  | next rest last ih => exact preserves rest ih last

theorem invariant {P : S → Prop} (run : Run step s past t) (initial : P s)
    (preserves : ∀ {t a u}, P t → step t a u → P u) : P t :=
  run.history (P := fun _ => P) initial (fun _ => preserves)

theorem mono {other : S → A → S → Prop} (run : Run step s past t)
    (weaker : ∀ {t a u}, step t a u → other t a u) : Run other s past t := by
  induction run with
  | start => exact .start
  | next _ last ih => exact ih.next (weaker last)

/-- A system whose every step is a step of a component, or leaves the component
alone, runs the component. -/
theorem project {part : T → B → T → Prop} (view : S → T) (label : A → Option B)
    (simulates : ∀ {t a u}, step t a u →
      (label a).elim (view u = view t) (fun b => part (view t) b (view u)))
    (run : Run step s past t) : Run part (view s) (past.filterMap label) (view t) := by
  induction run with
  | start => exact .start
  | @next past t a u rest last ih =>
    have projected := simulates last
    rw [List.filterMap_cons]
    cases found : label a with
    | none =>
      have same : view u = view t := by simpa only [found, Option.elim_none] using projected
      simpa only [same] using ih
    | some b => exact ih.next (by simpa only [found, Option.elim_some] using projected)

end Run

/-- What the labels of a history yield, oldest first. -/
def collect (label : A → Option B) (past : List A) : List B := (past.filterMap label).reverse

section
variable {label : A → Option B}

theorem collect_cons (a : A) (past : List A) :
    collect label (a :: past) = collect label past ++ (label a).toList := by
  cases yields : label a with
  | none => simp [collect, yields]
  | some b => simp [collect, yields]

theorem collect_silent {past : List A} (silent : label a = none) :
    collect label (a :: past) = collect label past := by
  rw [collect_cons, silent, Option.toList_none, List.append_nil]

end

/-- The steps of a partial transition function. -/
def Steps (step : S → A → Option S) (s : S) (a : A) (t : S) : Prop := step s a = some t

/-- The steps taken where `ok` holds of the state before and the label. -/
def Guarded (ok : S → A → Prop) (step : S → A → S → Prop) (s : S) (a : A) (t : S) : Prop :=
  ok s a ∧ step s a t

theorem Run.unguard (run : Run (Guarded ok step) s past t) : Run step s past t :=
  run.mono And.right

/-- Labels applied in the order they are listed, oldest first. -/
def execute (step : S → A → Option S) (s : S) : List A → Option S
  | [] => some s
  | a :: rest => (step s a).bind fun t => execute step t rest

theorem execute_run {step : S → A → Option S} {labels : List A}
    (done : execute step s labels = some t) : Run (Steps step) s labels.reverse t := by
  induction labels generalizing s with
  | nil =>
    obtain rfl : s = t := by simpa only [execute, Option.some.injEq] using done
    exact .start
  | cons a rest ih =>
    simp only [execute, Option.bind_eq_some_iff] at done
    obtain ⟨u, first, done⟩ := done
    rw [List.reverse_cons]
    exact (Run.start.next first).trans (ih done)

/-- What executing the labels can be seen to reach. -/
theorem execute_reaches {step : S → A → Option S} {P : S → Prop} [DecidablePred P]
    {labels : List A} (reached : (execute step s labels).any (fun t => decide (P t)) = true) :
    ∃ t, Run (Steps step) s labels.reverse t ∧ P t := by
  obtain ⟨t, done, holds⟩ := (Option.any_eq_true _ _).mp reached
  exact ⟨t, execute_run done, of_decide_eq_true holds⟩

/-- The function that only steps where the guard holds. -/
def checked (ok : S → A → Bool) (step : S → A → Option S) (s : S) (a : A) : Option S :=
  if ok s a then step s a else none

theorem checked_eq_some {ok : S → A → Bool} {step : S → A → Option S} :
    checked ok step s a = some t ↔ ok s a = true ∧ step s a = some t := by
  unfold checked
  split
  · simp [*]
  · simp [*]

theorem Run.of_checked {step : S → A → Option S} {ok : S → A → Bool}
    (run : Run (Steps (checked ok step)) s past t) :
    Run (Guarded (fun s a => ok s a = true) (Steps step)) s past t :=
  run.mono fun stepped => checked_eq_some.mp stepped

theorem Run.unique {step : S → A → Option S} (first : Run (Steps step) s past t)
    (second : Run (Steps step) s past u) : t = u := by
  induction past generalizing t u with
  | nil =>
    cases first
    cases second
    rfl
  | cons a past ih =>
    cases first with
    | next before stepped =>
      cases second with
      | next before' stepped' =>
        obtain rfl := ih before before'
        exact Option.some.inj (stepped.symm.trans stepped')

/-- For a deterministic system, a guard that is exactly what keeps `P` from one
state to the next characterizes the runs all of whose states have `P`. -/
theorem always_iff_guarded {step : S → A → Option S} {P : S → Prop} {ok : S → A → Prop}
    (run : Run (Steps step) s past t) (initial : P s)
    (exactly : ∀ {past t a u}, Run (Steps step) s past t → P t → step t a = some u →
      (P u ↔ ok t a)) :
    (∀ earlier u, earlier <:+ past → Run (Steps step) s earlier u → P u) ↔
      (∀ a earlier u, a :: earlier <:+ past → Run (Steps step) s earlier u → ok u a) := by
  constructor
  · intro always a earlier u inside before
    obtain ⟨later, rfl⟩ := inside
    obtain ⟨v, upTo, _⟩ := run.split
    cases upTo with
    | next rest last =>
      obtain rfl := rest.unique before
      have here := always earlier _ ⟨later ++ [a], by simp⟩ rest
      have there := always (a :: earlier) v ⟨later, rfl⟩ (rest.next last)
      exact (exactly rest here last).mp there
  · intro guarded earlier
    induction earlier with
    | nil =>
      intro u _ upTo
      cases upTo
      exact initial
    | cons a earlier ih =>
      intro u inside upTo
      cases upTo with
      | next rest last =>
        have here := ih _ ((List.suffix_cons a earlier).trans inside) rest
        exact (exactly rest here last).mpr (guarded a earlier _ inside rest)

end Transition
