import QuantumService.Interaction.Program

/-! Complete runs of a program against an environment that has a state. `exec`
runs it where each call has one answer; `Runs` relates the environment's state, a
call and the answer to the next state, so that a call may be answered in several
ways. -/
namespace Interaction.Program
variable {Call : Type} {Answer : Call → Type} {Result Result' State : Type}

/-- Run a program to its end. -/
def exec (handle : State → (call : Call) → Answer call × State) (s : State) :
    Program Call Answer Result → Result × State
  | .done result => (result, s)
  | .ask call next => exec handle (handle s call).2 (next (handle s call).1)

section Exec
variable (handle : State → (call : Call) → Answer call × State) (s : State)

@[simp] theorem exec_done (result : Result) :
    exec handle s (.done result : Program Call Answer Result) = (result, s) := rfl

@[simp] theorem exec_ask (call : Call) (next : Answer call → Program Call Answer Result) :
    exec handle s (.ask call next) = exec handle (handle s call).2 (next (handle s call).1) := rfl

@[simp] theorem exec_query (call : Call) :
    exec handle s (query call : Program Call Answer (Answer call)) = handle s call := rfl

@[simp] theorem exec_bind (p : Program Call Answer Result)
    (f : Result → Program Call Answer Result') :
    exec handle s (p >>= f) = exec handle (exec handle s p).2 (f (exec handle s p).1) := by
  induction p generalizing s with
  | done result => rfl
  | ask call next ih => exact ih _ _

end Exec

/-- `Runs serves s p history t r`: from `s` the program makes the calls of
`history`, returns `r` and leaves the environment in `t`. -/
inductive Runs (serves : State → (call : Call) → Answer call → State → Prop) :
    State → Program Call Answer Result → List (Event Answer) → State → Result → Prop where
  | done {s : State} {result : Result} : Runs serves s (.done result) [] s result
  | ask {s m t : State} {call : Call} {answer : Answer call}
      {next : Answer call → Program Call Answer Result} {history : List (Event Answer)}
      {result : Result} (served : serves s call answer m)
      (rest : Runs serves m (next answer) history t result) :
      Runs serves s (.ask call next) (⟨call, answer⟩ :: history) t result

variable {serves : State → (call : Call) → Answer call → State → Prop} {s t : State}
  {history : List (Event Answer)} {p : Program Call Answer Result}

@[simp] theorem runs_done_iff {result result' : Result} :
    Runs serves s (.done result : Program Call Answer Result) history t result' ↔
      history = [] ∧ t = s ∧ result' = result := by
  constructor
  · rintro ⟨⟩
    exact ⟨rfl, rfl, rfl⟩
  · rintro ⟨rfl, rfl, rfl⟩
    exact .done

theorem runs_ask_iff {call : Call} {next : Answer call → Program Call Answer Result}
    {result : Result} :
    Runs serves s (.ask call next) history t result ↔ ∃ answer m later,
      history = ⟨call, answer⟩ :: later ∧ serves s call answer m ∧
        Runs serves m (next answer) later t result := by
  constructor
  · rintro ⟨⟩
    exact ⟨_, _, _, rfl, ‹_›, ‹_›⟩
  · rintro ⟨answer, m, later, rfl, hServed, hRest⟩
    exact .ask hServed hRest

/-- A run of both parts is a run of each. -/
theorem runs_bind_iff {f : Result → Program Call Answer Result'} {result : Result'} :
    Runs serves s (p >>= f) history t result ↔ ∃ first later m middle,
      history = first ++ later ∧ Runs serves s p first m middle ∧
        Runs serves m (f middle) later t result := by
  induction p generalizing s history with
  | done middle =>
      constructor
      · intro hRun
        exact ⟨[], history, s, middle, rfl, .done, hRun⟩
      · rintro ⟨first, later, m, middle', rfl, hFirst, hLater⟩
        obtain ⟨rfl, rfl, rfl⟩ := runs_done_iff.mp hFirst
        exact hLater
  | ask call next ih =>
      constructor
      · intro hRun
        obtain ⟨answer, m, rest, rfl, hServed, hRest⟩ := runs_ask_iff.mp hRun
        obtain ⟨first, later, m', middle, rfl, hFirst, hLater⟩ := (ih answer).mp hRest
        exact ⟨_ :: first, later, m', middle, rfl, .ask hServed hFirst, hLater⟩
      · rintro ⟨first, later, m, middle, rfl, hFirst, hLater⟩
        obtain ⟨answer, m', rest, rfl, hServed, hRest⟩ := runs_ask_iff.mp hFirst
        exact .ask hServed ((ih answer).mpr ⟨rest, later, m, middle, rfl, hRest, hLater⟩)

theorem runs_query_iff {call : Call} {answer : Answer call} :
    Runs serves s (query call : Program Call Answer (Answer call)) history t answer ↔
      history = [⟨call, answer⟩] ∧ serves s call answer t := by
  constructor
  · intro hRun
    obtain ⟨answer', m, later, rfl, hServed, hRest⟩ := runs_ask_iff.mp hRun
    obtain ⟨rfl, rfl, rfl⟩ := runs_done_iff.mp hRest
    exact ⟨rfl, hServed⟩
  · rintro ⟨rfl, hServed⟩
    exact .ask hServed .done

end Interaction.Program
