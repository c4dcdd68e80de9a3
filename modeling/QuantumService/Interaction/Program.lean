import Mathlib.Data.List.Basic

/-! Programs that compute between calls to an environment. A call has its own
answer type, and the rest of the program may depend on every answer so far.
Nothing here fixes what the environment is: it may be a store, a clock or
another process, and it may change between two calls. -/
namespace Interaction

/-- A finite interaction. `ask` stops at a call and continues with its answer. -/
inductive Program (Call : Type) (Answer : Call → Type) (Result : Type) : Type where
  | done (result : Result)
  | ask (call : Call) (next : Answer call → Program Call Answer Result)

/-- One answered call. -/
abbrev Event {Call : Type} (Answer : Call → Type) := Sigma Answer

section History
variable {Call : Type} {Answer : Call → Type} {history : List (Event Answer)}

theorem last_mem (e : Event Answer) : e ∈ history ++ [e] :=
  List.mem_append_right _ (List.mem_singleton.mpr rfl)

/-- An answer to another call than the last one was there before. -/
theorem mem_of_mem_snoc {call other : Call} {answer : Answer call} {earlier : Answer other}
    (mem : ⟨other, earlier⟩ ∈ history ++ [⟨call, answer⟩]) (ne : call ≠ other) :
    ⟨other, earlier⟩ ∈ history := by
  rcases List.mem_append.mp mem with hOld | hLast
  · exact hOld
  · have hCall : other = call := congrArg Sigma.fst (List.mem_singleton.mp hLast)
    exact absurd hCall.symm ne

end History

namespace Program
variable {Call : Type} {Answer : Call → Type} {Result Result' : Type}

def bind (p : Program Call Answer Result) (f : Result → Program Call Answer Result') :
    Program Call Answer Result' :=
  match p with
  | .done result => f result
  | .ask call next => .ask call (fun answer => (next answer).bind f)

instance : Monad (Program Call Answer) where
  pure := .done
  bind := bind

/-- The program that makes one call and returns its answer. -/
def query (call : Call) : Program Call Answer (Answer call) := .ask call .done

@[simp] theorem pure_eq (result : Result) :
    (Pure.pure result : Program Call Answer Result) = .done result := rfl

@[simp] theorem done_bind (result : Result) (f : Result → Program Call Answer Result') :
    (Program.done result >>= f) = f result := rfl

@[simp] theorem ask_bind (call : Call) (next : Answer call → Program Call Answer Result)
    (f : Result → Program Call Answer Result') :
    (Program.ask call next >>= f) = .ask call (fun answer => next answer >>= f) := rfl

@[simp] theorem query_bind (call : Call) (f : Answer call → Program Call Answer Result) :
    ((query call : Program Call Answer (Answer call)) >>= f) = .ask call f := rfl

/-- `Path p history q`: answering the calls of `p` by `history` leaves `q`. -/
inductive Path : Program Call Answer Result → List (Event Answer) →
    Program Call Answer Result → Prop where
  | nil (p : Program Call Answer Result) : Path p [] p
  | cons {call : Call} {next : Answer call → Program Call Answer Result}
      {answer : Answer call} {history : List (Event Answer)} {q : Program Call Answer Result}
      (rest : Path (next answer) history q) :
      Path (.ask call next) (⟨call, answer⟩ :: history) q

/-- One more answer at the end of a path. -/
theorem Path.snoc {p : Program Call Answer Result} {history : List (Event Answer)}
    {call : Call} {next : Answer call → Program Call Answer Result}
    (path : Path p history (.ask call next)) (answer : Answer call) :
    Path p (history ++ [⟨call, answer⟩]) (next answer) := by
  generalize hq : Program.ask call next = q at path
  induction path with
  | nil => subst hq; exact .cons (.nil _)
  | cons rest ih => exact .cons (ih hq)

/-- An answered call on a path was asked where the calls before it lead. -/
theorem Path.split {p q : Program Call Answer Result} {before later : List (Event Answer)}
    {e : Event Answer} (path : Path p (before ++ e :: later) q) :
    ∃ next, Path p before (.ask e.1 next) ∧ Path (next e.2) later q := by
  induction before generalizing p with
  | nil =>
      cases path with
      | cons rest => exact ⟨_, .nil _, rest⟩
  | cons first before ih =>
      cases path with
      | cons rest =>
          obtain ⟨next, hBefore, hLater⟩ := ih rest
          exact ⟨next, .cons hBefore, hLater⟩

/-- A program that has returned is not answered any more. -/
theorem Path.returned {p q : Program Call Answer Result} {history later : List (Event Answer)}
    {result : Result} (done : Path p history (.done result)) (path : Path p (history ++ later) q) :
    q = .done result := by
  generalize hEnd : Program.done result = final at done
  induction done with
  | nil =>
      subst hEnd
      cases path
      rfl
  | cons rest ih =>
      cases path with
      | cons rest' => exact ih rest' hEnd

/-- One answer leads to one program. -/
theorem path_single_iff {call : Call} {next : Answer call → Program Call Answer Result}
    {answer : Answer call} {q : Program Call Answer Result} :
    Path (.ask call next) [⟨call, answer⟩] q ↔ next answer = q := by
  constructor
  · intro path
    cases path with
    | cons rest =>
        generalize next answer = p at rest
        cases rest
        rfl
  · intro hNext
    rw [← hNext]
    exact .cons (.nil _)

/-- A call of a sequence is one of the first program, with the second to follow, or one of
the second, after a result of the first. -/
theorem Path.bind_inv {p : Program Call Answer Result}
    {f : Result → Program Call Answer Result'} {history : List (Event Answer)} {call : Call}
    {next : Answer call → Program Call Answer Result'}
    (path : Path (p >>= f) history (.ask call next)) :
    (∃ first, Path p history (.ask call first) ∧ next = fun answer => first answer >>= f) ∨
      ∃ before later result, history = before ++ later ∧ Path p before (.done result) ∧
        Path (f result) later (.ask call next) := by
  induction p generalizing history with
  | done result => exact .inr ⟨[], history, result, rfl, .nil _, path⟩
  | ask other rest ih =>
      rw [ask_bind] at path
      cases path with
      | nil => exact .inl ⟨rest, .nil _, rfl⟩
      | cons inner =>
          rcases ih _ inner with ⟨first, hFirst, rfl⟩ | ⟨before, later, result, rfl, hFirst, hLater⟩
          · exact .inl ⟨first, .cons hFirst, rfl⟩
          · exact .inr ⟨_ :: before, later, result, rfl, .cons hFirst, hLater⟩

/-- Every call the program makes satisfies `spec`, and every result `post`,
whatever the environment answers. Both see the answered calls so far. -/
def Follows (spec : List (Event Answer) → Call → Prop)
    (post : List (Event Answer) → Result → Prop) :
    List (Event Answer) → Program Call Answer Result → Prop
  | history, .done result => post history result
  | history, .ask call next =>
      spec history call ∧ ∀ answer, Follows spec post (history ++ [⟨call, answer⟩]) (next answer)

variable {spec : List (Event Answer) → Call → Prop}
  {post : List (Event Answer) → Result → Prop} {post' : List (Event Answer) → Result' → Prop}

@[simp] theorem follows_done (history : List (Event Answer)) (result : Result) :
    Follows spec post history (.done result) ↔ post history result := Iff.rfl

@[simp] theorem follows_ask (history : List (Event Answer)) (call : Call)
    (next : Answer call → Program Call Answer Result) :
    Follows spec post history (.ask call next) ↔
      spec history call ∧
        ∀ answer, Follows spec post (history ++ [⟨call, answer⟩]) (next answer) := Iff.rfl

/-- Sequential composition. The continuation may use what the first program
established about the calls answered up to that point. -/
theorem Follows.bind {p : Program Call Answer Result}
    {f : Result → Program Call Answer Result'} {history : List (Event Answer)}
    (first : Follows spec post history p)
    (second : ∀ later result, post later result → Follows spec post' later (f result)) :
    Follows spec post' history (p >>= f) := by
  induction p generalizing history with
  | done result => exact second history result first
  | ask call next ih => exact ⟨first.1, fun answer => ih answer (first.2 answer)⟩

/-- A call at the head of a program. -/
theorem Follows.query {call : Call} {f : Answer call → Program Call Answer Result}
    {history : List (Event Answer)} (site : spec history call)
    (rest : ∀ answer, Follows spec post (history ++ [⟨call, answer⟩]) (f answer)) :
    Follows spec post history (Program.query call >>= f) := ⟨site, rest⟩

/-- A rule proved of a program holds of what is left of it after any answers. -/
theorem Follows.path {p q : Program Call Answer Result} {before history : List (Event Answer)}
    (follows : Follows spec post before p) (path : Path p history q) :
    Follows spec post (before ++ history) q := by
  induction path generalizing before with
  | nil => simpa using follows
  | cons rest ih => simpa using ih (follows.2 _)

/-- The next call of a program reached from `p` satisfies the rule proved of `p`. -/
theorem Follows.call {p : Program Call Answer Result} {history : List (Event Answer)}
    {call : Call} {next : Answer call → Program Call Answer Result}
    (follows : Follows spec post [] p) (path : Path p history (.ask call next)) :
    spec history call := by
  simpa using (follows.path path).1

/-- A finished program satisfies the postcondition proved of `p`. -/
theorem Follows.result {p : Program Call Answer Result} {history : List (Event Answer)}
    {result : Result} (follows : Follows spec post [] p) (path : Path p history (.done result)) :
    post history result := by
  simpa using follows.path path

end Program
end Interaction
