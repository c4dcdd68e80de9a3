import QuantumService.Cluster.Progress
import QuantumService.Cluster.Wakeups
import QuantumService.Interaction.Fairness

/-! Fair runs of the manager. Where its workers, its watches and the API server go on, a
job that is to be looked at is reconciled, and a reconcile that has begun returns. -/
namespace QuantumService.Cluster
open Interaction Controller World Filter

namespace Manager
variable {m m' : Manager} {key : NamespacedName}

/-- The reconcile of the job gets this answer after those before it. -/
inductive Answered (key : NamespacedName) (m : Manager) :
    Action → Manager → History → Event Call.Answer → Prop where
  | intro {m' : Manager} {before : History} {call : Call}
      {next : call.Answer → Reconciler Outcome}
      {path : Program.Path (reconcile key) before (.ask call next)} {reply : Reply}
      {answer : call.Answer} {middle : World}
      (busy : m.world.workers key = some ⟨before, .ask call next, path⟩)
      (responded : m.world.respond key call reply = some (answer, middle))
      (after : m'.world = middle.setWorker key (some (Worker.extend path answer))) :
      Answered key m (.cluster (.answer key reply)) m' before ⟨call, answer⟩

/-- What has to be done for a job again and again. -/
inductive Duty where
  | start
  | finish
  | answer
  | tellJob
  | tellPod (retries : Int32)
  | fire

/-- The actions that do it. -/
def Duty.Done (key : NamespacedName) (duty : Duty) (a : Action) : Prop :=
  match duty with
  | .start => a = .start
  | .finish => a = .finish key
  | .answer => ∃ reply, a = .cluster (.answer key reply)
  | .tellJob => a = .tellJob key
  | .tellPod retries => a = .tellPod (simulatorPodKey key retries)
  | .fire => a = .fire key

section Steps

/-- What a step does to the reconcile of the job. -/
inductive WorkerMoves (key : NamespacedName) (m : Manager) : Action → Manager → Prop where
  | other {a : Action} {m' : Manager} (same : m'.world.workers key = m.world.workers key)
      (unanswered : ∀ reply, a ≠ .cluster (.answer key reply)) (unfinished : a ≠ .finish key) :
      WorkerMoves key m a m'
  | begins {m' : Manager} (idle : m.world.workers key = none)
      (begun : m'.world.workers key = some (.start key)) : WorkerMoves key m .start m'
  | answered {m' : Manager} {history : History} {call : Call}
      {next : call.Answer → Reconciler Outcome}
      {path : Program.Path (reconcile key) history (.ask call next)} {reply : Reply}
      {answer : call.Answer} {middle : World}
      (busy : m.world.workers key = some ⟨history, .ask call next, path⟩)
      (responded : m.world.respond key call reply = some (answer, middle))
      (after : m'.world = middle.setWorker key (some (Worker.extend path answer))) :
      WorkerMoves key m (.cluster (.answer key reply)) m'
  | finished {m' : Manager} {history : History} {outcome : Outcome}
      {path : Program.Path (reconcile key) history (.done outcome)}
      (busy : m.world.workers key = some ⟨history, .done outcome, path⟩)
      (after : m'.world.workers key = none) : WorkerMoves key m (.finish key) m'

/-- A reconcile is begun, answered and finished by the actions for its own job. -/
theorem workerMoves_of_step {a : Action} (stepped : m.step a = some m') (key : NamespacedName) :
    WorkerMoves key m a m' := by
  cases moves_of_step stepped with
  | @cluster a w' admitted moved =>
      by_cases hAnswer : ∃ reply, a = .answer key reply
      · obtain ⟨reply, rfl⟩ := hAnswer
        obtain ⟨⟨history, rest, path⟩, hBusy, hAnswer⟩ := Option.bind_eq_some_iff.mp moved
        cases rest with
        | done outcome => cases hAnswer
        | ask call next =>
            obtain ⟨⟨answer, middle⟩, hRespond, rfl⟩ := Option.map_eq_some_iff.mp hAnswer
            exact .answered hBusy hRespond rfl
      · -- the reconciles of other jobs, and other parties
        have hOther : ∀ {s : World} {acting} (worker : Option (Worker acting)),
            s.workers = m.world.workers → acting ≠ key →
              (s.setWorker acting worker).workers key = m.world.workers key := by
          intro s acting worker hWorkers hKey
          rw [setWorker_workers, Function.update_of_ne (Ne.symm hKey), hWorkers]
        have hKey : ∀ {acting reply}, a = .answer acting reply → acting ≠ key := by
          rintro acting reply rfl rfl
          exact hAnswer ⟨reply, rfl⟩
        refine .other ?_ (fun reply hSame => hAnswer ⟨reply, Action.cluster.inj hSame⟩) nofun
        have hMoves := World.moves_of_step moved
        clear moved
        cases hMoves with
        | createJob | unpatched | patched | setClock | setPhase | createPod | removePod => rfl
        | start | finish => cases admitted
        | readJob | readPod | quiet => exact hOther _ rfl (hKey rfl)
        | wrote busy applied =>
            have hWorkers := applyWrite_workers applied
            exact hOther _ hWorkers (hKey rfl)
  | @start other queue got idle =>
      by_cases hKey : other = key
      · subst hKey
        exact .begins idle (Function.update_self other _ _)
      · exact .other (Function.update_of_ne (Ne.symm hKey) ..) nofun nofun
  | @finish other history outcome path busy =>
      by_cases hKey : other = key
      · subst hKey
        exact .finished busy (Function.update_self other _ _)
      · exact .other (Function.update_of_ne (Ne.symm hKey) ..) nofun
          fun hSame => hKey (Action.finish.inj hSame)
  | tellJob | tellPod | fire => exact .other rfl nofun nofun

/-- A reconcile that has returned stays as it is until it is ended. -/
theorem done_of_step {history : History} {outcome : Outcome}
    {path : Program.Path (reconcile key) history (.done outcome)} {a : Action}
    (busy : m.world.workers key = some ⟨history, .done outcome, path⟩)
    (stepped : m.step a = some m') (unfinished : a ≠ .finish key) :
    m'.world.workers key = some ⟨history, .done outcome, path⟩ := by
  cases workerMoves_of_step stepped key with
  | other same => exact same.trans busy
  | begins idle =>
      rw [busy] at idle
      cases idle
  | answered busy' =>
      rw [busy] at busy'
      cases busy'
  | finished => exact absurd rfl unfinished

/-- A reconcile waits for the answer to its call. -/
theorem ask_of_step {history : History} {call : Call} {next : call.Answer → Reconciler Outcome}
    {path : Program.Path (reconcile key) history (.ask call next)} {a : Action}
    (busy : m.world.workers key = some ⟨history, .ask call next, path⟩)
    (stepped : m.step a = some m') :
    (m'.world.workers key = some ⟨history, .ask call next, path⟩ ∧
      ∀ reply, a ≠ .cluster (.answer key reply)) ∨
    ∃ reply answer middle, a = .cluster (.answer key reply) ∧
      m.world.respond key call reply = some (answer, middle) ∧
      m'.world = middle.setWorker key (some (Worker.extend path answer)) := by
  cases workerMoves_of_step stepped key with
  | other same unanswered => exact .inl ⟨same.trans busy, unanswered⟩
  | begins idle =>
      rw [busy] at idle
      cases idle
  | answered busy' responded after =>
      rw [busy] at busy'
      cases busy'
      exact .inr ⟨_, _, _, rfl, responded, after⟩
  | finished busy' =>
      rw [busy] at busy'
      cases busy'

/-- A reconcile that is not ended learns at most one answer. -/
theorem answered_of_step {worker : Worker key} {a : Action}
    (busy : m.world.workers key = some worker) (stepped : m.step a = some m')
    (unfinished : a ≠ .finish key) :
    m'.world.workers key = some worker ∨ ∃ e later, m'.world.workers key = some later ∧
      later.history = worker.history ++ [e] ∧ Answered key m a m' worker.history e := by
  cases workerMoves_of_step stepped key with
  | other same => exact .inl (same.trans busy)
  | begins idle =>
      rw [busy] at idle
      cases idle
  | @answered _ history call next path reply answer middle busy' responded after =>
      rw [busy] at busy'
      cases busy'
      refine .inr ⟨_, Worker.extend path answer, ?_, rfl, .intro busy responded after⟩
      rw [after]
      exact Function.update_self ..
  | finished => exact absurd rfl unfinished

theorem idle_of_finish (stepped : m.step (.finish key) = some m') :
    m'.world.workers key = none := by
  cases workerMoves_of_step stepped key with
  | other _ _ unfinished => exact absurd rfl unfinished
  | finished _ after => exact after

/-- What a step does to the queue: only a worker takes from it, and takes the first. -/
theorem queue_of_step {a : Action} (stepped : m.step a = some m') :
    (a ≠ .start → m.queue.queue <+: m'.queue.queue) ∧
      (a = .start → ∃ first, m.queue.get = some (first, m'.queue) ∧
        m.world.workers first = none ∧ m'.world.workers first = some (.start first)) := by
  cases moves_of_step stepped with
  | cluster => exact ⟨fun _ => List.prefix_refl _, nofun⟩
  | @start other queue got idle =>
      exact ⟨fun hOther => absurd rfl hOther,
        fun _ => ⟨other, got, idle, Function.update_self other _ _⟩⟩
  | @finish other history outcome path busy =>
      refine ⟨fun _ => ?_, nofun⟩
      show m.queue.queue <+: (requeue m.queue other outcome).queue
      unfold requeue
      split
      · exact WorkQueue.done_queue (q := m.queue.addAfter other) other
      · exact WorkQueue.done_queue other
  | tellJob | tellPod => exact ⟨fun _ => WorkQueue.addAll_queue _, nofun⟩
  | fire due => exact ⟨fun _ => WorkQueue.fire_queue _ due, nofun⟩

/-- The watch on a job tells the oldest news first, and queues what it names. -/
theorem jobNews_of_step {a : Action} (stepped : m.step a = some m') :
    (a ≠ .tellJob key → m.jobNews key <:+ m'.jobNews key) ∧
      (a = .tellJob key → ∃ keys, m.jobNews key = m'.jobNews key ++ [keys] ∧
        ∀ k ∈ keys, m'.queue.dirty k = true) := by
  cases moves_of_step stepped with
  | cluster => exact ⟨fun _ => suffix_tell _ _ _, nofun⟩
  | @tellJob other news keys told =>
      constructor
      · intro hOther
        have hKey : key ≠ other := fun hSame => hOther (by rw [hSame])
        have hSame : Function.update m.jobNews other news key = m.jobNews key :=
          Function.update_of_ne hKey ..
        exact ⟨[], hSame.symm⟩
      · rintro ⟨⟩
        refine ⟨keys, ?_, fun k hMem => WorkQueue.addAll_dirty.mpr (.inr hMem)⟩
        show _ = Function.update m.jobNews key news key ++ [keys]
        rw [Function.update_self, told]
  | start | finish | tellPod | fire => exact ⟨fun _ => List.suffix_refl _, nofun⟩

theorem podNews_of_step {a : Action} {pod : NamespacedName} (stepped : m.step a = some m') :
    (a ≠ .tellPod pod → m.podNews pod <:+ m'.podNews pod) ∧
      (a = .tellPod pod → ∃ keys, m.podNews pod = m'.podNews pod ++ [keys] ∧
        ∀ k ∈ keys, m'.queue.dirty k = true) := by
  cases moves_of_step stepped with
  | cluster => exact ⟨fun _ => suffix_tell _ _ _, nofun⟩
  | @tellPod other news keys told =>
      constructor
      · intro hOther
        have hPod : pod ≠ other := fun hSame => hOther (by rw [hSame])
        have hSame : Function.update m.podNews other news pod = m.podNews pod :=
          Function.update_of_ne hPod ..
        exact ⟨[], hSame.symm⟩
      · rintro ⟨⟩
        refine ⟨keys, ?_, fun k hMem => WorkQueue.addAll_dirty.mpr (.inr hMem)⟩
        show _ = Function.update m.podNews pod news pod ++ [keys]
        rw [Function.update_self, told]
  | start | finish | tellJob | fire => exact ⟨fun _ => List.suffix_refl _, nofun⟩

/-- A reconcile of the job begins. -/
def Begins (key : NamespacedName) (m m' : Manager) : Prop :=
  m.world.workers key = none ∧ m'.world.workers key = some (.start key)

/-- No reconcile works on a job until one begins. -/
theorem idle_of_step {a : Action} (idle : m.world.workers key = none)
    (stepped : m.step a = some m') : m'.world.workers key = none ∨ Begins key m m' := by
  cases workerMoves_of_step stepped key with
  | other same => exact .inl (same.trans idle)
  | begins _ begun => exact .inr ⟨idle, begun⟩
  | answered busy | finished busy =>
      rw [idle] at busy
      cases busy

/-- A job that is due stays so until its reconcile begins. -/
theorem dirty_of_step {a : Action} (dirty : m.queue.dirty key = true)
    (stepped : m.step a = some m') : m'.queue.dirty key = true ∨ Begins key m m' := by
  cases moves_of_step stepped with
  | cluster => exact .inl dirty
  | @start other queue got idle =>
      by_cases hKey : other = key
      · subst hKey
        exact .inr ⟨idle, Function.update_self other _ _⟩
      · obtain ⟨-, -, -, hDirty⟩ := WorkQueue.get_inv other got
        left
        show queue.dirty key = true
        rw [hDirty, Function.update_of_ne (Ne.symm hKey)]
        exact dirty
  | finish =>
      left
      rw [requeue_dirty]
      exact dirty
  | tellJob | tellPod => exact .inl (WorkQueue.addAll_dirty.mpr (.inl dirty))
  | fire due =>
      obtain ⟨-, -, -, hDirty⟩ := WorkQueue.fire_inv _ due
      exact .inl ((hDirty key).mpr (.inl dirty))

/-- A job that waits does so until its time has come, and is due then. -/
theorem waiting_of_step {a : Action} (waiting : m.queue.waiting key = true)
    (stepped : m.step a = some m') :
    (a ≠ .fire key → m'.queue.waiting key = true) ∧
      (a = .fire key → m'.queue.dirty key = true) := by
  cases moves_of_step stepped with
  | cluster => exact ⟨fun _ => waiting, nofun⟩
  | start got =>
      obtain ⟨-, hWaiting, -⟩ := WorkQueue.get_inv _ got
      refine ⟨fun _ => ?_, nofun⟩
      rw [hWaiting]
      exact waiting
  | finish => exact ⟨fun _ => requeue_waiting m.queue waiting, nofun⟩
  | tellJob | tellPod =>
      refine ⟨fun _ => ?_, nofun⟩
      rw [WorkQueue.addAll_waiting]
      exact waiting
  | @fire other queue due =>
      obtain ⟨-, hWaiting, -, hDirty⟩ := WorkQueue.fire_inv other due
      constructor
      · intro hOther
        have hKey : key ≠ other := fun hSame => hOther (by rw [hSame])
        show queue.waiting key = true
        rw [hWaiting, Function.update_of_ne hKey]
        exact waiting
      · rintro ⟨⟩
        exact (hDirty key).mpr (.inr rfl)

end Steps

/-- A run of the manager in which nothing that has to be done for the job is put off for
ever, nobody else creates its pods and the clock is not set back. -/
structure FairRun (key : NamespacedName) (run : Execution step) : Prop where
  starts : Reaches step (Orderly key) (Ready key) (run.state 0)
  orderly : ∀ n, Orderly key (run.state n) (run.action n)
  fair : ∀ duty : Duty, run.Fair (duty.Done key)

namespace FairRun
variable {run : Execution step} {n : Nat}

theorem reached (fair : FairRun key run) (n : Nat) :
    Reaches step (Orderly key) (Ready key) (run.state n) :=
  Execution.reaches fair.starts fair.orderly n

/-- A reconcile returns: its calls are answered, and it makes only so many. -/
theorem finishes (fair : FairRun key run) {worker : Worker key}
    (busy : (run.state n).world.workers key = some worker) :
    ∃ k, n ≤ k ∧ run.action k = .finish key := by
  obtain ⟨history, rest, path⟩ := worker
  induction rest generalizing n history with
  | done outcome =>
      have hTaken := (fair.fair .finish).taken
        (P := fun n => (run.state n).world.workers key = some ⟨history, .done outcome, path⟩)
        (fun n hBusy => ⟨.finish key, rfl, finish_isSome hBusy⟩)
        (fun n hBusy => done_of_step hBusy (run.stepped n))
      obtain ⟨k, hLater, -, hFinish⟩ := hTaken n busy
      exact ⟨k, hLater, hFinish⟩
  | ask call next ih =>
      have hTaken := (fair.fair .answer).taken
        (P := fun n => (run.state n).world.workers key = some ⟨history, .ask call next, path⟩)
        (fun n hBusy => ?_) (fun n hBusy hOther => ?_)
      · obtain ⟨k, hLater, hBusy, reply, hAction⟩ := hTaken n busy
        rcases ask_of_step hBusy (run.stepped k) with ⟨-, hUnanswered⟩ |
          ⟨_, answer, middle, -, -, hAfter⟩
        · exact absurd hAction (hUnanswered reply)
        · have hNext : (run.state (k + 1)).world.workers key =
              some (Worker.extend path answer) := by
            rw [hAfter]
            exact Function.update_self ..
          obtain ⟨j, hLatest, hFinish⟩ := ih answer _ _ hNext
          exact ⟨j, by omega, hFinish⟩
      · obtain ⟨reply, hSome⟩ := answer_isSome hBusy
        exact ⟨_, ⟨reply, rfl⟩, hSome⟩
      · rcases ask_of_step hBusy (run.stepped n) with ⟨hSame, -⟩ | ⟨reply, -, -, hAction, -⟩
        · exact hSame
        · exact absurd ⟨reply, hAction⟩ hOther

/-- The job is not worked on once its reconcile has returned. -/
theorem idles (fair : FairRun key run) (n : Nat) :
    ∃ k, n ≤ k ∧ (run.state k).world.workers key = none := by
  cases hWorker : (run.state n).world.workers key with
  | none => exact ⟨n, Nat.le_refl n, hWorker⟩
  | some worker =>
      obtain ⟨k, hLater, hFinish⟩ := fair.finishes hWorker
      have hStepped := run.stepped k
      rw [hFinish] at hStepped
      exact ⟨k + 1, Nat.le_succ_of_le hLater, idle_of_finish hStepped⟩

/-- What is known of a reconcile in flight that began at a certain time. -/
def Traced (key : NamespacedName) (run : Execution step) (begun now : Nat)
    (history : History) : Prop :=
  ∀ before e later, history = before ++ e :: later → ∃ j, begun < j ∧ j < now ∧
    Answered key (run.state j) (run.action j) (run.state (j + 1)) before e

theorem Traced.mono {begun now now' : Nat} {history : History}
    (traced : Traced key run begun now history) (later : now ≤ now') :
    Traced key run begun now' history := by
  intro before e rest hSplit
  obtain ⟨j, hAfter, hBefore, hAnswered⟩ := traced before e rest hSplit
  exact ⟨j, hAfter, Nat.lt_of_lt_of_le hBefore later, hAnswered⟩

/-- One more answer. -/
theorem Traced.snoc {begun now : Nat} {history : History} {e : Event Call.Answer}
    (traced : Traced key run begun now history) (later : begun < now)
    (answered : Answered key (run.state now) (run.action now) (run.state (now + 1)) history e) :
    Traced key run begun (now + 1) (history ++ [e]) := by
  intro before e' rest hSplit
  rcases List.eq_nil_or_concat rest with rfl | ⟨rest', last, rfl⟩
  · obtain ⟨rfl, hSame⟩ := List.append_inj' hSplit rfl
    cases hSame
    exact ⟨now, later, Nat.lt_succ_self now, answered⟩
  · have hOld : history = before ++ e' :: rest' := by
      rw [List.concat_eq_append, ← List.cons_append, ← List.append_assoc] at hSplit
      exact (List.append_inj' hSplit rfl).1
    exact traced.mono (Nat.le_succ now) before e' rest' hOld

/-- All that a reconcile knows it was told since it began. -/
theorem returns_of_begins (fair : FairRun key run)
    (begins : Begins key (run.state n) (run.state (n + 1))) : ∃ k, n < k ∧
      run.action k = .finish key ∧ ∃ history outcome path,
        (run.state k).world.workers key = some ⟨history, .done outcome, path⟩ ∧
        Traced key run n k history := by
  obtain ⟨last, hLater, hLast⟩ := fair.finishes begins.2
  have hExists : ∃ k, n < k ∧ run.action k = .finish key := ⟨last, hLater, hLast⟩
  obtain ⟨k, ⟨hAfter, hFinish⟩, hFirst⟩ : ∃ k, (n < k ∧ run.action k = .finish key) ∧
      ∀ j, j < k → ¬ (n < j ∧ run.action j = .finish key) := by
    classical
    exact ⟨Nat.find hExists, Nat.find_spec hExists, fun j => Nat.find_min hExists⟩
  -- up to its end the reconcile is in flight
  have hBusy : ∀ j, n < j → j ≤ k → ∃ worker,
      (run.state j).world.workers key = some worker ∧ Traced key run n j worker.history := by
    intro j hFrom hTo
    induction j, hFrom using Nat.le_induction with
    | base =>
        refine ⟨_, begins.2, fun before e later hSplit => ?_⟩
        exact absurd hSplit.symm (by simp [Worker.start])
    | succ j hFrom ih =>
        obtain ⟨worker, hWorker, hTraced⟩ := ih (by omega)
        have hGoing : run.action j ≠ .finish key := fun h => hFirst j (by omega) ⟨hFrom, h⟩
        rcases answered_of_step hWorker (run.stepped j) hGoing with
          hSame | ⟨e, later, hNext, hHistory, hAnswered⟩
        · exact ⟨worker, hSame, hTraced.mono (Nat.le_succ j)⟩
        · refine ⟨later, hNext, ?_⟩
          rw [hHistory]
          exact hTraced.snoc hFrom hAnswered
  obtain ⟨⟨history, rest, path⟩, hWorker, hTraced⟩ := hBusy k hAfter (Nat.le_refl k)
  have hStepped := run.stepped k
  rw [hFinish] at hStepped
  cases workerMoves_of_step hStepped key with
  | other _ _ unfinished => exact absurd rfl unfinished
  | finished busy =>
      rw [hWorker] at busy
      cases busy
      exact ⟨k, hAfter, hFinish, history, _, path, hWorker, hTraced⟩

/-- A job that is queued is taken in its turn. -/
theorem queued_begins (fair : FairRun key run) (queued : key ∈ (run.state n).queue.queue) :
    ∃ k, n ≤ k ∧ Begins key (run.state k) (run.state (k + 1)) := by
  have hTaken := (fair.fair .start).handedOut (fun m => m.queue.queue)
    (fun n hQueued => ⟨.start, rfl, start_isSome (working_of_run (fair.reached n)) hQueued⟩)
    (fun n => (queue_of_step (run.stepped n)).1) (fun n hStart => ?_) queued
  · obtain ⟨k, hLater, hStart, hFront⟩ := hTaken
    obtain ⟨first, hGot, hIdle, hBegun⟩ := (queue_of_step (run.stepped k)).2 hStart
    rw [WorkQueue.queue_of_get _ hGot] at hFront
    obtain rfl : first = key := Option.some.inj hFront
    exact ⟨k, hLater, hIdle, hBegun⟩
  · obtain ⟨first, hGot, -⟩ := (queue_of_step (run.stepped n)).2 hStart
    rw [WorkQueue.queue_of_get _ hGot]
    exact List.prefix_refl _

/-- A job that is due is reconciled, after the reconcile that it may be worked on by. -/
theorem dirty_begins (fair : FairRun key run) (dirty : (run.state n).queue.dirty key = true) :
    ∃ k, n ≤ k ∧ Begins key (run.state k) (run.state (k + 1)) := by
  obtain ⟨k, hLater, hIdle⟩ := fair.idles n
  have hKept := kept_until (P := fun n => (run.state n).queue.dirty key = true)
    (fun n hDirty => dirty_of_step hDirty (run.stepped n)) dirty hLater
  rcases hKept with hDirty | ⟨j, hFrom, -, hBegins⟩
  · have hFree : (run.state k).queue.processing key = false := by
      rw [← Bool.not_eq_true, working_of_run (fair.reached k) key]
      exact not_not.mpr hIdle
    have hQueued := ((run.state k).queue.queued key).mpr ⟨hDirty, hFree⟩
    obtain ⟨j, hLatest, hBegins⟩ := fair.queued_begins hQueued
    exact ⟨j, Nat.le_trans hLater hLatest, hBegins⟩
  · exact ⟨j, hFrom, hBegins⟩

/-- News is told, and what it names is due then. -/
theorem news_dirty {duty : Duty} (fair : run.Fair (duty.Done key))
    (news : Manager → List (List NamespacedName))
    (enabled : ∀ m, news m ≠ [] → Enabled step (duty.Done key) m)
    (kept : ∀ n, ¬ duty.Done key (run.action n) → news (run.state n) <:+ news (run.state (n + 1)))
    (told : ∀ n, duty.Done key (run.action n) → ∃ keys,
      news (run.state n) = news (run.state (n + 1)) ++ [keys] ∧
        ∀ k ∈ keys, (run.state (n + 1)).queue.dirty k = true)
    (named : InNews (news (run.state n)) key) :
    ∃ k, n ≤ k ∧ (run.state k).queue.dirty key = true := by
  obtain ⟨keys, hMem, hKey⟩ := named
  have hTold := fair.handedOut (fun m => (news m).reverse) (fun n hNews => enabled _ ?_)
    (fun n hOther => List.reverse_prefix.mpr (kept n hOther)) (fun n hDone => ?_)
    (List.mem_reverse.mpr hMem)
  · obtain ⟨k, hLater, hDone, hFront⟩ := hTold
    obtain ⟨last, hNews, hDirty⟩ := told k hDone
    rw [hNews, List.reverse_concat] at hFront
    obtain rfl : last = keys := Option.some.inj hFront
    exact ⟨k + 1, Nat.le_succ_of_le hLater, hDirty key hKey⟩
  · exact fun hNil => hNews (by rw [hNil, List.reverse_nil])
  · obtain ⟨last, hNews, -⟩ := told n hDone
    rw [hNews, List.reverse_concat]
    exact List.prefix_refl _

theorem noticed_dirty (fair : FairRun key run) (noticed : (run.state n).Noticed key) :
    ∃ k, n ≤ k ∧ (run.state k).queue.dirty key = true := by
  have hLast : ∀ {news : List (List NamespacedName)}, news ≠ [] →
      ∃ keys, news.getLast? = some keys :=
    fun hNews => ⟨_, List.getLast?_eq_some_getLast hNews⟩
  rcases noticed with hDirty | hJob | ⟨r, hPod⟩
  · exact ⟨n, Nat.le_refl n, hDirty⟩
  · refine news_dirty (fair.fair .tellJob) (fun m => m.jobNews key) (fun m hNews => ?_)
      (fun n => (jobNews_of_step (run.stepped n)).1) (fun n => (jobNews_of_step (run.stepped n)).2)
      hJob
    obtain ⟨keys, hOldest⟩ := hLast hNews
    exact ⟨.tellJob key, rfl, by simp [step, hOldest]⟩
  · refine news_dirty (fair.fair (.tellPod r)) (fun m => m.podNews (simulatorPodKey key r))
      (fun m hNews => ?_) (fun n => (podNews_of_step (run.stepped n)).1)
      (fun n => (podNews_of_step (run.stepped n)).2) hPod
    obtain ⟨keys, hOldest⟩ := hLast hNews
    exact ⟨.tellPod (simulatorPodKey key r), rfl, by simp [step, hOldest]⟩

/-- The time of a job that waits comes. -/
theorem waiting_dirty (fair : FairRun key run) (waiting : (run.state n).queue.waiting key = true) :
    ∃ k, n ≤ k ∧ (run.state k).queue.dirty key = true := by
  have hTaken := (fair.fair .fire).taken (P := fun n => (run.state n).queue.waiting key = true)
    (fun n hWaiting => ⟨.fire key, rfl, by simp [step, WorkQueue.fire, hWaiting]⟩)
    (fun n hWaiting => (waiting_of_step hWaiting (run.stepped n)).1)
  obtain ⟨k, hLater, hWaiting, hFire⟩ := hTaken n waiting
  exact ⟨k + 1, Nat.le_succ_of_le hLater, (waiting_of_step hWaiting (run.stepped k)).2 hFire⟩

/-- A job that is to be looked at again and again is reconciled again and again. -/
theorem awake_begins (fair : FairRun key run)
    (awake : ∃ᶠ n in atTop, (run.state n).Awake key) :
    ∃ᶠ n in atTop, Begins key (run.state n) (run.state (n + 1)) := by
  rw [frequently_atTop] at awake ⊢
  intro n
  have hDirty : ∀ {k}, n ≤ k → (∃ j, k ≤ j ∧ (run.state j).queue.dirty key = true) →
      ∃ j, n ≤ j ∧ Begins key (run.state j) (run.state (j + 1)) := by
    rintro k hLater ⟨j, hFrom, hDirty⟩
    obtain ⟨l, hLatest, hBegins⟩ := fair.dirty_begins hDirty
    exact ⟨l, by omega, hBegins⟩
  obtain ⟨i, hIdleFrom, hIdle⟩ := fair.idles n
  obtain ⟨k, hLater, hAwake⟩ := awake i
  rcases hAwake with hNoticed | hWaiting | hBusy
  · exact hDirty (Nat.le_trans hIdleFrom hLater) (fair.noticed_dirty hNoticed)
  · exact hDirty (Nat.le_trans hIdleFrom hLater) (fair.waiting_dirty hWaiting)
  · -- the reconcile in flight has begun in the meantime
    have hKept := kept_until (P := fun n => (run.state n).world.workers key = none)
      (fun n hIdle => idle_of_step hIdle (run.stepped n)) hIdle hLater
    rcases hKept with hNone | ⟨j, hFrom, -, hBegins⟩
    · exact absurd hNone hBusy
    · exact ⟨j, Nat.le_trans hIdleFrom hFrom, hBegins⟩

end FairRun
end Manager
end QuantumService.Cluster
