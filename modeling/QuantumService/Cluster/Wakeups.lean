import QuantumService.Cluster.Watched

/-! No job is forgotten. As long as a job is not over, its controller has a reason to
look at it again: a reconcile in flight, a place in the queue, a delay that runs out, or
a change it has not been told. Stale reads and lost answers do not matter. -/
namespace QuantumService.Cluster
open Interaction Controller World

namespace Manager
variable {m m' : Manager} {key : NamespacedName}

/-- The job is to be looked at again, now or when a change has been told. -/
def Noticed (m : Manager) (key : NamespacedName) : Prop :=
  m.queue.dirty key = true ∨ InNews (m.jobNews key) key ∨
    ∃ r, InNews (m.podNews (simulatorPodKey key r)) key

/-- The manager has a reason to look at the job, or is about to. -/
def Awake (m : Manager) (key : NamespacedName) : Prop :=
  m.Noticed key ∨ m.queue.waiting key = true ∨ m.world.workers key ≠ none

/-- Everything a step of the manager can do. -/
inductive Moves (m : Manager) : Action → Manager → Prop where
  | cluster {a : World.Action} {w' : World} (admitted : m.admits a = true)
      (stepped : m.world.step a = some w') : Moves m (.cluster a) (m.observe w')
  | start {key : NamespacedName} {queue : WorkQueue NamespacedName}
      (got : m.queue.get = some (key, queue)) (idle : m.world.workers key = none) :
      Moves m .start
        { m with world := m.world.setWorker key (some (.start key)), queue := queue }
  | finish {key : NamespacedName} {history : History} {outcome : Outcome}
      {path : Program.Path (reconcile key) history (.done outcome)}
      (busy : m.world.workers key = some ⟨history, .done outcome, path⟩) :
      Moves m (.finish key)
        { m with
          world := { m.world.setWorker key none with
            finished := (key, history, outcome) :: m.world.finished }
          queue := requeue m.queue key outcome }
  | tellJob {key : NamespacedName} {news : List (List NamespacedName)}
      {keys : List NamespacedName} (told : m.jobNews key = news ++ [keys]) :
      Moves m (.tellJob key) { m with
        queue := m.queue.addAll keys, jobNews := Function.update m.jobNews key news }
  | tellPod {key : NamespacedName} {news : List (List NamespacedName)}
      {keys : List NamespacedName} (told : m.podNews key = news ++ [keys]) :
      Moves m (.tellPod key) { m with
        queue := m.queue.addAll keys, podNews := Function.update m.podNews key news }
  | fire {key : NamespacedName} {queue : WorkQueue NamespacedName}
      (due : m.queue.fire key = some queue) : Moves m (.fire key) { m with queue := queue }

/-- Every step is one of the moves. -/
theorem moves_of_step {a : Action} (h : m.step a = some m') : Moves m a m' := by
  cases a with
  | cluster a =>
      simp only [step] at h
      split at h
      · rename_i hAdmitted
        obtain ⟨w', hStep, rfl⟩ := Option.map_eq_some_iff.mp h
        exact .cluster hAdmitted hStep
      · cases h
  | start =>
      obtain ⟨⟨key, queue⟩, hGot, hStart⟩ := Option.bind_eq_some_iff.mp h
      obtain ⟨w', hStep, rfl⟩ := Option.map_eq_some_iff.mp hStart
      cases World.moves_of_step hStep with
      | start idle => exact .start hGot idle
  | finish key =>
      simp only [step] at h
      split at h
      · rename_i history outcome path hBusy
        obtain ⟨w', hStep, rfl⟩ := Option.map_eq_some_iff.mp h
        have hFinish : m.world.step (.finish key) = some { m.world.setWorker key none with
            finished := (key, history, outcome) :: m.world.finished } := by
          simp [World.step, hBusy, World.finish]
        rw [hFinish] at hStep
        cases hStep
        exact .finish hBusy
      · cases h
      · cases h
  | tellJob key =>
      simp only [step] at h
      split at h
      · rename_i keys hLast
        cases h
        exact .tellJob (List.dropLast_append_getLast? keys hLast).symm
      · cases h
  | tellPod key =>
      simp only [step] at h
      split at h
      · rename_i keys hLast
        cases h
        exact .tellPod (List.dropLast_append_getLast? keys hLast).symm
      · cases h
  | fire key =>
      obtain ⟨queue, hDue, rfl⟩ := Option.map_eq_some_iff.mp h
      exact .fire hDue

/-- What the watches have not told yet covers all that can be read, and what was read;
a job that no reconcile works on is due to be looked at again, or at rest. -/
structure Attentive (m : Manager) (key : NamespacedName) : Prop where
  jobs : Covers (m.world.jobs key) (m.jobNews key) key
  pods : ∀ r, Covers (m.world.pods (simulatorPodKey key r)) (m.podNews (simulatorPodKey key r)) key
  watched : (m.world.view key).Watched (m.Noticed key)
  rests : m.world.workers key = none → ∀ job, (m.world.jobs key).current = some job →
    m.Noticed key ∨ m.queue.waiting key = true ∨ (m.world.view key).Rests job

section Answers
variable {w w' : World}

/-- The answer by which a reconcile was moved on. -/
theorem respond_of_step {a : World.Action} (sound : ∀ key, (w.view key).Sound)
    (stepped : w.step a = some w') {history : History} {call : Call}
    {next : call.Answer → Reconciler Outcome}
    {path : Program.Path (reconcile key) history (.ask call next)} {answer : call.Answer}
    (busy : w.workers key = some ⟨history, .ask call next, path⟩)
    (after : w'.workers key = some (Worker.extend path answer)) :
    ∃ reply middle, a = .answer key reply ∧ w.respond key call reply = some (answer, middle) := by
  obtain ⟨reply, rfl⟩ := (view_moves sound stepped key).answers busy after
  refine ⟨reply, ?_⟩
  obtain ⟨worker, hBusy, hAnswer⟩ := Option.bind_eq_some_iff.mp stepped
  rw [busy] at hBusy
  cases hBusy
  obtain ⟨⟨answer', middle⟩, hRespond, rfl⟩ := Option.map_eq_some_iff.mp hAnswer
  have hWorker : some (Worker.extend path answer') = some (Worker.extend path answer) :=
    (Function.update_self key _ _).symm.trans after
  have hHistory : history ++ [⟨call, answer'⟩] = history ++ [⟨call, answer⟩] :=
    congrArg Worker.history (Option.some.inj hWorker)
  have hSame : answer' = answer := by
    simpa using hHistory
  exact ⟨middle, rfl, hSame ▸ hRespond⟩

end Answers

theorem Noticed.observe (noticed : m.Noticed key) (w' : World) : (m.observe w').Noticed key := by
  rcases noticed with hDirty | hJob | ⟨r, hPod⟩
  · exact .inl hDirty
  · exact .inr (.inl (inNews_tell _ _ hJob))
  · exact .inr (.inr ⟨r, inNews_tell _ _ hPod⟩)

/-- A change of a pod queues the job that controls it. -/
theorem mem_podRequests {before after : Option Pod} (changed : after ≠ before)
    (owned : ∀ pod, before = some pod ∨ after = some pod → controllerKey pod = some key) :
    key ∈ podRequests before after := by
  unfold podRequests
  rw [if_neg (Ne.symm changed), List.mem_filterMap]
  cases before with
  | some pod => exact ⟨pod, by simp, owned pod (.inl rfl)⟩
  | none =>
      cases after with
      | some pod => exact ⟨pod, by simp, owned pod (.inr rfl)⟩
      | none => exact absurd rfl changed

section Cluster
variable {w' : World} {a : World.Action}

theorem serves_job (attentive : m.Attentive key) (sound : ∀ key, (m.world.view key).Sound)
    (admitted : m.admits a = true) (stepped : m.world.step a = some w') {history : History}
    {req : NamespacedName} {next : Except ApiError QuantumAerJob → Reconciler Outcome}
    {path : Program.Path (reconcile key) history (.ask (.getJob req) next)}
    {answer : Except ApiError QuantumAerJob}
    (busy : m.world.workers key = some ⟨history, .ask (.getJob req) next, path⟩)
    (after : w'.workers key = some (@Worker.extend key history (.getJob req) next path answer)) :
    Serves (m.world.jobs key).current answer ∨ m.Noticed key := by
  obtain ⟨reply, middle, rfl, hRespond⟩ := respond_of_step sound stepped busy after
  obtain ⟨-, rfl⟩ := (site_of_busy path).getJob_inv
  cases reply with
  | read age =>
      obtain ⟨⟨value, register⟩, hRead, hPair⟩ := Option.map_eq_some_iff.mp hRespond
      cases hPair
      have hRecent : age ≤ (m.jobNews req).length := by
        simpa [admits, recent, busy] using admitted
      rcases attentive.jobs.of_read hRecent hRead with rfl | hNews
      · exact .inl (.inl rfl)
      · exact .inr (.inr (.inl hNews))
  | fail text =>
      cases hRespond
      exact .inl (.inr ⟨text, rfl⟩)
  | ok | absent | lost => cases hRespond

theorem serves_pod (attentive : m.Attentive key) (sound : ∀ key, (m.world.view key).Sound)
    (admitted : m.admits a = true) (stepped : m.world.step a = some w') {history : History}
    {job : QuantumAerJob} {q : NamespacedName}
    {next : Except ApiError Pod → Reconciler Outcome}
    {path : Program.Path (reconcile key) history (.ask (.getPod q) next)}
    {answer : Except ApiError Pod}
    (busy : m.world.workers key = some ⟨history, .ask (.getPod q) next, path⟩)
    (held : readJob history = some job)
    (after : w'.workers key = some (@Worker.extend key history (.getPod q) next path answer)) :
    Serves (m.world.pods (simulatorPodKey key job.status.retries)).current answer ∨
      m.Noticed key := by
  obtain ⟨reply, middle, rfl, hRespond⟩ := respond_of_step sound stepped busy after
  obtain ⟨job', hRead, hNamed, hPod⟩ := (site_of_busy path).getPod_inv
  obtain rfl := Option.some.inj (held.symm.trans hRead)
  have hOk := (sound key).versions.ok ((sound key).held_visible busy held)
  rw [JobView.podKey_eq ((sound key).held_key busy held) hOk hNamed] at hPod
  subst hPod
  cases reply with
  | read age =>
      obtain ⟨⟨value, register⟩, hRead, hPair⟩ := Option.map_eq_some_iff.mp hRespond
      cases hPair
      have hRecent : age ≤ (m.podNews (simulatorPodKey key job.status.retries)).length := by
        simpa [admits, recent, busy] using admitted
      rcases (attentive.pods _).of_read hRecent hRead with rfl | hNews
      · exact .inl (.inl rfl)
      · exact .inr (.inr (.inr ⟨_, hNews⟩))
  | fail text =>
      cases hRespond
      exact .inl (.inr ⟨text, rfl⟩)
  | ok | absent | lost => cases hRespond

/-- A step of the cluster is told as far as it concerns the job. -/
theorem Attentive.cluster (attentive : m.Attentive key)
    (sound : ∀ key, (m.world.view key).Sound) (controlled : (m.world.view key).Controlled)
    (later : (w'.view key).Controlled) (admitted : m.admits a = true)
    (stepped : m.world.step a = some w') : (m.observe w').Attentive key := by
  have hMoves := view_moves sound stepped key
  have hJob : Evolves (m.world.jobs key) (w'.jobs key) := hMoves.jobEvolves
  have hPods : ∀ r, Evolves (m.world.pods (simulatorPodKey key r))
      (w'.pods (simulatorPodKey key r)) := hMoves.podEvolves
  have hJobNames : (w'.jobs key).current ≠ (m.world.jobs key).current →
      key ∈ jobRequests key (m.world.jobs key).current (w'.jobs key).current := by
    intro hChanged
    simp [jobRequests, Ne.symm hChanged]
  have hPodNames : ∀ r, (w'.pods (simulatorPodKey key r)).current ≠
      (m.world.pods (simulatorPodKey key r)).current →
      key ∈ podRequests (m.world.pods (simulatorPodKey key r)).current
        (w'.pods (simulatorPodKey key r)).current := by
    intro r hChanged
    refine mem_podRequests hChanged ?_
    rintro pod (hBefore | hAfter)
    · exact controlled r pod (hBefore ▸ Register.current_mem_visible _)
    · exact later r pod (hAfter ▸ Register.current_mem_visible _)
  -- a change is noticed
  have hJobKept : (w'.jobs key).current = (m.world.jobs key).current ∨
      (m.observe w').Noticed key := by
    by_cases hSame : (w'.jobs key).current = (m.world.jobs key).current
    · exact .inl hSame
    · exact .inr (.inr (.inl (inNews_of_changed hJob hSame hJobNames)))
  have hPodKept : ∀ r, (w'.pods (simulatorPodKey key r)).current =
      (m.world.pods (simulatorPodKey key r)).current ∨ (m.observe w').Noticed key := by
    intro r
    by_cases hSame : (w'.pods (simulatorPodKey key r)).current =
        (m.world.pods (simulatorPodKey key r)).current
    · exact .inl hSame
    · exact .inr (.inr (.inr ⟨r, inNews_of_changed (hPods r) hSame (hPodNames r)⟩))
  have hNoticed : m.Noticed key → (m.observe w').Noticed key := fun h => h.observe w'
  constructor
  · exact attentive.jobs.tell hJob hJobNames
  · exact fun r => (attentive.pods r).tell (hPods r) (hPodNames r)
  · refine attentive.watched.step hNoticed hJobKept hPodKept ?_ ?_ hMoves
    · intro history req next path answer hWaits hAfter
      exact (serves_job attentive sound admitted stepped hWaits hAfter).imp id hNoticed
    · intro history job q next path answer hWaits hRead hAfter
      exact (serves_pod attentive sound admitted stepped hWaits hRead hAfter).imp id hNoticed
  · intro hIdle job hStored
    have hOther : a ≠ .finish key := by
      rintro rfl
      cases admitted
    have hBefore := hMoves.idle hOther hIdle
    rcases hJobKept with hSame | hNow
    · rcases attentive.rests hBefore job (hSame.symm.trans hStored) with
        hOld | hWaiting | hEnded | ⟨hState, pod, hPod, hPhase⟩
      · exact .inl (hNoticed hOld)
      · exact .inr (.inl hWaiting)
      · exact .inr (.inr (.inl hEnded))
      · rcases hPodKept job.status.retries with hSamePod | hNow
        · exact .inr (.inr (.inr ⟨hState, pod, hSamePod.trans hPod, hPhase⟩))
        · exact .inl hNow
    · exact .inl hNow

end Cluster

/-- What a manager does without the cluster's taking part. -/
theorem Attentive.keep (attentive : m.Attentive key) (world : m'.world = m.world)
    (noticed : m.Noticed key → m'.Noticed key)
    (waiting : m.queue.waiting key = true → m'.Noticed key ∨ m'.queue.waiting key = true)
    (jobs : Covers (m.world.jobs key) (m'.jobNews key) key)
    (pods : ∀ r, Covers (m.world.pods (simulatorPodKey key r))
      (m'.podNews (simulatorPodKey key r)) key) : m'.Attentive key := by
  constructor
  · rw [world]
    exact jobs
  · rw [world]
    exact pods
  · rw [world]
    exact attentive.watched.keep rfl noticed (.inl rfl) fun _ => .inl rfl
  · intro hIdle job hStored
    rw [world] at hIdle hStored ⊢
    rcases attentive.rests hIdle job hStored with hNoticed | hWaiting | hRests
    · exact .inl (noticed hNoticed)
    · exact (waiting hWaiting).imp id .inl
    · exact .inr (.inr hRests)

section Told
variable {other : NamespacedName} {news : List (List NamespacedName)}
  {keys : List NamespacedName}

/-- What is told stays noticed: it is queued. -/
theorem Attentive.tellJob (attentive : m.Attentive key)
    (told : m.jobNews other = news ++ [keys]) :
    Attentive { m with
      queue := m.queue.addAll keys, jobNews := Function.update m.jobNews other news } key := by
  refine attentive.keep rfl ?_ (fun hWaiting => .inr ?_) (attentive.jobs.told_of told)
    attentive.pods
  · rintro (hDirty | hJob | hPod)
    · exact .inl (WorkQueue.addAll_dirty.mpr (.inl hDirty))
    · rcases inNews_of_told hJob told with hKey | hNews
      · exact .inl (WorkQueue.addAll_dirty.mpr (.inr hKey))
      · exact .inr (.inl hNews)
    · exact .inr (.inr hPod)
  · rw [WorkQueue.addAll_waiting]
    exact hWaiting

theorem Attentive.tellPod (attentive : m.Attentive key)
    (told : m.podNews other = news ++ [keys]) :
    Attentive { m with
      queue := m.queue.addAll keys, podNews := Function.update m.podNews other news } key := by
  refine attentive.keep rfl ?_ (fun hWaiting => .inr ?_) attentive.jobs
    fun r => (attentive.pods r).told_of told
  · rintro (hDirty | hJob | ⟨r, hPod⟩)
    · exact .inl (WorkQueue.addAll_dirty.mpr (.inl hDirty))
    · exact .inr (.inl hJob)
    · rcases inNews_of_told hPod told with hKey | hNews
      · exact .inl (WorkQueue.addAll_dirty.mpr (.inr hKey))
      · exact .inr (.inr ⟨r, hNews⟩)
  · rw [WorkQueue.addAll_waiting]
    exact hWaiting

end Told

/-- A job whose time has come is queued. -/
theorem Attentive.fire (attentive : m.Attentive key) {other : NamespacedName}
    {queue : WorkQueue NamespacedName} (due : m.queue.fire other = some queue) :
    Attentive { m with queue := queue } key := by
  obtain ⟨-, hWaiting, -, hDirty⟩ := WorkQueue.fire_inv other due
  refine attentive.keep rfl ?_ ?_ attentive.jobs attentive.pods
  · exact fun hNoticed => hNoticed.imp (fun h => (hDirty key).mpr (.inl h)) id
  · intro hBefore
    by_cases hKey : key = other
    · exact .inl (.inl ((hDirty key).mpr (.inr hKey)))
    · right
      show queue.waiting key = true
      rw [hWaiting, Function.update_of_ne hKey]
      exact hBefore

/-- A worker takes the next job. -/
theorem Attentive.start (attentive : m.Attentive key) {other : NamespacedName}
    {queue : WorkQueue NamespacedName} (got : m.queue.get = some (other, queue)) :
    Attentive { m with
      world := m.world.setWorker other (some (.start other)), queue := queue } key := by
  obtain ⟨-, hWaiting, -, hDirty⟩ := WorkQueue.get_inv other got
  by_cases hKey : other = key
  · subst hKey
    refine ⟨attentive.jobs, attentive.pods, ?_, ?_⟩
    · rw [view_setWorker]
      exact .start
    · intro hIdle
      rw [setWorker_workers, Function.update_self] at hIdle
      cases hIdle
  · have hNoticed : m.Noticed key → Noticed { m with
        world := m.world.setWorker other (some (.start other)), queue := queue } key := by
      rintro (hBefore | hNews)
      · left
        show queue.dirty key = true
        rw [hDirty, Function.update_of_ne (Ne.symm hKey)]
        exact hBefore
      · exact .inr hNews
    refine ⟨attentive.jobs, attentive.pods, ?_, ?_⟩
    · rw [view_setWorker_of_ne _ hKey]
      exact attentive.watched.keep rfl hNoticed (.inl rfl) fun _ => .inl rfl
    · intro hIdle job hStored
      rw [setWorker_workers, Function.update_of_ne (Ne.symm hKey)] at hIdle
      rw [view_setWorker_of_ne _ hKey]
      show _ ∨ queue.waiting key = true ∨ _
      rw [hWaiting]
      exact (attentive.rests hIdle job hStored).imp hNoticed id

section Requeue
variable (queue : WorkQueue NamespacedName) {other : NamespacedName} {outcome : Outcome}

theorem requeue_dirty : (requeue queue other outcome).dirty = queue.dirty := by
  unfold requeue
  split <;> rfl

theorem requeue_waiting (waiting : queue.waiting key = true) :
    (requeue queue other outcome).waiting key = true := by
  unfold requeue
  split
  · exact (WorkQueue.addAfter_waiting other).mpr (.inl waiting)
  · exact waiting

/-- A return that asks for another reconcile gets one. -/
theorem requeue_of_revisited (revisited : Revisited outcome) :
    (requeue queue key outcome).waiting key = true := by
  unfold requeue
  rw [if_pos]
  · exact (WorkQueue.addAfter_waiting key).mpr (.inr rfl)
  · simpa [Revisited, or_assoc, Option.isSome_iff_ne_none] using revisited

end Requeue

/-- A reconcile has returned. -/
theorem Attentive.finish (attentive : m.Attentive key) (sound : (m.world.view key).Sound)
    (elapsed : (m.world.view key).Elapsed) (deletes : DeletesJob m.world key)
    {other : NamespacedName} {history : History} {outcome : Outcome}
    {path : Program.Path (reconcile other) history (.done outcome)}
    (busy : m.world.workers other = some ⟨history, .done outcome, path⟩) :
    Attentive { m with
      world := { m.world.setWorker other none with
        finished := (other, history, outcome) :: m.world.finished }
      queue := requeue m.queue other outcome } key := by
  have hNoticed : m.Noticed key → Noticed { m with
      world := { m.world.setWorker other none with
        finished := (other, history, outcome) :: m.world.finished }
      queue := requeue m.queue other outcome } key := by
    rintro (hBefore | hNews)
    · left
      show (requeue m.queue other outcome).dirty key = true
      rw [requeue_dirty]
      exact hBefore
    · exact .inr hNews
  by_cases hKey : other = key
  · subst hKey
    refine ⟨attentive.jobs, attentive.pods, .idle (Function.update_self other _ _), ?_⟩
    intro _ job hStored
    by_cases hFinal : Revisited outcome
    · exact .inr (.inl (requeue_of_revisited m.queue hFinal))
    · have hRests := attentive.watched.rests sound elapsed busy
        (fun job answer hMem hGone => deletes _ job answer busy hMem hGone) hFinal hStored
      exact hRests.imp hNoticed .inr
  · have hWorker : (m.world.setWorker other none).workers key = m.world.workers key := by
      rw [setWorker_workers, Function.update_of_ne (Ne.symm hKey)]
    refine ⟨attentive.jobs, attentive.pods, ?_, ?_⟩
    · exact attentive.watched.keep hWorker hNoticed (.inl rfl) fun _ => .inl rfl
    · intro hIdle job hStored
      rcases attentive.rests (hWorker.symm.trans hIdle) job hStored with
        hBefore | hWaiting | hRests
      · exact .inl (hNoticed hBefore)
      · exact .inr (.inl (requeue_waiting m.queue hWaiting))
      · exact .inr (.inr hRests)

/-- Nobody else creates pods under the names of the job's attempts, and the clock is
never set back. -/
def Orderly (key : NamespacedName) (m : Manager) : Action → Prop
  | .cluster a => Alone key m.world a ∧ ForwardClock m.world a
  | .start | .finish _ | .tellJob _ | .tellPod _ | .fire _ => True

/-- A manager in a cluster with no jobs, and no pods under the names of the job's attempts. -/
structure Ready (key : NamespacedName) (m : Manager) : Prop where
  initial : Initial m
  vacant : ∀ r pod, some pod ∉ ((m.world.view key).pods r).visible

/-- The cluster under a manager runs as it may run by itself. -/
theorem world_of_run (run : Reaches step (Orderly key) (Ready key) m) :
    Reaches World.step (fun w a => Alone key w a ∧ ForwardClock w a)
      (fun w => World.Initial w ∧ ∀ r pod, some pod ∉ ((w.view key).pods r).visible) m.world := by
  refine run.project Manager.world (fun s ready => ⟨ready.initial.world, ready.vacant⟩) ?_
  intro s a t _ orderly stepped reached
  cases moves_of_step stepped with
  | cluster admitted moved => exact .step reached orderly moved
  | @start other queue got idle =>
      refine .step (a := .reconcile other) reached ⟨?_, trivial⟩ ?_
      · rintro pod ⟨⟩
      · simp [World.step, idle]
  | @finish other history outcome path busy =>
      refine .step (a := .finish other) reached ⟨?_, trivial⟩ ?_
      · rintro pod ⟨⟩
      · simp [World.step, busy, World.finish]
  | tellJob | tellPod | fire => exact reached

end Manager

namespace World
variable {w : World} {key : NamespacedName}

theorem elapsed_of_reaches (run : Reaches step ForwardClock Initial w) :
    (w.view key).Elapsed := by
  have hBoth : (w.view key).Timely ∧ (w.view key).Elapsed := by
    apply view_invariant (fun v => v.Timely ∧ v.Elapsed) (fun _ h => h) _ _ run
    · intro s initial
      have hJob : (s.view key).job = .synced none := initial.jobs key
      have hIdle : (s.view key).worker = none := initial.idle key
      refine ⟨timely_of_reaches (.start initial), ?_, ?_⟩
      · simp [hJob]
      · simp [hIdle]
    · rintro s a v' sound ⟨timely, elapsed⟩ forward moves
      have hForward : ∀ now, a = .setClock now → (s.view key).clock ≤ now := by
        rintro now rfl
        exact forward
      exact ⟨timely.step sound hForward moves, elapsed.step sound timely hForward moves⟩
  exact hBoth.2

theorem controlled_of_reaches {allowed : World → Action → Prop} {start : World → Prop}
    (starts : ∀ w, start w → Initial w ∧ ∀ r pod, some pod ∉ ((w.view key).pods r).visible)
    (alone : ∀ w a, allowed w a → Alone key w a) (run : Reaches step allowed start w) :
    (w.view key).Controlled := by
  apply view_invariant _ (fun s h => (starts s h).1) _ _ run
  · exact fun s h r pod hMem => absurd hMem ((starts s h).2 r pod)
  · intro s a v' sound controlled permitted moves
    apply controlled.step sound _ moves
    rintro pod rfl r
    exact alone _ _ permitted pod rfl r

end World

namespace Manager
variable {m : Manager} {key : NamespacedName}

theorem attentive_of_run (run : Reaches step (Orderly key) (Ready key) m) : m.Attentive key := by
  apply run.invariant
  · intro s ready
    have hIdle : (s.world.view key).worker = none := ready.initial.world.idle key
    refine ⟨?_, ?_, .idle hIdle, ?_⟩
    · rw [ready.initial.world.jobs key]
      exact covers_synced none
    · intro r age value _ hServed hOther
      have hNone : ∀ {value}, value ∈ (s.world.pods (simulatorPodKey key r)).visible →
          value = none := by
        intro value hMem
        cases value with
        | none => rfl
        | some pod => exact absurd hMem (ready.vacant r pod)
      rw [hNone (List.mem_of_getElem? hServed)] at hOther
      exact absurd (hNone (Register.current_mem_visible _)).symm hOther
    · intro _ job hStored
      rw [ready.initial.world.jobs key] at hStored
      cases hStored
  · intro s a t reached attentive orderly stepped
    have hWorld := world_of_run reached
    have hSound := sound_of_reaches (hWorld.mono (fun _ h => h.1) fun _ _ h => h)
    cases moves_of_step stepped with
    | @cluster a w' admitted moved =>
        have hLater : Reaches World.step _ _ w' := .step hWorld orderly moved
        exact attentive.cluster hSound
          (controlled_of_reaches (fun _ h => h) (fun _ _ h => h.1) hWorld)
          (controlled_of_reaches (fun _ h => h) (fun _ _ h => h.1) hLater) admitted moved
    | start got idle => exact attentive.start got
    | finish busy =>
        have hElapsed : (s.world.view key).Elapsed :=
          elapsed_of_reaches (hWorld.mono (fun _ h => h.1) fun _ _ h => h.2)
        have hDeletes := deletesJob_of_reaches (hWorld.mono (fun _ h => h.1) fun _ _ h => h) key
        exact attentive.finish (hSound key) hElapsed hDeletes busy
    | tellJob told => exact attentive.tellJob told
    | tellPod told => exact attentive.tellPod told
    | fire due => exact attentive.fire due

/-- The queue takes a job to be worked on exactly while its reconcile is in flight. -/
def Working (m : Manager) : Prop :=
  ∀ key, m.queue.processing key = true ↔ m.world.workers key ≠ none

theorem Working.step {m' : Manager} (working : m.Working)
    (sound : ∀ key, (m.world.view key).Sound) {a : Action} (stepped : m.step a = some m') :
    m'.Working := by
  intro key
  have hBefore := working key
  cases moves_of_step stepped with
  | @cluster a w' admitted moved =>
      have hMoves := view_moves sound moved key
      have hFinish : a ≠ .finish key := by
        rintro rfl
        cases admitted
      have hReconcile : a ≠ .reconcile key := by
        rintro rfl
        cases admitted
      have hIdle : w'.workers key = none ↔ m.world.workers key = none :=
        ⟨hMoves.idle hFinish, hMoves.stays_idle hReconcile⟩
      exact hBefore.trans (not_congr hIdle.symm)
  | @start other queue got idle =>
      obtain ⟨-, -, hProcessing, -⟩ := WorkQueue.get_inv other got
      show queue.processing key = true ↔ Function.update m.world.workers other _ key ≠ none
      rw [hProcessing]
      by_cases hKey : key = other
      · subst hKey
        simp
      · rw [Function.update_of_ne hKey, Function.update_of_ne hKey]
        exact hBefore
  | @finish other history outcome path busy =>
      have hProcessing : (requeue m.queue other outcome).processing =
          Function.update m.queue.processing other false := by
        unfold requeue
        split <;> rfl
      show (requeue m.queue other outcome).processing key = true ↔
        Function.update m.world.workers other none key ≠ none
      rw [hProcessing]
      by_cases hKey : key = other
      · subst hKey
        simp
      · rw [Function.update_of_ne hKey, Function.update_of_ne hKey]
        exact hBefore
  | tellJob | tellPod =>
      rw [WorkQueue.addAll_processing]
      exact hBefore
  | fire due =>
      obtain ⟨-, -, hProcessing, -⟩ := WorkQueue.fire_inv _ due
      show _ = true ↔ m.world.workers key ≠ none
      rw [hProcessing]
      exact hBefore

theorem working_of_run (run : Reaches step (Orderly key) (Ready key) m) : m.Working := by
  apply run.invariant
  · intro s ready other
    rw [ready.initial.queue, ready.initial.world.idle other]
    simp [WorkQueue.empty]
  · intro s a t reached working _ stepped
    have hWorld := world_of_run reached
    exact working.step (sound_of_reaches (hWorld.mono (fun _ h => h.1) fun _ _ h => h)) stepped

/-- A move by which the manager, or the answer to a call, brings the job on. -/
def Drives (key : NamespacedName) : Action → Prop
  | .start => True
  | .finish other | .tellJob other | .fire other => other = key
  | .tellPod pod => ∃ r, pod = simulatorPodKey key r
  | .cluster (.answer other _) => other = key
  | .cluster _ => False

/-- A reconcile that has returned can be ended. -/
theorem finish_isSome {history : History} {outcome : Outcome}
    {path : Program.Path (reconcile key) history (.done outcome)}
    (busy : m.world.workers key = some ⟨history, .done outcome, path⟩) :
    (m.step (.finish key)).isSome = true := by
  simp [step, busy, World.step, World.finish]

/-- A call can be answered. -/
theorem answer_isSome {history : History} {call : Call} {next : call.Answer → Reconciler Outcome}
    {path : Program.Path (reconcile key) history (.ask call next)}
    (busy : m.world.workers key = some ⟨history, .ask call next, path⟩) :
    ∃ reply, (m.step (.cluster (.answer key reply))).isSome = true := by
  have hRead : ∀ {α : Type} (r : Register α), (r.read 0).isSome = true := by
    intro α r
    simp [Register.read, Register.visible]
  have hAnswer : ∀ reply, m.recent key reply = true →
      (m.world.respond key call reply).isSome = true →
        ∃ reply, (m.step (.cluster (.answer key reply))).isSome = true := by
    intro reply hRecent hRespond
    refine ⟨reply, ?_⟩
    simpa [step, admits, hRecent, World.step, busy, World.answer] using hRespond
  cases call with
  | getJob req => exact hAnswer (.read 0) (by simp [recent, busy]) (by simp [respond, hRead])
  | getPod pod => exact hAnswer (.read 0) (by simp [recent, busy]) (by simp [respond, hRead])
  | getServiceAccount account => exact hAnswer .ok rfl rfl
  | now => exact hAnswer .ok rfl rfl
  | write write =>
      refine hAnswer .ok rfl ?_
      simp only [respond]
      split <;> rfl

/-- A worker can take what is queued. -/
theorem start_isSome (working : m.Working) (queued : m.queue.queue ≠ []) :
    (m.step .start).isSome = true := by
  obtain ⟨other, hMem⟩ := List.exists_mem_of_ne_nil _ queued
  obtain ⟨hDirty, hIdle⟩ := (m.queue.queued other).mp hMem
  obtain ⟨⟨first, queue⟩, hGot⟩ :=
    Option.isSome_iff_exists.mp (WorkQueue.get_isSome other hDirty hIdle)
  obtain ⟨hFree, -⟩ := WorkQueue.get_inv first hGot
  have hIdle : m.world.workers first = none := by
    by_contra hBusy
    rw [(working first).mpr hBusy] at hFree
    cases hFree
  simp [step, hGot, World.step, hIdle]

/-- A reconcile in flight can be answered, or returns. -/
theorem busy_drives {worker : Worker key} (busy : m.world.workers key = some worker) :
    ∃ a, Drives key a ∧ (m.step a).isSome = true := by
  obtain ⟨history, rest, path⟩ := worker
  cases rest with
  | done outcome => exact ⟨.finish key, rfl, finish_isSome busy⟩
  | ask call next =>
      obtain ⟨reply, hAnswered⟩ := answer_isSome busy
      exact ⟨.cluster (.answer key reply), rfl, hAnswered⟩

/-- News can be told. -/
theorem news_drives {news : List (List NamespacedName)} (named : InNews news key) :
    ∃ keys, news.getLast? = some keys := by
  obtain ⟨keys, hMem, -⟩ := named
  cases hLast : news.getLast? with
  | some last => exact ⟨last, rfl⟩
  | none =>
      rw [List.getLast?_eq_none_iff.mp hLast] at hMem
      cases hMem

/-- An awake job is never stuck. -/
theorem awake_drives (working : m.Working) (awake : m.Awake key) :
    ∃ a, Drives key a ∧ (m.step a).isSome = true := by
  rcases awake with (hDirty | hJob | ⟨r, hPod⟩) | hWaiting | hBusy
  · by_cases hProcessing : m.queue.processing key = true
    · obtain ⟨worker, hBusy⟩ := Option.ne_none_iff_exists'.mp ((working key).mp hProcessing)
      exact busy_drives hBusy
    · -- the job is queued, so that a worker can take one
      have hMem := (m.queue.queued key).mpr ⟨hDirty, by simpa using hProcessing⟩
      exact ⟨.start, trivial, start_isSome working (List.ne_nil_of_mem hMem)⟩
  · obtain ⟨keys, hLast⟩ := news_drives hJob
    refine ⟨.tellJob key, rfl, ?_⟩
    simp [step, hLast]
  · obtain ⟨keys, hLast⟩ := news_drives hPod
    refine ⟨.tellPod (simulatorPodKey key r), ⟨r, rfl⟩, ?_⟩
    simp [step, hLast]
  · refine ⟨.fire key, rfl, ?_⟩
    simp [step, WorkQueue.fire, hWaiting]
  · obtain ⟨worker, hWorker⟩ := Option.ne_none_iff_exists'.mp hBusy
    exact busy_drives hWorker

/-- A stored job is at rest, or its controller is about to look at it again. -/
theorem Attentive.awake_or_rests (attentive : m.Attentive key) {job : QuantumAerJob}
    (stored : (m.world.jobs key).current = some job) :
    m.Awake key ∨ (m.world.view key).Rests job := by
  by_cases hIdle : m.world.workers key = none
  · rcases attentive.rests hIdle job stored with hNoticed | hWaiting | hRests
    · exact .inl (.inl hNoticed)
    · exact .inl (.inr (.inl hWaiting))
    · exact .inr hRests
  · exact .inl (.inr (.inr hIdle))

/-- In every state that is reached, each stored job can be brought on by a move of the
manager or the answer to a call, unless it is finished and to be kept, or its pod is in a
phase that the controller has no case for. -/
theorem no_job_forgotten (run : Reaches step (Orderly key) (Ready key) m)
    {job : QuantumAerJob} (stored : (m.world.jobs key).current = some job) :
    (m.Awake key ∧ ∃ a, Drives key a ∧ (m.step a).isSome = true) ∨
      (job.status.jobStatus.Terminal ∧ job.spec.ttlSecondsAfterFinished = none) ∨
      (job.status.jobStatus = .progress ∧ ∃ pod,
        (m.world.pods (simulatorPodKey key job.status.retries)).current = some pod ∧
          (pod.phase = .unknown ∨ pod.phase = .unset)) := by
  rcases (attentive_of_run run).awake_or_rests stored with hAwake | hRests
  · exact .inl ⟨hAwake, awake_drives (working_of_run run) hAwake⟩
  · exact .inr hRests

section Sample

def empty : Manager := ⟨.empty, .empty, fun _ => [], fun _ => []⟩

/-- A reconcile of the job that was queued first. -/
def pass (key : NamespacedName) (replies : List Reply) : List Action :=
  .start :: replies.map (fun reply => .cluster (.answer key reply)) ++ [.finish key]

/-- The pod is found before the cache shows that the job is in progress, so that the
first failure is met by a reconcile of an old job, whose update is refused. -/
def staleRun : List Action :=
  [.cluster (.createJob sampleKey sampleSpec), .tellJob sampleKey] ++
    pass sampleKey [.read 0, .ok, .ok] ++ [.tellJob sampleKey] ++
    pass sampleKey [.read 0, .ok, .ok, .ok, .ok] ++
    [.tellJob sampleKey, .tellPod (simulatorPodKey sampleKey 0)] ++
    pass sampleKey [.read 0, .ok, .read 0, .ok] ++
    [.cluster (.setPhase (simulatorPodKey sampleKey 0) .failed),
      .tellPod (simulatorPodKey sampleKey 0)] ++
    pass sampleKey [.read 1, .ok, .read 0, .ok]

/-- What a run on fixed actions may do in the cluster. -/
def Apart (m : Manager) : Action → Prop
  | .cluster a => a.placed.isNone = true ∧ ForwardClock m.world a
  | .start | .finish _ | .tellJob _ | .tellPod _ | .fire _ => True

instance (m : Manager) : (a : Action) → Decidable (Apart m a)
  | .cluster a => inferInstanceAs (Decidable (a.placed.isNone = true ∧ ForwardClock m.world a))
  | .start | .finish _ | .tellJob _ | .tellPod _ | .fire _ => inferInstanceAs (Decidable True)

theorem orderly_of_apart {a : Action} (apart : Apart m a) : Orderly key m a := by
  cases a with
  | cluster a => exact ⟨alone_of_isNone apart.1, apart.2⟩
  | start | finish | tellJob | tellPod | fire => trivial

theorem no_job_forgotten_stale : ∃ m job, runActions step empty staleRun = some m ∧
    (m.world.jobs sampleKey).current = some job ∧ m.Awake sampleKey ∧
      ∃ a, Drives sampleKey a ∧ (m.step a).isSome = true := by
  have hState : (runActions step empty staleRun).bind (fun m =>
      (m.world.jobs sampleKey).current.map fun job => (job.status.jobStatus,
        (m.world.pods (simulatorPodKey sampleKey job.status.retries)).current.map (·.phase))) =
      some (.progress, some .failed) := by decide +kernel
  obtain ⟨m, hm, hStale⟩ := Option.bind_eq_some_iff.mp hState
  obtain ⟨job, hStored, hFields⟩ := Option.map_eq_some_iff.mp hStale
  obtain ⟨hProgress, hFailed⟩ := Prod.mk.inj hFields
  have hApart : Reaches step Apart (Ready sampleKey) m :=
    (Reaches.start ⟨⟨.empty, rfl, fun _ => rfl, fun _ => rfl⟩, by
      intro r pod hMem
      cases List.mem_singleton.mp hMem⟩).runActions (by decide +kernel) hm
  have hReached : Reaches step (Orderly sampleKey) (Ready sampleKey) m :=
    hApart.mono (fun _ h => h) fun _ _ h => orderly_of_apart h
  rcases no_job_forgotten hReached hStored with hAwake | ⟨hTerminal, -⟩ | ⟨-, pod, hPod, hPhase⟩
  · exact ⟨m, job, hm, hStored, hAwake⟩
  · rw [hProgress] at hTerminal
    exact absurd hTerminal (by decide)
  · rw [hPod, Option.map_some, Option.some.injEq] at hFailed
    rw [hFailed] at hPhase
    exact absurd hPhase (by decide)

end Sample

end Manager
end QuantumService.Cluster
