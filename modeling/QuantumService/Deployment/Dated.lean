import QuantumService.Cluster.Schedule
import QuantumService.Deployment.Exits

/-! The records and their age. A run is followed together with the instants at which
the records were written, so that an expiry can be said to have passed. Every write
starts the same fixed expiry anew, and a record is kept until it has passed. -/
namespace QuantumService
open Interaction Cluster Controller

namespace Deployment
variable {setup : Setup} {d d' : Deployment setup} {id : String}

/-- The record an action writes. -/
def writes (d : Deployment setup) : Action setup → Option (String × Entry)
  | .serve i reply =>
      match d.requests i with
      | some ⟨_, _, .ask (.setex key ttl data) _, _⟩ =>
          if reply.applied then some (key, ⟨data, ttl⟩) else none
      | _ => none
  | .simulate uid reply =>
      match d.processes uid with
      | some ⟨_, _, .ask (.setex key ttl data) _, _, false⟩ =>
          if reply.applied then some (key, ⟨data, ttl⟩) else none
      | _ => none
  | _ => none

/-- What a step does to the records. -/
inductive Rewrites (d : Deployment setup) (a : Action setup) (d' : Deployment setup) : Prop where
  | kept (unwritten : d.writes a = none) (records : d'.records = d.records)
  | expired {key : String} (expires : a = .expire key)
      (records : d'.records = Function.update d.records key none)
  | written {key : String} {entry : Entry} (writes : d.writes a = some (key, entry))
      (records : d'.records = Function.update d.records key (some entry))

section Rewrites

theorem respondWrite_eq {Value : Type} {written : Deployment setup} {reply : Reply Value}
    {answer : Except String Unit} (h : d.respondWrite (some written) reply = some (answer, d')) :
    d' = if reply.applied then written else d := by
  cases reply <;> cases h <;> rfl

/-- A record is written as the answer to its write says. -/
theorem rewrites_of_setex {a : Action setup} {Value : Type} {written middle : Deployment setup}
    {reply : Reply Value} {answer : Except String Unit} {key : String} {entry : Entry}
    (answered : d.respondWrite (some written) reply = some (answer, middle))
    (writes : d.writes a = if reply.applied then some (key, entry) else none)
    (records : written.records = Function.update d.records key (some entry)) :
    d.Rewrites a middle := by
  have hMiddle := respondWrite_eq answered
  cases hApplied : reply.applied with
  | true =>
      rw [hApplied, if_pos rfl] at writes hMiddle
      subst hMiddle
      exact .written writes records
  | false =>
      rw [hApplied, if_neg (by simp)] at writes hMiddle
      subst hMiddle
      exact .kept writes rfl

theorem rewrites_of_serve {i : Nat} {endpoint : Endpoint} {history : Service.History setup.q}
    {call : Service.Call} {reply : Reply setup.q.Target} {answer : call.Answer setup.q}
    {next : call.Answer setup.q → Service.Handler setup.q Service.Response}
    {path : Program.Path (endpoint.program setup) history (.ask call next)}
    {middle : Deployment setup}
    (busy : d.requests i = some ⟨endpoint, history, .ask call next, path⟩)
    (answered : d.respondService call reply = some (answer, middle)) :
    d.Rewrites (.serve i reply) middle := by
  cases call with
  | setex key ttl data =>
      exact rewrites_of_setex answered (by simp only [writes, busy]) rfl
  | backend | uuid4 | strftime | get | createCustomObject | getCustomObject =>
      have hWrites : d.writes (.serve i reply) = none := by simp [writes, busy]
      cases serviceEffect answered <;> exact .kept hWrites rfl

theorem rewrites_of_simulate {uid : Nat} {pod : Pod} {history : Simulator.History setup.aer}
    {call : Simulator.Call setup.aer} {reply : Reply setup.aer.Results} {answer : call.Answer}
    {next : call.Answer → Simulator.Script setup.aer Nat}
    {path : Program.Path (Simulator.main setup.aer pod) history (.ask call next)}
    {middle : Deployment setup}
    (busy : d.processes uid = some ⟨pod, history, .ask call next, path, false⟩)
    (answered : d.respondSimulator call reply = some (answer, middle)) :
    d.Rewrites (.simulate uid reply) middle := by
  cases call with
  | setex key ttl data =>
      exact rewrites_of_setex answered (by simp only [writes, busy]) rfl
  | loadIncluster | ping | get | runSimulation | patchStatus | strftime =>
      have hWrites : d.writes (.simulate uid reply) = none := by simp [writes, busy]
      cases simulatorEffect answered <;> exact .kept hWrites rfl

/-- A later change of something else. -/
theorem Rewrites.of_records {a : Action setup} {middle : Deployment setup}
    (rewrites : d.Rewrites a middle) (same : d'.records = middle.records) : d.Rewrites a d' := by
  cases rewrites with
  | kept unwritten records => exact .kept unwritten (same.trans records)
  | expired expires records => exact .expired expires (same.trans records)
  | written writes records => exact .written writes (same.trans records)

theorem rewrites_of_step {a : Action setup} (h : d.step a = some d') : d.Rewrites a d' := by
  cases a with
  | cluster a =>
      cases moves_of_clusterStep h with
      | cluster => exact .kept rfl rfl
  | receive i endpoint =>
      cases moves_of_step h with
      | receive => exact .kept rfl rfl
  | serve i reply =>
      obtain ⟨_, _, _, _, _, _, _, hBusy, hAnswered, rfl⟩ := step_serve h
      exact (rewrites_of_serve hBusy hAnswered).of_records rfl
  | launch key retries =>
      cases moves_of_step h with
      | launched => exact .kept rfl rfl
  | simulate uid reply =>
      obtain ⟨_, _, _, _, _, _, _, hBusy, hAnswered, rfl⟩ := step_simulate h
      exact (rewrites_of_simulate hBusy hAnswered).of_records rfl
  | stop uid =>
      cases moves_of_step h with
      | stopped => exact .kept rfl rfl
  | expire key =>
      cases h
      exact .expired rfl rfl

/-- Every record is written with the same expiry, whatever the settings are. -/
theorem ttl_of_writes {a : Action setup} {key : String} {entry : Entry}
    (h : d.writes a = some (key, entry)) : entry.ttl = recordTtl := by
  cases a with
  | serve i reply =>
      simp only [writes] at h
      split at h
      · rename_i endpoint history key' ttl data next path hBusy
        split at h
        · cases h
          cases site_of_request path with
          | transpile site =>
              cases site
              rfl
          | status site => cases site
          | result site => cases site
        · cases h
      · cases h
  | simulate uid reply =>
      simp only [writes] at h
      split at h
      · rename_i pod history key' ttl data next path hBusy
        split at h
        · cases h
          cases (Simulator.main_follows pod).call path
          rfl
        · cases h
      · cases h
  | cluster | receive | launch | stop | expire => cases h

/-- Only an answer to a submission tells it of its record. -/
theorem Moves.stored {a : Action setup} (h : Moves d a d') (other : ∀ i reply, a ≠ .serve i reply)
    (stored : d'.Stored id) : d.Stored id := by
  obtain ⟨i, request, ttl, data, hRequest, hMem⟩ := stored
  cases h with
  | cluster | launched | stopped | expired => exact ⟨i, request, ttl, data, hRequest, hMem⟩
  | simulated busy effect =>
      rw [setProcess_requests, effect.requests] at hRequest
      exact ⟨i, request, ttl, data, hRequest, hMem⟩
  | receive fresh =>
      rcases update_cases hRequest with ⟨rfl, rfl⟩ | hOld
      · cases hMem
      · exact ⟨i, request, ttl, data, hOld, hMem⟩
  | served => exact absurd rfl (other _ _)

/-- A submission is told of its record when it writes it, with its circuit. -/
theorem stored_of_step {a : Action setup} (h : d.step a = some d') (stored : d'.Stored id) :
    d.Stored id ∨ ∃ entry circuit, d.writes a = some (jobKey id, entry) ∧
      entry.data.circuit = some circuit ∧ d'.circuits (jobKey id) = some circuit := by
  cases a with
  | serve i reply =>
      obtain ⟨endpoint, history, call, next, path, answer, middle, hBusy, hAnswered, rfl⟩ :=
        step_serve h
      obtain ⟨j, request, ttl, data, hRequest, hMem⟩ := stored
      rcases update_cases hRequest with ⟨rfl, rfl⟩ | hOld
      · rcases List.mem_append.mp hMem with hBefore | hNow
        · exact .inl ⟨j, _, ttl, data, hBusy, hBefore⟩
        · right
          cases List.mem_singleton.mp hNow
          obtain ⟨_, _, circuit, createdAt, updatedAt, -, -, -, -, rfl⟩ :=
            (site_of_request path).setex_inv
          cases reply <;> cases hAnswered
          refine ⟨⟨⟨some circuit, none, createdAt, updatedAt⟩, ttl⟩, circuit, ?_, rfl,
            Function.update_self ..⟩
          simp [writes, hBusy, Reply.applied]
      · rw [(serviceEffect hAnswered).requests] at hOld
        exact .inl ⟨j, request, ttl, data, hOld, hMem⟩
  | cluster | receive | launch | simulate | stop | expire =>
      exact .inl ((moves_of_step h).stored (by simp) stored)

end Rewrites

/-- Only the passing of time moves the clock. -/
theorem clock_of_step {a : Action setup} (h : d.step a = some d') :
    d'.world.clock = d.world.clock ∨ a = .cluster (.setClock d'.world.clock) := by
  rcases (moves_of_step h).world with hSame | ⟨wa, hCauses, hStepped⟩
  · exact .inl (congrArg World.clock hSame)
  · rcases World.clock_of_step hStepped with hKept | hAction
    · exact .inl hKept
    · subst hAction
      cases hCauses
      exact .inr rfl

end Deployment

open Deployment

/-- The system with the instants at which its records were last written. -/
structure Dated (setup : Setup) where
  system : Deployment setup
  written : String → Int

namespace Dated
variable {setup : Setup} {t t' : Dated setup} {id key : String} {a : Action setup}

/-- The instants of the last writes after an action. -/
def stamp (t : Dated setup) (a : Action setup) : String → Int :=
  match t.system.writes a with
  | some (key, _) => Function.update t.written key t.system.world.clock
  | none => t.written

def step (t : Dated setup) (a : Action setup) : Option (Dated setup) :=
  (t.system.step a).map fun d => ⟨d, t.stamp a⟩

/-- A system in which nothing has happened yet. No record is from the future. -/
structure Fresh (t : Dated setup) : Prop where
  system : Deployment.Fresh t.system
  past : ∀ key, t.written key ≤ t.system.world.clock

/-- Redis drops a key only when its expiry has passed, the controller starts a job
at the instant of its submission and deletes it at the instant its TTL passes. The
clock is not set back. -/
def OnTime (t : Dated setup) : Action setup → Prop
  | .expire key => ∀ entry ∈ t.system.records key,
      t.written key + entry.ttl * second < t.system.world.clock
  | .cluster (.answer key reply) => reply.applied = true →
      ∀ change ∈ (t.system.world.view key).pendingUpdate, change.1.status.startTime = none →
        change.2.status.startTime = some (t.written (jobKey change.1.spec.jobID))
  | .cluster (.setClock now) => t.system.world.clock ≤ now ∧
      ∀ key ∈ t.system.world.created, ∀ job ∈ (t.system.world.jobs key).current,
        ∀ completionTime ∈ job.status.completionTime,
          ∀ ttl ∈ job.spec.ttlSecondsAfterFinished,
            now ≤ completionTime + ttl.toInt * second
  | _ => True

instance (t : Dated setup) (a : Action setup) : Decidable (OnTime t a) := by
  -- a TTL is looked up in the spec, not searched for among all numbers
  have hOption {p : Int32 → Prop} [DecidablePred p] (ttl : Option Int32) :
      Decidable (∀ n ∈ ttl, p n) := Option.decidableForallMem ttl
  unfold OnTime
  split <;> infer_instance

/-- No job is completed after its deadline. -/
def CompletesInTime (t : Dated setup) : Action setup → Prop
  | .cluster (.answer key reply) => reply.applied = true →
      ∀ change ∈ (t.system.world.view key).pendingUpdate, change.2.status.jobStatus = .completed →
        ∀ startTime ∈ change.1.status.startTime,
          t.system.world.clock ≤ deadline startTime change.1.spec.timeOut
  | _ => True

instance (t : Dated setup) (a : Action setup) : Decidable (CompletesInTime t a) := by
  unfold CompletesInTime
  split <;> infer_instance

/-- What is allowed in the runs in which every job is completed in time. -/
structure Timed (t : Dated setup) (a : Action setup) : Prop where
  sourced : Sourced t.system a
  onTime : OnTime t a
  inTime : CompletesInTime t a

/-- A run with the instants of the writes is a run of the system. -/
theorem system_of_run {allowed : Dated setup → Action setup → Prop}
    {permitted : Deployment setup → Action setup → Prop}
    (weaker : ∀ t a, allowed t a → permitted t.system a) (run : Reaches step allowed Fresh t) :
    Reaches Deployment.step permitted Deployment.Fresh t.system := by
  refine run.project Dated.system (fun _ fresh => fresh.system) ?_
  intro s a s' reached hAllowed stepped hSystem
  obtain ⟨d, hStepped, rfl⟩ := Option.map_eq_some_iff.mp stepped
  exact .step hSystem (weaker s a hAllowed) hStepped

theorem sourced_of_timed (run : Reaches step Timed Fresh t) :
    Reaches Deployment.step Sourced Deployment.Fresh t.system :=
  system_of_run (fun _ _ timed => timed.sourced) run

theorem OnTime.clock_le (onTime : OnTime t a) {d : Deployment setup}
    (stepped : t.system.step a = some d) : t.system.world.clock ≤ d.world.clock := by
  rcases Deployment.clock_of_step stepped with hSame | rfl
  · exact Int.le_of_eq hSame.symm
  · exact onTime.1

section Stamp

theorem stamp_of_none (unwritten : t.system.writes a = none) : t.stamp a = t.written := by
  simp [stamp, unwritten]

theorem stamp_of_writes {entry : Entry} (writes : t.system.writes a = some (key, entry)) :
    t.stamp a key = t.system.world.clock := by
  simp [stamp, writes]

theorem stamp_of_ne {other : String} {entry : Entry}
    (writes : t.system.writes a = some (other, entry)) (ne : key ≠ other) :
    t.stamp a key = t.written key := by
  simp [stamp, writes, ne]

theorem stamp_cases (t : Dated setup) (a : Action setup) (key : String) :
    t.stamp a key = t.written key ∨ t.stamp a key = t.system.world.clock := by
  cases hWrites : t.system.writes a with
  | none => exact .inl (congrFun (stamp_of_none hWrites) key)
  | some written =>
      obtain ⟨other, entry⟩ := written
      by_cases hKey : key = other
      · subst hKey
        exact .inr (stamp_of_writes hWrites)
      · exact .inl (stamp_of_ne hWrites hKey)

end Stamp

/-- No record is from the future. -/
theorem past_of_run (run : Reaches step Timed Fresh t) (key : String) :
    t.written key ≤ t.system.world.clock := by
  have hAll : ∀ key, t.written key ≤ t.system.world.clock := by
    apply run.invariant
    · exact fun _ fresh => fresh.past
    · intro s a s' _ past timed stepped key
      obtain ⟨d, hStepped, rfl⟩ := Option.map_eq_some_iff.mp stepped
      have hClock := timed.onTime.clock_le hStepped
      show s.stamp a key ≤ d.world.clock
      rcases s.stamp_cases a key with hKept | hNow
      · rw [hKept]
        exact Int.le_trans (past key) hClock
      · rw [hNow]
        exact hClock
  exact hAll key

/-- The record of a job is there, or its expiry has passed. -/
structure Recorded (t : Dated setup) (id : String) : Prop where
  circuit : ∃ circuit, t.system.circuits (jobKey id) = some circuit
  record : (∃ entry, t.system.records (jobKey id) = some entry ∧ entry.ttl = recordTtl) ∨
    t.written (jobKey id) + recordTtl * second < t.system.world.clock

/-- A record that was written in this step. -/
theorem record_of_writes {entry : Entry} {d : Deployment setup}
    (stepped : t.system.step a = some d) (writes : t.system.writes a = some (key, entry)) :
    d.records key = some entry ∧ entry.ttl = recordTtl := by
  constructor
  · cases rewrites_of_step stepped with
    | kept unwritten =>
        rw [writes] at unwritten
        cases unwritten
    | expired expires =>
        subst expires
        cases writes
    | written written records =>
        rw [writes, Option.some.injEq, Prod.mk.injEq] at written
        obtain ⟨rfl, rfl⟩ := written
        rw [records, Function.update_self]
  · exact ttl_of_writes writes

theorem Recorded.step (recorded : Recorded t id) (onTime : OnTime t a) {d : Deployment setup}
    (stepped : t.system.step a = some d)
    (circuits : d.circuits (jobKey id) = t.system.circuits (jobKey id)) :
    Recorded ⟨d, t.stamp a⟩ id where
  circuit := by
    obtain ⟨circuit, hCircuit⟩ := recorded.circuit
    exact ⟨circuit, circuits.trans hCircuit⟩
  record := by
    have hClock := onTime.clock_le stepped
    -- a record that this step leaves alone is as old as before
    have hKept : d.records (jobKey id) = t.system.records (jobKey id) →
        t.stamp a (jobKey id) = t.written (jobKey id) →
        (∃ entry, d.records (jobKey id) = some entry ∧ entry.ttl = recordTtl) ∨
          t.stamp a (jobKey id) + recordTtl * second < d.world.clock := by
      intro hRecord hStamp
      rw [hRecord, hStamp]
      exact recorded.record.imp_right fun hPassed => Int.lt_of_lt_of_le hPassed hClock
    cases rewrites_of_step stepped with
    | kept unwritten records =>
        exact hKept (congrFun records _) (congrFun (stamp_of_none unwritten) _)
    | @expired key expires records =>
        by_cases hKey : jobKey id = key
        · subst expires hKey
          right
          rcases recorded.record with ⟨entry, hEntry, hTtl⟩ | hPassed
          · have hExpired := onTime entry hEntry
            rw [hTtl] at hExpired
            exact Int.lt_of_lt_of_le hExpired hClock
          · exact Int.lt_of_lt_of_le hPassed hClock
        · subst expires
          exact hKept (by rw [records, Function.update_of_ne hKey]) rfl
    | @written key entry writes records =>
        by_cases hKey : jobKey id = key
        · subst hKey
          exact .inl ⟨entry, record_of_writes stepped writes⟩
        · exact hKept (by rw [records, Function.update_of_ne hKey]) (stamp_of_ne writes hKey)

/-- Records last from each write until their expiry has passed. -/
theorem recorded_of_run (run : Reaches step Timed Fresh t) (stored : t.system.Stored id) :
    Recorded t id := by
  have hAll : ∀ id, t.system.Stored id → Recorded t id := by
    apply run.invariant
    · rintro s fresh id ⟨i, request, ttl, data, hRequest, -⟩
      rw [fresh.system.initial.unserved] at hRequest
      cases hRequest
    · intro s a s' reached recorded timed stepped id hStored
      obtain ⟨d, hStepped, rfl⟩ := Option.map_eq_some_iff.mp stepped
      have hGrows := (moves_of_step hStepped).grows (claimed_of_run (sourced_of_timed reached))
      by_cases hBefore : s.system.Stored id
      · exact (recorded id hBefore).step timed.onTime hStepped (hGrows.circuits hBefore)
      · obtain ⟨entry, circuit, hWrites, -, hCircuit⟩ :=
          (stored_of_step hStepped hStored).resolve_left hBefore
        exact ⟨⟨circuit, hCircuit⟩, .inl ⟨entry, record_of_writes hStepped hWrites⟩⟩
  exact hAll id stored

end Dated
end QuantumService
