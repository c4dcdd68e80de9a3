import Mathlib.Algebra.Order.BigOperators.Group.List
import Mathlib.Algebra.Order.Group.Nat
import Mathlib.Data.List.Nodup
import Mathlib.Data.List.Perm.Basic
import Mathlib.Data.Set.List
import QuantumService.Api.Json
import QuantumService.Interaction.Transition
import QuantumService.Text.Remove

/-! The job records in Redis (`utils/redisDB.py`), with the time they are kept and
with the listing of their keys. Printing is left out. -/
namespace QuantumService.Store
open Interaction

structure Cell where
  data : JobData
  expiresAt : Int
  deriving DecidableEq

/-- A Redis server. Times are in milliseconds, and expired cells are left in place. -/
structure Redis where
  now : Int
  cells : List (String × Cell)
  unique : (cells.map Prod.fst).Nodup

/-- The last instant that Redis can express, in milliseconds. -/
def lastInstant : Int := 2 ^ 63 - 1

/-- Why Redis refuses a time to live in seconds: it has more than 64 bits, it is not
positive, or it would end after the last instant. -/
def refusedTtl (now ttl : Int) : Option String :=
  if ttl < -2 ^ 63 ∨ lastInstant < ttl then some "value is not an integer or out of range"
  else if ttl ≤ 0 ∨ lastInstant / 1000 < ttl ∨ lastInstant < now + ttl * 1000 then
    some "invalid expire time in 'setex' command"
  else none

namespace Redis
variable (r : Redis)

def live (cell : String × Cell) : Bool := r.now ≤ cell.2.expiresAt

/-- `SETEX`. A time to live that Redis refuses changes nothing. -/
def setex (key : String) (ttl : Int) (data : JobData) : Except String Redis :=
  match refusedTtl r.now ttl with
  | some text => .error text
  | none => .ok
    { now := r.now
      cells := (key, ⟨data, r.now + ttl * 1000⟩) :: r.cells.filter (·.1 ≠ key)
      unique := by
        rw [List.map_cons, List.nodup_cons]
        constructor
        · simp
        · exact r.unique.sublist (List.filter_sublist.map Prod.fst) }

/-- `GET`. -/
def get (key : String) : Option JobData :=
  (r.cells.find? fun cell => r.live cell && cell.1 = key).map (·.2.data)

/-- `DEL`, with the number of keys that were there. -/
def del (key : String) : Nat × Redis :=
  (if (r.get key).isSome then 1 else 0,
    { now := r.now
      cells := r.cells.filter (·.1 ≠ key)
      unique := r.unique.sublist (List.filter_sublist.map Prod.fst) })

/-- The keys that match `job:*`. `KEYS` answers with them in any order. -/
def jobKeys : List String :=
  ((r.cells.filter r.live).map Prod.fst).filter fun key => "job:".toList.isPrefixOf key.toList

end Redis

section RedisDB
variable (r : Redis)

/-- `create_job_data`; both times are those of the call. -/
def createJobData (jobId : String) (circuit results : Option String) (ttl : Int)
    (createdAt updatedAt : String) : Except String Redis :=
  r.setex (jobKey jobId) ttl ⟨circuit, results, createdAt, updatedAt⟩

def getJobData (jobId : String) : Option JobData := r.get (jobKey jobId)

def updateJobData (jobId : String) (jobData : JobData) (ttl : Int) (updatedAt : String) :
    Except String Redis :=
  r.setex (jobKey jobId) ttl { jobData with updatedAt := updatedAt }

def deleteJobData (jobId : String) : Bool × Redis :=
  ((r.del (jobKey jobId)).1 ≠ 0, (r.del (jobKey jobId)).2)

/-- `key.replace("job:", "")`. -/
def replaceJob (key : String) : String := String.ofList (Text.remove "job:".toList key.toList)

/-- `list_all_jobs`, given the answer to `KEYS`. -/
def listAllJobs (keys : List String) : List String := keys.map replaceJob

end RedisDB

/-- What can happen to the records. -/
inductive Operation where
  | create (jobId : String) (circuit results : Option String) (ttl : Int)
      (createdAt updatedAt : String)
  | update (jobId : String) (jobData : JobData) (ttl : Int) (updatedAt : String)
  | delete (jobId : String)
  | wait (duration : Nat)

/-- A call that raises has no effect. -/
def Operation.apply (r : Redis) : Operation → Redis
  | .create jobId circuit results ttl createdAt updatedAt =>
      match createJobData r jobId circuit results ttl createdAt updatedAt with
      | .ok r' => r'
      | .error _ => r
  | .update jobId jobData ttl updatedAt =>
      match updateJobData r jobId jobData ttl updatedAt with
      | .ok r' => r'
      | .error _ => r
  | .delete jobId => (deleteJobData r jobId).2
  | .wait duration => { r with now := r.now + duration }

def step (r : Redis) (operation : Operation) : Option Redis := some (operation.apply r)

def Empty (r : Redis) : Prop := r.cells = []

/-- The records some sequence of calls leaves in a Redis that was empty before. -/
abbrev Reached (r : Redis) : Prop := Reaches step (fun _ _ => True) Empty r

/-- The listing has every job with a record, each once, and nothing else. -/
structure Lists (r : Redis) (ids : List String) : Prop where
  nodup : ids.Nodup
  mem : ∀ id, id ∈ ids ↔ (getJobData r id).isSome

section Keys
variable {r r' : Redis} {key : String} {data : JobData} {ttl : Int} {keys ids : List String}

theorem toList_jobKey (id : String) : (jobKey id).toList = "job:".toList ++ id.toList := by
  have hText : jobKey id = "job:" ++ id := rfl
  rw [hText, String.toList_append]

/-- Every key is that of a job. -/
def Named (r : Redis) : Prop := ∀ cell ∈ r.cells, ∃ id, cell.1 = jobKey id

theorem Named.setex (named : Named r) {id : String} (h : r.setex (jobKey id) ttl data = .ok r') :
    Named r' := by
  unfold Redis.setex at h
  split at h
  · cases h
  · cases h
    intro cell hMem
    rcases List.mem_cons.mp hMem with rfl | hOld
    · exact ⟨id, rfl⟩
    · exact named cell (List.mem_of_mem_filter hOld)

theorem Named.apply (named : Named r) (operation : Operation) : Named (operation.apply r) := by
  cases operation with
  | create jobId circuit results ttl createdAt updatedAt =>
      rw [Operation.apply]
      split
      · exact named.setex ‹_›
      · exact named
  | update jobId jobData ttl updatedAt =>
      rw [Operation.apply]
      split
      · exact named.setex ‹_›
      · exact named
  | delete jobId => exact fun cell hMem => named cell (List.mem_of_mem_filter hMem)
  | wait duration => exact named

theorem named_of_reached (run : Reached r) : Named r := by
  apply run.invariant
  · intro s empty cell hMem
    rw [empty] at hMem
    cases hMem
  · intro s operation t _ named _ stepped
    cases stepped
    exact named.apply operation

theorem isSome_get_iff : (r.get key).isSome ↔ key ∈ (r.cells.filter r.live).map Prod.fst := by
  rw [Redis.get, Option.isSome_map, List.find?_isSome, List.mem_map]
  simp only [Bool.and_eq_true, decide_eq_true_eq, List.mem_filter]
  constructor
  · rintro ⟨cell, hMem, hLive, hKey⟩
    exact ⟨cell, ⟨hMem, hLive⟩, hKey⟩
  · rintro ⟨cell, ⟨hMem, hLive⟩, hKey⟩
    exact ⟨cell, hMem, hLive, hKey⟩

theorem mem_jobKeys_iff {id : String} : jobKey id ∈ r.jobKeys ↔ (getJobData r id).isSome := by
  have hPrefix : "job:".toList.isPrefixOf (jobKey id).toList = true := by
    rw [toList_jobKey]
    exact List.isPrefixOf_iff_prefix.mpr (List.prefix_append _ _)
  rw [Redis.jobKeys, List.mem_filter, getJobData, isSome_get_iff]
  exact and_iff_left hPrefix

theorem nodup_jobKeys (r : Redis) : r.jobKeys.Nodup :=
  (r.unique.sublist (List.filter_sublist.map Prod.fst)).filter _

/-- What `KEYS` answers are the keys of the jobs that have a record. -/
theorem keys_of_reached (run : Reached r) (answered : keys.Perm r.jobKeys) :
    ∃ ids, keys = ids.map jobKey ∧ Lists r ids := by
  have hNamed : ∀ key ∈ keys, ∃ id, jobKey id = key := by
    intro key hMem
    have hKey := List.mem_of_mem_filter (answered.mem_iff.mp hMem)
    obtain ⟨cell, hCell, rfl⟩ := List.mem_map.mp hKey
    obtain ⟨id, hId⟩ := named_of_reached run cell (List.mem_of_mem_filter hCell)
    exact ⟨id, hId.symm⟩
  have hRange : keys ∈ Set.range (List.map jobKey) := by
    rw [Set.range_list_map]
    exact hNamed
  obtain ⟨ids, rfl⟩ := hRange
  have hNodup := answered.nodup_iff.mpr (nodup_jobKeys r)
  refine ⟨ids, rfl, List.Nodup.of_map jobKey hNodup, fun id => ?_⟩
  rw [← mem_jobKeys_iff, ← answered.mem_iff, List.mem_map]
  constructor
  · intro hMem
    exact ⟨id, hMem, rfl⟩
  · rintro ⟨id', hMem, hKey⟩
    rw [← jobKey_injective hKey]
    exact hMem

/-- What the listing makes of a key: the prefix goes, and whatever equals it. -/
theorem replaceJob_jobKey (id : String) :
    replaceJob (jobKey id) = String.ofList (Text.remove "job:".toList id.toList) := by
  rw [replaceJob, toList_jobKey, Text.remove_append_self (by decide)]

theorem replaceJob_eq_iff (id : String) :
    replaceJob (jobKey id) = id ↔ ¬ "job:".toList <:+: id.toList := by
  rw [replaceJob_jobKey, ← Text.remove_eq_self_iff (by decide), ← String.toList_inj,
    String.toList_ofList]

/-- The listing of jobs with a record has them all exactly when it changes none. -/
theorem lists_replaced_iff (lists : Lists r ids) :
    Lists r (ids.map fun id => replaceJob (jobKey id)) ↔
      ∀ id ∈ ids, ¬ "job:".toList <:+: id.toList := by
  constructor
  · intro hLists id hMem hInfix
    -- both lists have the same identifiers, but the replaced ones are shorter in all
    have hSame : ∀ other, other ∈ ids.map (fun id => replaceJob (jobKey id)) ↔ other ∈ ids :=
      fun other => (hLists.mem other).trans (lists.mem other).symm
    have hPerm : (ids.map fun id => replaceJob (jobKey id)).Perm ids :=
      (List.perm_ext_iff_of_nodup hLists.nodup lists.nodup).mpr hSame
    have hSum := (hPerm.map String.length).sum_eq
    rw [List.map_map] at hSum
    have hLength : ∀ id, (replaceJob (jobKey id)).length =
        (Text.remove "job:".toList id.toList).length := by
      intro id
      rw [replaceJob_jobKey, String.length_ofList]
    have hShorter : (ids.map (String.length ∘ fun id => replaceJob (jobKey id))).sum <
        (ids.map String.length).sum := by
      apply List.sum_lt_sum
      · intro other _
        rw [Function.comp_apply, hLength, ← String.length_toList]
        exact Text.length_remove_le _ _
      · refine ⟨id, hMem, ?_⟩
        rw [Function.comp_apply, hLength, ← String.length_toList]
        exact Text.length_remove_lt (by decide) hInfix
    exact absurd hSum (Nat.ne_of_lt hShorter)
  · intro hPlain
    have hMap : ids.map (fun id => replaceJob (jobKey id)) = ids := by
      conv_rhs => rw [← List.map_id ids]
      exact List.map_congr_left fun id hMem => (replaceJob_eq_iff id).mpr (hPlain id hMem)
    rw [hMap]
    exact lists

end Keys

/-- The listing is exact when no job with a record has `job:` in its identifier. -/
theorem listAllJobs_iff {r : Redis} {keys : List String} (run : Reached r)
    (answered : keys.Perm r.jobKeys) :
    Lists r (listAllJobs keys) ↔
      ∀ id, (getJobData r id).isSome → ¬ "job:".toList <:+: id.toList := by
  obtain ⟨ids, rfl, hLists⟩ := keys_of_reached run answered
  have hReplaced : listAllJobs (ids.map jobKey) = ids.map fun id => replaceJob (jobKey id) :=
    List.map_map ..
  rw [hReplaced, lists_replaced_iff hLists]
  exact forall_congr' fun id => by rw [hLists.mem id]

def sampleRedis : Redis := ⟨0, [], List.nodup_nil⟩

/-- A Redis with the record of one job. -/
def storedRedis (id : String) : Redis :=
  (Operation.create id (some "UUlTS0lU") none 1200 "" "").apply sampleRedis

theorem storedRedis_reached (id : String) : Reached (storedRedis id) :=
  .step (.start (show Empty sampleRedis from rfl)) trivial rfl

/-- Of four jobs one is updated before its record expires, one is not, and one is deleted. -/
def sampleOperations : List Operation :=
  [.create "0123456789abcdef" (some "UUlTS0lU") none 1200 "" "",
    .create "aer job" (some "UUlTS0lU") none 1200 "" "", .wait 1000000,
    .update "0123456789abcdef" ⟨some "UUlTS0lU", some "W10=", "", ""⟩ 1200 "",
    .create "fedcba9876543210" (some "UUlTS0lU") none 1200 "" "",
    .create "1" none none 1200 "" "", .delete "1", .wait 1000000]

def filledRedis : Redis := sampleOperations.foldl Operation.apply sampleRedis

theorem filledRedis_reached : Reached filledRedis := by
  have hRun : runActions step sampleRedis sampleOperations = some filledRedis := rfl
  exact (Reaches.start (show Empty sampleRedis from rfl)).runActions
    (.of_forall fun _ _ _ => trivial) hRun

theorem listAllJobs_generated : Lists filledRedis
    (listAllJobs ["job:0123456789abcdef", "job:fedcba9876543210"]) := by
  have hKeys : filledRedis.jobKeys = ["job:fedcba9876543210", "job:0123456789abcdef"] := by decide
  refine (listAllJobs_iff filledRedis_reached (by rw [hKeys]; exact .swap _ _ _)).mpr
    fun id hHeld => ?_
  rw [← mem_jobKeys_iff, hKeys] at hHeld
  have hId : id = "fedcba9876543210" ∨ id = "0123456789abcdef" := by
    rcases List.mem_cons.mp hHeld with hFirst | hLast
    · exact .inl (jobKey_injective hFirst)
    · exact .inr (jobKey_injective (List.mem_singleton.mp hLast))
  rcases hId with rfl | rfl <;> decide

/-- The job `nightjob:7` is listed as `night7`. -/
theorem listAllJobs_collapses : ¬ ∀ (r : Redis) (keys : List String), Reached r →
    keys.Perm r.jobKeys → Lists r (listAllJobs keys) := by
  intro claim
  have hLists := claim (storedRedis "nightjob:7") ["job:nightjob:7"] (storedRedis_reached _)
    (by decide)
  have hListed : listAllJobs ["job:nightjob:7"] = ["night7"] := by decide
  rw [hListed] at hLists
  have hHeld := (hLists.mem "night7").mp List.mem_cons_self
  exact absurd hHeld (by decide)

end QuantumService.Store
