import QuantumService.Store.RawRedis
import QuantumService.Text.JsonRoundTrip

/-! What the bytes in Redis mean. The parties read and write job data as dictionaries;
whatever they do, they are answered as if Redis kept the records themselves. -/
namespace QuantumService
open Text.Json

/-- The dictionary of a record. -/
def JobData.members (jobData : JobData) : Members :=
  [("circuit", (jobData.circuit.map Value.str).getD .null),
    ("results", (jobData.results.map Value.str).getD .null),
    ("created_at", .str jobData.createdAt), ("updated_at", .str jobData.updatedAt)]

namespace Store

/-- What the parties do with the records. `read` is `job_data.get(field, None)` of the data
that is found. A simulator does `fetch` when it starts, and `record` when it stores its
results in the dictionary it has read then. -/
inductive RecordCall where
  | create (jobId : String) (circuit results : Option String) (ttl : Int)
      (createdAt updatedAt : String)
  | get (jobId : String)
  | read (jobId field : String)
  | fetch (simulator : Nat) (jobId : String)
  | record (simulator : Nat) (resultB64 : String) (ttl : Int) (updatedAt : String)
  | update (jobId : String) (jobData : JobData) (ttl : Int) (updatedAt : String)
  | delete (jobId : String)
  | wait (duration : Nat)

/-- The name of a value's class, which is a dictionary's if it has members. -/
def className : Value → String
  | .null => "NoneType"
  | .bool _ => "bool"
  | .int _ => "int"
  | .float _ => "float"
  | .str _ => "str"
  | .arr _ => "list"
  | .obj _ => "dict"

/-- `None`, or the value that is there. -/
def orNone (value : Option Value) : Value := value.getD .null

/-- The members of a dictionary, whose `get` is looked up. -/
def dictionary : Value → Except Raised Members
  | .obj members => .ok members
  | value => .error (.attribute s!"'{className value}' object has no attribute 'get'")

/-- Redis, and the dictionary that each simulator has read, with its job. -/
@[ext] structure RawParties where
  redis : RawRedis
  held : Nat → Option (String × Members)

namespace RawParties
variable (p : RawParties)

/-- A Redis that keeps nothing yet. -/
def empty (now : Int) : RawParties := ⟨.empty now, fun _ => none⟩

/-- What a write that Redis accepts or refuses is answered. -/
def written (value : Value) : Except Raised RawRedis → Except Raised Value × RawParties
  | .ok redis => (.ok value, { p with redis := redis })
  | .error raised => (.error raised, p)

/-- A call and what it returns. A simulator that has read nothing has ended. -/
def serve : RecordCall → Except Raised Value × RawParties
  | .create jobId circuit results ttl createdAt updatedAt =>
      match p.redis.createJobData jobId (orNone (circuit.map .str)) (orNone (results.map .str)) ttl
          createdAt updatedAt with
      | .ok (jobData, redis) => (.ok (.obj jobData), { p with redis := redis })
      | .error raised => (.error raised, p)
  | .get jobId => ((p.redis.getJobData jobId).map orNone, p)
  | .read jobId field =>
      match (p.redis.getJobData jobId).bind fun found => dictionary (orNone found) with
      | .ok jobData => (.ok (orNone (jobData.lookup field)), p)
      | .error raised => (.error raised, p)
  | .fetch simulator jobId =>
      match (p.redis.getJobData jobId).bind fun found => dictionary (orNone found) with
      | .ok jobData => (.ok (orNone (jobData.lookup "circuit")),
          { p with held := Function.update p.held simulator (some (jobId, jobData)) })
      | .error raised => (.error raised, p)
  | .record simulator resultB64 ttl updatedAt =>
      match p.held simulator with
      | some (jobId, jobData) =>
          p.written .null (p.redis.updateJobData jobId
            (Members.insert jobData "results" (.str resultB64)) ttl updatedAt)
      | none => (.ok .null, p)
  | .update jobId jobData ttl updatedAt =>
      p.written .null (p.redis.updateJobData jobId jobData.members ttl updatedAt)
  | .delete jobId => (.ok (.bool (p.redis.deleteJobData jobId).1),
      { p with redis := (p.redis.deleteJobData jobId).2 })
  | .wait duration =>
      (.ok .null, { p with redis := { p.redis with now := p.redis.now + duration } })

def answers : RawParties → List RecordCall → List (Except Raised Value)
  | _, [] => []
  | p, call :: calls => (p.serve call).1 :: answers (p.serve call).2 calls

def after (p : RawParties) (calls : List RecordCall) : RawParties :=
  calls.foldl (fun p call => (p.serve call).2) p

end RawParties

/-- A Redis that keeps the records, and the record that each simulator has read. -/
structure Parties where
  redis : Redis
  held : Nat → Option (String × JobData)

namespace Parties
variable (p : Parties)

/-- A Redis that keeps nothing yet. -/
def empty (now : Int) : Parties := ⟨⟨now, [], List.nodup_nil⟩, fun _ => none⟩

/-- What a write that Redis accepts or refuses is answered. -/
def written (value : Value) : Except String Redis → Except Raised Value × Parties
  | .ok redis => (.ok value, { p with redis := redis })
  | .error text => (.error (.response text), p)

/-- What is read of a job that is not there. -/
def unread : Except Raised Value := .error (.attribute "'NoneType' object has no attribute 'get'")

/-- A call and what it returns, on records. -/
def serve : RecordCall → Except Raised Value × Parties
  | .create jobId circuit results ttl createdAt updatedAt =>
      p.written (.obj (JobData.members ⟨circuit, results, createdAt, updatedAt⟩))
        (createJobData p.redis jobId circuit results ttl createdAt updatedAt)
  | .get jobId => (.ok (orNone ((getJobData p.redis jobId).map fun d => .obj d.members)), p)
  | .read jobId field =>
      match getJobData p.redis jobId with
      | some jobData => (.ok (orNone (jobData.members.lookup field)), p)
      | none => (unread, p)
  | .fetch simulator jobId =>
      match getJobData p.redis jobId with
      | some jobData => (.ok (orNone (jobData.circuit.map .str)),
          { p with held := Function.update p.held simulator (some (jobId, jobData)) })
      | none => (unread, p)
  | .record simulator resultB64 ttl updatedAt =>
      match p.held simulator with
      | some (jobId, jobData) =>
          p.written .null (updateJobData p.redis jobId { jobData with results := some resultB64 }
            ttl updatedAt)
      | none => (.ok .null, p)
  | .update jobId jobData ttl updatedAt =>
      p.written .null (updateJobData p.redis jobId jobData ttl updatedAt)
  | .delete jobId => (.ok (.bool (deleteJobData p.redis jobId).1),
      { p with redis := (deleteJobData p.redis jobId).2 })
  | .wait duration =>
      (.ok .null, { p with redis := { p.redis with now := p.redis.now + duration } })

def answers : Parties → List RecordCall → List (Except Raised Value)
  | _, [] => []
  | p, call :: calls => (p.serve call).1 :: answers (p.serve call).2 calls

def after (p : Parties) (calls : List RecordCall) : Parties :=
  calls.foldl (fun p call => (p.serve call).2) p

end Parties

/-- How Redis keeps a record. -/
def encodeCell (cell : String × Cell) : List UInt8 × RawCell :=
  (encodeText cell.1, ⟨encodeText (dumps (.obj cell.2.data.members)), cell.2.expiresAt⟩)

theorem encodeText_injective {s t : String} (h : encodeText s = encodeText t) : s = t :=
  String.toByteArray_inj.mp (ByteArray.ext (Array.toList_inj.mp h))

/-- The bytes that stand for the records. -/
def encode (r : Redis) : RawRedis where
  now := r.now
  cells := r.cells.map encodeCell
  unique := by
    have hKeys : (r.cells.map encodeCell).map Prod.fst =
        (r.cells.map Prod.fst).map encodeText := by
      simp [encodeCell]
    rw [hKeys]
    exact r.unique.map fun _ _ h => encodeText_injective h

section Bytes
variable {r : Redis} {key : String} {ttl : Int} {data : JobData}

theorem decodeText_encodeText (text : String) : decodeText (encodeText text) = .ok text := by
  have hBytes : (⟨(encodeText text).toArray⟩ : ByteArray) = text.toUTF8 := by
    simp [encodeText]
  have hValid : text.toUTF8.IsValidUTF8 := text.isValidUTF8
  rw [decodeText, hBytes, String.fromUTF8?, dif_pos hValid]
  rfl

theorem plain_members (data : JobData) : (Value.obj data.members).Plain := by
  obtain ⟨circuit, results, createdAt, updatedAt⟩ := data
  refine ⟨by simp [JobData.members], ?_, ?_, trivial, trivial, trivial⟩
  · cases circuit <;> exact trivial
  · cases results <;> exact trivial

/-- No text of a dictionary is empty. -/
theorem isEmpty_dumps (members : Members) :
    (encodeText (dumps (.obj members))).isEmpty = false := by
  rw [Bool.eq_false_iff]
  intro hEmpty
  have hText : dumps (.obj members) = "" :=
    encodeText_injective (List.isEmpty_iff.mp hEmpty)
  have hChars : (dumps (.obj members)).toList = [] := by
    rw [hText]
    rfl
  rw [dumps, String.toList_ofList, dump] at hChars
  cases hChars

/-- A key is found by its bytes as it is by its text. -/
theorem key_encodeCell (key : String) (cell : String × Cell) :
    decide ((encodeCell cell).1 = encodeText key) = decide (cell.1 = key) :=
  decide_eq_decide.mpr ⟨fun h => encodeText_injective h, fun h => congrArg encodeText h⟩

theorem others_encode (r : Redis) (key : String) :
    (encode r).cells.filter (·.1 ≠ encodeText key) =
      (r.cells.filter (·.1 ≠ key)).map encodeCell := by
  have hTest : (fun cell : List UInt8 × RawCell => decide (cell.1 ≠ encodeText key)) ∘ encodeCell =
      fun cell => decide (cell.1 ≠ key) := by
    funext cell
    simp only [Function.comp_apply, ne_eq, decide_not, key_encodeCell]
  rw [encode, List.filter_map, hTest]

theorem setex_encode : (encode r).setex key ttl (dumps (.obj data.members)) =
    ((r.setex key ttl data).map encode).mapError .response := by
  have hRefused : refusedTtl (encode r).now ttl = refusedTtl r.now ttl := rfl
  unfold RawRedis.setex Redis.setex
  rw [hRefused]
  cases refusedTtl r.now ttl with
  | some text => rfl
  | none =>
      refine congrArg Except.ok (RawRedis.ext rfl ?_)
      show _ :: (encode r).cells.filter (·.1 ≠ encodeText key) = _
      rw [others_encode]
      rfl

theorem get_encode :
    (encode r).get key = (r.get key).map fun data => encodeText (dumps (.obj data.members)) := by
  have hTest : (fun cell => (encode r).live cell && cell.1 = encodeText key) ∘ encodeCell =
      fun cell => r.live cell && cell.1 = key := by
    funext cell
    simp only [Function.comp_apply, key_encodeCell]
    rfl
  have hFind :
      (encode r).cells.find? (fun cell => (encode r).live cell && cell.1 = encodeText key) =
        (r.cells.find? fun cell => r.live cell && cell.1 = key).map encodeCell := by
    rw [← hTest]
    exact List.find?_map
  rw [RawRedis.get, hFind, Redis.get, Option.map_map, Option.map_map]
  rfl

/-- What is read is the dictionary of the record. -/
theorem getJobData_encode (r : Redis) (jobId : String) :
    (encode r).getJobData jobId =
      .ok ((getJobData r jobId).map fun data => .obj data.members) := by
  unfold RawRedis.getJobData getJobData
  rw [get_encode]
  cases r.get (jobKey jobId) with
  | none => rfl
  | some data =>
      simp only [Option.map_some, isEmpty_dumps, Bool.false_eq_true, if_false,
        decodeText_encodeText, Except.bind, loads_dumps (plain_members data)]

theorem deleteJobData_encode (r : Redis) (jobId : String) :
    (encode r).deleteJobData jobId =
      ((deleteJobData r jobId).1, encode (deleteJobData r jobId).2) := by
  unfold RawRedis.deleteJobData deleteJobData
  refine Prod.ext ?_ (RawRedis.ext rfl (others_encode r _))
  simp only [RawRedis.del, Redis.del, get_encode, Option.isSome_map]
  rfl

theorem createJobData_encode (r : Redis) (jobId : String) (circuit results : Option String)
    (ttl : Int) (createdAt updatedAt : String) :
    (encode r).createJobData jobId (orNone (circuit.map .str)) (orNone (results.map .str)) ttl
        createdAt updatedAt =
      ((createJobData r jobId circuit results ttl createdAt updatedAt).map fun r' =>
        (JobData.members ⟨circuit, results, createdAt, updatedAt⟩, encode r')).mapError
          .response := by
  have hMembers : ([("circuit", orNone (circuit.map .str)), ("results", orNone (results.map .str)),
      ("created_at", .str createdAt), ("updated_at", .str updatedAt)] : Members) =
      JobData.members ⟨circuit, results, createdAt, updatedAt⟩ := rfl
  unfold RawRedis.createJobData createJobData
  rw [hMembers]
  dsimp only
  rw [setex_encode]
  cases r.setex (jobKey jobId) ttl ⟨circuit, results, createdAt, updatedAt⟩ <;> rfl

/-- A dictionary of job data takes the new time in place. -/
theorem updateJobData_encode (r : Redis) (jobId : String) (jobData : JobData) (ttl : Int)
    (updatedAt : String) :
    (encode r).updateJobData jobId jobData.members ttl updatedAt =
      ((updateJobData r jobId jobData ttl updatedAt).map encode).mapError .response := by
  have hMembers : Members.insert jobData.members "updated_at" (.str updatedAt) =
      JobData.members { jobData with updatedAt := updatedAt } := rfl
  rw [RawRedis.updateJobData, hMembers, setex_encode]
  rfl

theorem insert_results (jobData : JobData) (resultB64 : String) :
    Members.insert jobData.members "results" (.str resultB64) =
      JobData.members { jobData with results := some resultB64 } := rfl

end Bytes

/-- The bytes that stand for the records, and the dictionaries for those that are held. -/
def encodeParties (p : Parties) : RawParties where
  redis := encode p.redis
  held simulator := (p.held simulator).map fun held => (held.1, held.2.members)

/-- What a simulator has read is the dictionary of a record. -/
theorem hold_encode (p : Parties) (simulator : Nat) (jobId : String) (jobData : JobData) :
    { encodeParties p with
      held := Function.update (encodeParties p).held simulator (some (jobId, jobData.members)) } =
    encodeParties { p with held := Function.update p.held simulator (some (jobId, jobData)) } := by
  refine RawParties.ext rfl ?_
  funext other
  by_cases hOther : other = simulator
  · subst hOther
    simp [encodeParties]
  · simp [encodeParties, Function.update_of_ne hOther]

theorem written_encode (p : Parties) (value : Value) (h : Except String Redis) :
    (encodeParties p).written value ((h.map encode).mapError .response) =
      ((p.written value h).1, encodeParties (p.written value h).2) := by
  cases h <;> rfl

/-- A call is answered from the records, and keeps what the bytes stand for. -/
theorem serve_encode (p : Parties) (call : RecordCall) :
    (encodeParties p).serve call = ((p.serve call).1, encodeParties (p.serve call).2) := by
  have hRedis : (encodeParties p).redis = encode p.redis := rfl
  cases call with
  | create jobId circuit results ttl createdAt updatedAt =>
      rw [RawParties.serve, hRedis, createJobData_encode, Parties.serve]
      cases createJobData p.redis jobId circuit results ttl createdAt updatedAt <;> rfl
  | get jobId =>
      rw [RawParties.serve, hRedis, getJobData_encode]
      rfl
  | read jobId field =>
      rw [RawParties.serve, hRedis, getJobData_encode, Parties.serve]
      cases getJobData p.redis jobId <;> rfl
  | fetch simulator jobId =>
      rw [RawParties.serve, hRedis, getJobData_encode, Parties.serve]
      cases getJobData p.redis jobId with
      | none => rfl
      | some jobData => exact Prod.ext rfl (hold_encode p simulator jobId jobData)
  | record simulator resultB64 ttl updatedAt =>
      have hHeld : (encodeParties p).held simulator =
          (p.held simulator).map fun held => (held.1, held.2.members) := rfl
      rw [RawParties.serve, hHeld, Parties.serve]
      cases p.held simulator with
      | none => rfl
      | some held =>
          obtain ⟨jobId, jobData⟩ := held
          dsimp only [Option.map_some]
          rw [hRedis, insert_results, updateJobData_encode, written_encode]
  | update jobId jobData ttl updatedAt =>
      rw [RawParties.serve, hRedis, updateJobData_encode, written_encode]
      rfl
  | delete jobId =>
      rw [RawParties.serve, hRedis, deleteJobData_encode]
      rfl
  | wait duration => rfl

theorem answers_encode (p : Parties) (calls : List RecordCall) :
    (encodeParties p).answers calls = p.answers calls := by
  induction calls generalizing p with
  | nil => rfl
  | cons call calls ih => rw [RawParties.answers, Parties.answers, serve_encode, ih]

theorem after_encode (p : Parties) (calls : List RecordCall) :
    (encodeParties p).after calls = encodeParties (p.after calls) := by
  induction calls generalizing p with
  | nil => rfl
  | cons call calls ih =>
      have hFirst : (encodeParties p).after (call :: calls) =
          ((encodeParties p).serve call).2.after calls := rfl
      rw [hFirst, serve_encode, ih]
      rfl

section Keys
variable {r : Redis} {keys : List (List UInt8)}

theorem named_written {p : Parties} (named : Named p.redis) {jobId : String} {ttl : Int}
    {data : JobData} (value : Value) :
    Named (p.written value (p.redis.setex (jobKey jobId) ttl data)).2.redis := by
  cases hStored : p.redis.setex (jobKey jobId) ttl data with
  | error text => exact named
  | ok redis => exact named.setex hStored

/-- No call stores a record under another kind of key. -/
theorem named_serve {p : Parties} (named : Named p.redis) (call : RecordCall) :
    Named (p.serve call).2.redis := by
  cases call with
  | create | update => exact named_written named _
  | get => exact named
  | read | fetch =>
      rw [Parties.serve]
      split <;> exact named
  | record simulator resultB64 ttl updatedAt =>
      rw [Parties.serve]
      split
      · exact named_written named _
      · exact named
  | delete jobId => exact named.apply (.delete jobId)
  | wait duration => exact named.apply (.wait duration)

theorem named_after {p : Parties} (named : Named p.redis) (calls : List RecordCall) :
    Named (p.after calls).redis := by
  induction calls generalizing p with
  | nil => exact named
  | cons call calls ih => exact ih (named_serve named call)

theorem prefix_encodeText (id : String) :
    (encodeText "job:").isPrefixOf (encodeText (jobKey id)) = true := by
  have hText : jobKey id = "job:" ++ id := rfl
  have hBytes : encodeText (jobKey id) = encodeText "job:" ++ encodeText id := by
    simp [hText, encodeText]
  rw [hBytes]
  exact List.isPrefixOf_iff_prefix.mpr (List.prefix_append _ _)

/-- The keys that Redis lists are those of the records. -/
theorem jobKeys_encode (named : Named r) : (encode r).jobKeys = r.jobKeys.map encodeText := by
  have hLive : (encode r).cells.filter (encode r).live = (r.cells.filter r.live).map encodeCell :=
    List.filter_map
  have hKeys : ((r.cells.filter r.live).map encodeCell).map Prod.fst =
      ((r.cells.filter r.live).map Prod.fst).map encodeText := by
    simp [encodeCell]
  have hAll : ∀ key ∈ (r.cells.filter r.live).map Prod.fst, ∃ id, key = jobKey id := by
    intro key hMem
    obtain ⟨cell, hCell, rfl⟩ := List.mem_map.mp hMem
    exact named cell (List.mem_of_mem_filter hCell)
  have hNames : r.jobKeys = (r.cells.filter r.live).map Prod.fst := by
    rw [Redis.jobKeys, List.filter_eq_self]
    intro key hMem
    obtain ⟨id, rfl⟩ := hAll key hMem
    rw [toList_jobKey]
    exact List.isPrefixOf_iff_prefix.mpr (List.prefix_append _ _)
  rw [RawRedis.jobKeys, hLive, hKeys, hNames, List.filter_eq_self]
  intro bytes hMem
  obtain ⟨key, hKey, rfl⟩ := List.mem_map.mp hMem
  obtain ⟨id, rfl⟩ := hAll key hKey
  exact prefix_encodeText id

theorem listAllJobs_encodeText (keys : List String) :
    RawRedis.listAllJobs (keys.map encodeText) = .ok (listAllJobs keys) := by
  induction keys with
  | nil => rfl
  | cons key keys ih =>
      rw [RawRedis.listAllJobs] at ih ⊢
      rw [List.map_cons, List.mapM_cons, decodeText_encodeText, ih]
      rfl

/-- What the keys in Redis are decoded to. -/
theorem listAllJobs_encode (named : Named r) (answered : keys.Perm (encode r).jobKeys) :
    ∃ names, names.Perm r.jobKeys ∧ RawRedis.listAllJobs keys = .ok (listAllJobs names) := by
  rw [jobKeys_encode named] at answered
  have hRange : keys ∈ Set.range (List.map encodeText) := by
    rw [Set.range_list_map]
    intro key hMem
    obtain ⟨name, -, hName⟩ := List.mem_map.mp (answered.mem_iff.mp hMem)
    exact ⟨name, hName⟩
  obtain ⟨names, rfl⟩ := hRange
  refine ⟨names, ?_, listAllJobs_encodeText names⟩
  exact (List.map_perm_map_iff fun _ _ h => encodeText_injective h).mp answered

end Keys

/-- Whatever the parties do, they are answered as if Redis kept the records themselves; no
read meets bytes that it cannot decode. -/
theorem bytes_refine (now : Int) (calls : List RecordCall) :
    (RawParties.empty now).answers calls = (Parties.empty now).answers calls ∧
      ∀ keys, keys.Perm ((RawParties.empty now).after calls).redis.jobKeys →
        ∃ names, names.Perm ((Parties.empty now).after calls).redis.jobKeys ∧
          RawRedis.listAllJobs keys = .ok (listAllJobs names) := by
  have hEmpty : RawParties.empty now = encodeParties (Parties.empty now) := rfl
  have hNamed : Named (Parties.empty now).redis := fun cell hMem => absurd hMem List.not_mem_nil
  rw [hEmpty, after_encode]
  exact ⟨answers_encode _ calls, fun keys answered =>
    listAllJobs_encode (named_after hNamed calls) answered⟩

end Store
end QuantumService
