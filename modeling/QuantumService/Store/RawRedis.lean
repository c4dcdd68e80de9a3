import QuantumService.Store.RedisDB
import QuantumService.Text.Json

/-! The job records as Redis keeps them: a key and a value are bytes, and a value is the
JSON of a dictionary (`json.dumps`, `json.loads`). What Redis is sent as a text it keeps
as UTF-8. Printing is left out. -/
namespace QuantumService.Store
open Text.Json

/-- A text as UTF-8. -/
def encodeText (text : String) : List UInt8 := text.toUTF8.data.toList

structure RawCell where
  value : List UInt8
  expiresAt : Int

/-- Times are in milliseconds, and expired cells are left in place. -/
@[ext] structure RawRedis where
  now : Int
  cells : List (List UInt8 × RawCell)
  unique : (cells.map Prod.fst).Nodup

/-- What `RedisDB` raises. -/
inductive Raised where
  | response (text : String)
  | unicodeDecode
  | jsonDecode
  | attribute (text : String)
  deriving DecidableEq

/-- `bytes.decode("utf-8")`. -/
def decodeText (bytes : List UInt8) : Except Raised String :=
  match String.fromUTF8? ⟨bytes.toArray⟩ with
  | none => .error .unicodeDecode
  | some text => .ok text

namespace RawRedis
variable (r : RawRedis)

/-- A Redis that keeps nothing yet. -/
def empty (now : Int) : RawRedis := ⟨now, [], List.nodup_nil⟩

def live (cell : List UInt8 × RawCell) : Bool := r.now ≤ cell.2.expiresAt

/-- `SETEX`. A time to live that Redis refuses changes nothing. -/
def setex (key : String) (ttl : Int) (value : String) : Except Raised RawRedis :=
  match refusedTtl r.now ttl with
  | some text => .error (.response text)
  | none => .ok
    { now := r.now
      cells := (encodeText key, ⟨encodeText value, r.now + ttl * 1000⟩) ::
        r.cells.filter (·.1 ≠ encodeText key)
      unique := by
        rw [List.map_cons, List.nodup_cons]
        constructor
        · simp
        · exact r.unique.sublist (List.filter_sublist.map Prod.fst) }

/-- `GET`. -/
def get (key : String) : Option (List UInt8) :=
  (r.cells.find? fun cell => r.live cell && cell.1 = encodeText key).map (·.2.value)

/-- `DEL`, with the number of keys that were there. -/
def del (key : String) : Nat × RawRedis :=
  (if (r.get key).isSome then 1 else 0,
    { now := r.now
      cells := r.cells.filter (·.1 ≠ encodeText key)
      unique := r.unique.sublist (List.filter_sublist.map Prod.fst) })

/-- The keys that match `job:*`. `KEYS` answers with them in any order. -/
def jobKeys : List (List UInt8) :=
  ((r.cells.filter r.live).map Prod.fst).filter fun key =>
    (encodeText "job:").isPrefixOf key

/-- `create_job_data`; both times are those of the call. -/
def createJobData (jobId : String) (circuit results : Value) (ttl : Int)
    (createdAt updatedAt : String) : Except Raised (Members × RawRedis) :=
  let jobData : Members := [("circuit", circuit), ("results", results),
    ("created_at", .str createdAt), ("updated_at", .str updatedAt)]
  (r.setex (jobKey jobId) ttl (dumps (.obj jobData))).map fun r' => (jobData, r')

def getJobData (jobId : String) : Except Raised (Option Value) :=
  match r.get (jobKey jobId) with
  | none => .ok none
  | some data =>
      if data.isEmpty then .ok none
      else
        (decodeText data).bind fun text =>
          match loads text with
          | none => .error .jsonDecode
          | some jobData => .ok (some jobData)

def updateJobData (jobId : String) (jobData : Members) (ttl : Int) (updatedAt : String) :
    Except Raised RawRedis :=
  r.setex (jobKey jobId) ttl (dumps (.obj (jobData.insert "updated_at" (.str updatedAt))))

def deleteJobData (jobId : String) : Bool × RawRedis :=
  ((r.del (jobKey jobId)).1 ≠ 0, (r.del (jobKey jobId)).2)

/-- `list_all_jobs`, given the answer to `KEYS`. -/
def listAllJobs (keys : List (List UInt8)) : Except Raised (List String) :=
  keys.mapM fun key => (decodeText key).map replaceJob

end RawRedis

end QuantumService.Store
