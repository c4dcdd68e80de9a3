import Mathlib.Tactic.Common

/-! The JSON values the Python services exchange, as far as they look at them. -/
namespace QuantumService

/-- A decoded JSON value. Values the services only pass on or print are `other`,
with the text Python prints for them and whether Python takes them for true. -/
inductive Json where
  | null
  | bool (b : Bool)
  | int (n : Int)
  | str (s : String)
  | other (text : String) (truthy : Bool)
  deriving DecidableEq, Repr

namespace Json

/-- `bool(value)`. -/
def truthy : Json → Bool
  | .null => false
  | .bool b => b
  | .int n => n ≠ 0
  | .str s => s ≠ ""
  | .other _ truthy => truthy

/-- `str(value)`, which f-strings use. -/
def text : Json → String
  | .null => "None"
  | .bool true => "True"
  | .bool false => "False"
  | .int n => toString n
  | .str s => s
  | .other text _ => text

end Json

/-- A JSON object, or a Python dictionary with string keys. -/
abbrev Object := List (String × Json)

namespace Object

/-- `object.get(key, default)`. -/
def getD (object : Object) (key : String) (default : Json) : Json :=
  (object.lookup key).getD default

/-- `object.get(key)`. -/
def get (object : Object) (key : String) : Json := object.getD key .null

/-- A value that is there is found with any default. -/
theorem getD_of_get {object : Object} {key : String} {value : Json} (get : object.get key = value)
    (some : value ≠ .null) (default : Json) : object.getD key default = value := by
  rw [Object.get, getD] at get
  rw [getD]
  cases hLookup : object.lookup key with
  | none =>
      rw [hLookup] at get
      exact absurd get.symm some
  | some found =>
      rw [hLookup] at get
      exact get

end Object

/-- The job data of `RedisDB`: what is stored under `job:<job_id>`. -/
structure JobData where
  circuit : Option String
  results : Option String
  createdAt : String
  updatedAt : String
  deriving DecidableEq, Repr

/-- A Redis entry, with the expiry it was written with. -/
structure Entry where
  data : JobData
  ttl : Nat
  deriving DecidableEq, Repr

def jobKey (jobId : String) : String := s!"job:{jobId}"

theorem jobKey_injective {id id' : String} (h : jobKey id = jobKey id') : id = id' := by
  have hText : ∀ id, jobKey id = "job:" ++ id := fun _ => rfl
  rw [hText, hText] at h
  exact (String.append_right_inj "job:").mp h

/-- The default of the `ttl` parameters of `RedisDB`. -/
def recordTtl : Nat := 1200

end QuantumService
