import Mathlib.Algebra.Group.Int.Defs
import Mathlib.Algebra.Group.Nat.Defs
import Mathlib.Data.Int.Basic
import Mathlib.Tactic.Common

/-! The part of the Kubernetes API the controller uses: object names, errors,
times and durations as Go computes with them, and pods. -/
namespace QuantumService

/-- `types.NamespacedName`. -/
structure NamespacedName where
  nameSpace : String
  name : String
  deriving DecidableEq, Repr

/-- Errors of API calls, as far as callers tell them apart. `other` is every
error that is neither of the named ones, with its text. -/
inductive ApiError where
  | notFound
  | alreadyExists
  | conflict
  | other (text : String)
  deriving DecidableEq, Repr

def ApiError.isNotFound (err : ApiError) : Bool := err = .notFound

def ApiError.isAlreadyExists (err : ApiError) : Bool := err = .alreadyExists

@[simp] theorem ApiError.isNotFound_iff (err : ApiError) :
    err.isNotFound = true ↔ err = .notFound := by
  simp [isNotFound]

@[simp] theorem ApiError.isAlreadyExists_iff (err : ApiError) :
    err.isAlreadyExists = true ↔ err = .alreadyExists := by
  simp [isAlreadyExists]

/-- `client.IgnoreNotFound`. -/
def ignoreNotFound (err : ApiError) : Option ApiError :=
  if err.isNotFound then none else some err

/-! Times are integers counting nanoseconds since the Unix epoch. Durations
(`time.Duration`) are integers in the range of `int64`. -/

/-- Wrap a result into the range of `int64`, as Go's arithmetic does. -/
def int64 (x : Int) : Int := x.bmod (2 ^ 64)

/-- `time.Second`. -/
def second : Int := 1000000000

/-- `time.Duration(n) * time.Second` for an `int32` number of seconds. -/
def seconds (n : Int32) : Int := int64 (n.toInt * second)

/-- `t.Sub(u)`, which saturates instead of wrapping. -/
def timeSub (t u : Int) : Int := max (-2 ^ 63) (min (2 ^ 63 - 1) (t - u))

/-- `metav1.Time` is written to the API as RFC 3339, in whole seconds. -/
def storedTime (t : Int) : Int := t / second * second

/-- An `int32` number of seconds never overflows a duration. -/
theorem seconds_eq (n : Int32) : seconds n = n.toInt * second := by
  have hLower := n.le_toInt
  have hUpper := n.toInt_lt
  unfold seconds int64 second
  rw [Int.bmod_eq_of_le] <;> omega

theorem storedTime_le (t : Int) : storedTime t ≤ t := by
  unfold storedTime second
  omega

/-- A stored time is not after a later instant once that is stored as well. -/
theorem storedTime_mono {t t' : Int} (h : t ≤ t') : storedTime t ≤ storedTime t' := by
  unfold storedTime second
  omega

/-- `v1.PodPhase`; `unset` is the empty string of a status not yet reported. -/
inductive PodPhase where
  | unset
  | pending
  | running
  | succeeded
  | failed
  | unknown
  deriving DecidableEq, Repr

/-- `metav1.OwnerReference`. -/
structure OwnerReference where
  kind : String
  name : String
  uid : Nat
  controller : Bool
  deriving DecidableEq, Repr

/-- Where the value of an environment variable comes from. -/
inductive EnvVarSource where
  | value (text : String)
  | secretKeyRef (name key : String)
  | configMapKeyRef (name key : String)
  deriving DecidableEq, Repr

structure EnvVar where
  name : String
  source : EnvVarSource
  deriving DecidableEq, Repr

/-- `v1.ResourceRequirements`, with quantities as they are written. -/
structure PodResources where
  requests : List (String × String)
  limits : List (String × String)
  deriving DecidableEq, Repr

structure Container where
  name : String
  image : String
  env : List EnvVar
  resources : PodResources
  deriving DecidableEq, Repr

inductive RestartPolicy where
  | always
  | onFailure
  | never
  deriving DecidableEq, Repr

/-- A pod. The API server assigns `uid`; `deletionRequested` stands for a set
`metadata.deletionTimestamp`. -/
structure Pod where
  name : String
  nameSpace : String
  uid : Nat
  labels : List (String × String)
  ownerReferences : List OwnerReference
  deletionRequested : Bool
  restartPolicy : RestartPolicy
  serviceAccountName : String
  containers : List Container
  phase : PodPhase
  deriving DecidableEq, Repr

def Pod.key (pod : Pod) : NamespacedName := ⟨pod.nameSpace, pod.name⟩

/-- The UID of the controller owner reference, `metav1.GetControllerOf`. -/
def Pod.controllerUid (pod : Pod) : Option Nat :=
  (pod.ownerReferences.find? (·.controller)).map (·.uid)

end QuantumService
