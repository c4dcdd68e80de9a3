import QuantumService.Deployment.Clients
import QuantumService.Text.Base64

/-! The formats in which circuits and results travel: QPY and JSON, each in Base64. All
parties use the same ones, and get from them what was put into them. -/
namespace QuantumService
open Interaction Client
open Text.Base64

/-- The parts of Qiskit and of its encoders that all parties share. QPY loads what it
dumped. `jsonDumps` encodes with `RuntimeEncoder`, as UTF-8, and `jsonLoads` decodes with
`RuntimeDecoder`; `className` is the name of a JSON value's class. -/
structure Formats where
  Circuit : Type
  Target : Type
  Results : Type
  Value : Type
  qpyDump : List Circuit → Except String (List UInt8)
  qpyLoad : List UInt8 → Except String (List Circuit)
  load_dump {circuits : List Circuit} {bytes : List UInt8} :
    qpyDump circuits = .ok bytes → qpyLoad bytes = .ok circuits
  aerTarget : Target
  runPasses : Target → List Circuit → Except String (List Circuit)
  jsonDumps : Results → Except String (List UInt8)
  jsonLoads : List UInt8 → Except String (Option Value)
  className : Json → String

/-- The API server stores the values of a body that it admits. -/
structure Schema extends Service.Admission where
  shots {body : Service.JobBody} {spec : QuantumAerJobSpec} {n : Int} :
    admitted body = some spec → body.shots = .int n → spec.shots.toInt = n
  backendName {body : Service.JobBody} {spec : QuantumAerJobSpec} {name : String} :
    admitted body = some spec → body.backendName = .str name → spec.backendName = name

namespace Formats
variable (formats : Formats)

/-- `base64.b64decode` of a JSON value. -/
def bytesOf : Json → Except String (List UInt8)
  | .str text => b64decode text
  | value => .error
      s!"argument should be a bytes-like object or ASCII string, not '{formats.className value}'"

/-- `qpy.dump`, then `base64.b64encode`. -/
def dump (circuits : List formats.Circuit) : Except String String :=
  (formats.qpyDump circuits).map b64encode

/-- `base64.b64decode`, then `qpy.load`. -/
def load (circuitsB64 : Json) : Except String (List formats.Circuit) :=
  (formats.bytesOf circuitsB64).bind formats.qpyLoad

def qiskit : Service.Qiskit where
  Circuits := List formats.Circuit
  Target := formats.Target
  load := formats.load
  aerTarget := formats.aerTarget
  runPasses := formats.runPasses
  dump := formats.dump

def aer : Simulator.Aer where
  Circuits := List formats.Circuit
  Results := formats.Results
  load := fun circuitsB64 => formats.load (.str circuitsB64)
  serialize := fun results => (formats.jsonDumps results).map b64encode

def remote : Remote where
  Circuit := formats.Circuit
  Value := formats.Value
  dump := formats.dump
  decode := fun resultB64 => (formats.bytesOf resultB64).bind formats.jsonLoads

def setup (cfg : Service.Config) (trace : String → String) (schema : Schema) : Setup where
  q := formats.qiskit
  aer := formats.aer
  cfg := cfg
  trace := trace
  admission := schema.toAdmission

variable {formats}

/-- What was dumped is loaded as the same circuits. -/
theorem load_of_dump {circuits : List formats.Circuit} {circuitsB64 : String}
    (dumped : formats.dump circuits = .ok circuitsB64) :
    formats.load (.str circuitsB64) = .ok circuits := by
  unfold dump at dumped
  cases hBytes : formats.qpyDump circuits with
  | error err =>
      rw [hBytes] at dumped
      cases dumped
  | ok bytes =>
      rw [hBytes] at dumped
      cases dumped
      rw [load, bytesOf, b64decode_b64encode]
      exact formats.load_dump hBytes

/-- What was serialized is decoded from the same bytes. -/
theorem decode_of_serialize {results : formats.Results} {text : String}
    {value : Option formats.Value} (serialized : formats.aer.serialize results = .ok text)
    (decoded : formats.remote.decode (.str text) = .ok value) :
    ∃ bytes, formats.jsonDumps results = .ok bytes ∧ formats.jsonLoads bytes = .ok value := by
  have hSerialized : (formats.jsonDumps results).map b64encode = .ok text := serialized
  cases hBytes : formats.jsonDumps results with
  | error err =>
      rw [hBytes] at hSerialized
      cases hSerialized
  | ok bytes =>
      rw [hBytes] at hSerialized
      cases hSerialized
      have hDecoded : (formats.bytesOf (.str (b64encode bytes))).bind formats.jsonLoads =
        .ok value := decoded
      rw [bytesOf, b64decode_b64encode] at hDecoded
      exact ⟨bytes, rfl, hDecoded⟩

end Formats

variable {formats : Formats}

/-- The service loads the circuits that the client dumped. -/
theorem circuits_of_dump {circuits loaded : List formats.Circuit} {circuitsB64 : String}
    (dumped : formats.dump circuits = .ok circuitsB64)
    (deserialized : Service.deserializeCircuits formats.qiskit (.str circuitsB64) = .ok loaded) :
    loaded = circuits := by
  have hLoad : formats.qiskit.load (.str circuitsB64) = .ok circuits := Formats.load_of_dump dumped
  rw [Service.deserializeCircuits, hLoad] at deserialized
  exact (Except.ok.inj deserialized).symm

/-- The simulator loads the circuits that the service transpiled. -/
theorem isaCircuits_of_transpile {target : formats.Target}
    {circuits isaCircuits : List formats.Circuit} {circuit : String}
    (transpiled : Service.transpileCircuits formats.qiskit target circuits = .ok circuit)
    (loaded : formats.aer.load circuit = .ok isaCircuits) :
    formats.runPasses target circuits = .ok isaCircuits := by
  have hTranspiled : (formats.runPasses target circuits).bind formats.dump = .ok circuit :=
    transpiled
  cases hPasses : formats.runPasses target circuits with
  | error err =>
      rw [hPasses] at hTranspiled
      cases hTranspiled
  | ok isa =>
      rw [hPasses] at hTranspiled
      have hLoad : formats.load (.str circuit) = .ok isa := Formats.load_of_dump hTranspiled
      have hLoaded : formats.load (.str circuit) = .ok isaCircuits := loaded
      rw [Except.ok.inj (hLoad.symm.trans hLoaded)]

section Sample

/-- Circuits that are bytes, and results that are. Nothing is transpiled. -/
def sampleFormats : Formats where
  Circuit := UInt8
  Target := Unit
  Results := List UInt8
  Value := List UInt8
  qpyDump := .ok
  qpyLoad := .ok
  load_dump := by
    rintro _ _ ⟨⟩
    rfl
  aerTarget := ()
  runPasses := fun _ circuits => .ok circuits
  jsonDumps := .ok
  jsonLoads := fun bytes => .ok (some bytes)
  className := fun _ => "object"

def sampleSchema : Schema where
  admitted := Service.admitDefaults
  jobID := Service.sampleAdmission.jobID
  shots := by
    intro body spec n hAdmitted hShots
    rw [Service.admitDefaults] at hAdmitted
    split at hAdmitted
    · split at hAdmitted
      · rename_i hDefaults
        cases hAdmitted
        rw [hDefaults.2.1] at hShots
        cases hShots
        rfl
      · cases hAdmitted
    · cases hAdmitted
  backendName := by
    intro body spec name hAdmitted hName
    rw [Service.admitDefaults] at hAdmitted
    split at hAdmitted
    · split at hAdmitted
      · rename_i hDefaults
        cases hAdmitted
        rw [hDefaults.1] at hName
        cases hName
        rfl
      · cases hAdmitted
    · cases hAdmitted

abbrev sampleSystem : Setup := sampleFormats.setup Service.sampleConfig id sampleSchema

def sampleStart : System sampleSystem sampleFormats.remote := ⟨.empty sampleSystem, fun _ => none⟩

def sampleJobKey : NamespacedName := ⟨"default", "qjob-0123456789abcdef"⟩

def reconciled (replies : List Cluster.World.Reply) :
    List (System.Action sampleSystem sampleFormats.remote) :=
  (Cluster.World.pass sampleJobKey replies).map fun a => .deploy (.cluster a)

/-- A client runs a circuit. -/
def submittedRun : List (System.Action sampleSystem sampleFormats.remote) :=
  [.run 0 ⟨"aer-simulator", 600⟩ (.inl (1 : UInt8)) [],
    .hear 0 (.own (.text "0123456789abcdef0123456789abcdef")), .send 0 0] ++
    ([.serve 0 (.text Service.sampleNow), .serve 0 (.text Service.sampleNow), .serve 0 .ok,
      .serve 0 .ok] : List (Deployment.Action sampleSystem)).map .deploy ++ [.hear 0 .response]

/-- Its job is simulated and completes. -/
def simulatedRun : List (System.Action sampleSystem sampleFormats.remote) :=
  reconciled [.read 0, .ok, .ok] ++ reconciled [.read 0, .ok, .ok, .ok, .ok] ++
    reconciled [.read 0, .ok, .read 0, .ok] ++
    ([.launch sampleJobKey 0, .simulate 2 .ok, .simulate 2 .ok, .simulate 2 .ok,
      .simulate 2 (.value ([7, 9] : List UInt8)), .simulate 2 .ok,
      .simulate 2 (.text Service.sampleNow), .simulate 2 .ok,
      .cluster (.setPhase (Controller.simulatorPodKey sampleJobKey 0) .succeeded)] :
      List (Deployment.Action sampleSystem)).map .deploy ++
    reconciled [.read 0, .ok, .read 0, .ok, .ok]

/-- It asks for the results twice. -/
def askedRun : List (System.Action sampleSystem sampleFormats.remote) :=
  [.result 0 1, .hear 0 (.own (.time 0)), .hear 0 (.own (.time 0)), .send 0 1,
    .deploy (.serve 1 .ok), .hear 0 .response, .send 0 2, .deploy (.serve 2 .ok),
    .deploy (.serve 2 .ok), .hear 0 .response, .result 0 1]

def sampleRun : List (System.Action sampleSystem sampleFormats.remote) :=
  submittedRun ++ simulatedRun ++ askedRun

def sampleValue : sampleFormats.remote.Value := ([7, 9] : List UInt8)

/-- What is seen of a client at the end. -/
def seen (client : ClientState sampleFormats.remote) : Bool × List (Option (List UInt8)) :=
  (client.options.isEmpty, client.outcomes.map fun outcome => outcome.toOption.join)

/-- The client is returned its results, in a run that is allowed. -/
theorem sampleRun_returns : ∃ s client,
    runActions System.step sampleStart sampleRun = some s ∧
    Reaches System.step System.Sure System.Fresh s ∧ s.clients 0 = some client ∧
    client.options = [] ∧ .ok (some sampleValue) ∈ client.outcomes := by
  have hRun : (runActions System.step sampleStart sampleRun).isSome := by decide +kernel
  obtain ⟨s, hs⟩ := Option.isSome_iff_exists.mp hRun
  have hFresh : System.Fresh sampleStart := ⟨.empty sampleSystem, fun _ => rfl⟩
  have hReached : Reaches System.step (fun s a => s.sure a = true) System.Fresh s :=
    (Reaches.start hFresh).runActions (by decide +kernel) hs
  have hSeen : (runActions System.step sampleStart sampleRun).map (fun s =>
      (s.clients 0).map seen) = some (some (true, [some [7, 9], some [7, 9]])) := by
    decide +kernel
  rw [hs, Option.map_some, Option.some.injEq, Option.map_eq_some_iff] at hSeen
  obtain ⟨client, hClient, hSeen⟩ := hSeen
  obtain ⟨hOptions, hOutcomes⟩ := Prod.mk.inj hSeen
  refine ⟨s, client, hs, hReached.mono (fun _ h => h) fun _ _ h => System.sure_of_check h, hClient,
    List.isEmpty_iff.mp hOptions, ?_⟩
  have hLast : some sampleValue ∈ client.outcomes.map fun outcome => outcome.toOption.join :=
    hOutcomes ▸ List.mem_cons_self
  obtain ⟨outcome, hOutcome, hValue⟩ := List.mem_map.mp hLast
  cases outcome with
  | error raised => cases hValue
  | ok value =>
      obtain rfl : value = some sampleValue := hValue
      exact hOutcome

end Sample

end QuantumService
