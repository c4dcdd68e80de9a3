import QuantumService.Interaction.Program

/-! A program that talks to a service. Some of its calls are sent there as requests, and
are answered by the response to them or by an error, whatever becomes of the request.
The others are answered where the program runs. -/
namespace Interaction

/-- `route` tells which calls are requests, and `heard` what the program hears of a
response or an error. `own` answers the other calls by what was observed. -/
structure Protocol (Call : Type) (Answer : Call → Type) (Query Response Observed : Type) where
  route : Call → Option Query
  heard : (call : Call) → Except String Response → Option (Answer call)
  own : (call : Call) → Observed → Option (Answer call)

variable {Call : Type} {Answer : Call → Type} {Query Response Observed Result : Type}

/-- A program on its way. `sent` is the number of the request that was sent for the
call it waits for. -/
structure Party (protocol : Protocol Call Answer Query Response Observed)
    (p : Program Call Answer Result) where
  history : List (Event Answer)
  rest : Program Call Answer Result
  path : Program.Path p history rest
  sent : Option Nat

/-- What a call is answered with: the response, an error, or what was observed. -/
inductive Hearing (Observed : Type) where
  | response
  | error (err : String)
  | own (observed : Observed)

namespace Party
variable {protocol : Protocol Call Answer Query Response Observed} {p : Program Call Answer Result}

def start (protocol : Protocol Call Answer Query Response Observed)
    (p : Program Call Answer Result) : Party protocol p :=
  ⟨[], p, .nil p, none⟩

/-- The request for the next call, unless it was sent already. -/
def query : Party protocol p → Option Query
  | ⟨_, .ask call _, _, none⟩ => protocol.route call
  | _ => none

def send (party : Party protocol p) (i : Nat) : Party protocol p := { party with sent := some i }

/-- The next call is answered; `answers` has the responses of the service so far. An
error may also come before the request was sent. -/
def hear (party : Party protocol p) (answers : Nat → Option Response)
    (hearing : Hearing Observed) : Option (Party protocol p) :=
  match party with
  | ⟨_, .done _, _, _⟩ => none
  | ⟨history, .ask call next, path, sent⟩ =>
      let answer := match hearing with
        | .response => (sent.bind answers).bind fun response => protocol.heard call (.ok response)
        | .error err => protocol.heard call (.error err)
        | .own observed => protocol.own call observed
      answer.map fun answer => ⟨history ++ [⟨call, answer⟩], next answer, path.snoc answer, none⟩

/-- Where an answered call has its answer from. -/
inductive Source (protocol : Protocol Call Answer Query Response Observed)
    (said : Query → Response → Prop) : Event Answer → Prop where
  | response {call : Call} {answer : Answer call} {query : Query} {response : Response}
      (routed : protocol.route call = some query)
      (heard : protocol.heard call (.ok response) = some answer) (hSaid : said query response) :
      Source protocol said ⟨call, answer⟩
  | error {call : Call} {answer : Answer call} {err : String}
      (heard : protocol.heard call (.error err) = some answer) : Source protocol said ⟨call, answer⟩
  | own {call : Call} {answer : Answer call} {observed : Observed}
      (observed : protocol.own call observed = some answer) : Source protocol said ⟨call, answer⟩

/-- What a party was told was said. `asked` tells which request has which number, and
`said` what was answered to a request. -/
structure Informed (party : Party protocol p) (asked : Nat → Query → Prop)
    (said : Query → Response → Prop) : Prop where
  told : ∀ e ∈ party.history, Source protocol said e
  waits : ∀ i, party.sent = some i → ∃ call next query, party.rest = .ask call next ∧
    protocol.route call = some query ∧ asked i query

variable {party party' : Party protocol p} {asked asked' : Nat → Query → Prop}
  {said said' : Query → Response → Prop}

theorem Source.mono {e : Event Answer} (source : Source protocol said e)
    (weaker : ∀ query response, said query response → said' query response) :
    Source protocol said' e := by
  cases source with
  | response routed heard hSaid => exact .response routed heard (weaker _ _ hSaid)
  | error heard => exact .error heard
  | own observed => exact .own observed

/-- What was said stays said while the service goes on. -/
theorem Informed.mono (informed : party.Informed asked said)
    (still : ∀ i query, asked i query → asked' i query)
    (weaker : ∀ query response, said query response → said' query response) :
    party.Informed asked' said' where
  told := fun e hMem => (informed.told e hMem).mono weaker
  waits := by
    intro i hSent
    obtain ⟨call, next, query, hRest, hRouted, hAsked⟩ := informed.waits i hSent
    exact ⟨call, next, query, hRest, hRouted, still i query hAsked⟩

theorem informed_start : (start protocol p).Informed asked said where
  told := by
    intro e hMem
    cases hMem
  waits := by
    rintro i ⟨⟩

/-- The request of the next call, as it is sent. -/
theorem Informed.send (informed : party.Informed asked said) {query : Query}
    (queried : party.query = some query) {i : Nat} (now : asked i query) :
    (party.send i).Informed asked said where
  told := informed.told
  waits := by
    rintro j ⟨⟩
    obtain ⟨history, rest, path, sent⟩ := party
    cases rest with
    | done result => cases queried
    | ask call next =>
        cases sent with
        | some j => cases queried
        | none => exact ⟨call, next, query, rfl, queried, now⟩

/-- Whatever a party hears has its source. -/
theorem Informed.hear (informed : party.Informed asked said) {answers : Nat → Option Response}
    (truthful : ∀ i query response, asked i query → answers i = some response →
      said query response)
    {hearing : Hearing Observed} (heard : party.hear answers hearing = some party') :
    party'.Informed asked said := by
  obtain ⟨history, rest, path, sent⟩ := party
  cases rest with
  | done result => cases heard
  | ask call next =>
      obtain ⟨answer, hAnswer, rfl⟩ := Option.map_eq_some_iff.mp heard
      refine ⟨fun e hMem => ?_, by rintro i ⟨⟩⟩
      rcases List.mem_append.mp hMem with hBefore | hNow
      · exact informed.told e hBefore
      · obtain rfl := List.mem_singleton.mp hNow
        cases hearing with
        | response =>
            obtain ⟨response, hResponse, hHeard⟩ := Option.bind_eq_some_iff.mp hAnswer
            obtain ⟨i, hSent, hAnswered⟩ := Option.bind_eq_some_iff.mp hResponse
            obtain ⟨call', next', query, hRest, hRouted, hAsked⟩ := informed.waits i hSent
            cases hRest
            exact .response hRouted hHeard (truthful i query response hAsked hAnswered)
        | error err => exact .error hAnswer
        | own observed => exact .own hAnswer

end Party
end Interaction
