import Mathlib.Algebra.Order.BigOperators.Group.List
import Mathlib.Algebra.Order.Field.Basic
import Kovael.Http.Routes
import Kovael.Js.Number

/-!
# Committee verdicts

`src/services/ConsensusEngine.ts`: `evaluateCommittee` and what it is made of.

Mirroring notes vs the TS module:
- The arithmetic is over exact rationals. A confidence or a weight may be any number
  when it comes in; once normalized it is finite, so a normalized vote has rationals.
- `reduce` with `+` is a sum. `new Map(votes.map(...))` keeps the last vote of an agent.
- The JSON text of the normalized votes is a parameter, as are SHA-256 (its hex digest)
  and `crypto.randomUUID()`.
- `synthesizeVotes`, which makes up votes from hashes, is not modelled.
-/

namespace Kovael.Committee

open Js (Number sliceStart)
open Kovael.Http (sanitizeTraceparent sanitizeTracestate)

/-! ## Votes -/

inductive Role where
  | proponent
  | critic
  | judge
  deriving DecidableEq, Repr

inductive Verdict where
  | approve
  | reject
  | abstain
  deriving DecidableEq, Repr

structure TraceContextEnvelope where
  traceparent : Option String
  tracestate : Option String
  laneId : Option String
  mergeParentId : Option String
  deriving DecidableEq, Repr

structure CommitteeVote where
  agentId : String
  role : Role
  verdict : Verdict
  confidence : Number
  weight : Option Number
  rationale : String
  trace : Option TraceContextEnvelope
  deriving DecidableEq, Repr

/-- A `CommitteeVote & { weight: number }`, as `normalizeVote` returns it. -/
structure NormalizedVote where
  agentId : String
  role : Role
  verdict : Verdict
  confidence : ℚ
  weight : ℚ
  rationale : String
  trace : Option TraceContextEnvelope
  deriving DecidableEq, Repr

structure CommitteeOptions where
  quorumThreshold : Option Number := none
  failureThreshold : Option Number := none
  sidecarCandidates : Option (List String) := none
  activeParticipants : Option (List String) := none
  traceparent : Option String := none
  tracestate : Option String := none

/-! ## Normalization -/

/-- `clampRange(value, min, max)`. -/
def clampRange (value : Number) (min max : ℚ) : ℚ :=
  match value with
  | .fin q => Min.min max (Max.max min q)
  | _ => min

/-- `clamp01(value)`. -/
def clamp01 (value : Number) : ℚ := clampRange value 0 1

/-- `Math.max(0, Number.isFinite(weight ?? 1) ? weight ?? 1 : 1)`. -/
def voteWeight (weight : Option Number) : ℚ :=
  match weight.getD (.fin 1) with
  | .fin q => max 0 q
  | _ => 1

/-- `normalizeVote(vote)`. -/
def normalizeVote (vote : CommitteeVote) : NormalizedVote where
  agentId := vote.agentId
  role := vote.role
  verdict := vote.verdict
  confidence := clamp01 vote.confidence
  weight := voteWeight vote.weight
  rationale := sliceStart 500 vote.rationale
  trace := vote.trace

/-- What `byAgent` has for an agent. -/
def byAgent (votes : List CommitteeVote) (agentId : String) : Option CommitteeVote :=
  votes.reverse.find? fun vote => vote.agentId = agentId

/-- The vote of a participant that cast none. -/
def missingVote (agentId : String) (index : Nat) : CommitteeVote where
  agentId := agentId
  role := if index = 0 then .proponent else .critic
  verdict := .abstain
  confidence := .fin 0
  weight := some (.fin 1)
  rationale := "missing committee vote counted as abstain"
  trace := none

/-- `completeParticipantVotes(votes, activeParticipants)`. -/
def completeParticipantVotes (votes : List CommitteeVote)
    (activeParticipants : Option (List String)) : List CommitteeVote :=
  match activeParticipants with
  | none | some [] => votes
  | some active =>
    active.mapIdx (fun index agentId => (byAgent votes agentId).getD (missingVote agentId index))
      ++ votes.filter fun vote => vote.agentId ∉ active

/-- The votes that are counted. -/
def normalizedVotes (votes : List CommitteeVote) (options : CommitteeOptions) :
    List NormalizedVote :=
  (completeParticipantVotes votes options.activeParticipants).map normalizeVote

/-! ## Scores -/

/-- `quorumThreshold`. -/
def CommitteeOptions.quorum (options : CommitteeOptions) : ℚ :=
  clampRange (options.quorumThreshold.getD (.fin (85 / 100))) (6 / 10) 1

/-- `failureThreshold`. -/
def CommitteeOptions.failure (options : CommitteeOptions) : ℚ :=
  clampRange (options.failureThreshold.getD (.fin (5 / 10))) (5 / 10) options.quorum

def NormalizedVote.approval (vote : NormalizedVote) : ℚ :=
  if vote.verdict = .approve then vote.weight * vote.confidence else 0

def NormalizedVote.rejection (vote : NormalizedVote) : ℚ :=
  if vote.verdict = .reject then vote.weight * vote.confidence else 0

def NormalizedVote.abstention (vote : NormalizedVote) : ℚ :=
  if vote.verdict = .abstain then vote.weight else 0

/-- The numbers of a verdict before they are rounded. -/
structure Tally where
  totalWeight : ℚ
  approveWeight : ℚ
  rejectWeight : ℚ
  abstainWeight : ℚ
  supportScore : ℚ
  confidenceMean : ℚ
  deriving DecidableEq, Repr

def tally (normalized : List NormalizedVote) : Tally :=
  let totalWeight := (normalized.map fun vote => vote.weight).sum
  let approveWeight := (normalized.map NormalizedVote.approval).sum
  { totalWeight
    approveWeight
    rejectWeight := (normalized.map NormalizedVote.rejection).sum
    abstainWeight := (normalized.map NormalizedVote.abstention).sum
    supportScore := if totalWeight = 0 then 0 else approveWeight / totalWeight
    confidenceMean :=
      if normalized.length = 0 then 0
      else (normalized.map fun vote => vote.confidence).sum / normalized.length }

inductive CommitteeStatus where
  | accepted
  | failed
  | needsSidecar
  deriving DecidableEq, Repr

/-- The status of two scores under two thresholds. -/
def statusOf (quorum failure supportScore confidenceMean : ℚ) : CommitteeStatus :=
  if quorum ≤ supportScore ∧ quorum ≤ confidenceMean then .accepted
  else if supportScore < failure ∨ confidenceMean < failure then .needsSidecar
  else .failed

/-- `round4(value)`. -/
def round4 (value : ℚ) : ℚ := ⌊value * 10000 + 1 / 2⌋ / 10000

/-! ## Verdicts -/

structure VerdictTrace where
  traceparent : Option String
  tracestate : Option String
  mergeParentId : String
  lanes : List TraceContextEnvelope

structure CommitteeVerdict where
  id : String
  status : CommitteeStatus
  quorumThreshold : ℚ
  failureThreshold : ℚ
  supportScore : ℚ
  confidenceMean : ℚ
  weightedVotes : ℚ
  approveWeight : ℚ
  rejectWeight : ℚ
  abstainWeight : ℚ
  dissent : List NormalizedVote
  sidecars : List String
  trace : VerdictTrace

/-- What an evaluation reads from outside. -/
structure Env where
  randomUUID : String
  /-- `JSON.stringify({ votes, traceparent })`. -/
  stringify : List NormalizedVote → String → String
  sha256 : String → String

/-- `makeLaneTraceparent(parent, mergeParentId, index)`. -/
def makeLaneTraceparent (env : Env) (parent : Option String) (mergeParentId : String)
    (index : Nat) : Option String :=
  parent.bind fun parent =>
    match parent.toList.splitOn '-' with
    | [_, traceId, _, flags] =>
      let spanId := sliceStart 16 (env.sha256 (mergeParentId ++ ":" ++ toString index))
      let spanId := if spanId ≠ "" ∧ spanId.toList.all (· = '0') then "0000000000000001" else spanId
      some ("00-" ++ String.ofList traceId ++ "-" ++ spanId ++ "-" ++ String.ofList flags)
    | _ => none

/-- `evaluateCommittee(votes, options)`. -/
def evaluateCommittee (env : Env) (votes : List CommitteeVote) (options : CommitteeOptions) :
    CommitteeVerdict :=
  let normalized := normalizedVotes votes options
  let scores := tally normalized
  let status := statusOf options.quorum options.failure scores.supportScore scores.confidenceMean
  let active := options.activeParticipants.getD (normalized.map fun vote => vote.agentId)
  let traceparent := sanitizeTraceparent options.traceparent
  let tracestate := sanitizeTracestate options.tracestate
  let mergeParentId := sliceStart 16 (env.sha256 (env.stringify normalized (traceparent.getD "")))
  { id := env.randomUUID
    status
    quorumThreshold := options.quorum
    failureThreshold := options.failure
    supportScore := round4 scores.supportScore
    confidenceMean := round4 scores.confidenceMean
    weightedVotes := round4 scores.totalWeight
    approveWeight := round4 scores.approveWeight
    rejectWeight := round4 scores.rejectWeight
    abstainWeight := round4 scores.abstainWeight
    dissent := normalized.filter fun vote => vote.verdict ≠ .approve
    sidecars :=
      if status = .needsSidecar then
        ((options.sidecarCandidates.getD []).filter fun candidate => candidate ∉ active).take 2
      else []
    trace :=
      { traceparent
        tracestate
        mergeParentId
        lanes := normalized.mapIdx fun index vote =>
          { traceparent := makeLaneTraceparent env
              ((sanitizeTraceparent (vote.trace.bind (·.traceparent))).or traceparent)
              mergeParentId index
            tracestate := (sanitizeTracestate (vote.trace.bind (·.tracestate))).or tracestate
            laneId := some ((vote.trace.bind (·.laneId)).getD
              ("committee-lane-" ++ toString (index + 1)))
            mergeParentId := some mergeParentId } } }

end Kovael.Committee
