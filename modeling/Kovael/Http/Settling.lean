import Kovael.Http.Routes

/-!
# When the REST handlers settle

`HttpApiRouter` calls the handlers without a `catch`, so a promise of theirs
that rejects is nobody's. A handler can reject where it builds the URL, where it
decodes a path and where the chair registry writes a row; and it can end without
a response where a body is the JSON of `null`, which `readJsonBody` cannot tell
from a failure that it answered itself. `handlers_settle_iff` says that these are
all the ways there are.
-/

namespace Kovael.Http

open Js Crypto

/-! ## Ends of a handler -/

namespace Handled

/-- One response, and no rejection. -/
def Answers (h : Handled) : Prop := h.rejected = false ∧ h.responses.length = 1

/-- An answer where `p` holds, and a rejection where it does not. -/
def AnswersWhen (h : Handled) (p : Prop) : Prop := (p → h.Answers) ∧ (¬p → h.rejected = true)

/-- The promise resolves, and a request under the route was answered once. -/
def Settles (h : Handled) (routed : Prop) : Prop :=
  h.rejected = false ∧ (routed → h.responses.length = 1)

theorem answers_answered (ctx : Context) (status : Nat) (body : Json) :
    (answered ctx status body).Answers :=
  ⟨rfl, rfl⟩

theorem Answers.settles {h : Handled} (hh : h.Answers) (routed : Prop) : h.Settles routed :=
  ⟨hh.1, fun _ => hh.2⟩

theorem not_settles_rejects (ctx : Context) (routed : Prop) : ¬(rejects ctx).Settles routed :=
  fun h => nomatch h.1

/-- Without a URL, neither the handler settles nor its condition holds. -/
theorem rejects_settles_iff (ctx : Context) (routed : Prop) {p : Url → Prop} :
    (rejects ctx).Settles routed ↔ ∃ url, (none : Option Url) = some url ∧ p url := by
  refine ⟨fun h => absurd h (not_settles_rejects ctx routed), ?_⟩
  intro hgiven
  obtain ⟨_, h, -⟩ := hgiven
  exact nomatch h

theorem answersWhen_answered (ctx : Context) (status : Nat) (body : Json) {p : Prop} (hp : p) :
    (answered ctx status body).AnswersWhen p :=
  ⟨fun _ => answers_answered ctx status body, fun h => absurd hp h⟩

theorem answersWhen_rejects (ctx : Context) {p : Prop} (hp : ¬p) : (rejects ctx).AnswersWhen p :=
  ⟨fun h => absurd h hp, fun _ => rfl⟩

theorem AnswersWhen.tidy {h : Handled} {p : Prop} (hh : h.AnswersWhen p) (hr : h.rejected = false) :
    h.responses.length = 1 := by
  by_cases hp : p
  · exact (hh.1 hp).2
  · exact absurd ((hh.2 hp).symm.trans hr) (fun h => nomatch h)

theorem AnswersWhen.rejected {h : Handled} {p : Prop} (hh : h.AnswersWhen p) :
    h.rejected = false ↔ p := by
  by_cases hp : p
  · exact ⟨fun _ => hp, fun _ => (hh.1 hp).1⟩
  · exact ⟨fun hr => absurd ((hh.2 hp).symm.trans hr) (fun h => nomatch h), fun h => absurd h hp⟩

end Handled

/-- The request is one that `HttpApiRouter` dispatches to the handler of the route. -/
def UnderRoute (route : String) (req : Request) : Prop := (after? route req.url).isSome = true

/-- A handler that reads a body settles where its rest does, unless the body is `null`. -/
theorem withBody_settles {k : Json → Handled} {p : Json → Prop}
    (hk : ∀ body, (k body).AnswersWhen (p body)) (ctx : Context) (number : String → String)
    (maxBytes : Nat) (req : Request) (routed : Prop) :
    (withBody ctx (readJsonBody number maxBytes req.body) k).Settles routed ↔
      (∀ body, body ≠ .null → Carries number maxBytes req.body body → p body) ∧
        (routed → ¬Carries number maxBytes req.body .null) := by
  unfold withBody
  rcases (readJsonBody_reads req.ends : (readJsonBody number maxBytes req.body).Reads
      (Carries number maxBytes req.body)) with
    ⟨body, ⟨hne, hresolved, hresponses⟩, hcarries⟩ | ⟨⟨response, hresolved, hresponses⟩, hcarries⟩ |
    ⟨⟨hresolved, hresponses⟩, hcarries⟩
  · -- the rest of the handler runs, on the one body there is
    rw [hresolved, hresponses]
    constructor
    · intro hgiven
      obtain ⟨hrejected, -⟩ := hgiven
      refine ⟨fun value _ hvalue => ?_, fun _ hnull => hne ((hcarries _).mp hnull).symm⟩
      rw [(hcarries value).mp hvalue]
      exact (hk body).rejected.mp hrejected
    · intro hgiven
      obtain ⟨hrejected, -⟩ := hgiven
      exact ((hk body).1 (hrejected body hne ((hcarries body).mpr rfl))).settles routed
  · rw [hresolved, hresponses]
    exact ⟨fun _ => ⟨fun value _ hvalue => absurd hvalue (hcarries value), fun _ => hcarries _⟩,
      fun _ => ⟨rfl, fun _ => rfl⟩⟩
  · rw [hresolved, hresponses]
    have hnull : Carries number maxBytes req.body .null := (hcarries _).mpr rfl
    constructor
    · intro hgiven
      obtain ⟨-, hrouted⟩ := hgiven
      refine ⟨fun value hne hvalue => absurd ((hcarries value).mp hvalue) hne, fun h => ?_⟩
      exact absurd (hrouted h) Nat.zero_ne_one
    · intro hgiven
      obtain ⟨-, hrouted⟩ := hgiven
      exact ⟨rfl, fun h => absurd hnull (hrouted h)⟩

/-- The same, where the rest of the handler always answers. -/
theorem withBody_settles_answers {k : Json → Handled} (hk : ∀ body, (k body).Answers) (ctx : Context)
    (number : String → String) (maxBytes : Nat) (req : Request) (routed : Prop) :
    (withBody ctx (readJsonBody number maxBytes req.body) k).Settles routed ↔
      (routed → ¬Carries number maxBytes req.body .null) := by
  rw [withBody_settles (p := fun _ => True)
    fun body => ⟨fun _ => hk body, fun h => absurd trivial h⟩]
  exact and_iff_right fun _ _ _ => trivial

/-! ## The chair registry's writes -/

section

variable (r : Presence.Registry) (disk : String → Bool)

/-- A chair is written: there is no table, or the disk takes its row and the trust tier fits
its column. -/
def Writes (agentId : String) (trustTier : Number) : Prop :=
  r.rows = none ∨ disk agentId = true ∧ (Presence.storeInteger trustTier).isSome = true

/-- A row is deleted: there is no table, or the disk takes the write. -/
def Erases (agentId : String) : Prop := r.rows = none ∨ disk agentId = true

theorem persist_isSome_iff (c : Presence.ChairClaim) :
    (r.persist disk c).isSome = true ↔ Writes r disk c.agentId c.trustTier := by
  unfold Presence.Registry.persist Writes
  cases r.rows with
  | none => simp
  | some rows =>
    dsimp only
    split
    · next hdisk => simp [hdisk, Presence.toRow]
    · next hdisk => simp [hdisk]

theorem erase_isSome_iff (agentId : String) :
    (r.erase disk agentId).isSome = true ↔ Erases r disk agentId := by
  unfold Presence.Registry.erase Erases
  cases r.rows with
  | none => simp
  | some rows =>
    dsimp only
    split
    · next hdisk => simp [hdisk]
    · next hdisk => simp [hdisk]

/-- The agent's chair, where the session holds it. -/
def Holds (agentId sessionId : String) (chair : Presence.ChairClaim) : Prop :=
  r.chairs.get? agentId = some chair ∧ chair.sessionId = sessionId

theorem claim_returned_iff (now : Int) (sessionId : String) (input : Presence.ClaimInput) :
    (Presence.claim r disk now sessionId input).returned.isSome = true ↔
      Writes r disk input.agentId input.tier := by
  have hwrites := persist_isSome_iff (r.put (input.chair sessionId now)) disk
    (input.chair sessionId now)
  unfold Presence.claim
  dsimp only
  split
  · next hpersist =>
    rw [hpersist] at hwrites
    exact hwrites
  · next hpersist =>
    rw [hpersist] at hwrites
    exact hwrites

theorem heartbeat_returned_iff (now : Int) (agentId sessionId : String) (note : Option String) :
    (Presence.heartbeat r disk now agentId sessionId note).returned.isSome = true ↔
      ∀ chair, Holds r agentId sessionId chair → Writes r disk agentId chair.trustTier := by
  unfold Presence.heartbeat
  split
  · next hget =>
    exact ⟨fun _ chair h => absurd (hget.symm.trans h.1) (fun h => nomatch h), fun _ => rfl⟩
  · next chair hget =>
    have hagent : chair.agentId = agentId := r.filed agentId chair hget
    by_cases hsession : chair.sessionId = sessionId
    · have hwrites := persist_isSome_iff (r.put (chair.beat now note)) disk (chair.beat now note)
      have hheld : (∀ c, Holds r agentId sessionId c → Writes r disk agentId c.trustTier) ↔
          Writes r disk agentId chair.trustTier := by
        constructor
        · exact fun h => h chair ⟨hget, hsession⟩
        · intro h c hc
          obtain rfl := Option.some.inj (hget.symm.trans hc.1)
          exact h
      rw [hheld, if_neg (not_not_intro hsession), ← hagent]
      dsimp only
      split
      · next hpersist =>
        rw [hpersist] at hwrites
        exact hwrites
      · next hpersist =>
        rw [hpersist] at hwrites
        exact hwrites
    · rw [if_pos hsession]
      refine ⟨fun _ c hc => ?_, fun _ => rfl⟩
      obtain rfl := Option.some.inj (hget.symm.trans hc.1)
      exact absurd hc.2 hsession

theorem release_returned_iff (now : Int) (agentId sessionId reason : String) :
    (Presence.release r disk now agentId sessionId reason).returned.isSome = true ↔
      ∀ chair, Holds r agentId sessionId chair → Erases r disk agentId := by
  unfold Presence.release
  split
  · next hget =>
    exact ⟨fun _ chair h => absurd (hget.symm.trans h.1) (fun h => nomatch h), fun _ => rfl⟩
  · next chair hget =>
    by_cases hsession : chair.sessionId = sessionId
    · have herases := erase_isSome_iff (r.drop agentId) disk agentId
      have hheld : (∀ c, Holds r agentId sessionId c → Erases r disk agentId) ↔
          Erases r disk agentId :=
        ⟨fun h => h chair ⟨hget, hsession⟩, fun h _ _ => h⟩
      rw [hheld, if_neg (not_not_intro hsession)]
      dsimp only
      split
      · next herase =>
        rw [herase] at herases
        exact herases
      · next herase =>
        rw [herase] at herases
        exact herases
    · rw [if_pos hsession]
      refine ⟨fun _ c hc => ?_, fun _ => rfl⟩
      obtain rfl := Option.some.inj (hget.symm.trans hc.1)
      exact absurd hc.2 hsession

end

section

variable (cfg : Config) (host : Host) (ctx : Context)

/-! ## `handleChairRequest` -/

/-- Both fields are there. -/
def HasFields (first second : String) (body : Json) : Prop :=
  trimmed body first ≠ "" ∧ trimmed body second ≠ ""

theorem not_hasFields {first second : String} {body : Json} :
    ¬HasFields first second body ↔ trimmed body first = "" ∨ trimmed body second = "" := by
  rw [HasFields, not_and_or, not_not, not_not]

/-- What a claim needs of the registry. -/
def ClaimWrites (body : Json) : Prop :=
  HasFields "agentId" "provider" body →
    Writes ctx.chairs host.disk (trimmed body "agentId") (claimInput body).tier

/-- What a heartbeat needs of the registry. -/
def HeartbeatWrites (body : Json) : Prop :=
  HasFields "agentId" "sessionId" body →
    ∀ chair, Holds ctx.chairs (trimmed body "agentId") (trimmed body "sessionId") chair →
      Writes ctx.chairs host.disk (trimmed body "agentId") chair.trustTier

/-- What a release needs of the registry. -/
def ReleaseErases (body : Json) : Prop :=
  HasFields "agentId" "sessionId" body →
    ∀ chair, Holds ctx.chairs (trimmed body "agentId") (trimmed body "sessionId") chair →
      Erases ctx.chairs host.disk (trimmed body "agentId")

theorem claimChair_answers (body : Json) :
    (claimChair cfg host ctx body).AnswersWhen (ClaimWrites host ctx body) := by
  unfold claimChair ClaimWrites
  dsimp only
  by_cases hfields : HasFields "agentId" "provider" body
  · have hreturned := claim_returned_iff ctx.chairs host.disk (host.clock 0) host.sessionId
      (claimInput body)
    rw [if_neg (show ¬((claimInput body).agentId = "" ∨ (claimInput body).provider = "") from
      not_or.mpr hfields), imp_iff_right hfields,
      show trimmed body "agentId" = (claimInput body).agentId from rfl, ← hreturned]
    cases (Presence.claim ctx.chairs host.disk (host.clock 0) host.sessionId
      (claimInput body)).returned with
    | none => exact Handled.answersWhen_rejects _ (fun h => nomatch h)
    | some claim => exact Handled.answersWhen_answered _ _ _ rfl
  · rw [if_pos (show (claimInput body).agentId = "" ∨ (claimInput body).provider = "" from
      not_hasFields.mp hfields)]
    exact Handled.answersWhen_answered _ _ _ (fun h => absurd h hfields)

theorem heartbeatChair_answers (body : Json) :
    (heartbeatChair host ctx body).AnswersWhen (HeartbeatWrites host ctx body) := by
  unfold heartbeatChair HeartbeatWrites
  dsimp only
  by_cases hfields : HasFields "agentId" "sessionId" body
  · rw [if_neg (not_or.mpr hfields), imp_iff_right hfields,
      ← heartbeat_returned_iff ctx.chairs host.disk (host.clock 0) _ _
        ((body.stringField? "note").map (sliceStart 200))]
    rcases (Presence.heartbeat ctx.chairs host.disk (host.clock 0) (trimmed body "agentId")
      (trimmed body "sessionId") ((body.stringField? "note").map (sliceStart 200))).returned with
      _ | _ | claim
    · exact Handled.answersWhen_rejects _ (fun h => nomatch h)
    · exact Handled.answersWhen_answered _ _ _ rfl
    · exact Handled.answersWhen_answered _ _ _ rfl
  · rw [if_pos (not_hasFields.mp hfields)]
    exact Handled.answersWhen_answered _ _ _ (fun h => absurd h hfields)

theorem releaseChair_answers (body : Json) :
    (releaseChair host ctx body).AnswersWhen (ReleaseErases host ctx body) := by
  unfold releaseChair ReleaseErases
  dsimp only
  by_cases hfields : HasFields "agentId" "sessionId" body
  · rw [if_neg (not_or.mpr hfields), imp_iff_right hfields,
      ← release_returned_iff ctx.chairs host.disk (host.clock 0) _ _ "client_release"]
    cases (Presence.release ctx.chairs host.disk (host.clock 0) (trimmed body "agentId")
      (trimmed body "sessionId") "client_release").returned with
    | none => exact Handled.answersWhen_rejects _ (fun h => nomatch h)
    | some ok => exact Handled.answersWhen_answered _ _ _ rfl
  · rw [if_pos (not_hasFields.mp hfields)]
    exact Handled.answersWhen_answered _ _ _ (fun h => absurd h hfields)

/-- A reply touches no table; whatever opening its body throws is answered. -/
theorem replyChair_answers (body : Json) : (replyChair cfg host ctx body).Answers := by
  unfold replyChair
  split
  · unfold replyOpened
    dsimp only
    split
    · exact Handled.answers_answered _ _ _
    · split
      · exact Handled.answers_answered _ _ _
      · exact Handled.answers_answered _ _ _
  · exact Handled.answers_answered _ _ _
  · exact Handled.answers_answered _ _ _

/-- What an action needs of the registry. -/
def ActionWrites (action : String) (body : Json) : Prop :=
  (action = "claim" → ClaimWrites host ctx body) ∧
    (action = "heartbeat" → HeartbeatWrites host ctx body) ∧
    (action = "release" → ReleaseErases host ctx body)

theorem postChair_answers (action : String) (body : Json) :
    (postChair cfg host ctx action body).AnswersWhen (ActionWrites host ctx action body) := by
  unfold postChair ActionWrites
  split
  · next haction =>
    subst haction
    simpa using claimChair_answers cfg host ctx body
  · next hclaim =>
    split
    · next haction =>
      subst haction
      simpa using heartbeatChair_answers host ctx body
    · next hheartbeat =>
      split
      · next haction =>
        subst haction
        simpa using releaseChair_answers host ctx body
      · next hrelease =>
        have hwrites : (action = "claim" → ClaimWrites host ctx body) ∧
            (action = "heartbeat" → HeartbeatWrites host ctx body) ∧
            (action = "release" → ReleaseErases host ctx body) :=
          ⟨fun h => absurd h hclaim, fun h => absurd h hheartbeat, fun h => absurd h hrelease⟩
        split
        · exact ⟨fun _ => replyChair_answers cfg host ctx body, fun h => absurd hwrites h⟩
        · exact Handled.answersWhen_answered _ _ _ hwrites

/-- The condition of `handleChairRequest`. -/
def ChairSettles (req : Request) : Prop :=
  ∃ url, createRequestUrl host.toAscii req = some url ∧
    (req.method = "POST" →
      let action := dropRoute "/api/v1/chairs" url.pathname
      (UnderRoute "/api/v1/chairs" req → ¬Carries host.number (bodyLimit action) req.body .null) ∧
        ∀ body, Carries host.number (bodyLimit action) req.body body →
          ActionWrites host ctx action body)

/-- A body that is `null` has no fields. -/
theorem actionWrites_null (action : String) : ActionWrites host ctx action .null :=
  ⟨fun _ h => absurd rfl h.1, fun _ h => absurd rfl h.1, fun _ h => absurd rfl h.1⟩

theorem chair_settles_iff (req : Request) :
    (handleChairRequest cfg host ctx req).Settles (UnderRoute "/api/v1/chairs" req) ↔
      ChairSettles host ctx req := by
  unfold handleChairRequest ChairSettles
  cases createRequestUrl host.toAscii req with
  | none => exact Handled.rejects_settles_iff _ _
  | some url =>
    simp only [Option.some.injEq, exists_eq_left']
    by_cases hpost : req.method = "POST"
    · rw [if_neg (fun h => absurd (hpost.symm.trans h.1) (by decide)),
        if_neg (not_not_intro hpost), imp_iff_right hpost,
        withBody_settles (postChair_answers cfg host ctx _), and_comm]
      refine and_congr_right fun _ => ⟨fun h body hbody => ?_, fun h body _ hbody => h body hbody⟩
      by_cases hnull : body = .null
      · rw [hnull]
        exact actionWrites_null host ctx _
      · exact h body hnull hbody
    · refine ⟨fun _ h => absurd h hpost, fun _ => ?_⟩
      split
      · exact (Handled.answers_answered _ _ _).settles _
      · exact (Handled.answers_answered _ _ _).settles _

/-! ## `handleAgentRuntimeRequest` -/

/-- The condition of `handleAgentRuntimeRequest`. -/
def AgentRuntimeSettles (req : Request) : Prop :=
  ∃ url, createRequestUrl host.toAscii req = some url ∧
    (∀ part ∈ rawParts url.pathname, (Utf8.decodeURIComponent part).isSome = true) ∧
    (req.method = "POST" → (rawParts url.pathname).length = 2 →
      UnderRoute "/api/v1/agent-runtimes" req → ¬Carries host.number (16 * 1024) req.body .null)

/-- Whatever the supervisor says of a control request is answered. -/
theorem controlRuntime_answers (agentId action : String) (body : Json) :
    (controlRuntime cfg host ctx agentId action body).Answers := by
  unfold controlRuntime
  split
  · exact Handled.answers_answered _ _ _
  · split
    · exact Handled.answers_answered _ _ _
    · split
      · exact Handled.answers_answered _ _ _
      · split
        · exact Handled.answers_answered _ _ _
        · exact Handled.answers_answered _ _ _

/-- A path decodes where all of its parts do, and into as many. -/
theorem routeParts_cases (pathname : String) :
    (routeParts pathname = none ∧
        ¬∀ part ∈ rawParts pathname, (Utf8.decodeURIComponent part).isSome = true) ∨
      ∃ parts, routeParts pathname = some parts ∧ parts.length = (rawParts pathname).length ∧
        ∀ part ∈ rawParts pathname, (Utf8.decodeURIComponent part).isSome = true := by
  unfold routeParts
  induction rawParts pathname with
  | nil => exact Or.inr ⟨[], rfl, rfl, fun _ h => absurd h List.not_mem_nil⟩
  | cons part parts ih =>
    rw [List.forall_mem_cons, List.mapM_cons]
    cases hpart : Utf8.decodeURIComponent part with
    | none => exact Or.inl ⟨rfl, fun h => nomatch h.1⟩
    | some text =>
      rcases ih with ⟨hnone, hnot⟩ | ⟨texts, hsome, hlength, hall⟩
      · rw [hnone]
        exact Or.inl ⟨rfl, fun h => hnot h.2⟩
      · rw [hsome]
        exact Or.inr ⟨text :: texts, rfl, congrArg (· + 1) hlength, rfl, hall⟩

theorem agentRuntime_settles_iff (req : Request) :
    (handleAgentRuntimeRequest cfg host ctx req).Settles
        (UnderRoute "/api/v1/agent-runtimes" req) ↔
      AgentRuntimeSettles host req := by
  unfold handleAgentRuntimeRequest AgentRuntimeSettles
  cases createRequestUrl host.toAscii req with
  | none => exact Handled.rejects_settles_iff _ _
  | some url =>
    simp only [Option.some.injEq, exists_eq_left', Option.bind_some]
    rcases routeParts_cases url.pathname with ⟨hnone, hnot⟩ | ⟨parts, hsome, hlength, hall⟩
    · rw [hnone]
      exact ⟨fun h => absurd h (Handled.not_settles_rejects _ _), fun h => absurd h.1 hnot⟩
    · rw [hsome, and_iff_right hall, ← hlength]
      dsimp only
      by_cases hpost : req.method = "POST"
      · rw [if_neg (fun h => absurd (hpost.symm.trans h) (by decide)),
          if_neg (not_not_intro hpost), imp_iff_right hpost]
        split
        · rw [withBody_settles_answers (controlRuntime_answers cfg host ctx _ _)]
          exact (imp_iff_right rfl).symm
        · next hparts =>
          refine ⟨fun _ h => ?_, fun _ => (Handled.answers_answered _ _ _).settles _⟩
          obtain ⟨agentId, action, rfl⟩ := List.length_eq_two.mp h
          exact absurd rfl (hparts agentId action)
      · refine ⟨fun _ h => absurd h hpost, fun _ => ?_⟩
        split
        · split
          · exact (Handled.answers_answered _ _ _).settles _
          · split
            · exact (Handled.answers_answered _ _ _).settles _
            · exact (Handled.answers_answered _ _ _).settles _
          · exact (Handled.answers_answered _ _ _).settles _
        · exact (Handled.answers_answered _ _ _).settles _

/-! ## `handleConversationRequest` -/

/-- The condition of `handleConversationRequest`. -/
def ConversationSettles (req : Request) : Prop :=
  ∃ url, createRequestUrl host.toAscii req = some url ∧
    (req.method = "POST" → UnderRoute "/api/v1/conversations" req →
      ¬Carries host.number (16 * 1024) req.body .null)

/-- What the bus throws is caught, and answered. -/
theorem postConversation_answers (req : Request) (pathname : String) (body : Json) :
    (postConversation host ctx req pathname body).Answers := by
  unfold postConversation
  dsimp only
  split
  · unfold createTopic
    dsimp only
    split
    · exact Handled.answers_answered _ _ _
    · split <;> exact Handled.answers_answered _ _ _
  · split
    · unfold postMessage
      dsimp only
      split
      · exact Handled.answers_answered _ _ _
      · split <;> exact Handled.answers_answered _ _ _
    · split
      · unfold conveneCommittee
        dsimp only
        split
        · exact Handled.answers_answered _ _ _
        · split
          · exact Handled.answers_answered _ _ _
          · split <;> exact Handled.answers_answered _ _ _
      · split
        · unfold closeTopic
          split <;> exact Handled.answers_answered _ _ _
        · exact Handled.answers_answered _ _ _

theorem conversation_settles_iff (req : Request) :
    (handleConversationRequest host ctx req).Settles (UnderRoute "/api/v1/conversations" req) ↔
      ConversationSettles host req := by
  unfold handleConversationRequest ConversationSettles
  cases createRequestUrl host.toAscii req with
  | none => exact Handled.rejects_settles_iff _ _
  | some url =>
    simp only [Option.some.injEq, exists_eq_left']
    by_cases hpost : req.method = "POST"
    · rw [if_neg (fun h => absurd (hpost.symm.trans h) (by decide))]
      dsimp only
      rw [if_neg (not_not_intro hpost), imp_iff_right hpost,
        withBody_settles_answers (postConversation_answers host ctx req _)]
    · refine ⟨fun _ h => absurd h hpost, fun _ => ?_⟩
      split
      · split <;> exact (Handled.answers_answered _ _ _).settles _
      · rw [if_pos hpost]
        exact (Handled.answers_answered _ _ _).settles _

/-! ## `handleTracesRequest` -/

/-- The condition of `handleTracesRequest`. -/
def TracesSettle (req : Request) : Prop :=
  ∃ url, createRequestUrl host.toAscii req = some url ∧
    (req.method = "POST" → url.pathname = "/api/v1/traces/reroute" →
      UnderRoute "/api/v1/traces" req → ¬Carries host.number (8 * 1024) req.body .null)

theorem rerouteTrace_answers (body : Json) : (rerouteTrace host ctx body).Answers := by
  unfold rerouteTrace
  split <;> exact Handled.answers_answered _ _ _

theorem traces_settle_iff (req : Request) :
    (handleTracesRequest host ctx req).Settles (UnderRoute "/api/v1/traces" req) ↔
      TracesSettle host req := by
  unfold handleTracesRequest TracesSettle
  cases createRequestUrl host.toAscii req with
  | none => exact Handled.rejects_settles_iff _ _
  | some url =>
    simp only [Option.some.injEq, exists_eq_left']
    by_cases hreroute : req.method = "POST" ∧ url.pathname = "/api/v1/traces/reroute"
    · rw [if_pos hreroute, imp_iff_right hreroute.1, imp_iff_right hreroute.2,
        withBody_settles_answers (rerouteTrace_answers host ctx)]
    · refine ⟨fun _ hpost hpath => absurd ⟨hpost, hpath⟩ hreroute, fun _ => ?_⟩
      rw [if_neg hreroute]
      split
      · exact (Handled.answers_answered _ _ _).settles _
      · split
        · split <;> exact (Handled.answers_answered _ _ _).settles _
        · exact (Handled.answers_answered _ _ _).settles _

/-! ## All four -/

/-- Each handler settles exactly where its condition holds. -/
theorem handlers_settle_iff (req : Request) :
    ((handleChairRequest cfg host ctx req).Settles (UnderRoute "/api/v1/chairs" req) ↔
        ChairSettles host ctx req) ∧
      ((handleAgentRuntimeRequest cfg host ctx req).Settles
          (UnderRoute "/api/v1/agent-runtimes" req) ↔ AgentRuntimeSettles host req) ∧
      ((handleConversationRequest host ctx req).Settles (UnderRoute "/api/v1/conversations" req) ↔
        ConversationSettles host req) ∧
      ((handleTracesRequest host ctx req).Settles (UnderRoute "/api/v1/traces" req) ↔
        TracesSettle host req) :=
  ⟨chair_settles_iff cfg host ctx req, agentRuntime_settles_iff cfg host ctx req,
    conversation_settles_iff host ctx req, traces_settle_iff host ctx req⟩

end

/-! Three requests: a body that is `null`, a path with a byte that is no UTF-8, and a trust
tier that no INTEGER column takes. -/

def sampleConfig : Config where
  chairs := Presence.defaultChairRegistryConfig
  supervisor := ⟨true, none, none, ["shaev"], fun text => text⟩
  bridge := ⟨fun _ _ => "", fun text => text, .nan⟩
  boundPort := 18080

def sampleHost : Host where
  toAscii _ := none
  number := id
  print _ := "15000"
  toNumber _ := .nan
  clock _ := 0
  sessionId := "session-1"
  disk _ := true
  runtime := ⟨fun _ => 0, none, .quiet⟩
  runtimes _ := ⟨fun _ => 0, none, .quiet⟩
  busy := ⟨0, 0⟩
  agentStatus _ _ := .null
  runtimeSnapshot _ := .null
  conversationBus :=
    { getHistory _ := .error "closed"
      createTopic _ _ := .error "closed"
      postMessage _ _ _ := .error "closed"
      conveneCommittee _ _ _ := .error none
      closeTopic _ := .error "closed" }
  ring := none
  gcm :=
    { ciphertext _ _ := Equiv.refl _
      tag _ _ _ _ := List.replicate 16 0
      length_ciphertext _ _ _ := rfl
      ciphertext_injective _ _ := Equiv.injective _
      length_tag _ _ _ _ := rfl }
  calls := []
  dispatchSecret := none

def sampleContext : Context where
  chairs := .new true
  supervisor := .init sampleConfig.supervisor
  bridge := .init
  idle := false

def sampleRequest (method url body : String) : Request where
  method := method
  url := url
  host := some "127.0.0.1:18080"
  traceparent := none
  tracestate := none
  body := [.data (Utf8.encode body), .ended]
  ends := ⟨.ended, by simp, rfl⟩

def nullClaim : Request := sampleRequest "POST" "/api/v1/chairs/claim" "null"

def undecodable : Request := sampleRequest "GET" "/api/v1/agent-runtimes/%ff" ""

def fractionalClaim : Request :=
  sampleRequest "POST" "/api/v1/chairs/claim"
    "\x7b\"agentId\":\"shaev\",\"provider\":\"p\",\"trustTier\":1.5\x7d"

theorem handlers_do_not_settle :
    ¬(handleChairRequest sampleConfig sampleHost sampleContext nullClaim).Settles
        (UnderRoute "/api/v1/chairs" nullClaim) ∧
      ¬(handleAgentRuntimeRequest sampleConfig sampleHost sampleContext undecodable).Settles
        (UnderRoute "/api/v1/agent-runtimes" undecodable) ∧
      ¬(handleChairRequest sampleConfig sampleHost sampleContext fractionalClaim).Settles
        (UnderRoute "/api/v1/chairs" fractionalClaim) := by
  refine ⟨fun h => ?_, fun h => ?_, fun h => ?_⟩
  · exact absurd (h.2 rfl) (by decide +kernel)
  · exact absurd h.1 (by decide +kernel)
  · exact absurd h.1 (by decide +kernel)

end Kovael.Http
