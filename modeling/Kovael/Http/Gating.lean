import Kovael.Http.Upgrade

/-!
# Which upgrades are total and gated

An upgrade is served only if it passes the four gates, and none of them lets an
exception out; but each `new URL` on the way can throw, and an `Origin` header
without a value passes as if there were none. `upgrade_gated_iff` says that this
is all that can go wrong.
-/

namespace Kovael.Http

open Js

section

variable (cfg : BusConfig) (host : UpgradeHost) (bus : Bus) (req : UpgradeRequest)

/-! ## What an accepted request has passed -/

/-- The limiter admits the client. -/
def LimiterAdmits : Prop :=
  (consume cfg.limiter bus.buckets
    (clientKey host.isIP cfg.trustProxy req.xForwardedFor req.remoteAddress) host.now).2.allowed = true

/-- The origin is absent, loopback or allow-listed. -/
def OriginFits : Prop :=
  req.origin = none ∨
    ∃ origin, req.origin = some origin ∧
      ((∃ url, Url.parse host.toAscii origin = some url ∧ url.hostname ∈ loopbackHosts) ∨
        origin ∈ cfg.allowedWsOrigins)

/-- The token of one of the two headers. -/
def InHeaders (token : String) : Prop :=
  req.authorization = some ("Bearer " ++ token) ∨
    "bearer." ++ token ∈ parseSubprotocols req.secWebSocketProtocol

/-- The token of the query. -/
def InQuery (token : String) : Prop :=
  req.url ≠ "" ∧ ∃ url, localUrl host.toAscii req.url = some url ∧ url.getParam "token" = some token

/-- The gate is disabled, or one of the three transports has the right token. -/
def TokenFits : Prop :=
  cfg.gate.expectedHash = none ∨
    ∃ token, (InHeaders req token ∨ InQuery host req token) ∧ cfg.gate.accepts token = true

/-- What acceptance says of a request. -/
structure PassesGates : Prop where
  admitted : LimiterAdmits cfg host bus req
  origin : OriginFits cfg host req
  room : (bus.clients : Int) < cfg.maxWsClients
  token : TokenFits cfg host req

/-- Neither listener throws, the request ends once, and it is served only if it passed. -/
structure TotalAndGated : Prop where
  returns : (onUpgrade cfg host bus req).threw = false
  once : (onUpgrade cfg host bus req).endings.length = 1
  gated : ∀ ending ∈ (onUpgrade cfg host bus req).endings, ending.isAccepted = true →
    PassesGates cfg host bus req

/-! ## The condition -/

/-- The request gets as far as the token gate. -/
def ReachesGate : Prop :=
  LimiterAdmits cfg host bus req ∧ isAllowedWsOrigin host.toAscii req.origin cfg.allowedWsOrigins = true ∧
    (bus.clients : Int) < cfg.maxWsClients

/-- The gate has to look into the URL: no header has the right token. -/
def LooksIntoUrl : Prop :=
  cfg.gate.expectedHash ≠ none ∧ req.url ≠ "" ∧
    ¬∃ token, InHeaders req token ∧ cfg.gate.accepts token = true

/-- Every URL that is parsed is one, and no request with an empty origin is served. -/
def UpgradeFits : Prop :=
  ReachesGate cfg host bus req →
    (LooksIntoUrl cfg req → (localUrl host.toAscii req.url).isSome = true) ∧
    (TokenFits cfg host req →
      (includes "token=" req.url = true → (localUrl host.toAscii req.url).isSome = true) ∧
      ∀ url, scrub host.toAscii req.url = some url → host.completes = true →
        (Url.parseOn host.toAscii url ("http://" ++ req.host.getD "undefined")).isSome = true ∧
          req.origin ≠ some "")

/-! ## `verifyWebSocketUpgrade` -/

theorem any_eq_true_iff {α : Type} {o : Option α} {p : α → Bool} :
    o.any p = true ↔ ∃ a, o = some a ∧ p a = true := by
  cases o with
  | none => simp
  | some a => simp

theorem headerToken_isSome (gate : ApiTokenGate) :
    (headerToken gate req).isSome = true ↔
      ∃ token, req.authorization = some ("Bearer " ++ token) ∧ gate.accepts token = true := by
  rw [Option.isSome_iff_exists]
  refine exists_congr fun token => ?_
  unfold headerToken
  rw [Option.filter_eq_some_iff, Option.bind_eq_some_iff]
  refine and_congr_left fun _ => ⟨?_, fun h => ⟨_, h, (after?_eq_some_iff _ _ _).mpr rfl⟩⟩
  intro hgiven
  obtain ⟨header, hheader, htoken⟩ := hgiven
  rw [hheader, (after?_eq_some_iff _ _ _).mp htoken]

theorem tokenSubprotocol_isSome (gate : ApiTokenGate) :
    (tokenSubprotocol gate req).isSome = true ↔
      ∃ token, "bearer." ++ token ∈ parseSubprotocols req.secWebSocketProtocol ∧
        gate.accepts token = true := by
  unfold tokenSubprotocol
  rw [List.find?_isSome]
  constructor
  · intro hgiven
    obtain ⟨proto, hmem, hproto⟩ := hgiven
    obtain ⟨token, htoken, haccepts⟩ := any_eq_true_iff.mp hproto
    rw [(after?_eq_some_iff _ _ _).mp htoken] at hmem
    exact ⟨token, hmem, haccepts⟩
  · intro hgiven
    obtain ⟨token, hmem, haccepts⟩ := hgiven
    exact ⟨_, hmem, any_eq_true_iff.mpr ⟨token, (after?_eq_some_iff _ _ _).mpr rfl, haccepts⟩⟩

/-- A token of the headers, in one transport or the other. -/
theorem inHeaders_iff (gate : ApiTokenGate) :
    (∃ token, InHeaders req token ∧ gate.accepts token = true) ↔
      (headerToken gate req).isSome = true ∨ (tokenSubprotocol gate req).isSome = true := by
  rw [headerToken_isSome, tokenSubprotocol_isSome, ← exists_or]
  exact exists_congr fun token => or_and_right

/-- The gate's verdict, or an exception where it parses a URL that is none. -/
theorem verify_cases :
    (verifyWebSocketUpgrade host.toAscii cfg.gate req = none ∧ LooksIntoUrl cfg req ∧
        localUrl host.toAscii req.url = none) ∨
      ∃ outcome, verifyWebSocketUpgrade host.toAscii cfg.gate req = some outcome ∧
        (outcome.allowed = true ↔ TokenFits cfg host req) ∧
        (LooksIntoUrl cfg req → (localUrl host.toAscii req.url).isSome = true) := by
  unfold verifyWebSocketUpgrade
  by_cases hdisabled : cfg.gate.expectedHash = none
  · rw [if_pos hdisabled]
    exact Or.inr ⟨_, rfl, ⟨fun _ => Or.inl hdisabled, fun _ => rfl⟩, fun h => absurd hdisabled h.1⟩
  · rw [if_neg hdisabled]
    by_cases hheaders : ∃ token, InHeaders req token ∧ cfg.gate.accepts token = true
    · -- a header has the token, so the URL is not looked into
      have hfits : TokenFits cfg host req := by
        obtain ⟨token, hin, haccepts⟩ := hheaders
        exact Or.inr ⟨token, Or.inl hin, haccepts⟩
      have hlooks : ¬LooksIntoUrl cfg req := fun h => h.2.2 hheaders
      have hallowed : ∀ outcome : WebSocketAuthOutcome, outcome.allowed = true →
          (outcome.allowed = true ↔ TokenFits cfg host req) ∧
            (LooksIntoUrl cfg req → (localUrl host.toAscii req.url).isSome = true) :=
        fun outcome h => ⟨⟨fun _ => hfits, fun _ => h⟩, fun h => absurd h hlooks⟩
      split
      · exact Or.inr ⟨_, rfl, hallowed _ rfl⟩
      · next hnone =>
        have hproto := ((inHeaders_iff req cfg.gate).mp hheaders).resolve_left hnone
        obtain ⟨proto, hproto⟩ := Option.isSome_iff_exists.mp hproto
        rw [hproto]
        exact Or.inr ⟨_, rfl, hallowed _ rfl⟩
    · have hnone := not_or.mp (mt (inHeaders_iff req cfg.gate).mpr hheaders)
      rw [if_neg hnone.1, Option.not_isSome_iff_eq_none.mp hnone.2]
      dsimp only
      unfold extractQueryToken
      have hquery : TokenFits cfg host req ↔
          ∃ token, InQuery host req token ∧ cfg.gate.accepts token = true := by
        constructor
        · intro hcases
          rcases hcases with h | ⟨token, hin | hin, haccepts⟩
          · exact absurd h hdisabled
          · exact absurd ⟨token, hin, haccepts⟩ hheaders
          · exact ⟨token, hin, haccepts⟩
        · intro hgiven
          obtain ⟨token, hin, haccepts⟩ := hgiven
          exact Or.inr ⟨token, Or.inr hin, haccepts⟩
      by_cases hempty : req.url = ""
      · rw [if_pos hempty]
        refine Or.inr ⟨⟨false, none, none⟩, rfl, ⟨fun h => (nomatch h), fun h => ?_⟩,
          fun h => absurd hempty h.2.1⟩
        obtain ⟨token, hin, -⟩ := hquery.mp h
        exact absurd hempty hin.1
      · rw [if_neg hempty]
        cases hurl : localUrl host.toAscii req.url with
        | none => exact Or.inl ⟨rfl, ⟨hdisabled, hempty, hheaders⟩, rfl⟩
        | some url =>
          refine Or.inr ⟨_, rfl, ?_, fun _ => rfl⟩
          have hin : ∀ token, InQuery host req token ↔ url.getParam "token" = some token := by
            intro token
            constructor
            · intro hgiven
              obtain ⟨-, u, hu, htoken⟩ := hgiven
              rw [Option.some.inj (hurl.symm.trans hu), htoken]
            · exact fun h => ⟨hempty, url, hurl, h⟩
          rw [hquery]
          simp only [hin, ← any_eq_true_iff]
          split
          · next h => exact ⟨fun _ => h, fun _ => rfl⟩
          · next h => exact ⟨fun h => (nomatch h), fun h' => absurd h' h⟩

/-! ## The origin -/

theorem originFits_of_allowed
    (h : isAllowedWsOrigin host.toAscii req.origin cfg.allowedWsOrigins = true)
    (hne : req.origin ≠ some "") : OriginFits cfg host req := by
  unfold isAllowedWsOrigin at h
  split at h
  · next hnone => exact Or.inl hnone
  · next origin horigin =>
    split at h
    · next hempty => exact absurd (hempty ▸ horigin) hne
    · split at h
      · exact absurd h Bool.false_ne_true
      · next url hurl =>
        rcases (Bool.or_eq_true _ _).mp h with h | h
        · exact Or.inr ⟨origin, horigin, Or.inl ⟨url, hurl, List.contains_iff_mem.mp h⟩⟩
        · exact Or.inr ⟨origin, horigin, Or.inr (List.contains_iff_mem.mp h)⟩

/-- An empty origin is no URL, and no item of a list at commas. -/
theorem not_originFits_empty (h : req.origin = some "") : ¬OriginFits cfg host req := by
  intro hcases
  rcases hcases with hnone | ⟨origin, horigin, hfits⟩
  · exact nomatch hnone.symm.trans h
  · obtain rfl := Option.some.inj (horigin.symm.trans h)
    rcases hfits with ⟨url, hurl, -⟩ | hmem
    · exact nomatch hurl
    · exact absurd rfl (of_decide_eq_true (List.mem_filter.mp hmem).2)

/-! ## The listener, gate by gate -/

/-- A rejection returns, ends the request once and serves nobody. -/
structure Rejects (u : Upgraded) : Prop where
  returns : u.threw = false
  once : u.endings.length = 1
  unserved : ∀ ending ∈ u.endings, ending.isAccepted = false

theorem rejectUpgrade_rejects (bus : Bus) (url : String) (code : Nat) (reason : String) :
    Rejects (rejectUpgrade host bus url code reason) := by
  refine ⟨rfl, rfl, fun ending hmem => ?_⟩
  rw [List.mem_singleton.mp hmem]
  split <;> rfl

variable {cfg host bus req}

theorem Rejects.totalAndGated (h : Rejects (onUpgrade cfg host bus req)) :
    TotalAndGated cfg host bus req :=
  ⟨h.returns, h.once,
    fun ending hmem haccepted => nomatch (h.unserved ending hmem).symm.trans haccepted⟩

/-- Before the token gate nothing is parsed without a guard. -/
theorem onUpgrade_refused (h : ¬ReachesGate cfg host bus req) :
    Rejects (onUpgrade cfg host bus req) := by
  unfold onUpgrade
  dsimp only
  split
  · exact rejectUpgrade_rejects host _ _ _ _
  · next hadmitted =>
    split
    · exact rejectUpgrade_rejects host _ _ _ _
    · next horigin =>
      split
      · exact rejectUpgrade_rejects host _ _ _ _
      · next hroom =>
        refine absurd ⟨?_, ?_, ?_⟩ h
        · simpa [LimiterAdmits] using hadmitted
        · simpa using horigin
        · exact not_le.mp hroom

/-- The bus after the limiter. -/
def consumedBus (cfg : BusConfig) (host : UpgradeHost) (bus : Bus) (req : UpgradeRequest) : Bus :=
  { bus with
    buckets := (consume cfg.limiter bus.buckets
      (clientKey host.isIP cfg.trustProxy req.xForwardedFor req.remoteAddress) host.now).1 }

theorem onUpgrade_reached (h : ReachesGate cfg host bus req) :
    onUpgrade cfg host bus req =
      match verifyWebSocketUpgrade host.toAscii cfg.gate req with
      | none => ⟨consumedBus cfg host bus req, req.url, [], true⟩
      | some outcome =>
        if !outcome.allowed then
          rejectUpgrade host (consumedBus cfg host bus req) req.url 4401 "unauthorized"
        else
          match scrub host.toAscii req.url with
          | none => ⟨consumedBus cfg host bus req, req.url, [], true⟩
          | some url =>
            connectUpgrade host (consumedBus cfg host bus req) req url outcome.selectedSubprotocol := by
  obtain ⟨hadmitted, horigin, hroom⟩ := h
  unfold onUpgrade
  dsimp only
  rw [if_neg (by simpa [LimiterAdmits] using hadmitted), if_neg (by simpa using horigin),
    if_neg (not_le.mpr hroom)]
  rfl

theorem scrub_isSome :
    (scrub host.toAscii req.url).isSome = true ↔
      (includes "token=" req.url = true → (localUrl host.toAscii req.url).isSome = true) := by
  unfold scrub
  have hempty : includes "token=" "" = false := rfl
  split
  · next h => simp [h.2]
  · next h =>
    refine ⟨fun _ hin => absurd ⟨fun hurl => ?_, hin⟩ h, fun _ => rfl⟩
    rw [hurl, hempty] at hin
    exact nomatch hin

/-- The last step of a request that passed the gates. -/
theorem connectUpgrade_iff (hpasses : req.origin ≠ some "" → PassesGates cfg host bus req)
    (url : String) (selected : Option String)
    (hu : onUpgrade cfg host bus req
      = connectUpgrade host (consumedBus cfg host bus req) req url selected) :
    TotalAndGated cfg host bus req ↔
      (host.completes = true →
        (Url.parseOn host.toAscii url ("http://" ++ req.host.getD "undefined")).isSome = true ∧
          req.origin ≠ some "") := by
  unfold connectUpgrade at hu
  by_cases hcompletes : host.completes = true
  · rw [if_pos hcompletes] at hu
    rw [imp_iff_right hcompletes]
    unfold extractNodeId at hu
    cases hurl : Url.parseOn host.toAscii url ("http://" ++ req.host.getD "undefined") with
    | none =>
      rw [hurl] at hu
      refine ⟨fun h => ?_, fun h => (nomatch h.1)⟩
      have := h.returns
      rw [hu] at this
      exact nomatch this
    | some u =>
      rw [hurl] at hu
      constructor
      · refine fun h => ⟨rfl, fun horigin => ?_⟩
        have hpassed := h.gated _ (by rw [hu]; exact List.mem_singleton_self _) rfl
        exact not_originFits_empty cfg host req horigin hpassed.origin
      · intro hgiven
        obtain ⟨-, horigin⟩ := hgiven
        exact ⟨by rw [hu]; rfl, by rw [hu]; rfl, fun _ _ _ => hpasses horigin⟩
  · rw [if_neg hcompletes] at hu
    refine ⟨fun _ h => absurd h hcompletes, fun _ => Rejects.totalAndGated ?_⟩
    rw [hu]
    exact ⟨rfl, rfl, fun ending hmem => by rw [List.mem_singleton.mp hmem]; rfl⟩

end

/-- An upgrade is total and gated exactly where every URL that is parsed on its way is one,
and it is not served on an empty origin. -/
theorem upgrade_gated_iff (cfg : BusConfig) (host : UpgradeHost) (bus : Bus)
    (req : UpgradeRequest) :
    TotalAndGated cfg host bus req ↔ UpgradeFits cfg host bus req := by
  by_cases hreaches : ReachesGate cfg host bus req
  · have hu := onUpgrade_reached hreaches
    unfold UpgradeFits
    rw [imp_iff_right hreaches]
    rcases verify_cases cfg host req with ⟨hverify, hlooks, hurl⟩ | ⟨outcome, hverify, hallowed, hurl⟩
    · rw [hverify] at hu
      refine ⟨fun h => ?_, fun h => ?_⟩
      · have := h.returns
        rw [hu] at this
        exact nomatch this
      · rw [hurl] at h
        exact nomatch h.1 hlooks
    · rw [hverify] at hu
      dsimp only at hu
      rw [and_iff_right hurl]
      by_cases hfits : TokenFits cfg host req
      · rw [if_neg (by simpa using hallowed.mpr hfits)] at hu
        rw [imp_iff_right hfits, ← scrub_isSome]
        cases hscrub : scrub host.toAscii req.url with
        | none =>
          rw [hscrub] at hu
          refine ⟨fun h => ?_, fun h => (nomatch h.1)⟩
          have := h.returns
          rw [hu] at this
          exact nomatch this
        | some url =>
          rw [hscrub] at hu
          have hpasses : req.origin ≠ some "" → PassesGates cfg host bus req := fun horigin =>
            ⟨hreaches.1, originFits_of_allowed cfg host req hreaches.2.1 horigin, hreaches.2.2, hfits⟩
          rw [connectUpgrade_iff hpasses url _ hu]
          simp
      · rw [if_pos (by simpa using mt hallowed.mp hfits)] at hu
        refine ⟨fun _ h => absurd h hfits, fun _ => Rejects.totalAndGated ?_⟩
        rw [hu]
        exact rejectUpgrade_rejects host _ _ _ _
  · exact ⟨fun _ h => absurd h hreaches, fun _ => (onUpgrade_refused hreaches).totalAndGated⟩

/-! Three requests to a bus without a token: a target that is no URL, a `Host` header that is
none, and an `Origin` header without a value. -/

def sampleBusConfig : BusConfig where
  allowedOriginsVar := ""
  maxClientsVar := ""
  limiter := defaultRateLimiterConfig
  trustProxy := false
  gate := .new (fun _ => 0) none

def sampleUpgradeHost : UpgradeHost where
  toAscii _ := none
  isIP _ := 4
  now := 0
  completes := true
  offered := []

def sampleBus : Bus where
  buckets := .empty
  clients := 0
  context := ⟨[], [], [], none, false, "technical", .new false⟩

def sampleUpgrade (url host : String) (origin : Option String) : UpgradeRequest :=
  ⟨url, some host, origin, none, none, none, some "127.0.0.1"⟩

theorem upgrades_not_gated :
    ¬TotalAndGated sampleBusConfig sampleUpgradeHost sampleBus
        (sampleUpgrade "//" "127.0.0.1:18080" none) ∧
      ¬TotalAndGated sampleBusConfig sampleUpgradeHost sampleBus (sampleUpgrade "/" "a b" none) ∧
      ¬TotalAndGated sampleBusConfig sampleUpgradeHost sampleBus
        (sampleUpgrade "/" "127.0.0.1:18080" (some "")) := by
  refine ⟨fun h => ?_, fun h => ?_, fun h => ?_⟩
  · exact absurd h.returns (by decide +kernel)
  · exact absurd h.returns (by decide +kernel)
  · have hserved : ((onUpgrade sampleBusConfig sampleUpgradeHost sampleBus
        (sampleUpgrade "/" "127.0.0.1:18080" (some ""))).endings.any Ending.isAccepted) = true := by
      decide +kernel
    obtain ⟨ending, hmem, haccepted⟩ := List.any_eq_true.mp hserved
    exact not_originFits_empty _ _ _ rfl (h.gated ending hmem haccepted).origin

end Kovael.Http
