import Kovael.Http.Gating
import Kovael.Js.UrlPath

/-!
# The token in the URL of an upgrade

The gate reads the token from the parsed query, and the listener takes it out of `req.url` if
the text of that has `token=`. So a name that is spelled another way, or a parameter without a
value, is seen by the gate and stays in the URL; and where the URL is written anew its path can
become another. `token_scrubbed_iff` says when neither happens.
-/

namespace Kovael.Http

open Js

/-- What later listeners see is the URL without the token: the path and the other parameters
are the same. -/
def Scrubbed (toAscii : String → Option String) (url : Url) (seen : String) : Prop :=
  ∃ seenUrl, localUrl toAscii seen = some seenUrl ∧
    (∀ p ∈ seenUrl.searchParams, p.1 ≠ "token") ∧ seenUrl.pathname = url.pathname ∧
      seenUrl.searchParams = url.searchParams.filter fun p => p.1 ≠ "token"

/-! ## The search that is written -/

/-- A character of a text of parameters stays in a query as it is. -/
theorem kept_in_query {c : Char} (h : Url.isFormChar c = true ∨ c = '=' ∨ c = '&') :
    0x20 < c.toNat ∧ Url.inSpecialQuerySet c = false ∧ c ≠ '#' := by
  have hmarks : ("*-._%+=&".toList.all fun c =>
      decide (0x20 < c.toNat ∧ Url.inSpecialQuerySet c = false ∧ c ≠ '#')) = true := rfl
  have hmark : ∀ c ∈ "*-._%+=&".toList,
      0x20 < c.toNat ∧ Url.inSpecialQuerySet c = false ∧ c ≠ '#' :=
    fun c hc => of_decide_eq_true (List.all_eq_true.mp hmarks c hc)
  rcases h with hform | rfl | rfl
  · rw [Url.isFormChar, Bool.or_eq_true, List.contains_iff_mem] at hform
    rcases hform with halnum | hmem
    · have hrange := isAlphanum_range halnum
      have hquoted : ("\x20\"#<>'".toList.all fun c => !c.isAlphanum) = true := rfl
      have hnot : ∀ d ∈ "\x20\"#<>'".toList, c ≠ d := by
        intro d hd heq
        obtain rfl := heq
        have hd := List.all_eq_true.mp hquoted c hd
        rw [halnum] at hd
        cases hd
      have hnotQuoted : " \"#<>".toList.contains c = false := by
        rw [← Bool.not_eq_true, List.contains_iff_mem]
        exact fun hmem => hnot c (List.mem_append_left ['\''] hmem) rfl
      refine ⟨by omega, ?_, hnot '#' (by decide)⟩
      rw [Url.inSpecialQuerySet, Url.inQuerySet, Url.isC0Control, hnotQuoted,
        decide_eq_false (hnot '\'' (by decide)), decide_eq_false (by omega),
        decide_eq_false (by omega)]
      rfl
    · exact hmark c (List.mem_append_left ['=', '&'] hmem)
  · exact hmark '=' (by decide)
  · exact hmark '&' (by decide)

/-- The search of a URL whose parameters were changed. -/
theorem isSearch_deleteParam (url : Url) (name : String) :
    Url.IsSearch (url.deleteParam name).search.toList (url.deleteParam name).query := by
  rw [Url.deleteParam, Url.search]
  dsimp only
  generalize url.searchParams.filter (fun p => p.1 ≠ name) = params
  have hkept : ∀ c ∈ (Url.formText params).toList,
      0x20 < c.toNat ∧ Url.inSpecialQuerySet c = false ∧ c ≠ '#' :=
    fun c hc => kept_in_query (Url.mem_formText hc)
  by_cases hempty : Url.formText params = ""
  · rw [if_pos hempty]
    exact ⟨rfl, Or.inl rfl, fun c hc => absurd hc List.not_mem_nil⟩
  · rw [if_neg hempty]
    dsimp only
    rw [if_neg hempty, String.toList_append]
    show Url.IsSearch ('?' :: (Url.formText params).toList) _
    refine ⟨?_, Or.inr ⟨_, rfl⟩, ?_⟩
    · have htake : (Url.formText params).toList.takeWhile (· ≠ '#') =
          (Url.formText params).toList :=
        List.takeWhile_eq_self_iff.mpr fun c hc => decide_eq_true (hkept c hc).2.2
      have hself : Url.percentEncode Url.inSpecialQuerySet (Url.formText params).toList =
          (Url.formText params).toList :=
        Url.percentEncode_self fun c hc => (hkept c hc).2.1
      rw [Url.queryOf, if_pos rfl, htake, hself, String.ofList_toList]
    · rw [List.forall_mem_cons]
      exact ⟨by decide, fun c hc => (hkept c hc).1⟩

/-- Its parameters are those that are left. -/
theorem searchParams_deleteParam {url seenUrl : Url} {name : String}
    (h : seenUrl.query = (url.deleteParam name).query) :
    seenUrl.searchParams = url.searchParams.filter fun p => p.1 ≠ name := by
  rw [Url.searchParams, h, Url.deleteParam]
  dsimp only
  split
  next hempty =>
    rw [(Url.formText_eq_empty_iff _).mp hempty]
    rfl
  next => exact Url.parseForm_formText _

theorem localUrl_eq (toAscii : String → Option String) (rawUrl : String) :
    localUrl toAscii rawUrl = Url.parseOn toAscii rawUrl ("http://" ++ "localhost") := by
  have hbase : "http://localhost" = "http://" ++ "localhost" := by decide
  rw [localUrl, hbase]

/-! ## Accepted upgrades -/

/-- An upgrade that is accepted is so with the URL that the scrub leaves. -/
theorem scrub_of_accepted {cfg : BusConfig} {host : UpgradeHost} {bus : Bus}
    {req : UpgradeRequest} {ending : Ending}
    (hending : ending ∈ (onUpgrade cfg host bus req).endings)
    (haccepted : ending.isAccepted = true) :
    scrub host.toAscii req.url = some (onUpgrade cfg host bus req).url := by
  have hrejects : ¬ Rejects (onUpgrade cfg host bus req) := fun h =>
    absurd ((h.unserved ending hending).symm.trans haccepted) (by decide)
  have hreached : ReachesGate cfg host bus req := by
    by_contra h
    exact hrejects (onUpgrade_refused h)
  have hu := onUpgrade_reached hreached
  cases hverify : verifyWebSocketUpgrade host.toAscii cfg.gate req with
  | none =>
    rw [hverify] at hu
    rw [hu] at hending
    exact absurd hending List.not_mem_nil
  | some outcome =>
    rw [hverify] at hu
    dsimp only at hu
    split at hu
    next =>
      rw [hu] at hrejects
      exact absurd (rejectUpgrade_rejects host _ _ _ _) hrejects
    next =>
      cases hscrub : scrub host.toAscii req.url with
      | none =>
        rw [hscrub] at hu
        rw [hu] at hending
        exact absurd hending List.not_mem_nil
      | some url =>
        rw [hscrub] at hu
        dsimp only at hu
        rw [hu, connectUpgrade]
        split
        next =>
          split
          next => rfl
          next => rfl
        next => rfl

/-- For every request that is accepted with a parameter `token` in its URL: the token is
scrubbed, and nothing else is changed, just if the text of the URL has `token=` and its path is
plain. -/
theorem token_scrubbed_iff {cfg : BusConfig} {host : UpgradeHost} {bus : Bus}
    {req : UpgradeRequest} {ending : Ending} {url : Url}
    (hending : ending ∈ (onUpgrade cfg host bus req).endings) (haccepted : ending.isAccepted = true)
    (hurl : localUrl host.toAscii req.url = some url)
    (htoken : ∃ p ∈ url.searchParams, p.1 = "token") :
    Scrubbed host.toAscii url (onUpgrade cfg host bus req).url ↔
      includes "token=" req.url = true ∧ Url.IsPlainPath url.pathname := by
  have hscrub := scrub_of_accepted hending haccepted
  have hany : (url.searchParams.any fun p => decide (p.1 = "token")) = true := by
    obtain ⟨p, hp, hname⟩ := htoken
    exact List.any_eq_true.mpr ⟨p, hp, decide_eq_true hname⟩
  by_cases hincludes : includes "token=" req.url = true
  · rw [and_iff_right hincludes]
    have hne : req.url ≠ "" := by
      intro hempty
      rw [hempty] at hincludes
      cases hincludes
    rw [scrub, if_pos ⟨hne, hincludes⟩, hurl, Option.map_some, if_pos hany,
      Option.some.injEq] at hscrub
    rw [localUrl_eq] at hurl
    have hbase : (Url.parse host.toAscii ("http://" ++ "localhost")).isSome = true := by
      obtain ⟨base, hbase, -⟩ := Option.bind_eq_some_iff.mp hurl
      exact Option.isSome_iff_exists.mpr ⟨base, hbase⟩
    have hurlParsed := Url.parsed_parseOn hurl
    have hsearch := isSearch_deleteParam url "token"
    have hseen : (onUpgrade cfg host bus req).url =
        String.ofList (url.pathname.toList ++ (url.deleteParam "token").search.toList) := by
      rw [← hscrub, String.ofList_append, String.ofList_toList, String.ofList_toList]
      rfl
    rw [hseen, Scrubbed, localUrl_eq]
    constructor
    · intro hgiven
      obtain ⟨seenUrl, hparsed, -, hpath, -⟩ := hgiven
      exact Url.plain_of_reparsed hurlParsed hsearch hparsed hpath
    · intro hplain
      obtain ⟨seenUrl, hparsed, hpath, hquery⟩ :=
        Url.reparsed_of_plain hurlParsed hsearch hbase hplain
      have hparams := searchParams_deleteParam hquery
      refine ⟨seenUrl, hparsed, ?_, hpath, hparams⟩
      rw [hparams]
      exact fun p hp => of_decide_eq_true (List.mem_filter.mp hp).2
  · -- the URL is left as it is, with the token
    rw [scrub, if_neg fun h => hincludes h.2, Option.some.injEq] at hscrub
    refine iff_of_false ?_ fun h => hincludes h.1
    intro hgiven
    obtain ⟨seenUrl, hseen, hnone, -, -⟩ := hgiven
    rw [← hscrub, hurl] at hseen
    obtain rfl := Option.some.inj hseen
    obtain ⟨p, hp, hname⟩ := htoken
    exact hnone p hp hname

/-- A bus with a token. -/
def tokenBusConfig : BusConfig :=
  { sampleBusConfig with
    gate := .new (fun token => if token = "s3cret" then 1 else 0) (some "s3cret") }

/-- A token between other parameters is scrubbed. -/
theorem plain_token_scrubbed : ∃ url,
    localUrl sampleUpgradeHost.toAscii "/a?x=1&token=s3cret&y=%20" = some url ∧
      Scrubbed sampleUpgradeHost.toAscii url (onUpgrade tokenBusConfig sampleUpgradeHost sampleBus
        (sampleUpgrade "/a?x=1&token=s3cret&y=%20" "127.0.0.1:18080" none)).url := by
  have hserved : ((onUpgrade tokenBusConfig sampleUpgradeHost sampleBus
      (sampleUpgrade "/a?x=1&token=s3cret&y=%20" "127.0.0.1:18080" none)).endings.any
        Ending.isAccepted) = true := by
    decide +kernel
  have hurl : localUrl sampleUpgradeHost.toAscii "/a?x=1&token=s3cret&y=%20" =
      some ⟨"http", some "localhost", .segments ["a"], some "x=1&token=s3cret&y=%20"⟩ := by
    decide +kernel
  obtain ⟨ending, hmem, haccepted⟩ := List.any_eq_true.mp hserved
  refine ⟨_, hurl, (token_scrubbed_iff hmem haccepted hurl ?_).mpr ⟨by decide +kernel, ?_⟩⟩
  · exact ⟨("token", "s3cret"), by decide +kernel, rfl⟩
  · exact ⟨['a'], by decide +kernel, by decide, by decide⟩

/-- `%74oken` is `token` to the gate, and stays in the URL. -/
theorem encoded_name_not_scrubbed :
    verifyWebSocketUpgrade sampleUpgradeHost.toAscii tokenBusConfig.gate
      (sampleUpgrade "/?%74oken=s3cret" "127.0.0.1:18080" none) = some ⟨true, some .query, none⟩ ∧
    ¬ ∀ (cfg : BusConfig) (host : UpgradeHost) (bus : Bus) (req : UpgradeRequest) (ending : Ending)
      (url : Url), ending ∈ (onUpgrade cfg host bus req).endings → ending.isAccepted = true →
        localUrl host.toAscii req.url = some url → (∃ p ∈ url.searchParams, p.1 = "token") →
          Scrubbed host.toAscii url (onUpgrade cfg host bus req).url := by
  refine ⟨by decide +kernel, ?_⟩
  intro h
  have hserved : ((onUpgrade tokenBusConfig sampleUpgradeHost sampleBus
      (sampleUpgrade "/?%74oken=s3cret" "127.0.0.1:18080" none)).endings.any
        Ending.isAccepted) = true := by
    decide +kernel
  have hseen : (onUpgrade tokenBusConfig sampleUpgradeHost sampleBus
      (sampleUpgrade "/?%74oken=s3cret" "127.0.0.1:18080" none)).url = "/?%74oken=s3cret" := by
    decide +kernel
  have hurl : localUrl sampleUpgradeHost.toAscii "/?%74oken=s3cret" =
      some ⟨"http", some "localhost", .segments [""], some "%74oken=s3cret"⟩ := by
    decide +kernel
  have hparam : ("token", "s3cret") ∈
      (⟨"http", some "localhost", .segments [""], some "%74oken=s3cret"⟩ : Url).searchParams := by
    decide +kernel
  obtain ⟨ending, hmem, haccepted⟩ := List.any_eq_true.mp hserved
  obtain ⟨seenUrl, hparsed, hnone, -, -⟩ := h _ _ _ _ ending _ hmem haccepted hurl ⟨_, hparam, rfl⟩
  rw [hseen, hurl] at hparsed
  obtain rfl := Option.some.inj hparsed
  exact hnone _ hparam rfl

end Kovael.Http
