import Kovael.Http.Support

/-!
# What `readJsonBody` promises

Its doc says that it returns `null` where the response was already sent, and its type
that anything else is a `JsonBody`. Every end of a reading but one keeps this: what
`JSON.parse` returns is passed on unchecked, so a body that is the JSON of `null` ends as
if it had been answered, and one of a number, a string or a list is no `JsonBody`
(`answers_once_iff`).
-/

namespace Kovael.Http

open Js
open Js.Base64 (Bytes)

variable {number : String → String} {maxBytes : Nat}

/-- The bytes of an event. -/
def BodyEvent.size : BodyEvent → Nat
  | .data chunk => chunk.length
  | _ => 0

/-- An event that ends the reading occurs: an end, an error, the timer, or a chunk that is too
much. -/
def Terminates (maxBytes : Nat) (events : List BodyEvent) : Prop :=
  (∃ event ∈ events, event.terminates = true) ∨ maxBytes < (events.map BodyEvent.size).sum

/-- The promise resolves once, to `null` where an error response was written and to an object
within the limit where none was. -/
structure AnswersOnce (number : String → String) (maxBytes : Nat) (events : List BodyEvent) :
    Prop where
  once : Terminates maxBytes events → (readJsonBody number maxBytes events).resolved.length = 1
  atMostOnce : (readJsonBody number maxBytes events).resolved.length ≤ 1
  null_iff : (readJsonBody number maxBytes events).resolved = [none] ↔
    ∃ response, (readJsonBody number maxBytes events).responses = [response] ∧
      400 ≤ response.status
  body : ∀ value, (readJsonBody number maxBytes events).resolved = [some value] →
    (readJsonBody number maxBytes events).responses = [] ∧
      (readJsonBody number maxBytes events).received ≤ maxBytes ∧
      ∃ fields, value = .object fields

/-! ## Readings -/

/-- What every event keeps: responses are errors, and a body is within the limit. -/
structure Reading.Bounded (maxBytes : Nat) (r : Reading) : Prop where
  errors : ∀ response ∈ r.responses, 400 ≤ response.status
  open_ : r.done = false → r.received ≤ maxBytes ∧ r.resolved = []
  body : ∀ value, r.resolved = [some value] → r.received ≤ maxBytes

theorem bounded_init : Reading.init.Bounded maxBytes where
  errors := fun _ h => absurd h List.not_mem_nil
  open_ := fun _ => ⟨Nat.zero_le _, rfl⟩
  body := by
    intro value h
    cases h

/-- A failure is an error response, and no body. -/
theorem Reading.Bounded.fail {r r' : Reading} (h : r.Bounded maxBytes) (hopen : r.done = false)
    (hresponses : r'.responses = r.responses) (hresolved : r'.resolved = r.resolved) {status : Nat}
    (hstatus : 400 ≤ status) (body : Json) : (r'.fail status body).Bounded maxBytes where
  errors := by
    intro response hmem
    rw [Reading.fail, hresponses] at hmem
    rcases List.mem_append.mp hmem with hmem | hmem
    · exact h.errors response hmem
    · rw [List.mem_singleton.mp hmem]
      exact hstatus
  open_ := by
    intro hdone
    cases hdone
  body := by
    intro value hvalue
    rw [Reading.fail, hresolved, (h.open_ hopen).2] at hvalue
    cases hvalue

theorem Reading.Bounded.resolve {r : Reading} (h : r.Bounded maxBytes) (hopen : r.done = false)
    (value : Json) : (r.resolve value).Bounded maxBytes where
  errors := h.errors
  open_ := by
    intro hdone
    cases hdone
  body := fun _ _ => (h.open_ hopen).1

theorem bounded_step {r : Reading} (h : r.Bounded maxBytes) (event : BodyEvent) :
    (onBodyEvent number maxBytes r event).Bounded maxBytes := by
  unfold onBodyEvent
  cases hdone : r.done with
  | true => exact h
  | false =>
    rw [if_neg Bool.false_ne_true]
    cases event with
    | timedOut => exact h.fail hdone rfl rfl (by decide : 400 ≤ 408) _
    | failed => exact h.fail hdone rfl rfl (by decide : 400 ≤ 400) _
    | data chunk =>
      dsimp only
      split
      next =>
        refine h.fail hdone ?_ ?_ (by decide : 400 ≤ 413) _
        · rfl
        · rfl
      next hmax =>
        refine ⟨h.errors, fun _ => ⟨Nat.le_of_not_lt hmax, (h.open_ hdone).2⟩, ?_⟩
        intro value _
        exact Nat.le_of_not_lt hmax
    | ended =>
      dsimp only
      split
      next => exact h.resolve hdone _
      next =>
        split
        next => exact h.resolve hdone _
        next => exact h.fail hdone rfl rfl (by decide : 400 ≤ 400) _

theorem bounded_reading (events : List BodyEvent) :
    (readJsonBody number maxBytes events).Bounded maxBytes := by
  have hfold : ∀ (events : List BodyEvent) {r : Reading}, r.Bounded maxBytes →
      (events.foldl (onBodyEvent number maxBytes) r).Bounded maxBytes := by
    intro events
    induction events with
    | nil =>
      intro r h
      exact h
    | cons event events ih =>
      intro r h
      exact ih (bounded_step h event)
  exact hfold events bounded_init

/-- Without an event that ends it, a reading goes on until it is too much. -/
theorem foldl_chunks (events : List BodyEvent)
    (hevents : ¬ ∃ event ∈ events, event.terminates = true) :
    ∀ {bytes : Bytes}, bytes.length ≤ maxBytes →
      if maxBytes < bytes.length + (events.map BodyEvent.size).sum then
        (events.foldl (onBodyEvent number maxBytes) (.reading bytes)).IsAnswered
      else ∃ bytes', events.foldl (onBodyEvent number maxBytes) (.reading bytes) = .reading bytes' := by
  induction events with
  | nil =>
    intro bytes hbytes
    rw [if_neg (by simpa using hbytes)]
    exact ⟨bytes, rfl⟩
  | cons event events ih =>
    intro bytes hbytes
    have hrest : ¬ ∃ event ∈ events, event.terminates = true := by
      intro hgiven
      obtain ⟨e, he, hterminates⟩ := hgiven
      exact hevents ⟨e, List.mem_cons_of_mem _ he, hterminates⟩
    cases event with
    | data chunk =>
      rw [List.foldl_cons, onBodyEvent_data, List.map_cons, List.sum_cons, ← Nat.add_assoc]
      show if maxBytes < bytes.length + chunk.length + _ then _ else _
      rw [← List.length_append]
      by_cases hmax : maxBytes < (bytes ++ chunk).length
      · rw [if_pos hmax, if_pos (Nat.lt_of_lt_of_le hmax (Nat.le_add_right ..)), foldl_done rfl]
        exact ⟨_, rfl, rfl⟩
      · rw [if_neg hmax]
        exact ih hrest (Nat.le_of_not_lt hmax)
    | ended => exact absurd ⟨_, List.mem_cons_self .., rfl⟩ hevents
    | failed => exact absurd ⟨_, List.mem_cons_self .., rfl⟩ hevents
    | timedOut => exact absurd ⟨_, List.mem_cons_self .., rfl⟩ hevents

/-- A reading ends as `Reads` says, or it goes on. -/
theorem readJsonBody_cases (number : String → String) (maxBytes : Nat) (events : List BodyEvent) :
    (readJsonBody number maxBytes events).Reads (Carries number maxBytes events) ∨
      ¬ Terminates maxBytes events ∧
        ∃ bytes, readJsonBody number maxBytes events = .reading bytes := by
  by_cases hends : ∃ event ∈ events, event.terminates = true
  · exact Or.inl (readJsonBody_reads hends)
  · have hchunks := @foldl_chunks number maxBytes events hends [] (Nat.zero_le _)
    rw [List.length_nil, Nat.zero_add] at hchunks
    split at hchunks
    next hmax =>
      refine Or.inl (Or.inr (Or.inl ⟨hchunks, ?_⟩))
      intro v hgiven
      obtain ⟨chunks, rest, hevents, -⟩ := hgiven
      refine hends ⟨.ended, ?_, rfl⟩
      rw [hevents]
      exact List.mem_append_right _ (List.mem_cons_self ..)
    next hmax =>
      refine Or.inr ⟨?_, hchunks⟩
      intro hcases
      rcases hcases with h | h
      · exact hends h
      · exact hmax h

/-! ## The promise -/

/-- The promise is kept exactly if the body, where it comes to its end as JSON, is an
object. -/
theorem answers_once_iff (number : String → String) (maxBytes : Nat) (events : List BodyEvent) :
    AnswersOnce number maxBytes events ↔
      ∀ value, Carries number maxBytes events value → ∃ fields, value = .object fields := by
  have hbounded := @bounded_reading number maxBytes events
  constructor
  · intro h value hcarries
    rcases readJsonBody_cases number maxBytes events with hreads | ⟨hgoes, -⟩
    · rcases hreads with ⟨v, ⟨-, hresolved, -⟩, hvalues⟩ | ⟨-, hnone⟩ | ⟨⟨hresolved, hnothing⟩, -⟩
      · rw [(hvalues value).mp hcarries]
        exact (h.body v hresolved).2.2
      · exact absurd hcarries (hnone value)
      · obtain ⟨response, hresponse, -⟩ := h.null_iff.mp hresolved
        rw [hnothing] at hresponse
        cases hresponse
    · obtain ⟨chunks, rest, hevents, -⟩ := hcarries
      refine absurd (Or.inl ⟨.ended, ?_, rfl⟩) hgoes
      rw [hevents]
      exact List.mem_append_right _ (List.mem_cons_self ..)
  · intro hobject
    rcases readJsonBody_cases number maxBytes events with hreads | ⟨hgoes, bytes, hreading⟩
    · rcases hreads with ⟨v, ⟨hnull, hresolved, hnothing⟩, hvalues⟩ |
        ⟨⟨response, hresolved, hresponses⟩, -⟩ |
        ⟨-, hvalues⟩
      · refine ⟨fun _ => by rw [hresolved]; rfl, by rw [hresolved]; exact Nat.le_refl 1, ?_, ?_⟩
        · rw [hresolved, hnothing]
          constructor
          · intro h
            cases h
          · intro hgiven
            obtain ⟨response, h, -⟩ := hgiven
            cases h
        · intro value hvalue
          obtain rfl : v = value := by
            rw [hresolved] at hvalue
            exact Option.some.inj (List.cons.inj hvalue).1
          exact ⟨hnothing, hbounded.body v hvalue, hobject v ((hvalues v).mpr rfl)⟩
      · refine ⟨fun _ => by rw [hresolved]; rfl, by rw [hresolved]; exact Nat.le_refl 1, ?_, ?_⟩
        · refine iff_of_true hresolved ⟨response, hresponses, ?_⟩
          exact hbounded.errors response (by rw [hresponses]; exact List.mem_singleton.mpr rfl)
        · intro value hvalue
          rw [hresolved] at hvalue
          cases hvalue
      · obtain ⟨fields, hfields⟩ := hobject .null ((hvalues _).mpr rfl)
        cases hfields
    · refine ⟨fun h => absurd h hgoes, ?_, ?_, ?_⟩
      · rw [hreading]
        exact Nat.zero_le _
      · rw [hreading]
        constructor
        · intro h
          cases h
        · intro hgiven
          obtain ⟨response, h, -⟩ := hgiven
          cases h
      · intro value hvalue
        rw [hreading] at hvalue
        cases hvalue

/-- The body `null` resolves to `null`, and nothing is written. -/
theorem null_body_unanswered :
    ¬ AnswersOnce id (16 * 1024) [.data (Utf8.encode "null"), .ended] := by
  intro h
  have hresolved : (readJsonBody id (16 * 1024) [.data (Utf8.encode "null"), .ended]).resolved
      = [none] := rfl
  obtain ⟨response, hresponse, -⟩ := h.null_iff.mp hresolved
  have hnothing : (readJsonBody id (16 * 1024) [.data (Utf8.encode "null"), .ended]).responses.length
      = 0 := rfl
  rw [hresponse] at hnothing
  cases hnothing

end Kovael.Http
