import Alos.Py

/-! # The correlation id of a request

`CorrelationIdMiddleware` and `current_correlation_id` of
`alos.observability.correlation`, with `_safe_correlation_id` of
`alos.security.errors`, which answers what the middleware lets escape.

The application behind the middleware is any that calls `current_correlation_id`
as often as it likes, starts its response once, and may raise before or after.

* `App.run_named`: as long as the id is not empty every call returns it;
* `App.run_unnamed`: an empty id is taken for a missing one, and every call
  makes up its own;
* `agree_iff_coherent`: the ids of a request agree just when the id is not
  empty, and no exception escapes whose answer has another id or none.
-/

namespace Alos.Observability

open Py

/-! ## Headers -/

abbrev Bytes := List UInt8

abbrev Headers := List (Bytes × Bytes)

/-- `s.encode("ascii")` of an ASCII text. -/
def ascii (s : String) : Bytes := s.toList.map fun c => c.toNat.toUInt8

/-- `b.decode("ascii", errors="ignore")`. -/
def decodeIgnore (b : Bytes) : String :=
  String.ofList ((b.filter (· < 128)).map fun x => Char.ofNat x.toNat)

/-- `b.decode("latin-1")`. -/
def latin1 (b : Bytes) : String := String.ofList (b.map fun x => Char.ofNat x.toNat)

/-- `b.lower()`. -/
def lower (b : Bytes) : Bytes := b.map fun x => if 65 ≤ x ∧ x ≤ 90 then x + 32 else x

def headerName : Bytes := ascii "x-correlation-id"

/-- `{key.lower(): value for key, value in headers}.get(b"x-correlation-id")`: the
last of several headers counts. -/
def rawHeader (headers : Headers) : Option Bytes :=
  (headers.reverse.find? fun header => lower header.1 = headerName).map Prod.snd

/-! ## The middleware -/

/-- `uuid4()`, by its `hex`. -/
structure Uuid where
  hex : String
  hex_digits : ∀ c ∈ hex.toList, c ∈ "0123456789abcdef".toList

/-- `f"corr_{uuid4().hex}"`. -/
def mint (uuid : Uuid) : String := "corr_" ++ uuid.hex

/-- The id that the middleware gives a request. -/
def correlationId (headers : Headers) (uuid : Uuid) : String :=
  match rawHeader headers with
  | some raw => if raw = [] then mint uuid else decodeIgnore raw
  | none => mint uuid

/-- `correlation_id_context.get() or f"corr_{uuid4().hex}"`. -/
def currentCorrelationId (context : Option String) (uuid : Uuid) : String :=
  match context with
  | some id => if id = "" then mint uuid else id
  | none => mint uuid

/-- What the application does once its response has started. `call` is a call of
`current_correlation_id`. -/
inductive Body where
  | call (k : String → Body)
  | returned
  | raised

/-- What the application does with a request. -/
inductive App where
  | call (k : String → App)
  | start (headers : Headers) (body : Body)
  | raised

/-- How the application ends: with its response started, or not, and with an
exception, or not. -/
inductive Ending where
  | completed (headers : Headers)
  | broken (headers : Headers)
  | failed

/-- A run of the application, with what the calls have returned. -/
structure Ran where
  calls : List String
  ending : Ending

/-- `send_with_header`. -/
def sendWithHeader (id : String) (headers : Headers) : Headers := headers ++ [(headerName, ascii id)]

/-- The calls of the body, and whether it raises; the `n`-th call may draw
`uuids n`. -/
def Body.run (context : Option String) (uuids : ℕ → Uuid) : Body → ℕ → List String × Bool
  | .call k, n =>
      let id := currentCorrelationId context (uuids n)
      let ran := (k id).run context uuids (n + 1)
      (id :: ran.1, ran.2)
  | .returned, _ => ([], false)
  | .raised, _ => ([], true)

def App.run (context : Option String) (uuids : ℕ → Uuid) (send : Headers → Headers) :
    App → ℕ → Ran
  | .call k, n =>
      let id := currentCorrelationId context (uuids n)
      let ran := (k id).run context uuids send (n + 1)
      { ran with calls := id :: ran.calls }
  | .start headers body, n =>
      let ran := body.run context uuids n
      ⟨ran.1, if ran.2 then .broken (send headers) else .completed (send headers)⟩
  | .raised, _ => ⟨[], .failed⟩

/-- What a request may draw: for the middleware, for each call, and for the
handler of escaped exceptions. -/
structure Draws where
  entry : Uuid
  call : ℕ → Uuid
  handler : Uuid

/-- `CorrelationIdMiddleware.__call__`. -/
def middleware (headers : Headers) (draws : Draws) (app : App) : Ran :=
  let id := correlationId headers draws.entry
  app.run (some id) draws.call (sendWithHeader id) 0

/-! ## Exceptions that escape -/

/-- `[A-Za-z0-9._:\-]`. -/
def isSafe (c : Char) : Bool := c.isAlphanum || c == '.' || c == '_' || c == ':' || c == '-'

/-- The header as `_safe_correlation_id` reflects it; here the first of several
headers counts. -/
def reflected (headers : Headers) : Option String :=
  ((headers.find? fun header => header.1 = headerName).map fun header => strip (latin1 header.2)).filter
    fun candidate => 1 ≤ candidate.length ∧ candidate.length ≤ 128 ∧ candidate.toList.all isSafe

/-- `_safe_correlation_id`, where the context is unwound. -/
def safeCorrelationId (headers : Headers) (uuid : Uuid) : String :=
  match reflected headers with
  | some candidate => candidate
  | none => currentCorrelationId none uuid

/-- What its calls of `current_correlation_id` return. -/
def handlerCalls (headers : Headers) (uuid : Uuid) : List String :=
  match reflected headers with
  | some _ => []
  | none => [currentCorrelationId none uuid]

/-- The headers of the JSON response of `handle_unexpected_error`; `size` is the
length of its body, by the id that it tells. -/
def problemHeaders (size : String → Bytes) (id : String) : Headers :=
  [(ascii "content-length", size id), (ascii "content-type", ascii "application/json")]

/-- What is seen of a request: what the calls have returned, and the headers of
the response. -/
structure Handled where
  calls : List String
  response : Headers

/-- The handler is called with every exception that escapes the middleware, and
answers the request if nobody has yet. -/
def handle (size : String → Bytes) (headers : Headers) (draws : Draws) (app : App) : Handled :=
  let ran := middleware headers draws app
  match ran.ending with
  | .completed response => ⟨ran.calls, response⟩
  | .broken response => ⟨ran.calls ++ handlerCalls headers draws.handler, response⟩
  | .failed => ⟨ran.calls ++ handlerCalls headers draws.handler,
      problemHeaders size (safeCorrelationId headers draws.handler)⟩

/-- All calls have returned one value, and it is the header of the response. -/
def Agree (handled : Handled) : Prop :=
  ∃ id, (∀ call ∈ handled.calls, call = id) ∧ rawHeader handled.response = some (ascii id)

/-! ## What the calls return -/

/-- The body raises when every call returns `id`. -/
def Body.raises (id : String) : Body → Bool
  | .call k => (k id).raises id
  | .returned => false
  | .raised => true

/-- How the application ends when every call returns `id`. -/
def App.fate (id : String) : App → Ending
  | .call k => (k id).fate id
  | .start headers body =>
      if body.raises id then .broken (sendWithHeader id headers)
      else .completed (sendWithHeader id headers)
  | .raised => .failed

/-- The body makes no call. -/
def Body.Silent : Body → Prop
  | .call _ => False
  | _ => True

/-- The application makes no call. -/
def App.Silent : App → Prop
  | .call _ => False
  | .start _ body => body.Silent
  | .raised => True

theorem currentCorrelationId_named {id : String} (h : id ≠ "") (uuid : Uuid) :
    currentCorrelationId (some id) uuid = id := if_neg h

theorem mint_ne_empty (uuid : Uuid) : mint uuid ≠ "" := by
  simp [mint]

variable {id : String} {uuids : ℕ → Uuid}

theorem Body.run_named (h : id ≠ "") (body : Body) (n : ℕ) :
    (∀ call ∈ (body.run (some id) uuids n).1, call = id) ∧
      (body.run (some id) uuids n).2 = body.raises id := by
  induction body generalizing n with
  | call k ih =>
      have hrest := ih id (n + 1)
      simp only [Body.run, currentCorrelationId_named h, Body.raises]
      exact ⟨by simpa using hrest.1, hrest.2⟩
  | returned => simp [Body.run, Body.raises]
  | raised => simp [Body.run, Body.raises]

/-- Every call returns an id that is not empty. -/
theorem App.run_named (h : id ≠ "") (app : App) (n : ℕ) :
    (∀ call ∈ (app.run (some id) uuids (sendWithHeader id) n).calls, call = id) ∧
      (app.run (some id) uuids (sendWithHeader id) n).ending = app.fate id := by
  induction app generalizing n with
  | call k ih =>
      have hrest := ih id (n + 1)
      simp only [App.run, currentCorrelationId_named h, App.fate]
      exact ⟨by simpa using hrest.1, hrest.2⟩
  | start headers body =>
      have hbody : (∀ call ∈ (body.run (some id) uuids n).1, call = id) ∧
          (body.run (some id) uuids n).2 = body.raises id := body.run_named h n
      simp only [App.run, App.fate, hbody.2]
      exact ⟨hbody.1, trivial⟩
  | raised => simp [App.run, App.fate]

theorem Body.run_silent {body : Body} (h : body.Silent) (n : ℕ) :
    body.run (some id) uuids n = ([], body.raises id) := by
  cases body with
  | call k => exact h.elim
  | returned => rfl
  | raised => rfl

/-- An application that makes no call ends as it does whatever the id. -/
theorem App.run_silent {app : App} (h : app.Silent) (n : ℕ) :
    app.run (some id) uuids (sendWithHeader id) n = ⟨[], app.fate id⟩ := by
  cases app with
  | call k => exact h.elim
  | start headers body => simp only [App.run, App.fate, Body.run_silent h]
  | raised => rfl

/-- When the id is empty the calls return something else. -/
theorem App.run_unnamed {app : App} (h : ¬ app.Silent) (n : ℕ) (send : Headers → Headers) :
    ∃ call ∈ (app.run (some "") uuids send n).calls, call ≠ "" := by
  cases app with
  | call k => exact ⟨mint (uuids n), List.mem_cons_self, mint_ne_empty _⟩
  | start headers body =>
      cases body with
      | call k => exact ⟨mint (uuids n), List.mem_cons_self, mint_ne_empty _⟩
      | returned => exact absurd trivial h
      | raised => exact absurd trivial h
  | raised => exact absurd trivial h

/-! ## The header of the response -/

theorem rawHeader_sendWithHeader (id : String) (headers : Headers) :
    rawHeader (sendWithHeader id headers) = some (ascii id) := by
  have hname : lower headerName = headerName := by decide
  simp [rawHeader, sendWithHeader, hname]

theorem rawHeader_problemHeaders (size : String → Bytes) (id : String) :
    rawHeader (problemHeaders size id) = none := by
  have htype : lower (ascii "content-type") ≠ headerName := by decide
  have hlength : lower (ascii "content-length") ≠ headerName := by decide
  simp [rawHeader, problemHeaders, htype, hlength]

/-! ## The ids are ASCII -/

/-- All characters of the text are ASCII. -/
def IsAscii (s : String) : Prop := ∀ c ∈ s.toList, c.toNat < 128

theorem isAscii_mint (uuid : Uuid) : IsAscii (mint uuid) := by
  have hdigits : ∀ c ∈ "0123456789abcdef".toList, c.toNat < 128 := by simp
  have hprefix : ∀ c ∈ "corr_".toList, c.toNat < 128 := by simp
  intro c hc
  rw [mint, String.toList_append, List.mem_append] at hc
  rcases hc with hc | hc
  · exact hprefix c hc
  · exact hdigits c (uuid.hex_digits c hc)

theorem isAscii_decodeIgnore (b : Bytes) : IsAscii (decodeIgnore b) := by
  intro c hc
  simp only [decodeIgnore, String.toList_ofList, List.mem_map, List.mem_filter,
    decide_eq_true_eq] at hc
  rcases hc with ⟨x, ⟨-, hx⟩, rfl⟩
  have hbound : ∀ n < 128, (Char.ofNat n).toNat < 128 := by decide
  exact hbound x.toNat hx

theorem isAscii_correlationId (headers : Headers) (uuid : Uuid) :
    IsAscii (correlationId headers uuid) := by
  unfold correlationId
  split
  · split
    · exact isAscii_mint uuid
    · exact isAscii_decodeIgnore _
  · exact isAscii_mint uuid

/-- ASCII texts are told apart by their bytes. -/
theorem ascii_inj {s t : String} (hs : IsAscii s) (ht : IsAscii t) (h : ascii s = ascii t) :
    s = t := by
  -- below 128 a character is its byte
  have hchar : ∀ c d : Char, c.toNat < 128 → d.toNat < 128 → c.toNat.toUInt8 = d.toNat.toUInt8 →
      c = d := by
    intro c d hc hd hcd
    have hnat := congrArg UInt8.toNat hcd
    rw [UInt8.toNat_ofNat', UInt8.toNat_ofNat', Nat.mod_eq_of_lt (by omega),
      Nat.mod_eq_of_lt (by omega)] at hnat
    exact Char.toNat_inj.1 hnat
  rw [← String.toList_inj]
  unfold IsAscii at hs ht
  unfold ascii at h
  generalize s.toList = xs at hs h
  generalize t.toList = ys at ht h
  induction xs generalizing ys with
  | nil => simpa using h.symm
  | cons c xs ih =>
      cases ys with
      | nil => simp at h
      | cons d ys =>
          simp only [List.map_cons, List.cons.injEq] at h
          rw [hchar c d (hs c List.mem_cons_self) (ht d List.mem_cons_self) h.1,
            ih (fun x hx => hs x (List.mem_cons_of_mem _ hx)) ys
              (fun x hx => ht x (List.mem_cons_of_mem _ hx)) h.2]

/-! ## When the ids agree -/

/-- The header is there, and none of its bytes is left when it is decoded. -/
def Lost (headers : Headers) : Prop :=
  ∃ raw, rawHeader headers = some raw ∧ raw ≠ [] ∧ ∀ x ∈ raw, ¬ x < 128

theorem correlationId_eq_empty {headers : Headers} {uuid : Uuid} :
    correlationId headers uuid = "" ↔ Lost headers := by
  unfold correlationId Lost
  cases rawHeader headers with
  | none => simp [mint_ne_empty]
  | some raw =>
      have hdecode : decodeIgnore raw = "" ↔ ∀ x ∈ raw, ¬ x < 128 := by
        rw [← String.toList_inj]
        simp [decodeIgnore]
      by_cases hraw : raw = []
      · simp [hraw, mint_ne_empty]
      · simp [hraw, hdecode]

/-- The handler of an escaped exception comes to the id of the request: it
reflects the header, or it draws the same id by chance. -/
def Repeats (headers : Headers) (draws : Draws) : Prop :=
  reflected headers ≠ none ∨ mint draws.handler = correlationId headers draws.entry

/-- The header has not lost all its bytes, unless nobody asks for the id, and no
exception escapes before the response has started, nor after it unless the
handler comes to the same id. -/
structure Coherent (headers : Headers) (draws : Draws) (app : App) : Prop where
  named : ¬ Lost headers ∨ app.Silent
  contained : match app.fate (correlationId headers draws.entry) with
    | .completed _ => True
    | .broken _ => Repeats headers draws
    | .failed => False

theorem handlerCalls_eq_iff {headers : Headers} {draws : Draws} :
    (∀ call ∈ handlerCalls headers draws.handler, call = correlationId headers draws.entry) ↔
      Repeats headers draws := by
  unfold handlerCalls Repeats
  cases reflected headers with
  | none => simp [currentCorrelationId]
  | some candidate => simp

theorem isAscii_handlerCalls {headers : Headers} {uuid : Uuid} :
    ∀ call ∈ handlerCalls headers uuid, IsAscii call := by
  unfold handlerCalls
  cases reflected headers with
  | none => simpa [currentCorrelationId] using isAscii_mint uuid
  | some candidate => simp

/-- The header of a response of the application is the id that the middleware has
given the request. -/
theorem App.run_response {context : Option String} {id : String} {app : App} {n : ℕ}
    {response : Headers}
    (h : (app.run context uuids (sendWithHeader id) n).ending = .completed response ∨
      (app.run context uuids (sendWithHeader id) n).ending = .broken response) :
    rawHeader response = some (ascii id) := by
  induction app generalizing n with
  | call k ih => exact ih _ h
  | start headers body =>
      simp only [App.run] at h
      split at h <;> rcases h with h | h <;> cases h
      · exact rawHeader_sendWithHeader id headers
      · exact rawHeader_sendWithHeader id headers
  | raised => rcases h with h | h <;> cases h

section Agreement

variable (size : String → Bytes) (headers : Headers) (draws : Draws) (app : App)

/-- Calls of the application that return the id of the request leave the rest to
its ending. -/
theorem agree_of_calls
    (hcalls : ∀ call ∈ (middleware headers draws app).calls,
      call = correlationId headers draws.entry) :
    Agree (handle size headers draws app) ↔ match (middleware headers draws app).ending with
      | .completed _ => True
      | .broken _ => Repeats headers draws
      | .failed => False := by
  unfold handle
  simp only
  cases hending : (middleware headers draws app).ending with
  | completed response =>
      simp only [iff_true]
      exact ⟨_, hcalls, App.run_response (.inl hending)⟩
  | broken response =>
      have hresponse := App.run_response (.inr hending)
      simp only
      rw [← handlerCalls_eq_iff]
      constructor
      · rintro ⟨id, hid, hheader⟩ call hcall
        -- the call and the id of the request have the same bytes
        have hcall' := hid call (List.mem_append_right _ hcall)
        rw [hresponse, ← hcall', Option.some.injEq] at hheader
        exact (ascii_inj (isAscii_correlationId headers draws.entry)
          (isAscii_handlerCalls call hcall) hheader).symm
      · intro hhandler
        refine ⟨_, ?_, hresponse⟩
        intro call hcall
        rcases List.mem_append.1 hcall with hcall | hcall
        · exact hcalls call hcall
        · exact hhandler call hcall
  | failed =>
      simp only [iff_false]
      rintro ⟨id, -, hresponse⟩
      rw [rawHeader_problemHeaders] at hresponse
      cases hresponse

/-- The header of any response is the id of the request, or it is missing. -/
theorem rawHeader_handle :
    rawHeader (handle size headers draws app).response =
        some (ascii (correlationId headers draws.entry)) ∨
      rawHeader (handle size headers draws app).response = none := by
  unfold handle
  simp only
  cases hending : (middleware headers draws app).ending with
  | completed response => exact .inl (App.run_response (.inl hending))
  | broken response => exact .inl (App.run_response (.inr hending))
  | failed => exact .inr (rawHeader_problemHeaders ..)

theorem calls_subset_handle :
    (middleware headers draws app).calls ⊆ (handle size headers draws app).calls := by
  unfold handle
  simp only
  cases (middleware headers draws app).ending <;> simp

/-- The ids of a request agree just when they are coherent, whatever the headers,
the draws and the application. -/
theorem agree_iff_coherent :
    Agree (handle size headers draws app) ↔ Coherent headers draws app := by
  by_cases hnamed : ¬ Lost headers ∨ app.Silent
  · have hrun : (∀ call ∈ (middleware headers draws app).calls,
          call = correlationId headers draws.entry) ∧
        (middleware headers draws app).ending = app.fate (correlationId headers draws.entry) := by
      unfold middleware
      rcases hnamed with hkept | hsilent
      · exact app.run_named (correlationId_eq_empty.not.2 hkept) 0
      · rw [App.run_silent hsilent]
        exact ⟨by simp, rfl⟩
    rw [agree_of_calls size headers draws app hrun.1, hrun.2]
    exact ⟨fun hcontained => ⟨hnamed, hcontained⟩, Coherent.contained⟩
  · -- a call has made up an id, and the header is empty
    have hlost : Lost headers ∧ ¬ app.Silent := by simpa using hnamed
    have hempty : correlationId headers draws.entry = "" := correlationId_eq_empty.2 hlost.1
    constructor
    · rintro ⟨id, hid, hheader⟩
      have hcall : ∃ call ∈ (middleware headers draws app).calls, call ≠ "" := by
        unfold middleware
        rw [hempty]
        exact App.run_unnamed hlost.2 0 _
      rcases hcall with ⟨call, hcall, hne⟩
      have hcall' := hid call (calls_subset_handle size headers draws app hcall)
      rcases rawHeader_handle size headers draws app with hsome | hnone
      · rw [hsome, hempty, Option.some.injEq, ← hcall'] at hheader
        have hlength : call.toList = [] := by simpa [ascii] using hheader.symm
        exact absurd (String.toList_inj.1 hlength) hne
      · rw [hnone] at hheader
        cases hheader
    · intro hcoherent
      exact absurd hcoherent.named hnamed

end Agreement

/-- One request's ids. -/
def sampleDraws : Draws :=
  ⟨⟨"0a1b2c3d4e5f60718293a4b5c6d7e8f9", by simp⟩,
    fun _ => ⟨"1b2c3d4e5f60718293a4b5c6d7e8f90a", by simp⟩,
    ⟨"2c3d4e5f60718293a4b5c6d7e8f90a1b", by simp⟩⟩

/-- A request whose header has no ASCII byte, and one call. -/
theorem header_lost :
    ¬ Agree (handle (fun _ => []) [(headerName, [255])] sampleDraws
      (.call fun _ => .start [] .returned)) := by
  rintro ⟨id, hid, hheader⟩
  have hcall := hid "corr_1b2c3d4e5f60718293a4b5c6d7e8f90a" (by decide)
  subst hcall
  revert hheader
  decide

end Alos.Observability
